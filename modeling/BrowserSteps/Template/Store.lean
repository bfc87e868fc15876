import BrowserSteps.Files.Tree
import BrowserSteps.Template.Substitution

/-!
Named templates in a directory. A template is read once; later changes of its file do not
show.
-/

namespace BrowserSteps.Template

structure Store where
  directory : Path
  loaded : List (String × String) := []
  deriving Repr

/-- Why a template is not there or cannot be used. -/
inductive StoreError where
  | notFound (name : String) (directory : Path)
  | file (error : FileError)
  | build (error : BuildError)
  deriving Repr

def notFoundMessage (name : String) (directory : Path) : String :=
  "テンプレート '" ++ name ++ "' が見つかりません: " ++ directory.text

/-- What is said of a template that is not there or cannot be used. -/
def StoreError.message : StoreError → String
  | .notFound name directory => notFoundMessage name directory
  | .file error => error.message
  | .build error => error.message

namespace Store

/-- Names of template files end like this. -/
def extension : String := ".json"

private def isTemplateFile (name : String) : Bool :=
  extension.toList.isSuffixOf name.toList

/-- The names of all templates, sorted. -/
def names (store : Store) (tree : FileTree) : Except FileError (List String) := do
  if ← tree.isDirectory store.directory then
    let found := match tree.place store.directory with
      | .ok place => tree.namesIn place
      | .error _ => []
    return ((found.filter isTemplateFile).map Path.stemOf).mergeSort fun a b => a ≤ b
  else return []

def pathOf (store : Store) (name : String) : Path := store.directory.child (name ++ extension)

/-- The text of a template. -/
def load (store : Store) (tree : FileTree) (name : String) : Except StoreError String × Store :=
  match store.loaded.lookup name with
  | some text => (.ok text, store)
  | none =>
    match tree.isFile (store.pathOf name) with
    | .error e => (.error (.file e), store)
    | .ok false => (.error (.notFound name store.directory), store)
    | .ok true =>
      match tree.readText (store.pathOf name) with
      | .error e => (.error (.file e), store)
      | .ok text => (.ok text, { store with loaded := (name, text) :: store.loaded })

/-- The steps of a template, filled in. -/
def build (store : Store) (tree : FileTree) (name : String) (params : List (String × String)) :
    Except StoreError (List Step) × Store :=
  match store.load tree name with
  | (.error e, store) => (.error e, store)
  | (.ok text, store) => ((Template.build text params).mapError .build, store)

end Store

end BrowserSteps.Template
