import BrowserSteps.Proofs.Run.Layout
import BrowserSteps.Proofs.Template.Retention
import Mathlib.Data.List.Nodup
import Mathlib.Data.List.Sort

/-!
Which of the listed templates can be loaded. A listing goes by the names of entries, and a template is
loaded from the file of its name with the extension behind it. The two part ways at directories that are
called like templates, and at the one name that is nothing but the extension.
-/

namespace BrowserSteps

namespace FileTree

/-- A directory as file systems have it. Whatever its entries are called, no name leads elsewhere, is too
long or stands there twice. -/
structure IsFolder (tree : FileTree) (directory : Path) (place : List String) : Prop where
  leads : tree.place directory = .ok place
  there : tree.at? place = some .directory
  once : (tree.namesIn place).Nodup
  entry : ∀ name ∈ tree.namesIn place, Path.IsEntryName name
  short : ∀ name ∈ tree.namesIn place, name.utf8ByteSize ≤ nameLimit

variable {tree : FileTree} {directory : Path} {place : List String} {name : String}

/-- The names in a directory are those that something stands at. -/
theorem mem_namesIn_iff (plain : name ≠ "..") :
    name ∈ tree.namesIn place ↔ ∃ entry, tree.at? (place ++ [name]) = some entry := by
  have inside : isAbove (place ++ [name]) = false := by simp [isAbove, plain]
  have hplace : ∀ p : List String,
      (if p.dropLast = place ∧ p ≠ [] then p.getLast? else none) = some name ↔
        p = place ++ [name] := by
    intro p
    constructor
    · intro h
      split at h
      next below => rw [← below.1, List.dropLast_append_getLast? _ h]
      next => cases h
    · rintro rfl
      simp
  simp only [namesIn, List.mem_filterMap, hplace, at?, inside, Bool.false_eq_true, if_false,
    ← Option.isSome_iff_exists, List.lookup_isSome_iff, beq_iff_eq]
  exact exists_congr fun p => and_congr_right fun _ => eq_comm

/-- The path of an entry leads to the place below that of its directory. -/
theorem IsFolder.place_child (folder : tree.IsFolder directory place) (named : Path.IsEntryName name)
    (short : name.utf8ByteSize ≤ nameLimit)
    (fits : (directory.child name).text.utf8ByteSize < pathLimit) :
    tree.place (directory.child name) = .ok (place ++ [name]) := by
  have hstep : FileTree.step place name = place ++ [name] := by
    rw [FileTree.step, if_neg (by simp [named.noDots])]
  have hwalk : tree.walk place [name] = .ok (place ++ [name]) := by
    simp only [walk, folder.there, Nat.not_lt.mpr short, if_false, hstep]
  have hnames : (if directory.absolute then "/" :: (directory.names ++ [name])
        else directory.names ++ [name]) =
      (if directory.absolute then "/" :: directory.names else directory.names) ++ [name] := by
    split <;> rfl
  have hleads := folder.leads
  unfold FileTree.place at hleads ⊢
  rw [if_neg (Nat.not_le.mpr fits), named.child, hnames]
  split at hleads
  · cases hleads
  · exact walk_append.mpr ⟨place, hleads, hwalk⟩

theorem find_ne_nameTooLong_of_place {path : Path} (h : tree.place path = .ok place) :
    tree.find path ≠ .error .nameTooLong := by
  simp only [find, h, bind, Except.bind]
  split <;> simp [pure, Except.pure]

/-- A path that is too long is refused whatever stands there. -/
theorem isFile_of_tooLong {path : Path} (long : pathLimit ≤ path.text.utf8ByteSize) :
    tree.isFile path = .error (.failed .nameTooLong path) := by
  simp [isFile, probe, find, FileTree.place, long, bind, Except.bind, Except.map]

end FileTree

namespace Template.Store

open FileTree

theorem isSuffixOf_extension_iff {name : String} :
    extension.toList.isSuffixOf name.toList = true ↔ ∃ n, name = n ++ extension := by
  rw [List.isSuffixOf_iff_suffix]
  constructor
  · rintro ⟨before, split⟩
    exact ⟨String.ofList before, String.toList_inj.mp (by simp [split])⟩
  · rintro ⟨n, rfl⟩
    exact ⟨n.toList, by simp⟩

/-- The stem of a file name is what stands before the extension; a name that is nothing but the extension
is its own stem. -/
theorem stemOf_append_extension (n : String) :
    Path.stemOf (n ++ extension) = if n = "" then extension else n := by
  by_cases none : n = ""
  · subst none
    decide
  · rw [if_neg none]
    have some : n.toList ≠ [] := fun empty => none (String.toList_eq_nil_iff.mp empty)
    have hafter : (n ++ extension).toList.reverse.takeWhile (· ≠ '.') = ['n', 'o', 's', 'j'] := by
      simp [extension]
    have hlength : (n ++ extension).toList.length = n.toList.length + 5 := by
      simp [extension]
    have hplace : Path.dotPlace? (n ++ extension).toList = .some n.toList.length := by
      have hnamed := List.length_pos_of_ne_nil some
      simp only [Path.dotPlace?, hafter, hlength]
      simp [show n.toList.length ≠ 0 by omega]
    rw [Path.stemOf, hplace]
    simp

/-- The names that a listing finds among those of the entries, in the order of the entries. -/
def stems (names : List String) : List String :=
  (names.filter fun name => extension.toList.isSuffixOf name.toList).map Path.stemOf

variable {names : List String} {n : String}

theorem append_extension_of_none : "" ++ extension = extension := by decide

theorem mem_stems_iff : n ∈ stems names ↔
    (n ≠ "" ∧ n ++ extension ∈ names) ∨ (n = extension ∧ extension ∈ names) := by
  simp only [stems, List.mem_map, List.mem_filter, isSuffixOf_extension_iff]
  constructor
  · rintro ⟨-, ⟨member, n, rfl⟩, rfl⟩
    rw [stemOf_append_extension]
    by_cases none : n = ""
    · subst none
      exact .inr ⟨if_pos rfl, by simpa using member⟩
    · rw [if_neg none]
      exact .inl ⟨none, member⟩
  · rintro (⟨some, member⟩ | ⟨rfl, member⟩)
    · exact ⟨_, ⟨member, n, rfl⟩, by rw [stemOf_append_extension, if_neg some]⟩
    · exact ⟨_, ⟨member, "", by simp⟩, by decide⟩

/-- Two entries share a stem only if one of them is called by the extension alone. -/
theorem nodup_stems_iff (once : names.Nodup) :
    (stems names).Nodup ↔ ¬ (extension ∈ names ∧ extension ++ extension ∈ names) := by
  have different : extension ≠ extension ++ extension := by decide
  have hown : Path.stemOf extension = extension := by decide
  rw [stems, List.nodup_map_iff_inj_on (once.filter _)]
  simp only [List.mem_filter, isSuffixOf_extension_iff]
  constructor
  · rintro apart ⟨alone, doubled⟩
    refine different (apart _ ⟨alone, "", append_extension_of_none.symm⟩ _ ⟨doubled, extension, rfl⟩ ?_)
    rw [stemOf_append_extension, if_neg (by decide), hown]
  · rintro notBoth - ⟨hm, m, rfl⟩ - ⟨hn, n, rfl⟩ same
    rw [stemOf_append_extension, stemOf_append_extension] at same
    split at same
    next hmnone =>
      subst hmnone
      split at same
      next hnnone => rw [hnnone]
      next =>
        obtain rfl := same
        exact absurd ⟨append_extension_of_none ▸ hm, hn⟩ notBoth
    next =>
      split at same
      next hnnone =>
        subst hnnone same
        exact absurd ⟨append_extension_of_none ▸ hn, hm⟩ notBoth
      next => rw [same]

/-- That the stems are what is there, without repetitions, comes to a condition on each entry. -/
theorem stems_exact_iff (once : names.Nodup) {isFile fits : String → Prop}
    (there : ∀ n, isFile n → n ++ extension ∈ names) :
    (∀ n ∈ stems names, isFile n ∧ fits n) ∧ (stems names).Nodup ∧ (∀ n, isFile n → n ∈ stems names) ↔
      ∀ n, n ++ extension ∈ names → n ≠ "" ∧ isFile n ∧ fits n := by
  rw [nodup_stems_iff once]
  constructor
  · rintro ⟨sound, apart, -⟩ n member
    have notAlone : extension ∉ names := by
      intro alone
      have own : extension ∈ stems names := mem_stems_iff.mpr (.inr ⟨rfl, alone⟩)
      exact apart ⟨alone, there _ (sound _ own).1⟩
    have some : n ≠ "" := by
      rintro rfl
      exact notAlone (append_extension_of_none ▸ member)
    exact ⟨some, sound n (mem_stems_iff.mpr (.inl ⟨some, member⟩))⟩
  · intro orderly
    have notAlone : extension ∉ names := by
      intro alone
      exact (orderly "" (append_extension_of_none.symm ▸ alone)).1 rfl
    refine ⟨fun n member => ?_, fun both => notAlone both.1, fun n file => ?_⟩
    · rcases mem_stems_iff.mp member with ⟨-, entry⟩ | ⟨-, alone⟩
      · exact (orderly n entry).2
      · exact absurd alone notAlone
    · exact mem_stems_iff.mpr (.inl ⟨(orderly n (there n file)).1, there n file⟩)

section Folder

variable {tree : FileTree} {directory : Path} {place : List String}
  (folder : tree.IsFolder directory place)
include folder

theorem names_of_folder : Store.names { directory } tree =
    .ok ((stems (tree.namesIn place)).mergeSort fun a b => a ≤ b) := by
  have there : tree.isDirectory directory = .ok true :=
    isDirectory_eq_true.mpr (find_eq_ok.mpr ⟨place, folder.leads, folder.there⟩)
  simp only [Store.names, there, folder.leads]
  rfl

/-- The path of a listed name is that of an entry, whether or not something stands there. -/
theorem entry_of_listed (listed : n ∈ stems (tree.namesIn place)) :
    Path.IsEntryName (n ++ extension) ∧ (n ++ extension).utf8ByteSize ≤ nameLimit := by
  rcases mem_stems_iff.mp listed with ⟨-, member⟩ | ⟨rfl, -⟩
  · exact ⟨folder.entry _ member, folder.short _ member⟩
  · exact ⟨⟨by decide, by decide, by decide, by decide⟩, by decide⟩

/-- A new store loads a listed name if and only if a file stands at its path. -/
theorem load_of_listed (readable : ∀ name content,
      tree.at? (place ++ [name]) = some (.file content) → ∃ text, Text.decodeUtf8 content = .ok text)
    (listed : n ∈ stems (tree.namesIn place)) :
    ((∃ text, (Store.load { directory } tree n).1 = .ok text) ↔
      (∃ content, tree.at? (place ++ [n ++ extension]) = some (.file content)) ∧
        (directory.child (n ++ extension)).text.utf8ByteSize < pathLimit) ∧
    ((directory.child (n ++ extension)).text.utf8ByteSize < pathLimit →
      (¬ ∃ content, tree.at? (place ++ [n ++ extension]) = some (.file content)) →
      Store.load { directory } tree n = (.error (.notFound n directory), { directory })) := by
  obtain ⟨named, short⟩ := entry_of_listed folder listed
  let store : Store := { directory }
  have fresh : store.loaded.lookup n = none := rfl
  by_cases fits : (directory.child (n ++ extension)).text.utf8ByteSize < pathLimit
  · have hplace : tree.place (store.pathOf n) = .ok (place ++ [n ++ extension]) :=
      folder.place_child named short fits
    have hfind (content : Text.Bytes) : tree.find (store.pathOf n) = .ok (.file content) ↔
        tree.at? (place ++ [n ++ extension]) = some (.file content) := by
      simp [find_eq_ok, hplace]
    simp only [← hfind] at readable ⊢
    rcases load_of_fresh fresh (find_ne_nameTooLong_of_place hplace) with
      ⟨content, text, hfound, -, hload⟩ | ⟨content, e, hfound, decoded, -, -⟩ | ⟨missing, hload⟩
    · exact ⟨iff_of_true ⟨text, congrArg Prod.fst hload⟩ ⟨⟨content, hfound⟩, fits⟩,
        fun _ noFile => absurd ⟨content, hfound⟩ noFile⟩
    · obtain ⟨text, decodes⟩ := readable _ content ((hfind content).mp hfound)
      cases decodes.symm.trans decoded
    · have notLoaded : ¬ ∃ text, (store.load tree n).1 = .ok text := by
        rw [hload]
        rintro ⟨-, ⟨⟩⟩
      refine ⟨iff_of_false notLoaded ?_, fun _ _ => hload⟩
      rintro ⟨⟨content, there⟩, -⟩
      exact missing content there
  · have hload : (store.load tree n).1 =
        .error (.file (.failed .nameTooLong (directory.child (n ++ extension)))) := by
      rw [load, fresh]
      simp [store, pathOf, isFile_of_tooLong (Nat.not_lt.mp fits)]
    have notLoaded : ¬ ∃ text, (store.load tree n).1 = .ok text := by
      rw [hload]
      rintro ⟨-, ⟨⟩⟩
    exact ⟨iff_of_false notLoaded fun loadable => fits loadable.2, fun short => absurd short fits⟩

end Folder

/-- What is listed of a directory, and what a new store can load of it. Listed are the names of all entries
that end in the extension, be they files or directories; an entry called by the extension alone is listed
by its whole name. Loaded is what has a file at its path. So the listing is sound, without repetitions
and complete if and only if every entry that ends in the extension is a file with something before it, and
no path is too long. -/
theorem listed_templates {tree : FileTree} {directory : Path} {place : List String}
    (folder : tree.IsFolder directory place) (readable : ∀ name content,
      tree.at? (place ++ [name]) = some (.file content) → ∃ text, Text.decodeUtf8 content = .ok text) :
    let store : Store := { directory }
    let entries := tree.namesIn place
    let isFile (n : String) := ∃ content, tree.at? (place ++ [n ++ extension]) = some (.file content)
    let fits (n : String) := (store.pathOf n).text.utf8ByteSize < pathLimit
    let loads (n : String) := ∃ text, (store.load tree n).1 = .ok text
    ∃ listed, store.names tree = .ok listed ∧ listed.Pairwise (· ≤ ·) ∧
      (∀ n, n ∈ listed ↔
        (n ≠ "" ∧ n ++ extension ∈ entries) ∨ (n = extension ∧ extension ∈ entries)) ∧
      (∀ n ∈ listed, (loads n ↔ isFile n ∧ fits n) ∧
        (fits n → ¬ isFile n → store.load tree n = (.error (.notFound n directory), store))) ∧
      (listed.Nodup ↔ ¬ (extension ∈ entries ∧ extension ++ extension ∈ entries)) ∧
      ((∀ n ∈ listed, loads n) ∧ listed.Nodup ∧ (∀ n, isFile n → n ∈ listed) ↔
        ∀ n, n ++ extension ∈ entries → n ≠ "" ∧ isFile n ∧ fits n) := by
  intro store entries isFile fits loads
  let listed := (stems entries).mergeSort fun a b => a ≤ b
  have hperm : listed.Perm (stems entries) := List.mergeSort_perm ..
  have hloads (n : String) (member : n ∈ listed) :=
    load_of_listed folder readable (hperm.mem_iff.mp member)
  have hfile (n : String) (file : isFile n) : n ++ extension ∈ entries := by
    obtain ⟨content, there⟩ := file
    refine (mem_namesIn_iff ?_).mpr ⟨_, there⟩
    intro dots
    have hlast := congrArg (·.toList.getLast?) dots
    simp [extension] at hlast
  have hsound : (∀ n ∈ listed, loads n) ↔ ∀ n ∈ stems entries, isFile n ∧ fits n := by
    simp only [← hperm.mem_iff]
    exact forall₂_congr fun n member => (hloads n member).1
  have hcomplete : (∀ n, isFile n → n ∈ listed) ↔ ∀ n, isFile n → n ∈ stems entries := by
    simp only [hperm.mem_iff]
  refine ⟨listed, names_of_folder folder, List.pairwise_mergeSort' (· ≤ ·) _,
    fun n => hperm.mem_iff.trans mem_stems_iff, hloads,
    hperm.nodup_iff.trans (nodup_stems_iff folder.once), ?_⟩
  rw [hsound, hperm.nodup_iff, hcomplete]
  exact stems_exact_iff folder.once hfile

/-- A directory that is called like a template is listed, and not loaded. -/
theorem listed_templates_of_archive :
    let directory : Path := ⟨false, ["templates"]⟩
    let tree : FileTree := ⟨[(["templates"], .directory), (["templates", "LGN.json"], .file [0x5b, 0x5d]),
      (["templates", "old.json"], .directory)]⟩
    (tree.IsFolder directory ["templates"] ∧
      ∀ name content, tree.at? (["templates"] ++ [name]) = some (.file content) →
        ∃ text, Text.decodeUtf8 content = .ok text) ∧
      ∃ listed, Store.names { directory } tree = .ok listed ∧ "LGN" ∈ listed ∧ "old" ∈ listed ∧
        (∃ text, (Store.load { directory } tree "LGN").1 = .ok text) ∧
        Store.load { directory } tree "old" = (.error (.notFound "old" directory), { directory }) := by
  intro directory tree
  have entries : tree.namesIn ["templates"] = ["LGN.json", "old.json"] := by decide
  have folder : tree.IsFolder directory ["templates"] := by
    refine ⟨by decide, by decide, ?_, ?_, ?_⟩
    · rw [entries]
      decide
    · rw [entries]
      simp only [List.mem_cons, List.not_mem_nil, or_false, forall_eq_or_imp, forall_eq]
      exact ⟨⟨by decide, by decide, by decide, by decide⟩, by decide, by decide, by decide, by decide⟩
    · rw [entries]
      decide
  have readable (name : String) (content : Text.Bytes)
      (there : tree.at? (["templates"] ++ [name]) = some (.file content)) :
      ∃ text, Text.decodeUtf8 content = .ok text := by
    unfold at? at there
    split at there
    · cases there
    · obtain ⟨before, after, split, -⟩ := List.lookup_eq_some_iff.mp there
      have member : (["templates"] ++ [name], Entry.file content) ∈ tree.entries := by simp [split]
      obtain ⟨-, rfl⟩ : name = "LGN.json" ∧ content = [0x5b, 0x5d] := by simpa [tree] using member
      exact ⟨"[]", by decide⟩
  obtain ⟨listed, hnames, -, hlisted, hloads, -⟩ := listed_templates folder readable
  have first : "LGN" ∈ listed := (hlisted _).mpr (.inl ⟨by decide, by rw [entries]; decide⟩)
  have second : "old" ∈ listed := (hlisted _).mpr (.inl ⟨by decide, by rw [entries]; decide⟩)
  refine ⟨⟨folder, readable⟩, listed, hnames, first, second, ?_, ?_⟩
  · exact (hloads _ first).1.mpr ⟨⟨_, rfl⟩, by decide⟩
  · refine (hloads _ second).2 (by decide) ?_
    rintro ⟨content, file⟩
    cases file

/-- Each promise of a listing fails on its own: a directory is listed and not loaded, a file called by the
extension alone is listed by a name that nothing is loaded by, and together with the file that this name
stands for the name comes twice. -/
theorem listing_without_loading :
    let directory : Path := ⟨false, ["templates"]⟩
    let holding (entries : List (String × Entry)) : FileTree :=
      ⟨(["templates"], .directory) :: entries.map fun (name, entry) => (["templates", name], entry)⟩
    let list : Entry := .file [0x5b, 0x5d]
    let folder := holding [("a.json", .directory)]
    let alone := holding [(".json", list)]
    let doubled := holding [(".json", list), (".json.json", list)]
    let store : Store := { directory }
    (store.names folder = .ok ["a"] ∧ (store.load folder "a").1 = .error (.notFound "a" directory)) ∧
      (store.names alone = .ok [".json"] ∧
        (store.load alone ".json").1 = .error (.notFound ".json" directory) ∧
        (store.load alone "").1 = .ok "[]") ∧
      store.names doubled = .ok [".json", ".json"] := by
  intro directory holding list folder alone doubled store
  have sorted : ([".json", ".json"].mergeSort fun a b => a ≤ b) = [".json", ".json"] :=
    List.mergeSort_of_pairwise (by decide)
  exact ⟨⟨congrArg Except.ok (List.mergeSort_singleton "a"), by rfl⟩,
    ⟨congrArg Except.ok (List.mergeSort_singleton ".json"), by rfl, by rfl⟩, congrArg Except.ok sorted⟩

end Template.Store

end BrowserSteps
