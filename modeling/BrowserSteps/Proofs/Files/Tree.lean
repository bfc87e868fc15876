import BrowserSteps.Files.Tree
import Mathlib.Data.List.Basic

/-!
What writing does to a tree of files. A place that no directory stands at is on the way to no other
place, and so whatever is put there leaves all other paths as they were. A directory is made, with those
above it, if and only if it is there afterwards. A file holds what was written into it last.
-/

namespace BrowserSteps

namespace Path

theorem size_text_of_none {p : Path} (none : p.names = []) : p.text.utf8ByteSize = 1 := by
  cases habsolute : p.absolute <;> simp [text, none, habsolute] <;> decide

/-- The directory of a path has no longer a text than the path, unless it has but one byte. -/
theorem size_text_parent (p : Path) :
    p.parent.text.utf8ByteSize ≤ max 1 p.text.utf8ByteSize := by
  by_cases none : p.parent.names = []
  · rw [size_text_of_none none]
    exact Nat.le_max_left ..
  · obtain ⟨absolute, names⟩ := p
    have hinit : names.dropLast ≠ [] := none
    have some : names ≠ [] := by
      rintro rfl
      exact hinit rfl
    have hjoined : "/".intercalate names =
        "/".intercalate names.dropLast ++ "/" ++ names.getLast some := by
      conv_lhs => rw [← List.dropLast_concat_getLast some]
      rw [String.intercalate_append_of_ne_nil hinit (List.cons_ne_nil _ _)]
      simp
    apply Nat.le_trans _ (Nat.le_max_right ..)
    simp only [text, parent, List.isEmpty_eq_false_iff.mpr hinit, List.isEmpty_eq_false_iff.mpr some,
      hjoined]
    cases absolute <;> simp [String.utf8ByteSize_append] <;> omega

end Path

namespace FileTree

variable {tree : FileTree} {place other : List String} {entry : Entry}

theorem at?_put_self (inside : isAbove place = false) :
    (tree.put place entry).at? place = some entry := by
  simp [at?, put, inside]

theorem at?_put_of_ne (h : other ≠ place) : (tree.put place entry).at? other = tree.at? other := by
  simp [at?, put, Keyed.lookup_put_of_ne h]

theorem not_isAbove (free : tree.at? place ≠ some .directory) : isAbove place = false := by
  by_contra above
  simp [at?, above] at free

theorem walk_put (free : tree.at? place ≠ some .directory) {names start last : List String}
    (h : tree.walk start names = .ok last) : (tree.put place entry).walk start names = .ok last := by
  induction names generalizing start with
  | nil => exact h
  | cons name rest ih =>
      unfold walk at h ⊢
      split at h
      · cases h
      · cases h
      next directory =>
        have elsewhere : start ≠ place := by
          rintro rfl
          exact free directory
        rw [at?_put_of_ne elsewhere, directory]
        simp only
        split at h
        · cases h
        next short =>
          rw [if_neg short]
          exact ih h

theorem walk_append {names more start last : List String} :
    tree.walk start (names ++ more) = .ok last ↔
      ∃ between, tree.walk start names = .ok between ∧ tree.walk between more = .ok last := by
  induction names generalizing start with
  | nil => simp [walk]
  | cons name rest ih =>
      simp only [List.cons_append, walk]
      split
      · simp
      · simp
      · split
        · simp
        · exact ih

theorem place_put (free : tree.at? place ≠ some .directory) {path : Path} {last : List String}
    (h : tree.place path = .ok last) : (tree.put place entry).place path = .ok last := by
  unfold FileTree.place at h ⊢
  split at h
  · cases h
  next short =>
    rw [if_neg short]
    exact walk_put free h

theorem find_eq_ok {path : Path} :
    tree.find path = .ok entry ↔ ∃ place, tree.place path = .ok place ∧ tree.at? place = some entry := by
  unfold find
  cases tree.place path with
  | error fault => simp [bind, Except.bind]
  | ok last =>
      cases hfound : tree.at? last with
      | none => simp [bind, Except.bind, hfound]
      | some found => simp [bind, Except.bind, pure, Except.pure, hfound]

theorem find_put_self {path : Path} (free : tree.at? place ≠ some .directory)
    (h : tree.place path = .ok place) : (tree.put place entry).find path = .ok entry :=
  find_eq_ok.mpr ⟨place, place_put free h, at?_put_self (not_isAbove free)⟩

theorem find_put_of_ne {path : Path} {found : Entry} (free : tree.at? place ≠ some .directory)
    (h : tree.find path = .ok found) (elsewhere : tree.place path ≠ .ok place) :
    (tree.put place entry).find path = .ok found := by
  obtain ⟨last, hplace, hfound⟩ := find_eq_ok.mp h
  refine find_eq_ok.mpr ⟨last, place_put free hplace, ?_⟩
  rw [at?_put_of_ne, hfound]
  rintro rfl
  exact elsewhere hplace

/-- A path leads through the directory that its last name is looked up in. -/
theorem place_parent {path : Path} {last : List String} (h : tree.place path = .ok last)
    (named : path.names ≠ []) :
    ∃ between, tree.place path.parent = .ok between ∧ tree.at? between = some .directory ∧
      last = step between (path.names.getLast named) := by
  unfold FileTree.place at h
  split at h
  · cases h
  next short =>
    have hsize := path.size_text_parent
    have hconcat : path.names = path.parent.names ++ [path.names.getLast named] :=
      (List.dropLast_concat_getLast named).symm
    have hnames : (if path.absolute then "/" :: path.names else path.names) =
        (if path.absolute then "/" :: path.parent.names else path.parent.names) ++
          [path.names.getLast named] := by
      split
      · rw [List.cons_append, ← hconcat]
      · exact hconcat
    rw [hnames, walk_append] at h
    obtain ⟨between, hbetween, hstep⟩ := h
    have hplace : tree.place path.parent = .ok between := by
      unfold FileTree.place
      rw [if_neg (by simp only [pathLimit] at short ⊢; omega)]
      exact hbetween
    refine ⟨between, hplace, ?_⟩
    unfold walk at hstep
    split at hstep
    · cases hstep
    · cases hstep
    next directory =>
      split at hstep
      · cases hstep
      · exact ⟨directory, (Except.ok.inj hstep).symm⟩

/-- What stands below a path stands in a directory. -/
theorem find_parent {path : Path} (h : tree.find path = .ok entry) (named : path.names ≠ []) :
    tree.find path.parent = .ok .directory := by
  obtain ⟨last, hplace, -⟩ := find_eq_ok.mp h
  obtain ⟨between, hparent, directory, -⟩ := place_parent hplace named
  exact find_eq_ok.mpr ⟨between, hparent, directory⟩

/-- A path of a plain name leads to a place of that name. -/
theorem getLast?_place {path : Path} {last : List String} (h : tree.place path = .ok last)
    {name : String} (hname : path.names.getLast? = some name) (plain : name ≠ "..") :
    last.getLast? = some name := by
  have named : path.names ≠ [] := by
    intro none
    simp [none] at hname
  obtain ⟨between, -, -, rfl⟩ := place_parent h named
  rw [List.getLast?_eq_some_getLast named, Option.some.injEq] at hname
  rw [hname, step, if_neg (by simp [plain])]
  exact List.getLast?_concat ..

theorem isDirectory_eq_true {path : Path} :
    tree.isDirectory path = .ok true ↔ tree.find path = .ok .directory := by
  unfold isDirectory probe
  rcases tree.find path with fault | content | _
  · cases fault <;> simp [Except.map]
  · simp [Except.map]
  · simp [Except.map]

theorem settle_eq_ok {path : Path} {fault : FileFault} :
    makeDirectories.settle tree path fault = .ok () ↔ tree.find path = .ok .directory := by
  rw [← isDirectory_eq_true]
  unfold makeDirectories.settle
  rcases tree.isDirectory path with e | _ | _ <;> simp [bind, Except.bind, pure, Except.pure]

theorem find_of_makeOne {path : Path} {made : FileTree} (h : tree.makeOne path = .ok made) :
    made.find path = .ok .directory := by
  unfold makeOne at h
  cases hplace : tree.place path with
  | error fault =>
      rw [hplace] at h
      cases h
  | ok place =>
      simp only [hplace, bind, Except.bind] at h
      cases hfound : tree.at? place with
      | some found =>
          rw [hfound] at h
          cases h
      | none =>
          rw [hfound] at h
          obtain rfl := Except.ok.inj h
          exact find_put_self (by simp [hfound]) hplace

theorem makeOne_of_find {path : Path} (h : tree.find path = .ok entry) :
    tree.makeOne path = .error .exists := by
  obtain ⟨place, hplace, hfound⟩ := find_eq_ok.mp h
  simp [makeOne, hplace, hfound, bind, Except.bind]

/-- The working directory and the root have nothing above them that could be missing. -/
theorem named_of_missing {path : Path} (h : tree.makeOne path = .error .missing) :
    path.names ≠ [] := by
  intro none
  have hshort : ¬ pathLimit ≤ path.text.utf8ByteSize := by
    rw [Path.size_text_of_none none]
    decide
  have hplace : ∃ place, tree.place path = .ok place := by
    unfold FileTree.place
    rw [if_neg hshort, none]
    cases path.absolute with
    | false => exact ⟨[], rfl⟩
    | true => exact ⟨["/"], rfl⟩
  obtain ⟨place, hplace⟩ := hplace
  unfold makeOne at h
  simp only [hplace, bind, Except.bind] at h
  split at h <;> cases h

/-- A directory that is there need not be made. -/
theorem makeDirectories_of_find {path : Path} (h : tree.find path = .ok .directory) :
    tree.makeDirectories path = (.ok (), tree) := by
  simp [makeDirectories, makeDirectories.go, makeOne_of_find h, settle_eq_ok.mpr h]

theorem go_eq_ok {path : Path} {bound : Nat} (enough : path.names.length < bound) :
    (makeDirectories.go tree path bound).1 = .ok () ↔
      (makeDirectories.go tree path bound).2.find path = .ok .directory := by
  induction bound generalizing path with
  | zero => cases enough
  | succ bound ih =>
      unfold makeDirectories.go
      cases hfirst : tree.makeOne path with
      | ok made => simp [find_of_makeOne hfirst]
      | error fault =>
          cases fault with
          | «exists» | notDirectory | isDirectory | nameTooLong => exact settle_eq_ok
          | missing =>
              have named := named_of_missing hfirst
              have hlength : path.parent.names.length < bound := by
                have := List.length_pos_of_ne_nil named
                simp only [Path.parent, List.length_dropLast]
                omega
              have hparent := ih hlength
              cases hgo : makeDirectories.go tree path.parent bound with
              | mk made later =>
                  rw [hgo] at hparent
                  cases made with
                  | error e =>
                      -- Nothing is below a directory that could not be made.
                      simp only [reduceCtorEq, false_iff]
                      intro found
                      cases hparent.mpr (find_parent found named)
                  | ok there =>
                      simp only
                      cases hagain : later.makeOne path with
                      | ok made => simp [find_of_makeOne hagain]
                      | error fault => exact settle_eq_ok

theorem makeDirectories_eq_ok (tree : FileTree) (path : Path) :
    (tree.makeDirectories path).1 = .ok () ↔
      (tree.makeDirectories path).2.find path = .ok .directory :=
  go_eq_ok (Nat.lt_succ_self _)

theorem readBytes_eq_ok {path : Path} {content : Text.Bytes} :
    tree.readBytes path = .ok content ↔ tree.find path = .ok (.file content) := by
  unfold readBytes
  rcases tree.find path with fault | bytes | _ <;> simp

theorem writeBytes_eq_ok {path : Path} {content : Text.Bytes} {written : FileTree} :
    tree.writeBytes path content = .ok written ↔ ∃ place, tree.place path = .ok place ∧
      tree.at? place ≠ some .directory ∧ tree.put place (.file content) = written := by
  unfold writeBytes
  cases tree.place path with
  | error fault => simp
  | ok place =>
      rcases hfound : tree.at? place with _ | bytes | _ <;> simp [hfound]

/-- A file that can be read can be written. -/
theorem writeBytes_of_find {path : Path} {old : Text.Bytes} (h : tree.find path = .ok (.file old))
    (content : Text.Bytes) : ∃ written, tree.writeBytes path content = .ok written := by
  obtain ⟨place, hplace, hfound⟩ := find_eq_ok.mp h
  exact ⟨_, writeBytes_eq_ok.mpr ⟨place, hplace, by simp [hfound], rfl⟩⟩

theorem readBytes_of_writeBytes {path : Path} {content : Text.Bytes} {written : FileTree}
    (h : tree.writeBytes path content = .ok written) : written.readBytes path = .ok content := by
  obtain ⟨place, hplace, free, rfl⟩ := writeBytes_eq_ok.mp h
  exact readBytes_eq_ok.mpr (find_put_self free hplace)

/-- Other files are not touched. -/
theorem readBytes_writeBytes_of_ne {path other : Path} {content old : Text.Bytes}
    {written : FileTree} (h : tree.writeBytes path content = .ok written)
    (hold : tree.readBytes other = .ok old) (elsewhere : tree.place other ≠ tree.place path) :
    written.readBytes other = .ok old := by
  obtain ⟨place, hplace, free, rfl⟩ := writeBytes_eq_ok.mp h
  exact readBytes_eq_ok.mpr (find_put_of_ne free (readBytes_eq_ok.mp hold) (hplace ▸ elsewhere))

/-- Writes files one after the other. -/
def writeAll (tree : FileTree) : List (Path × Text.Bytes) → Except FileError FileTree
  | [] => .ok tree
  | (path, content) :: rest => (tree.writeBytes path content).bind (·.writeAll rest)

theorem writeAll_cons_eq_ok {path : Path} {content : Text.Bytes} {rest : List (Path × Text.Bytes)}
    {last : FileTree} : tree.writeAll ((path, content) :: rest) = .ok last ↔
      ∃ written, tree.writeBytes path content = .ok written ∧ written.writeAll rest = .ok last := by
  rw [writeAll]
  cases tree.writeBytes path content <;> simp [Except.bind]

theorem writeAll_append_eq_ok {first second : List (Path × Text.Bytes)} {last : FileTree} :
    tree.writeAll (first ++ second) = .ok last ↔
      ∃ between, tree.writeAll first = .ok between ∧ between.writeAll second = .ok last := by
  induction first generalizing tree with
  | nil => simp [writeAll]
  | cons write rest ih =>
      obtain ⟨path, content⟩ := write
      simp only [List.cons_append, writeAll_cons_eq_ok, ih]
      constructor
      · rintro ⟨written, hwritten, between, hbetween, hlast⟩
        exact ⟨between, ⟨written, hwritten, hbetween⟩, hlast⟩
      · rintro ⟨between, ⟨written, hwritten, hbetween⟩, hlast⟩
        exact ⟨written, hwritten, between, hbetween, hlast⟩

end FileTree

/-- A path that never leads to the place of another one. -/
def Path.Elsewhere (p other : Path) : Prop :=
  ∀ (tree : FileTree) (place : List String), tree.place p = .ok place → tree.place other ≠ .ok place

/-- Entries of different names stand at different places. -/
theorem Path.elsewhere_of_names {p other : Path} {name otherName : String}
    (hname : p.names.getLast? = some name) (hother : other.names.getLast? = some otherName)
    (plain : name ≠ "..") (otherPlain : otherName ≠ "..") (different : name ≠ otherName) :
    p.Elsewhere other := by
  intro tree place hplace same
  have hlast := FileTree.getLast?_place hplace hname plain
  rw [FileTree.getLast?_place same hother otherPlain] at hlast
  exact different (Option.some.inj hlast).symm

namespace FileTree

variable {tree last : FileTree} {path : Path} {content : Text.Bytes}
  {writes before after : List (Path × Text.Bytes)}

theorem readBytes_writeAll_of_elsewhere (written : tree.writeAll writes = .ok last)
    (there : tree.readBytes path = .ok content) (elsewhere : ∀ w ∈ writes, w.1.Elsewhere path) :
    last.readBytes path = .ok content := by
  induction writes generalizing tree with
  | nil =>
      obtain rfl := Except.ok.inj written
      exact there
  | cons write rest ih =>
      obtain ⟨next, hwrite, hrest⟩ := writeAll_cons_eq_ok.mp written
      obtain ⟨first, others⟩ := List.forall_mem_cons.mp elsewhere
      refine ih hrest (readBytes_writeBytes_of_ne hwrite there ?_) others
      obtain ⟨place, hplace, -, -⟩ := writeBytes_eq_ok.mp hwrite
      rw [hplace]
      exact first tree place hplace

/-- A file holds what was written into it last. -/
theorem readBytes_writeAll (written : tree.writeAll (before ++ (path, content) :: after) = .ok last)
    (elsewhere : ∀ w ∈ after, w.1.Elsewhere path) : last.readBytes path = .ok content := by
  obtain ⟨between, -, hrest⟩ := writeAll_append_eq_ok.mp written
  obtain ⟨next, hwrite, hafter⟩ := writeAll_cons_eq_ok.mp hrest
  exact readBytes_writeAll_of_elsewhere hafter (readBytes_of_writeBytes hwrite) elsewhere

end FileTree

end BrowserSteps
