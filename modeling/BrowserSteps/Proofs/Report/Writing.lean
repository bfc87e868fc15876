import BrowserSteps.Proofs.Files.Tree
import BrowserSteps.Report.Writer

/-!
When reports have been written. The forms have files of their own in the directory of the reports, so
that none is lost to another. That all of them were written can be seen from the files: it is the same
as that all of them are there afterwards.
-/

namespace BrowserSteps.Report

/-- The file of a form in the directory of the reports. -/
def Form.path (form : Form) (directory : Path) : Path := directory.child form.fileName

/-- A report is in the directory. -/
def Holds (files : FileTree) (directory : Path) (r : RunResult) (form : Form) : Prop :=
  files.readBytes (form.path directory) = .ok (Text.encodeUtf8 (form.text r))

/-- All reports of a run are in the directory. -/
def Stored (files : FileTree) (directory : Path) (r : RunResult) : Prop :=
  ∀ form, Holds files directory r form

variable {tree written : FileTree} {directory : Path} {r : RunResult} {form other : Form}

theorem Form.path_eq (form : Form) (directory : Path) :
    form.path directory = ⟨directory.absolute, directory.names ++ [form.fileName]⟩ := by
  have hname : Path.ofString form.fileName = ⟨false, [form.fileName]⟩ := by
    cases form <;> decide +kernel
  simp [path, Path.child, Path.append, hname]

theorem Form.parent_path (form : Form) (directory : Path) :
    (form.path directory).parent = directory := by
  simp [path_eq, Path.parent]

theorem Form.fileName_injective (h : form.fileName = other.fileName) : form = other := by
  cases form <;> cases other <;> first | rfl | exact absurd h (by decide)

theorem find_directory {content : Text.Bytes}
    (h : tree.readBytes (form.path directory) = .ok content) :
    tree.find directory = .ok .directory := by
  have hparent := FileTree.find_parent (FileTree.readBytes_eq_ok.mp h) (by simp [Form.path_eq])
  rwa [Form.parent_path] at hparent

theorem place_ne (distinct : other ≠ form) {content : Text.Bytes}
    (h : tree.readBytes (other.path directory) = .ok content) :
    tree.place (other.path directory) ≠ tree.place (form.path directory) := by
  obtain ⟨place, hplace, -⟩ := FileTree.find_eq_ok.mp (FileTree.readBytes_eq_ok.mp h)
  intro same
  have hname (each : Form) (heach : tree.place (each.path directory) = .ok place) :
      place.getLast? = some each.fileName := by
    apply FileTree.getLast?_place heach
    · simp [Form.path_eq]
    · cases each <;> decide
  have hboth := (hname other hplace).symm.trans (hname form (same ▸ hplace))
  exact distinct (Form.fileName_injective (Option.some.inj hboth))

theorem write_eq (tree : FileTree) (form : Form) (r : RunResult) (directory : Path) :
    write tree form r directory =
      match tree.makeDirectories directory with
      | (.error e, made) => (.error e, made)
      | (.ok (), made) =>
        match made.writeBytes (form.path directory) (Text.encodeUtf8 (form.text r)) with
        | .ok written => (.ok (form.path directory), written)
        | .error e => (.error e, made) := by
  have hparent := form.parent_path directory
  unfold write
  rw [show directory.child form.fileName = form.path directory from rfl]
  generalize form.path directory = path at hparent ⊢
  subst hparent
  rfl

/-- A report was written if and only if it is there afterwards. -/
theorem isOk_write (tree : FileTree) (form : Form) (r : RunResult) (directory : Path) :
    (write tree form r directory).1.isOk = true ↔
      Holds (write tree form r directory).2 directory r form := by
  have hmade := FileTree.makeDirectories_eq_ok tree directory
  rw [write_eq]
  generalize tree.makeDirectories directory = outcome at hmade
  rcases outcome with ⟨e | there, made⟩
  · refine iff_of_false Bool.false_ne_true ?_
    intro held
    cases hmade.mpr (find_directory held)
  · simp only
    cases hwrite : made.writeBytes (form.path directory) (Text.encodeUtf8 (form.text r)) with
    | ok written =>
        have held : Holds written directory r form := FileTree.readBytes_of_writeBytes hwrite
        exact iff_of_true rfl held
    | error e =>
        refine iff_of_false Bool.false_ne_true ?_
        intro held
        obtain ⟨fine, hfine⟩ := FileTree.writeBytes_of_find (FileTree.readBytes_eq_ok.mp held)
          (Text.encodeUtf8 (form.text r))
        cases hfine.symm.trans hwrite

/-- Writing one report leaves those of other forms alone. -/
theorem readBytes_write (distinct : other ≠ form) {old : Text.Bytes}
    (h : tree.readBytes (other.path directory) = .ok old) :
    (write tree form r directory).2.readBytes (other.path directory) = .ok old := by
  rw [write_eq, FileTree.makeDirectories_of_find (find_directory h)]
  simp only
  cases hwrite : tree.writeBytes (form.path directory) (Text.encodeUtf8 (form.text r)) with
  | ok written => exact FileTree.readBytes_writeBytes_of_ne hwrite h (place_ne distinct h)
  | error e => exact h

theorem writeEach_cons (directory : Path) (r : RunResult) (form : Form) (rest : List Form)
    (tree : FileTree) :
    writeEach directory r (form :: rest) tree =
      match write tree form r directory with
      | (.error e, written) => (.error e, written)
      | (.ok path, written) =>
        ((writeEach directory r rest written).1.map (path :: ·),
          (writeEach directory r rest written).2) := by
  exact rfl

theorem readBytes_writeEach {forms : List Form} (absent : other ∉ forms) {old : Text.Bytes}
    (h : tree.readBytes (other.path directory) = .ok old) :
    (writeEach directory r forms tree).2.readBytes (other.path directory) = .ok old := by
  induction forms generalizing tree with
  | nil => exact h
  | cons form rest ih =>
      have hkept := readBytes_write (r := r) (List.ne_of_not_mem_cons absent) h
      rw [writeEach_cons]
      rcases hwrite : write tree form r directory with ⟨e | path, written⟩
      · rwa [hwrite] at hkept
      · rw [hwrite] at hkept
        exact ih (List.not_mem_of_not_mem_cons absent) hkept

/-- Reports were written one after the other if and only if all are there afterwards. -/
theorem isOk_writeEach (tree : FileTree) {forms : List Form} (distinct : forms.Nodup) :
    (writeEach directory r forms tree).1.isOk = true ↔
      ∀ form ∈ forms, Holds (writeEach directory r forms tree).2 directory r form := by
  induction forms generalizing tree with
  | nil => exact iff_of_true rfl (List.forall_mem_nil _)
  | cons form rest ih =>
      obtain ⟨absent, distinct⟩ := List.nodup_cons.mp distinct
      have hfirst := isOk_write tree form r directory
      rw [writeEach_cons]
      rcases hwrite : write tree form r directory with ⟨e | path, written⟩
      · rw [hwrite] at hfirst
        refine iff_of_false Bool.false_ne_true ?_
        intro all
        cases hfirst.mpr (all form List.mem_cons_self)
      · rw [hwrite] at hfirst
        have held := readBytes_writeEach (r := r) absent (hfirst.mp rfl)
        have hmap : ((writeEach directory r rest written).1.map (path :: ·)).isOk =
            (writeEach directory r rest written).1.isOk := by
          cases (writeEach directory r rest written).1 <;> rfl
        simp only [hmap, List.forall_mem_cons]
        exact (ih written distinct).trans ⟨fun all => ⟨held, all⟩, fun all => all.2⟩

/-- All reports were written if and only if all are in the directory afterwards. -/
theorem isOk_writeAll (tree : FileTree) (r : RunResult) (directory : Path) :
    (writeAll tree r directory).1.isOk = true ↔
      Stored (writeAll tree r directory).2 directory r := by
  unfold writeAll Stored
  rw [isOk_writeEach tree (by decide)]
  constructor
  · intro held form
    apply held
    cases form <;> decide
  · intro held form _
    exact held form

end BrowserSteps.Report
