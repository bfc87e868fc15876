import BrowserSteps.Proofs.Run.Screenshots
import BrowserSteps.Proofs.Run.Traffic
import BrowserSteps.Run.Runner

/-!
One run after another. Nothing that a runner went through shows in its next run: the run is the one that a
new runner would make. Its screenshots lie in its own directory; that is the directory of another run if
and only if both have the same tag, as a file name, and began in the same second of the same day.
-/

namespace BrowserSteps

namespace FileTree

variable {tree later last : FileTree} {path : Path} {place : List String}

/-- Some directories were made where nothing stood, and nothing else changed. -/
def Extends (tree later : FileTree) : Prop :=
  ∀ place, later.at? place = tree.at? place ∨
    tree.at? place = none ∧ later.at? place = some .directory

theorem Extends.refl (tree : FileTree) : tree.Extends tree := fun _ => .inl rfl

theorem Extends.trans (first : tree.Extends later) (second : later.Extends last) :
    tree.Extends last := by
  intro place
  rcases second place with same | ⟨none, made⟩
  · rw [same]
    exact first place
  · rcases first place with same | ⟨-, made'⟩
    · exact .inr ⟨same ▸ none, made⟩
    · rw [none] at made'
      cases made'

theorem extends_of_makeOne (h : tree.makeOne path = .ok later) : tree.Extends later := by
  unfold makeOne at h
  cases hplace : tree.place path with
  | error fault =>
      rw [hplace] at h
      cases h
  | ok made =>
      simp only [hplace, bind, Except.bind] at h
      split at h
      · cases h
      next none =>
        obtain rfl := Except.ok.inj h
        intro place
        have free : tree.at? made ≠ some .directory := by simp [none]
        by_cases same : place = made
        · rw [same]
          exact .inr ⟨none, at?_put_self (not_isAbove free)⟩
        · exact .inl (at?_put_of_ne same)

theorem extends_makeDirectories (tree : FileTree) (path : Path) :
    tree.Extends (tree.makeDirectories path).2 := by
  have hgo (path : Path) (bound : Nat) : tree.Extends (makeDirectories.go tree path bound).2 := by
    induction bound generalizing path with
    | zero => exact .refl tree
    | succ bound ih =>
        unfold makeDirectories.go
        split
        next made => exact extends_of_makeOne made
        · have hparent := ih path.parent
          split
          next refused => rwa [refused] at hparent
          next made =>
            rw [made] at hparent
            split
            next own => exact hparent.trans (extends_of_makeOne own)
            · exact hparent
        · exact .refl tree
  exact hgo path _

/-- Paths lead where they led before something was written. -/
theorem place_writeAll {writes : List (Path × Text.Bytes)} (h : tree.writeAll writes = .ok last)
    (leads : tree.place path = .ok place) : last.place path = .ok place := by
  induction writes generalizing tree with
  | nil =>
      obtain rfl := Except.ok.inj h
      exact leads
  | cons write rest ih =>
      obtain ⟨written, hwritten, hrest⟩ := writeAll_cons_eq_ok.mp h
      obtain ⟨own, -, free, rfl⟩ := writeBytes_eq_ok.mp hwritten
      exact ih hrest (place_put free leads)

/-- What was written has a place. -/
theorem place_of_writeAll {writes : List (Path × Text.Bytes)} (h : tree.writeAll writes = .ok last) :
    ∀ write ∈ writes, ∃ place, last.place write.1 = .ok place := by
  induction writes generalizing tree with
  | nil => exact List.forall_mem_nil _
  | cons write rest ih =>
      obtain ⟨written, hwritten, hrest⟩ := writeAll_cons_eq_ok.mp h
      refine List.forall_mem_cons.mpr ⟨?_, ih hrest⟩
      obtain ⟨own, leads, free, rfl⟩ := writeBytes_eq_ok.mp hwritten
      exact ⟨own, place_writeAll hrest (place_put free leads)⟩

/-- Only the places that were written to have changed. -/
theorem at?_writeAll {writes : List (Path × Text.Bytes)} (h : tree.writeAll writes = .ok last)
    (place : List String) : last.at? place = tree.at? place ∨
      ∃ write ∈ writes, last.place write.1 = .ok place := by
  induction writes generalizing tree with
  | nil =>
      obtain rfl := Except.ok.inj h
      exact .inl rfl
  | cons write rest ih =>
      obtain ⟨written, hwritten, hrest⟩ := writeAll_cons_eq_ok.mp h
      obtain ⟨own, leads, free, rfl⟩ := writeBytes_eq_ok.mp hwritten
      rcases ih hrest with same | ⟨later, member, there⟩
      · by_cases here : place = own
        · subst here
          exact .inr ⟨write, List.mem_cons_self, place_writeAll hrest (place_put free leads)⟩
        · exact .inl (same.trans (at?_put_of_ne here))
      · exact .inr ⟨later, List.mem_cons_of_mem _ member, there⟩

end FileTree

namespace Capture

open BrowserSteps.Path

variable {base : Path} {tag otherTag : String} {t u : DateTime}

/-- The names that lead from the base directory to that of a run. -/
def namesBelowBase (tag : String) (t : DateTime) : List String :=
  t.dayText :: ((if tag = "" then [] else [fileName tag]) ++ [shortTime t])

theorem runDirectory_eq (base : Path) (tag : String) (t : DateTime) :
    runDirectory base tag t = ⟨base.absolute, base.names ++ namesBelowBase tag t⟩ := by
  rw [runDirectory, (isEntryName_shortTime t).child, child_fileName, (isEntryName_dayText t).child]
  simp [namesBelowBase]

theorem forward_namesBelowBase (tag : String) (t : DateTime) : ".." ∉ namesBelowBase tag t := by
  intro back
  simp only [namesBelowBase, List.mem_cons, List.mem_append, List.mem_ite_nil_left, List.not_mem_nil,
    or_false] at back
  rcases back with day | ⟨-, name⟩ | time
  · exact (isEntryName_dayText t).noDots day.symm
  · exact (fileName_ne_dots tag).2 name.symm
  · exact (isEntryName_shortTime t).noDots time.symm

/-- Two runs are told apart by their directories unless they have the same tag, as a file name, and began in
the same second of the same day. -/
def Coincide (tag : String) (t : DateTime) (otherTag : String) (u : DateTime) : Prop :=
  t.dayText = u.dayText ∧ fileName tag = fileName otherTag ∧ t.secondOfDay = u.secondOfDay

theorem namesBelowBase_inj :
    namesBelowBase tag t = namesBelowBase otherTag u ↔ Coincide tag t otherTag u := by
  have hempty : fileName "" = "" := fileName_eq_empty_iff.mpr rfl
  have htag : (if tag = "" then [] else [fileName tag]) =
      (if otherTag = "" then [] else [fileName otherTag]) ↔ fileName tag = fileName otherTag := by
    by_cases none : tag = "" <;> by_cases otherNone : otherTag = "" <;>
      simp [none, otherNone, hempty, fileName_eq_empty_iff, eq_comm (a := "")]
  have htime : shortTime t = shortTime u ↔ t.secondOfDay = u.secondOfDay := DateTime.clockText_eq_iff
  rw [namesBelowBase, namesBelowBase, List.cons.injEq, List.append_singleton_inj, htag, htime, Coincide]

/-- Runs with one base directory share a place if and only if their directories coincide. -/
theorem place_runDirectory_inj {tree : FileTree} {start : List String}
    (leads : tree.place (runDirectory base tag t) = .ok start) :
    tree.place (runDirectory base otherTag u) = .ok start ↔ Coincide tag t otherTag u := by
  rw [← namesBelowBase_inj]
  constructor
  · intro same
    rw [runDirectory_eq] at leads same
    obtain ⟨root, hroot, rfl⟩ := FileTree.place_below (forward_namesBelowBase tag t) leads
    obtain ⟨root', hroot', hsame⟩ := FileTree.place_below (forward_namesBelowBase otherTag u) same
    obtain rfl := Except.ok.inj (hroot.symm.trans hroot')
    exact List.append_cancel_left hsame
  · intro same
    have hsame : runDirectory base otherTag u = runDirectory base tag t := by
      simp only [runDirectory_eq, same]
    rw [hsame, leads]

/-- A screenshot lies right in the directory of its run; in that of another run it lies if and only if the
two directories coincide. -/
theorem place_screenshotPath {tree : FileTree} {own : List String} {name : String} {takenAt : DateTime}
    (leads : tree.place (screenshotPath (runDirectory base tag t) name takenAt) = .ok own) :
    ∃ start, tree.place (runDirectory base tag t) = .ok start ∧
      own = start ++ [screenshotName name takenAt] ∧
      ∀ otherTag u, (∃ other file, tree.place (runDirectory base otherTag u) = .ok other ∧
        own = other ++ [file]) ↔ Coincide tag t otherTag u := by
  rw [screenshotPath_eq] at leads
  have forward : ".." ∉ [screenshotName name takenAt] := by
    rw [List.mem_singleton]
    exact (isEntryName_screenshotName _ _).noDots.symm
  obtain ⟨start, hstart, rfl⟩ := FileTree.place_below forward leads
  refine ⟨start, hstart, rfl, fun otherTag u => ?_⟩
  rw [← place_runDirectory_inj hstart]
  constructor
  · rintro ⟨other, file, hother, hends⟩
    rw [(List.append_singleton_inj.mp hends).1]
    exact hother
  · intro hother
    exact ⟨start, _, hother, rfl⟩

end Capture

namespace Run

open Capture Traffic

variable {σ : Type}

theorem files_throttle (env : Env σ) (s : State σ) : (throttle env s).files = s.files := by
  unfold throttle
  dsimp only
  split <;> rfl

theorem extends_prepareCapture (startedAt : DateTime) (env : Env σ) (capturing : Bool) (s : State σ) :
    s.files.Extends (prepareCapture startedAt env capturing s).files := by
  cases capturing with
  | false => exact .refl _
  | true =>
      simp only [prepareCapture, openDirectory, if_true]
      generalize runDirectory _ _ _ = directory
      have hmade := s.files.extends_makeDirectories directory
      rcases hmake : s.files.makeDirectories directory with ⟨e | _, files⟩ <;> rwa [hmake] at hmade

/-- Before its first step a run makes directories at most. -/
theorem extends_opening (env : Env σ) (order : Order) (world : World σ) (files : FileTree) :
    files.Extends (opening env order world files).files := by
  simp only [opening]
  generalize hbegun : throttle env _ = begun
  have hfiles : begun.files = files := by
    rw [← hbegun, files_throttle]
  have hprepare := extends_prepareCapture (env.base.add world.clock) env order.capturing begun
  rwa [hfiles] at hprepare

/-- What a run writes, and where. -/
theorem run_saves (env : Env σ) (steps : List Step) (order : Order) (bound : Nat) (world : World σ)
    (files : FileTree) :
    let saved := shots env order.capturing (history env steps order bound world files)
    (∀ shot ∈ saved, order.capturing = true ∧ shot.path = screenshotPath
      (runDirectory env.settings.dataDirectory order.tag (env.base.add world.clock))
      shot.name shot.takenAt) ∧
    (opening env order world files).files.writeAll (saved.map Shot.write) =
      .ok (run env steps order bound world files).2.files := by
  intro saved
  obtain ⟨u, hcourse, hended⟩ := run_course env steps order bound world files
  have hsaves : Saves (opening env order world files) saved u := hcourse.saves
  constructor
  · intro shot member
    obtain ⟨e, -, hshot⟩ := List.mem_filterMap.mp member
    have capturing := capturing_of_shot hshot
    obtain ⟨directory, opened, hpath⟩ := hsaves.paths shot member
    rw [directory_opening env world files capturing, Option.some.injEq] at opened
    rw [hpath, ← opened]
    exact ⟨capturing, rfl⟩
  · obtain ⟨log, outcomes, hclosing⟩ :=
      closing_eq env steps (run env steps order bound world files).1 u
    rw [hended, hclosing]
    exact hsaves.files

/-- A run makes directories and writes its screenshots; all else stays as it was. -/
theorem at?_run (env : Env σ) (steps : List Step) (order : Order) (bound : Nat) (world : World σ)
    (files : FileTree) (place : List String) :
    let saved := shots env order.capturing (history env steps order bound world files)
    let later := (run env steps order bound world files).2.files
    later.at? place = files.at? place ∨
      files.at? place = none ∧ later.at? place = some .directory ∨
      ∃ shot ∈ saved, later.place shot.path = .ok place := by
  intro saved later
  have hwritten := (run_saves env steps order bound world files).2
  rcases FileTree.at?_writeAll hwritten place with same | ⟨write, hwrite, leads⟩
  · rcases extends_opening env order world files place with kept | ⟨none, made⟩
    · exact .inl (same.trans kept)
    · exact .inr (.inl ⟨none, same.trans made⟩)
  · obtain ⟨shot, member, rfl⟩ := List.mem_map.mp hwrite
    exact .inr (.inr ⟨shot, member, leads⟩)

/-- A runner with its shared state seen through a function. -/
def Runner.map {τ : Type} (seen : τ → σ) (r : Runner τ) : Runner σ :=
  { world := r.world.map seen, files := r.files, directory := r.directory }

section

variable {δ τ : Type} (scale : TimeScale τ) (browser : Browser δ) (settings : RunSettings)
  (base : DateTime) (turns : Nat)

/-- In a session that is logged a runner does what it does in the session itself. -/
theorem Runner.execute_map (steps : List Step) (order : Order) (bound : Nat)
    (r : Runner (Owned (Traffic δ))) :
    let ended := r.execute (.logged scale browser settings base turns) steps order bound
    (r.map unlogged).execute (.full scale (Session.exclusive browser) settings base turns) steps order
      bound = (ended.1, ended.2.map unlogged) := by
  intro ended
  have hrun := run_map (shadows_logged scale browser settings base turns) steps order bound r.world r.files
  simp only [Runner.execute_eq, ended, Runner.map, hrun]
  rfl

end

/-- Nothing that happened to a runner shows in its next run. It ends as that of a new runner does, with the
same result, world and files, and leaves the same behind; a cancellation that was requested before makes
no difference. A session that is logged notes the same commands, and they are those of the run without
notes. The screenshots of the run lie right in its own directory, which is that of a run with any other tag
and time if and only if their directories coincide. But for them and for new directories all files stay
as they were. -/
theorem execute_after_history (env : Env σ) (world : World σ) (files : FileTree)
    (events : List (Runner.Event σ)) (steps : List Step) (order : Order) (bound : Nat) :
    let r := (Runner.new world files).afterAll env events
    let ended := r.execute env steps order bound
    let startedAt := env.base.add r.world.clock
    let base := env.settings.dataDirectory
    let saved := shots env order.capturing (history env steps order bound r.world r.files)
    let later := ended.2.files
    ended = (Runner.new r.world r.files).execute env steps order bound ∧
    r.cancel.execute env steps order bound = ended ∧
    (∀ (δ τ : Type) (scale : TimeScale τ) (browser : Browser δ)
        (events : List (Runner.Event (Owned (Traffic δ)))) (world : World (Owned δ)),
      let logged := Env.logged scale browser env.settings env.base env.turns
      let r := (Runner.new (world.map unnoted) files).afterAll logged events
      let ended := r.execute logged steps order bound
      noted ended.2.world =
        noted ((Runner.new r.world r.files).execute logged steps order bound).2.world ∧
      (r.map unlogged).execute
          (.full scale (Session.exclusive browser) env.settings env.base env.turns) steps order bound =
        (ended.1, ended.2.map unlogged)) ∧
    (∀ shot ∈ saved, order.capturing = true ∧ ∃ start,
      later.place (runDirectory base order.tag startedAt) = .ok start ∧
      later.place shot.path = .ok (start ++ [screenshotName shot.name shot.takenAt]) ∧
      ∀ tag t, (∃ other name, later.place (runDirectory base tag t) = .ok other ∧
        later.place shot.path = .ok (other ++ [name])) ↔ Coincide order.tag startedAt tag t) ∧
    ∀ place, later.at? place = r.files.at? place ∨
      r.files.at? place = none ∧ later.at? place = some .directory ∨
      ∃ shot ∈ saved, later.place shot.path = .ok place := by
  intro r ended startedAt base saved later
  obtain ⟨hpath, hwritten⟩ := run_saves env steps order bound r.world r.files
  refine ⟨rfl, rfl, fun δ τ scale browser events world => ⟨rfl, Runner.execute_map ..⟩,
    fun shot member => ?_, at?_run env steps order bound r.world r.files⟩
  obtain ⟨capturing, hshot⟩ := hpath shot member
  obtain ⟨own, leads⟩ : ∃ own, later.place shot.path = .ok own :=
    FileTree.place_of_writeAll hwritten shot.write (List.mem_map_of_mem member)
  have hplace := leads
  rw [hshot] at hplace
  obtain ⟨start, hstart, rfl, hothers⟩ := place_screenshotPath hplace
  refine ⟨capturing, start, hstart, leads, fun tag t => ?_⟩
  simp only [leads, Except.ok.injEq]
  exact hothers tag t

/-- Two runs with one tag in the same second share a directory, and here a file: the second run writes its
screenshot where the first had written its own. -/
theorem directory_shared :
    let env := Env.full .binary tickingSession {} ⟨0⟩ 0
    let order : Order := { tag := "t", capturing := true }
    let steps : List Step := [{ name := "a", action := .noop, capture := true }]
    let directory := Path.ofString "data/1-01-01/t/000000"
    let first := (Runner.new { shared := () } {}).execute env steps order 2
    let second := first.2.execute env steps order 2
    first.1.2.artifacts = some directory ∧ second.1.2.artifacts = some directory ∧
      first.2.files.readBytes (directory.child "a_000000.png") = .ok [1] ∧
      second.2.files.readBytes (directory.child "a_000000.png") = .ok [2] := by
  decide +kernel

end Run

end BrowserSteps
