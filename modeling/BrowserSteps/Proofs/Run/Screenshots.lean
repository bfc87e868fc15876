import BrowserSteps.Proofs.Run.Attribution
import BrowserSteps.Proofs.Run.Explanation
import BrowserSteps.Proofs.Run.Layout

/-!
The screenshots of a run. A run writes its screenshots one after the other and changes no other file. The
file of a screenshot is named for the step and the second of the day, so a later screenshot of the same
file name in the same second takes its place; nothing else does.
-/

namespace BrowserSteps

namespace Capture

theorem screenshotName_eq_iff {name otherName : String} {t u : DateTime} :
    screenshotName name t = screenshotName otherName u ↔
      fileName name = fileName otherName ∧ t.secondOfDay = u.secondOfDay := by
  rw [← DateTime.clockText_eq_iff]
  constructor
  · intro same
    have htexts := congrArg String.toList same
    simp only [screenshotName, shortTime, String.toList_append, List.append_assoc] at htexts
    -- The time has as many characters in both, so the texts part at the same place.
    have hlength : ("_".toList ++ ((t.clockText "").toList ++ ".png".toList)).length =
        ("_".toList ++ ((u.clockText "").toList ++ ".png".toList)).length := by
      simp only [List.length_append, DateTime.length_clockText]
    obtain ⟨hname, hrest⟩ := List.append_inj' htexts hlength
    rw [List.append_right_inj, List.append_left_inj] at hrest
    exact ⟨String.toList_injective hname, String.toList_injective hrest⟩
  · rintro ⟨hname, htime⟩
    rw [screenshotName, screenshotName, hname, shortTime, shortTime, htime]

end Capture

namespace Run

open Capture

variable {σ : Type} {env : Env σ} {capturing : Bool} {steps : List Step}

/-- A screenshot that was saved. -/
structure Shot where
  name : String
  takenAt : DateTime
  path : Path
  bytes : Text.Bytes
  deriving DecidableEq, Repr

/-- What saving a screenshot writes. -/
def Shot.write (shot : Shot) : Path × Text.Bytes := (shot.path, shot.bytes)

/-- Two screenshots whose steps have the same file name, taken in the same second of the day. -/
def Shot.Alike (a b : Shot) : Prop :=
  fileName a.name = fileName b.name ∧ a.takenAt.secondOfDay = b.takenAt.secondOfDay

/-- The screenshot of a step that is saved from a state. -/
def shotFrom? (env : Env σ) (capturing : Bool) (step : Step) (s : State σ) : Option Shot :=
  if capturing && step.capture then
    match saveScreenshot env step.name s, env.session.screenshot.runAlone s.world with
    | (.done (.ok path), _), (some (.ok bytes), _) => some ⟨step.name, s.now env, path, bytes⟩
    | _, _ => none
  else none

/-- The screenshot that an execution saved. -/
def Execution.shot? (env : Env σ) (capturing : Bool) (e : Execution σ) : Option Shot :=
  match e.activityEnd env with
  | (.verdict v, world) => shotFrom? env capturing e.step (e.measured env v world).2
  | _ => none

/-- The screenshots that executions saved, in their order. -/
def shots (env : Env σ) (capturing : Bool) (es : List (Execution σ)) : List Shot :=
  es.filterMap (·.shot? env capturing)

/-- From one state to another these screenshots were written, all of them in the directory of the run, and
no other file was changed. -/
structure Saves (s : State σ) (shots : List Shot) (t : State σ) : Prop where
  directory : t.directory = s.directory
  files : s.files.writeAll (shots.map Shot.write) = .ok t.files
  paths : ∀ shot ∈ shots, ∃ directory, s.directory = some directory ∧
    shot.path = screenshotPath directory shot.name shot.takenAt

section

variable {s t u : State σ}

theorem Saves.none (files : t.files = s.files) (directory : t.directory = s.directory) :
    Saves s [] t where
  directory := directory
  files := congrArg Except.ok files.symm
  paths := List.forall_mem_nil _

theorem Saves.trans {first second : List Shot} (h : Saves s first t) (more : Saves t second u) :
    Saves s (first ++ second) u where
  directory := more.directory.trans h.directory
  files := by
    rw [List.map_append]
    exact FileTree.writeAll_append_eq_ok.mpr ⟨t.files, h.files, more.files⟩
  paths := by
    intro shot member
    rcases List.mem_append.mp member with early | late
    · exact h.paths shot early
    · rw [← h.directory]
      exact more.paths shot late

theorem saves_saveScreenshot {step : Step} {path : Path} (asked : (capturing && step.capture) = true)
    (saved : saveScreenshot env step.name s = (.done (.ok path), t)) :
    ∃ shot, shotFrom? env capturing step s = some shot ∧ Saves s [shot] t := by
  have hsaved := saved
  unfold saveScreenshot at saved
  split at saved
  · cases saved
  next directory hdirectory =>
    simp only at saved
    split at saved
    · cases saved
    · cases saved
    next bytes world hrun =>
      split at saved
      next files hfiles =>
        cases saved
        let shot : Shot := ⟨step.name, s.now env, screenshotPath directory step.name (s.now env), bytes⟩
        have hshot : shotFrom? env capturing step s = some shot := by
          simp only [shotFrom?, asked, if_true, hsaved, hrun, shot]
        refine ⟨shot, hshot, rfl, ?_, ?_⟩
        · exact FileTree.writeAll_cons_eq_ok.mpr ⟨files, hfiles, rfl⟩
        · intro other member
          obtain rfl := List.mem_singleton.mp member
          exact ⟨directory, hdirectory, rfl⟩
      · cases saved

theorem Captured.saves {step : Step} {answer : Part Bool × State σ}
    (h : Captured env capturing step s answer) :
    Saves s (shotFrom? env capturing step s).toList answer.2 := by
  cases h with
  | unasked unasked =>
      rw [shotFrom?, unasked]
      exact .none rfl rfl
  | saved asked _ written =>
      obtain ⟨shot, hshot, hsaves⟩ := saves_saveScreenshot asked written
      rw [hshot]
      exact hsaves
  | refused asked _ failed | cut asked _ _ failed =>
      have hshot : shotFrom? env capturing step s = none := by
        simp only [shotFrom?, asked, if_true, failed]
      rw [hshot]
      exact .none rfl rfl

theorem Finished.saves {step : Step} {stop : Bool} {answer : Bool × State σ}
    (h : Finished env step stop s answer) : Saves s [] answer.2 := by
  cases h <;> exact .none rfl rfl

theorem saves_noted (env : Env σ) (e : Execution σ) (entries : List String) (world : World σ) :
    Saves e.start [] (e.noted env entries world) := by
  simp only [Execution.noted, noteAll_eq, markStart_eq]
  exact .none rfl rfl

/-- An execution saves its screenshot. -/
theorem Executes.saves {e : Execution σ} {ending : StepEnd} (h : Executes env capturing e ending t) :
    Saves e.start (e.shot? env capturing).toList t := by
  have hcaptured {v : Verdict} {world : World σ} {part : Part Bool} {s : State σ}
      (answered : e.activityEnd env = (.verdict v, world))
      (captured : markCapture env capturing e.step (e.measured env v world).2 = (part, s)) :
      Saves e.start (e.shot? env capturing).toList s := by
    have hmeasured := (saves_noted env e v.entries world).trans (e.finished env v world).saves
    simp only [Execution.shot?, answered]
    exact hmeasured.trans (captured_of_eq captured).saves
  cases h with
  | ended v world unsaved s answered captured _ state_eq =>
      have hsaves := hcaptured answered captured
      rw [state_eq]
      exact ⟨hsaves.directory, hsaves.files, hsaves.paths⟩
  | cutInCapture v world answered captured => exact hcaptured answered captured
  | cutInActivity entries world answered _ state_eq =>
      simp only [Execution.shot?, answered, Option.toList_none]
      exact state_eq ▸ saves_noted env e entries world
  | unfinished world answered _ state_eq =>
      simp only [Execution.shot?, answered, Option.toList_none]
      rw [state_eq, markStart_eq]
      exact .none rfl rfl

/-- An execution that was left unfinished has saved nothing. -/
theorem Executes.saves_of_unfinished {e : Execution σ} (h : Executes env capturing e .unfinished t) :
    Saves e.start [] t := by
  cases h with
  | ended v _ _ _ _ _ ending_eq => exact absurd rfl (ending_of_verdict v ending_eq).2
  | cutInCapture _ _ _ _ ending_eq | cutInActivity _ _ _ ending_eq => cases ending_eq
  | unfinished world _ _ state_eq =>
      rw [state_eq, markStart_eq]
      exact .none rfl rfl

theorem shots_cons (e : Execution σ) (rest : List (Execution σ)) :
    shots env capturing (e :: rest) = (e.shot? env capturing).toList ++ shots env capturing rest := by
  unfold shots
  cases hshot : e.shot? env capturing <;> simp [hshot]

/-- A course of executions saves their screenshots. -/
theorem Course.saves {es : List (Execution σ)} {reason : End}
    (h : Course env capturing steps s es reason u) : Saves s (shots env capturing es) u := by
  induction h with
  | finished | bounded | cancelled => exact .none rfl rfl
  | next start _ _ executed _ ih =>
      subst start
      rw [shots_cons]
      exact (Executes.of_executed executed).saves.trans ⟨ih.directory, ih.files, ih.paths⟩
  | stopped start _ _ executed | cut start _ _ executed =>
      subst start
      rw [shots_cons]
      exact (Executes.of_executed executed).saves.trans (.none rfl rfl)
  | waiting start _ executed =>
      subst start
      exact (Executes.of_executed executed).saves_of_unfinished

end

theorem directory_prepareCapture (startedAt : DateTime) (env : Env σ) (s : State σ) :
    (prepareCapture startedAt env true s).directory =
      some (runDirectory env.settings.dataDirectory s.result.tag startedAt) := by
  simp only [prepareCapture, openDirectory, if_true]
  generalize s.files.makeDirectories _ = made
  obtain ⟨result, files⟩ := made
  cases result with
  | ok | error => rfl

/-- A run that takes screenshots has decided where they go before its first step. -/
theorem directory_opening (env : Env σ) {order : Order} (world : World σ) (files : FileTree)
    (capturing : order.capturing = true) :
    (opening env order world files).directory =
      some (runDirectory env.settings.dataDirectory order.tag (env.base.add world.clock)) := by
  have htag (s : State σ) : (throttle env s).result.tag = s.result.tag := by
    unfold throttle
    dsimp only
    split <;> rfl
  simp only [opening, capturing, directory_prepareCapture, htag]

theorem capturing_of_shot {e : Execution σ} {shot : Shot} (h : e.shot? env capturing = some shot) :
    capturing = true := by
  unfold Execution.shot? shotFrom? at h
  split at h
  · split at h
    next asked => exact (Bool.and_eq_true_iff.mp asked).1
    · cases h
  · cases h

/-- A step that passed has the screenshot that it asked for. -/
theorem Execution.Succeeds.shot {e : Execution σ} (h : e.Succeeds env capturing)
    (asked : capturing = true ∧ e.step.capture = true) : (e.shot? env capturing).isSome := by
  obtain ⟨v, world, answered, -, -, saved⟩ := h
  obtain ⟨path, hpath⟩ := saved asked
  have hasked : (capturing && e.step.capture) = true := Bool.and_eq_true_iff.mpr asked
  obtain ⟨shot, hshot, -⟩ := saves_saveScreenshot hasked (Prod.ext hpath rfl)
  simp only [Execution.shot?, answered, hshot, Option.isSome_some]

/-- What becomes of the screenshots of every run. They are written one after the other into the directory
of the run, each under the name of its step and its second, and nothing else is written. Two of them
have the same path if and only if their steps have the same file name and they were taken in the same
second of the day; and when the run ends, the file of a screenshot holds the last one that is alike. -/
theorem run_screenshots (env : Env σ) (steps : List Step) (order : Order) (bound : Nat)
    (world : World σ) (files : FileTree) :
    let es := history env steps order bound world files
    let saved := shots env order.capturing es
    let ended := run env steps order bound world files
    let directory := runDirectory env.settings.dataDirectory order.tag (env.base.add world.clock)
    List.Forall₂ (fun e o => o.status = .passed → order.capturing = true → e.step.capture = true →
      (e.shot? env order.capturing).isSome) es ended.2.result.outcomes ∧
    (∀ shot ∈ saved, shot.path = screenshotPath directory shot.name shot.takenAt) ∧
    (opening env order world files).files.writeAll (saved.map Shot.write) = .ok ended.2.files ∧
    (∀ a ∈ saved, ∀ b ∈ saved, a.path = b.path ↔ a.Alike b) ∧
    ∀ before last after, saved = before ++ last :: after → (∀ later ∈ after, ¬ later.Alike last) →
      ∀ shot ∈ saved, shot.Alike last → ended.2.files.readBytes shot.path = .ok last.bytes := by
  intro es saved ended directory
  obtain ⟨u, hcourse, hended⟩ := run_course env steps order bound world files
  have hsaves : Saves (opening env order world files) saved u := hcourse.saves
  have hpath : ∀ shot ∈ saved, shot.path = screenshotPath directory shot.name shot.takenAt := by
    intro shot member
    obtain ⟨e, -, hshot⟩ := List.mem_filterMap.mp member
    obtain ⟨opened, hopened, hpath⟩ := hsaves.paths shot member
    rw [directory_opening env world files (capturing_of_shot hshot), Option.some.injEq] at hopened
    rw [hpath, ← hopened]
  have hname : ∀ shot ∈ saved,
      shot.path.names.getLast? = some (screenshotName shot.name shot.takenAt) := by
    intro shot member
    rw [hpath shot member, screenshotPath_eq]
    exact List.getLast?_concat
  have halike : ∀ a ∈ saved, ∀ b ∈ saved, a.path = b.path ↔ a.Alike b := by
    intro a ha b hb
    rw [hpath a ha, hpath b hb, screenshotPath_eq, screenshotPath_eq, Shot.Alike,
      ← screenshotName_eq_iff]
    simp
  have hwritten : (opening env order world files).files.writeAll (saved.map Shot.write) =
      .ok ended.2.files := by
    obtain ⟨log, outcomes, hclosing⟩ := closing_eq env steps ended.1 u
    rw [show ended.2 = closing env steps ended.1 u from hended, hclosing]
    exact hsaves.files
  refine ⟨?_, hpath, hwritten, halike, ?_⟩
  · apply (run_recorded env steps order bound world files).imp
    intro e o recorded passed capturing asked
    exact (recorded.passed_iff.mp passed).shot ⟨capturing, asked⟩
  · intro before last after split later_unlike shot member alike
    have hlast : last ∈ saved := by
      rw [split]
      exact List.mem_append_right _ List.mem_cons_self
    rw [(halike shot member last hlast).mpr alike]
    rw [split, List.map_append, List.map_cons] at hwritten
    apply FileTree.readBytes_writeAll hwritten
    intro write hwrite
    obtain ⟨later, hlater, rfl⟩ := List.mem_map.mp hwrite
    have hmember : later ∈ saved := by
      rw [split]
      exact List.mem_append_right _ (List.mem_cons_of_mem _ hlater)
    apply Path.elsewhere_of_names (hname later hmember) (hname last hlast)
      (isEntryName_screenshotName _ _).noDots (isEntryName_screenshotName _ _).noDots
    intro same
    exact later_unlike later hlater (screenshotName_eq_iff.mp same)

/-- A session whose screenshots take a tenth of a second and show how much time has passed. -/
def tickingSession : Session Unit :=
  { cancellingSession with
    screenshot := .pause 100000 (.act (fun w => { shared := w.shared })
      fun w => .done (.ok [UInt8.ofNat (w.clock / 100000)])) }

/-- Two steps that have one name, and take a screenshot each. -/
def namesakes : List Step :=
  [{ name := "a", action := .noop, capture := true }, { name := "a", action := .noop, capture := true }]

/-- The second screenshot takes the place of the first, which was saved as well. -/
theorem first_screenshot_lost :
    let env := Env.full .binary tickingSession {} ⟨0⟩ 0
    let order : Order := { tag := "t", capturing := true }
    let saved := shots env true (history env namesakes order 3 { shared := () } {})
    let ended := run env namesakes order 3 { shared := () } {}
    let path := Path.ofString "data/1-01-01/t/000000/a_000000.png"
    ended.1 = .finished ∧ ended.2.result.outcomes.map Outcome.status = [.passed, .passed] ∧
      saved.map (fun shot => (shot.path, shot.bytes)) = [(path, [1]), (path, [2])] ∧
      ended.2.files.readBytes path = .ok [2] := by
  decide +kernel

end Run

end BrowserSteps
