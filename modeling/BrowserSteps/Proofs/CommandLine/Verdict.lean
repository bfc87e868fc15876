import BrowserSteps.CommandLine.Program
import BrowserSteps.Proofs.Except
import BrowserSteps.Proofs.Report.Writing
import BrowserSteps.Proofs.Run.Bound
import BrowserSteps.Proofs.Run.Traffic

/-!
What the exit code of a run tells. It is zero if and only if everything went well from the reading of
the assignments to the printing of the last line, and one otherwise; the reports of a run that failed
are written all the same, unless the output refuses what is told of the run. All bounds that suffice
for a run give the same answer.
-/

namespace BrowserSteps.CommandLine

variable {δ : Type}

namespace Console

variable {c : Console} {taken lines : List String}

/-- The output takes some lines after others. -/
def Takes (c : Console) (taken lines : List String) : Prop :=
  ∀ before line after, lines = before ++ line :: after → c.refusal? (taken ++ before) line = none

theorem takes_nil : c.Takes taken [] := fun before _ _ same => by simp at same

theorem takes_cons {line : String} :
    c.Takes taken (line :: lines) ↔ c.refusal? taken line = none ∧ c.Takes (taken ++ [line]) lines := by
  constructor
  · intro h
    refine ⟨by simpa using h [] line lines rfl, fun before next after same => ?_⟩
    have hnext := h (line :: before) next after (by rw [same]; rfl)
    simpa using hnext
  · rintro ⟨first, others⟩ before next after same
    cases before with
    | nil =>
        cases same
        simpa using first
    | cons head before =>
        cases same
        simpa using others before next after rfl

theorem takes_append {more : List String} :
    c.Takes taken (lines ++ more) ↔ c.Takes taken lines ∧ c.Takes (taken ++ lines) more := by
  induction lines generalizing taken with
  | nil => simp [takes_nil]
  | cons line rest ih => simp [takes_cons, ih, and_assoc]

/-- Lines are printed if the output takes them all. -/
theorem print_of_takes (h : c.Takes taken lines) : c.print taken lines = (taken ++ lines, none) := by
  induction lines generalizing taken with
  | nil => simp [print]
  | cons line rest ih =>
      obtain ⟨first, others⟩ := takes_cons.mp h
      simp [print, first, ih others]

/-- Else the output says what it refuses. -/
theorem print_of_not_takes (h : ¬ c.Takes taken lines) :
    ∃ out said, c.print taken lines = (out, some said) := by
  induction lines generalizing taken with
  | nil => exact absurd takes_nil h
  | cons line rest ih =>
      rw [takes_cons, not_and] at h
      cases hrefusal : c.refusal? taken line with
      | some said => exact ⟨taken, said, by simp [print, hrefusal]⟩
      | none =>
          obtain ⟨out, said, hprint⟩ := ih (h hrefusal)
          exact ⟨out, said, by simp [print, hrefusal, hprint]⟩

end Console

theorem assignmentPairs_isOk {items : List String} :
    (assignmentPairs items).isOk = true ↔ ∀ item ∈ items, '=' ∈ item.toList := by
  induction items with
  | nil => simp [assignmentPairs, Except.isOk, Except.toBool]
  | cons item rest ih =>
      have hsign := assignment?_eq_none_iff item
      unfold assignmentPairs
      cases hitem : assignment? item with
      | none => simp [Except.isOk, Except.toBool, hsign.mp hitem]
      | some pair =>
          have sign : '=' ∈ item.toList := by
            by_contra unsigned
            rw [hsign.mpr unsigned] at hitem
            cases hitem
          have hmap : ((assignmentPairs rest).map (pair :: ·)).isOk = (assignmentPairs rest).isOk := by
            cases assignmentPairs rest <;> rfl
          simp only [hmap, ih, List.forall_mem_cons, sign, true_and]

theorem assigned_of_assignments {items : List String} {params : List (String × String)}
    (h : assignments items = .ok params) : ∀ item ∈ items, '=' ∈ item.toList := by
  apply assignmentPairs_isOk.mp
  unfold assignments at h
  cases hpairs : assignmentPairs items with
  | error item =>
      rw [hpairs] at h
      cases h
  | ok pairs => rfl

/-- The session of a request is opened: its assignments, its configuration and at least one step are
read, and its browser is launched. -/
def Opens (host : Run.Host δ) (env : Config.Environment) (r : RunRequest) (w : Workspace δ)
    (config : Config) (steps : List Step) (opened : World (Owned δ)) : Prop :=
  ∃ params, assignments r.params = .ok params ∧ r.config env w.files = .ok config ∧
    loadSteps w.files r.stepsFile params = .ok steps ∧ steps ≠ [] ∧
    (Session.launch host.browser config.window).runToEnd
      { w.world with shared := Owned.fresh w.world.shared.browser } = (.ok (), opened)

/-- The run of a request takes place: a session is opened for it, the run comes to an end in it, and this
is the result. -/
def TakesPlace (host : Run.Host δ) (env : Config.Environment) (r : RunRequest) (w : Workspace δ)
    (result : RunResult) : Prop :=
  ∃ config steps opened reason, Opens host env r w config steps opened ∧
    (host.use config steps ⟨r.tag, r.capturing⟩ w.files opened).1.1 = (reason, result) ∧
    reason ≠ .unfinished

theorem prepare_eq_ok {r : RunRequest} {env : Config.Environment} {files : FileTree}
    {config : Config} {steps : List Step} :
    r.prepare env files = .ok (config, steps) ↔ ∃ params, assignments r.params = .ok params ∧
      r.config env files = .ok config ∧ loadSteps files r.stepsFile params = .ok steps ∧
      steps ≠ [] := by
  simp only [RunRequest.prepare, bind_eq_ok_iff, mapError_eq_ok_iff]
  constructor
  · rintro ⟨params, hparams, _, hconfig, read, hsteps, hread⟩
    split at hread
    · cases hread
    next some =>
      cases hread
      exact ⟨params, hparams, hconfig, hsteps, by simpa using some⟩
  · rintro ⟨params, hparams, hconfig, hsteps, some⟩
    refine ⟨params, hparams, config, hconfig, steps, hsteps, ?_⟩
    rw [if_neg (by simpa using some)]
    rfl

section

variable (host : Run.Host δ) (console : Console) (env : Config.Environment) (r : RunRequest)
  (w : Workspace δ)

theorem opens_iff {config : Config} {steps : List Step} {opened : World (Owned δ)} :
    Opens host env r w config steps opened ↔ r.prepare env w.files = .ok (config, steps) ∧
      (Session.launch host.browser config.window).runToEnd
        { w.world with shared := Owned.fresh w.world.shared.browser } = (.ok (), opened) := by
  rw [prepare_eq_ok]
  constructor
  · rintro ⟨params, hparams, hconfig, hsteps, some, launched⟩
    exact ⟨⟨params, hparams, hconfig, hsteps, some⟩, launched⟩
  · rintro ⟨⟨params, hparams, hconfig, hsteps, some⟩, launched⟩
    exact ⟨params, hparams, hconfig, hsteps, some, launched⟩

/-- A request for which no session is opened meets a fault, whatever the bound. -/
theorem runSteps_of_not_opens
    (h : ¬ ∃ config steps opened, Opens host env r w config steps opened) :
    ∃ fault later, ∀ bound,
      runSteps { host with bound } console env r w = some (.ofFault fault [], later) := by
  simp only [opens_iff, not_exists, not_and] at h
  cases hprepare : r.prepare env w.files with
  | error fault => exact ⟨fault, w, fun bound => by simp [runSteps, hprepare]⟩
  | ok prepared =>
      obtain ⟨config, steps⟩ := prepared
      rcases hlaunch : (Session.launch host.browser config.window).runToEnd
          { w.world with shared := Owned.fresh w.world.shared.browser } with ⟨e | _, opened⟩
      · refine ⟨.browser e, ⟨opened, w.files⟩, fun bound => ?_⟩
        simp [runSteps, hprepare, Run.runOpened, Session.opened, hlaunch]
      · exact absurd hlaunch (h config steps opened hprepare)

variable {host env r w} {config : Config} {steps : List Step} {opened : World (Owned δ)}

/-- In an open session a run that comes to an end is concluded, and the browser is closed. -/
theorem runSteps_of_opens (h : Opens host env r w config steps opened) :
    let used := host.use config steps ⟨r.tag, r.capturing⟩ w.files opened
    let concluded := conclude console r.reportDirectory used.1.1.2 used.1.2
    runSteps host console env r w = if used.1.1.1 = .unfinished then none else
      some (concluded.1, ⟨((Session.close host.browser).runToEnd used.2).2, concluded.2⟩) := by
  obtain ⟨hprepare, hlaunch⟩ := (opens_iff host env r w).mp h
  intro used concluded
  have hopened : Run.runOpened host config steps ⟨r.tag, r.capturing⟩ w.world w.files =
      (.ok used.1.1, ((Session.close host.browser).runToEnd used.2).2, used.1.2) := by
    simp only [Run.runOpened, Session.opened, hlaunch, used]
  simp only [runSteps, hprepare, hopened, concluded]
  generalize used.1.1 = ended
  obtain ⟨reason, result⟩ := ended
  cases reason <;> rfl

/-- There is only one session to open. -/
theorem Opens.unique {other : Config} {others : List Step} {begun : World (Owned δ)}
    (h : Opens host env r w config steps opened) (h' : Opens host env r w other others begun) :
    other = config ∧ others = steps ∧ begun = opened := by
  rw [opens_iff] at h h'
  obtain ⟨rfl, rfl⟩ := Prod.mk.inj (Except.ok.inj (h'.1.symm.trans h.1))
  exact ⟨rfl, rfl, (Prod.mk.inj (h'.2.symm.trans h.2)).2⟩

/-- The run that takes place in an open session is the only one. -/
theorem takesPlace_iff (h : Opens host env r w config steps opened) {result : RunResult} :
    TakesPlace host env r w result ↔
      let used := host.use config steps ⟨r.tag, r.capturing⟩ w.files opened
      used.1.1.1 ≠ .unfinished ∧ used.1.1.2 = result := by
  constructor
  · rintro ⟨config', steps', begun, reason, opens, used, ended⟩
    obtain ⟨rfl, rfl, rfl⟩ := h.unique opens
    simp only [used]
    exact ⟨ended, trivial⟩
  · rintro ⟨ended, rfl⟩
    exact ⟨config, steps, opened, _, h, rfl, ended⟩

/-- A command has no end only if its run has none within the bound. -/
theorem runSteps_eq_none_iff : runSteps host console env r w = none ↔
    ∃ config steps opened, Opens host env r w config steps opened ∧
      (host.use config steps ⟨r.tag, r.capturing⟩ w.files opened).1.1.1 = .unfinished := by
  by_cases opens : ∃ config steps opened, Opens host env r w config steps opened
  · obtain ⟨config, steps, opened, opens⟩ := opens
    have hrun := runSteps_of_opens console opens
    constructor
    · intro none
      refine ⟨config, steps, opened, opens, ?_⟩
      by_contra ended
      simp only [ended, if_false] at hrun
      cases none.symm.trans hrun
    · rintro ⟨config', steps', begun, opens', unended⟩
      obtain ⟨rfl, rfl, rfl⟩ := opens.unique opens'
      simpa only [unended, if_true] using hrun
  · obtain ⟨fault, later, hrun⟩ := runSteps_of_not_opens host console env r w opens
    refine iff_of_false (fun none => ?_) fun ⟨config, steps, opened, h, _⟩ =>
      opens ⟨config, steps, opened, h⟩
    cases none.symm.trans (hrun host.bound)

/-- A command that has an end has the same one with every larger bound. -/
theorem runSteps_of_le {ended : Ending × Workspace δ} {more : Nat}
    (h : runSteps host console env r w = some ended) (le : host.bound ≤ more) :
    runSteps { host with bound := more } console env r w = some ended := by
  by_cases opens : ∃ config steps opened, Opens host env r w config steps opened
  · obtain ⟨config, steps, opened, opens⟩ := opens
    have hrun := runSteps_of_opens console opens
    have hmore : Opens { host with bound := more } env r w config steps opened := opens
    have finished : (host.use config steps ⟨r.tag, r.capturing⟩ w.files opened).1.1.1 ≠
        .unfinished := by
      intro unended
      simp only [unended, if_true] at hrun
      cases h.symm.trans hrun
    rw [runSteps_of_opens console hmore, Run.Host.use_of_le finished le]
    exact hrun.symm.trans h
  · obtain ⟨fault, later, hrun⟩ := runSteps_of_not_opens host console env r w opens
    rw [hrun more]
    exact (hrun host.bound).symm.trans h

end

/-- The paths of the reports of a run. -/
def reportPaths (directory : Option Path) : List Path :=
  directory.toList.flatMap fun d => Report.Form.all.map (·.path d)

theorem paths_of_writeEach {directory : Path} {r : RunResult} {forms : List Report.Form}
    {files : FileTree} {paths : List Path}
    (h : (Report.writeEach directory r forms files).1 = .ok paths) :
    paths = forms.map (·.path directory) := by
  induction forms generalizing files paths with
  | nil =>
      cases h
      rfl
  | cons form rest ih =>
      rw [Report.writeEach_cons] at h
      have hpath : ∀ path, (Report.write files form r directory).1 = .ok path →
          path = form.path directory := by
        intro path hwrite
        rw [Report.write_eq] at hwrite
        split at hwrite
        · cases hwrite
        · split at hwrite
          · exact (Except.ok.inj hwrite).symm
          · cases hwrite
      rcases hwrite : Report.write files form r directory with ⟨e | path, written⟩
      · rw [hwrite] at h
        cases h
      · rw [hwrite] at h hpath
        obtain ⟨others, hothers, rfl⟩ := exists_of_map_ok h
        rw [hpath path rfl, ih hothers, List.map_cons]

theorem paths_of_writeReports {directory : Option Path} {r : RunResult} {files : FileTree}
    {paths : List Path} (h : (writeReports directory r files).1 = .ok paths) :
    paths = reportPaths directory := by
  cases directory with
  | none =>
      cases h
      rfl
  | some d => simpa [reportPaths] using paths_of_writeEach h

theorem isOk_writeReports (directory : Option Path) (result : RunResult) (files : FileTree) :
    (writeReports directory result files).1.isOk = true ↔
      ∀ d ∈ directory, Report.Stored (writeReports directory result files).2 d result := by
  cases directory with
  | none => simp [writeReports, Except.isOk, Except.toBool]
  | some d => simpa [writeReports] using Report.isOk_writeAll files result d

/-- The ways in which a command can end whose run took place. -/
inductive Concludes (console : Console) (directory : Option Path) (r : RunResult)
    (files : FileTree) : Ending × FileTree → Prop where
  | untold (refused : ¬ console.Takes [] (runLines r)) (said : String) (out : List String) :
      Concludes console directory r files (.ofFault (.output said) out, files)
  | unwritten {e : FileError} (told : console.Takes [] (runLines r))
      (failed : (writeReports directory r files).1 = .error e) :
      Concludes console directory r files
        (.ofFault (.file e) (runLines r), (writeReports directory r files).2)
  | unnamed (told : console.Takes [] (runLines r))
      (stored : (writeReports directory r files).1.isOk = true)
      (refused : ¬ console.Takes (runLines r) ((reportPaths directory).map reportLine))
      (said : String) (out : List String) :
      Concludes console directory r files
        (.ofFault (.output said) out, (writeReports directory r files).2)
  | concluded (told : console.Takes [] (runLines r))
      (stored : (writeReports directory r files).1.isOk = true)
      (named : console.Takes (runLines r) ((reportPaths directory).map reportLine)) :
      Concludes console directory r files
        ({ code := codeOfStatus r.status
           out := runLines r ++ (reportPaths directory).map reportLine },
          (writeReports directory r files).2)

theorem concludes (console : Console) (directory : Option Path) (r : RunResult) (files : FileTree) :
    Concludes console directory r files (conclude console directory r files) := by
  unfold conclude
  by_cases told : console.Takes [] (runLines r)
  · rw [Console.print_of_takes told, List.nil_append]
    rcases hwrite : writeReports directory r files with ⟨e | paths, written⟩
    · have hwritten : (writeReports directory r files).2 = written := by rw [hwrite]
      simp only [← hwritten]
      exact .unwritten told (by rw [hwrite])
    · have hpaths : paths = reportPaths directory := paths_of_writeReports (by rw [hwrite])
      have hwritten : (writeReports directory r files).2 = written := by rw [hwrite]
      have stored : (writeReports directory r files).1.isOk = true := by rw [hwrite]; rfl
      simp only [← hwritten, hpaths]
      by_cases named : console.Takes (runLines r) ((reportPaths directory).map reportLine)
      · rw [Console.print_of_takes named]
        exact .concluded told stored named
      · obtain ⟨out, said, hprint⟩ := Console.print_of_not_takes named
        rw [hprint]
        exact .unnamed told stored named said out
  · obtain ⟨out, said, hprint⟩ := Console.print_of_not_takes told
    rw [hprint]
    exact .untold told said out

variable {console : Console} {directory : Option Path} {result : RunResult} {files : FileTree}
  {ended : Ending × FileTree}

theorem number_codeOfStatus (result : RunResult) :
    (codeOfStatus result.status).number = if result.status = .passed then 0 else 1 := by
  have hstatus : result.status = .failed ∨ result.status = .passed := by
    unfold RunResult.status
    split
    · exact .inl rfl
    · exact .inr rfl
  rcases hstatus with failed | passed
  · simp [codeOfStatus, ExitCode.number, failed]
  · simp [codeOfStatus, ExitCode.number, passed]

/-- A command whose run took place succeeds if and only if the run passed, all lines were taken and all
reports are there. -/
theorem Concludes.number_eq_zero (h : Concludes console directory result files ended) :
    ended.1.code.number = 0 ↔ result.status = .passed ∧
      console.Takes [] (runLines result ++ (reportPaths directory).map reportLine) ∧
      ∀ d ∈ directory, Report.Stored ended.2 d result := by
  rw [Console.takes_append, List.nil_append]
  cases h with
  | untold refused => simp [Ending.ofFault, ExitCode.number, refused]
  | unwritten told failed =>
      refine iff_of_false Nat.one_ne_zero fun ⟨_, _, stored⟩ => ?_
      have written := (isOk_writeReports directory result files).mpr stored
      rw [failed] at written
      cases written
  | unnamed told stored refused => simp [Ending.ofFault, ExitCode.number, refused]
  | concluded told stored named =>
      have kept := (isOk_writeReports directory result files).mp stored
      simp only [number_codeOfStatus, told, named, true_and]
      exact ⟨fun zero => ⟨by simpa using zero, kept⟩, fun passed => by simp [passed.1]⟩

theorem Concludes.number_le (h : Concludes console directory result files ended) :
    ended.1.code.number ≤ 1 := by
  cases h with
  | untold | unwritten | unnamed => exact Nat.le_refl 1
  | concluded =>
      simp only [number_codeOfStatus]
      split <;> decide

/-- Whatever the status of a run, once it has been told of its reports are written, or their writing is
what fails. -/
theorem Concludes.stored (h : Concludes console directory result files ended)
    (told : console.Takes [] (runLines result)) :
    (∀ d ∈ directory, Report.Stored ended.2 d result) ∨
      ∃ e, ended.1 = .ofFault (.file e) (runLines result) := by
  cases h with
  | untold refused => exact absurd told refused
  | @unwritten e => exact .inr ⟨e, rfl⟩
  | unnamed told stored | concluded told stored =>
      exact .inl ((isOk_writeReports directory result files).mp stored)

/-- A command either meets a fault before its run, or its run takes place and is concluded. -/
theorem cases_of_runSteps {host : Run.Host δ} {env : Config.Environment} {r : RunRequest}
    {w : Workspace δ} {ended : Ending × Workspace δ}
    (h : runSteps host console env r w = some ended) :
    ((∀ result, ¬ TakesPlace host env r w result) ∧ ∃ fault, ended.1 = .ofFault fault []) ∨
      ∃ result files, (∀ other, TakesPlace host env r w other ↔ result = other) ∧
        Concludes console r.reportDirectory result files (ended.1, ended.2.files) := by
  by_cases opens : ∃ config steps opened, Opens host env r w config steps opened
  · obtain ⟨config, steps, opened, opens⟩ := opens
    right
    have hrun := runSteps_of_opens console opens
    have takes (other : RunResult) : TakesPlace host env r w other ↔ _ := takesPlace_iff opens
    simp only at hrun takes
    generalize host.use config steps ⟨r.tag, r.capturing⟩ w.files opened = used at hrun takes
    have finished : used.1.1.1 ≠ .unfinished := by
      intro unended
      simp only [unended, if_true] at hrun
      cases h.symm.trans hrun
    simp only [finished, if_false] at hrun
    cases h.symm.trans hrun
    refine ⟨used.1.1.2, used.1.2, fun other => ?_, concludes console r.reportDirectory _ _⟩
    simp [takes, finished]
  · left
    obtain ⟨fault, later, hrun⟩ := runSteps_of_not_opens host console env r w opens
    cases h.symm.trans (hrun host.bound)
    refine ⟨?_, fault, rfl⟩
    rintro result ⟨config, steps, opened, _, begun, _⟩
    exact opens ⟨config, steps, opened, begun⟩

/-- A command that no bound suffices for is one whose run never ends. -/
theorem endless_of_runSteps {host : Run.Host δ} {env : Config.Environment} {r : RunRequest}
    {w : Workspace δ} (h : ∀ bound, runSteps { host with bound } console env r w = none) :
    ∃ config steps opened, Opens host env r w config steps opened ∧
      Run.Endless (host.env config) steps ⟨r.tag, r.capturing⟩ opened w.files := by
  obtain ⟨config, steps, opened, opens, -⟩ := (runSteps_eq_none_iff console).mp (h host.bound)
  refine ⟨config, steps, opened, opens, Run.Host.endless_of_unfinished fun bound => ?_⟩
  obtain ⟨config', steps', opened', opens', unended⟩ := (runSteps_eq_none_iff console).mp (h bound)
  obtain ⟨rfl, rfl, rfl⟩ := opens.unique opens'
  exact unended

/-- A command that succeeds has had a run that passed. -/
theorem takesPlace_of_success {host : Run.Host δ} {env : Config.Environment} {r : RunRequest}
    {w : Workspace δ} (h : (runSteps host console env r w).map (·.1.code.number) = some 0) :
    ∃ result, TakesPlace host env r w result ∧ result.status = .passed := by
  obtain ⟨ended, hended, zero⟩ := Option.map_eq_some_iff.mp h
  rcases cases_of_runSteps hended with ⟨-, fault, hfault⟩ | ⟨result, files, only, concluded⟩
  · rw [hfault] at zero
    cases zero
  · exact ⟨result, (only result).mpr rfl, (concluded.number_eq_zero.mp zero).1⟩

/-- The exit code of a run is its verdict. Whatever the files, the environment, the output and the
browser, it is zero if and only if all parameters are assignments, the run takes place and passes, the
output takes all lines and all reports are in their directory if there is one; else it is one. A run that
takes place and is told of has its reports written whatever its status, unless the writing is what
fails. The answer is the same with every larger bound, and a command that no bound suffices for is one
whose run never ends. -/
theorem run_exit_code (host : Run.Host δ) (console : Console) (env : Config.Environment)
    (w : Workspace δ) {words : List String} {r : RunRequest}
    (request : Request.ofWords? words = some (.run r)) :
    (∀ ended, program host console env words w = some ended →
      (ended.1.code.number = 0 ↔ (∀ item ∈ r.params, '=' ∈ item.toList) ∧
        ∃ result, TakesPlace host env r w result ∧ result.status = .passed ∧
          console.Takes [] (runLines result ++ (reportPaths r.reportDirectory).map reportLine) ∧
          ∀ directory ∈ r.reportDirectory, Report.Stored ended.2.files directory result) ∧
      (ended.1.code.number ≠ 0 → ended.1.code.number = 1) ∧
      (∀ result, TakesPlace host env r w result → console.Takes [] (runLines result) →
        (∀ directory ∈ r.reportDirectory, Report.Stored ended.2.files directory result) ∨
          ∃ e, ended.1 = .ofFault (.file e) (runLines result)) ∧
      ∀ more, host.bound ≤ more →
        program { host with bound := more } console env words w = some ended) ∧
    ((∀ bound, program { host with bound } console env words w = none) →
      ∃ config steps opened, Opens host env r w config steps opened ∧
        Run.Endless (host.env config) steps ⟨r.tag, r.capturing⟩ opened w.files) := by
  have hprogram (host : Run.Host δ) :
      program host console env words w = runSteps host console env r w := by
    simp [program, request, fulfil]
  simp only [hprogram]
  refine ⟨fun ended hran => ?_, endless_of_runSteps⟩
  have larger (more : Nat) (le : host.bound ≤ more) := runSteps_of_le console hran le
  rcases cases_of_runSteps hran with ⟨never, fault, hfault⟩ | ⟨result, files, only, concluded⟩
  · have hone : ended.1.code.number = 1 := by rw [hfault]; rfl
    refine ⟨iff_of_false (by omega) ?_, fun _ => hone, ?_, larger⟩
    · rintro ⟨-, result, takes, -⟩
      exact never result takes
    · intro result takes
      exact absurd takes (never result)
  · have takes : TakesPlace host env r w result := (only result).mpr rfl
    have assigned : ∀ item ∈ r.params, '=' ∈ item.toList := by
      obtain ⟨_, _, _, _, ⟨params, hparams, -⟩, -⟩ := takes
      exact assigned_of_assignments hparams
    have hzero := concluded.number_eq_zero
    have hle : ended.1.code.number ≤ 1 := concluded.number_le
    refine ⟨?_, by omega, ?_, larger⟩
    · constructor
      · intro zero
        exact ⟨assigned, result, takes, hzero.mp zero⟩
      · rintro ⟨-, other, hother, good⟩
        obtain rfl := (only other).mp hother
        exact hzero.mpr good
    · intro other hother told
      obtain rfl := (only other).mp hother
      exact concluded.stored told

theorem run_exit_code_of_opened :
    let host : Run.Host Unit := ⟨Run.promptBrowser, ⟨0⟩, 3⟩
    let words := ["run", "s.json", "-p", "where=there", "--report-dir", "out"]
    let r : RunRequest :=
      { stepsFile := .ofString "s.json"
        params := ["where=there"]
        reportDirectory := some (.ofString "out") }
    let steps := "[\x7b\"action\":\"open\",\"actionValue\":\"where\"\x7d]"
    let w : Workspace Unit :=
      ⟨{ shared := { browser := () } }, ⟨[(["s.json"], .file (Text.encodeUtf8 steps))]⟩⟩
    Request.ofWords? words = some (.run r) ∧
      ∃ ended, program host .tolerant [] words w = some ended ∧
        ∃ result, TakesPlace host [] r w result ∧ result.status = .passed ∧
          Report.Stored ended.2.files (.ofString "out") result := by
  intro host words r steps w
  have request : Request.ofWords? words = some (.run r) := rfl
  have hcode : (program host .tolerant [] words w).map (·.1.code.number) = some 0 := by
    decide +kernel
  obtain ⟨ended, hended, zero⟩ := Option.map_eq_some_iff.mp hcode
  obtain ⟨hzero, -⟩ := (run_exit_code host .tolerant [] w request).1 ended hended
  obtain ⟨-, result, takes, passed, -, stored⟩ := hzero.mp zero
  exact ⟨request, ended, hended, result, takes, passed, stored _ rfl⟩

/-- The output of a narrow encoding, which has the first 256 characters only. -/
def Console.narrow : Console where
  refusal? _ line :=
    if line.toList.all (·.toNat < 256) then none else some "ordinal not in range(256)"

/-- A run that passed does not make its command succeed if the output cannot encode what is told of it.
Nor does one whose reports cannot be written, because there is a file where their directory should be:
it ends without them. -/
theorem run_exit_code_not_exact :
    let host : Run.Host Unit := ⟨Run.promptBrowser, ⟨0⟩, 3⟩
    let words := ["run", "s.json"]
    let r : RunRequest := { stepsFile := .ofString "s.json" }
    let reporting : RunRequest := { r with reportDirectory := some (.ofString "out") }
    let steps := "[\x7b\"action\":\"open\",\"actionValue\":\"there\"\x7d]"
    let w : Workspace Unit := ⟨{ shared := { browser := () } },
      ⟨[(["out"], .file []), (["s.json"], .file (Text.encodeUtf8 steps))]⟩⟩
    (Request.ofWords? words = some (.run r) ∧
      ∃ ended, program host .narrow [] words w = some ended ∧ ended.1.code.number = 1 ∧
        ∃ result, TakesPlace host [] r w result ∧ result.status = .passed) ∧
    Request.ofWords? (words ++ ["--report-dir", "out"]) = some (.run reporting) ∧
      ∃ ended, program host .tolerant [] (words ++ ["--report-dir", "out"]) w = some ended ∧
        ended.1.code.number = 1 ∧ ∃ result, TakesPlace host [] reporting w result ∧
          result.status = .passed ∧ ¬ Report.Stored ended.2.files (.ofString "out") result := by
  intro host words r reporting steps w
  have succeeds : (runSteps host .tolerant [] r w).map (·.1.code.number) = some 0 := by
    decide +kernel
  obtain ⟨result, takes, passed⟩ := takesPlace_of_success succeeds
  have hnarrow : (program host .narrow [] words w).map (·.1.code.number) = some 1 := by
    decide +kernel
  have hfile : (program host .tolerant [] (words ++ ["--report-dir", "out"]) w).map
      (fun ended => (ended.1.code.number,
        (ended.2.files.readBytes (Report.Form.json.path (.ofString "out"))).isOk)) =
      some (1, false) := by
    decide +kernel
  obtain ⟨ended, hended, hone⟩ := Option.map_eq_some_iff.mp hnarrow
  obtain ⟨unreported, hunreported, hpair⟩ := Option.map_eq_some_iff.mp hfile
  obtain ⟨hnumber, hlost⟩ := Prod.mk.inj hpair
  refine ⟨⟨rfl, ended, hended, hone, result, takes, passed⟩, rfl, unreported, hunreported, hnumber,
    result, takes, passed, fun stored => ?_⟩
  have held : Report.Holds unreported.2.files (.ofString "out") result .json := stored .json
  rw [held] at hlost
  cases hlost

end BrowserSteps.CommandLine
