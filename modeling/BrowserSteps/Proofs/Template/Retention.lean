import BrowserSteps.Proofs.Files.Tree
import BrowserSteps.Template.Store

/-!
What a store of templates keeps. A template that was loaded is kept as it was, whatever becomes of its
file; one that could not be loaded leaves nothing behind, and is looked for again the next time.
-/

namespace BrowserSteps

/-- A path that a file system accepts: neither one of its names nor the whole is too long. -/
structure Path.IsAccepted (path : Path) : Prop where
  whole : path.text.utf8ByteSize < FileTree.pathLimit
  names : ∀ name ∈ path.names, name.utf8ByteSize ≤ FileTree.nameLimit

namespace FileTree

variable {tree : FileTree} {path : Path}

theorem walk_ne_nameTooLong {names : List String}
    (short : ∀ name ∈ names, name.utf8ByteSize ≤ nameLimit) (start : List String) :
    tree.walk start names ≠ .error .nameTooLong := by
  induction names generalizing start with
  | nil => simp [walk]
  | cons name rest ih =>
      rw [List.forall_mem_cons] at short
      unfold walk
      split
      · simp
      · simp
      · rw [if_neg (Nat.not_lt.mpr short.1)]
        exact ih short.2 _

/-- Only a length is in the way of an answer. -/
theorem find_ne_nameTooLong (accepted : path.IsAccepted) : tree.find path ≠ .error .nameTooLong := by
  have short : ∀ name ∈ (if path.absolute then "/" :: path.names else path.names),
      name.utf8ByteSize ≤ nameLimit := by
    split
    · exact List.forall_mem_cons.mpr ⟨by decide, accepted.names⟩
    · exact accepted.names
  have hwalk : tree.walk [] _ ≠ .error .nameTooLong := walk_ne_nameTooLong short []
  unfold find place
  rw [if_neg (Nat.not_le.mpr accepted.whole)]
  cases hplace : tree.walk [] (if path.absolute then "/" :: path.names else path.names) with
  | error fault =>
      rintro ⟨⟩
      exact hwalk hplace
  | ok place =>
      simp only [bind, Except.bind]
      split <;> simp [pure, Except.pure]

theorem isFile_eq_true : tree.isFile path = .ok true ↔ ∃ content, tree.find path = .ok (.file content) := by
  unfold isFile probe
  rcases tree.find path with fault | content | _
  · cases fault <;> simp [Except.map]
  · simp [Except.map]
  · simp [Except.map]

theorem isFile_eq_false (accepted : tree.find path ≠ .error .nameTooLong) :
    tree.isFile path = .ok false ↔ ∀ content, tree.find path ≠ .ok (.file content) := by
  unfold isFile probe
  rcases hfound : tree.find path with fault | content | _
  · cases fault with
    | nameTooLong => exact absurd hfound accepted
    | _ => simp [Except.map]
  · simp [Except.map]
  · simp [Except.map]

theorem readText_of_find {content : Text.Bytes} (h : tree.find path = .ok (.file content)) :
    tree.readText path = match Text.decodeUtf8 content with
      | .ok text => .ok (String.ofList (Text.normalizeBreaks text.toList))
      | .error e => .error (.encoding e) := by
  unfold readText
  rw [readBytes_eq_ok.mpr h]
  rfl

theorem find_of_readText {text : String} (h : tree.readText path = .ok text) :
    ∃ content, tree.find path = .ok (.file content) := by
  unfold readText at h
  cases hread : tree.readBytes path with
  | error e => simp [hread, bind, Except.bind] at h
  | ok content => exact ⟨content, readBytes_eq_ok.mp hread⟩

end FileTree

namespace Template.Store

variable {store : Store} {tree : FileTree} {name text : String}

theorem load_of_loaded (loaded : store.loaded.lookup name = some text) :
    store.load tree name = (.ok text, store) := by
  rw [load, loaded]

theorem load_of_readText (fresh : store.loaded.lookup name = none)
    (h : tree.readText (store.pathOf name) = .ok text) :
    store.load tree name = (.ok text, { store with loaded := (name, text) :: store.loaded }) := by
  rw [load, fresh, FileTree.isFile_eq_true.mpr (FileTree.find_of_readText h), h]

theorem load_of_readText_error {e : FileError} (fresh : store.loaded.lookup name = none)
    (file : tree.isFile (store.pathOf name) = .ok true)
    (h : tree.readText (store.pathOf name) = .error e) :
    store.load tree name = (.error (.file e), store) := by
  rw [load, fresh, file, h]

theorem load_of_not_isFile (fresh : store.loaded.lookup name = none)
    (h : tree.isFile (store.pathOf name) = .ok false) :
    store.load tree name = (.error (.notFound name store.directory), store) := by
  rw [load, fresh, h]

/-- What a name that was not loaded before is found to be: the text of a file, a file that is no text, or
no file at all. -/
theorem load_of_fresh (fresh : store.loaded.lookup name = none)
    (accepted : tree.find (store.pathOf name) ≠ .error .nameTooLong) :
    (∃ content text, tree.find (store.pathOf name) = .ok (.file content) ∧
      tree.readText (store.pathOf name) = .ok text ∧
      store.load tree name = (.ok text, { store with loaded := (name, text) :: store.loaded })) ∨
    (∃ content e, tree.find (store.pathOf name) = .ok (.file content) ∧
      Text.decodeUtf8 content = .error e ∧
      tree.readText (store.pathOf name) = .error (.encoding e) ∧
      store.load tree name = (.error (.file (.encoding e)), store)) ∨
    (∀ content, tree.find (store.pathOf name) ≠ .ok (.file content)) ∧
      store.load tree name = (.error (.notFound name store.directory), store) := by
  by_cases there : ∃ content, tree.find (store.pathOf name) = .ok (.file content)
  · have file := FileTree.isFile_eq_true.mpr there
    obtain ⟨content, hfound⟩ := there
    have hread := FileTree.readText_of_find hfound
    cases decoded : Text.decodeUtf8 content with
    | ok text =>
        rw [decoded] at hread
        exact .inl ⟨content, _, hfound, hread, load_of_readText fresh hread⟩
    | error e =>
        rw [decoded] at hread
        exact .inr (.inl ⟨content, e, hfound, decoded, hread, load_of_readText_error fresh file hread⟩)
  · have missing := not_exists.mp there
    have noFile := (FileTree.isFile_eq_false accepted).mpr missing
    exact .inr (.inr ⟨missing, load_of_not_isFile fresh noFile⟩)

/-- As long as a name is not loaded, what stands at its path decides about the answer. -/
theorem answer_of_fresh (fresh : store.loaded.lookup name = none)
    (accepted : (store.pathOf name).IsAccepted) :
    (∀ text, (store.load tree name).1 = .ok text ↔ tree.readText (store.pathOf name) = .ok text) ∧
    ((store.load tree name).1 = .error (.notFound name store.directory) ↔
      ∀ content, tree.find (store.pathOf name) ≠ .ok (.file content)) ∧
    ((∃ text, (store.load tree name).1 = .ok text) ∨
      (store.load tree name).1 = .error (.notFound name store.directory) ∨
      ∃ content e, tree.find (store.pathOf name) = .ok (.file content) ∧
        Text.decodeUtf8 content = .error e) := by
  rcases load_of_fresh fresh (FileTree.find_ne_nameTooLong accepted) with
    ⟨content, text, hfound, hread, hload⟩ | ⟨content, e, hfound, decoded, hread, hload⟩ |
    ⟨missing, hload⟩
  · rw [hload]
    refine ⟨fun other => ?_, iff_of_false nofun fun missing => missing content hfound, .inl ⟨text, rfl⟩⟩
    rw [hread, Except.ok.injEq, Except.ok.injEq]
  · rw [hload]
    refine ⟨fun other => iff_of_false nofun ?_, iff_of_false nofun fun missing => missing content hfound,
      .inr (.inr ⟨content, e, hfound, decoded⟩)⟩
    rw [hread]
    nofun
  · rw [hload]
    refine ⟨fun other => iff_of_false nofun ?_, iff_of_true rfl missing, .inr (.inl rfl)⟩
    intro hread
    obtain ⟨content, hfound⟩ := FileTree.find_of_readText hread
    exact missing content hfound

/-- A load either leaves the store as it is or gives a name its text for the first time. -/
theorem load_cases (store : Store) (tree : FileTree) (name : String) :
    (∃ text, store.loaded.lookup name = some text ∧ store.load tree name = (.ok text, store)) ∨
    (∃ text, store.loaded.lookup name = none ∧ store.load tree name =
      (.ok text, { store with loaded := (name, text) :: store.loaded })) ∨
    ∃ e, store.loaded.lookup name = none ∧ store.load tree name = (.error e, store) := by
  cases hloaded : store.loaded.lookup name with
  | some text => exact .inl ⟨text, rfl, load_of_loaded hloaded⟩
  | none =>
      refine .inr ?_
      unfold load
      rw [hloaded]
      rcases tree.isFile (store.pathOf name) with e | _ | _
      · exact .inr ⟨_, rfl, rfl⟩
      · exact .inr ⟨_, rfl, rfl⟩
      · cases tree.readText (store.pathOf name) with
        | error e => exact .inr ⟨_, rfl, rfl⟩
        | ok text => exact .inl ⟨_, rfl, rfl⟩

theorem build_snd (store : Store) (tree : FileTree) (name : String)
    (params : List (String × String)) :
    (store.build tree name params).2 = (store.load tree name).2 := by
  unfold build
  rcases store.load tree name with ⟨_ | _, _⟩ <;> rfl

theorem build_of_load {later : Store} (h : store.load tree name = (.ok text, later))
    (params : List (String × String)) : store.build tree name params =
      ((Template.build text params).mapError .build, later) := by
  rw [build, h]

/-- What can happen while a store is in use. The files may change in any way between two calls. -/
inductive Event where
  | load (name : String)
  | build (name : String) (params : List (String × String))
  | change (tree : FileTree)

namespace Event

/-- The store and the files after an event. -/
def after (event : Event) (now : Store × FileTree) : Store × FileTree :=
  match event with
  | .load name => ((now.1.load now.2 name).2, now.2)
  | .build name params => ((now.1.build now.2 name params).2, now.2)
  | .change tree => (now.1, tree)

/-- The loads of an event with their answers. To build a template is to load it first. -/
def loads (event : Event) (now : Store × FileTree) : List (String × Except StoreError String) :=
  match event with
  | .load name | .build name _ => [(name, (now.1.load now.2 name).1)]
  | .change _ => []

end Event

/-- The store and the files after a history. -/
def after (history : List Event) (start : Store × FileTree) : Store × FileTree :=
  history.foldl (fun now event => event.after now) start

/-- The loads of a history with their answers. -/
def loads : List Event → Store × FileTree → List (String × Except StoreError String)
  | [], _ => []
  | event :: later, start => event.loads start ++ loads later (event.after start)

section History

variable {event : Event} {now start : Store × FileTree} {history : List Event}

theorem lookup_load : (now.1.load now.2 name).2.loaded.lookup name = some text ↔
    now.1.loaded.lookup name = some text ∨ (now.1.load now.2 name).1 = .ok text := by
  rcases load_cases now.1 now.2 name with ⟨old, hold, h⟩ | ⟨new, fresh, h⟩ | ⟨e, fresh, h⟩
  · simp [h, hold]
  · simp [h, fresh]
  · simp [h, fresh]

theorem lookup_load_of_ne {other : String} (different : other ≠ name) :
    (now.1.load now.2 name).2.loaded.lookup other = now.1.loaded.lookup other := by
  rcases load_cases now.1 now.2 name with ⟨old, hold, h⟩ | ⟨new, fresh, h⟩ | ⟨e, fresh, h⟩
  · rw [h]
  · simp [h, List.lookup_cons, beq_false_of_ne different]
  · rw [h]

/-- One event adds what its own load answered, and nothing for any other name. -/
theorem lookup_event (event : Event) (now : Store × FileTree) (name text : String) :
    (event.after now).1.loaded.lookup name = some text ↔
      now.1.loaded.lookup name = some text ∨ (name, .ok text) ∈ event.loads now := by
  have hload (loaded : String) : (now.1.load now.2 loaded).2.loaded.lookup name = some text ↔
      now.1.loaded.lookup name = some text ∨
        (name, .ok text) ∈ [(loaded, (now.1.load now.2 loaded).1)] := by
    rw [List.mem_singleton, Prod.mk.injEq]
    by_cases same : name = loaded
    · subst same
      rw [lookup_load]
      simp [eq_comm]
    · rw [lookup_load_of_ne same]
      simp [same]
  cases event with
  | load loaded => exact hload loaded
  | build loaded params =>
      simp only [Event.after, build_snd]
      exact hload loaded
  | change tree => simp [Event.after, Event.loads]

/-- What a store keeps after a history is what the loads of the history answered. -/
theorem lookup_after (history : List Event) (start : Store × FileTree) (name text : String) :
    (after history start).1.loaded.lookup name = some text ↔
      start.1.loaded.lookup name = some text ∨ (name, .ok text) ∈ loads history start := by
  induction history generalizing start with
  | nil => simp [after, loads]
  | cons event later ih =>
      rw [after, List.foldl_cons, ← after, ih, lookup_event, loads, List.mem_append, or_assoc]

theorem directory_after (history : List Event) (start : Store × FileTree) :
    (after history start).1.directory = start.1.directory := by
  have hload (now : Store × FileTree) (name : String) :
      (now.1.load now.2 name).2.directory = now.1.directory := by
    rcases load_cases now.1 now.2 name with ⟨_, _, h⟩ | ⟨_, _, h⟩ | ⟨_, _, h⟩ <;> rw [h]
  induction history generalizing start with
  | nil => rfl
  | cons event later ih =>
      rw [after, List.foldl_cons, ← after, ih]
      cases event with
      | load name => exact hload start name
      | build name params =>
          rw [Event.after, build_snd]
          exact hload start name
      | change tree => rfl

theorem after_concat_of_load_failed {e : StoreError}
    (failed : ((after history start).1.load (after history start).2 name).1 = .error e) :
    after (history ++ [.load name]) start = after history start ∧
      ∀ params, after (history ++ [.build name params]) start = after history start := by
  have unchanged : ((after history start).1.load (after history start).2 name).2 =
      (after history start).1 := by
    rcases load_cases (after history start).1 (after history start).2 name with
      ⟨_, _, h⟩ | ⟨_, _, h⟩ | ⟨_, _, h⟩
    · rw [h]
    · simp [h] at failed
    · rw [h]
  have hconcat (event : Event) :
      after (history ++ [event]) start = event.after (after history start) := by
    simp only [after, List.foldl_append, List.foldl_cons, List.foldl_nil]
  constructor
  · rw [hconcat, Event.after, unchanged]
  · intro params
    rw [hconcat, Event.after, build_snd, unchanged]

end History

/-- What a load and a build answer after any history of a store that was new at its start. If a load of
the name has succeeded, its text is the answer for good. As long as none has, a path that the file system
accepts decides: the answer is the text of the regular file there, or that there is none, unless the file
is no text. A load that fails leaves the store as it was. -/
theorem load_after (directory : Path) (tree : FileTree) (history : List Event) (name : String) :
    let start : Store × FileTree := ({ directory }, tree)
    let now := after history start
    let path := directory.child (name ++ extension)
    (∀ text, (name, .ok text) ∈ loads history start →
      now.1.load now.2 name = (.ok text, now.1) ∧
      ∀ params, now.1.build now.2 name params =
        ((Template.build text params).mapError .build, now.1)) ∧
    ((∀ text, (name, .ok text) ∉ loads history start) → path.IsAccepted →
      (∀ text, (now.1.load now.2 name).1 = .ok text ↔ now.2.readText path = .ok text) ∧
      ((now.1.load now.2 name).1 = .error (.notFound name directory) ↔
        ∀ content, now.2.find path ≠ .ok (.file content)) ∧
      ((∃ text, (now.1.load now.2 name).1 = .ok text) ∨
        (now.1.load now.2 name).1 = .error (.notFound name directory) ∨
        ∃ content e, now.2.find path = .ok (.file content) ∧ Text.decodeUtf8 content = .error e)) ∧
    ∀ e, (now.1.load now.2 name).1 = .error e →
      after (history ++ [.load name]) start = now ∧
      ∀ params, (now.1.build now.2 name params).1 = .error e ∧
        after (history ++ [.build name params]) start = now := by
  intro start now path
  have hpath : now.1.pathOf name = path := by
    rw [pathOf, directory_after]
  refine ⟨fun text answered => ?_, fun unanswered accepted => ?_, fun e failed => ?_⟩
  · have loaded := (lookup_after history start name text).mpr (.inr answered)
    exact ⟨load_of_loaded loaded, build_of_load (load_of_loaded loaded)⟩
  · have fresh : now.1.loaded.lookup name = none := by
      rw [Option.eq_none_iff_forall_ne_some]
      intro text loaded
      rcases (lookup_after history start name text).mp loaded with none | answered
      · cases none
      · exact unanswered text answered
    have hdirectory : now.1.directory = directory := directory_after history start
    have hanswer := @answer_of_fresh now.1 now.2 name fresh
    rw [hpath, hdirectory] at hanswer
    exact hanswer accepted
  · obtain ⟨hload, hbuild⟩ := after_concat_of_load_failed failed
    refine ⟨hload, fun params => ⟨?_, hbuild params⟩⟩
    rcases hanswer : now.1.load now.2 name with ⟨answer, later⟩
    rw [hanswer] at failed
    obtain rfl := failed
    rw [build, hanswer]

/-- A template outlives its file; one that was never loaded does not turn up. -/
theorem load_after_removal :
    let directory : Path := ⟨false, ["templates"]⟩
    let file : List String × Entry := (["templates", "LGN.json"], .file [0x5b, 0x5d])
    let tree : FileTree := ⟨[(["templates"], .directory), file]⟩
    let emptied : FileTree := ⟨[(["templates"], .directory)]⟩
    let history := [.load "LGN", .change emptied]
    let now := after history ({ directory }, tree)
    tree.remove (directory.child "LGN.json") = .ok emptied ∧
      now.1.load now.2 "LGN" = (.ok "[]", now.1) ∧
      (now.1.load now.2 "TOP").1 = .error (.notFound "TOP" directory) := by
  intro directory file tree emptied history now
  have answered : loads history ({ directory }, tree) = [("LGN", .ok "[]")] := by rfl
  have accepted : (directory.child "TOP.json").IsAccepted := ⟨by decide, by decide⟩
  refine ⟨by decide, ((load_after directory tree history "LGN").1 "[]" ?_).1,
    ((load_after directory tree history "TOP").2.1 ?_ accepted).2.1.mpr ?_⟩
  · simp [answered]
  · simp [answered]
  · intro content
    rw [show now.2.find (directory.child ("TOP" ++ extension)) = .error .missing by decide]
    simp

end Template.Store

end BrowserSteps
