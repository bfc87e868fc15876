import BrowserSteps.Config.Source
import BrowserSteps.Proofs.Keyed
import Mathlib

/-!
Which source decides. A configuration is put together in layers: a file is set over the defaults, the
environment over the file and the overrides over both. Field by field the last layer that says something
about the field has its way, and no layer touches a field that it says nothing about.
-/

namespace BrowserSteps.Config

section

variable {f : Field} {before between after : Config} {d e : Option Datum}

/-- A field takes the value that a datum becomes. Without a datum it keeps the one that it had. -/
def Takes (f : Field) (before : Config) (d : Option Datum) (after : Config) : Prop :=
  match d with
  | some datum => convert f.kind datum = .ok (after.get f)
  | none => after.get f = before.get f

/-- The later of two layers has its way. -/
theorem Takes.trans (first : Takes f before d between) (second : Takes f between e after) :
    Takes f before (e.or d) after := by
  cases e with
  | some datum => exact second
  | none =>
      have kept : after.get f = between.get f := second
      cases d with
      | some datum => exact Eq.trans first (congrArg Except.ok kept.symm)
      | none => exact kept.trans first

theorem Takes.unique {other : Config} (h : Takes f before d after) (h' : Takes f before d other) :
    after.get f = other.get f := by
  cases d with
  | some datum => exact Except.ok.inj (h.symm.trans h')
  | none => exact Eq.trans h (Eq.symm h')

end

/-- The fields are all that there is to a configuration. -/
theorem ext_get {c c' : Config} (h : ∀ f, c.get f = c'.get f) : c = c' := by
  obtain ⟨⟩ := c
  obtain ⟨⟩ := c'
  rw [mk.injEq]
  exact ⟨h .dataDirectory, h .headed, h .runTimeout, h .throttling, h .latency, h .download, h .upload,
    h .templatesDirectory, h .viewportWidth, h .viewportHeight⟩

theorem Field.ofName?_eq_some_iff {name : String} {f : Field} : ofName? name = some f ↔ f.name = name := by
  constructor
  · intro h
    simpa using List.find?_some h
  · intro h
    rw [← h, ofName?_name]

theorem Field.name_ne_of_ofName? {name : String} (unknown : ofName? name = none) (f : Field) :
    name ≠ f.name := by
  intro same
  rw [same, ofName?_name] at unknown
  cases unknown

/-- No two fields have the same name. -/
theorem Field.eq_name_iff_of_ofName? {name : String} {g : Field} (known : ofName? name = some g)
    (f : Field) : name = f.name ↔ g = f := by
  rw [← ofName?_eq_some_iff.mp known, eq_comm, ← ofName?_eq_some_iff, ofName?_name, Option.some.injEq]

section

variable {c c' : Config} {f : Field} {values : List (String × Datum)}

theorem takes_set {g : Field} {datum : Datum} (h : c.set g datum = .ok c') :
    Takes f c (if g = f then some datum else none) c' := by
  unfold set at h
  split at h
  next v hv =>
    cases h
    by_cases same : g = f
    · subst same
      rw [if_pos rfl]
      exact hv.trans (congrArg Except.ok (get_put_self c g v).symm)
    · rw [if_neg same]
      exact get_put_of_ne c v (Ne.symm same)
  next => cases h

theorem takes_setAll (h : c.setAll values = .ok c') : Takes f c (Keyed.last? f.name values) c' := by
  induction values generalizing c with
  | nil =>
      cases h
      exact rfl
  | cons pair rest ih =>
      obtain ⟨name, datum⟩ := pair
      rw [Keyed.last?_cons]
      simp only [setAll] at h
      split at h
      next unknown =>
        rw [if_neg (Field.name_ne_of_ofName? unknown f), Option.or_none]
        exact ih h
      next g known =>
        split at h
        next between hset =>
          simp only [Field.eq_name_iff_of_ofName? known]
          exact (takes_set hset).trans (ih h)
        next => cases h

/-- Values can be set as long as the last one for each field becomes a value of it. -/
theorem exists_setAll (distinct : (values.map (·.1)).Nodup)
    (h : ∀ f : Field, ∀ datum ∈ Keyed.last? f.name values, ∃ v, convert f.kind datum = .ok v) :
    ∃ c', c.setAll values = .ok c' := by
  induction values generalizing c with
  | nil => exact ⟨c, rfl⟩
  | cons pair rest ih =>
      obtain ⟨name, datum⟩ := pair
      rw [List.map_cons, List.nodup_cons] at distinct
      have hrest : ∀ f : Field, ∀ datum ∈ Keyed.last? f.name rest,
          ∃ v, convert f.kind datum = .ok v := by
        intro f other member
        apply h f other
        rw [Keyed.last?_cons, member]
        rfl
      simp only [setAll]
      cases known : Field.ofName? name with
      | none => exact ih distinct.2 hrest
      | some f =>
          have hname := Field.ofName?_eq_some_iff.mp known
          have hlast : Keyed.last? f.name ((name, datum) :: rest) = some datum := by
            rw [Keyed.last?_cons, if_pos hname.symm, hname, Keyed.last?_eq_none.mpr distinct.1]
            rfl
          obtain ⟨v, hv⟩ := h f datum hlast
          have hset : c.set f datum = .ok (c.put f v) := by rw [set, hv]
          simp only [hset]
          exact ih distinct.2 hrest

end

/-! ### The file -/

/-- What a field is called inside the network section. -/
def Field.sectionKey? : Field → Option String
  | .throttling => some "throttling"
  | .latency => some "latency"
  | .download => some "download"
  | .upload => some "upload"
  | _ => none

/-- The values that one pair of a file has for a field: that of the field's name, and in the network
section those of its name there. -/
def valuesIn (f : Field) (pair : Datum × Datum) : List Datum :=
  match pair with
  | (.text "network", .map pairs) => (pairs.filter fun p => f.sectionKey? = some p.1.display).map (·.2)
  | (key, value) => if key.display = f.name then [value] else []

/-- The values that a file has for a field, in its order. -/
def valuesOf (f : Field) (pairs : List (Datum × Datum)) : List Datum := pairs.flatMap (valuesIn f)

theorem networkName_eq_name_iff (key : Datum) (f : Field) :
    networkName key = f.name ↔ f.sectionKey? = some key.display := by
  unfold networkName
  generalize key.display = word
  split
  · cases f <;> decide
  · cases f <;> decide
  · cases f <;> decide
  · cases f <;> decide
  next throttling latency download upload =>
    -- No other word makes the name of a field when it is put behind that of the section.
    have hforeign (own : String) (foreign : word ≠ own) :
        "network_" ++ word = "network_" ++ own ↔ some own = some word := by
      rw [String.append_right_inj, Option.some.injEq]
      exact eq_comm
    have hother (name : String) (head : name.toList.take 2 ≠ ['n', 'e']) :
        "network_" ++ word = name ↔ none = some word := by
      refine iff_of_false ?_ nofun
      rintro rfl
      exact head (by simp)
    cases f with
    | throttling => exact hforeign "throttling" throttling
    | latency => exact hforeign "latency" latency
    | download => exact hforeign "download" download
    | upload => exact hforeign "upload" upload
    | _ => exact hother _ (by decide)

theorem filter_namesOf (f : Field) (pair : Datum × Datum) :
    ((namesOf pair).filter (·.1 = f.name)).map (·.2) = valuesIn f pair := by
  unfold namesOf valuesIn
  split
  next pairs =>
    induction pairs with
    | nil => rfl
    | cons p rest ih =>
        simp only [List.map_cons, List.filter_cons, networkName_eq_name_iff] at ih ⊢
        split
        · rw [List.map_cons, List.map_cons, ih]
        · exact ih
  next key value plain =>
    by_cases named : key.display = f.name <;> simp [named]

/-- Whatever name it goes by, the last value for a field is the one that is left. -/
theorem last?_flatten (f : Field) (pairs : List (Datum × Datum)) :
    Keyed.last? f.name (flatten pairs) = (valuesOf f pairs).getLast? := by
  rw [flatten, Keyed.last?_ofPairs, Keyed.last?, valuesOf, List.filter_flatMap, List.map_flatMap]
  simp only [filter_namesOf]

/-- The mapping that a file holds. One without content counts as empty. -/
def mapping? : Datum → Option (List (Datum × Datum))
  | .null => some []
  | .map pairs => some pairs
  | _ => none

/-- A file is there, and this is the mapping in it. -/
def Holds (tree : FileTree) (path : Path) (pairs : List (Datum × Datum)) : Prop :=
  tree.present path = .ok true ∧ ∃ text datum,
    tree.readText path = .ok text ∧ Yaml.read text = .ok datum ∧ mapping? datum = some pairs

/-- The mapping that a configuration is read from: that of the named file, else that of the default
file, and without one an empty mapping. -/
def ReadFrom (tree : FileTree) : Option Path → List (Datum × Datum) → Prop
  | some path, pairs => Holds tree path pairs
  | none, pairs =>
    Holds tree defaultFile pairs ∨ tree.present defaultFile = .ok false ∧ pairs = []

theorem setAll_of_ofDatum {path : Path} {datum : Datum} {c : Config} (h : ofDatum path datum = .ok c) :
    ∃ pairs, mapping? datum = some pairs ∧ setAll {} (flatten pairs) = .ok c := by
  unfold ofDatum at h
  split at h
  · exact ⟨[], rfl, h⟩
  next pairs => exact ⟨pairs, rfl, h⟩
  · cases h

/-- The names of a file are looked at, and stay what they are. -/
theorem eq_of_checkNames {datum checked : Datum} (h : checkNames datum = .ok checked) :
    checked = datum := by
  unfold checkNames at h
  split at h
  · split at h
    · cases h
    · exact (Except.ok.inj h).symm
  · exact (Except.ok.inj h).symm

theorem holds_of_ofFile {tree : FileTree} {path : Path} {c : Config} (h : ofFile tree path = .ok c) :
    ∃ pairs, Holds tree path pairs ∧ setAll {} (flatten pairs) = .ok c := by
  unfold ofFile at h
  cases hpresent : tree.present path with
  | error e =>
      rw [hpresent] at h
      cases h
  | ok present =>
      rw [hpresent] at h
      cases present with
      | false => cases h
      | true =>
          cases htext : tree.readText path with
          | error e =>
              simp only [htext] at h
              cases h
          | ok text =>
              simp only [htext, Except.mapError, bind, Except.bind, if_true] at h
              split at h
              next datum hread =>
                cases hnames : checkNames datum with
                | error e =>
                    rw [hnames] at h
                    cases h
                | ok checked =>
                    rw [hnames, eq_of_checkNames hnames] at h
                    obtain ⟨pairs, hpairs, hset⟩ := setAll_of_ofDatum h
                    exact ⟨pairs, ⟨hpresent, text, datum, htext, hread, hpairs⟩, hset⟩
              · cases h
              · cases h

theorem readFrom_of_load {tree : FileTree} {path : Option Path} {env : Environment} {base : Config}
    (h : load tree path env = .ok base) :
    ∃ pairs c, ReadFrom tree path pairs ∧ setAll {} (flatten pairs) = .ok c ∧
      base = applyEnvironment env c := by
  unfold load at h
  cases path with
  | some path =>
      cases hfile : ofFile tree path with
      | error e =>
          simp only [hfile] at h
          cases h
      | ok c =>
          simp only [hfile] at h
          cases h
          obtain ⟨pairs, hholds, hset⟩ := holds_of_ofFile hfile
          exact ⟨pairs, c, hholds, hset, rfl⟩
  | none =>
      cases hpresent : tree.present defaultFile with
      | error e =>
          simp only [hpresent] at h
          cases h
      | ok present =>
          cases present with
          | false =>
              simp only [hpresent] at h
              cases h
              exact ⟨[], {}, .inr ⟨hpresent, rfl⟩, rfl, rfl⟩
          | true =>
              cases hfile : ofFile tree defaultFile with
              | error e =>
                  simp only [hpresent, hfile] at h
                  cases h
              | ok c =>
                  simp only [hpresent, hfile] at h
                  cases h
                  obtain ⟨pairs, hholds, hset⟩ := holds_of_ofFile hfile
                  exact ⟨pairs, c, .inl hholds, hset, rfl⟩

/-! ### The environment -/

def Kind.isNumber : Kind → Bool
  | .whole | .seconds => true
  | .text | .truth => false

/-- The value that the environment has to say for a field. A variable whose number cannot be read says
nothing. -/
def Environment.says? (env : Environment) (f : Field) : Option Datum :=
  ((env.value? f).map Datum.text).filter fun d => !f.kind.isNumber || (convert f.kind d).isOk

/-- Every text is a text and a truth value. -/
theorem isNumber_of_misfit {k : Kind} {text : String} {m : Misfit}
    (h : convert k (.text text) = .error m) : k.isNumber = true := by
  cases k with
  | text => cases h
  | truth => cases h
  | whole => rfl
  | seconds => rfl

theorem takes_setFrom (env : Environment) (c : Config) (f g : Field) :
    Takes f c (if g = f then env.says? f else none) (setFrom env c g) := by
  unfold setFrom
  cases hvalue : env.value? g with
  | none =>
      split
      next same =>
        rw [← same, Environment.says?, hvalue]
        exact rfl
      · exact rfl
  | some text =>
      simp only
      cases hconvert : convert g.kind (.text text) with
      | ok v =>
          have hset : c.set g (.text text) = .ok (c.put g v) := by rw [set, hconvert]
          have hsays : (if g = f then env.says? f else none) = if g = f then some (.text text) else none := by
            split
            next same =>
              subst same
              simp [Environment.says?, hvalue, hconvert, Except.isOk, Except.toBool]
            · rfl
          rw [hset, hsays]
          exact takes_set hset
      | error m =>
          have hset : c.set g (.text text) = .error (faultOf g (.text text) m) := by rw [set, hconvert]
          have hsays : (if g = f then env.says? f else none) = none := by
            split
            next same =>
              subst same
              simp [Environment.says?, hvalue, hconvert, isNumber_of_misfit hconvert, Except.isOk,
                Except.toBool]
            · rfl
          rw [hset, hsays]
          exact rfl

theorem takes_applyEnvironment (env : Environment) (c : Config) (f : Field) :
    Takes f c (env.says? f) (applyEnvironment env c) := by
  have hfields (fields : List Field) (c : Config) :
      Takes f c (if f ∈ fields then env.says? f else none) (fields.foldl (setFrom env) c) := by
    induction fields generalizing c with
    | nil => exact rfl
    | cons g rest ih =>
        have hboth := (takes_setFrom env c f g).trans (ih (setFrom env c g))
        -- A field that came earlier and comes again is set to the same value twice.
        have hsame : (if f ∈ rest then env.says? f else none).or (if g = f then env.says? f else none) =
            if f ∈ g :: rest then env.says? f else none := by
          simp only [List.mem_cons, eq_comm (a := f)]
          by_cases first : g = f <;> by_cases later : f ∈ rest <;> simp [first, later]
        exact hsame ▸ hboth
  have hall := hfields Field.all c
  rw [if_pos f.mem_all] at hall
  exact hall

/-! ### Overrides -/

/-- Whether an override is one at all. -/
def isGiven : Datum → Bool
  | .null => false
  | _ => true

/-- The last override of a field. -/
def overriding? (overrides : List (String × Datum)) (f : Field) : Option Datum :=
  Keyed.last? f.name (overrides.filter (isGiven ·.2))

theorem override_cons (c : Config) (name : String) (value : Datum) (rest : List (String × Datum)) :
    c.override ((name, value) :: rest) =
      if isGiven value then
        match Field.ofName? name with
        | none => (some (.unknown name), c)
        | some f =>
          match c.set f value with
          | .ok c => c.override rest
          | .error e => (some e, c)
      else c.override rest := by
  cases value <;> rfl

theorem takes_override {c c' : Config} {overrides : List (String × Datum)}
    (h : c.override overrides = (none, c')) (f : Field) : Takes f c (overriding? overrides f) c' := by
  induction overrides generalizing c with
  | nil =>
      cases h
      exact rfl
  | cons pair rest ih =>
      obtain ⟨name, value⟩ := pair
      rw [override_cons] at h
      split at h
      next given =>
        rw [overriding?, List.filter_cons, if_pos given, Keyed.last?_cons]
        split at h
        next => cases h
        next g known =>
          split at h
          next between hset =>
            simp only [Field.eq_name_iff_of_ofName? known]
            exact (takes_set hset).trans (ih h)
          next => cases h
      next null =>
        rw [overriding?, List.filter_cons, if_neg null]
        exact ih h

/-! ### All layers -/

/-- What decides a field: an override, else the environment, else the last value of the file. -/
def deciding? (overrides : List (String × Datum)) (env : Environment)
    (pairs : List (Datum × Datum)) (f : Field) : Option Datum :=
  (overriding? overrides f).or ((env.says? f).or (valuesOf f pairs).getLast?)

/-- Files that have the same values for all fields are read alike. -/
theorem setAll_congr {pairs others : List (Datum × Datum)} {c : Config}
    (same : ∀ f, valuesOf f others = valuesOf f pairs) (h : setAll {} (flatten pairs) = .ok c) :
    setAll {} (flatten others) = .ok c := by
  have hlast (f : Field) : Keyed.last? f.name (flatten others) = Keyed.last? f.name (flatten pairs) := by
    rw [last?_flatten, last?_flatten, same]
  have hvalues : ∀ f : Field, ∀ datum ∈ Keyed.last? f.name (flatten others),
      ∃ v, convert f.kind datum = .ok v := by
    intro f datum member
    have htakes := takes_setAll (f := f) h
    rw [← hlast f, member] at htakes
    exact ⟨_, htakes⟩
  obtain ⟨c', hother⟩ : ∃ c', setAll {} (flatten others) = .ok c' :=
    exists_setAll (Keyed.nodup_ofPairs _) hvalues
  have hsame : c' = c := by
    apply ext_get
    intro f
    have htakes := takes_setAll (f := f) hother
    rw [hlast f] at htakes
    exact htakes.unique (takes_setAll h)
  exact hsame ▸ hother

theorem applyEnvironment_congr {env other : Environment} (same : ∀ f, other.says? f = env.says? f)
    (c : Config) : applyEnvironment other c = applyEnvironment env c := by
  apply ext_get
  intro f
  have htakes := takes_applyEnvironment other c f
  rw [same f] at htakes
  exact htakes.unique (takes_applyEnvironment env c f)

/-- Each field of a configuration has the value that its last source gives it: the last override that is
not null, else the variable of the field, if it has one that is set and, for a number, can be read, else
the last key of the file that stands for the field, else the default. Other keys of the file and other
variables can come and go: with the same values for all fields the configuration is the same. -/
theorem load_override_takes {tree : FileTree} {path : Option Path} {env : Environment}
    {overrides : List (String × Datum)} {base config : Config} (loaded : load tree path env = .ok base)
    (overridden : base.override overrides = (none, config)) :
    ∃ pairs, ReadFrom tree path pairs ∧
      (∀ f, Takes f {} (deciding? overrides env pairs f) config) ∧
      ∀ others other file, (∀ f, valuesOf f others = valuesOf f pairs) →
        (∀ f, Environment.says? other f = env.says? f) →
        ∃ c, ofDatum file (.map others) = .ok c ∧
          (applyEnvironment other c).override overrides = (none, config) := by
  obtain ⟨pairs, c, hread, hset, rfl⟩ := readFrom_of_load loaded
  refine ⟨pairs, hread, ?_, ?_⟩
  · intro f
    have hfile : Takes f {} (valuesOf f pairs).getLast? c := by
      rw [← last?_flatten]
      exact takes_setAll hset
    exact (hfile.trans (takes_applyEnvironment env c f)).trans (takes_override overridden f)
  · intro others other file hvalues hsays
    refine ⟨c, setAll_congr hvalues hset, ?_⟩
    rw [applyEnvironment_congr hsays]
    exact overridden

/-- A file with a network section and a key that stands for no field. -/
def sectionedText : String := "network:\n  latency: 7\nspeed: 1\n"

/-- The node of that text, wherever its parts stand. -/
def isSectioned : Except Yaml.Fault (Option (Yaml.Version × Yaml.Node)) → Bool
  | .ok (some (⟨1, 2⟩, .mapping .map [(.scalar .str "network" _,
      .mapping .map [(.scalar .str "latency" _, .scalar .int "7" _)] _),
      (.scalar .str "speed" _, .scalar .int "1" _)] _)) => true
  | _ => false

theorem read_sectionedText :
    Yaml.read sectionedText =
      .ok (.map [(.text "network", .map [(.text "latency", .int 7)]), (.text "speed", .int 1)]) := by
  have hnode : isSectioned (Yaml.Node.ofText? sectionedText.toList) = true := by decide +kernel
  have hplain : sectionedText.toList.all Yaml.isPrintable = true := by decide +kernel
  unfold isSectioned at hnode
  split at hnode
  next p q r s t u v heq =>
    have hvalue : Yaml.Value.ofNode ⟨1, 2⟩ (.mapping .map [(.scalar .str "network" p,
        .mapping .map [(.scalar .str "latency" q, .scalar .int "7" r)] s),
        (.scalar .str "speed" t, .scalar .int "1" u)] v) =
          .ok (.map [(.text "network", .map [(.text "latency", .int 7)]),
            (.text "speed", .int 1)]) := by cbv
    simp only [Yaml.read, hplain, if_true, heq, bind, Except.bind, hvalue]
    rfl
  next => cases hnode

theorem load_override_takes_sectioned :
    let tree : FileTree := ⟨[(["c"], .file (Text.encodeUtf8 sectionedText))]⟩
    let env : Environment := [("UIPROBE_NETWORK_UPLOAD", "x"), ("UIPROBE_HEADED", "yes")]
    let overrides : List (String × Datum) := [("network_download", .int 9), ("headed", .null)]
    ∃ base config, load tree (some ⟨false, ["c"]⟩) env = .ok base ∧
      base.override overrides = (none, config) ∧
      config.latency = 7 ∧ config.upload = 500000 ∧ config.headed = true ∧ config.download = 9 := by
  intro tree env overrides
  have hpresent : tree.present ⟨false, ["c"]⟩ = .ok true := by decide +kernel
  have htext : tree.readText ⟨false, ["c"]⟩ = .ok sectionedText := by decide +kernel
  have loaded : load tree (some ⟨false, ["c"]⟩) env = .ok { latency := 7, headed := true } := by
    simp only [load, ofFile, hpresent, htext, Except.mapError, bind, Except.bind, if_true,
      read_sectionedText]
    rfl
  have overridden : override { latency := 7, headed := true } overrides =
      (none, { latency := 7, headed := true, download := 9 }) := rfl
  obtain ⟨pairs, hread, hfields, -⟩ := load_override_takes loaded overridden
  refine ⟨_, _, loaded, overridden, ?_⟩
  obtain ⟨-, text, datum, hsame, hdatum, hpairs⟩ := hread
  obtain rfl := Except.ok.inj (htext.symm.trans hsame)
  obtain rfl := Except.ok.inj (read_sectionedText.symm.trans hdatum)
  obtain rfl := Option.some.inj hpairs
  exact ⟨(Except.ok.inj (hfields .latency)).symm, hfields .upload,
    (Except.ok.inj (hfields .headed)).symm, (Except.ok.inj (hfields .download)).symm⟩

end BrowserSteps.Config
