import BrowserSteps.Proofs.Config.Precedence
import BrowserSteps.Proofs.Decimal.Overflow

/-!
Which faults are reported as those of a configuration. A value that is no number is reported together with
its field. An infinite number of units, a whole number beyond all binary64 numbers and one with too many
digits to be written are not: they end in a fault of their own. No text is any of these.
-/

namespace BrowserSteps

namespace Datum

/-- The data right inside of a datum. -/
def parts : Datum → List Datum
  | .list items | .fixed items | .set items => items
  | .map pairs => pairs.flatMap fun (key, value) => [key, value]
  | _ => []

/-- A whole number that a datum is or has somewhere inside of it. -/
inductive Contains (n : Int) : Datum → Prop where
  | here : Contains n (.int n)
  | inside {d part : Datum} (member : part ∈ d.parts) (further : Contains n part) : Contains n d

theorem sizeOf_part {d part : Datum} (member : part ∈ d.parts) : sizeOf part < sizeOf d := by
  cases d with
  | list items | fixed items | set items =>
      have hpart : sizeOf part < sizeOf items := List.sizeOf_lt_of_mem member
      simp only [list.sizeOf_spec, fixed.sizeOf_spec, set.sizeOf_spec]
      omega
  | map pairs =>
      simp only [parts, List.mem_flatMap, List.mem_cons, List.not_mem_nil, or_false] at member
      obtain ⟨⟨key, value⟩, pair, member⟩ := member
      have hpair := List.sizeOf_lt_of_mem pair
      simp only [map.sizeOf_spec, Prod.mk.sizeOf_spec] at hpair ⊢
      rcases member with rfl | rfl <;> omega
  | _ => cases member

end Datum

namespace Config

theorem anyUnwritable_iff {items : List Datum} :
    Datum.anyUnwritable items = true ↔ ∃ d ∈ items, d.isUnwritable = true := by
  induction items with
  | nil => simp [Datum.anyUnwritable]
  | cons d rest ih => simp [Datum.anyUnwritable, ih]

theorem anyPairUnwritable_iff {pairs : List (Datum × Datum)} : Datum.anyPairUnwritable pairs = true ↔
    ∃ d ∈ (Datum.map pairs).parts, d.isUnwritable = true := by
  induction pairs with
  | nil => simp [Datum.anyPairUnwritable, Datum.parts]
  | cons p rest ih =>
      simp only [Datum.parts, List.flatMap_cons, List.cons_append, List.nil_append, List.mem_cons,
        exists_eq_or_imp] at ih ⊢
      rw [Datum.anyPairUnwritable, Bool.or_eq_true, Bool.or_eq_true, ih, or_assoc]

theorem isUnwritable_iff_parts {d : Datum} : d.isUnwritable = true ↔
    (∃ n, d = .int n ∧ Nat.pow 10 Text.digitLimit ≤ n.natAbs) ∨
      ∃ part ∈ d.parts, part.isUnwritable = true := by
  cases d with
  | int n => simp [Datum.isUnwritable, Datum.parts, Text.isLongNumber]
  | list items | fixed items | set items => simp [Datum.isUnwritable, Datum.parts, anyUnwritable_iff]
  | map pairs => simp [Datum.isUnwritable, anyPairUnwritable_iff]
  | _ => simp [Datum.isUnwritable, Datum.parts]

/-- Some whole number in a datum has too many digits to be written. -/
def HasLongNumber (d : Datum) : Prop :=
  ∃ n, d.Contains n ∧ Nat.pow 10 Text.digitLimit ≤ n.natAbs

theorem hasLongNumber_of_isUnwritable (d : Datum) (h : d.isUnwritable = true) : HasLongNumber d := by
  rcases isUnwritable_iff_parts.mp h with ⟨n, rfl, long⟩ | ⟨part, member, h⟩
  · exact ⟨n, .here, long⟩
  · have smaller := Datum.sizeOf_part member
    obtain ⟨n, further, long⟩ := hasLongNumber_of_isUnwritable part h
    exact ⟨n, .inside member further, long⟩
termination_by sizeOf d

theorem isUnwritable_iff {d : Datum} : d.isUnwritable = true ↔ HasLongNumber d := by
  constructor
  · exact hasLongNumber_of_isUnwritable d
  · rintro ⟨n, contains, long⟩
    induction contains with
    | here => exact isUnwritable_iff_parts.mpr (.inl ⟨n, rfl, long⟩)
    | inside member _ ih => exact isUnwritable_iff_parts.mpr (.inr ⟨_, member, ih⟩)

/-- What ends in another fault than that of an invalid value. -/
inductive Escapes : Kind → Datum → Misfit → Prop where
  | infinite {x : Float} {negative : Bool} (h : Decimal.Binary.ofFloat x = .infinite negative) :
    Escapes .whole (.float x) .infinite
  | huge {n : Int} (h : Binary64.limit ≤ n.natAbs) : Escapes .seconds (.int n) .huge
  /-- A whole number need not be written to become a number. -/
  | unwritable {k : Kind} {d : Datum} (long : HasLongNumber d)
    (written : k.isNumber = true → ∀ n, d ≠ .int n) : Escapes k d .unwritable

section

variable {k : Kind} {d : Datum} {m : Misfit} {f : Field}

theorem textOf_eq_error_iff : textOf d = .error m ↔ HasLongNumber d ∧ m = .unwritable := by
  rw [textOf, ← isUnwritable_iff]
  split <;> simp [*, eq_comm]

theorem truthOf_eq_error_iff : truthOf d = .error m ↔ HasLongNumber d ∧ m = .unwritable := by
  have hmap (text : Except Misfit String) (g : String → Bool) :
      text.map g = .error m ↔ text = .error m := by
    cases text <;> simp [Except.map]
  cases d with
  | bool b => simp [truthOf, ← isUnwritable_iff, Datum.isUnwritable]
  | _ =>
      rw [truthOf, hmap, textOf_eq_error_iff]
      nofun

theorem wholeOf_eq_error (h : wholeOf d = .error m) :
    (m = .notNumber ∧ ∀ n, d ≠ .int n) ∨
      ∃ x negative, d = .float x ∧ Decimal.Binary.ofFloat x = .infinite negative ∧ m = .infinite := by
  unfold wholeOf at h
  split at h
  · cases h
  · cases h
  next x =>
    split at h
    · cases h
    next negative infinite => exact .inr ⟨x, negative, rfl, infinite, (Except.error.inj h).symm⟩
    next => exact .inl ⟨(Except.error.inj h).symm, nofun⟩
  next notInt _ =>
    split at h
    · cases h
    · exact .inl ⟨(Except.error.inj h).symm, notInt⟩

theorem secondsOf_eq_error (h : secondsOf d = .error m) :
    (m = .notNumber ∧ ∀ n, d ≠ .int n) ∨ ∃ n, d = .int n ∧ Binary64.limit ≤ n.natAbs ∧ m = .huge := by
  unfold secondsOf at h
  split at h
  · cases h
  next n =>
    split at h
    · cases h
    next huge => exact .inr ⟨n, rfl, floatOfInt?_eq_none_iff.mp huge, (Except.error.inj h).symm⟩
  · cases h
  next notInt _ =>
    split at h
    · cases h
    · exact .inl ⟨(Except.error.inj h).symm, notInt⟩

/-- Whatever has a long number inside of it is a collection, and no number of any kind. -/
theorem notNumber_of_hasLongNumber (long : HasLongNumber d) (notInt : ∀ n, d ≠ .int n) :
    wholeOf d = .error .notNumber ∧ secondsOf d = .error .notNumber := by
  rw [← isUnwritable_iff] at long
  cases d with
  | int n => exact absurd rfl (notInt n)
  | list items | fixed items | set items | map pairs => exact ⟨rfl, rfl⟩
  | _ => simp [Datum.isUnwritable] at long

theorem faultOf_eq_misfit_iff {first : Misfit} : faultOf f d first = .misfit m ↔
    (first = .notNumber ∧ HasLongNumber d ∧ m = .unwritable) ∨ (first ≠ .notNumber ∧ m = first) := by
  rw [← isUnwritable_iff]
  cases first with
  | notNumber =>
      by_cases long : d.isUnwritable = true <;> simp [faultOf, long, eq_comm (a := m)]
  | infinite | huge | unwritable => simp [faultOf, eq_comm (a := m)]

/-- Exactly these values end in a fault that is none of the configuration. -/
theorem escapes_iff : Escapes k d m ↔
    ∃ first, convert k d = .error first ∧ faultOf f d first = .misfit m := by
  simp only [faultOf_eq_misfit_iff]
  constructor
  · intro h
    cases h with
    | infinite infinite => exact ⟨.infinite, by simp [convert, wholeOf, infinite], by simp⟩
    | huge huge =>
        exact ⟨.huge, by simp [convert, secondsOf, floatOfInt?_eq_none_iff.mpr huge], by simp⟩
    | unwritable long written =>
        cases k with
        | text => exact ⟨.unwritable, textOf_eq_error_iff.mpr ⟨long, rfl⟩, by simp⟩
        | truth => exact ⟨.unwritable, truthOf_eq_error_iff.mpr ⟨long, rfl⟩, by simp⟩
        | whole =>
            exact ⟨.notNumber, (notNumber_of_hasLongNumber long (written rfl)).1, by simp [long]⟩
        | seconds =>
            exact ⟨.notNumber, (notNumber_of_hasLongNumber long (written rfl)).2, by simp [long]⟩
  · rintro ⟨first, failed, left⟩
    cases k with
    | text =>
        obtain ⟨long, rfl⟩ := textOf_eq_error_iff.mp failed
        obtain rfl : m = .unwritable := by simpa using left
        exact .unwritable long nofun
    | truth =>
        obtain ⟨long, rfl⟩ := truthOf_eq_error_iff.mp failed
        obtain rfl : m = .unwritable := by simpa using left
        exact .unwritable long nofun
    | whole =>
        rcases wholeOf_eq_error failed with ⟨rfl, notInt⟩ | ⟨x, negative, rfl, infinite, rfl⟩
        · obtain ⟨long, rfl⟩ : HasLongNumber d ∧ m = .unwritable := by simpa using left
          exact .unwritable long fun _ => notInt
        · obtain rfl : m = .infinite := by simpa using left
          exact .infinite infinite
    | seconds =>
        rcases secondsOf_eq_error failed with ⟨rfl, notInt⟩ | ⟨n, rfl, huge, rfl⟩
        · obtain ⟨long, rfl⟩ : HasLongNumber d ∧ m = .unwritable := by simpa using left
          exact .unwritable long fun _ => notInt
        · obtain rfl : m = .huge := by simpa using left
          exact .huge huge

variable {c : Config} {e : Fault} {values : List (String × Datum)}

theorem set_eq_misfit_iff : c.set f d = .error (.misfit m) ↔ Escapes f.kind d m := by
  rw [escapes_iff (f := f), set]
  cases convert f.kind d <;> simp

theorem set_cases (c : Config) (f : Field) (d : Datum) :
    (∃ v, convert f.kind d = .ok v ∧ c.set f d = .ok (c.put f v)) ∨
      (∀ v, convert f.kind d ≠ .ok v) ∧
        (c.set f d = .error (.invalid f d) ∨ ∃ m, c.set f d = .error (.misfit m)) := by
  rw [set]
  cases convert f.kind d with
  | ok v => exact .inl ⟨v, rfl, rfl⟩
  | error first =>
      refine .inr ⟨?_, ?_⟩
      · rintro v ⟨⟩
      · cases first with
        | notNumber =>
            simp only [faultOf]
            split
            · exact .inr ⟨_, rfl⟩
            · exact .inl rfl
        | infinite | huge | unwritable => exact .inr ⟨_, rfl⟩

theorem set_eq_error (h : c.set f d = .error e) : e = .invalid f d ∨ ∃ m, e = .misfit m := by
  rcases set_cases c f d with ⟨v, -, hset⟩ | ⟨-, hset | ⟨m, hset⟩⟩
  · cases h.symm.trans hset
  · exact .inl (Except.error.inj (h.symm.trans hset))
  · exact .inr ⟨m, Except.error.inj (h.symm.trans hset)⟩

/-- A value of a field, before which there are only values that pass. -/
def Reached (passes : String × Datum → Prop) (values : List (String × Datum)) (f : Field)
    (d : Datum) : Prop :=
  ∃ before after, values = before ++ (f.name, d) :: after ∧ ∀ pair ∈ before, passes pair

theorem reached_cons {passes : String × Datum → Prop} {pair : String × Datum} :
    Reached passes (pair :: values) f d ↔
      pair = (f.name, d) ∨ passes pair ∧ Reached passes values f d := by
  constructor
  · rintro ⟨_ | ⟨first, before⟩, after, split, passed⟩
    · exact .inl (List.cons.inj split).1
    · obtain ⟨rfl, rfl⟩ := List.cons.inj split
      rw [List.forall_mem_cons] at passed
      exact .inr ⟨passed.1, before, after, rfl, passed.2⟩
  · rintro (rfl | ⟨first, before, after, rfl, passed⟩)
    · exact ⟨[], values, rfl, nofun⟩
    · exact ⟨pair :: before, after, rfl, List.forall_mem_cons.mpr ⟨first, passed⟩⟩

theorem not_reached_nil {passes : String × Datum → Prop} : ¬ Reached passes [] f d := by
  rintro ⟨before, after, split, -⟩
  simp at split

/-- A pair that a file may have: if its name is one of a field, its value becomes one of that field. -/
def Suits (pair : String × Datum) : Prop :=
  ∀ f, Field.ofName? pair.1 = some f → ∃ v, convert f.kind pair.2 = .ok v

/-- An override that has an effect, or none at all. -/
def Applies (pair : String × Datum) : Prop :=
  isGiven pair.2 = true → ∃ f v, Field.ofName? pair.1 = some f ∧ convert f.kind pair.2 = .ok v

theorem not_escapes_text {text : String} : ¬ Escapes k (.text text) m := by
  intro escapes
  cases escapes with
  | unwritable long => simp [← isUnwritable_iff, Datum.isUnwritable] at long

theorem isGiven_of_escapes (escapes : Escapes k d m) : isGiven d = true := by
  cases d with
  | null =>
      cases escapes with
      | unwritable long => simp [← isUnwritable_iff, Datum.isUnwritable] at long
  | _ => rfl

theorem Field.name_injective {f g : Field} (same : f.name = g.name) : f = g := by
  rw [← Option.some.injEq, ← ofName?_name f, ← ofName?_name g, same]

theorem suits_iff_of_name {g : Field} : Suits (g.name, d) ↔ ∃ v, convert g.kind d = .ok v := by
  constructor
  · intro suits
    exact suits g (Field.ofName?_name g)
  · intro fits f known
    obtain rfl : f = g := Option.some.inj (known.symm.trans (Field.ofName?_name g))
    exact fits

theorem applies_iff_of_name {g : Field} (given : isGiven d = true) :
    Applies (g.name, d) ↔ ∃ v, convert g.kind d = .ok v := by
  constructor
  · intro applies
    obtain ⟨f, v, known, fits⟩ := applies given
    obtain rfl : f = g := Option.some.inj (known.symm.trans (Field.ofName?_name g))
    exact ⟨v, fits⟩
  · rintro ⟨v, fits⟩ -
    exact ⟨g, v, Field.ofName?_name g, fits⟩

/-- One value of a field: it escapes itself, or lets those behind it be reached. -/
theorem misfit_step {passes : String × Datum → Prop} {g : Field} {rest : Config → Prop}
    (passed : passes (g.name, d) ↔ ∃ v, convert g.kind d = .ok v)
    (ih : ∀ c, rest c ↔ ∃ f d, Reached passes values f d ∧ Escapes f.kind d m) :
    (match c.set g d with | .ok c => rest c | .error e => e = .misfit m) ↔
      ∃ f d', Reached passes ((g.name, d) :: values) f d' ∧ Escapes f.kind d' m := by
  have hown : Escapes g.kind d m ↔ c.set g d = .error (.misfit m) := set_eq_misfit_iff.symm
  simp only [reached_cons, passed, Prod.mk.injEq]
  rcases set_cases c g d with ⟨v, fits, hset⟩ | ⟨unfit, failed⟩
  · simp only [hset, ih]
    constructor
    · rintro ⟨f, d', reached, escapes⟩
      exact ⟨f, d', .inr ⟨⟨v, fits⟩, reached⟩, escapes⟩
    · rintro ⟨f, d', ⟨named, rfl⟩ | ⟨-, reached⟩, escapes⟩
      · obtain rfl := Field.name_injective named
        rw [hown, hset] at escapes
        cases escapes
      · exact ⟨f, d', reached, escapes⟩
  · obtain ⟨e, hset⟩ : ∃ e, c.set g d = .error e := by
      rcases failed with hset | ⟨m, hset⟩ <;> exact ⟨_, hset⟩
    rw [hset, Except.error.injEq] at hown
    simp only [hset, ← hown]
    constructor
    · intro escapes
      exact ⟨g, d, .inl ⟨rfl, rfl⟩, escapes⟩
    · rintro ⟨f, d', ⟨named, rfl⟩ | ⟨⟨v, fits⟩, -⟩, escapes⟩
      · obtain rfl := Field.name_injective named
        exact escapes
      · exact absurd fits (unfit v)

/-- A value of a mapping escapes if and only if it is reached: no field before it refused its value. -/
theorem setAll_eq_misfit_iff : c.setAll values = .error (.misfit m) ↔
    ∃ f d, Reached Suits values f d ∧ Escapes f.kind d m := by
  induction values generalizing c with
  | nil => simp [setAll, not_reached_nil]
  | cons pair rest ih =>
      obtain ⟨name, d⟩ := pair
      rw [setAll]
      cases known : Field.ofName? name with
      | none =>
          have suits : Suits (name, d) := by
            intro f hf
            rw [known] at hf
            cases hf
          simp [reached_cons, Field.name_ne_of_ofName? known, suits, ih]
      | some g =>
          obtain rfl := Field.ofName?_eq_some_iff.mp known
          rw [← misfit_step (c := c) suits_iff_of_name fun c => ih (c := c)]
          dsimp only
          cases c.set g d <;> simp

theorem override_eq_misfit_iff : (c.override values).1 = some (.misfit m) ↔
    ∃ f d, Reached Applies values f d ∧ Escapes f.kind d m := by
  induction values generalizing c with
  | nil => simp [override, not_reached_nil]
  | cons pair rest ih =>
      obtain ⟨name, d⟩ := pair
      rw [override_cons]
      split
      next given =>
        cases known : Field.ofName? name with
        | none =>
            have stops : ¬ Applies (name, d) := by
              intro applies
              obtain ⟨f, v, hf, -⟩ := applies given
              rw [known] at hf
              cases hf
            simp [reached_cons, Field.name_ne_of_ofName? known, stops]
        | some g =>
            obtain rfl := Field.ofName?_eq_some_iff.mp known
            rw [← misfit_step (c := c) (applies_iff_of_name given) fun c => ih (c := c)]
            dsimp only
            cases c.set g d <;> simp
      next null =>
        have applies : Applies (name, d) := fun given => absurd given null
        rw [ih]
        constructor
        · rintro ⟨f, d', reached, escapes⟩
          exact ⟨f, d', reached_cons.mpr (.inr ⟨applies, reached⟩), escapes⟩
        · rintro ⟨f, d', reached, escapes⟩
          rcases reached_cons.mp reached with own | ⟨-, reached⟩
          · cases own
            exact absurd (isGiven_of_escapes escapes) null
          · exact ⟨f, d', reached, escapes⟩

/-- A mapping ends in no fault but these two. -/
theorem setAll_eq_error (h : c.setAll values = .error e) :
    (∃ f d, e = .invalid f d) ∨ ∃ m, e = .misfit m := by
  induction values generalizing c with
  | nil => cases h
  | cons pair rest ih =>
      simp only [setAll] at h
      split at h
      · exact ih h
      next g known =>
        split at h
        · exact ih h
        next failed =>
          obtain rfl := Except.error.inj h
          exact (set_eq_error failed).imp_left fun invalid => ⟨_, _, invalid⟩

theorem override_eq_error (h : (c.override values).1 = some e) :
    (∃ f d, e = .invalid f d) ∨ (∃ name, e = .unknown name) ∨ ∃ m, e = .misfit m := by
  induction values generalizing c with
  | nil => cases h
  | cons pair rest ih =>
      rw [override_cons] at h
      split at h
      · split at h
        · exact .inr (.inl ⟨_, (Option.some.inj h).symm⟩)
        next g known =>
          split at h
          · exact ih h
          next failed =>
            obtain rfl := Option.some.inj h
            exact (set_eq_error failed).imp (fun invalid => ⟨_, _, invalid⟩) .inr
      · exact ih h

theorem set_unreported_iff : (∃ e, c.set f d = .error e ∧ e.isReported = false) ↔
    ∃ m, Escapes f.kind d m := by
  simp only [← set_eq_misfit_iff (c := c)]
  constructor
  · rintro ⟨e, failed, unreported⟩
    rcases set_eq_error failed with rfl | ⟨m, rfl⟩
    · cases unreported
    · exact ⟨m, failed⟩
  · rintro ⟨m, failed⟩
    exact ⟨_, failed, rfl⟩

theorem setAll_unreported_iff : (∃ e, c.setAll values = .error e ∧ e.isReported = false) ↔
    ∃ f d m, Reached Suits values f d ∧ Escapes f.kind d m := by
  constructor
  · rintro ⟨e, failed, unreported⟩
    rcases setAll_eq_error failed with ⟨f, d, rfl⟩ | ⟨m, rfl⟩
    · cases unreported
    · obtain ⟨f, d, escapes⟩ := setAll_eq_misfit_iff.mp failed
      exact ⟨f, d, m, escapes⟩
  · rintro ⟨f, d, m, escapes⟩
    exact ⟨_, setAll_eq_misfit_iff.mpr ⟨f, d, escapes⟩, rfl⟩

theorem override_unreported_iff :
    (∃ e, (c.override values).1 = some e ∧ e.isReported = false) ↔
      ∃ f d m, Reached Applies values f d ∧ Escapes f.kind d m := by
  constructor
  · rintro ⟨e, failed, unreported⟩
    rcases override_eq_error failed with ⟨f, d, rfl⟩ | ⟨name, rfl⟩ | ⟨m, rfl⟩
    · cases unreported
    · cases unreported
    · obtain ⟨f, d, escapes⟩ := override_eq_misfit_iff.mp failed
      exact ⟨f, d, m, escapes⟩
  · rintro ⟨f, d, m, escapes⟩
    exact ⟨_, override_eq_misfit_iff.mpr ⟨f, d, escapes⟩, rfl⟩

end

/-! ### The file -/

/-- A file that no content comes out of, although nothing is wrong with its form: it cannot be read, or
some scalar in it has no value. -/
def Unread (tree : FileTree) (path : Path) : Prop :=
  (∃ e, tree.present path = .error e) ∨ tree.present path = .ok true ∧
    ((∃ e, tree.readText path = .error e) ∨
      ∃ text fault, tree.readText path = .ok text ∧ Yaml.read text = .error (.value fault))

/-- A mapping with a name that cannot be written, or with a value that escapes. -/
def MappingEscapes (pairs : List (Datum × Datum)) : Prop :=
  (∃ pair ∈ pairs, isUnwritableName pair = true) ∨
    ∃ f d m, Reached Suits (flatten pairs) f d ∧ Escapes f.kind d m

theorem ofDatum_unreported_iff {path : Path} {datum : Datum} :
    (∃ e, (checkNames datum).bind (ofDatum path) = .error e ∧ e.isReported = false) ↔
      ∃ pairs, mapping? datum = some pairs ∧ MappingEscapes pairs := by
  cases datum with
  | null => simp [checkNames, Except.bind, ofDatum, mapping?, MappingEscapes, flatten, Keyed.ofPairs,
      not_reached_nil]
  | map pairs =>
      simp only [mapping?, Option.some.injEq, exists_eq_left', MappingEscapes, ← List.any_eq_true,
        ← setAll_unreported_iff (c := {})]
      cases names : pairs.any isUnwritableName with
      | true => exact iff_of_true ⟨_, by rw [checkNames, if_pos names]; rfl, rfl⟩ (.inl rfl)
      | false => simp [checkNames, names, Except.bind, ofDatum]
  | _ =>
      refine iff_of_false ?_ (by simp [mapping?])
      rintro ⟨e, failed, unreported⟩
      cases failed
      cases unreported

theorem ofFile_unreported_iff {tree : FileTree} {path : Path} :
    (∃ e, ofFile tree path = .error e ∧ e.isReported = false) ↔
      Unread tree path ∨ ∃ pairs, Holds tree path pairs ∧ MappingEscapes pairs := by
  unfold ofFile Unread Holds
  cases hpresent : tree.present path with
  | error fault => exact iff_of_true ⟨.file fault, rfl, rfl⟩ (.inl (.inl ⟨fault, rfl⟩))
  | ok present =>
      cases present with
      | false => simp [bind, Except.bind, Except.mapError, throw, throwThe, MonadExceptOf.throw, Fault.isReported]
      | true =>
          cases htext : tree.readText path with
          | error fault =>
              exact iff_of_true ⟨.file fault, rfl, rfl⟩ (.inl (.inr ⟨rfl, .inl ⟨fault, rfl⟩⟩))
          | ok text =>
              cases hread : Yaml.read text with
              | error fault =>
                  cases fault <;> simp [bind, Except.bind, Except.mapError, hread, throw, throwThe,
                    MonadExceptOf.throw, Fault.isReported]
              | ok datum =>
                  have hdatum := @ofDatum_unreported_iff path datum
                  simpa [bind, Except.bind, Except.mapError, hread] using hdatum

/-! ### The environment -/

theorem set_text_cases (c : Config) (f : Field) (text : String) :
    (∃ v, c.set f (.text text) = .ok (c.put f v)) ∨
      f.kind.isNumber = true ∧ c.set f (.text text) = .error (.invalid f (.text text)) := by
  rcases set_cases c f (.text text) with ⟨v, -, hset⟩ | ⟨unfit, invalid | ⟨m, misfit⟩⟩
  · exact .inl ⟨v, hset⟩
  · cases hconvert : convert f.kind (.text text) with
    | ok v => exact absurd hconvert (unfit v)
    | error m => exact .inr ⟨isNumber_of_misfit hconvert, invalid⟩
  · exact absurd (set_eq_misfit_iff.mp misfit) not_escapes_text

/-- Sets a field from the environment. Nothing is caught but reported faults of numbers. -/
def setGuarded (env : Environment) (c : Config) (f : Field) : Except Fault Config :=
  match env.value? f with
  | none => .ok c
  | some text =>
    match c.set f (.text text) with
    | .ok c => .ok c
    | .error e => if f.kind.isNumber && e.isReported then .ok c else .error e

/-- There is nothing else to catch. -/
theorem setGuarded_eq (env : Environment) (c : Config) (f : Field) :
    setGuarded env c f = .ok (setFrom env c f) := by
  unfold setGuarded setFrom
  cases env.value? f with
  | none => rfl
  | some text =>
      rcases set_text_cases c f text with ⟨v, hset⟩ | ⟨number, hset⟩
      · simp [hset, Except.toOption]
      · simp [hset, number, Fault.isReported, Except.toOption]

theorem foldlM_setGuarded (env : Environment) (c : Config) (fields : List Field) :
    fields.foldlM (setGuarded env) c = .ok (fields.foldl (setFrom env) c) := by
  induction fields generalizing c with
  | nil => rfl
  | cons f rest ih =>
      rw [List.foldlM_cons, setGuarded_eq, List.foldl_cons, ← ih]
      rfl

/-- Exactly the values that escape end in a fault that is not reported as one of the configuration. In a
file they do if nothing before them is refused; so do a name that cannot be written, a scalar without a
value and a file that cannot be read. Among overrides they do if all before them apply. Reading the
environment ends in no fault at all, although nothing is caught there but reported faults of numbers. -/
theorem unreported_iff_escapes (c : Config) (f : Field) (d : Datum) (tree : FileTree) (path : Path)
    (overrides : List (String × Datum)) (env : Environment) :
    (((∃ e, c.set f d = .error e ∧ e.isReported = false) ↔ ∃ m, Escapes f.kind d m) ∧
      ∀ m, c.set f d = .error (.misfit m) ↔ Escapes f.kind d m) ∧
    ((∃ e, ofFile tree path = .error e ∧ e.isReported = false) ↔
      Unread tree path ∨ ∃ pairs, Holds tree path pairs ∧ MappingEscapes pairs) ∧
    ((∃ e, (c.override overrides).1 = some e ∧ e.isReported = false) ↔
      ∃ f d m, Reached Applies overrides f d ∧ Escapes f.kind d m) ∧
    Field.all.foldlM (setGuarded env) c = .ok (applyEnvironment env c) :=
  ⟨⟨set_unreported_iff, fun _ => set_eq_misfit_iff⟩, ofFile_unreported_iff, override_unreported_iff,
    foldlM_setGuarded env c Field.all⟩

/-- A value of a file and values of overrides, each with a misfit of its own, that end in no fault of the
configuration. -/
theorem values_escape :
    let infinity : Float := 1.0 / 0.0
    (∀ path, ofDatum path (.map [(.text "network_latency", .float infinity)]) =
        .error (.misfit .infinite)) ∧
    (override {} [("network_latency", .float infinity)]).1 = some (.misfit .infinite) ∧
    (override {} [("run_timeout", .int (10 ^ 400))]).1 = some (.misfit .huge) ∧
    (override {} [("data_dir", .list [.int (10 ^ 4300)])]).1 = some (.misfit .unwritable) := by
  intro infinity
  have hlong : HasLongNumber (.list [.int (10 ^ 4300)]) :=
    ⟨10 ^ 4300, .inside (List.mem_singleton.mpr rfl) .here, by decide +kernel⟩
  have hinfinite : Decimal.Binary.ofFloat infinity = .infinite false := by decide +kernel
  have hhuge : Binary64.limit ≤ (10 ^ 400 : Int).natAbs := by decide +kernel
  exact ⟨fun _ => setAll_eq_misfit_iff.mpr ⟨.latency, _, ⟨[], [], rfl, nofun⟩, .infinite hinfinite⟩,
    override_eq_misfit_iff.mpr ⟨.latency, _, ⟨[], [], rfl, nofun⟩, .infinite hinfinite⟩,
    override_eq_misfit_iff.mpr ⟨.runTimeout, _, ⟨[], [], rfl, nofun⟩, .huge hhuge⟩,
    override_eq_misfit_iff.mpr ⟨.dataDirectory, _, ⟨[], [], rfl, nofun⟩, .unwritable hlong nofun⟩⟩

end Config

end BrowserSteps
