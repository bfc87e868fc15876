import BrowserSteps.Proofs.Report.XmlReading

/-!
The characters of XML documents. Only some characters may stand in a document at all, and no escape
keeps the others out: a document has allowed characters only exactly if the values and texts in it
have.
-/

namespace BrowserSteps.Report.Xml

/-- The characters that a document may hold. -/
def isAllowed (c : Char) : Bool :=
  ['\t', '\n', '\r'].contains c || 0x20 ≤ c.toNat && c.toNat ≤ 0xD7FF ||
    0xE000 ≤ c.toNat && c.toNat ≤ 0xFFFD || 0x10000 ≤ c.toNat

/-- A text with characters that a document may hold. -/
def Allowed (text : List Char) : Prop := ∀ c ∈ text, isAllowed c = true

instance (text : List Char) : Decidable (Allowed text) :=
  List.decidableBAll _ text

section

variable {first second : List Char}

@[simp] theorem allowed_nil : Allowed [] := List.forall_mem_nil _

@[simp] theorem allowed_append : Allowed (first ++ second) ↔ Allowed first ∧ Allowed second :=
  List.forall_mem_append

@[simp] theorem allowed_cons {c : Char} :
    Allowed (c :: second) ↔ isAllowed c = true ∧ Allowed second :=
  List.forall_mem_cons

@[simp] theorem allowed_flatMap {α : Type} {f : α → List Char} {items : List α} :
    Allowed (items.flatMap f) ↔ ∀ item ∈ items, Allowed (f item) := by
  simp only [Allowed, List.mem_flatMap]
  exact ⟨fun h item member c hc => h c ⟨item, member, hc⟩,
    fun h c ⟨item, member, hc⟩ => h item member c hc⟩

end

/-- No escape hides a character that is not allowed. -/
theorem allowed_escapeTextChar (c : Char) : Allowed (escapeTextChar c) ↔ isAllowed c = true := by
  unfold escapeTextChar
  split
  next same => exact same ▸ iff_of_true (by simp [Allowed, isAllowed]) rfl
  split
  next same => exact same ▸ iff_of_true (by simp [Allowed, isAllowed]) rfl
  split
  next same => exact same ▸ iff_of_true (by simp [Allowed, isAllowed]) rfl
  · exact List.forall_mem_singleton

theorem allowed_escapeAttributeChar (c : Char) :
    Allowed (escapeAttributeChar c) ↔ isAllowed c = true := by
  unfold escapeAttributeChar
  split
  next same => exact same ▸ iff_of_true (by simp [Allowed, isAllowed]) rfl
  split
  next same => exact same ▸ iff_of_true (by simp [Allowed, isAllowed]) rfl
  split
  next same => exact same ▸ iff_of_true (by simp [Allowed, isAllowed]) rfl
  split
  next same => exact same ▸ iff_of_true (by simp [Allowed, isAllowed]) rfl
  · exact allowed_escapeTextChar c

@[simp] theorem allowed_escapeText (text : String) :
    Allowed (escapeText text) ↔ Allowed text.toList := by
  rw [escapeText, allowed_flatMap]
  exact forall₂_congr fun c _ => allowed_escapeTextChar c

@[simp] theorem allowed_escapeAttribute (value : String) :
    Allowed (escapeAttribute value) ↔ Allowed value.toList := by
  rw [escapeAttribute, allowed_flatMap]
  exact forall₂_congr fun c _ => allowed_escapeAttributeChar c

theorem isAllowed_of_ascii {c : Char} (printable : 0x20 ≤ c.toNat) (ascii : c.toNat ≤ 0x7F) :
    isAllowed c = true := by
  have hbound : c.toNat ≤ 0xD7FF := by omega
  simp [isAllowed, printable, hbound]

theorem isAllowed_of_between {low c high : Char} (above : low.val ≤ c.val)
    (below : c.val ≤ high.val) (printable : 0x20 ≤ low.toNat) (ascii : high.toNat ≤ 0x7F) :
    isAllowed c = true :=
  isAllowed_of_ascii (Nat.le_trans printable (UInt32.le_iff_toNat_le.mp above))
    (Nat.le_trans (UInt32.le_iff_toNat_le.mp below) ascii)

theorem isAllowed_of_isAlphanum {c : Char} (h : c.isAlphanum) : isAllowed c = true := by
  rcases Bool.or_eq_true_iff.mp h with halpha | hdigit
  · rcases Bool.or_eq_true_iff.mp halpha with hupper | hlower
    · have hbounds : 'A'.val ≤ c.val ∧ c.val ≤ 'Z'.val := of_decide_eq_true hupper
      exact isAllowed_of_between hbounds.1 hbounds.2 (by decide) (by decide)
    · obtain ⟨above, below⟩ := Bool.and_eq_true_iff.mp hlower
      exact isAllowed_of_between (of_decide_eq_true above) (of_decide_eq_true below) (by decide)
        (by decide)
  · obtain ⟨above, below⟩ := Bool.and_eq_true_iff.mp hdigit
    exact isAllowed_of_between (of_decide_eq_true above) (of_decide_eq_true below) (by decide)
      (by decide)

theorem allowed_of_isName {name : List Char} (legal : isName name) : Allowed name := by
  intro c member
  have hchar : isNameChar c = true := by
    simp only [isName, Bool.and_eq_true, List.all_eq_true] at legal
    exact legal.2 c member
  rcases Bool.or_eq_true_iff.mp hchar with halphanum | hsign
  · exact isAllowed_of_isAlphanum halphanum
  · rcases List.mem_of_elem_eq_true hsign with _ | ⟨_, _ | ⟨_, _ | ⟨_, ⟨⟩⟩⟩⟩ <;> rfl

@[simp] theorem allowed_newLine (level : Nat) : Allowed (newLine level) := by
  refine allowed_cons.mpr ⟨rfl, fun c member => ?_⟩
  obtain rfl := List.eq_of_mem_replicate member
  rfl

theorem allowed_tagChars {name : String} {attributes : List (String × String)}
    (legal : LegalTag name attributes) :
    Allowed (tagChars name attributes) ↔ ∀ pair ∈ attributes, Allowed pair.2.toList := by
  have hname := allowed_of_isName legal.name
  rw [tagChars, allowed_append, allowed_flatMap]
  refine (and_iff_right hname).trans (forall₂_congr fun pair member => ?_)
  have hkey := allowed_of_isName (legal.keys pair member)
  simp +decide [attributeChars, hkey]

/-- A leaf has allowed characters only exactly if the values of its attributes and its text have. -/
theorem allowed_leaf {name : String} {attributes : List (String × String)}
    (legal : LegalTag name attributes) (text : String) (level : Nat) :
    Allowed ((Element.leaf name attributes text).chars level) ↔
      (∀ pair ∈ attributes, Allowed pair.2.toList) ∧ Allowed text.toList := by
  have hname := allowed_of_isName legal.name
  rw [Element.chars]
  split
  next hempty =>
    obtain rfl := String.isEmpty_iff.mp hempty
    simp +decide [allowed_tagChars legal]
  next => simp +decide [allowed_tagChars legal, hname]

theorem allowed_childrenChars (children : List Element) (level : Nat) :
    Allowed (childrenChars level children) ↔ ∀ child ∈ children, Allowed (child.chars level) := by
  induction children with
  | nil => simp [childrenChars]
  | cons child rest ih => simp [childrenChars, ih]

/-- A branch has allowed characters only exactly if the values of its attributes and its children
have. -/
theorem allowed_branch {name : String} {attributes : List (String × String)}
    (legal : LegalTag name attributes) (children : List Element) (level : Nat) :
    Allowed ((Element.branch name attributes children).chars level) ↔
      (∀ pair ∈ attributes, Allowed pair.2.toList) ∧
        ∀ child ∈ children, Allowed (child.chars (level + 1)) := by
  have hname := allowed_of_isName legal.name
  cases children with
  | nil => simp +decide [Element.chars, allowed_tagChars legal]
  | cons child rest =>
      have hchildren := allowed_childrenChars (child :: rest) (level + 1)
      simp +decide [Element.chars, allowed_tagChars legal, hname, hchildren]

theorem allowed_document (root : Element) :
    Allowed (document root).toList ↔ Allowed (root.chars 0) := by
  rw [toList_document]
  simp +decide

end BrowserSteps.Report.Xml
