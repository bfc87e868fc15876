import BrowserSteps.Json.Reader
import BrowserSteps.Report.Html
import BrowserSteps.Report.Xml

/-!
Reading markup. A reader of a page or a document finds tags, each between an opening angle bracket
and the next closing one, and characters outside of them, some of which stand for others by
references. Escaped texts hold no brackets, so that a reader finds no tag in them, and reads them
back.
-/

namespace BrowserSteps.Report.Markup

/-- What a reader finds: a tag, one that never ends, or a character outside of tags. -/
inductive Token where
  | tag (source : List Char)
  | unfinished (source : List Char)
  | char (c : Char)
  deriving DecidableEq, Repr

/-- Reads on, inside a tag if some of it has been read. -/
def scanFrom : Option (List Char) → List Char → List Token
  | none, [] => []
  | some tag, [] => [.unfinished tag]
  | none, c :: rest => if c = '<' then scanFrom (some []) rest else .char c :: scanFrom none rest
  | some tag, c :: rest =>
    if c = '>' then .tag tag :: scanFrom none rest else scanFrom (some (tag ++ [c])) rest

def scan (source : List Char) : List Token := scanFrom none source

/-- A text without opening brackets holds no tags. -/
theorem scan_text {text : List Char} (noTag : '<' ∉ text) (rest : List Char) :
    scan (text ++ rest) = text.map .char ++ scan rest := by
  induction text with
  | nil => rfl
  | cons c text ih =>
      obtain ⟨hc, htext⟩ := not_or.mp (mt List.mem_cons.mpr noTag)
      simp only [scan, List.cons_append, scanFrom, if_neg (Ne.symm hc), List.map_cons] at ih ⊢
      rw [ih htext]

theorem scanFrom_tag {tag : List Char} (unclosed : '>' ∉ tag) (begun rest : List Char) :
    scanFrom (some begun) (tag ++ '>' :: rest) = .tag (begun ++ tag) :: scan rest := by
  induction tag generalizing begun with
  | nil => simp [scanFrom, scan]
  | cons c tag ih =>
      obtain ⟨hc, htag⟩ := not_or.mp (mt List.mem_cons.mpr unclosed)
      simp only [List.cons_append, scanFrom, if_neg (Ne.symm hc)]
      rw [ih htag, List.append_assoc, List.singleton_append]

/-- A tag reaches to the first closing bracket. -/
theorem scan_tag {tag : List Char} (unclosed : '>' ∉ tag) (rest : List Char) :
    scan ('<' :: tag ++ '>' :: rest) = .tag tag :: scan rest :=
  scanFrom_tag unclosed [] rest

/-- The character that a reference names: one of five by a word, any by its number. -/
def named? (reference : List Char) : Option Char :=
  if reference = "amp".toList then some '&'
  else if reference = "lt".toList then some '<'
  else if reference = "gt".toList then some '>'
  else if reference = "quot".toList then some '"'
  else if reference = "apos".toList then some '\''
  else match reference with
    | '#' :: first :: digits =>
      let n := Json.digitsValue (first :: digits)
      if (first :: digits).all Char.isDigit && n.isValidChar then some (Char.ofNat n) else none
    | _ => none

/-- Undoes the escapes, inside a reference if some of it has been read. A reference that names
nothing, or never ends, is an error. -/
def unescapeFrom? : Option (List Char) → List Char → Option (List Char)
  | none, [] => some []
  | some _, [] => none
  | none, c :: rest =>
    if c = '&' then unescapeFrom? (some []) rest else (unescapeFrom? none rest).map (c :: ·)
  | some reference, c :: rest =>
    if c = ';' then (named? reference).bind fun d => (unescapeFrom? none rest).map (d :: ·)
    else unescapeFrom? (some (reference ++ [c])) rest

def unescape? (text : List Char) : Option (List Char) := unescapeFrom? none text

theorem unescapeFrom?_reference {reference : List Char} (unended : ';' ∉ reference)
    (begun rest : List Char) :
    unescapeFrom? (some begun) (reference ++ ';' :: rest) =
      (named? (begun ++ reference)).bind fun d => (unescape? rest).map (d :: ·) := by
  induction reference generalizing begun with
  | nil => simp [unescapeFrom?, unescape?]
  | cons c reference ih =>
      obtain ⟨hc, hreference⟩ := not_or.mp (mt List.mem_cons.mpr unended)
      simp only [List.cons_append, unescapeFrom?, if_neg (Ne.symm hc)]
      rw [ih hreference, List.append_assoc, List.singleton_append]

/-- What may be written for a character of a text: the character itself, unless it begins or ends
something, or a reference to it. -/
inductive Written (c : Char) : List Char → Prop where
  | plain (harmless : c ∉ ['&', '<', '>']) : Written c [c]
  | reference (reference : List Char) (names : named? reference = some c)
      (clean : reference.all (· ∉ [';', '<', '>'])) : Written c ('&' :: reference ++ [';'])

theorem Written.ne_nil {c : Char} {source : List Char} (h : Written c source) : source ≠ [] := by
  cases h <;> exact List.cons_ne_nil _ _

theorem Written.not_bracket {c : Char} {source : List Char} (h : Written c source) {d : Char}
    (member : d ∈ source) : d ≠ '<' ∧ d ≠ '>' := by
  cases h with
  | plain harmless =>
      obtain rfl := List.mem_singleton.mp member
      simp_all
  | reference reference names clean =>
      rcases List.mem_append.mp member with member | member
      · rcases List.mem_cons.mp member with rfl | member
        · decide
        · have hclean := List.all_eq_true.mp clean d member
          simp_all
      · obtain rfl := List.mem_singleton.mp member
        decide

/-- What is written of a character is read as that character. -/
theorem Written.undone {c : Char} {source : List Char} (h : Written c source) (rest : List Char) :
    unescape? (source ++ rest) = (unescape? rest).map (c :: ·) := by
  cases h with
  | plain harmless =>
      have hplain : c ≠ '&' := fun same => harmless (by simp [same])
      simp only [unescape?, List.singleton_append, unescapeFrom?, if_neg hplain]
  | reference reference names clean =>
      have hunended : ';' ∉ reference := fun member =>
        absurd (List.all_eq_true.mp clean _ member) (by decide)
      have hreference := unescapeFrom?_reference hunended [] rest
      rw [List.nil_append, names, Option.bind_some] at hreference
      rw [List.append_assoc, List.singleton_append]
      exact hreference

section

variable {written : Char → List Char} (h : ∀ c, Written c (written c)) (text : List Char)

include h

theorem not_opens_escaped : '<' ∉ text.flatMap written := fun member => by
  obtain ⟨c, -, hc⟩ := List.mem_flatMap.mp member
  exact ((h c).not_bracket hc).1 rfl

theorem not_closes_escaped : '>' ∉ text.flatMap written := fun member => by
  obtain ⟨c, -, hc⟩ := List.mem_flatMap.mp member
  exact ((h c).not_bracket hc).2 rfl

/-- An escaped text is read back. -/
theorem unescape?_escaped : unescape? (text.flatMap written) = some text := by
  induction text with
  | nil => rfl
  | cons c text ih => rw [List.flatMap_cons, (h c).undone, ih, Option.map_some]

end

theorem written_html (c : Char) : Written c (Html.escapeChar c) := by
  by_cases hamp : c = '&'
  · subst hamp
    exact .reference "amp".toList rfl (by decide)
  by_cases hlt : c = '<'
  · subst hlt
    exact .reference "lt".toList rfl (by decide)
  by_cases hgt : c = '>'
  · subst hgt
    exact .reference "gt".toList rfl (by decide)
  by_cases hquot : c = '"'
  · subst hquot
    exact .reference "#34".toList rfl (by decide)
  by_cases hapos : c = '\''
  · subst hapos
    exact .reference "#39".toList rfl (by decide)
  have hplain : Html.escapeChar c = [c] := by simp [Html.escapeChar, *]
  rw [hplain]
  exact .plain (by simp [*])

theorem written_text (c : Char) : Written c (Xml.escapeTextChar c) := by
  by_cases hamp : c = '&'
  · subst hamp
    exact .reference "amp".toList rfl (by decide)
  by_cases hlt : c = '<'
  · subst hlt
    exact .reference "lt".toList rfl (by decide)
  by_cases hgt : c = '>'
  · subst hgt
    exact .reference "gt".toList rfl (by decide)
  have hplain : Xml.escapeTextChar c = [c] := by simp [Xml.escapeTextChar, *]
  rw [hplain]
  exact .plain (by simp [*])

theorem written_attribute (c : Char) : Written c (Xml.escapeAttributeChar c) := by
  by_cases hquot : c = '"'
  · subst hquot
    exact .reference "quot".toList rfl (by decide)
  by_cases hreturn : c = '\r'
  · subst hreturn
    exact .reference "#13".toList rfl (by decide)
  by_cases hfeed : c = '\n'
  · subst hfeed
    exact .reference "#10".toList rfl (by decide)
  by_cases htab : c = '\t'
  · subst htab
    exact .reference "#09".toList rfl (by decide)
  have htext : Xml.escapeAttributeChar c = Xml.escapeTextChar c := by
    simp [Xml.escapeAttributeChar, *]
  rw [htext]
  exact written_text c

end BrowserSteps.Report.Markup
