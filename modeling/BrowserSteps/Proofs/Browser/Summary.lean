import BrowserSteps.Browser.Failure
import BrowserSteps.Proofs.Text.Numeral
import Mathlib.Data.List.TakeWhile

/-!
The short text of a failure. What a failure says is cut at the first marker of noise, trimmed and rid of one
error word; whatever is left is a part of it that has no marker in it and no blanks around it. If nothing is
left, the failure goes by its kind.
-/

namespace BrowserSteps

namespace Text

/-- Trimming drops the characters of the class at the front, and then those at the back. -/
theorem exists_dropWhile_eq (p : Char → Bool) (s : List Char) :
    ∃ tail, s.dropWhile p = trimBy p s ++ tail ∧ ∀ c ∈ tail, p c := by
  let back := (s.dropWhile p).reverse
  refine ⟨(back.takeWhile p).reverse, ?_, fun c member => ?_⟩
  · have hback : back = back.takeWhile p ++ back.dropWhile p :=
      List.takeWhile_append_dropWhile.symm
    rw [trimBy, ← List.reverse_append, ← hback, List.reverse_reverse]
  · exact List.mem_takeWhile_imp (List.mem_reverse.mp member)

theorem exists_trimBy (p : Char → Bool) (s : List Char) :
    ∃ lead tail, s = lead ++ trimBy p s ++ tail ∧ (∀ c ∈ lead, p c) ∧ ∀ c ∈ tail, p c := by
  obtain ⟨tail, hdrop, htail⟩ := exists_dropWhile_eq p s
  refine ⟨s.takeWhile p, tail, ?_, fun c => List.mem_takeWhile_imp, htail⟩
  rw [List.append_assoc, ← hdrop, List.takeWhile_append_dropWhile]

theorem not_of_head?_dropWhile {p : Char → Bool} {s : List Char} {c : Char}
    (first : (s.dropWhile p).head? = some c) : p c = false := by
  have hnot := List.head?_dropWhile_not p s
  rw [first] at hnot
  exact hnot

theorem not_of_head?_trimBy {p : Char → Bool} {s : List Char} {c : Char}
    (first : (trimBy p s).head? = some c) : p c = false := by
  obtain ⟨tail, hdrop, -⟩ := exists_dropWhile_eq p s
  apply not_of_head?_dropWhile (s := s)
  rw [hdrop, List.head?_append, first]
  rfl

theorem not_of_getLast?_trimBy {p : Char → Bool} {s : List Char} {c : Char}
    (last : (trimBy p s).getLast? = some c) : p c = false := by
  rw [trimBy, List.getLast?_reverse] at last
  exact not_of_head?_dropWhile last

/-- Where no character is of the class there is nothing to trim. -/
theorem trimBy_eq_self {p : Char → Bool} {s : List Char} (none : ∀ c ∈ s, p c = false) :
    trimBy p s = s := by
  have hkept {t : List Char} (none : ∀ c ∈ t, p c = false) : t.dropWhile p = t := by
    cases t with
    | nil => rfl
    | cons c t => simp [none c List.mem_cons_self]
  rw [trimBy, hkept none, hkept fun c member => none c (List.mem_reverse.mp member),
    List.reverse_reverse]

/-- A code point other than that of the colon is not the colon, whether it is a character or not. -/
theorem ofNat_ne_colon {n : Nat} (other : n ≠ 58) : Char.ofNat n ≠ ':' := by
  intro same
  by_cases valid : n.isValidChar
  · rw [Char.ofNat, dif_pos valid] at same
    exact other (congrArg Char.toNat same)
  · rw [Char.ofNat, dif_neg valid] at same
    exact absurd same (by decide)

theorem eq_colon_of_toLower {c : Char} (low : c.toLower = ':') : c = ':' := by
  unfold Char.toLower at low
  split at low
  next upper =>
    have hval := congrArg (fun d : Char => d.val.toNat) low
    simp only [ge_iff_le, UInt32.le_iff_toNat_le] at upper
    simp at hval upper
    omega
  · exact low

/-- Only the colon has the colon as its lower case. -/
theorem eq_colon_of_lowerCase {c : Char} (low : lowerCase c = ':') : c = ':' := by
  have hruns : ∀ run ∈ lowerRuns, (58 : Int) < run.1 + run.2.2.2 := by decide +kernel
  simp only [lowerCase] at low
  split at low
  · exact eq_colon_of_toLower low
  · split at low
    next first last step distance hfind =>
      have hrun := hruns _ (List.mem_of_find?_eq_some hfind)
      have hmatch := List.find?_some hfind
      simp only [Bool.and_eq_true, decide_eq_true_eq] at hmatch hrun
      apply absurd low
      apply ofNat_ne_colon
      omega
    · exact low

/-- Only the colon is the colon but for case. -/
theorem eq_colon_of_foldCase {c : Char} (same : foldCase c = foldCase ':') : c = ':' := by
  have hcolon : foldCase ':' = ':' := by decide
  have hfirsts : ∀ letters ∈ sameLetters, letters.head? ≠ some 58 := by decide
  rw [hcolon] at same
  apply eq_colon_of_lowerCase
  simp only [foldCase] at same
  split at same
  next first rest hfind =>
    have member := List.mem_of_find?_eq_some hfind
    apply absurd same
    apply ofNat_ne_colon
    rintro rfl
    exact hfirsts _ member rfl
  · exact same

end Text

namespace Failure

open Text (isBlank trimBy foldCase)

/-- A name for a kind of failures: not empty, without blanks and without colons. Identifiers are such names. -/
structure IsName (kind : String) : Prop where
  nonempty : kind ≠ ""
  plain : ∀ c ∈ kind.toList, isBlank c = false ∧ c ≠ ':'

section

variable {markers : List (List Char)} {marker text front rest part : List Char}

/-- A text up to the first of some markers, and the rest, which is empty if there is no marker. -/
structure UpTo (markers : List (List Char)) (text front rest : List Char) : Prop where
  whole : text = front ++ rest
  ends : rest = [] ∨ ∃ marker ∈ markers, marker <+: rest
  free : ∀ marker ∈ markers, ∀ i < front.length, ¬ marker <+: text.drop i

theorem upTo_cutAt (marker text : List Char) :
    ∃ rest, UpTo [marker] text (cutAt marker text) rest := by
  induction text with
  | nil => exact ⟨[], rfl, .inl rfl, nofun⟩
  | cons c text ih =>
      by_cases begins : marker.isPrefixOf (c :: text)
      · have hcut : cutAt marker (c :: text) = [] := if_pos begins
        rw [hcut]
        refine ⟨c :: text, rfl, .inr ⟨marker, List.mem_cons_self, ?_⟩, nofun⟩
        exact List.isPrefixOf_iff_prefix.mp begins
      · have hcut : cutAt marker (c :: text) = c :: cutAt marker text := if_neg begins
        obtain ⟨rest, whole, ends, free⟩ := ih
        rw [hcut]
        refine ⟨rest, congrArg (c :: ·) whole, ends, ?_⟩
        intro other member i bound
        cases i with
        | zero =>
            obtain rfl := List.mem_singleton.mp member
            exact fun here => begins (List.isPrefixOf_iff_prefix.mpr here)
        | succ i => exact free other member i (Nat.lt_of_succ_lt_succ bound)

/-- A marker that begins before the cut does not reach over it, if it lacks the first characters of the
markers there. -/
theorem UpTo.prefix_drop (h : UpTo markers text front rest)
    (apart : ∀ other ∈ markers, ∃ c, other.head? = some c ∧ c ∉ marker) {i : Nat}
    (within : i ≤ front.length) (begins : marker <+: text.drop i) : marker <+: front.drop i := by
  have hdrop : text.drop i = front.drop i ++ rest := by
    rw [h.whole, List.drop_append_of_le_length within]
  rw [hdrop] at begins
  rcases List.prefix_or_prefix_of_prefix begins (List.prefix_append _ _) with inside | across
  · exact inside
  · obtain ⟨reached, rfl⟩ := across
    rw [List.prefix_append_right_inj] at begins
    rcases h.ends with rfl | ⟨other, member, there⟩
    · simp only [List.prefix_nil.mp begins, List.append_nil, List.prefix_rfl]
    · obtain ⟨c, first, foreign⟩ := apart other member
      have hrest : rest.head? = some c := by
        obtain ⟨behind, rfl⟩ := there
        rw [List.head?_append, first]
        rfl
      cases reached with
      | nil => simp only [List.append_nil, List.prefix_rfl]
      | cons d reached =>
          obtain ⟨behind, rfl⟩ := begins
          obtain rfl : d = c := Option.some.inj hrest
          exact absurd (List.mem_append_right _ List.mem_cons_self) foreign

/-- A text that is cut at some markers can be cut at one more. -/
theorem UpTo.cutAt (h : UpTo markers text front rest)
    (apart : ∀ other ∈ markers, ∃ c, other.head? = some c ∧ c ∉ marker) :
    ∃ later, UpTo (markers ++ [marker]) text (Failure.cutAt marker front) later := by
  obtain ⟨cutOff, whole, ends, free⟩ := upTo_cutAt marker front
  have shorter : (Failure.cutAt marker front).length ≤ front.length := by
    have hlength := congrArg List.length whole
    rw [List.length_append] at hlength
    omega
  refine ⟨cutOff ++ rest, ?_, ?_, ?_⟩
  · rw [← List.append_assoc, ← whole]
    exact h.whole
  · rcases ends with rfl | ⟨_, member, begins⟩
    · rcases h.ends with rfl | ⟨other, member, begins⟩
      · exact .inl rfl
      · exact .inr ⟨other, List.mem_append_left _ member, begins⟩
    · exact .inr ⟨_, List.mem_append_right _ member, begins.trans (List.prefix_append _ _)⟩
  · intro other member i bound begins
    have within : i < front.length := Nat.lt_of_lt_of_le bound shorter
    rcases List.mem_append.mp member with old | new
    · exact h.free other old i within begins
    · apply free other new i bound
      obtain rfl := List.mem_singleton.mp new
      exact h.prefix_drop apart (Nat.le_of_lt within) begins

/-- The text up to the first marker of noise. -/
def beforeNoise (text : List Char) : List Char := noiseMarkers.foldl (fun s m => cutAt m s) text

theorem upTo_beforeNoise (text : List Char) :
    ∃ rest, UpTo noiseMarkers text (beforeNoise text) rest := by
  obtain ⟨rest, h⟩ := upTo_cutAt "Call log:".toList text
  apply h.cutAt
  intro other member
  obtain rfl := List.mem_singleton.mp member
  exact ⟨'C', by decide, by decide⟩

/-- No marker is in the text up to the first one. -/
theorem UpTo.not_infix (h : UpTo markers text front rest) (member : marker ∈ markers)
    (nonempty : marker ≠ []) : ¬ marker <:+: front := by
  rintro ⟨before, behind, rfl⟩
  have positive := List.length_pos_iff.mpr nonempty
  apply h.free marker member before.length
  · simp only [List.length_append]
    omega
  · rw [h.whole, List.append_assoc, List.append_assoc, List.drop_left]
    exact List.prefix_append _ _

theorem dropPrefixFolded?_eq_some (word : List Char) (s rest : List Char) :
    dropPrefixFolded? word s = some rest ↔
      ∃ spelled, s = spelled ++ rest ∧ spelled.map foldCase = word.map foldCase := by
  fun_induction dropPrefixFolded? word s with
  | case1 s => simp [eq_comm]
  | case2 => simp
  | case3 p ps c cs same ih =>
      rw [ih]
      constructor
      · rintro ⟨spelled, rfl, spells⟩
        exact ⟨c :: spelled, rfl, by simp [same, spells]⟩
      · rintro ⟨_ | ⟨d, spelled⟩, whole, spells⟩
        · cases spells
        · obtain ⟨rfl, rfl⟩ := List.cons.inj whole
          exact ⟨spelled, rfl, (List.cons.inj spells).2⟩
  | case4 p ps c cs other =>
      refine iff_of_false nofun ?_
      rintro ⟨_ | ⟨d, spelled⟩, whole, spells⟩
      · cases spells
      · obtain ⟨rfl, rfl⟩ := List.cons.inj whole
        exact other (List.cons.inj spells).1.symm

/-- An error word, whatever the case of its letters. -/
def IsErrorWord (word : List Char) : Prop := ∃ w ∈ errorWords, word.map foldCase = w.map foldCase

/-- An error word at the front goes, and the blanks behind it. -/
theorem exists_dropErrorWord (s : List Char) :
    ∃ word gap, s = word ++ gap ++ dropErrorWord s ∧ (∀ c ∈ gap, isBlank c) ∧
      (IsErrorWord word ∨ word ++ gap = [] ∧ ∀ word rest, s = word ++ rest → ¬ IsErrorWord word) := by
  unfold dropErrorWord
  cases hfind : errorWords.findSome? (dropPrefixFolded? · s) with
  | some rest =>
      obtain ⟨w, member, dropped⟩ := List.exists_of_findSome?_eq_some hfind
      obtain ⟨word, whole, spells⟩ := (dropPrefixFolded?_eq_some w s rest).mp dropped
      refine ⟨word, rest.takeWhile isBlank, ?_, fun c => List.mem_takeWhile_imp,
        .inl ⟨w, member, spells⟩⟩
      rw [List.append_assoc, List.takeWhile_append_dropWhile]
      exact whole
  | none =>
      refine ⟨[], [], rfl, nofun, .inr ⟨rfl, ?_⟩⟩
      rintro word rest whole ⟨w, member, spells⟩
      have dropped := (dropPrefixFolded?_eq_some w s rest).mpr ⟨word, whole, spells⟩
      rw [List.findSome?_eq_none_iff.mp hfind w member] at dropped
      cases dropped

theorem colon_mem_of_isErrorWord {word : List Char} (h : IsErrorWord word) : ':' ∈ word := by
  obtain ⟨w, member, spells⟩ := h
  have hcolon : ∀ w ∈ errorWords, ':' ∈ w := by decide
  have folded := List.mem_map_of_mem (f := foldCase) (hcolon w member)
  rw [← spells] at folded
  obtain ⟨c, hc, same⟩ := List.mem_map.mp folded
  exact Text.eq_colon_of_foldCase same ▸ hc

/-- A name is clean as it is. -/
theorem clean_of_isName {kind : String} (named : IsName kind) : clean kind.toList = kind.toList := by
  have noColon : ':' ∉ kind.toList := fun member => (named.plain _ member).2 rfl
  have untrimmed : trimBy isBlank kind.toList = kind.toList :=
    Text.trimBy_eq_self fun c member => (named.plain c member).1
  have quiet : beforeNoise kind.toList = kind.toList := by
    obtain ⟨rest, whole, ends, -⟩ := upTo_beforeNoise kind.toList
    rcases ends with rfl | ⟨marker, member, begins⟩
    · rw [List.append_nil] at whole
      exact whole.symm
    · have hcolon : ∀ marker ∈ noiseMarkers, ':' ∈ marker := by decide
      apply absurd _ noColon
      rw [whole]
      exact List.mem_append_right _ (begins.subset (hcolon marker member))
  have kept : dropErrorWord kind.toList = kind.toList := by
    obtain ⟨word, gap, whole, -, isWord | ⟨none, -⟩⟩ := exists_dropErrorWord kind.toList
    · apply absurd _ noColon
      rw [whole]
      exact List.mem_append_left _ (List.mem_append_left _ (colon_mem_of_isErrorWord isWord))
    · rw [none] at whole
      exact whole.symm
  change trimBy isBlank (dropErrorWord (trimBy isBlank (beforeNoise kind.toList))) = _
  rw [quiet, untrimmed, kept, untrimmed]

/-- What is left of a text: up to the first marker of noise, without the blanks at both ends, and without an
error word at the front and the blanks behind it. -/
structure Remains (text part : List Char) : Prop where
  exists_parts : ∃ lead word gap tail rest, UpTo noiseMarkers text (lead ++ word ++ gap ++ part ++ tail) rest ∧
    (∀ c ∈ lead ++ gap ++ tail, isBlank c) ∧
    (IsErrorWord word ∨ word ++ gap = [] ∧ ∀ word rest, part = word ++ rest → ¬ IsErrorWord word)
  first : ∀ c, part.head? = some c → isBlank c = false
  last : ∀ c, part.getLast? = some c → isBlank c = false

theorem remains_clean (text : List Char) : Remains text (clean text) := by
  obtain ⟨rest, upTo⟩ := upTo_beforeNoise text
  let trimmed := trimBy isBlank (beforeNoise text)
  have hclean : clean text = trimBy isBlank (dropErrorWord trimmed) := rfl
  obtain ⟨lead, tail, hfront, blankLead, blankTail⟩ := Text.exists_trimBy isBlank (beforeNoise text)
  obtain ⟨word, gap, hword, blankGap, isWord⟩ := exists_dropErrorWord trimmed
  refine ⟨?_, fun c first => Text.not_of_head?_trimBy first,
    fun c last => Text.not_of_getLast?_trimBy last⟩
  change beforeNoise text = lead ++ trimmed ++ tail at hfront
  rcases isWord with isWord | ⟨none, noWord⟩
  · obtain ⟨lead', tail', hpart, blankLead', blankTail'⟩ :=
      Text.exists_trimBy isBlank (dropErrorWord trimmed)
    rw [← hclean] at hpart
    refine ⟨lead, word, gap ++ lead', tail' ++ tail, rest, ?_, ?_, .inl isWord⟩
    · have hwhole : beforeNoise text =
          lead ++ word ++ (gap ++ lead') ++ clean text ++ (tail' ++ tail) := by
        rw [hfront, hword, hpart]
        simp only [List.append_assoc]
      exact hwhole ▸ upTo
    · simp only [List.mem_append]
      rintro c ((hlead | hgap | hlead') | htail' | htail)
      · exact blankLead c hlead
      · exact blankGap c hgap
      · exact blankLead' c hlead'
      · exact blankTail' c htail'
      · exact blankTail c htail
  · -- Without an error word the text is trimmed twice, which leaves it as it was after the first time.
    have hkept : dropErrorWord trimmed = trimmed := by
      rw [none] at hword
      exact hword.symm
    have hpart : clean text = trimmed := by
      rw [hclean, hkept]
      exact Text.trimBy_trimBy (fun _ blank => blank) _
    refine ⟨lead, [], [], tail, rest, ?_, ?_, .inr ⟨rfl, ?_⟩⟩
    · rw [List.append_nil, List.append_nil, hpart, ← hfront]
      exact upTo
    · simp only [List.mem_append]
      rintro c ((hlead | hgap) | htail)
      · exact blankLead c hlead
      · cases hgap
      · exact blankTail c htail
    · rw [hpart]
      exact noWord

/-- A part of a text that lies before every marker of noise. -/
def LiesBeforeNoise (text part : List Char) : Prop :=
  ∃ before behind, text = before ++ part ++ behind ∧
    ∀ marker ∈ noiseMarkers, ∀ i, marker <+: text.drop i → before.length + part.length ≤ i

theorem Remains.liesBeforeNoise (h : Remains text part) : LiesBeforeNoise text part := by
  obtain ⟨lead, word, gap, tail, rest, upTo, -, -⟩ := h.exists_parts
  refine ⟨lead ++ word ++ gap, tail ++ rest, ?_, ?_⟩
  · rw [upTo.whole]
    simp only [List.append_assoc]
  · intro marker member i begins
    have behind : ¬ i < (lead ++ word ++ gap ++ part ++ tail).length :=
      fun bound => upTo.free marker member i bound begins
    simp only [List.length_append] at behind ⊢
    omega

theorem Remains.not_infix (h : Remains text part) (member : marker ∈ noiseMarkers) :
    ¬ marker <:+: part := by
  obtain ⟨lead, word, gap, tail, rest, upTo, -, -⟩ := h.exists_parts
  have nonempty : ∀ marker ∈ noiseMarkers, marker ≠ [] := by decide
  intro inside
  apply upTo.not_infix member (nonempty marker member)
  exact inside.trans ⟨lead ++ word ++ gap, tail, rfl⟩

end

/-- What is left of a message is its short text; if nothing is left, the kind is. -/
theorem toList_summaryOf {kind : String} (named : IsName kind) (message : String) :
    (summaryOf kind message).toList =
      if clean message.toList = [] then kind.toList else clean message.toList := by
  by_cases silent : message = ""
  · subst silent
    have nothing : clean "".toList = [] := by decide
    have something : ¬ kind.toList.isEmpty := by simpa using named.nonempty
    have hkind : summaryOf kind "" =
        if (clean kind.toList).isEmpty then kind else String.ofList (clean kind.toList) := rfl
    rw [nothing, if_pos rfl, hkind, clean_of_isName named, if_neg something, String.ofList_toList]
  · have told : message.isEmpty = false := by simpa using silent
    simp only [summaryOf, told, Bool.false_eq_true, if_false, List.isEmpty_iff]
    split
    · rfl
    · exact String.toList_ofList

/-- The short text of a failure is never empty, begins and ends with characters that are no blanks and has
no marker of noise in it. It is the kind of the failure or a part of what it says that lies before all
markers; and the kind only if nothing else is left. -/
theorem summary_of_message {kind : String} (named : IsName kind) (message : String) :
    let told := (summaryOf kind message).toList
    told ≠ [] ∧ (∀ c, told.head? = some c → isBlank c = false) ∧
      (∀ c, told.getLast? = some c → isBlank c = false) ∧
      (∀ marker ∈ noiseMarkers, ¬ marker <:+: told) ∧
      (summaryOf kind message = kind ∨ LiesBeforeNoise message.toList told) ∧
      ∃ part, Remains message.toList part ∧ told = if part = [] then kind.toList else part := by
  intro told
  let part := clean message.toList
  have remains : Remains message.toList part := remains_clean message.toList
  have plain : Remains kind.toList kind.toList := by
    have hclean := remains_clean kind.toList
    rwa [clean_of_isName named] at hclean
  have htold : told = if part = [] then kind.toList else part := toList_summaryOf named message
  have hnonempty : kind.toList ≠ [] := mt String.toList_eq_nil_iff.mp named.nonempty
  by_cases left : part = []
  · rw [if_pos left] at htold
    refine ⟨htold ▸ hnonempty, htold ▸ plain.first, htold ▸ plain.last, ?_, ?_, part, remains, ?_⟩
    · intro marker member
      rw [htold]
      exact plain.not_infix member
    · exact .inl (String.toList_inj.mp htold)
    · rw [if_pos left, htold]
  · rw [if_neg left] at htold
    refine ⟨htold ▸ left, htold ▸ remains.first, htold ▸ remains.last, ?_, ?_, part, remains, ?_⟩
    · intro marker member
      rw [htold]
      exact remains.not_infix member
    · exact .inr (htold ▸ remains.liesBeforeNoise)
    · rw [if_neg left, htold]

/-- Blanks of any kind and one error word in any case go, what is behind the first marker goes, and a text
with nothing else gives way to the kind. -/
theorem summary_of_noisy_message :
    let message := "\u00a0JavaScript Error: error: gone\u2003(Session info: x) Call log: y"
    IsName "TimeoutError" ∧ summaryOf "TimeoutError" message = "error: gone" ∧
      LiesBeforeNoise message.toList "error: gone".toList ∧
      summaryOf "TimeoutError" "Error: Call log:" = "TimeoutError" := by
  intro message
  have named : IsName "TimeoutError" := ⟨by decide, by simp [isBlank]⟩
  have told : summaryOf "TimeoutError" message = "error: gone" := by decide +kernel
  obtain ⟨-, -, -, -, isKind | before, -⟩ := summary_of_message named message
  · rw [told] at isKind
    exact absurd isKind (by decide)
  · rw [told] at before
    exact ⟨named, told, before, by decide +kernel⟩

end Failure

end BrowserSteps
