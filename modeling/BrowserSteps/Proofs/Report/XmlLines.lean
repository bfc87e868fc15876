import BrowserSteps.Proofs.Report.XmlReading

/-!
Line breaks in XML documents. Before anything else, a reader takes a carriage return, alone or in
front of a line feed, for a line feed. The values of attributes are safe from that, since they have
references for all line breaks. A text is not: it is read with its line breaks joined.
-/

namespace BrowserSteps.Report.Xml

/-- What a reader takes a character for, if it sees what comes next. -/
def broken (c : Char) (next : Option Char) : List Char :=
  if c = '\r' then if next = some '\n' then [] else ['\n'] else [c]

/-- A source as a reader takes it, all line breaks being line feeds. -/
def joinBreaks : List Char → List Char
  | [] => []
  | c :: rest => broken c rest.head? ++ joinBreaks rest

def joinedText (s : String) : String := String.ofList (joinBreaks s.toList)

mutual

/-- An element whose texts have all their line breaks joined. -/
def Element.joined : Element → Element
  | .leaf name attributes text => .leaf name attributes (joinedText text)
  | .branch name attributes children => .branch name attributes (joinedAll children)

def joinedAll : List Element → List Element
  | [] => []
  | child :: rest => child.joined :: joinedAll rest

end

theorem joinedAll_eq (children : List Element) :
    joinedAll children = children.map Element.joined := by
  induction children with
  | nil => rfl
  | cons child rest ih => rw [joinedAll, ih, List.map_cons]

/-- Line breaks are joined piece by piece, if none of them is split. -/
theorem joinBreaks_append (text : List Char) {rest : List Char} (whole : rest.head? ≠ some '\n') :
    joinBreaks (text ++ rest) = joinBreaks text ++ joinBreaks rest := by
  induction text with
  | nil => rfl
  | cons c text ih =>
      have hnext : broken c (text ++ rest).head? = broken c text.head? := by
        cases text with
        | nil => simp [broken, whole]
        | cons d text => rfl
      rw [List.cons_append, joinBreaks, hnext, ih, joinBreaks, List.append_assoc]

/-- Without carriage returns there is nothing to join. -/
theorem joinBreaks_plain {text : List Char} (plain : '\r' ∉ text) (rest : List Char) :
    joinBreaks (text ++ rest) = text ++ joinBreaks rest := by
  induction text with
  | nil => rfl
  | cons c text ih =>
      obtain ⟨hc, htext⟩ := not_or.mp (mt List.mem_cons.mpr plain)
      rw [List.cons_append, joinBreaks, broken, if_neg (Ne.symm hc), ih htext]
      rfl

theorem joinBreaks_eq_nil {text : List Char} : joinBreaks text = [] ↔ text = [] := by
  refine ⟨fun empty => ?_, fun empty => by rw [empty, joinBreaks]⟩
  induction text with
  | nil => rfl
  | cons c text ih =>
      obtain ⟨hc, htext⟩ := List.append_eq_nil_iff.mp empty
      -- Only a carriage return in front of a line feed is dropped, so that something is left.
      rw [ih htext] at hc
      simp only [broken, List.head?_nil, reduceCtorEq, if_false] at hc
      split at hc <;> cases hc

/-- A text does not get lost with its line breaks. -/
theorem isEmpty_joinedText (text : String) : (joinedText text).isEmpty = text.isEmpty := by
  rw [Bool.eq_iff_iff, String.isEmpty_iff, String.isEmpty_iff, joinedText,
    String.ofList_eq_empty_iff, joinBreaks_eq_nil, String.toList_eq_nil_iff]

/-- No reference of a text holds a blank. -/
theorem eq_of_mem_escapeTextChar {c d : Char} (member : d ∈ escapeTextChar c)
    (blank : Json.isSpace d) : d = c := by
  have hreference {source : List Char} (visible : source.all (!Json.isSpace ·)) :
      d ∉ source := fun member => by
    simpa [blank] using List.all_eq_true.mp visible d member
  unfold escapeTextChar at member
  split at member
  · exact absurd member (hreference (by decide))
  split at member
  · exact absurd member (hreference (by decide))
  split at member
  · exact absurd member (hreference (by decide))
  · exact List.mem_singleton.mp member

/-- A text begins with a line feed in its document if it does so itself. -/
theorem head?_escapeText (text : List Char) :
    (text.flatMap escapeTextChar).head? = some '\n' ↔ text.head? = some '\n' := by
  cases text with
  | nil => rfl
  | cons c text =>
      obtain ⟨first, others, hsource⟩ :=
        List.exists_cons_of_ne_nil (Markup.written_text c).ne_nil
      rw [List.flatMap_cons, hsource, List.cons_append, List.head?_cons, List.head?_cons]
      constructor
      · intro begins
        obtain rfl := Option.some.inj begins
        have member : '\n' ∈ escapeTextChar c := hsource ▸ List.mem_cons_self
        rw [eq_of_mem_escapeTextChar member rfl]
      · intro begins
        obtain rfl := Option.some.inj begins
        exact congrArg List.head? hsource.symm

/-- A text is joined as it stands in its document. -/
theorem joinBreaks_escapeText (text : List Char) :
    joinBreaks (text.flatMap escapeTextChar) = (joinBreaks text).flatMap escapeTextChar := by
  induction text with
  | nil => rfl
  | cons c text ih =>
      rw [List.flatMap_cons, joinBreaks, List.flatMap_append, ← ih]
      by_cases hreturn : c = '\r'
      · subst hreturn
        have hbroken : broken '\r' (text.flatMap escapeTextChar).head? =
            (broken '\r' text.head?).flatMap escapeTextChar := by
          simp only [broken, head?_escapeText, if_true]
          split <;> rfl
        rw [← hbroken]
        rfl
      · have hplain : '\r' ∉ escapeTextChar c := fun member =>
          hreturn (eq_of_mem_escapeTextChar member rfl).symm
        rw [joinBreaks_plain hplain, broken, if_neg hreturn, List.flatMap_singleton]

/-- No tag holds a carriage return. -/
theorem return_notMem_tagChars {name : String} {attributes : List (String × String)}
    (legal : LegalTag name attributes) : '\r' ∉ tagChars name attributes := by
  intro member
  rcases List.mem_append.mp member with member | member
  · exact notMem_of_isName legal.name (by decide) member
  · obtain ⟨⟨key, value⟩, hpair, hc⟩ := List.mem_flatMap.mp member
    have hkey := notMem_of_isName (legal.keys _ hpair) (c := '\r') (by decide)
    have hvalue := notMem_escapeAttribute (d := '\r') (by decide) value
    simp [attributeChars, hkey, hvalue] at hc

theorem return_notMem_newLine (level : Nat) : '\r' ∉ newLine level := by
  simp [newLine, List.mem_replicate]

section

variable {name : String} {attributes : List (String × String)} (legal : LegalTag name attributes)
  (rest : List Char)

include legal

theorem joinBreaks_opening : joinBreaks ('<' :: tagChars name attributes ++ '>' :: rest) =
    '<' :: tagChars name attributes ++ '>' :: joinBreaks rest := by
  have hplain : '\r' ∉ '<' :: tagChars name attributes ++ ['>'] := by
    simp [return_notMem_tagChars legal]
  simpa using joinBreaks_plain hplain rest

theorem joinBreaks_empty :
    joinBreaks ('<' :: tagChars name attributes ++ " />".toList ++ rest) =
      '<' :: tagChars name attributes ++ " />".toList ++ joinBreaks rest :=
  joinBreaks_plain (by simp [return_notMem_tagChars legal]) rest

theorem joinBreaks_closing : joinBreaks ('<' :: '/' :: name.toList ++ '>' :: rest) =
    '<' :: '/' :: name.toList ++ '>' :: joinBreaks rest := by
  have hplain : '\r' ∉ '<' :: '/' :: name.toList ++ ['>'] := by
    simp [notMem_of_isName legal.name (c := '\r') (by decide)]
  simpa using joinBreaks_plain hplain rest

end

theorem Element.Legal.joined {e : Element} (legal : e.Legal) : e.joined.Legal := by
  induction legal with
  | leaf text tag => exact .leaf _ tag
  | branch tag _ ih =>
      rw [Element.joined, joinedAll_eq]
      refine .branch tag fun child member => ?_
      obtain ⟨e, he, rfl⟩ := List.mem_map.mp member
      exact ih e he

/-- Elements on lines of their own are joined one by one. -/
theorem joinBreaks_children {children : List Element}
    (each : ∀ child ∈ children, ∀ (level : Nat) (rest : List Char),
      joinBreaks (child.chars level ++ rest) = child.joined.chars level ++ joinBreaks rest)
    (level : Nat) (rest : List Char) :
    joinBreaks (childrenChars level children ++ rest) =
      childrenChars level (children.map Element.joined) ++ joinBreaks rest := by
  induction children with
  | nil => rfl
  | cons child children ih =>
      obtain ⟨hchild, hchildren⟩ := List.forall_mem_cons.mp each
      rw [childrenChars, List.append_assoc, List.append_assoc,
        joinBreaks_plain (return_notMem_newLine level), hchild, ih hchildren, List.map_cons,
        childrenChars, List.append_assoc, List.append_assoc]

/-- In an element with legal names the line breaks of its texts are joined, and nothing else. -/
theorem joinBreaks_chars {e : Element} (legal : e.Legal) (level : Nat) (rest : List Char) :
    joinBreaks (e.chars level ++ rest) = e.joined.chars level ++ joinBreaks rest := by
  induction legal generalizing level rest with
  | @leaf name attributes text tag =>
      cases hempty : text.isEmpty with
      | true =>
          obtain rfl := String.isEmpty_iff.mp hempty
          exact joinBreaks_empty tag rest
      | false =>
          have hjoined : (joinedText text).isEmpty = false := by
            rw [isEmpty_joinedText, hempty]
          have hclosing : ('<' :: '/' :: name.toList ++ '>' :: rest).head? ≠ some '\n' := by simp
          rw [chars_text name attributes level rest hempty, joinBreaks_opening tag,
            joinBreaks_append _ hclosing, escapeText, joinBreaks_escapeText,
            joinBreaks_closing tag, Element.joined, chars_text name attributes level _ hjoined,
            escapeText, joinedText, String.toList_ofList]
  | @branch name attributes children tag _ ih =>
      rw [Element.joined, joinedAll_eq]
      cases children with
      | nil => exact joinBreaks_empty tag rest
      | cons child children =>
          rw [chars_children, joinBreaks_opening tag, joinBreaks_children ih,
            joinBreaks_plain (return_notMem_newLine level), joinBreaks_closing tag,
            List.map_cons, chars_children]

theorem joinedText_document {root : Element} (legal : root.Legal) :
    joinedText (document root) = document root.joined := by
  have hprolog : '\r' ∉ '<' :: declaration ++ ['>', '\n'] := by decide +kernel
  have hdocument (e : Element) : (document e).toList =
      '<' :: declaration ++ ['>', '\n'] ++ (e.chars 0 ++ ['\n']) := by
    rw [toList_document]
    simp
  rw [joinedText, hdocument, joinBreaks_plain hprolog, joinBreaks_chars legal,
    ← String.toList_inj, String.toList_ofList, hdocument]
  rfl

theorem normal_joined {e : Element} (legal : e.Legal) : e.joined.normal = e.normal.joined := by
  induction legal with
  | leaf => rfl
  | @branch name attributes children _ _ ih =>
      rw [Element.joined, joinedAll_eq]
      cases children with
      | nil => rfl
      | cons child rest =>
          simp only [List.map_cons, Element.normal, Element.joined, joinedAll, normalAll_eq,
            joinedAll_eq, List.map_map]
          rw [ih child List.mem_cons_self]
          congr 2
          exact List.map_congr_left fun e member => ih e (List.mem_cons_of_mem _ member)

/-- A reader that joins line breaks reads the same element, with the line breaks of its texts
joined. -/
theorem read?_joinedText {root : Element} (legal : root.Legal) :
    read? (joinedText (document root)) = some root.normal.joined := by
  rw [joinedText_document legal, read?_document legal.joined, normal_joined legal]

end BrowserSteps.Report.Xml
