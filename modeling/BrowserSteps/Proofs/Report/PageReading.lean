import BrowserSteps.Proofs.Report.Outline

/-!
Reading a page. A reader finds its tags, and by them what stands in its elements: the texts of
titles, and the cells of tables with their lines. What it finds in a page that an outline was
written to is in the outline, and the texts are as they were before they were escaped.
-/

namespace BrowserSteps.Report.Html

open Markup

/-- A tag as it stands on the page; one that never ends is a tag too. -/
def tagSource? : Token → Option String
  | .tag source => some (String.ofList ('<' :: source ++ ['>']))
  | .unfinished source => some (String.ofList ('<' :: source))
  | .char _ => none

/-- The tags of a page in their order. -/
def tags (page : String) : List String := (scan page.toList).filterMap tagSource?

/-- Is it a tag with this name, whatever its attributes are? -/
def isNamed (name : String) : Token → Bool
  | .tag source => source.takeWhile (· ≠ ' ') = name.toList
  | _ => false

/-- Reads on for the elements with a name, inside one if some of it has been read. -/
def contentsFrom (name : String) : Option (List Token) → List Token → List (List Token)
  | none, [] => []
  | some content, [] => [content]
  | none, t :: rest => contentsFrom name (if isNamed name t then some [] else none) rest
  | some content, t :: rest =>
    if isNamed ("/" ++ name) t then content :: contentsFrom name none rest
    else contentsFrom name (some (content ++ [t])) rest

/-- What stands in the elements with a name, each up to the next closing tag. -/
def contents (name : String) (tokens : List Token) : List (List Token) :=
  contentsFrom name none tokens

def char? : Token → Option Char
  | .char c => some c
  | _ => none

/-- The text that tokens hold; tags are no part of it. -/
def plain? (tokens : List Token) : Option String :=
  (unescape? (tokens.filterMap char?)).map String.ofList

/-- The lines of a cell. -/
def lines (cell : List Token) : List (Option String) := (cell.splitOnP (isNamed "br")).map plain?

/-- The cells of a row. -/
def cells (row : List Token) : List (List (Option String)) := (contents "td" row).map lines

/-- The rows of a table. -/
def rows (table : List Token) : List (List (List (Option String))) :=
  (contents "tr" table).map cells

/-- The tables of a page: their rows, the cells of a row and the lines of a cell. -/
def tables (page : String) : List (List (List (List (Option String)))) :=
  (contents "table" (scan page.toList)).map rows

/-- The texts of the elements with a name. -/
def texts (name page : String) : List (Option String) :=
  (contents name (scan page.toList)).map plain?

theorem contents_skip {name : String} {before : List Token}
    (lacks : ∀ t ∈ before, isNamed name t = false) (rest : List Token) :
    contents name (before ++ rest) = contents name rest := by
  induction before with
  | nil => rfl
  | cons t before ih =>
      obtain ⟨ht, hbefore⟩ := List.forall_mem_cons.mp lacks
      rw [← ih hbefore, contents, List.cons_append, contentsFrom, ht]
      rfl

theorem contentsFrom_inside {name : String} {content : List Token}
    (lacks : ∀ t ∈ content, isNamed ("/" ++ name) t = false) {closing : Token}
    (closes : isNamed ("/" ++ name) closing = true) (begun rest : List Token) :
    contentsFrom name (some begun) (content ++ closing :: rest) =
      (begun ++ content) :: contents name rest := by
  induction content generalizing begun with
  | nil => simp [contentsFrom, closes, contents]
  | cons t content ih =>
      obtain ⟨ht, hcontent⟩ := List.forall_mem_cons.mp lacks
      rw [List.cons_append, contentsFrom, if_neg (by simp [ht]), ih hcontent, List.append_assoc,
        List.singleton_append]

def Part.tokens : Part → List Token
  | .tag name attributes => [.tag (name.toList ++ attributes.toList)]
  | .text content => (content.toList.flatMap escapeChar).map .char

def tokens (parts : List Part) : List Token := parts.flatMap Part.tokens

@[simp] theorem tokens_nil : tokens [] = [] := rfl

theorem tokens_cons (part : Part) (rest : List Part) :
    tokens (part :: rest) = part.tokens ++ tokens rest := rfl

theorem tokens_append (parts rest : List Part) :
    tokens (parts ++ rest) = tokens parts ++ tokens rest := List.flatMap_append

/-- A text, or a tag with one of these names. The attributes of a tag neither end it nor go on with
its name. -/
def Part.Among (names : List String) : Part → Prop
  | .tag name attributes =>
    name ∈ names ∧ '>' ∉ attributes.toList ∧ attributes.toList.head?.all (· = ' ')
  | .text _ => True

/-- All tags of an outline have one of these names. -/
def Among (names : List String) (parts : List Part) : Prop := ∀ part ∈ parts, part.Among names

instance (names : List String) : DecidablePred (Part.Among names)
  | .tag name attributes =>
    inferInstanceAs (Decidable
      (name ∈ names ∧ '>' ∉ attributes.toList ∧ attributes.toList.head?.all (· = ' ')))
  | .text _ => inferInstanceAs (Decidable True)

instance (names : List String) : DecidablePred (Among names) := fun parts =>
  inferInstanceAs (Decidable (∀ part ∈ parts, part.Among names))

section

variable {names : List String}

@[simp] theorem among_nil : Among names [] := List.forall_mem_nil _

@[simp] theorem among_text (content : String) (rest : List Part) :
    Among names (.text content :: rest) ↔ Among names rest := by
  rw [Among, List.forall_mem_cons]
  exact and_iff_right trivial

theorem among_tag {name attributes : String} (harmless : '>' ∉ attributes.toList)
    (separate : attributes.toList.head?.all (· = ' ')) (rest : List Part) :
    Among names (.tag name attributes :: rest) ↔ name ∈ names ∧ Among names rest := by
  rw [Among, List.forall_mem_cons]
  exact and_congr_left' (and_iff_left ⟨harmless, separate⟩)

@[simp] theorem among_bare (name : String) (rest : List Part) :
    Among names (bare name :: rest) ↔ name ∈ names ∧ Among names rest :=
  among_tag (by decide) (by decide) rest

theorem separate_statusClass (status : Status) :
    (statusClass status).toList.head?.all (· = ' ') := by
  rw [toList_statusClass]
  rfl

/-- The word of a status is escaped, so that it does not end the tag. -/
@[simp] theorem among_status (name : String) (status : Status) (rest : List Part) :
    Among names (.tag name (statusClass status) :: rest) ↔ name ∈ names ∧ Among names rest := by
  have hword := not_closes_escaped written_html status.word.toList
  refine among_tag ?_ (separate_statusClass status) rest
  rw [toList_statusClass]
  simp +decide [hword]

@[simp] theorem among_append (parts rest : List Part) :
    Among names (parts ++ rest) ↔ Among names parts ∧ Among names rest := List.forall_mem_append

@[simp] theorem among_element (name : String) (content : List Part) :
    Among names (element name content) ↔
      name ∈ names ∧ "/" ++ name ∈ names ∧ Among names content := by
  simp only [element, among_append, among_bare, among_nil, and_true]
  exact and_assoc.trans (and_congr_right fun _ => and_comm)

@[simp] theorem among_flatMap {α : Type} (items : List α) (parts : α → List Part) :
    Among names (items.flatMap parts) ↔ ∀ item ∈ items, Among names (parts item) :=
  List.forall_mem_flatMap

@[simp] theorem among_texts (texts : List String) : Among names (texts.map .text) :=
  List.forall_mem_map.mpr fun _ _ => trivial

variable {parts : List Part}

theorem Among.mono {more : List String} (h : Among names parts) (subset : names ⊆ more) :
    Among more parts := fun part member => by
  cases part with
  | tag name attributes =>
      obtain ⟨hname, hattributes⟩ := h _ member
      exact ⟨subset hname, hattributes⟩
  | text content => trivial

/-- The tokens of a page are those of its parts. -/
theorem scan_parts (h : Among names parts) (closed : ∀ name ∈ names, '>' ∉ name.toList) :
    scan (parts.flatMap Part.chars) = tokens parts := by
  induction parts with
  | nil => rfl
  | cons part rest ih =>
      obtain ⟨hpart, hrest⟩ := List.forall_mem_cons.mp h
      rw [List.flatMap_cons, tokens_cons, ← ih hrest]
      cases part with
      | tag name attributes =>
          obtain ⟨hname, hattributes, -⟩ := hpart
          have hclosing : '>' ∉ name.toList ++ attributes.toList := by
            simp [closed name hname, hattributes]
          simpa [Part.chars, Part.tokens] using scan_tag hclosing (rest.flatMap Part.chars)
      | text content =>
          exact scan_text (not_opens_escaped written_html content.toList) (rest.flatMap Part.chars)

/-- Attributes are no part of the name. -/
theorem isNamed_tag (name other : String) {attributes : List Char}
    (separate : attributes.head?.all (· = ' ')) :
    isNamed name (.tag (other.toList ++ attributes)) = isNamed name (.tag other.toList) := by
  cases attributes with
  | nil => rw [List.append_nil]
  | cons c rest =>
      obtain rfl : c = ' ' := of_decide_eq_true separate
      have hname (word : List Char) :
          (word ++ ' ' :: rest).takeWhile (· ≠ ' ') = word.takeWhile (· ≠ ' ') := by
        induction word with
        | nil => rfl
        | cons d word ih => rw [List.cons_append, List.takeWhile_cons, List.takeWhile_cons, ih]
      rw [isNamed, isNamed, hname]

theorem Among.unnamed (h : Among names parts) {name : String}
    (other : ∀ tag ∈ names, isNamed name (.tag tag.toList) = false) :
    ∀ t ∈ tokens parts, isNamed name t = false := fun t member => by
  obtain ⟨part, hpart, ht⟩ := List.mem_flatMap.mp member
  cases part with
  | tag tag attributes =>
      obtain ⟨htag, -, separate⟩ := h _ hpart
      obtain rfl := List.mem_singleton.mp ht
      rw [isNamed_tag name tag separate, other tag htag]
  | text content =>
      obtain ⟨c, -, rfl⟩ := List.mem_map.mp ht
      rfl

end

section

variable {name : String} {names : List String} {parts : List Part}

theorem contents_lacking (h : Among names parts)
    (other : ∀ tag ∈ names, isNamed name (.tag tag.toList) = false) (rest : List Part) :
    contents name (tokens (parts ++ rest)) = contents name (tokens rest) := by
  rw [tokens_append, contents_skip (h.unnamed other)]

theorem contents_none (h : Among names parts)
    (other : ∀ tag ∈ names, isNamed name (.tag tag.toList) = false) :
    contents name (tokens parts) = [] := by
  have hskip := contents_lacking h other []
  rwa [List.append_nil] at hskip

theorem contents_text (content : String) (rest : List Part) :
    contents name (tokens (.text content :: rest)) = contents name (tokens rest) :=
  contents_lacking ((among_text content []).mpr among_nil) (List.forall_mem_nil _) rest

variable (name)

/-- An element is found with its content. -/
theorem contents_tagged {attributes : String} {content : List Part}
    (opens : isNamed name (.tag (name.toList ++ attributes.toList)) = true)
    (closes : isNamed ("/" ++ name) (.tag ("/" ++ name).toList) = true) (h : Among names content)
    (other : ∀ tag ∈ names, isNamed ("/" ++ name) (.tag tag.toList) = false) (rest : List Part) :
    contents name (tokens (.tag name attributes :: content ++ bare ("/" ++ name) :: rest)) =
      tokens content :: contents name (tokens rest) := by
  have hclosing : (bare ("/" ++ name)).tokens = [.tag ("/" ++ name).toList] := by
    simp [bare, Part.tokens]
  rw [List.cons_append, tokens_cons, Part.tokens, tokens_append, tokens_cons, hclosing,
    List.singleton_append, List.singleton_append, contents, contentsFrom, if_pos opens,
    contentsFrom_inside (h.unnamed other) closes, List.nil_append]

theorem contents_element {content : List Part}
    (opens : isNamed name (.tag (name.toList ++ "".toList)) = true)
    (closes : isNamed ("/" ++ name) (.tag ("/" ++ name).toList) = true) (h : Among names content)
    (other : ∀ tag ∈ names, isNamed ("/" ++ name) (.tag tag.toList) = false) (rest : List Part) :
    contents name (tokens (element name content ++ rest)) =
      tokens content :: contents name (tokens rest) := by
  simpa [element, bare] using contents_tagged name opens closes h other rest

end

def Part.content : Part → String
  | .tag _ _ => ""
  | .text content => content

/-- The text of a part of a page is that of its outline. -/
theorem plain?_tokens (parts : List Part) :
    plain? (tokens parts) = some (String.join (parts.map Part.content)) := by
  have hchars : (tokens parts).filterMap char? =
      (String.join (parts.map Part.content)).toList.flatMap escapeChar := by
    induction parts with
    | nil => rfl
    | cons part rest ih =>
        rw [tokens_cons, List.filterMap_append, ih, List.map_cons, String.join_cons,
          String.toList_append, List.flatMap_append]
        congr 1
        cases part with
        | tag name attributes => rfl
        | text content => exact (List.filterMap_map ..).trans (List.filterMap_some ..)
  rw [plain?, hchars, unescape?_escaped written_html, Option.map_some, String.ofList_toList]

theorem lines_texts (texts : List String) :
    lines (tokens (texts.map .text)) = [some (String.join texts)] := by
  have htexts : Among [] (texts.map .text) := among_texts texts
  have hunbroken : ∀ t ∈ tokens (texts.map .text), isNamed "br" t = false :=
    htexts.unnamed (List.forall_mem_nil _)
  have hcontents : (texts.map Part.text).map Part.content = texts := by
    rw [List.map_map]
    exact List.map_id texts
  rw [lines, List.splitOnP_eq_singleton hunbroken, List.map_singleton, plain?_tokens, hcontents]

theorem lines_text (content : String) : lines (tokens [.text content]) = [some content] := by
  simpa using lines_texts [content]

/-- Every message is a line, and an empty line follows the last one. -/
theorem lines_messages (messages : List String) :
    lines (tokens (messages.flatMap fun m => [.text m, bare "br"])) =
      (messages ++ [""]).map some := by
  induction messages with
  | nil => rfl
  | cons m rest ih =>
      have htext : Among [] ([m].map .text) := among_texts [m]
      have hunbroken : ∀ t ∈ tokens ([m].map .text), isNamed "br" t = false :=
        htext.unnamed (List.forall_mem_nil _)
      have hbreak : tokens ((m :: rest).flatMap fun m => [.text m, bare "br"]) =
          tokens ([m].map .text) ++ .tag ("br".toList ++ "".toList) ::
            tokens (rest.flatMap fun m => [.text m, bare "br"]) := by
        simp [tokens_cons, bare, Part.tokens]
      rw [lines] at ih ⊢
      rw [hbreak, List.splitOnP_append_cons_of_forall_mem hunbroken _ (by decide), List.map_cons,
        ih, plain?_tokens]
      simp [Part.content]

theorem cells_nil : cells [] = [] := rfl

theorem cells_text (content : String) (rest : List Part) :
    cells (tokens (.text content :: rest)) = cells (tokens rest) := by
  rw [cells, contents_text, cells]

section

variable {names : List String} {content : List Part} (h : Among names content)

include h

/-- A cell is read by its lines. -/
theorem cells_tagged {attributes : String}
    (opens : isNamed "td" (.tag ("td".toList ++ attributes.toList)) = true)
    (other : ∀ tag ∈ names, isNamed "/td" (.tag tag.toList) = false) (rest : List Part) :
    cells (tokens (.tag "td" attributes :: content ++ bare "/td" :: rest)) =
      lines (tokens content) :: cells (tokens rest) :=
  congrArg (List.map lines) (contents_tagged "td" opens (by decide) h other rest)

theorem cells_element (other : ∀ tag ∈ names, isNamed "/td" (.tag tag.toList) = false)
    (rest : List Part) :
    cells (tokens (element "td" content ++ rest)) = lines (tokens content) :: cells (tokens rest) :=
  congrArg (List.map lines) (contents_element "td" (by decide) (by decide) h other rest)

/-- A row is read by its cells. -/
theorem rows_element (other : ∀ tag ∈ names, isNamed "/tr" (.tag tag.toList) = false)
    (rest : List Part) :
    rows (tokens (element "tr" content ++ rest)) = cells (tokens content) :: rows (tokens rest) :=
  congrArg (List.map cells) (contents_element "tr" (by decide) (by decide) h other rest)

end

theorem rows_nil : rows [] = [] := rfl

theorem rows_text (content : String) (rest : List Part) :
    rows (tokens (.text content :: rest)) = rows (tokens rest) := by
  rw [rows, contents_text, rows]

/-- Items that make one row each. -/
theorem rows_flatMap {α : Type} {row : α → List Part} {read : α → List (List (Option String))}
    (same : ∀ item rest, rows (tokens (row item ++ rest)) = read item :: rows (tokens rest))
    (items : List α) (rest : List Part) :
    rows (tokens (items.flatMap row ++ rest)) = items.map read ++ rows (tokens rest) := by
  induction items with
  | nil => rfl
  | cons item items ih =>
      rw [List.flatMap_cons, List.append_assoc, same, ih, List.map_cons, List.cons_append]

end BrowserSteps.Report.Html
