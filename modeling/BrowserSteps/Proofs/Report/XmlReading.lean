import BrowserSteps.Proofs.Report.Markup

/-!
Reading XML documents. Elements are read from their tags with a stack of those that are still open.
A document is refused if its tags do not nest, an attribute is given twice, a name is none, or a
text holds a reference to nothing. Every element whose names are legal is read back from its
document.
-/

namespace BrowserSteps.Report.Xml

open Markup

/-- What a name may hold. -/
def isNameChar (c : Char) : Bool := c.isAlphanum || ['-', '_', '.'].contains c

def isName (name : List Char) : Bool := !name.isEmpty && name.all isNameChar

/-- A tag by its kind. -/
inductive Tag where
  | opening (name : String) (attributes : List (String × String))
  | empty (name : String) (attributes : List (String × String))
  | closing (name : String)
  deriving DecidableEq, Repr

/-- The key in front of a value: behind a blank and up to an equals sign. -/
def readKey? : List Char → Option String
  | ' ' :: rest =>
    if isName rest.dropLast && rest.getLast? = some '=' then some (String.ofList rest.dropLast)
    else none
  | _ => none

/-- How a reader takes a character of a value: line breaks and tabs count as blanks. -/
def blanked (c : Char) : Char := if Json.isSpace c then ' ' else c

/-- The attributes of a tag that was split at its quotation marks, and whether the element is
empty. -/
def readAttributes? : List (List Char) → Option (List (String × String) × Bool)
  | [[]] => some ([], false)
  | [[' ', '/']] => some ([], true)
  | before :: value :: rest => do
    let key ← readKey? before
    let value ← unescape? (value.map blanked)
    let (others, isEmpty) ← readAttributes? rest
    some ((key, String.ofList value) :: others, isEmpty)
  | _ => none

/-- Reads a tag from what stands between its brackets. -/
def readTag? : List Char → Option Tag
  | '/' :: name => if isName name then some (.closing (String.ofList name)) else none
  | source => do
    let name := source.takeWhile (· ≠ ' ')
    let (attributes, isEmpty) ← readAttributes? ((source.dropWhile (· ≠ ' ')).splitOn '"')
    if isName name && !source.contains '<' && (attributes.map Prod.fst).Nodup then
      some (if isEmpty then .empty (String.ofList name) attributes
        else .opening (String.ofList name) attributes)
    else none

/-- An element that is still open, with what has been read of its content. -/
structure Frame where
  name : String
  attributes : List (String × String)
  text : List Char := []
  children : List Element := []

/-- The element of a frame that ends here. Between elements there are only blanks. -/
def Frame.element? (f : Frame) : Option Element :=
  if f.children.isEmpty then
    (unescape? f.text).map fun text => .leaf f.name f.attributes (String.ofList text)
  else if f.text.all Json.isSpace then some (.branch f.name f.attributes f.children)
  else none

/-- How far a reader has come: the open elements, the innermost first, and the root if it is
complete. -/
structure Reading where
  frames : List Frame := []
  root : Option Element := none

namespace Reading

/-- Adds an element that is complete. There is only one root. -/
def add? (s : Reading) (e : Element) : Option Reading :=
  match s.frames, s.root with
  | [], none => some { s with root := some e }
  | [], some _ => none
  | f :: rest, _ => some { s with frames := { f with children := f.children ++ [e] } :: rest }

def next? (s : Reading) : Token → Option Reading
  | .unfinished _ => none
  | .char c =>
    match s.frames with
    | [] => if Json.isSpace c then some s else none
    | f :: rest =>
      if c = '>' then none else some { s with frames := { f with text := f.text ++ [c] } :: rest }
  | .tag source => do
    match ← readTag? source with
    | .opening name attributes => some { s with frames := ⟨name, attributes, [], []⟩ :: s.frames }
    | .empty name attributes => s.add? (.leaf name attributes "")
    | .closing name =>
      match s.frames with
      | [] => none
      | f :: rest =>
        if f.name = name then do
          let e ← f.element?
          { s with frames := rest }.add? e
        else none

/-- Reads on to the end of a source. -/
def readOn? (s : Reading) (source : List Char) : Option Reading :=
  (scan source).foldlM next? s

end Reading

/-- The tag of the line in front of every document. -/
def declaration : List Char := "?xml version=\"1.0\" encoding=\"utf-8\"?".toList

/-- Reads a document. -/
def read? (document : String) : Option Element :=
  match scan document.toList with
  | .tag source :: rest =>
    if source = declaration then do
      let s ← rest.foldlM Reading.next? {}
      if s.frames.isEmpty then s.root else none
    else none
  | _ => none

/-- Names that can be read back, each key once. -/
structure LegalTag (name : String) (attributes : List (String × String)) : Prop where
  name : isName name.toList
  keys : ∀ pair ∈ attributes, isName pair.1.toList
  distinct : (attributes.map Prod.fst).Nodup

/-- An element with legal names only. -/
inductive Element.Legal : Element → Prop where
  | leaf {name : String} {attributes : List (String × String)} (text : String)
      (tag : LegalTag name attributes) : Legal (.leaf name attributes text)
  | branch {name : String} {attributes : List (String × String)} {children : List Element}
      (tag : LegalTag name attributes) (legal : ∀ child ∈ children, child.Legal) :
      Legal (.branch name attributes children)

mutual

/-- An element as a reader takes it: one without children is a leaf without text. -/
def Element.normal : Element → Element
  | .leaf name attributes text => .leaf name attributes text
  | .branch name attributes [] => .leaf name attributes ""
  | .branch name attributes (child :: rest) =>
    .branch name attributes (child.normal :: normalAll rest)

def normalAll : List Element → List Element
  | [] => []
  | child :: rest => child.normal :: normalAll rest

end

theorem normalAll_eq (children : List Element) :
    normalAll children = children.map Element.normal := by
  induction children with
  | nil => rfl
  | cons child rest ih => rw [normalAll, ih, List.map_cons]

theorem notMem_of_isName {name : List Char} (legal : isName name) {c : Char}
    (other : isNameChar c = false) : c ∉ name := by
  intro member
  simp only [isName, Bool.and_eq_true, List.all_eq_true] at legal
  simp [legal.2 c member] at other

/-- The attributes of a tag up to a tail of it hold neither brackets nor more quotation marks than
those around the values. -/
theorem notMem_tagChars {name : String} {attributes : List (String × String)}
    (legal : LegalTag name attributes) {c : Char} (bracket : c = '<' ∨ c = '>') :
    c ∉ tagChars name attributes := by
  have hother : isNameChar c = false := by rcases bracket with rfl | rfl <;> decide
  have hsigns : c ∉ [' ', '=', '"'] := by rcases bracket with rfl | rfl <;> decide
  intro member
  rcases List.mem_append.mp member with member | member
  · exact notMem_of_isName legal.name hother member
  · obtain ⟨⟨key, value⟩, hpair, hc⟩ := List.mem_flatMap.mp member
    have hkey := notMem_of_isName (legal.keys _ hpair) hother
    have hvalue : c ∉ escapeAttribute value := by
      rcases bracket with rfl | rfl
      · exact not_opens_escaped written_attribute value.toList
      · exact not_closes_escaped written_attribute value.toList
    simp [attributeChars] at hc
    simp_all

theorem readKey?_eq {key : String} (legal : isName key.toList) :
    readKey? (' ' :: key.toList ++ ['=']) = some key := by
  simp [readKey?, legal]

/-- A value is written without what would end it or count as a blank. -/
theorem notMem_escapeAttribute {d : Char} (hidden : d ∈ ['"', '\r', '\n', '\t']) (value : String) :
    d ∉ escapeAttribute value := by
  have hchar (c : Char) : (escapeAttributeChar c).all (· ∉ ['"', '\r', '\n', '\t']) := by
    unfold escapeAttributeChar escapeTextChar
    repeat' split
    -- Each character is written as a reference, or needs none.
    all_goals first | decide | simp [*]
  intro member
  obtain ⟨c, -, hc⟩ := List.mem_flatMap.mp member
  exact of_decide_eq_true (List.all_eq_true.mp (hchar c) d hc) hidden

theorem blanked_escapeAttribute (value : String) :
    (escapeAttribute value).map blanked = escapeAttribute value := by
  refine (List.map_congr_left fun c member => ?_).trans (List.map_id _)
  unfold blanked
  split
  next hspace =>
    have hother : c ∉ ['"', '\r', '\n', '\t'] := fun hidden =>
      notMem_escapeAttribute hidden value member
    simp_all [Json.isSpace]
  next => rfl

/-- Attributes are read back, up to the tail of their tag. -/
theorem readAttributes?_eq {attributes : List (String × String)}
    (legal : ∀ pair ∈ attributes, isName pair.1.toList) {tail : List Char} {isEmpty : Bool}
    (unquoted : '"' ∉ tail) (ends : readAttributes? [tail] = some ([], isEmpty)) :
    readAttributes? ((attributes.flatMap attributeChars ++ tail).splitOn '"') =
      some (attributes, isEmpty) := by
  induction attributes with
  | nil => rwa [List.flatMap_nil, List.nil_append, List.splitOn_eq_singleton unquoted]
  | cons pair rest ih =>
      obtain ⟨key, value⟩ := pair
      obtain ⟨hkey, hrest⟩ := List.forall_mem_cons.mp legal
      have hbefore : '"' ∉ ' ' :: key.toList ++ ['='] := by
        have hunquoted := notMem_of_isName hkey (c := '"') (by decide)
        simp [hunquoted]
      have hsource : (((key, value) :: rest).flatMap attributeChars ++ tail) =
          (' ' :: key.toList ++ ['=']) ++ '"' :: (escapeAttribute value ++
            '"' :: (rest.flatMap attributeChars ++ tail)) := by
        simp [attributeChars]
      have hvalue : unescape? (escapeAttribute value) = some value.toList :=
        unescape?_escaped written_attribute value.toList
      rw [hsource, List.splitOn_append_cons_self_of_not_mem hbefore,
        List.splitOn_append_cons_self_of_not_mem (notMem_escapeAttribute (by decide) value)]
      rw [readAttributes?, readKey?_eq hkey, blanked_escapeAttribute, hvalue, ih hrest]
      simp

/-- A text splits at the first blank. -/
theorem split_at_blank {before after : List Char} (unbroken : ' ' ∉ before)
    (begins : ∀ c ∈ after.head?, c = ' ') :
    (before ++ after).takeWhile (· ≠ ' ') = before ∧
      (before ++ after).dropWhile (· ≠ ' ') = after := by
  induction before with
  | nil =>
      cases after with
      | nil => exact ⟨rfl, rfl⟩
      | cons c rest =>
          obtain rfl := begins c rfl
          exact ⟨rfl, rfl⟩
  | cons c before ih =>
      obtain ⟨hc, hbefore⟩ := not_or.mp (mt List.mem_cons.mpr unbroken)
      obtain ⟨htake, hdrop⟩ := ih hbefore
      simp only [List.cons_append, List.takeWhile_cons, List.dropWhile_cons, htake, hdrop]
      simp [Ne.symm hc]

section

variable {name : String} {attributes : List (String × String)} (legal : LegalTag name attributes)

include legal

/-- A tag is read back, whether its element is empty or not. -/
theorem readTag?_tagChars (tail : List Char) (isEmpty : Bool)
    (begins : ∀ c ∈ tail.head?, c = ' ') (harmless : '"' ∉ tail ∧ '<' ∉ tail)
    (ends : readAttributes? [tail] = some ([], isEmpty)) :
    readTag? (tagChars name attributes ++ tail) =
      some (if isEmpty then .empty name attributes else .opening name attributes) := by
  have hbegins : ∀ c ∈ (attributes.flatMap attributeChars ++ tail).head?, c = ' ' := by
    cases attributes with
    | nil => exact begins
    | cons pair rest => simp [attributeChars, eq_comm]
  obtain ⟨htake, hdrop⟩ := split_at_blank (notMem_of_isName legal.name (by decide)) hbegins
  rw [← List.append_assoc, ← tagChars] at htake hdrop
  have hopens : (tagChars name attributes ++ tail).contains '<' = false := by
    simp [notMem_tagChars legal (.inl rfl), harmless.2]
  unfold readTag?
  split
  next closing slash =>
    -- No name begins with the slash of a closing tag.
    have hname := legal.name
    cases hlist : name.toList with
    | nil => simp [isName, hlist] at hname
    | cons first rest =>
        have hfirst := notMem_of_isName hname (c := '/') (by decide)
        simp_all [tagChars]
  next =>
    rw [htake, hdrop, readAttributes?_eq legal.keys harmless.1 ends]
    simp only [hopens]
    simp [legal.name, legal.distinct]

theorem readTag?_opening :
    readTag? (tagChars name attributes) = some (.opening name attributes) := by
  have hopening := readTag?_tagChars legal [] false nofun (by simp) rfl
  rwa [List.append_nil] at hopening

theorem readTag?_empty :
    readTag? (tagChars name attributes ++ [' ', '/']) = some (.empty name attributes) :=
  readTag?_tagChars legal [' ', '/'] true (by simp) (by simp) rfl

theorem readTag?_closing : readTag? ('/' :: name.toList) = some (.closing name) := by
  simp [readTag?, legal.name]

end

namespace Reading

variable {f : Frame} {frames : List Frame} {root : Option Element}

theorem readOn?_text {text : List Char} (noOpening : '<' ∉ text) (noClosing : '>' ∉ text)
    (rest : List Char) :
    readOn? ⟨f :: frames, root⟩ (text ++ rest) =
      readOn? ⟨{ f with text := f.text ++ text } :: frames, root⟩ rest := by
  have hchars : (text.map Token.char).foldlM next? ⟨f :: frames, root⟩ =
      some ⟨{ f with text := f.text ++ text } :: frames, root⟩ := by
    clear noOpening
    induction text generalizing f with
    | nil => simp
    | cons c text ih =>
        obtain ⟨hc, htext⟩ := not_or.mp (mt List.mem_cons.mpr noClosing)
        have hnext : next? ⟨f :: frames, root⟩ (.char c) =
            some ⟨{ f with text := f.text ++ [c] } :: frames, root⟩ := if_neg (Ne.symm hc)
        rw [List.map_cons, List.foldlM_cons, hnext]
        simpa using ih (f := { f with text := f.text ++ [c] }) htext
  rw [readOn?, scan_text noOpening, List.foldlM_append, hchars]
  rfl

theorem readOn?_tag {tag : List Char} (unclosed : '>' ∉ tag) (s : Reading) (rest : List Char) :
    s.readOn? ('<' :: tag ++ '>' :: rest) =
      (s.next? (.tag tag)).bind fun s => s.readOn? rest := by
  rw [readOn?, scan_tag unclosed, List.foldlM_cons]
  rfl

theorem readOn?_opening {name : String} {attributes : List (String × String)}
    (legal : LegalTag name attributes) (s : Reading) (rest : List Char) :
    s.readOn? ('<' :: tagChars name attributes ++ '>' :: rest) =
      readOn? ⟨⟨name, attributes, [], []⟩ :: s.frames, s.root⟩ rest := by
  rw [readOn?_tag (notMem_tagChars legal (.inr rfl)), next?, readTag?_opening legal]
  rfl

theorem readOn?_empty {name : String} {attributes : List (String × String)}
    (legal : LegalTag name attributes) (s : Reading) (rest : List Char) :
    s.readOn? ('<' :: tagChars name attributes ++ " />".toList ++ rest) =
      (s.add? (.leaf name attributes "")).bind fun s => s.readOn? rest := by
  have hclosing : '>' ∉ tagChars name attributes ++ [' ', '/'] := by
    simp [notMem_tagChars legal (.inr rfl)]
  have htag := readOn?_tag hclosing s rest
  rw [next?, readTag?_empty legal] at htag
  simpa using htag

theorem readOn?_closing {name : String} {attributes : List (String × String)}
    (legal : LegalTag name attributes) (named : f.name = name) (rest : List Char) :
    readOn? ⟨f :: frames, root⟩ ('<' :: '/' :: name.toList ++ '>' :: rest) =
      (f.element?.bind fun e => add? ⟨frames, root⟩ e).bind fun s => s.readOn? rest := by
  have hclosing : '>' ∉ '/' :: name.toList := by
    simp [notMem_of_isName legal.name (c := '>') (by decide)]
  have htag := readOn?_tag hclosing ⟨f :: frames, root⟩ rest
  rw [next?, readTag?_closing legal] at htag
  simpa [named] using htag

theorem isSpace_newLine (level : Nat) : (newLine level).all Json.isSpace = true := by
  simp [newLine, Json.isSpace]

theorem notMem_newLine (level : Nat) {c : Char} (visible : Json.isSpace c = false) :
    c ∉ newLine level := fun member => by
  have hblank := List.all_eq_true.mp (isSpace_newLine level) c member
  rw [visible] at hblank
  cases hblank

/-- Elements on lines of their own are added to the one they are in; the line breaks count as
blanks. -/
theorem readOn?_children {children : List Element}
    (reads : ∀ child ∈ children, ∀ (level : Nat) (s : Reading) (rest : List Char),
      s.readOn? (child.chars level ++ rest) =
        (s.add? child.normal).bind fun s => s.readOn? rest)
    (level : Nat) (rest : List Char) :
    ∃ blanks : List Char, blanks.all Json.isSpace ∧
      readOn? ⟨f :: frames, root⟩ (childrenChars level children ++ rest) =
        readOn? ⟨{ f with
          text := f.text ++ blanks
          children := f.children ++ children.map Element.normal } :: frames, root⟩ rest := by
  induction children generalizing f with
  | nil => exact ⟨[], rfl, by simp [childrenChars]⟩
  | cons child children ih =>
      obtain ⟨hchild, hchildren⟩ := List.forall_mem_cons.mp reads
      obtain ⟨blanks, hblanks, hrest⟩ := ih (f := { f with
        text := f.text ++ newLine level
        children := f.children ++ [child.normal] }) hchildren
      refine ⟨newLine level ++ blanks, ?_, ?_⟩
      · rw [List.all_append, isSpace_newLine, hblanks, Bool.and_self]
      · rw [childrenChars, List.append_assoc, List.append_assoc,
          readOn?_text (notMem_newLine level (by decide)) (notMem_newLine level (by decide)),
          hchild]
        simpa [add?] using hrest

end Reading

open Xml.Reading

section

variable (name : String) (attributes : List (String × String)) (level : Nat) (rest : List Char)

theorem chars_text {text : String} (filled : text.isEmpty = false) :
    (Element.leaf name attributes text).chars level ++ rest =
      '<' :: tagChars name attributes ++ '>' :: (escapeText text ++
        ('<' :: '/' :: name.toList ++ '>' :: rest)) := by
  simp [Element.chars, filled]

theorem chars_children (child : Element) (children : List Element) :
    (Element.branch name attributes (child :: children)).chars level ++ rest =
      '<' :: tagChars name attributes ++ '>' ::
        (childrenChars (level + 1) (child :: children) ++
          (newLine level ++ ('<' :: '/' :: name.toList ++ '>' :: rest))) := by
  simp [Element.chars]

end

/-- An element with legal names is read back and added to what it is in. -/
theorem readOn?_chars {e : Element} (legal : e.Legal) (level : Nat) (s : Reading)
    (rest : List Char) :
    s.readOn? (e.chars level ++ rest) = (s.add? e.normal).bind fun s => s.readOn? rest := by
  induction legal generalizing level s rest with
  | @leaf name attributes text tag =>
      cases hempty : text.isEmpty with
      | true =>
          obtain rfl := String.isEmpty_iff.mp hempty
          exact readOn?_empty tag s rest
      | false =>
          have hopens : '<' ∉ escapeText text := not_opens_escaped written_text text.toList
          have hcloses : '>' ∉ escapeText text := not_closes_escaped written_text text.toList
          have htext : unescape? (escapeText text) = some text.toList :=
            unescape?_escaped written_text text.toList
          rw [chars_text name attributes level rest hempty, readOn?_opening tag,
            readOn?_text hopens hcloses, readOn?_closing tag rfl]
          simp [Frame.element?, htext, Element.normal]
  | @branch name attributes children tag _ ih =>
      cases children with
      | nil => exact readOn?_empty tag s rest
      | cons child children =>
          obtain ⟨blanks, hblanks, hchildren⟩ :=
            @readOn?_children ⟨name, attributes, [], []⟩ s.frames s.root _ ih (level + 1)
              (newLine level ++ ('<' :: '/' :: name.toList ++ '>' :: rest))
          rw [chars_children, readOn?_opening tag, hchildren,
            readOn?_text (notMem_newLine level (by decide)) (notMem_newLine level (by decide)),
            readOn?_closing tag rfl]
          have hspace : (blanks ++ newLine level).all Json.isSpace = true := by
            rw [List.all_append, hblanks, isSpace_newLine, Bool.and_self]
          simp [Frame.element?, hspace, Element.normal, normalAll_eq]

theorem toList_prolog : prolog.toList = '<' :: declaration ++ ['>', '\n'] := by decide +kernel

theorem toList_document (root : Element) :
    (document root).toList = '<' :: declaration ++ '>' :: ('\n' :: (root.chars 0 ++ ['\n'])) := by
  have hend : "\n".toList = ['\n'] := by decide
  rw [document, String.toList_append, String.toList_append, toList_prolog, String.toList_ofList,
    hend]
  simp only [List.cons_append, List.append_assoc, List.nil_append]

/-- An element with legal names is read back from its document. -/
theorem read?_document {root : Element} (legal : root.Legal) :
    read? (document root) = some root.normal := by
  have hread := readOn?_chars legal 0 {} ['\n']
  rw [read?, toList_document, scan_tag (by decide +kernel)]
  simp only [if_true]
  change (readOn? {} ('\n' :: (root.chars 0 ++ ['\n']))).bind _ = _
  have hblank : readOn? {} ('\n' :: (root.chars 0 ++ ['\n'])) =
      readOn? {} (root.chars 0 ++ ['\n']) := rfl
  rw [hblank, hread]
  rfl

namespace Element

def name : Element → String
  | .leaf name _ _ | .branch name _ _ => name

def attributes : Element → List (String × String)
  | .leaf _ attributes _ | .branch _ attributes _ => attributes

def attribute? (key : String) (e : Element) : Option String := e.attributes.lookup key

def text : Element → String
  | .leaf _ _ text => text
  | .branch _ _ _ => ""

def children : Element → List Element
  | .leaf _ _ _ => []
  | .branch _ _ children => children

/-- The children with a name. -/
def named (name : String) (e : Element) : List Element := e.children.filter (·.name = name)

@[simp] theorem name_normal (e : Element) : e.normal.name = e.name := by
  fun_cases normal e <;> rfl

@[simp] theorem attributes_normal (e : Element) : e.normal.attributes = e.attributes := by
  fun_cases normal e <;> rfl

@[simp] theorem attribute?_normal (key : String) (e : Element) :
    e.normal.attribute? key = e.attribute? key := by
  rw [attribute?, attribute?, attributes_normal]

@[simp] theorem text_normal (e : Element) : e.normal.text = e.text := by
  fun_cases normal e <;> rfl

@[simp] theorem children_normal (e : Element) : e.normal.children = e.children.map normal := by
  fun_cases normal e with
  | case1 => rfl
  | case2 => rfl
  | case3 => simp [children, normalAll_eq]

@[simp] theorem named_normal (name : String) (e : Element) :
    e.normal.named name = (e.named name).map normal := by
  rw [named, children_normal, named, List.filter_map]
  congr 2
  exact funext fun child => by simp

end Element

end BrowserSteps.Report.Xml
