import BrowserSteps.Yaml.Node
import BrowserSteps.Yaml.Token.Lexer

/-!
From tokens to nodes. A problem of the tokens shows when the token behind it is asked for,
so that an earlier problem of the nodes comes first.
-/

namespace BrowserSteps.Yaml

/-- What is left of the tokens, and what has been said in front of them. -/
structure Feed where
  tokens : List Token
  /-- What is wrong behind the last token. -/
  fault : Option Fault := none
  version : Version := .current
  /-- The meanings of tag handles. -/
  handles : List (String × String) := []
  /-- The numbers of anchored nodes by the names of their anchors, latest first, and whether they are
  mappings. -/
  anchors : List (String × Nat × Bool) := []
  /-- Anchored nodes by their numbers, once they are complete. -/
  nodes : List (Nat × Node) := []
  /-- How many nodes have been anchored. -/
  anchored : Nat := 0

abbrev Feed.Read (α : Type) := StateT Feed (Except Fault) α

namespace Feed

/-- The next token, which stays. -/
def peek : Read Token := do
  let feed ← get
  match feed.tokens with
  | token :: _ => return token
  | [] => throw (feed.fault.getD (.form .noContent {}))

def drop : Read Unit := modify fun feed => { feed with tokens := feed.tokens.tail }

/-- The next token. -/
def take : Read Token := do
  let token ← peek
  drop
  return token

/-- The next token, if it is of a kind. -/
def accept (kind : TokenKind) : Read Bool := do
  if (← peek).kind = kind then
    drop
    return true
  else return false

/-- The meanings that tag handles have from the beginning. -/
def standardHandles : List (String × String) := [("!", "!"), ("!!", Tag.standardUri)]

/-- Whether a token ends a document or begins one. -/
def isBoundary : TokenKind → Bool
  | .directive _ | .documentStart | .documentEnd | .streamEnd => true
  | _ => false

/-- Anchor and tag in front of a node. -/
structure Properties where
  anchor : Option String := none
  tag : Option TagName := none
  /-- Where they begin, if there are any. -/
  start : Option Place := none
  tagPlace : Place := {}

/-- Reads an anchor and a tag, in any order. -/
def properties : Read Properties := do
  let first ← peek
  match first.kind with
  | .anchor anchor =>
    drop
    let second ← peek
    match second.kind with
    | .tag tag =>
      drop
      return ⟨some anchor, some tag, some first.start, second.start⟩
    | _ => return ⟨some anchor, none, some first.start, {}⟩
  | .tag tag =>
    drop
    let second ← peek
    match second.kind with
    | .anchor anchor =>
      drop
      return ⟨some anchor, some tag, some second.start, second.start⟩
    | _ => return ⟨none, some tag, some first.start, first.start⟩
  | _ => return {}

/-- The tag that properties name. The mark alone leaves the choice open. -/
def tagOf (p : Properties) : Read (Option Tag) := do
  match p.tag with
  | none => return none
  | some ⟨none, suffix⟩ => return if suffix = "!" then none else some (.ofUri suffix)
  | some ⟨some handle, suffix⟩ =>
    match (← get).handles.lookup handle with
    | some uri => return some (.ofUri (uri ++ suffix))
    | none => throw (.form .undefinedHandle p.tagPlace)

/-- The tag of a plain scalar. Of an unknown version no tags are known. -/
def plainTag (text : String) : Read Tag := do
  let version := (← get).version
  if version = .current || version = .old then return .ofPlain version text
  else throw (.value (.unknownVersion version.major version.minor))

/-- A scalar node without text. -/
def empty (place : Place) : Read Node := return .scalar (← plainTag "") "" place

/-- Starts an anchored node and answers its number. -/
def openAnchor (name : Option String) (isMapping : Bool) : Read (Option Nat) := do
  match name with
  | none => return none
  | some name =>
    let number := (← get).anchored
    modify fun feed =>
      { feed with anchored := number + 1, anchors := (name, number, isMapping) :: feed.anchors }
    return some number

/-- Completes an anchored node. -/
def closeAnchor (number : Option Nat) (node : Node) : Read Node := do
  match number with
  | none => return node
  | some number =>
    modify fun feed => { feed with nodes := (number, node) :: feed.nodes }
    return node

/-- The node that an alias stands for. -/
def aliased (name : String) (place : Place) : Read Node := do
  let feed ← get
  match feed.anchors.lookup name with
  | none => throw (.form .undefinedAlias place)
  | some (number, isMapping) =>
    return (feed.nodes.lookup number).getD (.recursive isMapping place)

/-- What a node may be: a block collection, and one whose entries are not indented. -/
structure Allowed where
  block : Bool := false
  indentless : Bool := false

def inBlock : Allowed := { block := true }

def inMapping : Allowed := { block := true, indentless := true }

mutual

/-- The next node. All bounds here are on the number of tokens to come. -/
def node (allowed : Allowed) : Nat → Read Node
  | 0 => throw (.form .noContent {})
  | bound + 1 => do
    let first ← peek
    match first.kind with
    | .alias name =>
      drop
      aliased name first.start
    | _ =>
      let p ← properties
      let tag ← tagOf p
      content allowed p tag bound

/-- A node behind its properties. -/
def content (allowed : Allowed) (p : Properties) (tag : Option Tag) : Nat → Read Node
  | 0 => throw (.form .noContent {})
  | bound + 1 => do
    let token ← peek
    let place := p.start.getD token.start
    match token.kind with
    | .scalar text plain =>
      drop
      let tag ← match tag with
        | some tag => pure tag
        | none => if plain || p.tag.isSome then plainTag text else pure .str
      closeAnchor (← openAnchor p.anchor false) (.scalar tag text place)
    | .flowSequenceStart =>
      let number ← openAnchor p.anchor false
      drop
      closeAnchor number (.sequence (tag.getD .seq) (← flowItems true bound) place)
    | .flowMappingStart =>
      let number ← openAnchor p.anchor true
      drop
      closeAnchor number (.mapping (tag.getD .map) (← flowPairs true bound) place)
    | .blockEntry =>
      if allowed.indentless then
        let number ← openAnchor p.anchor false
        closeAnchor number (.sequence (tag.getD .seq) (← indentlessItems bound) place)
      else nothing allowed p tag token
    | .blockSequenceStart =>
      if allowed.block then
        let number ← openAnchor p.anchor false
        drop
        closeAnchor number (.sequence (tag.getD .seq) (← blockItems bound) place)
      else nothing allowed p tag token
    | .blockMappingStart =>
      if allowed.block then
        let number ← openAnchor p.anchor true
        drop
        closeAnchor number (.mapping (tag.getD .map) (← blockPairs bound) place)
      else nothing allowed p tag token
    | _ => nothing allowed p tag token

/-- A node of properties alone. -/
def nothing (_ : Allowed) (p : Properties) (tag : Option Tag) (token : Token) : Read Node := do
  match p.start with
  | none => throw (.form .noContent token.start)
  | some place =>
    let tag ← match tag with
      | some tag => pure tag
      | none => plainTag ""
    closeAnchor (← openAnchor p.anchor false) (.scalar tag "" place)

/-- A node, or an empty one if a token of certain kinds comes first. -/
def nodeUnless (stops : TokenKind → Bool) (place : Place) (allowed : Allowed) : Nat → Read Node
  | 0 => throw (.form .noContent {})
  | bound + 1 => do
    if stops (← peek).kind then empty place else node allowed bound

/-- The items of a block sequence, up to its end. -/
def blockItems : Nat → Read (List Node)
  | 0 => throw (.form .noContent {})
  | bound + 1 => do
    let token ← peek
    match token.kind with
    | .blockEntry =>
      drop
      let stops (k : TokenKind) : Bool := k = .blockEntry || k = .blockEnd
      let item ← nodeUnless stops token.stop inBlock bound
      return item :: (← blockItems bound)
    | .blockEnd =>
      drop
      return []
    | _ => throw (.form .noBlockEnd token.start)

/-- The items of a sequence that is not indented. -/
def indentlessItems : Nat → Read (List Node)
  | 0 => throw (.form .noContent {})
  | bound + 1 => do
    let token ← peek
    match token.kind with
    | .blockEntry =>
      drop
      let stops (k : TokenKind) : Bool :=
        k = .blockEntry || k = .key || k = .value || k = .blockEnd
      let item ← nodeUnless stops token.stop inBlock bound
      return item :: (← indentlessItems bound)
    | _ => return []

/-- The value behind a key in a block mapping. -/
def blockValue : Nat → Read Node
  | 0 => throw (.form .noContent {})
  | bound + 1 => do
    let token ← peek
    match token.kind with
    | .value =>
      drop
      let stops (k : TokenKind) : Bool := k = .key || k = .value || k = .blockEnd
      nodeUnless stops token.stop inMapping bound
    | _ => empty token.start

/-- The pairs of a block mapping, up to its end. -/
def blockPairs : Nat → Read (List (Node × Node))
  | 0 => throw (.form .noContent {})
  | bound + 1 => do
    let token ← peek
    match token.kind with
    | .blockEnd =>
      drop
      return []
    | .key =>
      drop
      let stops (k : TokenKind) : Bool := k = .key || k = .value || k = .blockEnd
      let key ← nodeUnless stops token.stop inMapping bound
      let value ← blockValue bound
      return (key, value) :: (← blockPairs bound)
    | .value =>
      if (← get).version.isNew then
        let key ← empty token.start
        let value ← blockValue bound
        return (key, value) :: (← blockPairs bound)
      else throw (.form .noBlockEnd token.start)
    | _ => throw (.form .noBlockEnd token.start)

/-- The items of a flow sequence, up to its end. Commas part them. -/
def flowItems (first : Bool) : Nat → Read (List Node)
  | 0 => throw (.form .noContent {})
  | bound + 1 => do
    let token ← peek
    if token.kind = .flowSequenceEnd then
      drop
      return []
    else
      if !first then
        if !(← accept .flowEntry) then throw (.form .noFlowEnd token.start)
      let token ← peek
      match token.kind with
      | .flowSequenceEnd =>
        drop
        return []
      | .key =>
        let item ← flowPair token.start bound
        return item :: (← flowItems false bound)
      | _ =>
        let item ← node {} bound
        return item :: (← flowItems false bound)

/-- A single pair as an item of a flow sequence. -/
def flowPair (place : Place) : Nat → Read Node
  | 0 => throw (.form .noContent {})
  | bound + 1 => do
    let token ← take
    let stops (k : TokenKind) : Bool := k = .value || k = .flowEntry || k = .flowSequenceEnd
    let key ← nodeUnless stops token.stop {} bound
    let token ← peek
    let value ← match token.kind with
      | .value =>
        drop
        let stops (k : TokenKind) : Bool := k = .flowEntry || k = .flowSequenceEnd
        nodeUnless stops token.stop {} bound
      | _ => empty token.start
    let _ ← peek
    return .mapping .map [(key, value)] place

/-- The value behind a key in a flow mapping. -/
def flowValue : Nat → Read Node
  | 0 => throw (.form .noContent {})
  | bound + 1 => do
    let token ← peek
    match token.kind with
    | .value =>
      drop
      let stops (k : TokenKind) : Bool := k = .flowEntry || k = .flowMappingEnd
      nodeUnless stops token.stop {} bound
    | _ => empty token.start

/-- The pairs of a flow mapping, up to its end. Commas part them. -/
def flowPairs (first : Bool) : Nat → Read (List (Node × Node))
  | 0 => throw (.form .noContent {})
  | bound + 1 => do
    let token ← peek
    if token.kind = .flowMappingEnd then
      drop
      return []
    else
      if !first then
        if !(← accept .flowEntry) then throw (.form .noFlowEnd token.start)
      let token ← peek
      match token.kind with
      | .flowMappingEnd =>
        drop
        return []
      | .key =>
        drop
        let stops (k : TokenKind) : Bool := k = .value || k = .flowEntry || k = .flowMappingEnd
        let key ← nodeUnless stops token.stop {} bound
        let value ← flowValue bound
        return (key, value) :: (← flowPairs false bound)
      | .value =>
        let key ← if (← get).version.isNew then empty token.stop else node {} bound
        let value ← flowValue bound
        return (key, value) :: (← flowPairs false bound)
      | _ =>
        let key ← node {} bound
        let value ← empty (← peek).start
        return (key, value) :: (← flowPairs false bound)

end

/-- Reads the directives in front of a document. -/
def directives : Nat → Bool → Read Unit
  | 0, _ => return
  | bound + 1, versioned => do
    let token ← peek
    match token.kind with
    | .directive (.version v) =>
      drop
      if versioned then throw (.form .repeatedDirective token.start)
      else if v.major ≠ 1 then throw (.form .incompatibleVersion token.start)
      else
        modify fun feed => { feed with version := v }
        directives bound true
    | .directive (.handle handle uri) =>
      drop
      if ((← get).handles.lookup handle).isSome then throw (.form .repeatedDirective token.start)
      else
        modify fun feed => { feed with handles := (handle, uri) :: feed.handles }
        directives bound versioned
    | .directive .unknown =>
      drop
      directives bound versioned
    | _ => return

/-- Goes past marks of ended documents. -/
def skipEnds : Nat → Read Unit
  | 0 => return
  | bound + 1 => do if ← accept .documentEnd then skipEnds bound

/-- Reads what stands in front of the content of a document. Answers where the document
starts and whether it says so, or nothing at the end of the text. -/
def documentStart (implicit : Bool) (bound : Nat) : Read (Option (Place × Bool)) := do
  let first ← peek
  if implicit && !(isBoundary first.kind && first.kind ≠ .documentEnd) then
    return some (first.start, false)
  else
    skipEnds bound
    if (← peek).kind = .streamEnd then return none
    else
      modify fun feed => { feed with handles := [] }
      directives bound false
      let token ← peek
      if token.kind = .documentStart then
        drop
        return some (token.start, true)
      else throw (.form .noDocumentStart token.start)

/-- Reads the end of a document. Answers whether it is marked. -/
def documentEnd : Read Bool := do
  if (← peek).kind = .documentEnd then
    let token ← take
    let after ← peek
    if after.kind ≠ .streamEnd && token.stop.line = after.start.line then
      throw (.form .contentAfterDocumentEnd after.start)
    else return true
  else return false

/-- The node of the only document, and the version by which it is read; none if there is no
document. -/
def document (bound : Nat) : Read (Option (Version × Node)) := do
  match ← documentStart true bound with
  | none => return none
  | some (_, marked) =>
    modify fun feed => { feed with handles := feed.handles ++ standardHandles }
    let first ← peek
    let root ← if marked && isBoundary first.kind then empty first.start else node inBlock bound
    let ended ← documentEnd
    let version := (← get).version
    match ← documentStart (ended && version ≠ .old) bound with
    | none => return some (version, root)
    | some (place, _) => throw (.form .severalDocuments place)

end Feed

/-- Reads the only document of a text. -/
def Node.ofText? (text : List Char) : Except Fault (Option (Version × Node)) :=
  let (tokens, fault) := tokens text
  ((Feed.document (4 * tokens.length + 16)).run { tokens, fault }).map (·.1)

end BrowserSteps.Yaml
