import InertialRelay.Yaml.Token

/-!
# Nodes of a document

The tree that the tokens of a document write. Where a node may be left out, an empty plain scalar
stands for it. A node may have a name, and be referred to by it from then on, also from inside. A
token is asked for only when what to do depends on it, so that of two things that are wrong with a
text the first one stops the reading. `fuel` bounds the depth and the length of collections by the
length of the text.
-/

namespace InertialRelay.Yaml

inductive Node where
  | scalar (tag : Option String) (text : String) (plain : Bool)
  /-- A collection has a number of its own. -/
  | sequence (id : Nat) (tag : Option String) (items : List Node)
  | mapping (id : Nat) (tag : Option String) (entries : List (Node × Node))
  /-- The node with a name. -/
  | alias (name : String)
  deriving Repr, Inhabited

/-- A tree, the parts of it that have names, and the number of collections. -/
structure Document where
  root : Node
  named : List (String × Node)
  size : Nat
  deriving Repr, Inhabited

/-- The node that a node refers to, or itself. -/
def Document.resolve (d : Document) (n : Node) : Node :=
  match n with
  | .alias name => (d.named.lookup name).getD n
  | n => n

namespace Node

/-- The node that stands for one that is left out. -/
def empty : Node := .scalar none "" true

/-- What is left of the text, and what was said so far. -/
structure Source where
  scanner : Scanner
  /-- What the handles of tags stand for. -/
  handles : List (String × String)
  /-- The names given so far, and the nodes that have them and are complete. -/
  names : List String := []
  named : List (String × Node) := []
  /-- The number of collections so far. -/
  count : Nat := 0

abbrev Reader := StateT Source (Except Fault)

def fail {α : Type} : Reader α := throw .badDocument

def peek : Reader (Option Token) := do
  let (t, scanner) ← (← get).scanner.next
  modify fun s => { s with scanner }
  return t

def skip : Reader Unit := modify fun s => { s with scanner := s.scanner.skip }

/-- A number for a collection. -/
def fresh : Reader Nat := modifyGet fun s => (s.count, { s with count := s.count + 1 })

/-- Whether the next token is one of those given; the end of the tokens is none of them. -/
def nextIn (ts : List Token) : Reader Bool := do
  match ← peek with
  | some t => return ts.contains t
  | none => return false

/-- Takes a token that has to come next. -/
def expect (t : Token) : Reader Unit := do
  if ← nextIn [t] then skip else fail

/-- What stands before a node. -/
structure Properties where
  anchor : Option String := none
  tag : Option String := none

/-- A tag in full. -/
def fullTag (t : TagText) : Reader String := do
  match t.handle with
  | none => return t.rest
  | some h =>
    match (← get).handles.lookup h with
    | some start => return start ++ t.rest
    | none => fail

/-- An anchor and a tag, in either order. -/
def properties : Reader Properties := do
  match ← peek with
  | some (.anchor a) =>
    skip
    match ← peek with
    | some (.tag t) => skip; return { anchor := some a, tag := some (← fullTag t) }
    | _ => return { anchor := some a }
  | some (.tag t) =>
    skip
    match ← peek with
    | some (.anchor a) => skip; return { anchor := some a, tag := some (← fullTag t) }
    | _ => return { tag := some (← fullTag t) }
  | _ => return {}

/-- Gives a name to the node that follows; a document uses a name once. -/
def announce (anchor : Option String) : Reader Unit := do
  match anchor with
  | none => return ()
  | some a =>
    if (← get).names.contains a then fail
    else modify fun s => { s with names := a :: s.names }

/-- Keeps a node under its name. -/
def keep (anchor : Option String) (n : Node) : Reader Node := do
  if let some a := anchor then modify fun s => { s with named := (a, n) :: s.named }
  return n

/-- Where a node stands. -/
inductive Place where
  /-- In a block. -/
  | block
  /-- The value or key of a block mapping, where a sequence need not be indented further. -/
  | blockOrSequence
  | flow
  deriving DecidableEq

mutual

def node (place : Place) : Nat → Reader Node
  | 0 => fail
  | fuel + 1 => do
    match ← peek with
    | some (.alias name) =>
      skip
      if (← get).names.contains name then return .alias name else fail
    | _ =>
      let p ← properties
      let _ ← peek
      announce p.anchor
      keep p.anchor (← content place p fuel)

def content (place : Place) (p : Properties) : Nat → Reader Node
  | 0 => fail
  | fuel + 1 => do
    match ← peek with
    | some .blockEntry =>
      if place = .blockOrSequence then
        return .sequence (← fresh) p.tag (← looseEntries fuel)
      else absent p
    | some (.scalar text plain) => skip; return .scalar p.tag text plain
    | some .flowSequenceStart =>
      skip; return .sequence (← fresh) p.tag (← flowItems true fuel)
    | some .flowMappingStart =>
      skip; return .mapping (← fresh) p.tag (← flowEntries true fuel)
    | some .blockSequenceStart =>
      if place = .flow then absent p
      else skip; return .sequence (← fresh) p.tag (← blockItems fuel)
    | some .blockMappingStart =>
      if place = .flow then absent p
      else skip; return .mapping (← fresh) p.tag (← blockEntries fuel)
    | _ => absent p

/-- A node that is left out but has a name or a tag. -/
def absent (p : Properties) : Reader Node :=
  if p.anchor.isSome || p.tag.isSome then return .scalar p.tag "" p.tag.isNone else fail

/-- A node, or an empty one before one of the given tokens. -/
def optional (place : Place) (stops : List Token) : Nat → Reader Node
  | 0 => fail
  | fuel + 1 => do
    if ← nextIn stops then return empty else node place fuel

def blockItems : Nat → Reader (List Node)
  | 0 => fail
  | fuel + 1 => do
    if ← nextIn [.blockEntry] then
      skip
      let item ← optional .block [.blockEntry, .blockEnd] fuel
      return item :: (← blockItems fuel)
    else
      expect .blockEnd
      return []

/-- The items of a sequence that is not indented; it ends before any other token. -/
def looseEntries : Nat → Reader (List Node)
  | 0 => fail
  | fuel + 1 => do
    if ← nextIn [.blockEntry] then
      skip
      let item ← optional .block [.blockEntry, .key, .value, .blockEnd] fuel
      return item :: (← looseEntries fuel)
    else return []

/-- The value after a key, empty without a colon. -/
def valueOf (place : Place) (stops : List Token) : Nat → Reader Node
  | 0 => fail
  | fuel + 1 => do
    if ← nextIn [.value] then
      skip
      optional place stops fuel
    else return empty

def blockEntries : Nat → Reader (List (Node × Node))
  | 0 => fail
  | fuel + 1 => do
    let stops := [.key, .value, .blockEnd]
    if ← nextIn [.key] then
      skip
      let k ← optional .blockOrSequence stops fuel
      let v ← valueOf .blockOrSequence stops fuel
      return (k, v) :: (← blockEntries fuel)
    else
      expect .blockEnd
      return []

def flowItems (first : Bool) : Nat → Reader (List Node)
  | 0 => fail
  | fuel + 1 => do
    if ← nextIn [.flowSequenceEnd] then
      skip
      return []
    else
      if !first then expect .flowEntry
      if ← nextIn [.flowSequenceEnd] then
        skip
        return []
      else if ← nextIn [.key] then
        skip
        let k ← optional .flow [.value, .flowEntry, .flowSequenceEnd] fuel
        let v ← valueOf .flow [.flowEntry, .flowSequenceEnd] fuel
        return .mapping (← fresh) none [(k, v)] :: (← flowItems false fuel)
      else
        let item ← node .flow fuel
        return item :: (← flowItems false fuel)

def flowEntries (first : Bool) : Nat → Reader (List (Node × Node))
  | 0 => fail
  | fuel + 1 => do
    if ← nextIn [.flowMappingEnd] then
      skip
      return []
    else
      if !first then expect .flowEntry
      if ← nextIn [.flowMappingEnd] then
        skip
        return []
      else if ← nextIn [.key] then
        skip
        let k ← optional .flow [.value, .flowEntry, .flowMappingEnd] fuel
        let v ← valueOf .flow [.flowEntry, .flowMappingEnd] fuel
        return (k, v) :: (← flowEntries false fuel)
      else
        let k ← node .flow fuel
        return (k, empty) :: (← flowEntries false fuel)

end

/-- Takes the marks that end documents. -/
def skipEnds : Nat → Reader Unit
  | 0 => return ()
  | fuel + 1 => do
    if ← nextIn [.documentEnd] then
      skip
      skipEnds fuel

/-- What the handles of tags stand for if nothing is said about them. -/
def standardHandles : List (String × String) := [("!", "!"), ("!!", "tag:yaml.org,2002:")]

/-- Reads directives. A version is given once, and has to be a first one; so has a handle. -/
def directives (version : Bool) (handles : List (String × String)) : Nat → Reader Unit
  | 0 => fail
  | fuel + 1 => do
    match ← peek with
    | some (.directive d) =>
      skip
      match d with
      | .version major =>
        if version || major != 1 then fail else directives true handles fuel
      | .tag h start =>
        if (handles.lookup h).isSome then fail
        else directives version ((h, start) :: handles) fuel
      | .other => directives version handles fuel
    | _ => modify fun s => { s with handles := handles ++ standardHandles }

/-- The only tree of a stream, or nothing if the stream is empty. -/
def stream (fuel : Nat) : Reader (Option Node) := do
  let isExplicit : Option Token → Bool
    | some (.directive _) | some .documentStart => true
    | _ => false
  let start ← peek
  if start.isNone then return none
  if isExplicit start then
    directives false [] fuel
    expect .documentStart
  let next ← peek
  let n ←
    if isExplicit start && (next.isNone || isExplicit next || next == some .documentEnd) then
      pure empty
    else node .block fuel
  skipEnds fuel
  if (← peek).isSome then
    directives false [] fuel
    fail
  return some n

end Node

/-- The only document of a text, or nothing if the text is empty. -/
def Document.ofText? (s : List Char) : Except Fault (Option Document) := do
  let scanner ← Scanner.ofText? s
  let source : Node.Source := { scanner, handles := Node.standardHandles }
  let (n, source) ← (Node.stream (16 * (s.length + 1))).run source
  return n.map fun root => ⟨root, source.named, source.count⟩

end InertialRelay.Yaml
