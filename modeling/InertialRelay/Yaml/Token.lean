import InertialRelay.Yaml.Property

/-!
# Tokens of a document

Indentation shows as tokens that open and close blocks. Whether a node is a key is known only at the
colon after it, so the place of every node that may be a key is remembered until then; such a key
has to be on one line and no longer than 1024 characters. A token is handed out as soon as nothing
behind it can put another one before it, and no earlier; the text is not read further than that.
-/

namespace InertialRelay.Yaml

inductive Token where
  | directive (d : Directive)
  | documentStart
  | documentEnd
  | blockSequenceStart
  | blockMappingStart
  | blockEnd
  | flowSequenceStart
  | flowSequenceEnd
  | flowMappingStart
  | flowMappingEnd
  | blockEntry
  | flowEntry
  | key
  | value
  | alias (name : String)
  | anchor (name : String)
  | tag (t : TagText)
  | scalar (text : String) (plain : Bool)
  deriving Repr, DecidableEq

/-- A node that may turn out to be a key. -/
structure KeyPlace where
  /-- The number of tokens before the node. -/
  position : Nat
  /-- Whether nothing but a key can stand there. -/
  required : Bool
  /-- The number of characters from the node on. -/
  left : Nat
  line : Nat
  column : Nat
  deriving Repr, DecidableEq

/-- The place in the text, the tokens that wait there, and what decides about the next one. -/
structure Scanner where
  cursor : Cursor
  /-- The tokens that were scanned and not yet taken. -/
  waiting : List Token := []
  /-- The number of tokens that were taken. -/
  taken : Nat := 0
  /-- Whether the text was scanned to its end. -/
  ended : Bool := false
  /-- The number of flow collections that are open. -/
  flow : Nat := 0
  /-- The column of the current block, and those of the blocks around it. -/
  indent : Int := -1
  indents : List Int := []
  allowKey : Bool := true
  /-- The latest place for a key in each open flow collection. -/
  keys : List (Nat × KeyPlace) := []
  deriving Repr

namespace Scanner

def inFlow (s : Scanner) : Bool := s.flow != 0

def push (s : Scanner) (t : Token) : Scanner := { s with waiting := s.waiting ++ [t] }

/-- Inserts a token before the one at a position, which was not taken yet. -/
def insert (s : Scanner) (position : Nat) (t : Token) : Scanner :=
  let n := position - s.taken
  { s with waiting := s.waiting.take n ++ t :: s.waiting.drop n }

/-- Forgets the place for a key in the current collection. -/
def dropKey (s : Scanner) : Except Fault Scanner :=
  match s.keys.lookup s.flow with
  | some k =>
    if k.required then .error .badDocument
    else .ok { s with keys := s.keys.filter (·.1 != s.flow) }
  | none => .ok s

/-- Remembers that a key may start here. -/
def markKey (s : Scanner) : Except Fault Scanner :=
  if s.allowKey then do
    let required := !s.inFlow && s.indent == s.cursor.column
    let s ← s.dropKey
    let place : KeyPlace := ⟨s.taken + s.waiting.length, required, s.cursor.left, s.cursor.line,
      s.cursor.column⟩
    return { s with keys := (s.flow, place) :: s.keys }
  else .ok s

/-- Forgets places that are on a line before, or too far back. -/
def dropStaleKeys (s : Scanner) : Except Fault Scanner :=
  let stale (k : KeyPlace) : Bool :=
    k.line != s.cursor.line || 1024 < k.left - s.cursor.left
  if s.keys.any fun (_, k) => stale k && k.required then .error .badDocument
  else .ok { s with keys := s.keys.filter fun (_, k) => !stale k }

/-- Closes the blocks that are indented further than `column`; the bound is the number of blocks. -/
def unwindTo (column : Int) : Nat → Scanner → Scanner
  | 0, s => s
  | n + 1, s =>
    if column < s.indent then
      unwindTo column n
        { s.push .blockEnd with indent := s.indents.headD (-1), indents := s.indents.drop 1 }
    else s

def unwind (s : Scanner) (column : Int) : Scanner :=
  if s.inFlow then s else unwindTo column (s.indents.length + 1) s

/-- Opens a block at a column, unless the current one is there already. -/
def indentTo? (s : Scanner) (column : Nat) : Option Scanner :=
  if s.indent < column then
    some { s with indents := s.indent :: s.indents, indent := column }
  else none

/-- Goes on to the next token, past blanks and comments. A new line may start with a key. -/
def toNext : Nat → Scanner → Scanner
  | 0, s => s
  | fuel + 1, s =>
    let c := s.cursor.skip (· == ' ')
    let c := if c.peek == some '#' then c.skip (!isBreak ·) else c
    match c.lineBreak? with
    | some (_, c) =>
      toNext fuel { s with cursor := c, allowKey := s.allowKey || !s.inFlow }
    | none => { s with cursor := c }

/-- Takes `n` characters as one token. -/
def take (s : Scanner) (n : Nat) (t : Token) : Scanner :=
  { s.push t with cursor := s.cursor.advanceBy n }

/-- Ends all blocks before a mark or the end of the text. -/
def endBlocks (s : Scanner) : Except Fault Scanner := do
  let s ← (s.unwind (-1)).dropKey
  return { s with allowKey := false }

def openFlow (s : Scanner) (t : Token) : Except Fault Scanner := do
  let s ← s.markKey
  return { s.take 1 t with flow := s.flow + 1, allowKey := true }

def closeFlow (s : Scanner) (t : Token) : Except Fault Scanner := do
  if s.flow == 0 then throw .badDocument
  let s ← s.dropKey
  return { s.take 1 t with flow := s.flow - 1, allowKey := false }

/-- A dash or a question mark at the start of an entry. -/
def entry (s : Scanner) (start t : Token) (allowKey : Bool) : Except Fault Scanner := do
  let s ←
    if s.inFlow then pure s
    else if !s.allowKey then throw .badDocument
    else
      match s.indentTo? s.cursor.column with
      | some s => pure (s.push start)
      | none => pure s
  let s ← { s with allowKey }.dropKey
  return s.take 1 t

/-- A colon: the key it belongs to was scanned before, or is empty. -/
def colon (s : Scanner) : Except Fault Scanner := do
  match s.keys.lookup s.flow with
  | some k =>
    let s := { s with keys := s.keys.filter (·.1 != s.flow) }.insert k.position .key
    let s :=
      if s.inFlow then s
      else
        match s.indentTo? k.column with
        | some s => s.insert k.position .blockMappingStart
        | none => s
    return { s with allowKey := false }.take 1 .value
  | none => s.entry .blockMappingStart .value (!s.inFlow)

/-- The name of an anchor or of what refers to one. -/
def name (s : Scanner) (t : String → Token) : Except Fault Scanner := do
  let s ← s.markKey
  let (word, c) := s.cursor.advance.span Property.isWordChar
  if word.isEmpty then throw .badDocument
  let ends := endsWord c.peek ||
    c.peek.any fun ch => "?:,]\x7d%@`".toList.contains ch
  if !ends then throw .badDocument
  return { s.push (t (String.ofList word)) with cursor := c, allowKey := false }

/-- A tag before a node. -/
def tag (s : Scanner) : Except Fault Scanner := do
  let s ← s.markKey
  let (t, c) ← Property.tag s.cursor
  return { s.push (.tag t) with cursor := c, allowKey := false }

/-- A line with a percent sign in front. -/
def directive (s : Scanner) : Except Fault Scanner := do
  let s ← s.endBlocks
  let (d, c) ← Property.directive s.cursor.advance
  return { s.push (.directive d) with cursor := c }

def quotedScalar (s : Scanner) (double : Bool) : Except Fault Scanner := do
  let s ← s.markKey
  let c := s.cursor.advance
  let (text, c) ← Scalar.quoted double (c.left + 1) c []
  return { s.push (.scalar (String.ofList text) false) with cursor := c, allowKey := false }

def blockScalar (s : Scanner) (folded : Bool) : Except Fault Scanner := do
  let s ← { s with allowKey := true }.dropKey
  let (text, c) ← Scalar.block folded s.indent s.cursor.advance
  return { s.push (.scalar (String.ofList text) false) with cursor := c }

def plainScalar (s : Scanner) : Except Fault Scanner := do
  let s ← s.markKey
  let (text, broken, c) :=
    Scalar.plain s.inFlow (s.indent + 1) (s.cursor.left + 1) s.cursor [] [] false
  return { s.push (.scalar (String.ofList text) true) with cursor := c, allowKey := broken }

/-- Whether a plain scalar may start with `ch` before `next`. -/
def startsPlain (inFlow : Bool) (ch : Char) (next : Option Char) : Bool :=
  let special := "-?:,[]\x7b\x7d#&*!|>'\"%@`".toList.contains ch
  !(special || isBlank ch || isBreak ch) ||
    (!endsWord next && (ch == '-' || (!inFlow && (ch == '?' || ch == ':'))))

/-- Scans the next token of a text that does not end here. -/
def token (s : Scanner) (ch : Char) : Except Fault Scanner :=
  let c := s.cursor
  let next := c.peekAt 1
  if ch == '%' && c.column == 0 then s.directive
  else if c.column == 0 && c.isMark "---" then return (← s.endBlocks).take 3 .documentStart
  else if c.column == 0 && c.isMark "..." then return (← s.endBlocks).take 3 .documentEnd
  else if ch == '[' then s.openFlow .flowSequenceStart
  else if ch == '\x7b' then s.openFlow .flowMappingStart
  else if ch == ']' then s.closeFlow .flowSequenceEnd
  else if ch == '\x7d' then s.closeFlow .flowMappingEnd
  else if ch == ',' then return (← { s with allowKey := true }.dropKey).take 1 .flowEntry
  else if ch == '-' && endsWord next then s.entry .blockSequenceStart .blockEntry true
  else if ch == '?' && (s.inFlow || endsWord next) then
    s.entry .blockMappingStart .key (!s.inFlow)
  else if ch == ':' && (s.inFlow || endsWord next) then s.colon
  else if ch == '*' then s.name .alias
  else if ch == '&' then s.name .anchor
  else if ch == '!' then s.tag
  else if (ch == '|' || ch == '>') && !s.inFlow then s.blockScalar (ch == '>')
  else if ch == '\'' || ch == '"' then s.quotedScalar (ch == '"')
  else if startsPlain s.inFlow ch next then s.plainScalar
  else .error .badDocument

/-- Scans one more token, or the end of the text. -/
def step (s : Scanner) : Except Fault Scanner := do
  let s := s.toNext (s.cursor.left + 1)
  let s ← s.dropStaleKeys
  let s := s.unwind s.cursor.column
  match s.cursor.peek with
  | none => return { ← s.endBlocks with ended := true }
  | some ch => s.token ch

/-- Whether the first waiting token may still turn out to be a key. -/
def isOpen (s : Scanner) : Bool := s.keys.any fun (_, k) => k.position == s.taken

/-- Scans until the first waiting token is settled. Every step but the last takes a character, so a
fuel of two more than there are characters does not run out. -/
def settle : Nat → Scanner → Except Fault Scanner
  | 0, _ => .error .badDocument
  | fuel + 1, s => do
    if s.ended then return s
    else if s.waiting.isEmpty then settle fuel (← s.step)
    else
      let s ← s.dropStaleKeys
      if s.isOpen then settle fuel (← s.step) else return s

/-- The next token, if there is one, and the scanner at it. -/
def next (s : Scanner) : Except Fault (Option Token × Scanner) := do
  let s ← s.settle (s.cursor.left + 2)
  return (s.waiting.head?, s)

/-- The scanner after the next token. -/
def skip (s : Scanner) : Scanner := { s with waiting := s.waiting.drop 1, taken := s.taken + 1 }

/-- The scanner at the start of a text. -/
def ofText? (s : List Char) : Except Fault Scanner :=
  if !s.all isAllowed then .error .badDocument
  else .ok { cursor := { rest := if s.head? == some '\ufeff' then s.drop 1 else s } }

end Scanner

end InertialRelay.Yaml
