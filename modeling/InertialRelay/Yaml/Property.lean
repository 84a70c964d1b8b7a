import InertialRelay.Text.Numeral
import InertialRelay.Yaml.Scalar

/-!
# Tags and directives

A tag tells the type of a node. It is written in two parts, and the first may be a short handle; a
directive in front of the document tells what a handle stands for.
-/

namespace InertialRelay.Yaml

/-- A tag as it is written: the handle of its first part, if it has one, and the rest. -/
structure TagText where
  handle : Option String
  rest : String
  deriving Repr, DecidableEq

/-- What a line with a percent sign says about the document after it. -/
inductive Directive where
  | version (major : Nat)
  | tag (handle start : String)
  | other
  deriving Repr, DecidableEq

namespace Property

def isWordChar (c : Char) : Bool := c.isAlphanum || c == '-' || c == '_'

/-- Whether a character ends a line of directives or a tag: a blank, a break, or the end. -/
def endsPart (c : Option Char) : Bool := c.all fun c => c == ' ' || isBreak c

/-- A handle: an exclamation mark, or a word between two. -/
def handle (c : Cursor) : Except Fault (String × Cursor) := do
  if c.peek != some '!' then throw .badDocument
  if c.peekAt 1 == some ' ' then return ("!", c.advance)
  let (word, c) := c.advance.span isWordChar
  if c.peek != some '!' then throw .badDocument
  return ("!" ++ String.ofList word ++ "!", c.advance)

/-- Whether a character stands for itself in a tag. -/
def isTagChar (c : Char) : Bool := isWordChar c || ";/?:@&=+$,.!~*'()[]".toList.contains c

/-- The bytes that escapes of two digits after a percent sign write. -/
def bytes : Nat → Cursor → List UInt8 → Except Fault (List UInt8 × Cursor)
  | 0, c, found => .ok (found, c)
  | fuel + 1, c, found =>
    if c.peek == some '%' then do
      let b ← Scalar.code 2 c.advance.rest
      bytes fuel (c.advanceBy 3) (found ++ [b.toUInt8])
    else .ok (found, c)

/-- The longer part of a tag; it may hold escapes. -/
def uri : Nat → Cursor → String → Except Fault (String × Cursor)
  | 0, c, found => .ok (found, c)
  | fuel + 1, c, found => do
    let (run, c) := c.span isTagChar
    let found := found ++ String.ofList run
    if c.peek == some '%' then
      let (bs, c) ← bytes c.left c []
      match String.fromUTF8? ⟨bs.toArray⟩ with
      | some text => uri fuel c (found ++ text)
      | none => throw .badDocument
    else if found.isEmpty then throw .badDocument
    else return (found, c)

/-- A tag from its exclamation mark on. -/
def tag (c : Cursor) : Except Fault (TagText × Cursor) := do
  let next := c.peekAt 1
  let (t, c) ←
    if next == some '<' then do
      let (rest, c) ← uri (c.left + 1) (c.advanceBy 2) ""
      if c.peek != some '>' then throw .badDocument
      pure (⟨none, rest⟩, c.advance)
    else if endsWord next then pure (⟨none, "!"⟩, c.advance)
    else do
      let word := (c.rest.drop 1).takeWhile fun ch => !(ch == ' ' || isBreak ch)
      let (handle, c) ← if word.contains '!' then handle c else pure ("!", c.advance)
      let (rest, c) ← uri (c.left + 1) c ""
      pure (⟨some handle, rest⟩, c)
  if !endsPart c.peek then throw .badDocument
  return (t, c)

/-- The number of a version, up to what ends it. -/
def number (c : Cursor) : Except Fault (Nat × Cursor) := do
  let (digits, c) := c.span Char.isDigit
  if digits.isEmpty then throw .badDocument
  return (Text.Numeral.ofDigits 10 digits, c)

/-- What follows the name of a directive. -/
def directiveValue (name : String) (c : Cursor) : Except Fault (Directive × Cursor) := do
  if name == "YAML" then
    let (major, c) ← number (c.skip (· == ' '))
    if c.peek != some '.' then throw .badDocument
    let (_, c) ← number c.advance
    if !endsPart c.peek then throw .badDocument
    return (.version major, c)
  else if name == "TAG" then
    let (h, c) ← handle (c.skip (· == ' '))
    if c.peek != some ' ' then throw .badDocument
    let c := c.skip (· == ' ')
    let (start, c) ← uri (c.left + 1) c ""
    if !endsPart c.peek then throw .badDocument
    return (.tag h start, c)
  else return (.other, c.skip (!isBreak ·))

/-- A directive from its name on, to the end of its line. -/
def directive (c : Cursor) : Except Fault (Directive × Cursor) := do
  let (name, c) := c.span isWordChar
  if name.isEmpty || !endsPart c.peek then throw .badDocument
  let (d, c) ← directiveValue (String.ofList name) c
  let c := c.skip (· == ' ')
  let c := if c.peek == some '#' then c.skip (!isBreak ·) else c
  match c.peek, c.lineBreak? with
  | none, _ => return (d, c)
  | _, some (_, c) => return (d, c)
  | _, none => throw .badDocument

end Property

end InertialRelay.Yaml
