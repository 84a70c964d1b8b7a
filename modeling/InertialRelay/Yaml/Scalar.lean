import InertialRelay.Binary64.Exact
import InertialRelay.Yaml.Cursor

/-!
# Scalars in a document

The text of a scalar, written plainly, in quotes, or as a block. A single break inside a plain or
quoted scalar stands for a blank; of several breaks the first is dropped. Each function takes the
place where the scalar starts and gives back the place after it. `fuel` is the number of characters
that are left, so it never runs out.
-/

namespace InertialRelay.Yaml.Scalar

/-- What a run of breaks stands for. -/
def fold (first : Char) (more : List Char) : List Char :=
  if first != '\n' then first :: more
  else if more.isEmpty then [' ']
  else more

/-! ## Plain scalars -/

/-- Whether a colon before `next` ends a plain scalar. -/
def colonEnds (inFlow : Bool) (next : Option Char) : Bool :=
  endsWord next ||
    (inFlow && match next with
      | some c => c == ',' || c == '[' || c == ']' || c == '\x7b' || c == '\x7d'
      | none => false)

/-- The length of the piece of a plain scalar up to the next blank. -/
def plainLength (inFlow : Bool) : List Char → Nat
  | [] => 0
  | c :: rest =>
    if isBlank c || isBreak c || (c == ':' && colonEnds inFlow rest.head?) ||
        (inFlow && (c == ',' || c == '?' || c == '[' || c == ']' || c == '\x7b' || c == '\x7d'))
    then 0
    else plainLength inFlow rest + 1

/-- The breaks and blanks after a first break; `none` where a mark between documents follows. -/
def plainBreaks : Nat → Cursor → List Char → Option (List Char) × Cursor
  | 0, c, found => (some found, c)
  | fuel + 1, c, found =>
    if c.peek == some ' ' then plainBreaks fuel c.advance found
    else
      match c.lineBreak? with
      | none => (some found, c)
      | some (b, c) => if c.isAnyMark then (none, c) else plainBreaks fuel c (found ++ [b])

/-- What stands between two pieces of a plain scalar, and whether it holds a break; nothing at the
end of the scalar. -/
def plainSpace (c : Cursor) : List Char × Bool × Cursor :=
  let (blanks, c) := c.span (· == ' ')
  match c.lineBreak? with
  | none => (blanks, false, c)
  | some (b, c) =>
    if c.isAnyMark then ([], true, c)
    else
      match plainBreaks c.left c [] with
      | (none, c) => ([], true, c)
      | (some more, c) => (fold b more, true, c)

/-- A plain scalar whose further lines start at column `indent` or later. `space` stands before the
next piece, and `broken` tells whether there is a break in it; the answer tells the same of what
follows the last piece. -/
def plain (inFlow : Bool) (indent : Int) :
    Nat → Cursor → List Char → List Char → Bool → List Char × Bool × Cursor
  | 0, c, found, _, broken => (found, broken, c)
  | fuel + 1, c, found, space, broken =>
    let n := plainLength inFlow c.rest
    if c.peek == some '#' || n == 0 then (found, broken, c)
    else
      let found := found ++ space ++ c.rest.take n
      let (space, broken, c) := plainSpace (c.advanceBy n)
      if space.isEmpty || (!inFlow && (c.column : Int) < indent) then (found, broken, c)
      else plain inFlow indent fuel c found space broken

/-! ## Quoted scalars -/

/-- The character that a letter after a backslash stands for. -/
def escape? : Char → Option Char
  | '0' => some (Char.ofNat 0)
  | 'a' => some (Char.ofNat 0x07)
  | 'b' => some (Char.ofNat 0x08)
  | 't' | '\t' => some '\t'
  | 'n' => some '\n'
  | 'v' => some (Char.ofNat 0x0b)
  | 'f' => some (Char.ofNat 0x0c)
  | 'r' => some '\r'
  | 'e' => some (Char.ofNat 0x1b)
  | ' ' => some ' '
  | '"' => some '"'
  | '\\' => some '\\'
  | '/' => some '/'
  | 'N' => some '\u0085'
  | '_' => some '\u00a0'
  | 'L' => some '\u2028'
  | 'P' => some '\u2029'
  | _ => none

/-- The number of hexadecimal digits after a letter that announces a code point. -/
def codeLength? : Char → Option Nat
  | 'x' => some 2
  | 'u' => some 4
  | 'U' => some 8
  | _ => none

def hexValue? (c : Char) : Option Nat :=
  if c.isDigit then some (c.toNat - 0x30)
  else if 'a' ≤ c && c ≤ 'f' then some (c.toNat - 0x61 + 10)
  else if 'A' ≤ c && c ≤ 'F' then some (c.toNat - 0x41 + 10)
  else none

/-- The number that `n` hexadecimal digits write. -/
def code (n : Nat) (s : List Char) : Except Fault Nat := do
  let digits := s.take n
  if digits.length < n then throw .badDocument
  digits.foldlM (fun code d =>
    match hexValue? d with
    | some v => Except.ok (code * 16 + v)
    | none => Except.error Fault.badDocument) 0

/-- The second half of a character that is written as two codes, and the length of its escape. -/
def secondHalf? : List Char → Option (Nat × Nat)
  | '\\' :: letter :: rest =>
    match codeLength? letter with
    | none => none
    | some n =>
      match code n rest with
      | .ok low => if 0xdc00 ≤ low && low < 0xe000 then some (low, n + 2) else none
      | .error _ => none
  | _ => none

/-- The character that an escape of `n` digits stands for, and the length of what writes it. A half
of a character that stands alone is replaced. -/
def codePoint (n : Nat) (s : List Char) : Except Fault (Char × Nat) := do
  let high ← code n s
  if Binary64.twoTo 31 ≤ high then throw .codeTooLarge
  if 0x110000 ≤ high then throw .noCharacter
  if 0xd800 ≤ high && high < 0xdc00 then
    match secondHalf? (s.drop n) with
    | some (low, m) =>
      return (Char.ofNat (0x10000 + (high - 0xd800) * 0x400 + (low - 0xdc00)), n + m)
    | none => return ('\ufffd', n)
  else if 0xdc00 ≤ high && high < 0xe000 then return ('\ufffd', n)
  else return (Char.ofNat high, n)

/-- The breaks from here on, with the blanks around them. -/
def quotedBreaks : Nat → Cursor → List Char → Except Fault (List Char × Cursor)
  | 0, c, found => .ok (found, c)
  | fuel + 1, c, found =>
    if c.isAnyMark then .error .badDocument
    else
      let c := c.skip isBlank
      match c.lineBreak? with
      | some (b, c) => quotedBreaks fuel c (found ++ [b])
      | none => .ok (found, c)

/-- Whether a character means nothing but itself in every quoted scalar. -/
def isOrdinary (c : Char) : Bool :=
  !(isBlank c || isBreak c || c == '\'' || c == '"' || c == '\\')

/-- The rest of a quoted scalar, after its opening quote. -/
def quoted (double : Bool) : Nat → Cursor → List Char → Except Fault (List Char × Cursor)
  | 0, _, _ => .error .badDocument
  | fuel + 1, c, found =>
    match c.peek with
    | none => .error .badDocument
    | some ch =>
      if isBlank ch || isBreak ch then do
        let (blanks, c) := c.span isBlank
        match c.lineBreak? with
        | none =>
          if c.peek.isNone then throw .badDocument
          quoted double fuel c (found ++ blanks)
        | some (b, c) =>
          let (more, c) ← quotedBreaks c.left c []
          quoted double fuel c (found ++ fold b more)
      else if !double && ch == '\'' then
        if c.peekAt 1 == some '\'' then quoted double fuel (c.advanceBy 2) (found ++ ['\''])
        else .ok (found, c.advance)
      else if double && ch == '"' then .ok (found, c.advance)
      else if double && ch == '\\' then do
        let c := c.advance
        match c.peek with
        | none => throw .badDocument
        | some letter =>
          match escape? letter, codeLength? letter with
          | some e, _ => quoted double fuel c.advance (found ++ [e])
          | none, some n =>
            let (e, m) ← codePoint n c.advance.rest
            quoted double fuel (c.advanceBy (m + 1)) (found ++ [e])
          | none, none =>
            match c.lineBreak? with
            | some (_, c) =>
              let (more, c) ← quotedBreaks c.left c []
              quoted double fuel c (found ++ more)
            | none => throw .badDocument
      else
        let (run, c) := c.advance.span isOrdinary
        quoted double fuel c (found ++ ch :: run)

/-! ## Block scalars -/

/-- What becomes of the breaks at the end of a block. -/
inductive Chomping where
  | strip
  | clip
  | keep
  deriving Repr, DecidableEq

/-- The signs after the mark of a block: how it ends and how far it is indented. -/
def blockHeader (c : Cursor) : Except Fault (Chomping × Option Nat × Cursor) := do
  let sign (c : Cursor) : Chomping × Cursor :=
    match c.peek with
    | some '+' => (.keep, c.advance)
    | some '-' => (.strip, c.advance)
    | _ => (.clip, c)
  let digit (c : Cursor) : Except Fault (Option Nat × Cursor) :=
    match c.peek with
    | some d =>
      if d == '0' then .error .badDocument
      else if d.isDigit then .ok (some (d.toNat - 0x30), c.advance)
      else .ok (none, c)
    | none => .ok (none, c)
  let (chomping, c) := sign c
  let (increment, c) ← digit c
  let (chomping, c) := if chomping = .clip then sign c else (chomping, c)
  if c.peek == some '#' then throw .badDocument
  let c := c.skip (· == ' ')
  let c := if c.peek == some '#' then c.skip (!isBreak ·) else c
  match c.peek, c.lineBreak? with
  | none, _ => return (chomping, increment, c)
  | _, some (_, c) => return (chomping, increment, c)
  | _, none => throw .badDocument

/-- The breaks before the first line of a block, and the deepest column among them. -/
def blockStart : Nat → Cursor → List Char → Nat → List Char × Nat × Cursor
  | 0, c, found, deepest => (found, deepest, c)
  | fuel + 1, c, found, deepest =>
    if c.peek == some ' ' then
      let c := c.advance
      blockStart fuel c found (max deepest c.column)
    else
      match c.lineBreak? with
      | some (b, c) => blockStart fuel c (found ++ [b]) deepest
      | none => (found, deepest, c)

/-- Skips blanks up to a column. -/
def blockIndent (indent : Nat) : Nat → Cursor → Cursor
  | 0, c => c
  | fuel + 1, c =>
    if c.column < indent && c.peek == some ' ' then blockIndent indent fuel c.advance else c

/-- The empty lines of a block that is indented to a column. -/
def blockBreaks (indent : Nat) : Nat → Cursor → List Char → List Char × Cursor
  | 0, c, found => (found, c)
  | fuel + 1, c, found =>
    let c := blockIndent indent indent c
    match c.lineBreak? with
    | some (b, c) => blockBreaks indent fuel c (found ++ [b])
    | none => (found, c)

/-- The lines of a block; `breaks` are those before the next line. -/
def blockLines (folded : Bool) (chomping : Chomping) (indent : Nat) :
    Nat → Cursor → List Char → List Char → Option Char → List Char × Cursor
  | 0, c, found, _, _ => (found, c)
  | fuel + 1, c, found, breaks, last =>
    if c.column == indent && c.peek.isSome then
      let found := found ++ breaks
      let leading := !(c.peek.any isBlank)
      let (text, c) := c.span (!isBreak ·)
      let found := found ++ text
      let (last, c) := match c.lineBreak? with
        | some (b, c) => (some b, c)
        | none => (none, c)
      let (breaks, c) := blockBreaks indent (c.left + 1) c []
      if c.column == indent && c.peek.isSome then
        let joined :=
          if folded && last == some '\n' && leading && !(c.peek.any isBlank) then
            if breaks.isEmpty then [' '] else []
          else last.toList
        blockLines folded chomping indent fuel c (found ++ joined) breaks last
      else (ending found breaks last, c)
    else (ending found breaks last, c)
where
  ending (found breaks : List Char) (last : Option Char) : List Char :=
    match chomping with
    | .strip => found
    | .clip => found ++ last.toList
    | .keep => found ++ last.toList ++ breaks

/-- A block scalar after its mark, in a collection that is indented to `indent`. -/
def block (folded : Bool) (indent : Int) (c : Cursor) : Except Fault (List Char × Cursor) := do
  let (chomping, increment, c) ← blockHeader c
  let least := max 1 (indent + 1).toNat
  let (breaks, column, c) := match increment with
    | none =>
      let (breaks, deepest, c) := blockStart (c.left + 1) c [] 0
      (breaks, max least deepest, c)
    | some n =>
      let column := least + n - 1
      let (breaks, c) := blockBreaks column (c.left + 1) c []
      (breaks, column, c)
  return blockLines folded chomping column (c.left + 1) c [] breaks none

end InertialRelay.Yaml.Scalar
