import InertialRelay.Fault

/-!
# A place in a document

The rest of the text from a place on and its length, and the place itself by line and column. Line
breaks are the line feed and the three breaks of Unicode; carriage returns are gone before a
document is scanned.
-/

namespace InertialRelay.Yaml

structure Cursor where
  rest : List Char
  /-- The number of characters in the rest. -/
  left : Nat := rest.length
  line : Nat := 0
  column : Nat := 0
  deriving Repr, DecidableEq

def isBreak (c : Char) : Bool :=
  c == '\n' || c == '\u0085' || c == '\u2028' || c == '\u2029'

def isBlank (c : Char) : Bool := c == ' ' || c == '\t'

/-- Whether a character ends a word: blanks, breaks, and the end of the text. -/
def endsWord : Option Char → Bool
  | none => true
  | some c => isBlank c || isBreak c

namespace Cursor

def ofText (s : List Char) : Cursor := { rest := s }

def peek (c : Cursor) : Option Char := c.rest.head?

def peekAt (c : Cursor) (n : Nat) : Option Char := c.rest[n]?

def advance (c : Cursor) : Cursor :=
  match c.rest with
  | [] => c
  | ch :: rest =>
    if isBreak ch then { rest, left := c.left - 1, line := c.line + 1, column := 0 }
    else
      { rest, left := c.left - 1, line := c.line
        column := if ch == '\ufeff' then c.column else c.column + 1 }

def advanceBy : Nat → Cursor → Cursor
  | 0, c => c
  | n + 1, c => advanceBy n c.advance

/-- The characters of a class from here on, and the place after them. -/
def span (p : Char → Bool) (c : Cursor) : List Char × Cursor :=
  let run := c.rest.takeWhile p
  (run, c.advanceBy run.length)

def skip (p : Char → Bool) (c : Cursor) : Cursor := (c.span p).2

/-- A break, if there is one here; all but the separators of Unicode count as line feeds. -/
def lineBreak? (c : Cursor) : Option (Char × Cursor) :=
  match c.peek with
  | some ch =>
    if ch == '\n' || ch == '\u0085' then some ('\n', c.advance)
    else if isBreak ch then some (ch, c.advance)
    else none
  | none => none

def startsWith (c : Cursor) (word : String) : Bool := word.toList.isPrefixOf c.rest

/-- Whether a mark between documents stands here, at whatever column. -/
def isMark (c : Cursor) (mark : String) : Bool := c.startsWith mark && endsWord (c.peekAt 3)

def isAnyMark (c : Cursor) : Bool := c.isMark "---" || c.isMark "..."

end Cursor

/-- Whether a document may hold the character. -/
def isAllowed (c : Char) : Bool :=
  let n := c.toNat
  n == 0x09 || n == 0x0a || n == 0x0d || (0x20 ≤ n && n ≤ 0x7e) || n == 0x85 ||
    (0xa0 ≤ n && n ≤ 0xd7ff) || (0xe000 ≤ n && n ≤ 0xfffd) || 0x10000 ≤ n

/-- Writes every line end as a line feed. -/
def unifyLineEnds : List Char → List Char
  | '\r' :: '\n' :: rest => '\n' :: unifyLineEnds rest
  | '\r' :: rest => '\n' :: unifyLineEnds rest
  | c :: rest => c :: unifyLineEnds rest
  | [] => []

end InertialRelay.Yaml
