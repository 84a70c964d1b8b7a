import InertialRelay.Yaml.Node
import InertialRelay.Yaml.Resolve

/-!
# The value of a document

A document is gone through level by level: what a collection holds is looked at after all that
stands around it, and each collection once. So of two things that are wrong the one nearer to the
root stops the reading, and a collection may hold itself. A mapping keeps the entries with text keys
only, since no record asks for another; entries that are merged in come before its own.
-/

namespace InertialRelay.Yaml

namespace Document

/-! ### Mappings -/

/-- Whether a key takes in the entries of its value. -/
def isMerge (d : Document) (k : Node) : Bool :=
  match d.resolve k with
  | .scalar tag text plain =>
    match Resolve.typeOf tag text plain with
    | .ok .merge => true
    | _ => false
  | _ => false

/-- The entries of a mapping with those that are merged in, of several mappings those of the last
one first. A mapping takes in nothing from a mapping around it. -/
def entriesWithin (d : Document) : Nat → List Nat → List (Node × Node) →
    Except Fault (List (Node × Node))
  | 0, _, _ => .ok []
  | fuel + 1, around, entries => do
    let inner (n : Node) : Except Fault (List (Node × Node)) :=
      match d.resolve n with
      | .mapping id _ es =>
        if around.contains id then .ok [] else entriesWithin d fuel (id :: around) es
      | _ => .error .badDocument
    let (merges, own) := entries.partition fun e => d.isMerge e.1
    let brought ← merges.mapM fun (_, v) =>
      match d.resolve v with
      | .sequence _ _ items => do return (← items.mapM inner).reverse.flatten
      | n => inner n
    return brought.flatten ++ own

/-- The entries of the mapping with a number, with those that are merged in. -/
def entries (d : Document) (id : Nat) (es : List (Node × Node)) :
    Except Fault (List (Node × Node)) :=
  d.entriesWithin (d.size + 1) [id] es

/-- What a key stands for. -/
inductive Key where
  | text (s : String)
  /-- A key that no record asks for. -/
  | other
  deriving Repr, DecidableEq

/-- The key that a scalar writes. -/
def key (tag : Option String) (text : String) (plain : Bool) : Except Fault Key := do
  match ← Resolve.typeOf tag text plain with
  | .default => return .text text
  | t =>
    match ← Resolve.scalar t text with
    | .str s => return .text s
    | _ => return .other

/-! ### Faults -/

/-- Whether the tag of a collection is absent or the one that fits it. -/
def fits (tag : Option String) (name : String) : Bool :=
  tag.all fun t => t == "!" || t == Resolve.standard name

/-- The collections met so far, and those of them that are still to be gone through, the latest
first. -/
structure Agenda where
  seen : List Nat := []
  ahead : List Node := []
  deriving Repr, Inhabited

namespace Agenda

/-- Puts a collection on the agenda unless it was there before. -/
def add (a : Agenda) (id : Nat) (n : Node) : Agenda :=
  if a.seen.contains id then a else ⟨id :: a.seen, n :: a.ahead⟩

end Agenda

/-- Meets a node: a scalar is read, a collection put on the agenda. -/
def meet (d : Document) (a : Agenda) (n : Node) : Except Fault Agenda :=
  match d.resolve n with
  | .scalar tag text plain => do
    let _ ← Resolve.scalar (← Resolve.typeOf tag text plain) text
    return a
  | .sequence id tag items =>
    if fits tag "seq" then .ok (a.add id (.sequence id tag items)) else .error .badDocument
  | .mapping id tag es =>
    if fits tag "map" then .ok (a.add id (.mapping id tag es)) else .error .badDocument
  | .alias _ => .error .badDocument

/-- Meets a key and then its value. -/
def meetEntry (d : Document) (a : Agenda) (e : Node × Node) : Except Fault Agenda := do
  match d.resolve e.1 with
  | .scalar tag text plain => let _ ← key tag text plain
  | _ => throw .badDocument
  d.meet a e.2

/-- Goes through a collection. -/
def enter (d : Document) (a : Agenda) (n : Node) : Except Fault Agenda := do
  match n with
  | .sequence _ _ items => items.foldlM d.meet a
  | .mapping id _ es => (← d.entries id es).foldlM d.meetEntry a
  | _ => return a

/-- Goes through a level, and then through the levels below it. There are no more levels than
collections. -/
def survey (d : Document) : Nat → Agenda → Except Fault Unit
  | 0, _ => .ok ()
  | fuel + 1, a =>
    if a.ahead.isEmpty then .ok ()
    else do survey d fuel (← a.ahead.reverse.foldlM d.enter { a with ahead := [] })

/-! ### Values -/

/-- The value of a node, as far as `depth` collections within each other. -/
def value (d : Document) : Nat → Node → Except Fault Data
  | depth, n =>
    match d.resolve n, depth with
    | .scalar tag text plain, _ => do Resolve.scalar (← Resolve.typeOf tag text plain) text
    | .sequence _ _ _, 0 => .ok (.list [])
    | .sequence _ _ items, depth + 1 => do return .list (← items.mapM (value d depth))
    | .mapping _ _ _, 0 => .ok (.map [])
    | .mapping id _ es, depth + 1 => do
      let fields ← (← d.entries id es).mapM fun (k, v) => do
        match d.resolve k with
        | .scalar tag text plain =>
          match ← key tag text plain with
          | .text s => return some (s, ← value d depth v)
          | .other => return none
        | _ => throw .badDocument
      return .map (fields.filterMap (·))
    | .alias _, _ => .error .badDocument

end Document

/-- The value of the only document in a text, as far as `depth` collections within each other; null
for an empty text. -/
def read (depth : Nat) (text : String) : Except Fault Data := do
  match ← Document.ofText? (unifyLineEnds text.toList) with
  | none => return .null
  | some d =>
    d.survey (d.size + 1) (← d.meet {} d.root)
    d.value depth d.root

end InertialRelay.Yaml
