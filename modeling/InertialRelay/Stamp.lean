import InertialRelay.Record

/-!
# Stamps

The device reports times of its own clock. A known offset turns them into times of the host; without
one, or before the device clock runs, a record carries the reading of the host clock.
-/

namespace InertialRelay

namespace Header

/-- Why an integer beyond binary64 is no stamp. -/
def badStamp (n : Int) : Invalid :=
  ⟨"Header", [⟨[.key "stamp"], .notFloat, some ⟨toString n, "int"⟩⟩]⟩

/-- A header with a stamp that has to fit into binary64. -/
def ofStamp (stamp : Num) (frameId : String) : Except Fault Header :=
  match stamp with
  | .real x => .ok ⟨x, frameId⟩
  | .int n =>
    match Binary64.ofInt? n with
    | some x => .ok ⟨x, frameId⟩
    | none => .error (.invalid (badStamp n))

/-- The header of something measured at a device time, when the host clock reads `wall`. -/
def atDeviceTime (offset : Option Num) (wall : Num) (frameId : String) (time : Num) :
    Except Fault Header :=
  match offset with
  | none => ofStamp wall frameId
  | some offset =>
    if time.isNonpositive then ofStamp wall frameId
    else do ofStamp (← time.add offset) frameId

end Header

end InertialRelay
