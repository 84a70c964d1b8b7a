import InertialRelay.ReadLoop
import InertialRelay.Text.Json

/-!
# Feeds

A transport that delivers decoded messages as text: one JSON object a line, with the name of the
message's type, the system that sent it and the message's fields. A sender that is not named is
system 1.
-/

namespace InertialRelay

namespace WireMessage

/-- A number among data. -/
def numeral? : Data → Option Num
  | .int n => some (.int n)
  | .real x => some (.real x)
  | _ => none

/-- The message that an object describes. -/
def ofData? : Data → Option WireMessage
  | .map entries => do
    let .str type ← Data.field? entries "type" | none
    let .int system := (Data.field? entries "src").getD (.int 1) | none
    let .map fields := (Data.field? entries "fields").getD (.map []) | none
    let fields ← fields.mapM fun (name, v) => (numeral? v).map fun x => (name, x)
    return { type, system, fields := fields.reverse }
  | _ => none

end WireMessage

namespace Received

/-- What a line of a feed delivers. -/
def ofLine (line : String) : Received :=
  match (Text.Json.read? line).bind WireMessage.ofData? with
  | some w => .message w
  | none => .failed "unreadable line"

end Received

end InertialRelay
