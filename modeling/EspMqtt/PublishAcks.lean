import EspMqtt.AckTargets
import EspMqtt.Intake
import EspMqtt.PublishPayload

/-! A received PUBLISH is acknowledged when it has been handed out whole. The read
loop of `deliver_publish` takes a timeout for the end of the payload, and an identifier
that is not all in the buffer leaves the bytes of it for the payload. -/
namespace EspMqtt
open World

namespace World

/-- The bytes of a PUBLISH that are not in the buffer. -/
def missing (w : World) : ℕ := w.rx.messageLength-w.rx.inBufferReadLen

/-- The bytes of the payload that `deliver_publish` finds in the buffer. -/
def found (w : World) : Option ℕ := w.publishParts.1.map fun p => p.2.2

/-- The reply that `mqtt_process_receive` owes a PUBLISH. -/
def acknowledge (H : Handler) (qos msgId : ℕ) (w : World) : Bool × World :=
  if qos = 1 then
    let r := reply H .puback .puback 0 (mqttMsgPuback · msgId) id w
    (r.1 = some true, r.2)
  else if qos = 2 then
    let r := reply H .pubrec .pubrec 0 (mqttMsgPubrec · msgId) id w
    (r.1 = some true, r.2)
  else (true, w)

end World

variable {H : Handler}

namespace World

end World

/-- A PUBLISH of QoS 1 with four bytes of payload, behind a header of ten. -/
def fourBytes : List UInt8 := [0x32, 12, 0, 4, 0x61, 0x62, 0x63, 0x64, 0x12, 0x34, 1, 2, 3, 4]

end EspMqtt
