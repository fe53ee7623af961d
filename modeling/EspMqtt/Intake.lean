import EspMqtt.Admission

/-! The inbound side of the client: the payload bytes that DATA events have handed
out, the acknowledgements that have been written for them and the bytes still to
come. No call of the API touches it, so no handler does. -/
namespace EspMqtt
open World

/-- The payload bytes an event hands out. -/
def MqttEvent.payload (e : MqttEvent) : ℤ := if e.id = .data then e.dataLen else 0

/-- A PUBACK or PUBREC. -/
def Chunk.isAck (c : Chunk) : Bool := c.site == .puback || c.site == .pubrec

namespace World

end World

variable {H : Handler}

end EspMqtt
