import EspMqtt.PublishBounds
import EspMqtt.Mqtt5PublishRead
import EspMqtt.ReplyIds

/-! How long the payload of a received PUBLISH is, and what the client takes for it: what its accessors
find in `in_buffer`, and the bytes of the packet that are still to come. -/
namespace EspMqtt

/-- The end of topic and identifier of the PUBLISH at the front of `st`. -/
def idEnd (st : List UInt8) : ℕ :=
  fieldEnd st+2+be16 st (fieldEnd st)+if 0 < mqttGetQos (st.getD 0 0) then 2 else 0

namespace Tracks

variable {st : List UInt8} {l : ℕ} {t : Transport} {s : RxState} {header payload : ℕ}

end Tracks

end EspMqtt
