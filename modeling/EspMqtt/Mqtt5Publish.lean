import EspMqtt.Mqtt5Connack

/-! `mqtt5_get_publish_property_payload`: what a v5 client takes out of a PUBLISH. -/
namespace EspMqtt

/-- The properties that the switch over a PUBLISH knows. -/
inductive PublishId where
  | payloadFormatIndicator | messageExpiryInterval | topicAlias | responseTopic | correlationData
  | subscribeIdentifier | contentType | userProperty | reasonString
  deriving DecidableEq

namespace PublishId

def ofCode : ℕ → Option PublishId
  | 0x01 => some .payloadFormatIndicator
  | 0x02 => some .messageExpiryInterval
  | 0x23 => some .topicAlias
  | 0x08 => some .responseTopic
  | 0x09 => some .correlationData
  | 0x0b => some .subscribeIdentifier
  | 0x03 => some .contentType
  | 0x26 => some .userProperty
  | 0x1f => some .reasonString
  | _ => none

end PublishId

namespace PropertySection

/-- A string whose bytes the code does not look for. -/
def readUnchecked (p : PropertySection) (o : ℕ) : PropertyValue × ℕ :=
  let len := p.number 2 o 0
  let o := advance o 2
  (.string ((p.buffer.drop (p.start+o)).take len), advance o len)

/-- A variable byte integer, cut to the 16 bits of `subscribe_id`. -/
def readVariable (p : PropertySection) (o : ℕ) : Option (PropertyValue × ℕ) :=
  let r := getVariableLen (p.buffer.drop p.start) o p.length
  if p.hasBytes o r.2 = false then none else some (.number (r.1 % 65536), advance o r.2)

/-- The value of a property and the offset behind it; `none` is `NULL`. -/
def readPublishValue (p : PropertySection) (o : ℕ) : PublishId → Option (PropertyValue × ℕ)
  | .payloadFormatIndicator => p.readValue o (.number 1 true)
  | .messageExpiryInterval => p.readValue o (.number 4 true)
  | .topicAlias => p.readValue o (.number 2 true)
  | .responseTopic | .reasonString => p.readValue o .string
  | .correlationData | .contentType => some (p.readUnchecked o)
  | .subscribeIdentifier => p.readVariable o
  | .userProperty => p.readValue o .stringPair

end PropertySection

/-- `esp_mqtt5_publish_resp_property_t` and the user properties; `allocs` are the answers
of `calloc`. -/
structure PublishResp where
  payloadFormatIndicator : Bool
  messageExpiryInterval : ℕ
  topicAlias : ℕ
  responseTopic : Option (List UInt8)
  correlationData : Option (List UInt8)
  contentType : Option (List UInt8)
  subscribeId : ℕ
  userProperty : Option (List (List UInt8 × List UInt8))
  allocs : List Bool
  deriving DecidableEq

namespace PublishResp

/-- The zeroed structure. -/
def zero (allocs : List Bool) : PublishResp := ⟨false, 0, 0, none, none, none, 0, none, allocs⟩

/-- The first `n` answers of `calloc` are all yes. -/
def hasMemory (t : PublishResp) (n : ℕ) : Bool := (t.allocs.take n).all id

/-- `mqtt5_msg_set_user_property`: the list itself if there is none yet, the item and
its two strings. -/
def setUserProperty (t : PublishResp) (key value : List UInt8) : Bool × PublishResp :=
  let n := if t.userProperty.isNone then 4 else 3
  if t.hasMemory n then
    (true, {t with userProperty := some (t.userProperty.getD [] ++ [(key, value)]), allocs := t.allocs.drop n})
  else (false, {t with userProperty := none, allocs := t.allocs.drop n})

/-- What a case of the switch does with the value it has read; false is `NULL`. -/
def store (t : PublishResp) : PublishId → PropertyValue → Bool × PublishResp
  | .payloadFormatIndicator, .number n => (true, {t with payloadFormatIndicator := n != 0})
  | .messageExpiryInterval, .number n => (true, {t with messageExpiryInterval := n})
  | .topicAlias, .number n => (true, {t with topicAlias := n})
  | .subscribeIdentifier, .number n => (true, {t with subscribeId := n})
  | .responseTopic, .string bs => (true, {t with responseTopic := some bs})
  | .correlationData, .string bs => (true, {t with correlationData := some bs})
  | .contentType, .string bs => (true, {t with contentType := some bs})
  | .userProperty, .stringPair key value => t.setUserProperty key value
  | _, _ => (true, t)

end PublishResp

/-- The loop over the properties of a PUBLISH, and the offset it ends at; `none` while it
is still running. -/
def publishPropertyLoop (p : PropertySection) : ℕ → ℕ → PublishResp → Option (Bool × ℕ × PublishResp)
  | 0, _, _ => none
  | k+1, o, t =>
    if o < p.length then
      match PublishId.ofCode (p.byteAt o).toNat with
      | none => some (false, o, t)
      | some id =>
        match p.readPublishValue (PropertySection.advance o 1) id with
        | none => some (false, o, t)
        | some (value, o) =>
          match t.store id value with
          | (true, t) => publishPropertyLoop p k o t
          | (false, t) => some (false, o, t)
    else some (true, o, t)

/-- What `mqtt5_get_publish_property_payload` hands out. -/
structure PublishPayload where
  topic : List UInt8
  resp : PublishResp
  dataOffset : ℕ
  dataLen : ℕ
  deriving DecidableEq

/-- `mqtt5_get_publish_property_payload`: `none` while it is still running, and
`some none` for `NULL`. -/
def mqtt5GetPublishPropertyPayload (fuel : ℕ) (buffer : List UInt8) (bufferLength : ℕ) (allocs : List Bool) :
    Option (Option PublishPayload) :=
  let r := getVariableLen buffer 1 bufferLength
  let offset := 1+r.2
  let totlen := r.1+offset
  let topicLen := be16 buffer offset
  let topic := (buffer.drop (offset+2)).take topicLen
  let offset := offset+2+topicLen
  if bufferLength ≤ offset then some none
  else
    let qos := mqttGetQos (buffer.getD 0 0)
    if 0 < qos ∧ bufferLength ≤ offset+2 then some none
    else
      let offset := if 0 < qos then offset+2 else offset
      let l := getVariableLen buffer offset bufferLength
      let offset := offset+l.2
      -- `property_len` is a `uint16_t`
      let p : PropertySection := ⟨buffer, offset, l.1 % 65536⟩
      match publishPropertyLoop p fuel 0 (PublishResp.zero allocs) with
      | none => none
      | some (false, _, _) => some none
      | some (true, o, t) =>
        let offset := offset+o
        -- the difference is unsigned
        let dataLen := (((if totlen ≤ bufferLength then totlen else bufferLength : ℕ) : ℤ)-offset) % 2^32
        some (some ⟨topic, t, offset, dataLen.toNat⟩)

end EspMqtt
