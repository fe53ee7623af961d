import EspMqtt.Library.Base128
import EspMqtt.Library.ByteBuffer

/-! Reading MQTT packets: the inline accessors of `mqtt_msg.h` and the parsing
half of `mqtt_msg.c`. A buffer is a list of bytes; a pointer result is the
offset it points at. -/
namespace EspMqtt

/-- `enum mqtt_message_type`; the nibbles 0 and 15 name no packet. -/
inductive MsgType where
  | connect | connack | publish | puback | pubrec | pubrel | pubcomp
  | subscribe | suback | unsubscribe | unsuback | pingreq | pingresp | disconnect
  deriving DecidableEq, Repr

namespace MsgType

def code : MsgType → ℕ
  | connect => 1 | connack => 2 | publish => 3 | puback => 4 | pubrec => 5 | pubrel => 6
  | pubcomp => 7 | subscribe => 8 | suback => 9 | unsubscribe => 10 | unsuback => 11
  | pingreq => 12 | pingresp => 13 | disconnect => 14

def ofCode : ℕ → Option MsgType
  | 1 => some connect | 2 => some connack | 3 => some publish | 4 => some puback
  | 5 => some pubrec | 6 => some pubrel | 7 => some pubcomp | 8 => some subscribe
  | 9 => some suback | 10 => some unsubscribe | 11 => some unsuback | 12 => some pingreq
  | 13 => some pingresp | 14 => some disconnect | _ => none

theorem ofCode_code (m : MsgType) : ofCode m.code = some m := by cases m <;> rfl

end MsgType

def mqttGetType (b : UInt8) : Option MsgType := MsgType.ofCode ((b &&& 0xf0) >>> 4).toNat

def mqttGetDup (b : UInt8) : ℕ := ((b &&& 0x08) >>> 3).toNat

def mqttGetQos (b : UInt8) : ℕ := ((b &&& 0x06) >>> 1).toNat

def mqttGetRetain (b : UInt8) : ℕ := (b &&& 0x01).toNat

/-- `mqtt_set_dup` on the bytes of a packet. -/
def mqttSetDup : List UInt8 → List UInt8
  | [] => []
  | b :: bs => (b ||| 0x08) :: bs

/-- A packet, and the same bytes with the DUP bit set. -/
def WithDup (bs bs' : List UInt8) : Prop :=
  ∃ b b' rest, bs = b :: rest ∧ bs' = b' :: rest ∧ mqttGetDup b' = 1 ∧ b' &&& 0xf7 = b &&& 0xf7

theorem withDup_mqttSetDup {bs : List UInt8} (h : bs ≠ []) : WithDup bs (mqttSetDup bs) := by
  have hall : ∀ n : Fin 256, mqttGetDup (UInt8.ofNat n.val ||| 0x08) = 1 ∧
      (UInt8.ofNat n.val ||| 0x08) &&& 0xf7 = UInt8.ofNat n.val &&& 0xf7 := by decide +kernel
  obtain ⟨b,rest,rfl⟩ := List.exists_cons_of_ne_nil h
  have hb := hall ⟨b.toNat, b.toNat_lt⟩
  rw [UInt8.ofNat_toNat] at hb
  exact ⟨b, b ||| 0x08, rest, rfl, rfl, hb⟩

/-- `mqtt_get_connect_session_present`: bit 0 of the byte at offset 2. -/
def mqttGetConnectSessionPresent (buffer : List UInt8) : Bool := buffer.getD 2 0 &&& 0x01 != 0

/-- `mqtt_get_connect_return_code`: the byte at offset 3, whatever was received. -/
def mqttGetConnectReturnCode (buffer : List UInt8) : ℕ := (buffer.getD 3 0).toNat

/-- `mqtt_has_valid_msg_hdr` on the first byte of a packet. -/
def mqttHasValidMsgHdr (b : UInt8) : Bool :=
  match mqttGetType b with
  | none => false
  | some .pubrel | some .subscribe | some .unsubscribe => b &&& 0x0f == 0x02
  | some .publish =>
    decide (mqttGetQos b < 3) && (decide (0 < mqttGetQos b) || decide (mqttGetDup b = 0))
  | some _ => b &&& 0x0f == 0

/-- The length loop of `mqtt_get_total_length`; the fuel is what is left of
its bound `i <= 4`. -/
def totalLengthLoop (buffer : List UInt8) (length : ℕ) : ℕ → ℕ → ℕ → ℕ × ℕ
  | 0, i, totlen => (totlen, i)
  | k+1, i, totlen =>
    if i < length then
      let b := buffer.getD i 0
      let totlen := totlen + (b &&& 0x7f).toNat*2^(7*(i-1))
      if b &&& 0x80 = 0 then (totlen, i+1) else totalLengthLoop buffer length k (i+1) totlen
    else (totlen, i)

/-- `mqtt_get_total_length`: the packet length and the fixed header length. -/
def mqttGetTotalLength (buffer : List UInt8) (length : ℕ) : ℕ × ℕ :=
  let r := totalLengthLoop buffer length 4 1 0
  (r.1+r.2, r.2)

/-- The header loop `for (i = 1; i < length; ++i)` shared by
`mqtt_get_publish_topic` and `mqtt_get_id`: no bound on the number of bytes. -/
def skipRemainingLength (buffer : List UInt8) : ℕ → ℕ → ℕ
  | 0, i => i
  | k+1, i => if buffer.getD i 0 &&& 0x80 = 0 then i+1 else skipRemainingLength buffer k (i+1)

/-- The two bytes `buffer[i] << 8 | buffer[i+1]`. -/
def be16 (buffer : List UInt8) (i : ℕ) : ℕ :=
  (buffer.getD i 0).toNat*256 + (buffer.getD (i+1) 0).toNat

/-- `mqtt_get_publish_topic`: offset and length of the topic, or `NULL`. -/
def mqttGetPublishTopic (buffer : List UInt8) (length : ℕ) : Option (ℕ × ℕ) :=
  let i := skipRemainingLength buffer (length-1) 1
  if length ≤ i+2 then none
  else
    let topiclen := be16 buffer i
    if length < i+2+topiclen then none else some (i+2, topiclen)

/-- `mqtt_get_publish_data`: the payload offset or `NULL`, and the number of
payload bytes among the first `blength` bytes of the packet. -/
def mqttGetPublishData (buffer : List UInt8) (blength : ℕ) : Option ℕ × ℕ :=
  let r := totalLengthLoop buffer blength 4 1 0
  let i := r.2
  let totlen := r.1+i
  if blength ≤ i+2 then (none, 0)
  else
    let topiclen := be16 buffer i
    let i := i+2
    if blength ≤ i+topiclen then (none, 0)
    else
      let i := i+topiclen
      if 0 < mqttGetQos (buffer.getD 0 0) ∧ blength ≤ i+2 then (none, 0)
      else
        let i := if 0 < mqttGetQos (buffer.getD 0 0) then i+2 else i
        if totlen < i then (none, 0)
        else if totlen ≤ blength then (some i, totlen-i) else (some i, blength-i)

/-- `mqtt_get_suback_data`: the codes start at offset 4. -/
def mqttGetSubackData (buffer : List UInt8) (length : ℕ) : List UInt8 :=
  if 4 < length then (buffer.take length).drop 4 else []

/-- `mqtt_get_id`; 0 when the packet has none. -/
def mqttGetId (buffer : List UInt8) (length : ℕ) : ℕ :=
  if length < 1 then 0
  else
    match mqttGetType (buffer.getD 0 0) with
    | some .publish =>
      let i := skipRemainingLength buffer (length-1) 1
      if length ≤ i+2 then 0
      else
        let topiclen := be16 buffer i
        let i := i+2
        if length < i+topiclen then 0
        else
          let i := i+topiclen
          if 0 < mqttGetQos (buffer.getD 0 0) then
            if length < i+2 then 0 else be16 buffer i
          else 0
    | some .puback | some .pubrec | some .pubrel | some .pubcomp | some .suback
    | some .unsuback | some .subscribe | some .unsubscribe =>
      -- requires the remaining length to be encoded in one byte
      if 4 ≤ length ∧ buffer.getD 1 0 &&& 0x80 = 0 then be16 buffer 2 else 0
    | _ => 0

end EspMqtt
