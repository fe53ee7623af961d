import EspMqtt.MsgBuild

/-! The composing half of `mqtt_msg.c` on its buffer: every byte is written to an
index, and the indices are kept. -/
namespace EspMqtt
open Wire

/-- `mqtt_connection_t` while a packet is composed. `length` is the length of the
outbound message, which is the write position, and `written` has every index of
`buffer` that was written. -/
structure Composer where
  connection : Connection
  buffer : List UInt8
  length : ℕ
  written : List ℕ
  deriving Repr

/-- The variable header of a CONNECT up to the flags: protocol name and level. -/
def ConnectInfo.name (i : ConnectInfo) : List UInt8 :=
  if i.protocolVer = .v31 then [0, 6, 0x4d, 0x51, 0x49, 0x73, 0x64, 0x70, 3]
    else [0, 4, 0x4d, 0x51, 0x54, 0x54, 4]

namespace Composer

/-- `memcpy` to index `i`, or a run of single writes. -/
def write (s : Composer) (i : ℕ) (bs : List UInt8) : Composer :=
  {s with buffer := ByteBuffer.splice s.buffer i bs
          written := s.written ++ List.range' i bs.length}

/-- A write at the write position, which it moves. -/
def append (s : Composer) (bs : List UInt8) : Composer :=
  {s.write s.length bs with length := s.length+bs.length}

def setMessageHeaderSize (s : Composer) : Composer := {s with length := 5}

/-- `append_string`; `false` is -1. -/
def appendString (s : Composer) (string : List UInt8) : Bool × Composer :=
  if s.connection.bufferLength < s.length+string.length+2 then (false, s)
  else (true, (s.append (u16 string.length)).append string)

/-- `append_message_id`. -/
def appendMessageId (s : Composer) (messageId : ℕ) : ℕ × Composer :=
  let r := s.connection.messageId messageId
  let s := {s with connection := r.2}
  if s.connection.bufferLength < s.length+2 then (0, s) else (r.1, s.append (u16 r.1))

/-- `fail_message`. -/
def failMessage (s : Composer) : Composer :=
  {s with connection := EspMqtt.failMessage s.connection
          length := 0}

/-- `total_length` of `fini_message`. -/
def totalLength (s : Composer) : ℤ :=
  let total := s.connection.outboundMessage.fragmentedMsgTotalLength
  if total ≠ 0 then Int.bmod ((total : ℤ)-5) (2^32) else (s.length : ℤ)-5

/-- `fini_message`: the header goes right in front of the body, and the message
begins where the header does. -/
def finiMessage (s : Composer) (type : MsgType) (dup qos retain : ℕ) : Composer :=
  let lens := encodedLens 5 s.totalLength
  if 5 < lens.length+1 then s.failMessage
  else
    let offs := 5-1-lens.length
    let t := (s.write offs [headerByte type dup qos retain]).write (offs+1) lens
    let length := s.length-5+lens.length+1
    let m := s.connection.outboundMessage
    {t with
      length := length
      connection := {s.connection with outboundMessage :=
        {m with data := (t.buffer.drop offs).take length
                fragmentedMsgDataOffset := m.fragmentedMsgDataOffset-offs}}}

/-- A step that is taken only if what came before succeeded. -/
def andThen (r : Bool × Composer) (f : Composer → Bool × Composer) : Bool × Composer :=
  if r.1 then f r.2 else r

/-- The end of a call: `fini_message`, or `fail_message` if a step did not succeed. -/
def finish (r : Bool × Composer) (type : MsgType) (qos retain : ℕ) : Composer :=
  if r.1 then r.2.finiMessage type 0 qos retain else r.2.failMessage

/-- `variable_header[flags_offset] |= flag`. -/
def orFlag (s : Composer) (i : ℕ) (flag : UInt8) : Composer :=
  s.write i [s.buffer.getD i 0 ||| flag]

/-- The will of a CONNECT. -/
def appendWill (flagsOffset : ℕ) (i : ConnectInfo) (s : Composer) : Bool × Composer :=
  match given i.willTopic with
  | none => (true, s)
  | some topic =>
    andThen (andThen (s.appendString topic) fun s => s.appendString i.willMessage) fun s =>
      let s := s.orFlag flagsOffset 4
      let s := if i.willRetain then s.orFlag flagsOffset 32 else s
      (true, s.orFlag flagsOffset (UInt8.ofNat (i.willQos % 4*8)))

def appendUsername (flagsOffset : ℕ) (i : ConnectInfo) (s : Composer) : Bool × Composer :=
  match given i.username with
  | none => (true, s)
  | some username =>
    andThen (s.appendString username) fun s => (true, s.orFlag flagsOffset 128)

/-- The password, behind an empty user name if there is none. -/
def appendPassword (flagsOffset : ℕ) (i : ConnectInfo) (s : Composer) : Bool × Composer :=
  match given i.password with
  | none => (true, s)
  | some password =>
    andThen
      (if (given i.username).isNone then
        andThen (s.appendString []) fun s => (true, s.orFlag flagsOffset 128)
      else (true, s)) fun s =>
    andThen (s.appendString password) fun s => (true, s.orFlag flagsOffset 64)

/-- `mqtt_msg_connect`; the flags are put together in the buffer while the
payload is appended. -/
def mqttMsgConnect (s : Composer) (i : ConnectInfo) : Composer :=
  let s := s.setMessageHeaderSize
  let headerLen := if i.protocolVer = .v31 then 12 else 10
  if s.connection.bufferLength < s.length+headerLen then s.failMessage
  else
    let variableHeader := s.length
    let s := {s with length := s.length+headerLen}
    let s := s.write variableHeader i.name
    let flagsOffset := variableHeader+i.name.length
    let s := s.write flagsOffset (0 :: u16 i.keepalive)
    let s := if i.cleanSession then s.orFlag flagsOffset 2 else s
    let r := s.appendString ((given i.clientId).getD [])
    let r := andThen r (appendWill flagsOffset i)
    let r := andThen r (appendUsername flagsOffset i)
    let r := andThen r (appendPassword flagsOffset i)
    finish r .connect 0 0

/-- The payload of a PUBLISH, or as much of it as the buffer takes. -/
def appendPayload (s : Composer) (d : CData) (dataLength : ℤ) : Composer :=
  let c := s.connection
  let m := c.outboundMessage
  if d.isNull then s
  else if (c.bufferLength : ℤ) < s.length+dataLength then
    -- the message is fragmented: its total length and where its data begins are kept
    {s.append (d.slice 0 (c.bufferLength-s.length)) with connection :=
      {c with outboundMessage :=
        {m with fragmentedMsgDataOffset := s.length
                fragmentedMsgTotalLength := (dataLength+s.length).toNat}}}
  else
    {s.append (d.slice 0 dataLength.toNat) with connection :=
      {c with outboundMessage := {m with fragmentedMsgTotalLength := 0}}}

/-- `mqtt_msg_publish`, with the identifier it reports. -/
def mqttMsgPublish (s : Composer) (topic : Option (List UInt8)) (d : CData) (dataLength : ℤ)
    (qos retain : ℕ) : ℕ × Composer :=
  let s := s.setMessageHeaderSize
  match topic with
  | none | some [] => (0, s.failMessage)
  | some topic =>
    let r := s.appendString topic
    if r.1 = false then (0, r.2.failMessage)
    else if d.isNull ∧ 0 < dataLength then (0, r.2.failMessage)
    else
      let r := if 0 < qos then r.2.appendMessageId 0 else (0, r.2)
      if 0 < qos ∧ r.1 = 0 then (0, r.2.failMessage)
      else (r.1, (r.2.appendPayload d dataLength).finiMessage .publish 0 qos retain)

/-- The acknowledgements. -/
def ackMessage (type : MsgType) (qos : ℕ) (s : Composer) (messageId : ℕ) : Composer :=
  let r := s.setMessageHeaderSize.appendMessageId messageId
  if r.1 = 0 then r.2.failMessage else r.2.finiMessage type 0 qos 0

def mqttMsgPuback : Composer → ℕ → Composer := ackMessage .puback 0

def mqttMsgPubrec : Composer → ℕ → Composer := ackMessage .pubrec 0

def mqttMsgPubrel : Composer → ℕ → Composer := ackMessage .pubrel 1

def mqttMsgPubcomp : Composer → ℕ → Composer := ackMessage .pubcomp 0

/-- The loop of `mqtt_msg_subscribe`. -/
def appendTopics : List (List UInt8 × ℕ) → Composer → Bool × Composer
  | [], s => (true, s)
  | (filter, qos) :: topics, s =>
    if filter = [] then (false, s)
    else
      andThen (s.appendString filter) fun s =>
        if s.connection.bufferLength < s.length+1 then (false, s)
        else appendTopics topics (s.append [UInt8.ofNat qos])

/-- `mqtt_msg_subscribe`, with the identifier it reports. -/
def mqttMsgSubscribe (s : Composer) (topics : List (List UInt8 × ℕ)) : ℕ × Composer :=
  let r := s.setMessageHeaderSize.appendMessageId 0
  if r.1 = 0 then (0, r.2.failMessage) else (r.1, finish (appendTopics topics r.2) .subscribe 1 0)

/-- `mqtt_msg_unsubscribe`, with the identifier it reports. -/
def mqttMsgUnsubscribe (s : Composer) (topic : Option (List UInt8)) : ℕ × Composer :=
  let s := s.setMessageHeaderSize
  match topic with
  | none | some [] => (0, s.failMessage)
  | some topic =>
    let r := s.appendMessageId 0
    if r.1 = 0 then (0, r.2.failMessage) else (r.1, finish (r.2.appendString topic) .unsubscribe 1 0)

def mqttMsgPingreq (s : Composer) : Composer :=
  s.setMessageHeaderSize.finiMessage .pingreq 0 0 0

def mqttMsgDisconnect (s : Composer) : Composer :=
  s.setMessageHeaderSize.finiMessage .disconnect 0 0 0

end Composer

end EspMqtt
