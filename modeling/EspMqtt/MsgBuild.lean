import EspMqtt.MsgParse
import EspMqtt.Wire

/-! Building MQTT 3.1.1 packets: the composing half of `mqtt_msg.c`. A packet is
composed behind five bytes kept free for the fixed header; `acc` is what stands
there so far, so the write position is `5+acc.length`. -/
namespace EspMqtt
open Wire

/-- `mqtt_message_t`; `data` is `data[0..length)`. The data offset is a `size_t`
that is only ever moved and subtracted, so it stands for its class modulo 2^32. -/
structure OutMessage where
  data : List UInt8
  fragmentedMsgTotalLength : ℕ
  fragmentedMsgDataOffset : ℤ
  deriving DecidableEq, Repr

/-- What `mqtt_connection_t` keeps for composing a packet, with the values the
coming calls of `platform_random` return. -/
structure Connection where
  outboundMessage : OutMessage
  lastMessageId : ℕ
  bufferLength : ℕ
  msgIdIncremental : Bool
  randoms : List ℕ
  deriving DecidableEq, Repr

/-- A `const char *` with the memory it points into: `mem i` is the byte at
`data[i]`, inside the object or not. -/
structure CData where
  isNull : Bool
  mem : ℤ → UInt8
  strlen : ℕ

/-- The `n` bytes from `data + start` on. -/
def CData.slice (d : CData) (start : ℤ) (n : ℕ) : List UInt8 :=
  (List.range n).map fun i : ℕ => d.mem (start+(i : ℤ))

@[simp] theorem CData.slice_length (d : CData) (start : ℤ) (n : ℕ) :
    (d.slice start n).length = n := by simp [CData.slice]

theorem CData.slice_append (d : CData) (start : ℤ) (m n : ℕ) :
    d.slice start m ++ d.slice (start+m) n = d.slice start (m+n) := by
  simp only [CData.slice, List.range_add, List.map_append, List.map_map]
  congr 1
  apply List.map_congr_left
  intro i _
  simp only [Function.comp, Nat.cast_add, add_assoc]

/-- `append_string`; `none` is -1. -/
def appendString (bufferLength : ℕ) (s acc : List UInt8) : Option (List UInt8) :=
  if bufferLength < 5+acc.length+s.length+2 then none else some (acc ++ u16 s.length ++ s)

/-- The identifiers `platform_random(65535)` gives until one is not zero. A list
that has run out goes on with 1. -/
def firstNonzero : List ℕ → ℕ × List ℕ
  | [] => (1, [])
  | r :: rs => if r % 65535 = 0 then firstNonzero rs else (r % 65535, rs)

/-- The loop of `append_message_id`: an identifier is made up when none is given. -/
def Connection.messageId (c : Connection) (messageId : ℕ) : ℕ × Connection :=
  if messageId ≠ 0 then (messageId, c)
  else if c.msgIdIncremental then
    -- `++last_message_id` on a `uint16_t`, once more when it wraps to zero
    let n := (c.lastMessageId+1) % 65536
    let n := if n = 0 then 1 else n
    (n, {c with lastMessageId := n})
  else
    let r := firstNonzero c.randoms
    (r.1, {c with randoms := r.2})

theorem firstNonzero_range (l : List ℕ) : 1 ≤ (firstNonzero l).1 ∧ (firstNonzero l).1 < 65536 := by
  induction l with
  | nil => decide
  | cons r rs ih =>
    unfold firstNonzero
    split
    · exact ih
    · dsimp only
      omega

/-- The identifier a call makes up is one the protocol allows, whatever the random numbers are. -/
theorem messageId_range (c : Connection) : 1 ≤ (c.messageId 0).1 ∧ (c.messageId 0).1 < 65536 := by
  unfold Connection.messageId
  rw [if_neg (by simp)]
  split
  · dsimp only
    split <;> omega
  · exact firstNonzero_range c.randoms

/-- `append_message_id`; the identifier is 0 when there is no room for it. -/
def appendMessageId (c : Connection) (acc : List UInt8) (messageId : ℕ) :
    ℕ × Option (List UInt8) × Connection :=
  let r := c.messageId messageId
  if c.bufferLength < 5+acc.length+2 then (0, none, r.2) else (r.1, some (acc ++ u16 r.1), r.2)

/-- `fail_message`. -/
def failMessage (c : Connection) : Connection :=
  {c with outboundMessage := {c.outboundMessage with data := []}}

/-- The do-while loop of `fini_message` over an `int`; five rounds are enough
for 32 bits. A negative value is divided towards zero, so it ends the loop after
one byte. -/
def encodedLens : ℕ → ℤ → List UInt8
  | 0, _ => []
  | k+1, total =>
    if 128 ≤ total then UInt8.ofNat ((total % 128).toNat+128) :: encodedLens k (total/128)
    else [UInt8.ofNat ((Int.tmod total 128) % 256).toNat]

/-- The type byte of `fini_message`. -/
def headerByte (type : MsgType) (dup qos retain : ℕ) : UInt8 :=
  UInt8.ofNat ((type.code % 16)*16+(dup % 2)*8+(qos % 4)*2+retain % 2)

/-- `total_length` of `fini_message`, an `int`: a leftover total length of a
fragmented message takes the place of the real one. -/
def OutMessage.remainingLength (m : OutMessage) (body : List UInt8) : ℤ :=
  if m.fragmentedMsgTotalLength ≠ 0 then Int.bmod ((m.fragmentedMsgTotalLength : ℤ)-5) (2^32)
  else body.length

/-- `fini_message` on a body that ends at the write position. -/
def finiMessage (c : Connection) (type : MsgType) (dup qos retain : ℕ) (body : List UInt8) :
    Connection :=
  let m := c.outboundMessage
  let lens := encodedLens 5 (m.remainingLength body)
  if 5 < lens.length+1 then failMessage c
  else
    {c with outboundMessage :=
      {m with data := headerByte type dup qos retain :: (lens ++ body)
              fragmentedMsgDataOffset := m.fragmentedMsgDataOffset-(4-lens.length)}}

/-- A packet whose body could be composed or not. -/
def finiOrFail (c : Connection) (type : MsgType) (qos : ℕ) : Option (List UInt8) → Connection
  | none => failMessage c
  | some body => finiMessage c type 0 qos 0 body

/-- The acknowledgements: a packet identifier and nothing else. -/
def ackMessage (type : MsgType) (qos : ℕ) (c : Connection) (messageId : ℕ) : Connection :=
  let r := appendMessageId c [] messageId
  finiOrFail r.2.2 type qos r.2.1

def mqttMsgPuback : Connection → ℕ → Connection := ackMessage .puback 0

def mqttMsgPubrec : Connection → ℕ → Connection := ackMessage .pubrec 0

def mqttMsgPubrel : Connection → ℕ → Connection := ackMessage .pubrel 1

def mqttMsgPubcomp : Connection → ℕ → Connection := ackMessage .pubcomp 0

def mqttMsgPingreq (c : Connection) : Connection := finiMessage c .pingreq 0 0 0 []

def mqttMsgDisconnect (c : Connection) : Connection := finiMessage c .disconnect 0 0 0 []

/-- The filters of a SUBSCRIBE, each with its requested QoS. -/
def appendTopics (bufferLength : ℕ) : List (List UInt8 × ℕ) → List UInt8 → Option (List UInt8)
  | [], acc => some acc
  | (filter, qos) :: topics, acc =>
    if filter = [] then none
    else
      match appendString bufferLength filter acc with
      | none => none
      | some acc =>
        if bufferLength < 5+acc.length+1 then none
        else appendTopics bufferLength topics (acc ++ [UInt8.ofNat qos])

/-- `mqtt_msg_subscribe`, with the identifier it reports. -/
def mqttMsgSubscribe (c : Connection) (topics : List (List UInt8 × ℕ)) : ℕ × Connection :=
  let r := appendMessageId c [] 0
  (r.1, finiOrFail r.2.2 .subscribe 1 (r.2.1.bind (appendTopics c.bufferLength topics)))

/-- `mqtt_msg_unsubscribe`; an empty topic fails before an identifier is drawn
(the caller has cleared the one it would report). -/
def mqttMsgUnsubscribe (c : Connection) (topic : Option (List UInt8)) : ℕ × Connection :=
  match topic with
  | none | some [] => (0, failMessage c)
  | some topic =>
    let r := appendMessageId c [] 0
    (r.1, finiOrFail r.2.2 .unsubscribe 1 (r.2.1.bind (appendString c.bufferLength topic)))

/-- The last part of `mqtt_msg_publish`: the payload, or as much of it as the
buffer takes. -/
def appendPayload (c : Connection) (d : CData) (dataLength : ℤ) (acc : List UInt8) :
    List UInt8 × Connection :=
  let m := c.outboundMessage
  if d.isNull then (acc, c)
  else if (c.bufferLength : ℤ) < 5+acc.length+dataLength then
    (acc ++ d.slice 0 (c.bufferLength-(5+acc.length)), {c with outboundMessage :=
      {m with fragmentedMsgDataOffset := 5+acc.length
              fragmentedMsgTotalLength := (dataLength+(5+acc.length)).toNat}})
  else
    (acc ++ d.slice 0 dataLength.toNat,
      {c with outboundMessage := {m with fragmentedMsgTotalLength := 0}})

/-- `mqtt_msg_publish`, with the identifier it reports. -/
def mqttMsgPublish (c : Connection) (topic : Option (List UInt8)) (d : CData) (dataLength : ℤ)
    (qos retain : ℕ) : ℕ × Connection :=
  match topic with
  | none | some [] => (0, failMessage c)
  | some topic =>
    match appendString c.bufferLength topic [] with
    | none => (0, failMessage c)
    | some acc =>
      if d.isNull ∧ 0 < dataLength then (0, failMessage c)
      else
        let r := if 0 < qos then appendMessageId c acc 0 else (0, some acc, c)
        match r.2.1 with
        | none => (0, failMessage r.2.2)
        | some acc =>
          let b := appendPayload r.2.2 d dataLength acc
          (r.1, finiMessage b.2 .publish 0 qos retain b.1)

inductive ProtocolVer where
  | v31 | v311 | v5
  deriving DecidableEq, Repr

/-- `mqtt_connect_info_t`; a string that is NULL is `none`. -/
structure ConnectInfo where
  clientId : Option (List UInt8)
  username : Option (List UInt8)
  password : Option (List UInt8)
  willTopic : Option (List UInt8)
  willMessage : List UInt8
  willQos : ℕ
  willRetain : Bool
  keepalive : ℕ
  cleanSession : Bool
  protocolVer : ProtocolVer
  deriving DecidableEq, Repr

/-- A string that is neither NULL nor empty. -/
def given (s : Option (List UInt8)) : Option (List UInt8) := s.filter (· ≠ [])

/-- The connect flags; a password without a user name brings an empty one. -/
def ConnectInfo.flags (i : ConnectInfo) : ℕ :=
  (if i.cleanSession then 2 else 0)+
  (if (given i.willTopic).isSome then 4+(if i.willRetain then 32 else 0)+(i.willQos % 4)*8 else 0)+
  (if (given i.username).isSome ∨ (given i.password).isSome then 128 else 0)+
  (if (given i.password).isSome then 64 else 0)

/-- The strings behind the variable header, in order. -/
def ConnectInfo.fields (i : ConnectInfo) : List (List UInt8) :=
  [(given i.clientId).getD []] ++
  (match given i.willTopic with
    | some t => [t, i.willMessage]
    | none => []) ++
  (match given i.username, given i.password with
    | some u, some p => [u, p]
    | some u, none => [u]
    | none, some p => [[], p]
    | none, none => [])

/-- The variable header of a CONNECT: name, level, flags and keep alive. -/
def ConnectInfo.header (i : ConnectInfo) : List UInt8 :=
  (if i.protocolVer = .v31 then [0, 6, 0x4d, 0x51, 0x49, 0x73, 0x64, 0x70, 3]
    else [0, 4, 0x4d, 0x51, 0x54, 0x54, 4]) ++
  UInt8.ofNat i.flags :: u16 i.keepalive

/-- `mqtt_msg_connect`. -/
def mqttMsgConnect (c : Connection) (i : ConnectInfo) : Connection :=
  if c.bufferLength < 5+i.header.length then failMessage c
  else
    finiOrFail c .connect 0
      (i.fields.foldlM (fun acc s => appendString c.bufferLength s acc) i.header)

/-! The type of a packet is in its first byte. -/

def packetType (data : List UInt8) : Option MsgType := data.head?.bind mqttGetType

theorem mqttGetType_eq (b : UInt8) : mqttGetType b = MsgType.ofCode (b.toNat/16) := by
  have hall : ∀ n : Fin 256, ((UInt8.ofNat n.val &&& 0xf0) >>> 4).toNat = n.val/16 := by decide +kernel
  have hb := hall ⟨b.toNat, b.toNat_lt⟩
  rw [UInt8.ofNat_toNat] at hb
  rw [mqttGetType, hb]

theorem mqttGetType_headerByte (type : MsgType) (dup qos retain : ℕ) :
    mqttGetType (headerByte type dup qos retain) = some type := by
  have hcode : type.code < 16 := by cases type <;> decide
  have hnat : (headerByte type dup qos retain).toNat/16 = type.code := by
    unfold headerByte
    rw [UInt8.toNat_ofNat', Nat.mod_eq_of_lt hcode]
    omega
  rw [mqttGetType_eq, hnat, MsgType.ofCode_code]

/-- Nothing, or a packet of this type. -/
def Composed (type : MsgType) (c : Connection) : Prop :=
  c.outboundMessage.data = [] ∨ packetType c.outboundMessage.data = some type

theorem Composed.of_headerByte {type : MsgType} {c : Connection} {dup qos retain : ℕ}
    {rest : List UInt8} (h : c.outboundMessage.data = headerByte type dup qos retain :: rest) :
    Composed type c := by
  right
  rw [h]
  exact mqttGetType_headerByte type dup qos retain

theorem composed_failMessage (type : MsgType) (c : Connection) : Composed type (failMessage c) :=
  Or.inl rfl

theorem composed_finiMessage (type : MsgType) (c : Connection) (dup qos retain : ℕ)
    (body : List UInt8) : Composed type (finiMessage c type dup qos retain body) := by
  unfold finiMessage
  dsimp only
  split
  · exact composed_failMessage type c
  · exact Composed.of_headerByte rfl

theorem composed_finiOrFail (type : MsgType) (c : Connection) (qos : ℕ) (body : Option (List UInt8)) :
    Composed type (finiOrFail c type qos body) := by
  cases body with
  | none => exact composed_failMessage type c
  | some body => exact composed_finiMessage type c 0 qos 0 body

theorem composed_mqttMsgPublish (c : Connection) (topic : Option (List UInt8)) (d : CData)
    (dataLength : ℤ) (qos retain : ℕ) :
    Composed .publish (mqttMsgPublish c topic d dataLength qos retain).2 := by
  unfold mqttMsgPublish
  split
  · exact composed_failMessage .publish _
  · exact composed_failMessage .publish _
  · split
    · exact composed_failMessage .publish _
    · split
      · exact composed_failMessage .publish _
      · dsimp only
        split
        · exact composed_failMessage .publish _
        · exact composed_finiMessage .publish _ 0 qos retain _

theorem composed_mqttMsgConnect (c : Connection) (i : ConnectInfo) :
    Composed .connect (mqttMsgConnect c i) := by
  unfold mqttMsgConnect
  split
  · exact composed_failMessage .connect c
  · exact composed_finiOrFail .connect c 0 _

theorem composed_mqttMsgUnsubscribe (c : Connection) (topic : Option (List UInt8)) :
    Composed .unsubscribe (mqttMsgUnsubscribe c topic).2 := by
  unfold mqttMsgUnsubscribe
  split
  · exact composed_failMessage .unsubscribe c
  · exact composed_failMessage .unsubscribe c
  · exact composed_finiOrFail .unsubscribe _ 1 _

/-- The duplicate flag is not part of the type. -/
theorem packetType_mqttSetDup (data : List UInt8) : packetType (mqttSetDup data) = packetType data := by
  cases data with
  | nil => rfl
  | cons b bs =>
    have hall : ∀ n : Fin 256, (UInt8.ofNat n.val ||| 0x08).toNat/16 = n.val/16 := by decide +kernel
    have hb := hall ⟨b.toNat, b.toNat_lt⟩
    rw [UInt8.ofNat_toNat] at hb
    change mqttGetType (b ||| 0x08) = mqttGetType b
    rw [mqttGetType_eq, mqttGetType_eq, hb]

theorem packetType_append {data : List UInt8} (h : data ≠ []) (rest : List UInt8) :
    packetType (data ++ rest) = packetType data := by
  cases data with
  | nil => exact absurd rfl h
  | cons b bs => rfl

end EspMqtt
