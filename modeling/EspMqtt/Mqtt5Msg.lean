import EspMqtt.MsgBuffer
import EspMqtt.Library.ByteReader

/-! The composing half of `mqtt5_msg.c` on its buffer. Memory that the calls allocate
for a moment is taken to be there. -/
namespace EspMqtt
open Wire

/-- `enum mqtt_properties_type`, as far as the client sends them. -/
inductive PropertyType where
  /-- A field that is not a property. -/
  | none
  | payloadFormatIndicator | messageExpiryInterval | contentType | responseTopic | correlationData
  | subscribeIdentifier | sessionExpiryInterval | requestProblemInfo | willDelayInterval
  | requestRespInfo | receiveMaximum | topicAliasMaximum | topicAlias | userProperty
  | maximumPacketSize
  deriving DecidableEq, Repr

def PropertyType.code : PropertyType → ℕ
  | .none => 0
  | .payloadFormatIndicator => 0x01
  | .messageExpiryInterval => 0x02
  | .contentType => 0x03
  | .responseTopic => 0x08
  | .correlationData => 0x09
  | .subscribeIdentifier => 0x0b
  | .sessionExpiryInterval => 0x11
  | .requestProblemInfo => 0x17
  | .willDelayInterval => 0x18
  | .requestRespInfo => 0x19
  | .receiveMaximum => 0x21
  | .topicAliasMaximum => 0x22
  | .topicAlias => 0x23
  | .userProperty => 0x26
  | .maximumPacketSize => 0x27

/-- `mqtt5_user_property_handle_t`: keys and values, or NULL. -/
abbrev UserProperty := Option (List (List UInt8 × List UInt8))

/-- `esp_mqtt5_connection_property_storage_t`. -/
structure ConnectionProperty where
  sessionExpiryInterval : ℕ
  maximumPacketSize : ℕ
  receiveMaximum : ℕ
  topicAliasMaximum : ℕ
  requestRespInfo : Bool
  requestProblemInfo : Bool
  userProperty : UserProperty

/-- `esp_mqtt5_connection_will_property_storage_t`; the correlation data are as long as
`correlation_data_len` says. -/
structure WillProperty where
  willDelayInterval : ℕ
  messageExpiryInterval : ℕ
  payloadFormatIndicator : Bool
  contentType : Option (List UInt8)
  responseTopic : Option (List UInt8)
  correlationData : Option (List UInt8)
  userProperty : UserProperty

/-- `esp_mqtt5_publish_property_config_t`. -/
structure PublishProperty where
  payloadFormatIndicator : Bool
  messageExpiryInterval : ℕ
  topicAlias : ℕ
  responseTopic : Option (List UInt8)
  correlationData : Option (List UInt8)
  contentType : Option (List UInt8)
  userProperty : UserProperty

/-- `esp_mqtt5_subscribe_property_config_t`. -/
structure SubscribeProperty where
  subscribeId : ℕ
  noLocalFlag : Bool
  retainAsPublishedFlag : Bool
  retainHandle : ℕ
  isShareSubscribe : Bool
  shareName : List UInt8
  userProperty : UserProperty

/-- `esp_mqtt5_unsubscribe_property_config_t`. -/
structure UnsubscribeProperty where
  isShareSubscribe : Bool
  shareName : List UInt8
  userProperty : UserProperty

/-- `esp_mqtt5_disconnect_property_config_t`. -/
structure DisconnectProperty where
  sessionExpiryInterval : ℕ
  disconnectReason : ℕ
  userProperty : UserProperty

/-- `generate_variable_len` on a `size_t` of 32 bits, for which five rounds are enough. -/
def generateVariableLen : ℕ → ℕ → List UInt8
  | 0, _ => []
  | k+1, len =>
    if 0 < len/128 then UInt8.ofNat (len % 128+128) :: generateVariableLen k (len/128)
    else [UInt8.ofNat (len % 128)]

/-- `MQTT5_SHARED_SUB` filled in. `shared_topic_size` is a `uint16_t`, and `snprintf`
keeps one byte of it for the terminator. -/
def sharedTopic (shareName filter : List UInt8) : List UInt8 :=
  let size := (filter.length+12+shareName.length) % 65536
  ([0x24, 0x73, 0x68, 0x61, 0x72, 0x65, 0x2f] ++ shareName ++ 0x2f :: filter).take (size-1)

/-- The response topic with the server's response information behind it.
`response_topic_size` has no byte for the terminator, which is sent in the place of the
last character. -/
def joinedResponseTopic (responseTopic respInfo : List UInt8) : List UInt8 :=
  let size := (responseTopic.length+respInfo.length+1) % 65536
  ((responseTopic ++ 0x2f :: respInfo).take (size-1) ++ [0]).take size

/-- The response topic as it is sent. -/
def sentResponseTopic (responseTopic respInfo : Option (List UInt8)) : Option (List UInt8) :=
  responseTopic.map fun t =>
    match given respInfo with
    | some info => joinedResponseTopic t info
    | none => t

/-- The subscription options behind a filter, one flag after the other. -/
def subscribeOptions (p : Option SubscribeProperty) (qos : ℕ) : UInt8 :=
  let options := match p with
    | none => 0
    | some p =>
      (if 0 < p.retainHandle ∧ p.retainHandle < 3 then UInt8.ofNat (p.retainHandle*16) else 0) |||
        (if p.noLocalFlag then 4 else 0) ||| (if p.retainAsPublishedFlag then 8 else 0)
  options ||| UInt8.ofNat (qos % 4)

/-- The filter as it is sent. -/
def SubscribeProperty.filter (p : Option SubscribeProperty) (filter : List UInt8) : List UInt8 :=
  match p with
  | none => filter
  | some p => if p.isShareSubscribe then sharedTopic p.shareName filter else filter

def UnsubscribeProperty.filter (p : Option UnsubscribeProperty) (filter : List UInt8) : List UInt8 :=
  match p with
  | none => filter
  | some p => if p.isShareSubscribe then sharedTopic p.shareName filter else filter

namespace Composer

/-- `append_property`; `false` is -1. The bytes of a variable-length number are not in
the test for room. -/
def appendProperty (propertyType : PropertyType) (lenOccupy : ℕ) (data : Option (List UInt8))
    (dataLen : ℕ) (s : Composer) : Bool × Composer :=
  let type := if propertyType = .none then [] else [UInt8.ofNat propertyType.code]
  if s.connection.bufferLength <
      s.length+lenOccupy+(if data.isSome then dataLen else 0)+type.length then (false, s)
  else
    let s := s.append type
    let s := s.append (if lenOccupy = 0 then generateVariableLen 5 dataLen
      else ByteReader.bigEndian lenOccupy dataLen)
    (true, s.append ((data.getD []).take dataLen))

/-- A string behind its length. -/
def appendText (propertyType : PropertyType) (text : List UInt8) : Composer → Bool × Composer :=
  appendProperty propertyType 2 (some text) text.length

/-- Steps one after the other, up to the first that fails. -/
def chain (steps : List (Composer → Bool × Composer)) (s : Composer) : Bool × Composer :=
  steps.foldl andThen (true, s)

/-- A number that is left out when it is zero. -/
def appendNonzero (propertyType : PropertyType) (lenOccupy n : ℕ) (s : Composer) : Bool × Composer :=
  if n ≠ 0 then s.appendProperty propertyType lenOccupy none n else (true, s)

/-- A flag that is left out when it is not set. -/
def appendFlag (propertyType : PropertyType) (flag : Bool) (s : Composer) : Bool × Composer :=
  if flag then s.appendProperty propertyType 1 none 1 else (true, s)

/-- A string that is left out when it is NULL. -/
def appendOptional (propertyType : PropertyType) (text : Option (List UInt8)) (s : Composer) :
    Bool × Composer :=
  match text with
  | none => (true, s)
  | some text => s.appendText propertyType text

/-- The loop over a list of user properties. -/
def appendUserProperties : List (List UInt8 × List UInt8) → Composer → Bool × Composer
  | [], s => (true, s)
  | (key, value) :: l, s =>
    andThen (andThen (s.appendText .userProperty key) (appendText .none value)) (appendUserProperties l)

def appendUserProperty (l : UserProperty) (s : Composer) : Bool × Composer :=
  match l with
  | none => (true, s)
  | some l => appendUserProperties l s

/-- The loop of `update_property_len_value`: `k` bytes, the last of them at `i`, move up,
the last one first. -/
def shiftUp (offset : ℕ) : ℕ → ℕ → Composer → Composer
  | 0, _, s => s
  | k+1, i, s => shiftUp offset k (i-1) (s.write (i+offset) [s.buffer.getD i 0])

/-- `update_property_len_value`; `false` is -1. -/
def updatePropertyLenValue (propertyLen propertyOffset : ℕ) (s : Composer) : Bool × Composer :=
  let lens := generateVariableLen 5 propertyLen
  let offset := lens.length-1
  let s := {s with length := s.length+offset}
  if s.connection.bufferLength < s.length then (false, s)
  else
    let s := if 0 < offset then shiftUp offset propertyLen (propertyOffset+propertyLen) s else s
    (true, s.write propertyOffset lens)

/-- A block of properties: a byte is kept free for its length, which is filled in at the
end. -/
def withProperties (steps : List (Composer → Bool × Composer)) (s : Composer) : Bool × Composer :=
  let propertiesOffset := s.length
  andThen (chain steps {s with length := s.length+1}) fun s =>
    s.updatePropertyLenValue (s.length-propertiesOffset-1) propertiesOffset

/-- `fini_message` behind the computation of the length bytes. -/
def sealMessage (s : Composer) (lens : List UInt8) (type : MsgType) (dup qos retain : ℕ) :
    Composer :=
  if 5 < lens.length+1 then s.failMessage
  else
    let offs := 5-1-lens.length
    let t := (s.write offs [headerByte type dup qos retain]).write (offs+1) lens
    let length := s.length-5+lens.length+1
    let m := s.connection.outboundMessage
    {t with
      length := length
      connection := {s.connection with outboundMessage :=
        {m with data := (t.buffer.drop offs).take length
                fragmentedMsgDataOffset := m.fragmentedMsgDataOffset-offs}}}

/-- `fini_message` of `mqtt5_msg.c`: `total_length` is an `int` and handed on as a
`size_t`. -/
def mqtt5FiniMessage (s : Composer) (type : MsgType) (dup qos retain : ℕ) : Composer :=
  let total := s.totalLength
  s.sealMessage (generateVariableLen 5 (if total < 0 then total+2^32 else total).toNat) type dup qos
    retain

/-- The end of a call. -/
def mqtt5Finish (r : Bool × Composer) (type : MsgType) (qos : ℕ) : Composer :=
  if r.1 then r.2.mqtt5FiniMessage type 0 qos 0 else r.2.failMessage

def connectionProperties (p : ConnectionProperty) : List (Composer → Bool × Composer) :=
  [appendNonzero .sessionExpiryInterval 4 p.sessionExpiryInterval,
    appendNonzero .maximumPacketSize 4 p.maximumPacketSize,
    appendNonzero .receiveMaximum 2 p.receiveMaximum,
    appendNonzero .topicAliasMaximum 2 p.topicAliasMaximum,
    appendFlag .requestRespInfo p.requestRespInfo,
    appendFlag .requestProblemInfo p.requestProblemInfo,
    appendUserProperty p.userProperty]

def willProperties (p : WillProperty) : List (Composer → Bool × Composer) :=
  [appendNonzero .willDelayInterval 4 p.willDelayInterval,
    appendFlag .payloadFormatIndicator p.payloadFormatIndicator,
    appendNonzero .messageExpiryInterval 4 p.messageExpiryInterval,
    appendOptional .contentType p.contentType,
    appendOptional .responseTopic p.responseTopic,
    appendOptional .correlationData (given p.correlationData),
    appendUserProperty p.userProperty]

/-- The will of a CONNECT, its properties first. -/
def mqtt5AppendWill (flagsOffset : ℕ) (i : ConnectInfo) (p : WillProperty) (s : Composer) :
    Bool × Composer :=
  match given i.willTopic with
  | none => (true, s)
  | some topic =>
    chain [withProperties (willProperties p), appendText .none topic, appendText .none i.willMessage,
      fun s =>
        let s := s.orFlag flagsOffset 4
        let s := if i.willRetain then s.orFlag flagsOffset 32 else s
        (true, s.orFlag flagsOffset (UInt8.ofNat (i.willQos % 4*8)))] s

def mqtt5AppendUsername (flagsOffset : ℕ) (i : ConnectInfo) (s : Composer) : Bool × Composer :=
  match given i.username with
  | none => (true, s)
  | some username => chain [appendText .none username, fun s => (true, s.orFlag flagsOffset 128)] s

/-- The password, behind an empty user name if there is none. -/
def mqtt5AppendPassword (flagsOffset : ℕ) (i : ConnectInfo) (s : Composer) : Bool × Composer :=
  match given i.password with
  | none => (true, s)
  | some password =>
    chain [fun s =>
        if (given i.username).isNone then
          chain [appendProperty .none 2 none 0, fun s => (true, s.orFlag flagsOffset 128)] s
        else (true, s),
      appendText .none password, fun s => (true, s.orFlag flagsOffset 64)] s

/-- `mqtt5_msg_connect`; nothing looks for room for the first ten bytes. -/
def mqtt5MsgConnect (s : Composer) (i : ConnectInfo) (property : ConnectionProperty)
    (willProperty : WillProperty) : Composer :=
  let s := s.setMessageHeaderSize.append [0, 4, 0x4d, 0x51, 0x54, 0x54, 5]
  let flagsOffset := s.length
  let s := (s.append [0]).append (u16 i.keepalive)
  let s := if i.cleanSession then s.orFlag flagsOffset 2 else s
  let r := chain [withProperties (connectionProperties property),
    match given i.clientId with
      | some clientId => appendText .none clientId
      | none => appendProperty .none 2 none 0,
    mqtt5AppendWill flagsOffset i willProperty,
    mqtt5AppendUsername flagsOffset i, mqtt5AppendPassword flagsOffset i] s
  mqtt5Finish r .connect 0

def publishProperties (property : Option PublishProperty) (respInfo : Option (List UInt8)) :
    List (Composer → Bool × Composer) :=
  match property with
  | none => []
  | some p =>
    [appendFlag .payloadFormatIndicator p.payloadFormatIndicator,
      appendNonzero .messageExpiryInterval 4 p.messageExpiryInterval,
      appendNonzero .topicAlias 2 p.topicAlias,
      appendOptional .responseTopic (sentResponseTopic p.responseTopic respInfo),
      appendOptional .correlationData (given p.correlationData),
      appendUserProperty p.userProperty,
      appendOptional .contentType p.contentType]

/-- The payload of a PUBLISH, or as much of it as the buffer takes. -/
def mqtt5AppendPayload (s : Composer) (d : CData) (dataLength : ℤ) : Composer :=
  let c := s.connection
  let m := c.outboundMessage
  if (c.bufferLength : ℤ) < s.length+dataLength then
    -- the message is fragmented: its total length and where its data begins are kept
    {s.append (d.slice 0 (c.bufferLength-s.length)) with connection :=
      {c with outboundMessage :=
        {m with fragmentedMsgDataOffset := s.length
                fragmentedMsgTotalLength := (dataLength+s.length).toNat}}}
  else
    {(if d.isNull then s else s.append (d.slice 0 dataLength.toNat)) with connection :=
      {c with outboundMessage := {m with fragmentedMsgTotalLength := 0}}}

/-- `mqtt5_msg_publish`, with the identifier it reports. -/
def mqtt5MsgPublish (s : Composer) (topic : Option (List UInt8)) (d : CData) (dataLength : ℤ)
    (qos retain : ℕ) (property : Option PublishProperty) (respInfo : Option (List UInt8)) :
    ℕ × Composer :=
  let s := s.setMessageHeaderSize
  if (given topic).isNone ∧ (property.map PublishProperty.topicAlias).getD 0 = 0 then
    (0, s.failMessage)
  else
    let r := appendProperty .none 2 topic ((given topic).getD []).length s
    if r.1 = false then (0, r.2.failMessage)
    else if d.isNull ∧ 0 < dataLength then (0, r.2.failMessage)
    else
      let r := if 0 < qos then r.2.appendMessageId 0 else (0, r.2)
      if 0 < qos ∧ r.1 = 0 then (0, r.2.failMessage)
      else
        let p := withProperties (publishProperties property respInfo) r.2
        if p.1 = false then (r.1, p.2.failMessage)
        else (r.1, (p.2.mqtt5AppendPayload d dataLength).mqtt5FiniMessage .publish 0 qos retain)

def subscribeProperties (property : Option SubscribeProperty) : List (Composer → Bool × Composer) :=
  match property with
  | none => []
  | some p => [appendNonzero .subscribeIdentifier 0 p.subscribeId, appendUserProperty p.userProperty]

/-- The loop of `mqtt5_msg_subscribe`. -/
def mqtt5AppendTopics (property : Option SubscribeProperty) :
    List (List UInt8 × ℕ) → Composer → Bool × Composer
  | [], s => (true, s)
  | (filter, qos) :: topics, s =>
    if filter = [] then (false, s)
    else
      andThen (s.appendText .none (SubscribeProperty.filter property filter)) fun s =>
        if s.connection.bufferLength < s.length+1 then (false, s)
        else mqtt5AppendTopics property topics (s.append [subscribeOptions property qos])

/-- `mqtt5_msg_subscribe`, with the identifier it reports. -/
def mqtt5MsgSubscribe (s : Composer) (topics : List (List UInt8 × ℕ))
    (property : Option SubscribeProperty) : ℕ × Composer :=
  let r := s.setMessageHeaderSize.appendMessageId 0
  if r.1 = 0 then (0, r.2.failMessage)
  else
    (r.1, mqtt5Finish
      (chain [withProperties (subscribeProperties property), mqtt5AppendTopics property topics] r.2)
      .subscribe 1)

/-- `mqtt5_msg_unsubscribe`, with the identifier it reports. -/
def mqtt5MsgUnsubscribe (s : Composer) (topic : Option (List UInt8))
    (property : Option UnsubscribeProperty) : ℕ × Composer :=
  let s := s.setMessageHeaderSize
  match topic with
  | none | some [] => (0, s.failMessage)
  | some topic =>
    let r := s.appendMessageId 0
    if r.1 = 0 then (0, r.2.failMessage)
    else
      (r.1, mqtt5Finish
        (chain [withProperties [appendUserProperty (property.bind UnsubscribeProperty.userProperty)],
          appendText .none (UnsubscribeProperty.filter property topic)] r.2) .unsubscribe 1)

def disconnectProperties (reasonOffset : ℕ) (property : Option DisconnectProperty) :
    List (Composer → Bool × Composer) :=
  match property with
  | none => []
  | some p =>
    [appendNonzero .sessionExpiryInterval 4 p.sessionExpiryInterval,
      appendUserProperty p.userProperty,
      fun s => (true, if p.disconnectReason ≠ 0 then
        s.write reasonOffset [UInt8.ofNat p.disconnectReason] else s)]

/-- `mqtt5_msg_disconnect`; the reason is filled in behind the properties. -/
def mqtt5MsgDisconnect (s : Composer) (property : Option DisconnectProperty) : Composer :=
  let s := s.setMessageHeaderSize
  let reasonOffset := s.length
  mqtt5Finish (withProperties (disconnectProperties reasonOffset property) (s.append [0]))
    .disconnect 0

/-- The acknowledgements: success, and no properties. -/
def mqtt5AckMessage (type : MsgType) (qos : ℕ) (s : Composer) (messageId : ℕ) : Composer :=
  let r := s.setMessageHeaderSize.appendMessageId messageId
  if r.1 = 0 then r.2.failMessage else mqtt5Finish (withProperties [] (r.2.append [0])) type qos

def mqtt5MsgPuback : Composer → ℕ → Composer := mqtt5AckMessage .puback 0

def mqtt5MsgPubrec : Composer → ℕ → Composer := mqtt5AckMessage .pubrec 0

def mqtt5MsgPubrel : Composer → ℕ → Composer := mqtt5AckMessage .pubrel 1

def mqtt5MsgPubcomp : Composer → ℕ → Composer := mqtt5AckMessage .pubcomp 0

end Composer

end EspMqtt
