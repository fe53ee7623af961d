import EspMqtt.MsgParse

/-! What a v5 client reads: the identifier of a packet, and
`mqtt5_msg_parse_connack_property` and `esp_mqtt5_parse_connack`, what it takes out of a CONNACK. -/
namespace EspMqtt

/-- The loop of `get_variable_len`: it reads at most four bytes from `i` on; `shift`
counts those read so far. -/
def variableLenLoop (buffer : List UInt8) (bufferLength : ℕ) : ℕ → ℕ → ℕ → ℕ → ℕ × ℕ
  | 0, _, i, len => (len, i)
  | k+1, shift, i, len =>
    if i < bufferLength then
      let b := buffer.getD i 0
      let len := len+(b &&& 0x7f).toNat*2^(7*shift)
      if b &&& 0x80 = 0 then (len, i+1) else variableLenLoop buffer bufferLength k (shift+1) (i+1) len
    else (len, i)

/-- `get_variable_len`: the value, and the number of bytes it takes; a field that
does not end within four bytes counts as none. -/
def getVariableLen (buffer : List UInt8) (offset bufferLength : ℕ) : ℕ × ℕ :=
  let r := variableLenLoop buffer bufferLength 4 0 offset 0
  if r.2-offset = 4 ∧ r.2 ≤ bufferLength ∧ buffer.getD (r.2-1) 0 &&& 0x80 ≠ 0 then (0, 0)
  else (r.1, r.2-offset)

/-- `mqtt5_get_id`; 0 when the packet has none. -/
def mqtt5GetId (buffer : List UInt8) (length : ℕ) : ℕ :=
  let offset := 1+(getVariableLen buffer 1 length).2
  if length < offset+2 then 0
  else
    match mqttGetType (buffer.getD 0 0) with
    | some .publish =>
      let offset := offset+2+be16 buffer offset
      if length < offset+2 then 0
      else if mqttGetQos (buffer.getD 0 0) = 0 then 0
      else be16 buffer offset
    | some .puback | some .pubrec | some .pubrel | some .pubcomp | some .suback
    | some .unsuback | some .subscribe | some .unsubscribe => be16 buffer offset
    | _ => 0

/-- The bytes behind a property length, inside the input buffer. -/
structure PropertySection where
  buffer : List UInt8
  start : ℕ
  length : ℕ

namespace PropertySection

/-- `property[o]`. -/
def byteAt (p : PropertySection) (o : ℕ) : UInt8 := p.buffer.getD (p.start+o) 0

/-- `property_offset` is a `uint16_t`. -/
def advance (o n : ℕ) : ℕ := (o+n) % 65536

/-- `mqtt5_property_has_bytes`. -/
def hasBytes (p : PropertySection) (o needed : ℕ) : Bool :=
  decide (o ≤ p.length) && decide (needed ≤ p.length-o)

/-- A number of `k` bytes, the first of them the highest. -/
def number (p : PropertySection) : ℕ → ℕ → ℕ → ℕ
  | 0, _, value => value
  | k+1, o, value => p.number k (advance o 1) (value*256+(p.byteAt o).toNat)

end PropertySection

/-- What stands behind the identifier of a property: a number of so many bytes, a
string or two of them. The code does not look for the bytes of every number. -/
inductive PropertyFormat where
  | number (bytes : ℕ) (checked : Bool)
  | string
  | stringPair
  deriving DecidableEq

inductive PropertyValue where
  | number (n : ℕ)
  | string (bytes : List UInt8)
  | stringPair (key value : List UInt8)
  deriving DecidableEq

namespace PropertySection

/-- `MQTT5_MAX_PROPERTY_STRING_LEN`. -/
def maxStringLen : ℕ := 16*1024

/-- A string and the offset behind it; `none` is `ESP_FAIL`. -/
def readString (p : PropertySection) (o : ℕ) : Option (List UInt8 × ℕ) :=
  if p.hasBytes o 2 then
    let len := p.number 2 o 0
    let o := advance o 2
    if maxStringLen < len ∨ p.hasBytes o len = false then none
    else some ((p.buffer.drop (p.start+o)).take len, advance o len)
  else none

/-- The value of a property and the offset behind it; `none` is `ESP_FAIL`. -/
def readValue (p : PropertySection) (o : ℕ) : PropertyFormat → Option (PropertyValue × ℕ)
  | .number bytes checked =>
    if checked ∧ p.hasBytes o bytes = false then none
    else some (.number (p.number bytes o 0), advance o bytes)
  | .string => (p.readString o).map fun r => (.string r.1, r.2)
  | .stringPair =>
    match p.readString o with
    | none => none
    | some key => (p.readString key.2).map fun r => (.stringPair key.1 r.1, r.2)

end PropertySection

/-- The properties that the switch over a CONNACK knows. -/
inductive ConnackId where
  | sessionExpiryInterval | receiveMaximum | maximumQos | retainAvailable | maximumPacketSize
  | assignedClientIdentifier | topicAliasMaximum | reasonString | userProperty
  | wildcardSubscrAvailable | subscrIdentifierAvailable | sharedSubscrAvailable | serverKeepAlive
  | respInfo | serverReference | authenticationMethod | authenticationData
  deriving DecidableEq

namespace ConnackId

def ofCode : ℕ → Option ConnackId
  | 0x11 => some .sessionExpiryInterval
  | 0x21 => some .receiveMaximum
  | 0x24 => some .maximumQos
  | 0x25 => some .retainAvailable
  | 0x27 => some .maximumPacketSize
  | 0x12 => some .assignedClientIdentifier
  | 0x22 => some .topicAliasMaximum
  | 0x1f => some .reasonString
  | 0x26 => some .userProperty
  | 0x28 => some .wildcardSubscrAvailable
  | 0x29 => some .subscrIdentifierAvailable
  | 0x2a => some .sharedSubscrAvailable
  | 0x13 => some .serverKeepAlive
  | 0x1a => some .respInfo
  | 0x1c => some .serverReference
  | 0x15 => some .authenticationMethod
  | 0x16 => some .authenticationData
  | _ => none

/-- How each case of the switch reads its property. -/
def format : ConnackId → PropertyFormat
  | .sessionExpiryInterval => .number 4 true
  | .receiveMaximum => .number 2 false
  | .maximumQos | .retainAvailable => .number 1 true
  | .maximumPacketSize => .number 4 false
  | .topicAliasMaximum => .number 2 false
  | .wildcardSubscrAvailable | .subscrIdentifierAvailable | .sharedSubscrAvailable => .number 1 true
  | .serverKeepAlive => .number 2 true
  | .userProperty => .stringPair
  | .assignedClientIdentifier | .reasonString | .respInfo | .serverReference
  | .authenticationMethod | .authenticationData => .string

end ConnackId

/-- `char *response_info`: it may point to memory that has been freed. -/
inductive ResponseInfo where
  | null
  | text (bytes : List UInt8)
  | freed
  deriving DecidableEq

/-- `esp_mqtt5_connection_server_resp_property_t`. -/
structure ServerResp where
  maximumPacketSize : ℕ
  receiveMaximum : ℕ
  topicAliasMaximum : ℕ
  maxQos : ℕ
  retainAvailable : Bool
  wildcardSubscribeAvailable : Bool
  subscribeIdentifiersAvailable : Bool
  sharedSubscribeAvailable : Bool
  responseInfo : ResponseInfo
  deriving DecidableEq

/-- `MQTT5_DEFAULT_RECEIVE_MAXIMUM`. -/
def mqtt5DefaultReceiveMaximum : ℕ := 65535

/-- What `esp_mqtt5_create_default_config` leaves in the zeroed structure. -/
def espMqtt5CreateDefaultConfig : ServerResp where
  maximumPacketSize := 0
  receiveMaximum := mqtt5DefaultReceiveMaximum
  topicAliasMaximum := 0
  maxQos := 2
  retainAvailable := true
  wildcardSubscribeAvailable := true
  subscribeIdentifiersAvailable := true
  sharedSubscribeAvailable := true
  responseInfo := .null

/-- What a CONNACK changes in the client; `allocs` are the answers of `calloc`. -/
structure ConnackInfo where
  server : ServerResp
  clientId : Option (List UInt8)
  keepalive : ℕ
  sessionExpiryInterval : ℕ
  userProperty : Option (List (List UInt8 × List UInt8))
  sessionPresent : Bool
  reported : ServerResp
  responseInfoLen : ℕ
  allocs : List Bool

namespace ConnackInfo

def alloc (t : ConnackInfo) : Bool × ConnackInfo := (t.allocs.head?.getD true, {t with allocs := t.allocs.tail})

/-- `n` allocations, until one fails. -/
def allocAll : ℕ → ConnackInfo → Bool × ConnackInfo
  | 0, t => (true, t)
  | n+1, t =>
    match t.alloc with
    | (true, t) => allocAll n t
    | (false, t) => (false, t)

/-- `mqtt5_msg_set_user_property`, and what its caller does when it fails. -/
def setUserProperty (t : ConnackInfo) (key value : List UInt8) : Bool × ConnackInfo :=
  -- the list itself if there is none yet, the item and its two strings
  match t.allocAll (if t.userProperty.isNone then 4 else 3) with
  | (true, t) => (true, {t with userProperty := some (t.userProperty.getD [] ++ [(key, value)])})
  | (false, t) => (false, {t with userProperty := none})

/-- What a case of the switch does with the value it has read; false is `ESP_FAIL`. -/
def store (t : ConnackInfo) : ConnackId → PropertyValue → Bool × ConnackInfo
  | .sessionExpiryInterval, .number n => (true, {t with sessionExpiryInterval := n})
  | .receiveMaximum, .number n => (true, {t with server := {t.server with receiveMaximum := n}})
  | .maximumQos, .number n => (true, {t with server := {t.server with maxQos := n}})
  | .retainAvailable, .number n => (true, {t with server := {t.server with retainAvailable := n != 0}})
  | .maximumPacketSize, .number n => (true, {t with server := {t.server with maximumPacketSize := n}})
  | .topicAliasMaximum, .number n => (true, {t with server := {t.server with topicAliasMaximum := n}})
  | .wildcardSubscrAvailable, .number n =>
    (true, {t with server := {t.server with wildcardSubscribeAvailable := n != 0}})
  | .subscrIdentifierAvailable, .number n =>
    (true, {t with server := {t.server with subscribeIdentifiersAvailable := n != 0}})
  | .sharedSubscrAvailable, .number n =>
    (true, {t with server := {t.server with sharedSubscribeAvailable := n != 0}})
  | .serverKeepAlive, .number n => (true, {t with keepalive := n})
  | .assignedClientIdentifier, .string bs =>
    match t.alloc with
    | (true, t) => (true, {t with clientId := some bs})
    | (false, t) => (false, {t with clientId := none})
  | .respInfo, .string bs =>
    match t.alloc with
    | (true, t) => (true, {t with server := {t.server with responseInfo := .text bs}})
    | (false, t) => (false, {t with server := {t.server with responseInfo := .null}})
  | .userProperty, .stringPair key value => t.setUserProperty key value
  | _, _ => (true, t)

/-- The response information is freed before the bytes of the new one are looked for. -/
def release (t : ConnackInfo) : ConnackId → ConnackInfo
  | .respInfo =>
    {t with server := {t.server with responseInfo :=
      if t.server.responseInfo = .null then .null else .freed}}
  | _ => t

end ConnackInfo

/-- The loop over the properties of a CONNACK; `none` while it is still running. -/
def connackPropertyLoop (p : PropertySection) : ℕ → ℕ → ConnackInfo → Option (Bool × ConnackInfo)
  | 0, _, _ => none
  | k+1, o, t =>
    if o < p.length then
      match ConnackId.ofCode (p.byteAt o).toNat with
      | none => some (false, t)
      | some id =>
        let t := t.release id
        match p.readValue (PropertySection.advance o 1) id.format with
        | none => some (false, t)
        | some (value, o) =>
          match t.store id value with
          | (true, t) => connackPropertyLoop p k o t
          | (false, t) => some (false, t)
    else some (true, t)

/-- What `mqtt5_msg_parse_connack_property` returns and writes. -/
structure ConnackParse where
  ok : Bool
  reasonCode : ℕ
  ackFlag : UInt8
  info : ConnackInfo

/-- Where the acknowledge flags of a CONNACK are looked for. -/
def connackFlagsOffset (buffer : List UInt8) (bufferLen : ℕ) : ℕ := 1+(getVariableLen buffer 1 bufferLen).2

/-- The properties of a CONNACK. -/
def connackSection (buffer : List UInt8) (bufferLen : ℕ) : PropertySection :=
  let offset := connackFlagsOffset buffer bufferLen+2
  let r := getVariableLen buffer offset bufferLen
  ⟨buffer, offset+r.2, r.1⟩

/-- `mqtt5_msg_parse_connack_property`. -/
def mqtt5MsgParseConnackProperty (fuel : ℕ) (buffer : List UInt8) (bufferLen : ℕ) (t : ConnackInfo) :
    Option ConnackParse :=
  let t := {t with userProperty := none}
  let offset := connackFlagsOffset buffer bufferLen
  if bufferLen < (getVariableLen buffer 1 bufferLen).1+offset then some ⟨false, 0, 0, t⟩
  else
    let ackFlag := buffer.getD offset 0
    let reasonCode := (buffer.getD (offset+1) 0).toNat
    let p := connackSection buffer bufferLen
    -- the difference is unsigned
    if ((bufferLen : ℤ)-p.start) % 2^32 < p.length then some ⟨false, reasonCode, ackFlag, t⟩
    else (connackPropertyLoop p fuel 0 t).map fun r => ⟨r.1, reasonCode, ackFlag, r.2⟩

/-- `strlen` of the response information, 0 for none. -/
def responseInfoLength : ResponseInfo → ℕ
  | .text bs => (bs.takeWhile (· ≠ 0)).length
  | _ => 0

/-- `esp_mqtt5_parse_connack` on the `len` bytes that were read. -/
def espMqtt5ParseConnack (fuel : ℕ) (buffer : List UInt8) (len : ℕ) (t : ConnackInfo) :
    Option ConnackParse :=
  let t := {t with server := {t.server with receiveMaximum := mqtt5DefaultReceiveMaximum}}
  (mqtt5MsgParseConnackProperty fuel buffer len t).map fun r =>
    if r.ok ∧ r.reasonCode = 0 then
      {r with info := {r.info with
        sessionPresent := r.ackFlag &&& 0x01 != 0
        reported := r.info.server, responseInfoLen := responseInfoLength r.info.server.responseInfo}}
    else {r with ok := false}

end EspMqtt
