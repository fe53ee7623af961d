import EspMqtt.WireDecode

/-! MQTT 5 on the wire: a reference decoder for the packets a client sends, written
from the protocol and not from the client. -/
namespace EspMqtt.Wire5
open ByteReader
open Wire (u16)

/-! Properties. -/

/-- What stands behind the identifier of a property. Binary data look like strings. -/
inductive Format where
  | byte | twoBytes | fourBytes | variable | string | pair
  deriving DecidableEq, Repr

/-- The properties of the packets a client may send. -/
inductive PropertyId where
  | payloadFormatIndicator | messageExpiryInterval | contentType | responseTopic | correlationData
  | subscriptionIdentifier | sessionExpiryInterval | authenticationMethod | authenticationData
  | requestProblemInformation | willDelayInterval | requestResponseInformation | reasonString
  | receiveMaximum | topicAliasMaximum | topicAlias | userProperty | maximumPacketSize
  deriving DecidableEq, Repr

namespace PropertyId

def code : PropertyId → ℕ
  | .payloadFormatIndicator => 1
  | .messageExpiryInterval => 2
  | .contentType => 3
  | .responseTopic => 8
  | .correlationData => 9
  | .subscriptionIdentifier => 11
  | .sessionExpiryInterval => 17
  | .authenticationMethod => 21
  | .authenticationData => 22
  | .requestProblemInformation => 23
  | .willDelayInterval => 24
  | .requestResponseInformation => 25
  | .reasonString => 31
  | .receiveMaximum => 33
  | .topicAliasMaximum => 34
  | .topicAlias => 35
  | .userProperty => 38
  | .maximumPacketSize => 39

def ofCode : ℕ → Option PropertyId
  | 1 => some .payloadFormatIndicator
  | 2 => some .messageExpiryInterval
  | 3 => some .contentType
  | 8 => some .responseTopic
  | 9 => some .correlationData
  | 11 => some .subscriptionIdentifier
  | 17 => some .sessionExpiryInterval
  | 21 => some .authenticationMethod
  | 22 => some .authenticationData
  | 23 => some .requestProblemInformation
  | 24 => some .willDelayInterval
  | 25 => some .requestResponseInformation
  | 31 => some .reasonString
  | 33 => some .receiveMaximum
  | 34 => some .topicAliasMaximum
  | 35 => some .topicAlias
  | 38 => some .userProperty
  | 39 => some .maximumPacketSize
  | _ => none

def format : PropertyId → Format
  | .payloadFormatIndicator | .requestProblemInformation | .requestResponseInformation => .byte
  | .receiveMaximum | .topicAliasMaximum | .topicAlias => .twoBytes
  | .messageExpiryInterval | .sessionExpiryInterval | .willDelayInterval | .maximumPacketSize =>
    .fourBytes
  | .subscriptionIdentifier => .variable
  | .contentType | .responseTopic | .correlationData | .authenticationMethod | .authenticationData
  | .reasonString => .string
  | .userProperty => .pair

theorem ofCode_code (id : PropertyId) : ofCode id.code = some id := by cases id <;> rfl

end PropertyId

inductive Value where
  | number (n : ℕ)
  | text (bytes : List UInt8)
  | pair (key value : List UInt8)
  deriving DecidableEq, Repr

abbrev Property := PropertyId × Value

/-- The values the protocol allows: some numbers are only 0 or 1, and some are not 0. -/
def Property.Allowed : Property → Prop
  | (.payloadFormatIndicator, .number n) | (.requestProblemInformation, .number n)
  | (.requestResponseInformation, .number n) => n ≤ 1
  | (.receiveMaximum, .number n) | (.topicAlias, .number n) | (.maximumPacketSize, .number n)
  | (.subscriptionIdentifier, .number n) => n ≠ 0
  | _ => True

instance (p : Property) : Decidable p.Allowed := by unfold Property.Allowed; split <;> infer_instance

def readValue : Format → Reader Value
  | .byte => fun bs => (number 1 bs).map fun (n, bs) => (.number n, bs)
  | .twoBytes => fun bs => (number 2 bs).map fun (n, bs) => (.number n, bs)
  | .fourBytes => fun bs => (number 4 bs).map fun (n, bs) => (.number n, bs)
  | .variable => fun bs => (base128 4 bs).map fun (n, bs) => (.number n, bs)
  | .string => fun bs => (counted bs).map fun (t, bs) => (.text t, bs)
  | .pair => fun bs =>
    (counted bs).bind fun (key, bs) => (counted bs).map fun (value, bs) => (.pair key value, bs)

def readProperty : Reader Property := fun bs =>
  (byte bs).bind fun (code, bs) =>
  (PropertyId.ofCode code.toNat).bind fun id =>
  (readValue id.format bs).bind fun (v, bs) =>
  if Property.Allowed (id, v) then some ((id, v), bs) else none

/-- The properties of a packet. Only the user property may come more than once. -/
structure Properties where
  payloadFormatIndicator : Option ℕ := none
  messageExpiryInterval : Option ℕ := none
  contentType : Option (List UInt8) := none
  responseTopic : Option (List UInt8) := none
  correlationData : Option (List UInt8) := none
  subscriptionIdentifier : Option ℕ := none
  sessionExpiryInterval : Option ℕ := none
  authenticationMethod : Option (List UInt8) := none
  authenticationData : Option (List UInt8) := none
  requestProblemInformation : Option ℕ := none
  willDelayInterval : Option ℕ := none
  requestResponseInformation : Option ℕ := none
  reasonString : Option (List UInt8) := none
  receiveMaximum : Option ℕ := none
  topicAliasMaximum : Option ℕ := none
  topicAlias : Option ℕ := none
  maximumPacketSize : Option ℕ := none
  user : List (List UInt8 × List UInt8) := []
  deriving DecidableEq, Repr

def Value.number? : Value → Option ℕ
  | .number n => some n
  | _ => none

def Value.text? : Value → Option (List UInt8)
  | .text t => some t
  | _ => none

def Value.pair? : Value → Option (List UInt8 × List UInt8)
  | .pair key value => some (key, value)
  | _ => none

/-- The number that a list of properties has for an identifier. -/
def numberOf (id : PropertyId) (ps : List Property) : Option ℕ :=
  ps.findSome? fun p => if p.1 = id then p.2.number? else none

def textOf (id : PropertyId) (ps : List Property) : Option (List UInt8) :=
  ps.findSome? fun p => if p.1 = id then p.2.text? else none

def Properties.ofList (ps : List Property) : Properties where
  payloadFormatIndicator := numberOf .payloadFormatIndicator ps
  messageExpiryInterval := numberOf .messageExpiryInterval ps
  contentType := textOf .contentType ps
  responseTopic := textOf .responseTopic ps
  correlationData := textOf .correlationData ps
  subscriptionIdentifier := numberOf .subscriptionIdentifier ps
  sessionExpiryInterval := numberOf .sessionExpiryInterval ps
  authenticationMethod := textOf .authenticationMethod ps
  authenticationData := textOf .authenticationData ps
  requestProblemInformation := numberOf .requestProblemInformation ps
  willDelayInterval := numberOf .willDelayInterval ps
  requestResponseInformation := numberOf .requestResponseInformation ps
  reasonString := textOf .reasonString ps
  receiveMaximum := numberOf .receiveMaximum ps
  topicAliasMaximum := numberOf .topicAliasMaximum ps
  topicAlias := numberOf .topicAlias ps
  maximumPacketSize := numberOf .maximumPacketSize ps
  user := ps.filterMap fun p => p.2.pair?

/-- The identifiers that may come only once. -/
def singleIds (ps : List Property) : List PropertyId :=
  (ps.map Prod.fst).filter fun id => decide (id ≠ .userProperty)

/-- A block of properties: its length, and exactly as many bytes as that. Identifiers
other than `allowed` and the user property are an error, and so is one that comes twice. -/
def readProperties (allowed : List PropertyId) : Reader Properties := fun bs =>
  (base128 4 bs).bind fun (n, bs) =>
  (bytes n bs).bind fun (block, bs) =>
  (many readProperty n block).bind fun ps =>
  if (singleIds ps).Nodup ∧ ∀ id ∈ singleIds ps, id ∈ allowed then some (Properties.ofList ps, bs)
  else none

/-! Packets. -/

structure Will where
  topic : List UInt8
  message : List UInt8
  qos : ℕ
  retain : Bool
  properties : Properties
  deriving DecidableEq, Repr

structure Connect where
  clientId : List UInt8
  cleanStart : Bool
  keepalive : ℕ
  properties : Properties
  will : Option Will
  username : Option (List UInt8)
  password : Option (List UInt8)
  deriving DecidableEq, Repr

structure Publish where
  topic : List UInt8
  payload : List UInt8
  qos : ℕ
  retain : Bool
  dup : Bool
  id : ℕ
  properties : Properties
  deriving DecidableEq, Repr

/-- A filter of a SUBSCRIBE with its options. -/
structure Subscription where
  filter : List UInt8
  qos : ℕ
  noLocal : Bool
  retainAsPublished : Bool
  retainHandling : ℕ
  deriving DecidableEq, Repr

inductive Packet where
  | connect (c : Connect)
  | publish (p : Publish)
  | puback (id reason : ℕ) (properties : Properties)
  | pubrec (id reason : ℕ) (properties : Properties)
  | pubrel (id reason : ℕ) (properties : Properties)
  | pubcomp (id reason : ℕ) (properties : Properties)
  | subscribe (id : ℕ) (properties : Properties) (filters : List Subscription)
  | unsubscribe (id : ℕ) (properties : Properties) (filters : List (List UInt8))
  | disconnect (reason : ℕ) (properties : Properties)
  deriving DecidableEq, Repr

def connectIds : List PropertyId :=
  [.sessionExpiryInterval, .receiveMaximum, .maximumPacketSize, .topicAliasMaximum,
    .requestResponseInformation, .requestProblemInformation, .authenticationMethod,
    .authenticationData]

def willIds : List PropertyId :=
  [.willDelayInterval, .payloadFormatIndicator, .messageExpiryInterval, .contentType, .responseTopic,
    .correlationData]

def publishIds : List PropertyId :=
  [.payloadFormatIndicator, .messageExpiryInterval, .topicAlias, .responseTopic, .correlationData,
    .contentType]

/-- The connect flags: the reserved bit is clear, and the will fields are clear without a
will and the QoS is not 3. -/
def connectFlagsOk (f : ℕ) : Bool :=
  f % 2 == 0 && (f/4 % 2 == 1 || f/8 % 8 % 4 + 4*(f/32 % 2) == 0) && f/8 % 4 != 3

def readWill (f : ℕ) : Reader Will := fun bs =>
  (readProperties willIds bs).bind fun (properties, bs) =>
  (counted bs).bind fun (topic, bs) =>
  (counted bs).map fun (message, bs) => (⟨topic, message, f/8 % 4, f/32 % 2 == 1, properties⟩, bs)

def decodeConnect (bs : List UInt8) : Option Packet :=
  (counted bs).bind fun (name, bs) =>
  (byte bs).bind fun (level, bs) =>
  (byte bs).bind fun (flags, bs) =>
  (word bs).bind fun (keepalive, bs) =>
  (readProperties connectIds bs).bind fun (properties, bs) =>
  (counted bs).bind fun (clientId, bs) =>
  (optional (flags.toNat/4 % 2 == 1) (readWill flags.toNat) bs).bind fun (will, bs) =>
  (optional (flags.toNat/128 % 2 == 1) counted bs).bind fun (username, bs) =>
  (optional (flags.toNat/64 % 2 == 1) counted bs).bind fun (password, bs) =>
  if name = Wire.protocolName ∧ level = 5 ∧ connectFlagsOk flags.toNat ∧ bs = [] then
    some (.connect ⟨clientId, flags.toNat/2 % 2 == 1, keepalive, properties, will, username, password⟩)
  else none

/-- A PUBLISH with first byte `first`; without a topic it has an alias. -/
def decodePublish (first : UInt8) (bs : List UInt8) : Option Packet :=
  let qos := first.toNat/2 % 4
  let dup := first.toNat/8 % 2 == 1
  (counted bs).bind fun (topic, bs) =>
  (optional (decide (0 < qos)) word bs).bind fun (id, bs) =>
  (readProperties publishIds bs).bind fun (properties, payload) =>
  if qos ≤ 2 ∧ (qos = 0 → dup = false) ∧ id ≠ some 0 ∧
      (topic = [] → properties.topicAlias.isSome) then
    some (.publish ⟨topic, payload, qos, first.toNat % 2 == 1, dup, id.getD 0, properties⟩)
  else none

/-- A reason and properties, both of which may be left out at the end of a packet. -/
def readReason (allowed : List PropertyId) (bs : List UInt8) : Option (ℕ × Properties) :=
  match bs with
  | [] => some (0, {})
  | [reason] => some (reason.toNat, {})
  | reason :: bs =>
    (readProperties allowed bs).bind fun (properties, bs) =>
    if bs = [] then some (reason.toNat, properties) else none

def decodeAck (make : ℕ → ℕ → Properties → Packet) (bs : List UInt8) : Option Packet :=
  (word bs).bind fun (id, bs) =>
  (readReason [.reasonString] bs).bind fun (reason, properties) =>
  if id ≠ 0 then some (make id reason properties) else none

def readSubscription : Reader Subscription := fun bs =>
  (counted bs).bind fun (filter, bs) =>
  (byte bs).bind fun (o, bs) =>
  if o.toNat < 64 ∧ o.toNat % 4 ≠ 3 ∧ o.toNat/16 ≠ 3 ∧ filter ≠ [] then
    some (⟨filter, o.toNat % 4, o.toNat/4 % 2 == 1, o.toNat/8 % 2 == 1, o.toNat/16⟩, bs)
  else none

def decodeSubscribe (bs : List UInt8) : Option Packet :=
  (word bs).bind fun (id, bs) =>
  (readProperties [.subscriptionIdentifier] bs).bind fun (properties, bs) =>
  (many readSubscription bs.length bs).bind fun filters =>
  if id ≠ 0 ∧ filters ≠ [] then some (.subscribe id properties filters) else none

def decodeUnsubscribe (bs : List UInt8) : Option Packet :=
  (word bs).bind fun (id, bs) =>
  (readProperties [] bs).bind fun (properties, bs) =>
  (many Wire.readTopicFilter bs.length bs).bind fun filters =>
  if id ≠ 0 ∧ filters ≠ [] then some (.unsubscribe id properties filters) else none

def decodeDisconnect (bs : List UInt8) : Option Packet :=
  (readReason [.sessionExpiryInterval, .reasonString] bs).map fun (reason, properties) =>
    .disconnect reason properties

/-- The body of a packet, by its first byte. -/
def decodeBody (first : UInt8) (body : List UInt8) : Option Packet :=
  match first.toNat/16, first.toNat % 16 with
  | 1, 0 => decodeConnect body
  | 3, _ => decodePublish first body
  | 4, 0 => decodeAck .puback body
  | 5, 0 => decodeAck .pubrec body
  | 6, 2 => decodeAck .pubrel body
  | 7, 0 => decodeAck .pubcomp body
  | 8, 2 => decodeSubscribe body
  | 10, 2 => decodeUnsubscribe body
  | 14, 0 => decodeDisconnect body
  | _, _ => none

/-- Exactly one packet. -/
def decode (bs : List UInt8) : Option Packet :=
  (byte bs).bind fun (first, bs) =>
  (base128 4 bs).bind fun (n, body) => if body.length = n then decodeBody first body else none

theorem decode_framed (first : UInt8) (body : List UInt8) (h : body.length < 128^4) :
    decode (first :: (Base128.encode 3 body.length ++ body)) = decodeBody first body := by
  have hlen := base128_encode 3 body.length h body
  unfold decode
  simp only [byte_cons, Option.bind_some, hlen, if_true]

/-! Properties as they are written, read back. -/

def Value.bytes : Format → Value → List UInt8
  | .byte, .number n => bigEndian 1 n
  | .twoBytes, .number n => bigEndian 2 n
  | .fourBytes, .number n => bigEndian 4 n
  | .variable, .number n => Base128.encode 3 n
  | .string, .text t => u16 t.length ++ t
  | .pair, .pair key value => u16 key.length ++ key ++ (u16 value.length ++ value)
  | _, _ => []

def Property.bytes (p : Property) : List UInt8 := UInt8.ofNat p.1.code :: p.2.bytes p.1.format

/-- A value the format has room for. -/
def Value.Fits : Format → Value → Prop
  | .byte, .number n => n < 256^1
  | .twoBytes, .number n => n < 256^2
  | .fourBytes, .number n => n < 256^4
  | .variable, .number n => n < 128^4
  | .string, .text t => t.length < 65536
  | .pair, .pair key value => key.length < 65536 ∧ value.length < 65536
  | _, _ => False

structure Property.Sendable (p : Property) : Prop where
  fits : p.2.Fits p.1.format
  allowed : p.Allowed

theorem readValue_bytes {f : Format} {v : Value} (h : v.Fits f) (bs : List UInt8) :
    readValue f (v.bytes f ++ bs) = some (v, bs) := by
  have hnumber {k n : ℕ} (hn : n < 256^k) :
      (number k (bigEndian k n ++ bs)).map (fun (n, bs) => (Value.number n, bs)) =
        some (.number n, bs) := by
    rw [number_bigEndian, Nat.mod_eq_of_lt hn]
    rfl
  match f, v, h with
  | .byte, .number n, h => exact hnumber h
  | .twoBytes, .number n, h => exact hnumber h
  | .fourBytes, .number n, h => exact hnumber h
  | .variable, .number n, h =>
    have hread := base128_encode 3 n h bs
    simp only [readValue, Value.bytes, hread, Option.map_some]
  | .string, .text t, h =>
    have hread := counted_append t h bs
    simp only [readValue, Value.bytes, List.append_assoc]
    exact congrArg (Option.map _) hread
  | .pair, .pair key value, h =>
    have hkey := counted_append key h.1 (u16 value.length ++ value ++ bs)
    have hvalue := counted_append value h.2 bs
    have hboth : Value.bytes .pair (.pair key value) ++ bs =
        UInt8.ofNat (key.length/256) :: UInt8.ofNat (key.length % 256) ::
          (key ++ (u16 value.length ++ value ++ bs)) := by
      simp [Value.bytes, u16]
    have hrest : u16 value.length ++ value ++ bs = UInt8.ofNat (value.length/256) ::
        UInt8.ofNat (value.length % 256) :: (value ++ bs) := by
      simp [u16]
    simp only [readValue]
    rw [hboth, hkey, Option.bind_some, hrest, hvalue, Option.map_some]

theorem readProperty_bytes {p : Property} (h : p.Sendable) (bs : List UInt8) :
    readProperty (p.bytes ++ bs) = some (p, bs) := by
  have hcode : (UInt8.ofNat p.1.code).toNat = p.1.code := by
    cases p.1 <;> rfl
  unfold readProperty Property.bytes
  simp only [List.cons_append, byte_cons, Option.bind_some, hcode, PropertyId.ofCode_code,
    readValue_bytes h.fits]
  exact if_pos h.allowed

theorem flatMap_length_ge {α : Type} {f : α → List UInt8} {l : List α} (h : ∀ a ∈ l, f a ≠ []) :
    l.length ≤ (l.flatMap f).length := by
  induction l with
  | nil => simp
  | cons a l ih =>
    have hpos := List.length_pos_of_ne_nil (h a List.mem_cons_self)
    have hrest := ih fun x hx => h x (List.mem_cons_of_mem _ hx)
    rw [List.flatMap_cons, List.length_append, List.length_cons]
    omega

theorem readProperties_block {allowed : List PropertyId} {ps : List Property}
    (hsend : ∀ p ∈ ps, Property.Sendable p) (hone : (singleIds ps).Nodup)
    (hallowed : ∀ id ∈ singleIds ps, id ∈ allowed)
    (hlen : (ps.flatMap Property.bytes).length < 128^4) (bs : List UInt8) :
    readProperties allowed (Base128.encode 3 (ps.flatMap Property.bytes).length ++
      (ps.flatMap Property.bytes ++ bs)) = some (Properties.ofList ps, bs) := by
  have hne : ∀ p ∈ ps, Property.bytes p ≠ [] := fun p _ => List.cons_ne_nil _ _
  have hmany := many_flatMap readProperty Property.bytes ps (ps.flatMap Property.bytes).length
    (fun p hp => readProperty_bytes (hsend p hp)) hne (flatMap_length_ge hne)
  unfold readProperties
  simp only [base128_encode 3 _ hlen, Option.bind_some, bytes_append, hmany]
  exact if_pos ⟨hone,hallowed⟩

end EspMqtt.Wire5
