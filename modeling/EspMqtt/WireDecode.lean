import EspMqtt.Wire
import EspMqtt.Library.ByteReader

/-! A reference decoder for the MQTT 3.1.1 packets a client sends, written from
the protocol and not from the client. -/
namespace EspMqtt.Wire
open ByteReader

structure Will where
  topic : List UInt8
  message : List UInt8
  qos : ℕ
  retain : Bool
  deriving DecidableEq, Repr

/-- What a CONNECT packet asks for. -/
structure Connect where
  clientId : List UInt8
  cleanSession : Bool
  keepalive : ℕ
  will : Option Will
  username : Option (List UInt8)
  password : Option (List UInt8)
  deriving DecidableEq, Repr

/-- The packets a client sends. -/
inductive Packet where
  | connect (c : Connect)
  | publish (p : Publish)
  | puback (id : ℕ)
  | pubrec (id : ℕ)
  | pubrel (id : ℕ)
  | pubcomp (id : ℕ)
  | subscribe (id : ℕ) (filters : List (List UInt8 × ℕ))
  | unsubscribe (id : ℕ) (filters : List (List UInt8))
  | pingreq
  | disconnect
  deriving DecidableEq, Repr

/-- The protocol name, in two-byte count and letters. -/
def protocolName : List UInt8 := [0x4d, 0x51, 0x54, 0x54]

/-- The connect flags: the reserved bit is clear, the will fields are clear without
a will and the QoS is not 3, and there is no password without a user name. -/
def connectFlagsOk (f : ℕ) : Bool :=
  f % 2 == 0 && (f/4 % 2 == 1 || f/8 % 8 % 4 + 4*(f/32 % 2) == 0) && f/8 % 4 != 3 &&
    (f/128 % 2 == 1 || f/64 % 2 == 0)

def readWill (f : ℕ) : Reader Will := fun bs =>
  (counted bs).bind fun (topic, bs) =>
  (counted bs).map fun (message, bs) => (⟨topic, message, f/8 % 4, f/32 % 2 == 1⟩, bs)

def decodeConnect (bs : List UInt8) : Option Packet :=
  (counted bs).bind fun (name, bs) =>
  (byte bs).bind fun (level, bs) =>
  (byte bs).bind fun (flags, bs) =>
  (word bs).bind fun (keepalive, bs) =>
  (counted bs).bind fun (clientId, bs) =>
  (optional (flags.toNat/4 % 2 == 1) (readWill flags.toNat) bs).bind fun (will, bs) =>
  (optional (flags.toNat/128 % 2 == 1) counted bs).bind fun (username, bs) =>
  (optional (flags.toNat/64 % 2 == 1) counted bs).bind fun (password, bs) =>
  if name = protocolName ∧ level = 4 ∧ connectFlagsOk flags.toNat ∧ bs = [] then
    some (.connect ⟨clientId, flags.toNat/2 % 2 == 1, keepalive, will, username, password⟩)
  else none

/-- A PUBLISH with first byte `first`. -/
def decodePublish (first : UInt8) (bs : List UInt8) : Option Packet :=
  let qos := first.toNat/2 % 4
  let dup := first.toNat/8 % 2 == 1
  (counted bs).bind fun (topic, bs) =>
  (optional (decide (0 < qos)) word bs).bind fun (id, payload) =>
  if qos ≤ 2 ∧ (qos = 0 → dup = false) ∧ id ≠ some 0 ∧ topic ≠ [] then
    some (.publish ⟨topic, payload, qos, first.toNat % 2 == 1, dup, id.getD 0⟩)
  else none

/-- A packet that is only an identifier. -/
def decodeAck (make : ℕ → Packet) (bs : List UInt8) : Option Packet :=
  (word bs).bind fun (id, bs) => if id ≠ 0 ∧ bs = [] then some (make id) else none

def readFilter : Reader (List UInt8 × ℕ) := fun bs =>
  (counted bs).bind fun (filter, bs) =>
  (byte bs).bind fun (qos, bs) =>
  if qos.toNat ≤ 2 ∧ filter ≠ [] then some ((filter, qos.toNat), bs) else none

def decodeSubscribe (bs : List UInt8) : Option Packet :=
  (word bs).bind fun (id, bs) =>
  (many readFilter bs.length bs).bind fun filters =>
  if id ≠ 0 then some (.subscribe id filters) else none

def readTopicFilter : Reader (List UInt8) := fun bs =>
  (counted bs).bind fun (filter, bs) => if filter ≠ [] then some (filter, bs) else none

def decodeUnsubscribe (bs : List UInt8) : Option Packet :=
  (word bs).bind fun (id, bs) =>
  (many readTopicFilter bs.length bs).bind fun filters =>
  if id ≠ 0 then some (.unsubscribe id filters) else none

/-- The body of a packet, by its first byte; the flags are those the protocol
prescribes. -/
def decodeBody (first : UInt8) (body : List UInt8) : Option Packet :=
  match first.toNat/16, first.toNat % 16 with
  | 1, 0 => decodeConnect body
  | 3, _ => decodePublish first body
  | 4, 0 => decodeAck .puback body
  | 5, 0 => decodeAck .pubrec body
  | 6, 2 => decodeAck .pubrel body
  | 7, 0 => decodeAck .pubcomp body
  | 8, 2 => decodeSubscribe body
  | 10, 2 => decodeUnsubscribe body
  | 12, 0 => if body = [] then some .pingreq else none
  | 14, 0 => if body = [] then some .disconnect else none
  | _, _ => none

/-- Exactly one packet. -/
def decode (bs : List UInt8) : Option Packet :=
  (byte bs).bind fun (first, bs) =>
  (base128 4 bs).bind fun (n, body) => if body.length = n then decodeBody first body else none

/-- A first byte, the Remaining Length in its shortest form, and the body. -/
theorem decode_framed (first : UInt8) (body : List UInt8) (h : body.length < 128^4) :
    decode (first :: (Base128.encode 3 body.length ++ body)) = decodeBody first body := by
  have hlen := base128_encode 3 body.length h body
  unfold decode
  simp only [byte_cons, Option.bind_some, hlen, if_true]

end EspMqtt.Wire
