import Mathlib.Data.List.GetD
import EspMqtt.Library.Base128
import EspMqtt.Library.ByteBuffer

/-! MQTT 3.1.1 on the wire, as the protocol defines it. Nothing here is taken
from the client: these are the reference encodings it is compared with. -/
namespace EspMqtt.Wire

/-- Packet type in the high nibble, and the flags the protocol prescribes for
that type in the low one. -/
def FirstByteOk (b : UInt8) : Prop :=
  let ty := b.toNat/16
  let flags := b.toNat % 16
  (1 ≤ ty ∧ ty ≤ 14) ∧
  (ty = 3 → flags/2 % 4 ≠ 3 ∧ (flags/2 % 4 = 0 → flags/8 = 0)) ∧
  (ty = 6 ∨ ty = 8 ∨ ty = 10 → flags = 2) ∧
  (ty ≠ 3 ∧ ty ≠ 6 ∧ ty ≠ 8 ∧ ty ≠ 10 → flags = 0)

instance (b : UInt8) : Decidable (FirstByteOk b) := by unfold FirstByteOk; infer_instance

/-- A control packet as its fixed header presents it: one to four Remaining
Length bytes (not necessarily the shortest form), and as many body bytes as
they announce. -/
structure Frame where
  first : UInt8
  lens : List UInt8
  body : List UInt8
  first_ok : FirstByteOk first
  lens_ok : Base128.IsField lens
  lens_le : lens.length ≤ 4
  body_length : body.length = Base128.value lens

namespace Frame

def bytes (f : Frame) : List UInt8 := f.first :: (f.lens ++ f.body)

def headerLength (f : Frame) : ℕ := 1+f.lens.length

theorem bytes_length (f : Frame) : f.bytes.length = f.headerLength+f.body.length := by
  simp only [bytes, headerLength, List.length_cons, List.length_append]
  omega

theorem two_le_headerLength (f : Frame) : 2 ≤ f.headerLength := by
  have := f.lens_ok.length_pos
  unfold headerLength
  omega

theorem headerLength_le (f : Frame) : f.headerLength ≤ 5 := by
  have := f.lens_le
  unfold headerLength
  omega

theorem bytes_ne_nil (f : Frame) : f.bytes ≠ [] := List.cons_ne_nil _ _

/-- Positions 1 up to the header length hold the Remaining Length field. -/
theorem getD_lens (f : Frame) (j : ℕ) (hj : j < f.lens.length) :
    f.bytes.getD (1+j) 0 = f.lens.getD j 0 := by
  rw [Nat.add_comm, bytes, List.getD_cons_succ, List.getD_append _ _ _ _ hj]

theorem header_continues (f : Frame) (i : ℕ) (h1 : 1 ≤ i) (hi : i+1 < f.headerLength) :
    128 ≤ (f.bytes.getD i 0).toNat := by
  obtain ⟨j,rfl⟩ := Nat.exists_eq_add_of_le h1
  unfold headerLength at hi
  rw [f.getD_lens j (by omega)]
  exact f.lens_ok.continues j (by omega)

theorem header_stops (f : Frame) : (f.bytes.getD (f.headerLength-1) 0).toNat < 128 := by
  have hl := f.lens_ok.length_pos
  have he : f.headerLength-1 = 1+(f.lens.length-1) := by unfold headerLength; omega
  rw [he, f.getD_lens _ (by omega)]
  exact f.lens_ok.stops

end Frame

/-- A byte stream made of whole packets. -/
def stream (fs : List Frame) : List UInt8 := (fs.map Frame.bytes).flatten

@[simp] theorem stream_nil : stream [] = [] := rfl

@[simp] theorem stream_cons (f : Frame) (fs : List Frame) :
    stream (f :: fs) = f.bytes ++ stream fs := rfl

/-- A 16-bit number, most significant byte first. -/
def u16 (n : ℕ) : List UInt8 := [UInt8.ofNat (n/256), UInt8.ofNat (n % 256)]

@[simp] theorem u16_length (n : ℕ) : (u16 n).length = 2 := rfl

/-- An application message as a PUBLISH packet carries it; a QoS 0 packet has
no identifier. -/
structure Publish where
  topic : List UInt8
  payload : List UInt8
  qos : ℕ
  retain : Bool
  dup : Bool
  id : ℕ
  deriving DecidableEq, Repr

namespace Publish

structure WellFormed (p : Publish) : Prop where
  qos_le : p.qos ≤ 2
  topic_length : p.topic.length < 65536
  qos_zero : p.qos = 0 → p.dup = false ∧ p.id = 0
  id_range : 0 < p.qos → 1 ≤ p.id ∧ p.id < 65536

def firstByte (p : Publish) : UInt8 :=
  UInt8.ofNat (48+(if p.dup then 8 else 0)+2*p.qos+(if p.retain then 1 else 0))

/-- Everything before the payload. -/
def variableHeader (p : Publish) : List UInt8 :=
  u16 p.topic.length ++ p.topic ++ (if 0 < p.qos then u16 p.id else [])

def body (p : Publish) : List UInt8 := p.variableHeader ++ p.payload

/-- The packet, with its Remaining Length in the shortest form. -/
def encoding (p : Publish) : List UInt8 :=
  p.firstByte :: (Base128.encode 3 p.body.length ++ p.body)

theorem variableHeader_length (p : Publish) :
    p.variableHeader.length = 2+p.topic.length+(if 0 < p.qos then 2 else 0) := by
  unfold variableHeader
  split <;> simp only [List.length_append, u16_length, List.length_nil]

end Publish

/-- The packet `f` is a PUBLISH of `p`. -/
structure IsPublish (f : Frame) (p : Publish) : Prop where
  wellFormed : p.WellFormed
  first : f.first = p.firstByte
  body : f.body = p.body

end EspMqtt.Wire
