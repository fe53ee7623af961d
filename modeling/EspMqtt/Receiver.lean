import EspMqtt.TopicValid
import EspMqtt.Library.ByteBuffer

/-! `emqtt_receive_into`, the fragment core that reassembles an inbound message
into storage of the length its first fragment declares. -/
namespace EspMqtt

def emqttPayloadMax : ℕ := 4096

/-- `emqtt_message_info_t`. The topic array holds `topic`, a NUL byte and
zeros; only what stands before the NUL is ever read back. -/
structure MessageInfo where
  topic : List UInt8
  length : ℕ
  messageId : ℤ
  qos : ℕ
  retain : Bool
  duplicate : Bool
  deriving DecidableEq, Repr

/-- `emqtt_owned_message_t`, with the number of payload bytes it was allocated
with, which the source does not keep. -/
structure OwnedMessage where
  info : MessageInfo
  payload : List UInt8
  allocated : ℕ
  deriving DecidableEq, Repr

/-- `emqtt_receive_state_t`. -/
structure ReceiveState where
  received : ℕ
  active : Bool
  deriving DecidableEq, Repr

/-- `emqtt_fragment_t`: the fields of a DATA event; a pointer is `none` when it
is NULL, else the bytes it points at. -/
structure Fragment where
  topic : Option (List UInt8)
  topicLength : ℤ
  data : Option (List UInt8)
  dataLength : ℤ
  totalLength : ℤ
  offset : ℤ
  messageId : ℤ
  qos : ℤ
  retain : Bool
  duplicate : Bool
  deriving DecidableEq, Repr

inductive RxResult where
  | more | complete | rejected
  deriving DecidableEq, Repr

/-- `strlen`. -/
def strlen (s : List UInt8) : ℕ := (s.takeWhile (· ≠ 0)).length

/-- `n` bytes at a pointer; NULL is never read. -/
def bytesAt (p : Option (List UInt8)) (n : ℕ) : List UInt8 :=
  (List.range n).map ((p.getD []).getD · 0)

/-- The checks on a fragment that do not depend on the receiver. -/
def fragmentMalformed (capacity : ℕ) (f : Fragment) : Bool :=
  decide (f.topicLength < 0) || decide (f.dataLength < 0) || decide (f.totalLength < 0) ||
  decide (f.offset < 0) || decide ((emqttPayloadMax : ℤ) < f.totalLength) ||
  decide ((capacity : ℤ) < f.totalLength) || decide (f.totalLength < f.offset) ||
  decide (f.totalLength-f.offset < f.dataLength) || (decide (f.dataLength ≠ 0) && f.data.isNone) ||
  decide (f.qos < 0) || decide (1 < f.qos) || decide (f.messageId < 0) ||
  decide (65535 < f.messageId) || (f.qos == 1 && f.messageId == 0) ||
  (f.qos == 0 && f.messageId != 0)

/-- The first fragment names the message; `none` is a rejection. -/
def receiveFirst (f : Fragment) : Option MessageInfo :=
  if f.offset ≠ 0 ∨ emqttTopicValid f.topic f.topicLength.toNat false = false then none
  else some
    { topic := bytesAt f.topic f.topicLength.toNat
      length := f.totalLength.toNat
      messageId := f.messageId
      qos := f.qos.toNat
      retain := f.retain
      duplicate := f.duplicate }

/-- A topic on a later fragment has to repeat the message's topic. -/
def topicRepeats (topic : List UInt8) (f : Fragment) : Bool :=
  f.topicLength == 0 ||
    (f.topic.isSome && f.topicLength.toNat == strlen topic &&
      bytesAt f.topic f.topicLength.toNat == topic.take f.topicLength.toNat)

/-- The fragment continues the message exactly where it stands. -/
def fragmentContinues (received : ℕ) (m : MessageInfo) (f : Fragment) : Bool :=
  f.offset.toNat == received && f.totalLength.toNat == m.length &&
  f.messageId == m.messageId && f.qos == (m.qos : ℤ) && f.retain == m.retain &&
  f.duplicate == m.duplicate && !(f.dataLength == 0 && f.offset != 0)

def rejected (info : MessageInfo) (payload : List UInt8) :
    RxResult × ReceiveState × MessageInfo × List UInt8 :=
  (.rejected, ⟨0,false⟩, info, payload)

/-- `emqtt_receive_into`. -/
def emqttReceiveInto (r : ReceiveState) (info : MessageInfo) (payload : List UInt8)
    (capacity : ℕ) (f : Fragment) : RxResult × ReceiveState × MessageInfo × List UInt8 :=
  if fragmentMalformed capacity f then rejected info payload
  else
    match (if r.active then
        (if topicRepeats info.topic f then some (r, info) else none)
      else (receiveFirst f).map fun i => (⟨0,true⟩, i)) with
    | none => rejected info payload
    | some (r, info) =>
      if fragmentContinues r.received info f then
        let payload := ByteBuffer.splice payload r.received (bytesAt f.data f.dataLength.toNat)
        let received := r.received+f.dataLength.toNat
        if received = info.length then (.complete, ⟨received,false⟩, info, payload)
        else (.more, ⟨received,true⟩, info, payload)
      else rejected info payload

@[simp] theorem bytesAt_length (p : Option (List UInt8)) (n : ℕ) : (bytesAt p n).length = n := by
  simp [bytesAt]

/-- Reading exactly what is there. -/
theorem bytesAt_some (bs : List UInt8) (n : ℕ) (h : n = bs.length) : bytesAt (some bs) n = bs := by
  subst h
  apply List.ext_getElem
  · simp [bytesAt]
  · intro i hi hi'
    simp [bytesAt, List.getD_eq_getElem?_getD, List.getElem?_eq_getElem hi']

theorem not_fragmentMalformed {capacity : ℕ} {f : Fragment}
    (h : fragmentMalformed capacity f = false) :
    0 ≤ f.dataLength ∧ 0 ≤ f.totalLength ∧ 0 ≤ f.offset ∧ f.totalLength ≤ emqttPayloadMax ∧
    f.totalLength ≤ capacity ∧ f.offset+f.dataLength ≤ f.totalLength := by
  simp only [fragmentMalformed, Bool.or_eq_false_iff, decide_eq_false_iff_not] at h
  omega

/-- One fragment, into storage that is active or fresh: the length the storage
was allocated with and the length in its header stay the same. -/
theorem emqttReceiveInto_spec (r : ReceiveState) (m : OwnedMessage) (f : Fragment)
    (hs : m.payload.length = m.info.length)
    (hf : r.active = false → f.totalLength = m.info.length) :
    let o := emqttReceiveInto r m.info m.payload m.info.length f
    o.2.2.1.length = m.info.length ∧ o.2.2.2.length = m.payload.length ∧
    (o.1 = .more → o.2.1.active = true ∧ o.2.1.received ≤ o.2.2.1.length) ∧
    (o.1 = .complete → o.2.1.active = false) ∧ (o.1 = .rejected → o.2.1.active = false) := by
  unfold emqttReceiveInto
  by_cases hm : fragmentMalformed m.info.length f = true
  · rw [if_pos hm]
    simp [rejected]
  · rw [if_neg hm]
    have hb := not_fragmentMalformed (Bool.not_eq_true _ ▸ hm)
    -- the header the fragment is checked against has the allocated length
    have hstart : ∀ r' i, (if r.active then
        (if topicRepeats m.info.topic f then some (r, m.info) else none)
        else (receiveFirst f).map fun i => ((⟨0,true⟩ : ReceiveState), i)) = some (r', i) →
        i.length = m.info.length := by
      intro r' i h
      by_cases ha : r.active = true
      · rw [if_pos ha] at h
        split at h
        · cases h; rfl
        · cases h
      · rw [if_neg ha] at h
        unfold receiveFirst at h
        split at h
        · cases h
        · simp only [Option.map_some, Option.some.injEq, Prod.mk.injEq] at h
          rw [← h.2]
          have := hf (Bool.not_eq_true _ ▸ ha)
          dsimp only
          omega
    split
    · simp [rejected]
    · rename_i r' i he
      have hi := hstart r' i he
      split
      · rename_i hc
        simp only [fragmentContinues, Bool.and_eq_true, beq_iff_eq] at hc
        have hlen : (ByteBuffer.splice m.payload r'.received
            (bytesAt f.data f.dataLength.toNat)).length = m.payload.length := by
          apply ByteBuffer.splice_length
          rw [bytesAt_length]
          omega
        dsimp only
        split
        · simp [hi, hlen]
        · refine ⟨hi, hlen, fun _ => ⟨rfl,?_⟩, by simp, by simp⟩
          dsimp only
          omega
      · refine ⟨hi, rfl, ?_, ?_, ?_⟩ <;> simp [rejected]

end EspMqtt
