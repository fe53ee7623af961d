import EspMqtt.ClientTask
import EspMqtt.ReceivePrefix

/-! Whatever the peer sends and however its bytes arrive, the reader writes inside `in_buffer`, as soon
as that has nine bytes. -/
namespace EspMqtt

/-- The buffer is `l` bytes long, and no more are counted: a write past the end would have made it
longer. -/
structure RxState.InBounds (l : ℕ) (s : RxState) : Prop where
  buffer : s.inBuffer.length = l
  length : s.inBufferLength = l
  readLen : s.inBufferReadLen ≤ l

instance (l : ℕ) (s : RxState) : Decidable (s.InBounds l) :=
  decidable_of_iff (s.inBuffer.length = l ∧ s.inBufferLength = l ∧ s.inBufferReadLen ≤ l)
    ⟨fun h => ⟨h.1, h.2.1, h.2.2⟩, fun h => ⟨h.1, h.2, h.3⟩⟩

namespace RxState.InBounds
variable {l : ℕ} {s : RxState}

theorem store (h : s.InBounds l) {bs : List UInt8} (hfit : s.inBufferReadLen+bs.length ≤ l) :
    (s.store bs).InBounds l where
  buffer := by
    rw [← h.buffer] at hfit
    exact (ByteBuffer.splice_length _ _ _ hfit).trans h.buffer
  length := h.length
  readLen := hfit

/-- What a read asked for has room behind the bytes counted. -/
theorem store_read (h : s.InBounds l) {t t' : Transport} {n : ℕ} {bs : List UInt8}
    (hread : espTransportRead t n = (.bytes bs, t')) (hroom : s.inBufferReadLen+n ≤ l) :
    (s.store bs).InBounds l := by
  apply h.store
  obtain ⟨-,hle⟩ := espTransportRead_bytes hread
  omega

/-- Bytes at the front that are not counted. -/
theorem overwrite (h : s.InBounds l) {bs : List UInt8} (hfit : bs.length ≤ l) :
    {s with inBuffer := ByteBuffer.splice s.inBuffer 0 bs}.InBounds l where
  buffer := by
    rw [← h.buffer, ← Nat.zero_add bs.length] at hfit
    exact (ByteBuffer.splice_length _ _ _ hfit).trans h.buffer
  length := h.length
  readLen := h.readLen

theorem counted (h : s.InBounds l) {n : ℕ} (hn : n ≤ l) (m : ℕ) :
    {s with messageLength := m, inBufferReadLen := n}.InBounds l := ⟨h.buffer, h.length, hn⟩

end RxState.InBounds

/-! The stages of one call. -/

variable {l : ℕ} {s : RxState}

theorem receiveFirstByte_inBounds (hl : 0 < l) (t : Transport) (h : s.InBounds l) :
    (receiveFirstByte t s).2.2.InBounds l := by
  unfold receiveFirstByte
  split
  · rename_i hzero
    generalize hread : espTransportRead t 1 = r
    obtain ⟨res,t'⟩ := r
    cases res with
    | bytes bs =>
      dsimp only
      split
      · exact h.store_read hread (by omega)
      · apply h.overwrite
        obtain ⟨-,hle⟩ := espTransportRead_bytes hread
        exact hle.trans hl
    | timeout => exact h
    | fin => exact h
    | error => exact h
  · exact h

/-- The loop writes one byte at a time, below the sixth place. -/
theorem remainingLengthLoop_inBounds (hl : 6 ≤ l) (k : ℕ) (t : Transport) (h : s.InBounds l)
    (hshort : s.inBufferReadLen < 6) : (remainingLengthLoop k t s).2.2.InBounds l := by
  induction k generalizing t s with
  | zero => exact h
  | succ k ih =>
    unfold remainingLengthLoop
    generalize hread : espTransportRead t 1 = r
    obtain ⟨res,t'⟩ := r
    cases res with
    | bytes bs =>
      have hstored : (s.store bs).InBounds l := h.store_read hread (by omega)
      dsimp only
      split
      · rename_i hmore
        exact ih t' hstored hmore.1
      · exact hstored
    | timeout => exact h
    | fin => exact h
    | error => exact h

theorem receiveRemainingLength_inBounds (hl : 6 ≤ l) (t : Transport) (h : s.InBounds l) :
    (receiveRemainingLength t s).2.2.InBounds l := by
  unfold receiveRemainingLength
  split
  · rename_i hgo
    exact remainingLengthLoop_inBounds hl 6 t h (by omega)
  · exact h

theorem receiveUpTo_inBounds {n : ℕ} (hn : n ≤ l) (t : Transport) (h : s.InBounds l) :
    (receiveUpTo n t s).2.2.InBounds l := by
  unfold receiveUpTo
  split
  · rename_i hlt
    generalize hread : espTransportRead t (n-s.inBufferReadLen) = r
    obtain ⟨res,t'⟩ := r
    cases res with
    | bytes bs =>
      have hstored : (s.store bs).InBounds l := h.store_read hread (by omega)
      dsimp only
      split <;> exact hstored
    | timeout => exact h
    | fin => exact h
    | error => exact h
  · exact h

/-- One byte of the topic length may be there already, and then three more are asked for. -/
theorem receiveTopicLength_inBounds {n : ℕ} (hn : n+4 ≤ l) (t : Transport) (h : s.InBounds l) :
    (receiveTopicLength n t s).2.2.InBounds l := by
  unfold receiveTopicLength
  split
  · rename_i hlt
    generalize hread : espTransportRead t (s.inBufferReadLen-n+2) = r
    obtain ⟨res,t'⟩ := r
    cases res with
    | bytes bs =>
      have hstored : (s.store bs).InBounds l := h.store_read hread (by omega)
      dsimp only
      split <;> exact hstored
    | timeout => exact h
    | fin => exact h
    | error => exact h
  · exact h

theorem receiveOversized_inBounds {n : ℕ} (hn : n+4 ≤ l) (t : Transport) (h : s.InBounds l) :
    (receiveOversized n t s).2.2.InBounds l := by
  unfold receiveOversized
  have htopic := receiveTopicLength_inBounds hn t h
  generalize receiveTopicLength n t s = r at htopic
  obtain ⟨o,t',s'⟩ := r
  cases o with
  | some r => exact htopic
  | none =>
    dsimp only
    by_cases hfit : s'.inBufferLength < n+be16 s'.inBuffer n+
        (if 0 < mqttGetQos (s'.inBuffer.getD 0 0) then 2 else 0)
    · rw [if_pos hfit]
      exact htopic
    · rw [if_neg hfit]
      exact receiveUpTo_inBounds (Nat.le_of_eq htopic.length) t' htopic

theorem receiveRest_inBounds (hl : 9 ≤ l) (t : Transport) (h : s.InBounds l) :
    (receiveRest t s).2.2.InBounds l := by
  have hlength : ∀ m, {s with messageLength := m}.InBounds l := fun m => h.counted h.readLen m
  have hheader : (mqttGetTotalLength s.inBuffer s.inBufferReadLen).2 ≤ 5 :=
    (totalLengthLoop_range s.inBuffer s.inBufferReadLen 4 1 0).2.1
  unfold receiveRest
  dsimp only
  split
  · split
    · exact receiveOversized_inBounds (by omega) t (hlength _)
    · exact hlength _
  · rename_i hfit
    rw [h.length] at hfit
    exact receiveUpTo_inBounds (Nat.le_of_not_lt hfit) t (hlength _)

theorem mqttMessageReceive_inBounds (hl : 9 ≤ l) (t : Transport) (h : s.InBounds l) :
    (mqttMessageReceive t s).2.2.InBounds l := by
  unfold mqttMessageReceive
  have hfirst := receiveFirstByte_inBounds (by omega) t (h.counted h.readLen 0)
  generalize receiveFirstByte t {s with messageLength := 0} = r at hfirst
  obtain ⟨o,t1,s1⟩ := r
  cases o with
  | some r => exact hfirst
  | none =>
    dsimp only at hfirst ⊢
    have hremaining := receiveRemainingLength_inBounds (by omega) t1 hfirst
    generalize receiveRemainingLength t1 s1 = r at hremaining
    obtain ⟨o,t2,s2⟩ := r
    cases o with
    | some r => exact hremaining
    | none => exact receiveRest_inBounds hl t2 hremaining

/-! Any number of calls. -/

/-- What the worker does to the receive state: a call of the reader, or a further piece of a PUBLISH of
which that many bytes are still on the wire. Between the steps the transport may be any. -/
inductive RxStep where
  | receive (t : Transport)
  | deliver (t : Transport) (remaining : ℕ)

/-- A message that has been received is no longer counted. -/
def RxState.step (s : RxState) : RxStep → RxState
  | .receive t =>
    match mqttMessageReceive t s with
    | (.message, _, s) => {s with inBufferReadLen := 0}
    | (_, _, s) => s
  | .deliver t remaining =>
    match espTransportRead t (min s.inBufferLength remaining) with
    | (.bytes bs, _) => {s with inBuffer := ByteBuffer.splice s.inBuffer 0 bs}
    | _ => s

theorem step_inBounds (hl : 9 ≤ l) (h : s.InBounds l) (step : RxStep) : (s.step step).InBounds l := by
  cases step with
  | receive t =>
    have hcall := mqttMessageReceive_inBounds hl t h
    dsimp only [RxState.step]
    generalize mqttMessageReceive t s = r at hcall
    obtain ⟨r,t',s'⟩ := r
    cases r with
    | message => exact hcall.counted (Nat.zero_le l) _
    | failure => exact hcall
    | midMessageTimeout => exact hcall
    | nothing => exact hcall
  | deliver t remaining =>
    dsimp only [RxState.step]
    generalize hread : espTransportRead t (min s.inBufferLength remaining) = r
    obtain ⟨res,t'⟩ := r
    cases res with
    | bytes bs =>
      apply h.overwrite
      obtain ⟨-,hle⟩ := espTransportRead_bytes hread
      have hlength := h.length
      omega
    | timeout => exact h
    | fin => exact h
    | error => exact h

/-- A PUBLISH of more than a quarter of a gigabyte, of which one byte of the topic length comes late. -/
def lateTopicLength : List RxStep :=
  [.receive ⟨true, [0x30, 0xff, 0xff, 0xff, 0x7f, 1], List.replicate 6 (.chunk 0), [], []⟩,
    .receive ⟨true, [1, 1, 1], [.chunk 2], [], []⟩]

/-- Exactly from nine bytes on is `in_buffer` large enough for the reader. -/
theorem receive_in_bounds_iff (l : ℕ) :
    (∀ (buffer : List UInt8) (steps : List RxStep), buffer.length = l →
      (steps.foldl RxState.step ⟨buffer, l, 0, 0⟩).InBounds l) ↔ 9 ≤ l := by
  constructor
  · intro h
    by_contra hl
    have hlate := h (List.replicate l 0) lateTopicLength List.length_replicate
    have hsmall : l < 9 := Nat.lt_of_not_le hl
    interval_cases l <;> exact absurd hlate (by decide)
  · intro hl buffer steps hbuffer
    -- every step leaves the state as it must be for the next one
    have hrun : ∀ s : RxState, s.InBounds l → (steps.foldl RxState.step s).InBounds l := by
      induction steps with
      | nil => exact fun s h => h
      | cons step steps ih => exact fun s h => ih (s.step step) (step_inBounds hl h step)
    exact hrun _ ⟨hbuffer, rfl, Nat.zero_le l⟩

end EspMqtt
