import EspMqtt.ReceiverAgreement
import Mathlib.Data.List.TakeWhile

/-! The public reassembler over whole sequences of fragments: what it accepts are the
fragments of one message, in order, and it hands out what they carry. -/
namespace EspMqtt

/-! What belongs together, said without the receiver. -/

namespace Fragment

/-- The bytes a fragment carries. -/
def bytes (f : Fragment) : List UInt8 := bytesAt f.data f.dataLength.toNat

/-- The topic it names. -/
def topicBytes (f : Fragment) : List UInt8 := bytesAt f.topic f.topicLength.toNat

/-- The memory behind the topic pointer is there. -/
def Backed (f : Fragment) : Prop := ∀ t, f.topic = some t → f.topicLength.toNat ≤ t.length

/-- A piece of some message of at most 4096 bytes. -/
structure WellFormed (f : Fragment) : Prop where
  topicLength : 0 ≤ f.topicLength
  offset : 0 ≤ f.offset
  dataLength : 0 ≤ f.dataLength
  inside : f.offset+f.dataLength ≤ f.totalLength
  total : f.totalLength ≤ emqttPayloadMax
  data : f.dataLength ≠ 0 → f.data.isSome
  number : f.qos = 0 ∧ f.messageId = 0 ∨ f.qos = 1 ∧ 1 ≤ f.messageId ∧ f.messageId ≤ 65535

/-- It can be the first one. -/
structure Opens (f : Fragment) : Prop extends WellFormed f where
  start : f.offset = 0
  topic : emqttTopicValid f.topic f.topicLength.toNat false = true

/-- It goes on with the message that `first` has begun and of which `received` bytes
are there. -/
structure Continues (f first : Fragment) (received : ℕ) : Prop extends WellFormed f where
  next : f.offset = received
  sameTotal : f.totalLength = first.totalLength
  sameId : f.messageId = first.messageId
  sameQos : f.qos = first.qos
  sameRetain : f.retain = first.retain
  sameDuplicate : f.duplicate = first.duplicate
  topic : f.topicLength = 0 ∨ f.topic.isSome ∧ f.topicBytes = first.topicBytes
  nonempty : f.offset ≠ 0 → f.dataLength ≠ 0

/-- The metadata of the message it begins. -/
def info (f : Fragment) : MessageInfo where
  topic := f.topicBytes
  length := f.totalLength.toNat
  messageId := f.messageId
  qos := f.qos.toNat
  retain := f.retain
  duplicate := f.duplicate

end Fragment

/-- What these fragments carry. -/
def payloadOf (fs : List Fragment) : List UInt8 := fs.flatMap Fragment.bytes

/-- The fragments of one message from the first one on, each where the others end. -/
structure Coherent (first : Fragment) (rest : List Fragment) : Prop where
  opens : first.Opens
  continues : ∀ l f r, rest = l ++ f :: r → f.Continues first (payloadOf (first :: l)).length

/-- `f` can follow the fragments that have been accepted so far. -/
def Acceptable (accepted : List Fragment) (f : Fragment) : Prop :=
  match accepted with
  | [] => f.Opens
  | first :: rest => f.Continues first (payloadOf (first :: rest)).length

/-! The receiver over a sequence of calls. -/

/-- The receiver behind these calls; a fragment may be NULL. -/
def receiveSeq (r : EmqttReceiver) (fs : List (Option Fragment)) : EmqttReceiver :=
  fs.foldl (fun r f => (emqttReceive r f).2) r

/-- What the calls return. -/
def verdicts (r : EmqttReceiver) : List (Option Fragment) → List RxResult
  | [] => []
  | f :: fs => (emqttReceive r f).1 :: verdicts (emqttReceive r f).2 fs

/-- The fragments of the message in progress. -/
def acceptedFrom (r : EmqttReceiver) (acc : List Fragment) : List (Option Fragment) → List Fragment
  | [] => acc
  | f :: fs =>
    acceptedFrom (emqttReceive r f).2
      (if (emqttReceive r f).1 = .more then acc ++ f.toList else []) fs

/-! The tests of `emqtt_receive_into`. -/

theorem fragmentMalformed_iff (f : Fragment) :
    fragmentMalformed emqttPayloadMax f = false ↔ f.WellFormed := by
  simp only [fragmentMalformed, Bool.or_eq_false_iff, Bool.and_eq_false_iff, decide_eq_false_iff_not,
    beq_eq_false_iff_ne, bne_eq_false_iff_eq]
  constructor
  · intro h
    refine ⟨by omega, by omega, by omega, by omega, by omega, fun hne => ?_, by omega⟩
    have hdata := h.1.1.1.1.1.1.2
    rcases hdata with hdata | hdata
    · exact absurd hne hdata
    · simpa [Option.isSome_iff_ne_none] using hdata
  · rintro ⟨h1,h2,h3,h4,h5,h6,h7⟩
    refine ⟨⟨⟨⟨⟨⟨⟨⟨⟨⟨⟨⟨⟨⟨?_,?_⟩,?_⟩,?_⟩,?_⟩,?_⟩,?_⟩,?_⟩,?_⟩,?_⟩,?_⟩,?_⟩,?_⟩,?_⟩,?_⟩
    all_goals try omega
    by_cases hne : f.dataLength = 0
    · exact Or.inl (not_not.mpr hne)
    · right
      obtain ⟨d,hd⟩ := Option.isSome_iff_exists.mp (h6 hne)
      rw [hd]
      rfl

/-- The text of a topic has no NUL byte in it. -/
theorem utf8Extra_split {extra code code' : ℕ} {text text' : List UInt8}
    (h : utf8Extra extra code text = some (code', text')) :
    ∃ l, text = l ++ text' ∧ ∀ b ∈ l, b ≠ 0 := by
  induction extra generalizing code text with
  | zero =>
    rw [utf8Extra, Option.some.injEq, Prod.mk.injEq] at h
    exact ⟨[], h.2, by simp⟩
  | succ extra ih =>
    cases text with
    | nil => simp [utf8Extra] at h
    | cons b text =>
      rw [utf8Extra] at h
      split at h
      · rename_i hb
        obtain ⟨l,hl,hne⟩ := ih h
        refine ⟨b :: l, by rw [hl, List.cons_append], ?_⟩
        intro c hc
        rcases List.mem_cons.mp hc with rfl | hc
        · intro hz
          rw [hz] at hb
          exact absurd hb (by decide)
        · exact hne c hc
      · simp at h

theorem utf8Loop_not_nul {fuel : ℕ} {text : List UInt8} (h : utf8Loop fuel text = true) :
    ∀ b ∈ text, b ≠ 0 := by
  induction fuel generalizing text with
  | zero =>
    cases text with
    | nil => simp
    | cons b text => simp [utf8Loop] at h
  | succ fuel ih =>
    cases text with
    | nil => simp
    | cons b text =>
      rw [utf8Loop] at h
      split at h
      · simp at h
      · rename_i code extra minimum hlead
        split at h
        · simp at h
        · rename_i code' text' hextra
          rw [Bool.and_eq_true] at h
          obtain ⟨l,hl,hne⟩ := utf8Extra_split hextra
          intro c hc
          rcases List.mem_cons.mp hc with rfl | hc
          · -- the code of a NUL byte is below 0x20
            intro hz
            rw [hz] at hlead
            have hzero : utf8Lead 0 = some (0, 0, 0) := by decide
            rw [hzero, Option.some.injEq, Prod.mk.injEq, Prod.mk.injEq] at hlead
            obtain ⟨rfl,rfl,rfl⟩ := hlead
            rw [utf8Extra, Option.some.injEq, Prod.mk.injEq] at hextra
            rw [← hextra.1] at h
            exact absurd h.1 (by decide)
          · rw [hl] at hc
            rcases List.mem_append.mp hc with hc | hc
            · exact hne c hc
            · exact ih h.2 c hc

/-- So `strlen` of the topic that the first fragment leaves is its length. -/
theorem Fragment.Opens.strlen_topic {f : Fragment} (h : f.Opens) (hb : f.Backed) :
    strlen f.topicBytes = f.topicBytes.length := by
  have htopic := h.topic
  cases ht : f.topic with
  | none =>
    rw [ht] at htopic
    simp [emqttTopicValid] at htopic
  | some t =>
    rw [ht] at htopic
    have hlen := hb t ht
    simp only [emqttTopicValid, Bool.and_eq_true, Bool.not_eq_true', Bool.or_eq_false_iff,
      Bool.not_eq_false'] at htopic
    have hbytes : f.topicBytes = t.take f.topicLength.toNat := by
      have hread : (t.take f.topicLength.toNat).length = f.topicLength.toNat := by
        rw [List.length_take]
        omega
      unfold Fragment.topicBytes
      rw [ht]
      apply List.ext_getElem
      · rw [bytesAt_length, hread]
      · intro i hi hi'
        rw [bytesAt_length] at hi
        simp [bytesAt, List.getD_eq_getElem?_getD,
          List.getElem?_eq_getElem (show i < t.length by omega)]
    have hall : (t.take f.topicLength.toNat).takeWhile (· ≠ 0) = t.take f.topicLength.toNat := by
      rw [List.takeWhile_eq_self_iff]
      intro b hbm
      exact decide_eq_true (utf8Loop_not_nul htopic.1.2 b hbm)
    rw [hbytes, strlen, hall]

theorem topicRepeats_iff {first : Fragment} (h : first.Opens) (hb : first.Backed) (f : Fragment) :
    topicRepeats first.topicBytes f = true ↔
      f.topicLength = 0 ∨ f.topic.isSome ∧ f.topicBytes = first.topicBytes := by
  simp only [topicRepeats, Bool.or_eq_true, Bool.and_eq_true, beq_iff_eq, h.strlen_topic hb]
  have hown : f.topicBytes.length = f.topicLength.toNat := bytesAt_length _ _
  constructor
  · rintro (hz | ⟨⟨hsome,hlen⟩,heq⟩)
    · exact Or.inl hz
    · rw [hlen, List.take_length, ← hlen] at heq
      exact Or.inr ⟨hsome, heq⟩
  · rintro (hz | ⟨hsome,heq⟩)
    · exact Or.inl hz
    · have hlen : f.topicLength.toNat = first.topicBytes.length := by rw [← hown, heq]
      refine Or.inr ⟨⟨hsome, hlen⟩, ?_⟩
      rw [hlen, List.take_length, ← hlen]
      exact heq

theorem fragmentContinues_iff {first f : Fragment} (h : first.WellFormed) (hf : f.WellFormed)
    (received : ℕ) : fragmentContinues received first.info f = true ↔
      f.offset = received ∧ f.totalLength = first.totalLength ∧ f.messageId = first.messageId ∧
      f.qos = first.qos ∧ f.retain = first.retain ∧ f.duplicate = first.duplicate ∧
      (f.offset ≠ 0 → f.dataLength ≠ 0) := by
  have hqos : 0 ≤ first.qos := by
    have := h.number
    omega
  have h1 := h.inside
  have h2 := h.offset
  have h3 := h.dataLength
  have h4 := hf.inside
  have h5 := hf.offset
  have h6 := hf.dataLength
  simp only [fragmentContinues, Fragment.info, Bool.and_eq_true, beq_iff_eq, Bool.not_eq_true',
    Bool.and_eq_false_iff, beq_eq_false_iff_ne, bne_eq_false_iff_eq]
  constructor
  · rintro ⟨⟨⟨⟨⟨⟨g1,g2⟩,g3⟩,g4⟩,g5⟩,g6⟩,g7⟩
    exact ⟨by omega, by omega, g3, by omega, g5, g6, by omega⟩
  · rintro ⟨g1,g2,g3,g4,g5,g6,g7⟩
    exact ⟨⟨⟨⟨⟨⟨by omega, by omega⟩,g3⟩,by omega⟩,g5⟩,g6⟩, by omega⟩

/-! One call. -/

/-- The receiver and the fragments of the message in progress. -/
inductive Holding : EmqttReceiver → List Fragment → Prop
  | idle (m : Message) (received : ℕ) (hlen : m.payload.length = emqttPayloadMax) :
    Holding ⟨some m, received, false⟩ []
  | busy (m : Message) (first : Fragment) (rest : List Fragment) (hc : Coherent first rest)
    (hb : first.Backed) (hinfo : m.info = first.info)
    (hlen : m.payload.length = emqttPayloadMax)
    (hbytes : m.payload.take (payloadOf (first :: rest)).length = payloadOf (first :: rest))
    (hlt : (payloadOf (first :: rest)).length < first.totalLength.toNat) :
    Holding ⟨some m, (payloadOf (first :: rest)).length, true⟩ (first :: rest)

/-- The fragment that began the message, with `f` as the next one. -/
def opener (acc : List Fragment) (f : Fragment) : Fragment := acc.headD f

/-- What `emqtt_receive_into` compares a fragment with, where it is acceptable. -/
theorem receiveStage_of_acceptable {r : EmqttReceiver} {acc : List Fragment} (h : Holding r acc)
    {m : Message} (hm : r.message = some m) {f : Fragment} (hf : Acceptable acc f) :
    fragmentMalformed emqttPayloadMax f = false ∧
    receiveStage ⟨r.received,r.active⟩ (if r.active then m.info else zeroInfo) f =
      some (⟨(payloadOf acc).length,true⟩, (opener acc f).info) ∧
    fragmentContinues (payloadOf acc).length (opener acc f).info f = true := by
  cases h with
  | idle m received hlen =>
    have hopens : f.Opens := hf
    refine ⟨(fragmentMalformed_iff f).mpr hopens.toWellFormed, ?_, ?_⟩
    · have hstart : ¬ (f.offset ≠ 0 ∨ emqttTopicValid f.topic f.topicLength.toNat false = false) := by
        simp [hopens.start, hopens.topic]
      simp only [receiveStage, receiveFirst, Bool.false_eq_true, if_false, if_neg hstart,
        Option.map_some]
      rfl
    · exact (fragmentContinues_iff hopens.toWellFormed hopens.toWellFormed 0).mpr
        ⟨hopens.start, rfl, rfl, rfl, rfl, rfl, fun hne => absurd hopens.start hne⟩
  | busy m first rest hc hb hinfo hlen hbytes hlt =>
    have hcont : f.Continues first (payloadOf (first :: rest)).length := hf
    have hrepeat := (topicRepeats_iff hc.opens hb f).mpr hcont.topic
    cases hm
    refine ⟨(fragmentMalformed_iff f).mpr hcont.toWellFormed, ?_, ?_⟩
    · have htopic : topicRepeats first.info.topic f = true := hrepeat
      simp only [receiveStage, if_true, hinfo, htopic]
      rfl
    · exact (fragmentContinues_iff hc.opens.toWellFormed hcont.toWellFormed _).mpr
        ⟨hcont.next, hcont.sameTotal, hcont.sameId, hcont.sameQos, hcont.sameRetain,
          hcont.sameDuplicate, hcont.nonempty⟩

/-- And where it is not, one of the tests fails. -/
theorem acceptable_of_receiveStage {r : EmqttReceiver} {acc : List Fragment} (h : Holding r acc)
    {m : Message} (hm : r.message = some m) {f : Fragment} {st : ReceiveState} {i : MessageInfo}
    (hok : fragmentMalformed emqttPayloadMax f = false)
    (hstage : receiveStage ⟨r.received,r.active⟩ (if r.active then m.info else zeroInfo) f =
      some (st, i))
    (hcont : fragmentContinues st.received i f = true) : Acceptable acc f := by
  have hwf := (fragmentMalformed_iff f).mp hok
  cases h with
  | idle m received hlen =>
    simp only [receiveStage, receiveFirst, Bool.false_eq_true, if_false] at hstage
    split at hstage
    · simp at hstage
    · rename_i hstart
      rw [not_or, not_not, Bool.not_eq_false] at hstart
      exact ⟨hwf, hstart.1, hstart.2⟩
  | busy m first rest hc hb hinfo hlen hbytes hlt =>
    cases hm
    simp only [receiveStage, if_true] at hstage
    split at hstage
    · rename_i hrepeat
      rw [Option.some.injEq, Prod.mk.injEq] at hstage
      obtain ⟨rfl,rfl⟩ := hstage
      have htopic : m.info.topic = first.topicBytes := congrArg MessageInfo.topic hinfo
      rw [htopic] at hrepeat
      rw [hinfo] at hcont
      obtain ⟨g1,g2,g3,g4,g5,g6,g7⟩ :=
        (fragmentContinues_iff hc.opens.toWellFormed hwf _).mp hcont
      exact ⟨hwf, g1, g2, g3, g4, g5, g6,
        (topicRepeats_iff hc.opens hb f).mp hrepeat, g7⟩
    · simp at hstage

theorem Holding.message {r : EmqttReceiver} {acc : List Fragment} (h : Holding r acc) :
    ∃ m, r.message = some m ∧ m.payload.length = emqttPayloadMax := by
  cases h with
  | idle m received hlen => exact ⟨m, rfl, hlen⟩
  | busy m first rest hc hb hinfo hlen hbytes hlt => exact ⟨m, rfl, hlen⟩

/-- The message behind an acceptable fragment. -/
def Message.extended (m : Message) (acc : List Fragment) (f : Fragment) : Message :=
  {m with payload := ByteBuffer.splice m.payload (payloadOf acc).length f.bytes}.withInfo
    (opener acc f).info

theorem payloadOf_append (acc : List Fragment) (f : Fragment) :
    payloadOf (acc ++ [f]) = payloadOf acc ++ f.bytes := by
  simp [payloadOf]

theorem Fragment.bytes_length (f : Fragment) : f.bytes.length = f.dataLength.toNat :=
  bytesAt_length _ _

/-- An acceptable fragment is accepted. -/
theorem emqttReceive_accepts {r : EmqttReceiver} {acc : List Fragment} (h : Holding r acc)
    {m : Message} (hm : r.message = some m) {f : Fragment} (hf : Acceptable acc f) :
    emqttReceive r (some f) =
      if (payloadOf (acc ++ [f])).length = (opener acc f).totalLength.toNat then
        (.complete, ⟨some (m.extended acc f), (payloadOf (acc ++ [f])).length, false⟩)
      else (.more, ⟨some (m.extended acc f), (payloadOf (acc ++ [f])).length, true⟩) := by
  obtain ⟨hok,hstage,hcont⟩ := receiveStage_of_acceptable h hm hf
  have hlen : (payloadOf (acc ++ [f])).length = (payloadOf acc).length+f.dataLength.toNat := by
    rw [payloadOf_append, List.length_append, f.bytes_length]
  unfold emqttReceive
  rw [hm]
  dsimp only
  rw [emqttReceiveInto_eq, hok, if_neg Bool.false_ne_true, hstage]
  dsimp only
  rw [if_pos hcont, hlen]
  by_cases hend : (payloadOf acc).length+f.dataLength.toNat = (opener acc f).totalLength.toNat
  · have hend' : (payloadOf acc).length+f.dataLength.toNat = (opener acc f).info.length := hend
    rw [if_pos hend, if_pos hend']
    rfl
  · have hend' : ¬ (payloadOf acc).length+f.dataLength.toNat = (opener acc f).info.length := hend
    rw [if_neg hend, if_neg hend']
    rfl

/-- Any other fragment is rejected, and the message is left alone. -/
theorem emqttReceive_refuses {r : EmqttReceiver} {acc : List Fragment} (h : Holding r acc)
    {f : Fragment} (hf : ¬ Acceptable acc f) :
    emqttReceive r (some f) = (.rejected, {r with received := 0, active := false}) := by
  obtain ⟨m,hm,-⟩ := h.message
  have hr : ({r with received := 0, active := false} : EmqttReceiver) = ⟨some m, 0, false⟩ := by
    rw [hm]
  rw [hr]
  unfold emqttReceive
  rw [hm]
  dsimp only
  rw [emqttReceiveInto_eq]
  by_cases hok : fragmentMalformed emqttPayloadMax f = true
  · rw [if_pos hok]
    rfl
  · rw [if_neg hok]
    cases hstage : receiveStage ⟨r.received,r.active⟩ (if r.active then m.info else zeroInfo) f with
    | none => rfl
    | some stage =>
      obtain ⟨st,i⟩ := stage
      dsimp only
      by_cases hcont : fragmentContinues st.received i f = true
      · exact absurd (acceptable_of_receiveStage h hm (eq_false_of_ne_true hok) hstage hcont) hf
      · rw [if_neg hcont]
        rfl

/-- What an acceptable fragment leaves: the bytes so far, and nothing else touched. -/
theorem Message.extended_spec {r : EmqttReceiver} {acc : List Fragment} (h : Holding r acc)
    {m : Message} (hm : r.message = some m) {f : Fragment} (hf : Acceptable acc f) :
    (m.extended acc f).payload.length = emqttPayloadMax ∧
    (m.extended acc f).info = (opener acc f).info ∧
    (m.extended acc f).payload.take (payloadOf (acc ++ [f])).length = payloadOf (acc ++ [f]) ∧
    (m.extended acc f).payload.drop f.totalLength.toNat = m.payload.drop f.totalLength.toNat ∧
    (payloadOf (acc ++ [f])).length ≤ (opener acc f).totalLength.toNat ∧
    (opener acc f).totalLength ≤ emqttPayloadMax := by
  have hpayload : (m.extended acc f).payload =
    ByteBuffer.splice m.payload (payloadOf acc).length f.bytes := rfl
  have hinfo : (m.extended acc f).info = (opener acc f).info := rfl
  have hlen : (payloadOf (acc ++ [f])).length = (payloadOf acc).length+f.bytes.length := by
    rw [payloadOf_append, List.length_append]
  -- the place, the bytes before it and the declared length
  obtain ⟨hmax,hwf,hplace,htotal,hbytes⟩ : m.payload.length = emqttPayloadMax ∧ f.WellFormed ∧
      f.offset = (payloadOf acc).length ∧ f.totalLength = (opener acc f).totalLength ∧
      m.payload.take (payloadOf acc).length = payloadOf acc := by
    cases h with
    | idle m' received hlen =>
      cases hm
      have hopens : f.Opens := hf
      exact ⟨hlen, hopens.toWellFormed, hopens.start, rfl, rfl⟩
    | busy m' first rest hc hb hinfo hlen hbytes hlt =>
      cases hm
      have hcont : f.Continues first (payloadOf (first :: rest)).length := hf
      exact ⟨hlen, hcont.toWellFormed, hcont.next, hcont.sameTotal, hbytes⟩
  have h1 := hwf.inside
  have h2 := hwf.dataLength
  have h3 := hwf.total
  have h4 := f.bytes_length
  -- the bytes go behind those held, inside the declared length
  have hroom : (payloadOf acc).length+f.bytes.length ≤ m.payload.length := by omega
  refine ⟨?_, hinfo, ?_, ?_, by omega, by omega⟩
  · rw [hpayload, ByteBuffer.splice_length _ _ _ hroom, hmax]
  · rw [hpayload, hlen, ByteBuffer.take_splice _ _ _ (by omega), hbytes, payloadOf_append]
  · have hbefore : (m.payload.take (payloadOf acc).length ++ f.bytes).length =
        (payloadOf acc).length+f.bytes.length := by
      rw [hbytes, List.length_append]
    rw [hpayload, ByteBuffer.splice, List.drop_append, hbefore, List.drop_drop,
      List.drop_eq_nil_of_le (by omega), List.nil_append]
    congr 1
    omega

/-- The fragments accepted so far and an acceptable one belong together. -/
theorem Acceptable.coherent {r : EmqttReceiver} {acc : List Fragment} (h : Holding r acc)
    {f : Fragment} (hf : Acceptable acc f) :
    ∃ rest, acc ++ [f] = opener acc f :: rest ∧ Coherent (opener acc f) rest := by
  -- an idle receiver begins with the fragment, a busy one has begun with `first`
  cases h with
  | idle m received hlen => exact ⟨[], rfl, hf, fun l f r hl => absurd hl (by simp)⟩
  | busy m first rest hc hb hinfo hlen hbytes hlt =>
    refine ⟨rest ++ [f], rfl, hc.opens, fun l g r hl => ?_⟩
    rcases List.eq_nil_or_concat r with rfl | ⟨r,last,rfl⟩
    · -- the new fragment is the last one
      obtain ⟨rfl,hg⟩ := List.append_inj' hl rfl
      rw [← List.singleton_inj.mp hg]
      exact hf
    · rw [List.concat_eq_append, ← List.cons_append, ← List.append_assoc] at hl
      exact hc.continues l g r (List.append_inj' hl rfl).1

/-- One call keeps the account. -/
theorem Holding.step {r : EmqttReceiver} {acc : List Fragment} (h : Holding r acc)
    {f : Option Fragment} (hb : ∀ g, f = some g → g.Backed) :
    Holding (emqttReceive r f).2
      (if (emqttReceive r f).1 = .more then acc ++ f.toList else []) := by
  obtain ⟨m,hm,hlen⟩ := h.message
  have hidle (n : ℕ) (m : Message) (hlen : m.payload.length = emqttPayloadMax) :
      Holding ⟨some m, n, false⟩ [] := .idle m n hlen
  cases f with
  | none =>
    have hnull : emqttReceive r none = (.rejected, ⟨some m, 0, false⟩) := by
      unfold emqttReceive
      rw [hm]
    rw [hnull]
    exact hidle 0 m hlen
  | some f =>
    by_cases hf : Acceptable acc f
    · obtain ⟨hmax,hinfo,hbytes,-,hle,-⟩ := Message.extended_spec h hm hf
      obtain ⟨rest,hsplit,hc⟩ := hf.coherent h
      rw [emqttReceive_accepts h hm hf]
      -- the last fragment empties the account, any other is added to it
      by_cases hend : (payloadOf (acc ++ [f])).length = (opener acc f).totalLength.toNat
      · rw [if_pos hend]
        exact hidle _ _ hmax
      · rw [if_neg hend]
        have hback : (opener acc f).Backed := by
          cases h with
          | idle m received hlen => exact hb f rfl
          | busy m first rest hc hb hinfo hlen hbytes hlt => exact hb
        dsimp only [if_true, Option.toList_some]
        rw [hsplit] at hbytes hle hend ⊢
        exact .busy _ _ _ hc hback hinfo hmax hbytes (by omega)
    · rw [emqttReceive_refuses h hf, hm]
      exact hidle 0 m hlen

theorem Holding.run {r : EmqttReceiver} {acc : List Fragment} (h : Holding r acc)
    {fs : List (Option Fragment)} (hb : ∀ f ∈ fs, ∀ g, f = some g → g.Backed) :
    Holding (receiveSeq r fs) (acceptedFrom r acc fs) := by
  induction fs generalizing r acc with
  | nil => exact h
  | cons f fs ih =>
    exact ih (h.step (hb f List.mem_cons_self)) fun g hg => hb g (List.mem_cons_of_mem _ hg)

/-! What one call returns and leaves. -/

/-- A NULL fragment is never acceptable. -/
def Accepts (acc : List Fragment) (f : Option Fragment) : Prop := ∃ g, f = some g ∧ Acceptable acc g

theorem emqttReceive_of_not_accepts {r : EmqttReceiver} {acc : List Fragment} (h : Holding r acc)
    {f : Option Fragment} (hf : ¬ Accepts acc f) :
    emqttReceive r f = (.rejected, {r with received := 0, active := false}) := by
  obtain ⟨m,hm,-⟩ := h.message
  cases f with
  | none =>
    unfold emqttReceive
    rw [hm]
  | some f => exact emqttReceive_refuses h fun hok => hf ⟨f, rfl, hok⟩

/-- The total length that a call names. -/
def declaredLength (f : Option Fragment) : ℕ := (f.elim 0 Fragment.totalLength).toNat

/-- Nothing behind the declared length is written. -/
theorem emqttReceive_beyond {r : EmqttReceiver} {acc : List Fragment} (h : Holding r acc)
    (f : Option Fragment) {m : Message} (hm : r.message = some m) :
    ∃ m', (emqttReceive r f).2.message = some m' ∧
      m'.payload.drop (declaredLength f) = m.payload.drop (declaredLength f) := by
  by_cases hf : Accepts acc f
  · obtain ⟨g,rfl,hg⟩ := hf
    obtain ⟨-,-,-,hbeyond,-⟩ := Message.extended_spec h hm hg
    refine ⟨m.extended acc g, ?_, hbeyond⟩
    rw [emqttReceive_accepts h hm hg]
    split <;> rfl
  · rw [emqttReceive_of_not_accepts h hf]
    exact ⟨m, hm, rfl⟩

/-- A message is complete when the fragments of it are all there. -/
theorem emqttReceive_complete {r : EmqttReceiver} {acc : List Fragment} (h : Holding r acc)
    {f : Option Fragment} (hdone : (emqttReceive r f).1 = .complete) :
    ∃ g first rest m, f = some g ∧ acc ++ [g] = first :: rest ∧ Coherent first rest ∧
      (emqttReceive r f).2.message = some m ∧ m.info = first.info ∧
      m.payload.take m.info.length = payloadOf (first :: rest) := by
  by_cases hf : Accepts acc f
  · obtain ⟨g,rfl,hg⟩ := hf
    obtain ⟨m,hm,-⟩ := h.message
    obtain ⟨-,hinfo,hbytes,-,-,-⟩ := Message.extended_spec h hm hg
    obtain ⟨rest,hsplit,hc⟩ := hg.coherent h
    have hresult := emqttReceive_accepts h hm hg
    by_cases hend : (payloadOf (acc ++ [g])).length = (opener acc g).totalLength.toNat
    · rw [if_pos hend] at hresult
      refine ⟨g, opener acc g, rest, m.extended acc g, rfl, hsplit, hc, ?_, hinfo, ?_⟩
      · rw [hresult]
      · have hlength : (m.extended acc g).info.length = (payloadOf (acc ++ [g])).length := by
          rw [hinfo, hend]
          rfl
        rw [hlength, hbytes, hsplit]
    · rw [if_neg hend] at hresult
      rw [hresult] at hdone
      exact absurd hdone (by simp)
  · rw [emqttReceive_of_not_accepts h hf] at hdone
    exact absurd hdone (by simp)

theorem emqttReceive_rejected_iff {r : EmqttReceiver} {acc : List Fragment} (h : Holding r acc)
    (f : Option Fragment) : (emqttReceive r f).1 = .rejected ↔ ¬ Accepts acc f := by
  constructor
  · rintro hrej ⟨g,rfl,hg⟩
    obtain ⟨m,hm,-⟩ := h.message
    rw [emqttReceive_accepts h hm hg] at hrej
    split at hrej <;> exact absurd hrej (by simp)
  · intro hf
    rw [emqttReceive_of_not_accepts h hf]

/-! A message cut into pieces. -/

/-- The fragments `first :: rest` carry a valid message with this payload. -/
structure Split (payload : List UInt8) (first : Fragment) (rest : List Fragment) : Prop where
  topic : emqttTopicValid first.topic first.topicLength.toNat false = true
  number : first.qos = 0 ∧ first.messageId = 0 ∨
    first.qos = 1 ∧ 1 ≤ first.messageId ∧ first.messageId ≤ 65535
  size : payload.length ≤ emqttPayloadMax
  whole : payloadOf (first :: rest) = payload
  placed : ∀ l f r, first :: rest = l ++ f :: r → f.offset = ((payloadOf l).length : ℤ)
  total : ∀ f ∈ first :: rest, f.totalLength = (payload.length : ℤ)
  lengths : ∀ f ∈ first :: rest, 0 ≤ f.dataLength ∧ 0 ≤ f.topicLength
  data : ∀ f ∈ first :: rest, f.dataLength ≠ 0 → f.data.isSome
  nonempty : ∀ f ∈ first :: rest, f.offset ≠ 0 → f.dataLength ≠ 0
  same : ∀ f ∈ rest, f.messageId = first.messageId ∧ f.qos = first.qos ∧
    f.retain = first.retain ∧ f.duplicate = first.duplicate
  repeated : ∀ f ∈ rest, f.topicLength = 0 ∨ f.topic.isSome ∧ f.topicBytes = first.topicBytes

namespace Split

variable {payload : List UInt8} {first : Fragment} {rest : List Fragment}

theorem same_all (h : Split payload first rest) {f : Fragment} (hf : f ∈ first :: rest) :
    f.messageId = first.messageId ∧ f.qos = first.qos ∧ f.retain = first.retain ∧
      f.duplicate = first.duplicate := by
  rcases List.mem_cons.mp hf with rfl | hf
  · exact ⟨rfl, rfl, rfl, rfl⟩
  · exact h.same f hf

/-- The bytes up to a piece and in it are not more than the message. -/
theorem length_le (h : Split payload first rest) {l r : List Fragment} {f : Fragment}
    (hl : first :: rest = l ++ f :: r) :
    (payloadOf l).length+f.bytes.length+(payloadOf r).length = payload.length := by
  rw [← h.whole, hl]
  simp [payloadOf]
  omega

theorem wellFormed (h : Split payload first rest) {l r : List Fragment} {f : Fragment}
    (hl : first :: rest = l ++ f :: r) : f.WellFormed := by
  have hf : f ∈ first :: rest := by
    rw [hl]
    exact List.mem_append_right _ List.mem_cons_self
  have hplace := h.placed l f r hl
  have htotal := h.total f hf
  have hlengths := h.lengths f hf
  have hbound := h.length_le hl
  have hsame := h.same_all hf
  have hnumber := h.number
  have hsize := h.size
  have hbytes := f.bytes_length
  refine ⟨hlengths.2, by omega, hlengths.1, by omega, by omega, h.data f hf, ?_⟩
  rw [hsame.1, hsame.2.1]
  exact hnumber

/-- Each piece can follow the ones before it. -/
theorem acceptable (h : Split payload first rest) {l r : List Fragment} {f : Fragment}
    (hl : first :: rest = l ++ f :: r) : Acceptable l f := by
  have hwf := h.wellFormed hl
  have hplace := h.placed l f r hl
  cases l with
  | nil =>
    obtain ⟨rfl,rfl⟩ := List.cons.inj hl
    exact ⟨hwf, hplace, h.topic⟩
  | cons g l =>
    obtain ⟨rfl,hrest⟩ := List.cons.inj hl
    have hf : f ∈ rest := by
      rw [hrest]
      exact List.mem_append_right _ List.mem_cons_self
    have hmem : f ∈ first :: rest := List.mem_cons_of_mem _ hf
    obtain ⟨h1,h2,h3,h4⟩ := h.same f hf
    have htotal : f.totalLength = first.totalLength := by
      rw [h.total f hmem, h.total first List.mem_cons_self]
    exact ⟨hwf, hplace, htotal, h1, h2, h3, h4, h.repeated f hf, h.nonempty f hmem⟩

/-- There are bytes missing as long as there are pieces to come. -/
theorem missing (h : Split payload first rest) (hone : payload = [] → rest = [])
    {l r : List Fragment} {f g : Fragment} (hl : first :: rest = l ++ f :: g :: r) :
    (payloadOf (l ++ [f])).length < payload.length := by
  have hnext : first :: rest = (l ++ [f]) ++ g :: r := by
    rw [hl, List.append_assoc, List.singleton_append]
  have hbound := h.length_le hnext
  have hplace := h.placed _ g r hnext
  have hmem : g ∈ first :: rest := by
    rw [hnext]
    exact List.mem_append_right _ List.mem_cons_self
  have hbytes := g.bytes_length
  have hlengths := h.lengths g hmem
  by_cases hzero : g.offset = 0
  · -- nothing has come yet, and the message has some byte
    have hne : payload.length ≠ 0 := by
      intro hempty
      have hrest := hone (List.eq_nil_of_length_eq_zero hempty)
      have hcount := congrArg List.length hl
      rw [hrest] at hcount
      simp at hcount
      omega
    omega
  · have hsome := h.nonempty g hmem hzero
    omega

/-- From the piece behind `l` on: every one but the last asks for more. -/
theorem verdicts_from (h : Split payload first rest) (hone : payload = [] → rest = [])
    (hb : ∀ f ∈ first :: rest, f.Backed) {l r : List Fragment} {f : Fragment}
    (hl : first :: rest = l ++ f :: r) {st : EmqttReceiver} (hst : Holding st l) :
    verdicts st ((f :: r).map some) = List.replicate r.length .more ++ [.complete] := by
  induction r generalizing l f st with
  | nil =>
    obtain ⟨m,hm,-⟩ := hst.message
    have hok := h.acceptable hl
    have hopener : (opener l f).totalLength = payload.length := by
      apply h.total
      rw [hl]
      cases l <;> simp [opener]
    have hend : (payloadOf (l ++ [f])).length = (opener l f).totalLength.toNat := by
      rw [← hl, h.whole, hopener, Int.toNat_natCast]
    have hresult := emqttReceive_accepts hst hm hok
    rw [if_pos hend] at hresult
    simp [verdicts, hresult]
  | cons g r ih =>
    obtain ⟨m,hm,-⟩ := hst.message
    have hok := h.acceptable hl
    have hmem : f ∈ first :: rest := by
      rw [hl]
      exact List.mem_append_right _ List.mem_cons_self
    have hopener : (opener l f).totalLength = payload.length := by
      apply h.total
      rw [hl]
      cases l <;> simp [opener]
    have hmissing := h.missing hone hl
    have hend : ¬ (payloadOf (l ++ [f])).length = (opener l f).totalLength.toNat := by omega
    have hresult := emqttReceive_accepts hst hm hok
    rw [if_neg hend] at hresult
    have hstep := hst.step (f := some f) fun g hg => hb g (by rw [← Option.some.inj hg]; exact hmem)
    have hmore : (emqttReceive st (some f)).1 = .more := by rw [hresult]
    rw [if_pos hmore, Option.toList_some] at hstep
    have hrest := ih (l := l ++ [f]) (f := g)
      (by rw [hl, List.append_assoc, List.singleton_append]) hstep
    rw [List.map_cons, verdicts, hmore, hrest, List.length_cons, List.replicate_succ,
      List.cons_append]

end Split

/-- Reassembly over every sequence of calls on a receiver that begins inactive: what is held,
what a complete message is, what is never written and what is refused, and that the pieces
of a message are put together again. -/
theorem reassembly_exact (m : Message) (received : ℕ)
    (hlen : m.payload.length = emqttPayloadMax) :
    (∀ fs : List (Option Fragment), (∀ f ∈ fs, ∀ g, f = some g → g.Backed) →
      ∃ m', (receiveSeq ⟨some m, received, false⟩ fs).message = some m' ∧
      ((receiveSeq ⟨some m, received, false⟩ fs).active = true →
        (receiveSeq ⟨some m, received, false⟩ fs).received < m'.info.length ∧
        m'.info.length ≤ emqttPayloadMax ∧
        m'.payload.take (receiveSeq ⟨some m, received, false⟩ fs).received =
          payloadOf (acceptedFrom ⟨some m, received, false⟩ [] fs)) ∧
      ∀ f : Option Fragment,
        ((emqttReceive (receiveSeq ⟨some m, received, false⟩ fs) f).1 = .complete →
          ∃ g first rest m'', f = some g ∧
            acceptedFrom ⟨some m, received, false⟩ [] fs ++ [g] = first :: rest ∧
            Coherent first rest ∧
            (emqttReceive (receiveSeq ⟨some m, received, false⟩ fs) f).2.message = some m'' ∧
            m''.info = first.info ∧
            m''.payload.take m''.info.length = payloadOf (first :: rest)) ∧
        (∃ m'', (emqttReceive (receiveSeq ⟨some m, received, false⟩ fs) f).2.message = some m'' ∧
          m''.payload.drop (declaredLength f) = m'.payload.drop (declaredLength f)) ∧
        ((emqttReceive (receiveSeq ⟨some m, received, false⟩ fs) f).1 = .rejected ↔
          ¬ Accepts (acceptedFrom ⟨some m, received, false⟩ [] fs) f) ∧
        ((emqttReceive (receiveSeq ⟨some m, received, false⟩ fs) f).1 = .rejected →
          (emqttReceive (receiveSeq ⟨some m, received, false⟩ fs) f).2.active = false)) ∧
    ∀ payload first rest, Split payload first rest → (payload = [] → rest = []) →
      (∀ f ∈ first :: rest, f.Backed) →
      verdicts ⟨some m, received, false⟩ ((first :: rest).map some) =
        List.replicate rest.length .more ++ [.complete] := by
  refine ⟨fun fs hb => ?_, fun payload first rest hsplit hone hb =>
    hsplit.verdicts_from hone hb rfl (.idle m received hlen)⟩
  -- what every sequence of calls keeps
  have hhold := (Holding.idle m received hlen).run hb
  obtain ⟨m',hm',-⟩ := hhold.message
  refine ⟨m', hm', fun hact => ?_, fun f => ⟨emqttReceive_complete hhold,
    emqttReceive_beyond hhold f hm', emqttReceive_rejected_iff hhold f, fun hrej => ?_⟩⟩
  · generalize receiveSeq ⟨some m, received, false⟩ fs = r at hhold hm' hact
    generalize acceptedFrom ⟨some m, received, false⟩ [] fs = acc at hhold
    cases hhold with
    | idle => exact absurd hact (by simp)
    | busy m'' first rest hc hback hinfo hmax hbytes hlt =>
      cases hm'
      have htotal := hc.opens.total
      have hlength : m'.info.length = first.totalLength.toNat := by rw [hinfo]; rfl
      exact ⟨by rw [hlength]; exact hlt, by omega, hbytes⟩
  · rw [emqttReceive_of_not_accepts hhold ((emqttReceive_rejected_iff hhold f).mp hrej)]

/-- A message buffer that has held nothing yet. -/
def blankMessage : Message where
  topic := []
  payload := List.replicate emqttPayloadMax 0
  length := 0
  messageId := 0
  qos := 0
  retain := false
  duplicate := false

/-- A piece of a QoS 0 message on topic `t`. -/
def pieceOf (total offset : ℕ) (data : List UInt8) : Fragment where
  topic := some [0x74]
  topicLength := 1
  data := some data
  dataLength := data.length
  totalLength := total
  offset := offset
  messageId := 0
  qos := 0
  retain := false
  duplicate := false

theorem pieceOf_backed (total offset : ℕ) (data : List UInt8) : (pieceOf total offset data).Backed := by
  intro t ht
  have hbytes : t = [0x74] := (Option.some.inj ht).symm
  rw [hbytes]
  exact le_refl 1

/-- Two pieces, one behind the other. -/
theorem pieceOf_split (a b : List UInt8) (hsize : a.length+b.length ≤ emqttPayloadMax)
    (hb : a ≠ [] → b ≠ []) :
    Split (a ++ b) (pieceOf (a.length+b.length) 0 a) [pieceOf (a.length+b.length) a.length b] where
  topic := (by decide : emqttTopicValid (some [0x74]) 1 false = true)
  number := Or.inl ⟨rfl, rfl⟩
  size := by rwa [List.length_append]
  whole := by
    simp [payloadOf, Fragment.bytes, pieceOf, bytesAt_some]
  placed := by
    intro l f r hl
    rcases l with _ | ⟨x,_ | ⟨y,l⟩⟩
    · obtain ⟨rfl,-⟩ := List.cons.inj hl
      rfl
    · obtain ⟨rfl,htail⟩ := List.cons.inj hl
      obtain ⟨rfl,-⟩ := List.cons.inj htail
      simp [payloadOf, Fragment.bytes, pieceOf, bytesAt_some]
    · have hcount := congrArg List.length hl
      simp at hcount
  total := by simp [pieceOf]
  lengths := by simp [pieceOf]
  data := by simp [pieceOf]
  nonempty := by
    intro f hf hne
    simp only [List.mem_cons, List.not_mem_nil, or_false] at hf
    rcases hf with rfl | rfl
    · exact absurd rfl hne
    · have ha : a ≠ [] := by
        rintro rfl
        exact hne rfl
      simpa [pieceOf] using hb ha
  same := by simp [pieceOf]
  repeated := by
    intro f hf
    rw [List.mem_singleton.mp hf]
    exact Or.inr ⟨rfl, rfl⟩

/-- `hi` in two pieces of one byte each. -/
theorem reassembly_exact_hi : blankMessage.payload.length = emqttPayloadMax ∧
    verdicts ⟨some blankMessage, 0, false⟩
      [some (pieceOf 2 0 [0x68]), some (pieceOf 2 1 [0x69])] = [.more, .complete] := by
  have hlen : blankMessage.payload.length = emqttPayloadMax := by simp [blankMessage]
  refine ⟨hlen, (reassembly_exact blankMessage 0 hlen).2 [0x68, 0x69] (pieceOf 2 0 [0x68])
    [pieceOf 2 1 [0x69]] (pieceOf_split [0x68] [0x69] (by decide) (by simp)) (by simp) ?_⟩
  intro f hf
  simp only [List.mem_cons, List.not_mem_nil, or_false] at hf
  rcases hf with rfl | rfl
  · exact pieceOf_backed _ _ _
  · exact pieceOf_backed _ _ _

/-- The empty message in two empty pieces: the first one completes it, and the second one is a
message of its own. -/
theorem reassembly_empty_pieces :
    Split [] (pieceOf 0 0 []) [pieceOf 0 0 []] ∧
    verdicts ⟨some blankMessage, 0, false⟩ [some (pieceOf 0 0 []), some (pieceOf 0 0 [])] ≠
      [.more, .complete] := by
  refine ⟨pieceOf_split [] [] (by decide) (by simp), ?_⟩
  decide +kernel

end EspMqtt
