import EspMqtt.Mqtt5RoundTrip

/-! The limit on the Remaining Length: what the two `fini_message` store for it, and what
they refuse. -/
namespace EspMqtt
open Wire (u16 u16_length)

/-- A number that is not too big takes at most four bytes; one below zero takes one. -/
theorem encodedLens_le_four {total : ℤ} (h : total < 128^4) : (encodedLens 5 total).length ≤ 4 := by
  by_cases hneg : total < 0
  · have hsmall : ¬ 128 ≤ total := by omega
    rw [encodedLens, if_neg hsmall, List.length_singleton]
    omega
  · have hcast : total = (total.toNat : ℤ) := by omega
    rw [hcast, encodedLens_encode 3 _ 5 (by omega) (by decide)]
    exact Base128.encode_length_le 3 _

theorem encodedLens_le_four_iff (total : ℤ) : (encodedLens 5 total).length ≤ 4 ↔ total < 128^4 := by
  refine ⟨fun h => ?_, encodedLens_le_four⟩
  by_contra hbig
  have hfive := encodedLens_five total (not_lt.mp hbig)
  omega

/-- `mqtt_msg_publish` gets as far as `fini_message`: there is a topic, the data are there, and
what stands in front of them fits the buffer. -/
structure PublishAdmitted (bufferLength : ℕ) (topic : Option (List UInt8)) (d : CData)
    (dataLength : ℤ) (qos : ℕ) : Prop where
  named : (given topic).isSome
  data : d.isNull = true → dataLength ≤ 0
  room : 5+(publishHead ((given topic).getD []) qos 0).length ≤ bufferLength

namespace Composer

variable {s : Composer} {c : Connection} {acc : List UInt8}

/-- `mqtt_msg_publish` up to `fini_message`: the state in which that is called, or `none` if the
call fails before. -/
def mqttPublishBody (s : Composer) (topic : Option (List UInt8)) (d : CData) (dataLength : ℤ)
    (qos : ℕ) : Option Composer :=
  let s := s.setMessageHeaderSize
  match topic with
  | none | some [] => none
  | some topic =>
    let r := s.appendString topic
    if r.1 = false then none
    else if d.isNull ∧ 0 < dataLength then none
    else
      let r := if 0 < qos then r.2.appendMessageId 0 else (0, r.2)
      if 0 < qos ∧ r.1 = 0 then none else some (r.2.appendPayload d dataLength)

/-- What the loop of `fini_message` of `mqtt_msg.c` stores into `encoded_lens`, from its first
byte on. The array has four bytes, and the loop does not look. -/
def encodedLensStored (s : Composer) : List UInt8 := encodedLens 5 s.totalLength

/-- What `generate_variable_len` stores into it for `fini_message` of `mqtt5_msg.c`. -/
def mqtt5EncodedLensStored (s : Composer) : List UInt8 :=
  generateVariableLen 5 (if s.totalLength < 0 then s.totalLength+2^32 else s.totalLength).toNat

/-- A buffer without room for the string refuses it, also one shorter than the fixed header. -/
theorem Sound.appendString_yields (hs : Sound s c) (string : List UInt8) :
    Yields (s.setMessageHeaderSize.appendString string) c (countedString string) := by
  by_cases h5 : 5 ≤ c.bufferLength
  · exact (hs.setMessageHeaderSize h5).appendString string
  · right
    have hsmall : s.setMessageHeaderSize.connection.bufferLength <
        s.setMessageHeaderSize.length+string.length+2 := by
      change s.connection.bufferLength < 5+_+2
      rw [hs.connection]
      omega
    unfold appendString
    rw [if_pos hsmall]
    exact ⟨rfl, ⟨hs.connection, hs.buffer, hs.written⟩, by omega⟩

/-- The call, seen from its `fini_message`. -/
theorem mqttPublishBody_cases (hs : Sound s c) {topic : Option (List UInt8)} {d : CData} {len : ℤ}
    (hd : 0 ≤ len) (qos retain : ℕ) :
    let r := s.mqttMsgPublish topic d len qos retain
    let body := s.mqttPublishBody topic d len qos
    let head := publishHead ((given topic).getD []) qos (c.publishId qos).1
    let admitted := PublishAdmitted c.bufferLength topic d len qos
    (¬ admitted ∧ body = none ∧ ∃ t : Composer, r.2 = t.failMessage) ∨
    (admitted ∧ ∃ t, body = some t ∧ r.2 = t.finiMessage .publish 0 qos retain ∧
      Holds t (EspMqtt.appendPayload (c.publishId qos).2 d len head).2
        (EspMqtt.appendPayload (c.publishId qos).2 d len head).1) := by
  intro r body head admitted
  have hr : r = s.mqttMsgPublish topic d len qos retain := rfl
  have hb : body = s.mqttPublishBody topic d len qos := rfl
  -- without a topic there is nothing to do
  have hempty (hnone : (given topic).isNone) (h : admitted) : False := by
    have hsome := h.named
    rw [Option.isNone_iff_eq_none.mp hnone] at hsome
    exact absurd hsome Bool.noConfusion
  cases topic with
  | none => exact Or.inl ⟨hempty rfl, rfl, _, rfl⟩
  | some bytes =>
  cases bytes with
  | nil => exact Or.inl ⟨hempty rfl, rfl, _, rfl⟩
  | cons b bs =>
  clear hempty
  obtain ⟨topic,htopic⟩ : ∃ topic, topic = b :: bs := ⟨_,rfl⟩
  have hgiven : (given (some (b :: bs))).getD [] = topic := htopic.symm
  have hsome : (given (some (b :: bs))).isSome := by simp [given]
  have hhead : head = countedString topic ++ if 0 < qos then u16 (c.publishId qos).1 else [] := by
    change publishHead _ _ _ = _
    rw [hgiven]
    rfl
  have hlen : (publishHead ((given (some (b :: bs))).getD []) qos 0).length = head.length :=
    publishHead_length_eq _ qos 0 _
  unfold mqttMsgPublish at hr
  unfold mqttPublishBody at hb
  dsimp only at hr hb
  rw [← htopic] at hr hb
  rcases hs.appendString_yields topic with ⟨h1,h2⟩ | ⟨h1,-,h3⟩
  swap
  · left
    rw [if_pos h1] at hr hb
    refine ⟨fun h => ?_, hb, _, by rw [hr]⟩
    have hroom := h.room
    rw [hlen, hhead, List.length_append] at hroom
    omega
  rw [h1, if_neg (by decide)] at hr hb
  by_cases hdata : d.isNull = true ∧ 0 < len
  · left
    rw [if_pos hdata] at hr hb
    refine ⟨fun h => ?_, hb, _, by rw [hr]⟩
    have hle := h.data hdata.1
    omega
  rw [if_neg hdata] at hr hb
  have hnull : d.isNull = true → len ≤ 0 := fun hn => not_lt.mp fun hpos => hdata ⟨hn,hpos⟩
  rcases h2.publishId qos with ⟨e1,e2,e3⟩ | ⟨e1,e2⟩
  · right
    rw [if_neg e1] at hr hb
    rw [← hhead] at e3
    obtain ⟨-,hbl⟩ := publishId_frame c qos
    have hroom := e3.room
    rw [hbl] at hroom
    exact ⟨⟨hsome, hnull, by omega⟩, _, hb, by rw [hr], e3.appendPayload d hd⟩
  · left
    rw [if_pos e1] at hr hb
    rw [← hhead] at e2
    refine ⟨fun h => ?_, hb, _, by rw [hr]⟩
    have hroom := h.room
    omega

/-- `fini_message` refuses exactly those lengths that take more than four bytes, after it has
stored them. -/
theorem Holds.fini_refuses_iff (h : Holds s c acc) (type : MsgType) (dup qos retain : ℕ) :
    (s.finiMessage type dup qos retain).connection.outboundMessage.data = [] ↔
      4 < s.encodedLensStored.length := by
  have hstored : s.encodedLensStored = encodedLens 5 (c.outboundMessage.remainingLength acc) :=
    congrArg (encodedLens 5) h.totalLength_eq
  rw [(h.fini type dup qos retain).connection, hstored]
  unfold EspMqtt.finiMessage
  dsimp only
  by_cases hfive : 5 < (encodedLens 5 (c.outboundMessage.remainingLength acc)).length+1
  · rw [if_pos hfive]
    exact iff_of_true rfl (by omega)
  · rw [if_neg hfive]
    exact iff_of_false (List.cons_ne_nil _ _) (by omega)

/-- A negative length takes five bytes in `mqtt5_msg.c`. -/
theorem Holds.mqtt5Stored_le_four_iff (h : Holds s c acc) :
    s.mqtt5EncodedLensStored.length ≤ 4 ↔ 0 ≤ c.outboundMessage.remainingLength acc ∧
      c.outboundMessage.remainingLength acc < 128^4 := by
  have hge := remainingLength_ge c.outboundMessage acc
  unfold mqtt5EncodedLensStored
  rw [h.totalLength_eq, generateVariableLen_eq, encodedLens_le_four_iff]
  by_cases hneg : c.outboundMessage.remainingLength acc < 0
  · rw [if_pos hneg]
    omega
  · rw [if_neg hneg]
    omega

theorem Holds.mqtt5Fini_refuses_iff (h : Holds s c acc) (type : MsgType) (dup qos retain : ℕ) :
    (s.mqtt5FiniMessage type dup qos retain).connection.outboundMessage.data = [] ↔
      4 < s.mqtt5EncodedLensStored.length := by
  have hstored := h.mqtt5Stored_le_four_iff
  rw [h.mqtt5Fini_data]
  by_cases hok : 0 ≤ c.outboundMessage.remainingLength acc ∧
      c.outboundMessage.remainingLength acc < 128^4
  · rw [if_pos hok]
    exact iff_of_false (List.cons_ne_nil _ _) (not_lt.mpr (hstored.mpr hok))
  · rw [if_neg hok]
    exact iff_of_true rfl (not_le.mp fun hle => hok (hstored.mp hle))

end Composer

/-! The limit. -/

/-- What is asked of a publish call: it stores at most four bytes for the Remaining Length, and
it answers a body that has none with a message of length zero. -/
structure LimitsLength (stored : List UInt8) (bodyLength : ℕ) (result : Composer) : Prop where
  stored : stored.length ≤ 4
  refused : 268435455 < bodyLength →
    result.connection.outboundMessage.data = [] ∧ result.length = 0

/-- The total length left over by an earlier message takes the place of the real one when there
are no data. It must not be too big either. -/
def LeftoverAnnounced (m : OutMessage) (d : CData) : Prop :=
  d.isNull = true → m.fragmentedMsgTotalLength ≠ 0 →
    Int.bmod ((m.fragmentedMsgTotalLength : ℤ)-5) (2^32) < 2^28

/-- How long the body of a PUBLISH is: topic, identifier and data. -/
def publishLength (topic : Option (List UInt8)) (len : ℤ) (qos : ℕ) : ℕ :=
  (publishHead ((given topic).getD []) qos 0).length+len.toNat

/-- The same with properties. -/
def publishLength5 (topic : Option (List UInt8)) (len : ℤ) (qos : ℕ)
    (property : Option PublishProperty) (respInfo : Option (List UInt8)) : ℕ :=
  (publishHead5 topic qos 0 property respInfo).length+len.toNat

/-- A call that fails before `fini_message` stores nothing. -/
theorem limitsLength_failed {t : Composer} {bodyLength : ℕ} :
    LimitsLength [] bodyLength t.failMessage :=
  ⟨by decide, fun _ => ⟨rfl, rfl⟩⟩

/-- Behind a `fini_message` that refuses what takes five bytes, all is well as long as the body
is not too big and four bytes are enough for what is announced. -/
theorem limitsLength_iff {stored : List UInt8} {bodyLength : ℕ} {result : Composer}
    (h : result.connection.outboundMessage.data = [] ↔ 4 < stored.length) :
    LimitsLength stored bodyLength result ↔ stored.length ≤ 4 ∧ bodyLength < 2^28 := by
  constructor
  · rintro ⟨h4,hrefused⟩
    refine ⟨h4, ?_⟩
    by_contra hbig
    have hfive := h.mp (hrefused (by omega)).1
    omega
  · rintro ⟨h4,hshort⟩
    exact ⟨h4, fun hbig => absurd hbig (by omega)⟩

/-- The Remaining Length that is announced for a body of `n` bytes, an `int`. A total length that
is left over takes its place if the call keeps it. -/
def OutMessage.announced (m : OutMessage) (keeps : Bool) (n : ℤ) : ℤ :=
  Int.bmod (if keeps = true ∧ m.fragmentedMsgTotalLength ≠ 0 then m.fragmentedMsgTotalLength-5 else n)
    (2^32)

/-- A call that composes all of its body or fails keeps what is left over. -/
theorem remainingLength_announced (m : OutMessage) {acc : List UInt8} (h : acc.length < 2^31) :
    m.remainingLength acc = m.announced true acc.length := by
  unfold OutMessage.remainingLength OutMessage.announced
  by_cases hleft : m.fragmentedMsgTotalLength ≠ 0
  · rw [if_pos hleft, if_pos ⟨rfl,hleft⟩]
  · rw [if_neg hleft, if_neg fun hh => hleft hh.2, Int.bmod_eq_of_le (by omega) (by omega)]

/-- `mqtt_msg_publish` keeps it when there are no data. -/
theorem appendPayload_announced (c : Connection) (d : CData) {len : ℤ} (head : List UInt8)
    (hd : 0 ≤ len) (hnull : d.isNull = true → len ≤ 0)
    (hsize : head.length+len < 2^28 ∨ 5+head.length ≤ c.bufferLength ∧ c.bufferLength < 2^31) :
    let p := appendPayload c d len head
    p.2.outboundMessage.remainingLength p.1 = c.outboundMessage.announced d.isNull (head.length+len) := by
  intro p
  have hp : p = appendPayload c d len head := rfl
  unfold OutMessage.announced
  rcases appendPayload_cases c d len head with ⟨hn,heq⟩ | ⟨hn,hfit,heq⟩ | ⟨hn,-,heq⟩
  · -- nothing is changed, what was left over included
    have hzero : len = 0 := le_antisymm (hnull hn) hd
    rw [hp, heq, hzero, add_zero]
    change c.outboundMessage.remainingLength head = _
    rw [remainingLength_announced _ (by omega), hn]
    rfl
  · rw [hp, heq, if_neg (by simp [hn]), Composer.remainingLength_fresh rfl, List.length_append,
      CData.slice_length, Int.bmod_eq_of_le (by omega) (by omega)]
    push_cast
    omega
  · rw [hp, heq, if_neg (by simp [hn])]
    unfold OutMessage.remainingLength
    dsimp only
    rw [if_pos (by omega)]
    congr 1
    omega

/-- `mqtt5_msg_publish` never keeps it. -/
theorem appendPayload5_announced (c : Connection) (d : CData) {len : ℤ} (head : List UInt8)
    (hd : 0 ≤ len) (hsize : head.length+len < 2^28 ∨ c.bufferLength < 2^31) :
    let p := appendPayload5 c d len head
    p.2.outboundMessage.remainingLength p.1 = c.outboundMessage.announced false (head.length+len) := by
  intro p
  have hp : p = appendPayload5 c d len head := rfl
  unfold OutMessage.announced
  rw [if_neg (by simp)]
  obtain ⟨c2,⟨-,heq,htotal,-⟩ | ⟨hfit,heq,htotal⟩⟩ := appendPayload5_cases c d len head
  · rw [hp, heq]
    unfold OutMessage.remainingLength
    rw [htotal, if_pos (by omega)]
    congr 1
    omega
  · rw [hp, heq, Composer.remainingLength_fresh htotal, List.length_append, CData.slice_length,
      Int.bmod_eq_of_le (by omega) (by omega)]
    push_cast
    omega

section Limit

open Composer

variable {s : Composer} {topic : Option (List UInt8)} {d : CData} {len : ℤ} {qos : ℕ}

theorem mqttMsgPublish_limited_iff (hs : s.Sound s.connection) (hd : 0 ≤ len) (retain : ℕ) :
    LimitsLength (((s.mqttPublishBody topic d len qos).map encodedLensStored).getD [])
        (publishLength topic len qos) (s.mqttMsgPublish topic d len qos retain).2 ↔
      (PublishAdmitted s.connection.bufferLength topic d len qos →
        publishLength topic len qos < 2^28 ∧ LeftoverAnnounced s.connection.outboundMessage d) := by
  rcases mqttPublishBody_cases hs hd qos retain with ⟨hno,hbody,t,ht⟩ | ⟨hyes,t,hbody,ht,hheld⟩
  · rw [hbody, ht]
    exact iff_of_true limitsLength_failed fun h => absurd h hno
  obtain ⟨hframe,-⟩ := publishId_frame s.connection qos
  have hhead : (publishHead ((given topic).getD []) qos (s.connection.publishId qos).1).length+len =
      (publishLength topic len qos : ℤ) := by
    rw [publishHead_length_eq _ qos _ 0]
    unfold publishLength
    omega
  generalize publishHead ((given topic).getD []) qos (s.connection.publishId qos).1 = head at hheld hhead
  have hstored : t.encodedLensStored.length ≤ 4 ↔
      (appendPayload (s.connection.publishId qos).2 d len head).2.outboundMessage.remainingLength
        (appendPayload (s.connection.publishId qos).2 d len head).1 < 2^28 := by
    unfold encodedLensStored
    rw [hheld.totalLength_eq, encodedLens_le_four_iff]
    norm_num
  rw [hbody, ht]
  change LimitsLength t.encodedLensStored _ _ ↔ _
  rw [limitsLength_iff (hheld.fini_refuses_iff .publish 0 qos retain), hstored, and_comm]
  refine Iff.trans (and_congr_right fun hshort => ?_) ⟨fun h _ => h, fun h => h hyes⟩
  have hann := appendPayload_announced (s.connection.publishId qos).2 d head hd hyes.data
    (Or.inl (by omega))
  dsimp only at hann
  rw [hann, hframe, hhead]
  unfold LeftoverAnnounced OutMessage.announced
  by_cases hleft : d.isNull = true ∧ s.connection.outboundMessage.fragmentedMsgTotalLength ≠ 0
  · rw [if_pos hleft]
    exact ⟨fun h _ _ => h, fun h => h hleft.1 hleft.2⟩
  · rw [if_neg hleft, Int.bmod_eq_of_le (by omega) (by omega)]
    exact iff_of_true (by omega) fun hn hne => absurd ⟨hn,hne⟩ hleft

theorem mqtt5MsgPublish_limited_iff (hs : s.Sound s.connection) (hd : 0 ≤ len) (retain : ℕ)
    (property : Option PublishProperty) (respInfo : Option (List UInt8)) :
    LimitsLength
        (((s.mqtt5PublishBody topic d len qos property respInfo).map mqtt5EncodedLensStored).getD [])
        (publishLength5 topic len qos property respInfo)
        (s.mqtt5MsgPublish topic d len qos retain property respInfo).2 ↔
      (PublishAdmitted5 s.connection.bufferLength topic d len qos property respInfo →
        publishLength5 topic len qos property respInfo < 2^28) := by
  rcases mqtt5PublishBody_cases hs hd qos retain respInfo with ⟨hno,hbody,t,ht⟩ | ⟨hyes,t,hbody,ht,hheld⟩
  · rw [hbody, ht]
    exact iff_of_true limitsLength_failed fun h => absurd h hno
  have hhead : (publishHead5 topic qos (s.connection.publishId qos).1 property respInfo).length+len =
      (publishLength5 topic len qos property respInfo : ℤ) := by
    rw [publishHead5_length_eq topic qos _ 0]
    unfold publishLength5
    omega
  generalize publishHead5 topic qos (s.connection.publishId qos).1 property respInfo = head
    at hheld hhead
  have hstored := hheld.mqtt5Stored_le_four_iff
  rw [hbody, ht]
  change LimitsLength t.mqtt5EncodedLensStored _ _ ↔ _
  rw [limitsLength_iff (hheld.mqtt5Fini_refuses_iff .publish 0 qos retain), hstored, and_comm]
  constructor
  · intro h _
    exact h.1
  · intro h
    have hshort := h hyes
    have hann := appendPayload5_announced (s.connection.publishId qos).2 d head hd (Or.inl (by omega))
    dsimp only at hann
    unfold OutMessage.announced at hann
    rw [if_neg (by simp), hhead, Int.bmod_eq_of_le (by omega) (by omega)] at hann
    rw [hann]
    exact ⟨hshort, by omega, by omega⟩

end Limit

/-- Every call of `mqtt_msg_publish` and of `mqtt5_msg_publish`, on any buffer and after any
message: the limit is kept if and only if the call fails before `fini_message`, or its body has
less than 2^28 bytes and, without data in `mqtt_msg.c`, no more are left over either. -/
theorem remaining_length_limited_iff (s : Composer) (hs : s.Sound s.connection)
    (topic : Option (List UInt8)) (d : CData) (len : ℤ) (hd : 0 ≤ len) (qos retain : ℕ)
    (property : Option PublishProperty) (respInfo : Option (List UInt8)) :
    (LimitsLength (((s.mqttPublishBody topic d len qos).map Composer.encodedLensStored).getD [])
        (publishLength topic len qos) (s.mqttMsgPublish topic d len qos retain).2 ↔
      (PublishAdmitted s.connection.bufferLength topic d len qos →
        publishLength topic len qos < 2^28 ∧ LeftoverAnnounced s.connection.outboundMessage d)) ∧
    (LimitsLength
        (((s.mqtt5PublishBody topic d len qos property respInfo).map
          Composer.mqtt5EncodedLensStored).getD [])
        (publishLength5 topic len qos property respInfo)
        (s.mqtt5MsgPublish topic d len qos retain property respInfo).2 ↔
      (PublishAdmitted5 s.connection.bufferLength topic d len qos property respInfo →
        publishLength5 topic len qos property respInfo < 2^28)) :=
  ⟨mqttMsgPublish_limited_iff hs hd retain, mqtt5MsgPublish_limited_iff hs hd retain property respInfo⟩

/-- A short message keeps the limit in both versions. -/
theorem remaining_length_limited_short :
    LimitsLength ((((freshComposer 16).mqttPublishBody (some [0x74]) zeroData 300 1).map
      Composer.encodedLensStored).getD []) (publishLength (some [0x74]) 300 1)
        ((freshComposer 16).mqttMsgPublish (some [0x74]) zeroData 300 1 0).2 ∧
    LimitsLength ((((freshComposer 16).mqtt5PublishBody (some [0x74]) zeroData 300 1 none none).map
      Composer.mqtt5EncodedLensStored).getD []) (publishLength5 (some [0x74]) 300 1 none none)
        ((freshComposer 16).mqtt5MsgPublish (some [0x74]) zeroData 300 1 0 none none).2 := by
  have hall := remaining_length_limited_iff (freshComposer 16) ⟨rfl, rfl, by simp [freshComposer]⟩
    (some [0x74]) zeroData 300 (by decide) 1 0 none none
  refine ⟨hall.1.mpr fun _ => ⟨by decide, fun hnull => ?_⟩, hall.2.mpr fun _ => by decide⟩
  exact absurd hnull (by decide)

/-- A payload of 2^28 bytes: a fifth byte is stored into the array of four. -/
theorem five_bytes_stored :
    let s := freshComposer 16
    ¬ LimitsLength (((s.mqttPublishBody (some [0x74]) zeroData (2^28) 0).map
        Composer.encodedLensStored).getD []) (publishLength (some [0x74]) (2^28) 0)
      (s.mqttMsgPublish (some [0x74]) zeroData (2^28) 0 0).2 ∧
    ¬ LimitsLength (((s.mqtt5PublishBody (some [0x74]) zeroData (2^28) 0 none none).map
        Composer.mqtt5EncodedLensStored).getD []) (publishLength5 (some [0x74]) (2^28) 0 none none)
      (s.mqtt5MsgPublish (some [0x74]) zeroData (2^28) 0 0 none none).2 := by
  constructor
  · intro h
    exact absurd h.stored (by decide +kernel)
  · intro h
    exact absurd h.stored (by decide +kernel)

end EspMqtt
