import EspMqtt.RemainingLength
import EspMqtt.Mqtt5Packets
import EspMqtt.Mqtt5Publish
import EspMqtt.RuntimeEncoding

/-! The identifiers of the replies of `mqtt_process_receive`: what it takes for the identifier of
an inbound packet, and what a PUBACK, PUBREC, PUBREL or PUBCOMP then carries. -/
namespace EspMqtt
open Wire

/-- `msg_id` of `mqtt_process_receive`. -/
def RxState.msgId (s : RxState) (v : ProtocolVer) : ℕ :=
  if v = .v5 then mqtt5GetId s.inBuffer s.messageLength else mqttGetId s.inBuffer s.messageLength

/-- `deliver_publish` gets topic and data out of the first `n` bytes. What it does with them,
and how the rest of the payload is read, may still make it fail. -/
def PublishRead (v : ProtocolVer) (buffer : List UInt8) (n : ℕ) : Prop :=
  if v = .v5 then
    ∃ fuel allocs payload, mqtt5GetPublishPropertyPayload fuel buffer n allocs = some (some payload)
  else
    mqttGetPublishTopic buffer n ≠ none ∧
      ¬ (0 < (mqttGetPublishData buffer n).2 ∧ (mqttGetPublishData buffer n).1 = none)

/-- The cases of `mqtt_process_receive` that reply, up to the write. `delivered` is how
`deliver_publish` ends. -/
def processReply (v : ProtocolVer) (s : RxState) (delivered : Bool) (c : Composer) : Option Composer :=
  let id := s.msgId v
  let qos := mqttGetQos (s.inBuffer.getD 0 0)
  match mqttGetType (s.inBuffer.getD 0 0) with
  | some .publish =>
    if delivered then
      if qos = 1 then some (if v = .v5 then c.mqtt5MsgPuback id else c.mqttMsgPuback id)
      else if qos = 2 then some (if v = .v5 then c.mqtt5MsgPubrec id else c.mqttMsgPubrec id)
      else none
    else none
  | some .pubrec => some (if v = .v5 then c.mqtt5MsgPubrel id else c.mqttMsgPubrel id)
  | some .pubrel => some (if v = .v5 then c.mqtt5MsgPubcomp id else c.mqttMsgPubcomp id)
  | _ => none

/-- What is written in response; nothing if the reply could not be created. -/
def replyBytes (v : ProtocolVer) (s : RxState) (delivered : Bool) (c : Composer) : List UInt8 :=
  match processReply v s delivered c with
  | none => []
  | some c => c.connection.outboundMessage.data

/-! What the packet contains, and what a reply carries. -/

/-- Where the identifier of `st` stands. -/
def idOffset (st : List UInt8) : ℕ :=
  if mqttGetType (st.getD 0 0) = some .publish then fieldEnd st+2+be16 st (fieldEnd st)
    else fieldEnd st

/-- The identifier that the packet at the front of `st` contains: none if its length is malformed
or the packet ends before it. -/
def carriedId (st : List UInt8) : Option ℕ :=
  if Runaway st ∨ packetLength st < idOffset st+2 then none else some (be16 st (idOffset st))

/-- Behind the identifier a v5 reply has its reason and the length of its properties. -/
def replyEnd (v : ProtocolVer) : List UInt8 := if v = .v5 then [0, 0] else []

/-- A reply with this identifier behind its fixed header. -/
def Carries (v : ProtocolVer) (reply : List UInt8) (id : ℕ) : Prop :=
  ∃ b lens, 1 ≤ lens.length ∧ lens.length ≤ 4 ∧ reply = b :: (lens ++ (u16 id ++ replyEnd v))

/-- Every reply to the packet received carries its identifier, and there is none if it has none:
whatever is in memory behind the bytes received, and in every state of the connection. -/
def EchoesId (v : ProtocolVer) (st : List UInt8) (s : RxState) : Prop :=
  ∀ buffer, buffer.take s.inBufferReadLen = s.inBuffer.take s.inBufferReadLen →
  ∀ c : Composer, c.Sound c.connection →
  ∀ delivered, (delivered = true → PublishRead v buffer s.inBufferReadLen) →
    replyBytes v {s with inBuffer := buffer} delivered c ≠ [] →
    ∃ id, carriedId st = some id ∧ id ≠ 0 ∧
      Carries v (replyBytes v {s with inBuffer := buffer} delivered c) id

/-! When that is so. -/

/-- A packet with this first byte has a reply: a PUBLISH with QoS 1 or 2, a PUBREC, a PUBREL. -/
def Answered (b : UInt8) : Prop :=
  (mqttGetType b = some .publish ∧ (mqttGetQos b = 1 ∨ mqttGetQos b = 2)) ∨
  mqttGetType b = some .pubrec ∨ mqttGetType b = some .pubrel

/-- There is a reply to the packet of which `n` bytes are received: a PUBLISH must be one that can
be delivered. -/
def ReplyDue (v : ProtocolVer) (st : List UInt8) (n : ℕ) : Prop :=
  Answered (st.getD 0 0) ∧
    (mqttGetType (st.getD 0 0) = some .publish → ∃ behind, PublishRead v (st.take n ++ behind) n)

/-- The packet has an identifier other than 0 among the `n` bytes received, and 3.1.1 looks for
that of a PUBREC or PUBREL behind a single length byte only. -/
def IdInReach (v : ProtocolVer) (st : List UInt8) (n : ℕ) : Prop :=
  (∃ id, carriedId st = some id ∧ id ≠ 0) ∧ idOffset st+2 ≤ n ∧
    (v ≠ .v5 → mqttGetType (st.getD 0 0) ≠ some .publish → ¬ Goes st 1)

/-! Every reply is one acknowledgement, and it carries the identifier it is given. -/

namespace Composer

/-- An acknowledgement of the version spoken. -/
def acknowledge (v : ProtocolVer) (type : MsgType) (qos : ℕ) (c : Composer) (id : ℕ) : Composer :=
  if v = .v5 then c.mqtt5AckMessage type qos id else c.ackMessage type qos id

variable {s : Composer} {c : Connection}

/-- A body and its fixed header. -/
def Seals (data body : List UInt8) : Prop :=
  data = [] ∨ ∃ b lens, 1 ≤ lens.length ∧ lens.length ≤ 4 ∧ data = b :: (lens ++ body)

theorem finiMessage_seals (c : Connection) (type : MsgType) (dup qos retain : ℕ) (body : List UInt8) :
    Seals (EspMqtt.finiMessage c type dup qos retain body).outboundMessage.data body := by
  have hpos (total : ℤ) : 1 ≤ (encodedLens 5 total).length := by
    unfold encodedLens
    split <;> simp
  unfold EspMqtt.finiMessage
  dsimp only
  split
  · exact Or.inl rfl
  · exact Or.inr ⟨_, _, hpos _, by omega, rfl⟩

/-- A length that the v5 encoder takes for a huge one is refused. -/
theorem Holds.mqtt5Seals {acc : List UInt8} (h : Holds s c acc) (type : MsgType) (dup qos retain : ℕ) :
    Seals (s.mqtt5FiniMessage type dup qos retain).connection.outboundMessage.data acc := by
  by_cases hrem : 0 ≤ c.outboundMessage.remainingLength acc
  · rw [h.mqtt5Fini hrem]
    exact finiMessage_seals c type dup qos retain acc
  · left
    have htotal : s.totalLength = c.outboundMessage.remainingLength acc := by
      unfold totalLength OutMessage.remainingLength
      dsimp only
      rw [h.connection, h.length]
      congr 1
      omega
    have hsmall : -2^31 ≤ c.outboundMessage.remainingLength acc := by
      unfold OutMessage.remainingLength at hrem ⊢
      split
      · have hle := @Int.le_bmod ((c.outboundMessage.fragmentedMsgTotalLength : ℤ)-5) (2^32) (by decide)
        omega
      · omega
    have hfive := encodedLens_five (c.outboundMessage.remainingLength acc+2^32) (by omega)
    have hlens : 5 < (generateVariableLen 5
        (c.outboundMessage.remainingLength acc+2^32).toNat).length+1 := by
      rw [generateVariableLen_eq, Int.toNat_of_nonneg (by omega)]
      omega
    unfold mqtt5FiniMessage sealMessage
    dsimp only
    rw [htotal, if_pos (not_le.mp hrem), if_pos hlens]
    rfl

/-- What is composed for an acknowledgement, in any buffer. -/
theorem ackMessage_seals (hs : Sound s s.connection) (type : MsgType) (qos id : ℕ) :
    Seals (ackMessage type qos s id).connection.outboundMessage.data
      (u16 (s.connection.messageId id).1) := by
  -- below seven bytes there is no room for an identifier behind the header
  by_cases h7 : s.connection.bufferLength < 7
  · unfold ackMessage
    dsimp only
    rw [drawId_small h7, if_pos rfl]
    exact Or.inl rfl
  · obtain ⟨hbody,hdrawn⟩ := appendMessageId_first s.connection id
    rw [(ackMessage_sound hs (by omega) type qos id).connection]
    unfold EspMqtt.ackMessage
    dsimp only
    rw [hbody, hdrawn, if_pos (by rw [u16_length]; omega)]
    exact finiMessage_seals _ type 0 qos 0 _

/-- A buffer without room for the empty block of properties. -/
theorem withProperties_small (h : s.connection.bufferLength < s.length+1) :
    (withProperties [] s).1 = false := by
  unfold withProperties
  rw [chain_nil]
  unfold andThen updatePropertyLenValue
  dsimp only
  rw [if_pos rfl, if_pos]
  omega

theorem mqtt5AckMessage_seals (hs : Sound s s.connection) (type : MsgType) (qos id : ℕ) :
    Seals (mqtt5AckMessage type qos s id).connection.outboundMessage.data
      (u16 (s.connection.messageId id).1 ++ [0, 0]) := by
  unfold mqtt5AckMessage
  dsimp only
  by_cases h7 : s.connection.bufferLength < 7
  · rw [drawId_small h7, if_pos rfl]
    exact Or.inl rfl
  · have hfirst := (hs.setMessageHeaderSize (by omega)).appendMessageId id
    rw [List.nil_append, u16_length] at hfirst
    rcases hfirst with ⟨-,h1,h2⟩ | ⟨hroom,-,-⟩
    · have hpos := messageId_pos s.connection id
      have hframe := (messageId_frame s.connection id).2
      have hl := h2.length
      rw [u16_length] at hl
      rw [h1, if_neg (by omega)]
      by_cases h8 : s.connection.bufferLength < 8
      · -- the reason is written behind the end of the buffer, and the properties fail
        have hnone := @withProperties_small ((s.setMessageHeaderSize.appendMessageId id).2.append [0]) (by
          change (s.setMessageHeaderSize.appendMessageId id).2.connection.bufferLength <
            (s.setMessageHeaderSize.appendMessageId id).2.length+1+1
          rw [h2.connection, hframe]
          omega)
        unfold mqtt5Finish
        rw [if_neg (by rw [hnone]; simp)]
        exact Or.inl rfl
      · have hreason := h2.append (b := [0]) (by rw [u16_length, hframe, List.length_singleton]; omega)
        have hnone : Extends (chain []) (blockBytes []) := extends_nothing
        have hall := properties_turns hnone _ _ _ hreason
        rw [List.append_assoc] at hall
        unfold mqtt5Finish
        rcases hall with ⟨g1,g2⟩ | ⟨g1,-,-⟩
        · rw [if_pos g1]
          exact g2.mqtt5Seals type 0 qos 0
        · rw [if_neg (by rw [g1]; simp)]
          exact Or.inl rfl
    · omega

/-- An acknowledgement carries the identifier that is drawn for it. -/
theorem acknowledge_carries (hs : Sound s s.connection) (v : ProtocolVer) (type : MsgType) (qos id : ℕ) :
    (acknowledge v type qos s id).connection.outboundMessage.data = [] ∨
      Carries v (acknowledge v type qos s id).connection.outboundMessage.data
        (s.connection.messageId id).1 := by
  unfold acknowledge Carries replyEnd
  by_cases hv : v = .v5
  · simp only [if_pos hv]
    exact mqtt5AckMessage_seals hs type qos id
  · simp only [if_neg hv, List.append_nil]
    exact ackMessage_seals hs type qos id

/-- Where nothing is left of a fragmented message an acknowledgement fits into 16 bytes. -/
theorem acknowledge_nonempty (hs : Sound s s.connection) (h16 : 16 ≤ s.connection.bufferLength)
    (hc : s.connection.outboundMessage.fragmentedMsgTotalLength = 0) (v : ProtocolVer) (type : MsgType)
    (qos id : ℕ) : (acknowledge v type qos s id).connection.outboundMessage.data ≠ [] := by
  obtain ⟨hid,hheld⟩ := hs.drawId (by omega) id
  obtain ⟨hout,hbl⟩ := messageId_frame s.connection id
  have hpos := messageId_pos s.connection id
  have hfresh : (s.connection.messageId id).2.outboundMessage.fragmentedMsgTotalLength = 0 := by
    rw [hout]
    exact hc
  unfold acknowledge
  by_cases hv : v = .v5
  · have hreason := hheld.append (b := [0]) (by simp; omega)
    have hnone : Extends (chain []) (blockBytes []) := extends_nothing
    have hall := (properties_turns hnone _ _ _ hreason).finish_data hfresh type qos
    have hlen : (u16 (s.connection.messageId id).1 ++ [0] ++ block []).length = 4 := by
      rw [List.length_append, List.length_append, u16_length]
      rfl
    rw [hlen, hbl, if_pos (by omega)] at hall
    rw [if_pos hv]
    unfold mqtt5AckMessage
    dsimp only
    rw [hid, if_neg (by omega), hall]
    exact List.cons_ne_nil _ _
  · have hdata := finiMessage_framed hfresh type 0 qos 0 (u16 (s.connection.messageId id).1)
    rw [u16_length, if_pos (by decide)] at hdata
    rw [if_neg hv]
    unfold ackMessage
    dsimp only
    rw [hid, if_neg (by omega), (hheld.fini type 0 qos 0).connection, hdata]
    exact List.cons_ne_nil _ _

/-- The reply that `processMessage` composes. -/
theorem compose_reply {w : World} (h5 : w.isV5 = false) (hs : Sound s w.connection)
    (hroom : 5 ≤ w.connection.bufferLength) (type : MsgType) (qos : ℕ) :
    (w.compose type qos
        (EspMqtt.ackMessage type qos · (w.receivedId w.rx.messageLength))).connection.outboundMessage.data =
      (acknowledge .v311 type qos s (w.rx.msgId .v311)).connection.outboundMessage.data := by
  have hid : w.receivedId w.rx.messageLength = w.rx.msgId .v311 := by
    unfold World.receivedId RxState.msgId
    rw [if_neg (by simp [h5]), if_neg (by simp)]
  have hcomposed := ackMessage_sound hs hroom type qos (w.rx.msgId .v311)
  unfold acknowledge
  rw [if_neg (by simp), hcomposed.connection, hid]
  unfold World.compose World.arising
  rw [if_neg (by simp [h5])]

/-- A connection that has counted up to `n`, with nothing in its buffer. -/
def counting (n : ℕ) : Composer := ⟨⟨⟨[], 0, 0⟩, n, 16, true, []⟩, List.replicate 16 0, 0, []⟩

theorem counting_sound (n : ℕ) : Sound (counting n) (counting n).connection :=
  ⟨rfl, rfl, fun _ hi => absurd hi List.not_mem_nil⟩

end Composer

/-- A reply carries one identifier. -/
theorem Carries.unique {v : ProtocolVer} {reply : List UInt8} {a b : ℕ} (ha : Carries v reply a)
    (hb : Carries v reply b) (hale : a < 65536) (hble : b < 65536) : a = b := by
  obtain ⟨x,xs,-,-,hx⟩ := ha
  obtain ⟨y,ys,-,-,hy⟩ := hb
  rw [hx] at hy
  have htail := (List.cons.inj hy).2
  rw [← List.append_assoc, ← List.append_assoc] at htail
  have hsame := List.append_cancel_right htail
  have hu := (List.append_inj' hsame (by rw [u16_length, u16_length])).2
  have h0 := congrArg UInt8.toNat (List.cons.inj hu).1
  have h1 := congrArg UInt8.toNat (List.cons.inj (List.cons.inj hu).2).1
  rw [UInt8.toNat_ofNat', UInt8.toNat_ofNat'] at h0 h1
  omega

/-! The reply to a packet. -/

/-- Type and header QoS of the reply, by the first byte of the packet. -/
def replyTo (b : UInt8) (delivered : Bool) : Option (MsgType × ℕ) :=
  match mqttGetType b with
  | some .publish =>
    if delivered then
      if mqttGetQos b = 1 then some (.puback, 0) else if mqttGetQos b = 2 then some (.pubrec, 0) else none
    else none
  | some .pubrec => some (.pubrel, 1)
  | some .pubrel => some (.pubcomp, 0)
  | _ => none

/-- Every reply is an acknowledgement composed for `msg_id`. -/
theorem processReply_eq (v : ProtocolVer) (s : RxState) (delivered : Bool) (c : Composer) :
    processReply v s delivered c =
      (replyTo (s.inBuffer.getD 0 0) delivered).map fun r => c.acknowledge v r.1 r.2 (s.msgId v) := by
  unfold processReply replyTo
  dsimp only
  cases mqttGetType (s.inBuffer.getD 0 0) with
  | none => rfl
  | some type =>
    cases type with
    | publish =>
      dsimp only
      split
      · split
        · rfl
        · split <;> rfl
      · rfl
    | _ => rfl

/-! The identifier in a packet that has been handed out. -/

namespace Tracks

variable {st : List UInt8} {l : ℕ} {t : Transport} {s : RxState} {v : ProtocolVer}

/-- Other bytes behind those received. -/
theorem withBuffer (h : Tracks st l t s) {buffer : List UInt8}
    (hb : buffer.take s.inBufferReadLen = s.inBuffer.take s.inBufferReadLen) :
    Tracks st l t {s with inBuffer := buffer} := by
  refine ⟨h.le, ?_, hb.trans h.seen, h.ahead, h.length, h.valid⟩
  have hlen := congrArg List.length hb
  have hroom := h.room
  rw [List.length_take, List.length_take] at hlen
  dsimp only
  omega

theorem be16_eq (h : Tracks st l t s) {i : ℕ} (hi : i+2 ≤ s.inBufferReadLen) :
    be16 s.inBuffer i = be16 st i := by
  unfold be16
  rw [h.getD (by omega), h.getD (by omega)]

/-- What the accessors take for the identifier of a packet that is long enough to have one. -/
theorem msgId_eq (h : Tracks st l t s) (hml : s.messageLength = packetLength st)
    (hrun : ¬ Runaway st) (hlong : idOffset st+2 ≤ packetLength st)
    (hread : fieldEnd st+2 ≤ s.inBufferReadLen) (htype : Answered (st.getD 0 0)) :
    s.msgId v = if v ≠ .v5 ∧ mqttGetType (st.getD 0 0) ≠ some .publish ∧ Goes st 1 then 0
      else be16 s.inBuffer (idOffset st) := by
  have htwo := two_le_fieldEnd st
  have hlen : fieldEnd st ≤ packetLength st := Nat.le_add_left _ _
  have hfirst : s.inBuffer.getD 0 0 = st.getD 0 0 := h.getD (by omega)
  have hvar : 1+(getVariableLen s.inBuffer 1 (packetLength st)).2 = fieldEnd st :=
    h.variableLen hrun (by omega) hlen
  have htopic := h.be16_eq hread
  unfold RxState.msgId idOffset at *
  rw [hml]
  by_cases hv : v = .v5
  · rw [if_pos hv, if_neg (fun hh => hh.1 hv)]
    unfold mqtt5GetId
    dsimp only
    rw [hvar, hfirst, htopic]
    -- v5: the accessor skips the whole field, whatever its length
    rcases htype with ⟨hp,hq⟩ | hp | hp
    · simp only [hp, if_true] at hlong ⊢
      rw [if_neg (by omega), if_neg (by omega), if_neg (by omega)]
    · simp only [hp, reduceCtorEq, if_false, Option.some.injEq] at hlong ⊢
      rw [if_neg (by omega)]
      exact htopic.symm
    · simp only [hp, reduceCtorEq, if_false, Option.some.injEq] at hlong ⊢
      rw [if_neg (by omega)]
      exact htopic.symm
  · rw [if_neg hv]
    unfold mqttGetId
    rw [if_neg (by omega), hfirst]
    have hone : s.inBuffer.getD 1 0 = st.getD 1 0 := h.getD (by omega)
    -- a field of more than one byte is behind what the accessor looks at
    have hgoes : Goes st 1 ∨ fieldEnd st = 2 := by
      by_cases hg : Goes st 1
      · exact Or.inl hg
      · have hend := @fieldEnd_le_of_stop st 1 le_rfl hg
        exact Or.inr (by omega)
    rcases htype with ⟨hp,hq⟩ | hp | hp
    · have hskip : skipRemainingLength s.inBuffer (packetLength st-1) 1 = fieldEnd st :=
        skipRemainingLength_fieldEnd hrun (fun j hj => h.getD (by omega)) _ 1 le_rfl (by omega)
          (by omega)
      simp only [hp, if_true] at hlong ⊢
      rw [hskip, htopic, if_neg (by omega), if_neg (by omega), if_pos (by omega), if_neg (by omega),
        if_neg (fun hh => hh.2.1 rfl)]
    all_goals
      simp only [hp, reduceCtorEq, if_false, Option.some.injEq] at hlong ⊢
      rw [hone]
      rcases hgoes with hg | hg
      · rw [if_neg (fun hh => hg hh.2), if_pos ⟨hv, by simp, hg⟩]
      · have hstop : ¬ Goes st 1 := by
          have hend := not_goes_fieldEnd hrun
          rwa [hg] at hend
        rw [if_pos ⟨by omega, not_not.mp hstop⟩, if_neg (fun hh => hstop hh.2.2), hg]

/-- A 3.1.1 PUBLISH is delivered if its topic is among the bytes received, and something behind it. -/
theorem publishRead_iff (h : Tracks st l t s) (hv : v ≠ .v5) (hrun : ¬ Runaway st)
    (hread : fieldEnd st+2 ≤ s.inBufferReadLen) :
    PublishRead v s.inBuffer s.inBufferReadLen ↔ fieldEnd st+2 < s.inBufferReadLen ∧
      fieldEnd st+2+be16 st (fieldEnd st) ≤ s.inBufferReadLen := by
  have htwo := two_le_fieldEnd st
  have hskip : skipRemainingLength s.inBuffer (s.inBufferReadLen-1) 1 = fieldEnd st :=
    skipRemainingLength_fieldEnd hrun (fun j hj => h.getD (by omega)) _ 1 le_rfl (by omega) (by omega)
  have hdata : ¬ (0 < (mqttGetPublishData s.inBuffer s.inBufferReadLen).2 ∧
      (mqttGetPublishData s.inBuffer s.inBufferReadLen).1 = none) := by
    unfold mqttGetPublishData
    dsimp only
    repeat' split
    all_goals simp
  unfold PublishRead
  rw [if_neg hv, and_iff_left hdata]
  unfold mqttGetPublishTopic
  dsimp only
  rw [hskip, h.be16_eq hread]
  by_cases h1 : s.inBufferReadLen ≤ fieldEnd st+2
  · rw [if_pos h1]
    exact ⟨fun hne => absurd rfl hne, fun hh => by omega⟩
  · rw [if_neg h1]
    by_cases h2 : s.inBufferReadLen < fieldEnd st+2+be16 st (fieldEnd st)
    · rw [if_pos h2]
      exact ⟨fun hne => absurd rfl hne, fun hh => by omega⟩
    · rw [if_neg h2]
      exact ⟨fun _ => by omega, fun _ => by simp⟩

/-- A v5 PUBLISH with QoS 1 or 2 is delivered only with its identifier among the bytes received. -/
theorem publishRead_v5 (h : Tracks st l t s) (hrun : ¬ Runaway st)
    (hread : fieldEnd st+2 ≤ s.inBufferReadLen) (hq : 0 < mqttGetQos (st.getD 0 0))
    (hp : PublishRead .v5 s.inBuffer s.inBufferReadLen) :
    fieldEnd st+2+be16 st (fieldEnd st)+2 < s.inBufferReadLen := by
  have hvar : 1+(getVariableLen s.inBuffer 1 s.inBufferReadLen).2 = fieldEnd st :=
    h.variableLen hrun (by omega) (by omega)
  have hfirst : s.inBuffer.getD 0 0 = st.getD 0 0 := h.getD (by omega)
  obtain ⟨fuel,allocs,payload,hp⟩ := hp
  unfold mqtt5GetPublishPropertyPayload at hp
  dsimp only at hp
  rw [hvar, h.be16_eq hread, hfirst] at hp
  by_contra hle
  by_cases h1 : s.inBufferReadLen ≤ fieldEnd st+2+be16 st (fieldEnd st)
  · rw [if_pos h1] at hp
    simp at hp
  · rw [if_neg h1, if_pos ⟨hq, by omega⟩] at hp
    simp at hp

end Tracks

/-! Which identifier a reply carries comes down to `msg_id`. -/

theorem be16_lt (b : List UInt8) (i : ℕ) : be16 b i < 65536 := by
  unfold be16
  have h0 := (b.getD i 0).toNat_lt
  have h1 := (b.getD (i+1) 0).toNat_lt
  omega

theorem carriedId_lt {st : List UInt8} {id : ℕ} (h : carriedId st = some id) : id < 65536 := by
  unfold carriedId at h
  split at h
  · exact absurd h (by simp)
  · rw [← Option.some.inj h]
    exact be16_lt _ _

theorem RxState.msgId_lt (s : RxState) (v : ProtocolVer) : s.msgId v < 65536 := by
  unfold RxState.msgId mqtt5GetId mqttGetId
  dsimp only
  repeat' split
  all_goals first | exact be16_lt _ _ | decide

/-- An identifier other than 0 is not replaced. -/
theorem replyBytes_carries {v : ProtocolVer} {s : RxState} {delivered : Bool} {c : Composer}
    (hs : c.Sound c.connection) (hid : s.msgId v ≠ 0) (hne : replyBytes v s delivered c ≠ []) :
    Carries v (replyBytes v s delivered c) (s.msgId v) := by
  have hsame : (c.connection.messageId (s.msgId v)).1 = s.msgId v := by
    unfold Connection.messageId
    rw [if_pos hid]
  unfold replyBytes at hne ⊢
  rw [processReply_eq] at hne ⊢
  cases hr : replyTo (s.inBuffer.getD 0 0) delivered with
  | none =>
    rw [hr] at hne
    exact absurd rfl hne
  | some r =>
    rw [hr] at hne
    rcases Composer.acknowledge_carries hs v r.1 r.2 (s.msgId v) with hnil | hcarries
    · exact absurd hnil hne
    · rw [hsame] at hcarries
      exact hcarries

/-- In place of 0 the connection draws the next identifier that it has counted. -/
theorem replyBytes_counting {v : ProtocolVer} {s : RxState} {delivered : Bool}
    (hdue : (replyTo (s.inBuffer.getD 0 0) delivered).isSome) (n : ℕ) :
    replyBytes v s delivered (Composer.counting n) ≠ [] ∧
    Carries v (replyBytes v s delivered (Composer.counting n))
      ((Composer.counting n).connection.messageId (s.msgId v)).1 := by
  obtain ⟨r,hr⟩ := Option.isSome_iff_exists.mp hdue
  have hs := Composer.counting_sound n
  have hne := Composer.acknowledge_nonempty hs le_rfl rfl v r.1 r.2 (s.msgId v)
  unfold replyBytes
  rw [processReply_eq, hr]
  exact ⟨hne, (Composer.acknowledge_carries hs v r.1 r.2 (s.msgId v)).resolve_left hne⟩

/-- A reply is due with these bytes in memory. -/
def DueIn (v : ProtocolVer) (buffer : List UInt8) (n : ℕ) : Prop :=
  ∃ delivered, (delivered = true → PublishRead v buffer n) ∧
    (replyTo (buffer.getD 0 0) delivered).isSome

/-- No reply is wrong if and only if `msg_id` is right whenever there is one. -/
theorem echoesId_iff_msgId (v : ProtocolVer) (st : List UInt8) (s : RxState) :
    EchoesId v st s ↔ ∀ buffer, buffer.take s.inBufferReadLen = s.inBuffer.take s.inBufferReadLen →
      DueIn v buffer s.inBufferReadLen →
      carriedId st = some (({s with inBuffer := buffer} : RxState).msgId v) ∧
        ({s with inBuffer := buffer} : RxState).msgId v ≠ 0 := by
  constructor
  · rintro h buffer hb ⟨delivered,hread,hdue⟩
    have hpick (n : ℕ) := h buffer hb (Composer.counting n) (Composer.counting_sound n) delivered hread
    -- a reply drawn by a connection that has counted to `n` tells whether one is drawn at all
    have hcount (n : ℕ) := @replyBytes_counting v {s with inBuffer := buffer} delivered hdue n
    have hlt := ({s with inBuffer := buffer} : RxState).msgId_lt v
    generalize hm : ({s with inBuffer := buffer} : RxState).msgId v = m at hcount hlt ⊢
    obtain ⟨id,hid,hne,hcarries⟩ := hpick 0 (hcount 0).1
    have hidlt := carriedId_lt hid
    have hzero : m ≠ 0 := by
      -- two connections that have counted differently would reply differently
      rintro rfl
      obtain ⟨id',hid',-,hcarries'⟩ := hpick 1 (hcount 1).1
      have hone := hcarries.unique (hcount 0).2 hidlt (by decide)
      have htwo := hcarries'.unique (hcount 1).2 (carriedId_lt hid') (by decide)
      have hsame := Option.some.inj (hid.symm.trans hid')
      rw [hone, htwo] at hsame
      exact absurd hsame (by decide)
    have hkept : ((Composer.counting 0).connection.messageId m).1 = m := by
      unfold Connection.messageId
      rw [if_pos hzero]
    have hcarriesm := (hcount 0).2
    rw [hkept] at hcarriesm
    have heq := hcarries.unique hcarriesm hidlt hlt
    exact ⟨by rw [hid, heq], hzero⟩
  · intro h buffer hb c hs delivered hread hne
    have hdue : (replyTo (buffer.getD 0 0) delivered).isSome := by
      unfold replyBytes at hne
      rw [processReply_eq] at hne
      dsimp only at hne
      cases hr : replyTo (buffer.getD 0 0) delivered with
      | none =>
        rw [hr] at hne
        exact absurd rfl hne
      | some r => rfl
    obtain ⟨hid,hzero⟩ := h buffer hb ⟨delivered,hread,hdue⟩
    exact ⟨_, hid, hzero, replyBytes_carries hs hzero hne⟩

theorem dueIn_iff (v : ProtocolVer) (buffer : List UInt8) (n : ℕ) :
    DueIn v buffer n ↔ Answered (buffer.getD 0 0) ∧
      (mqttGetType (buffer.getD 0 0) = some .publish → PublishRead v buffer n) := by
  unfold DueIn replyTo Answered
  generalize buffer.getD 0 0 = b
  constructor
  · rintro ⟨delivered,hread,hdue⟩
    -- only PUBLISH, PUBREC and PUBREL are answered, a PUBLISH only if it was delivered
    cases ht : mqttGetType b with
    | none => simp [ht] at hdue
    | some type =>
      cases type with
      | publish =>
        cases delivered with
        | false => simp [ht] at hdue
        | true =>
          refine ⟨Or.inl ⟨rfl,?_⟩, fun _ => hread rfl⟩
          by_contra hq
          rw [not_or] at hq
          simp [ht, hq.1, hq.2] at hdue
      | pubrec => exact ⟨Or.inr (Or.inl rfl), fun h => absurd h (by simp)⟩
      | pubrel => exact ⟨Or.inr (Or.inr rfl), fun h => absurd h (by simp)⟩
      | _ => simp [ht] at hdue
  · rintro ⟨⟨ht,hq⟩ | ht | ht, hread⟩
    · refine ⟨true, fun _ => hread ht, ?_⟩
      rcases hq with hq | hq <;> simp [ht, hq]
    · exact ⟨false, fun h => absurd h (by simp), by simp [ht]⟩
    · exact ⟨false, fun h => absurd h (by simp), by simp [ht]⟩

theorem carriedId_some {st : List UInt8} {id : ℕ} (h : carriedId st = some id) :
    ¬ Runaway st ∧ idOffset st+2 ≤ packetLength st ∧ be16 st (idOffset st) = id := by
  unfold carriedId at h
  by_cases hbad : Runaway st ∨ packetLength st < idOffset st+2
  · rw [if_pos hbad] at h
    exact absurd h (by simp)
  · rw [if_neg hbad] at h
    rw [not_or, not_lt] at hbad
    exact ⟨hbad.1, hbad.2, Option.some.inj h⟩

/-- The field and two bytes behind it are among the bytes received. -/
theorem HandedOut.field {st : List UInt8} {l n : ℕ} (h : HandedOut st l n)
    (hlong : idOffset st+2 ≤ packetLength st) : fieldEnd st+2 ≤ n := by
  have hid : fieldEnd st ≤ idOffset st := by
    unfold idOffset
    split <;> omega
  rcases h.2 with ⟨-,h2⟩ | ⟨-,-,-,h4,-⟩
  · omega
  · exact h4

namespace Tracks

variable {st : List UInt8} {l : ℕ} {t : Transport} {s : RxState} {v : ProtocolVer}

/-- Memory that begins with the bytes received. -/
theorem take_append (h : Tracks st l t s) (behind : List UInt8) :
    (st.take s.inBufferReadLen ++ behind).take s.inBufferReadLen = s.inBuffer.take s.inBufferReadLen := by
  have hlen : (st.take s.inBufferReadLen).length = s.inBufferReadLen := List.length_take_of_le h.le
  rw [List.take_append_of_le_length (le_of_eq hlen.symm), List.take_take, Nat.min_self, h.seen]

/-- If `msg_id` is right whatever is in memory behind the bytes received, then the identifier of a
delivered PUBLISH is among them. -/
theorem publishId_received (h : Tracks st l t s) (hml : s.messageLength = packetLength st)
    (hrun : ¬ Runaway st) (hlong : idOffset st+2 ≤ packetLength st)
    (hfield : fieldEnd st+2 ≤ s.inBufferReadLen) (hanswered : Answered (st.getD 0 0))
    (hpub : mqttGetType (st.getD 0 0) = some .publish)
    (hread : PublishRead v s.inBuffer s.inBufferReadLen)
    (hright : ∀ buffer, buffer.take s.inBufferReadLen = s.inBuffer.take s.inBufferReadLen →
      DueIn v buffer s.inBufferReadLen →
      carriedId st = some (({s with inBuffer := buffer} : RxState).msgId v)) :
    idOffset st+2 ≤ s.inBufferReadLen := by
  have htwo := two_le_fieldEnd st
  have hlen : (st.take s.inBufferReadLen).length = s.inBufferReadLen := List.length_take_of_le h.le
  have hoff : idOffset st = fieldEnd st+2+be16 st (fieldEnd st) := if_pos hpub
  by_cases hv : v = .v5
  · subst hv
    have hq : 0 < mqttGetQos (st.getD 0 0) := by
      rcases hanswered with ⟨-,hq⟩ | ht | ht
      · omega
      · rw [hpub] at ht
        simp at ht
      · rw [hpub] at ht
        simp at ht
    have hin := h.publishRead_v5 hrun hfield hq hread
    omega
  · -- else the last byte of the identifier is one behind those received
    by_contra hcut
    -- whatever byte stands there, `msg_id` would take it for the low byte of the identifier
    have hfill (x : UInt8) : ∃ id, carriedId st = some id ∧ id % 256 = x.toNat := by
      have hsame := h.take_append (List.replicate (idOffset st+2-s.inBufferReadLen) x)
      have hx := h.withBuffer hsame
      have hfirst := hx.getD (j := 0) (by dsimp only; omega)
      have hreadx := (hx.publishRead_iff hv hrun hfield).mpr
        ((h.publishRead_iff hv hrun hfield).mp hread)
      have hid := hright _ hsame ((dueIn_iff _ _ _).mpr
        ⟨by rw [hfirst]; exact hanswered, fun _ => hreadx⟩)
      have hmsg := hx.msgId_eq (v := v) hml hrun hlong hfield hanswered
      rw [if_neg (fun hh => hh.2.1 hpub)] at hmsg
      have hlow : (st.take s.inBufferReadLen ++
          List.replicate (idOffset st+2-s.inBufferReadLen) x).getD (idOffset st+1) 0 = x := by
        rw [List.getD_append_right _ _ _ _ (by omega), hlen, List.getD_replicate]
        omega
      refine ⟨_, hid, ?_⟩
      rw [hmsg]
      unfold be16
      dsimp only
      rw [hlow]
      have hx256 := x.toNat_lt
      omega
    -- but the packet carries one identifier only
    obtain ⟨a,ha,hamod⟩ := hfill 1
    obtain ⟨b,hb,hbmod⟩ := hfill 2
    have hab := Option.some.inj (ha.symm.trans hb)
    rw [hab, hbmod] at hamod
    exact absurd hamod (by decide)

end Tracks

/-- The replies to a packet that was handed out carry its identifier if and only if, where a reply
is due, the identifier is in reach. -/
theorem replies_echo_iff (v : ProtocolVer) {st : List UInt8} {t t' : Transport} {s s' : RxState}
    (hempty : s.inBufferReadLen = 0) (hst : t.stream = st) (hc : Concludes t s .message t' s') :
    EchoesId v st s' ↔ (ReplyDue v st s'.inBufferReadLen → IdInReach v st s'.inBufferReadLen) := by
  obtain ⟨htr,hout,hml⟩ := hc.tracks (Tracks.start hempty rfl hst) rfl
  have hpos : 0 < s'.inBufferReadLen := by
    have htwo := two_le_fieldEnd st
    have hfield := fieldEnd_le_lengthBytesRead st
    have hbytes := hout.1
    omega
  rw [echoesId_iff_msgId]
  constructor
  · rintro h ⟨hanswered,hpublish⟩
    -- some memory in which the reply is due
    obtain ⟨behind,hread⟩ : ∃ behind, mqttGetType (st.getD 0 0) = some .publish →
        PublishRead v (st.take s'.inBufferReadLen ++ behind) s'.inBufferReadLen := by
      by_cases hpub : mqttGetType (st.getD 0 0) = some .publish
      · obtain ⟨behind,hread⟩ := hpublish hpub
        exact ⟨behind, fun _ => hread⟩
      · exact ⟨[], fun hp => absurd hp hpub⟩
    have hsame := htr.take_append behind
    have htb := htr.withBuffer hsame
    have hfirst : (st.take s'.inBufferReadLen ++ behind).getD 0 0 = st.getD 0 0 := htb.getD hpos
    obtain ⟨hid,hzero⟩ := h _ hsame ((dueIn_iff _ _ _).mpr (by rw [hfirst]; exact ⟨hanswered,hread⟩))
    obtain ⟨hrun,hlong,-⟩ := carriedId_some hid
    have hfield := hout.field hlong
    refine ⟨⟨_,hid,hzero⟩, ?_, fun hv ht hgoes => ?_⟩
    -- a packet that was not received as a whole is a PUBLISH
    · rcases hout.2 with ⟨-,hwhole⟩ | ⟨-,hpub,-⟩
      · omega
      · refine htb.publishId_received hml hrun hlong hfield hanswered hpub (hread hpub) ?_
        exact fun buffer hb hdue => (h buffer (hb.trans hsame) hdue).1
    · have hmsg := htb.msgId_eq (v := v) hml hrun hlong hfield hanswered
      rw [if_pos ⟨hv,ht,hgoes⟩] at hmsg
      exact hzero hmsg
  · intro h buffer hb hdue
    have htb := htr.withBuffer hb
    have hfirst : buffer.getD 0 0 = st.getD 0 0 := htb.getD hpos
    rw [dueIn_iff, hfirst] at hdue
    obtain ⟨hanswered,hread⟩ := hdue
    obtain ⟨⟨id,hid,hzero⟩,hreach,hone⟩ := h ⟨hanswered, fun hpub => ⟨buffer.drop s'.inBufferReadLen, by
      rw [← htr.seen, ← hb, List.take_append_drop]
      exact hread hpub⟩⟩
    obtain ⟨hrun,hlong,hval⟩ := carriedId_some hid
    -- both bytes of the identifier are received, so the memory behind does not matter
    have hmsg := htb.msgId_eq (v := v) hml hrun hlong (hout.field hlong) hanswered
    rw [if_neg (fun hh => hone hh.1 hh.2.1 hh.2.2)] at hmsg
    have hsame : be16 buffer (idOffset st) = be16 st (idOffset st) := htb.be16_eq hreach
    dsimp only at hmsg
    rw [hmsg, hsame, hval]
    exact ⟨hid,hzero⟩

/-- What one call leaves of a short packet that comes at once. -/
def receivedAtOnce (st : List UInt8) : Recv × Transport × RxState :=
  mqttMessageReceive ⟨true, st, [.chunk 0, .chunk 0, .chunk 15], [], []⟩ ⟨List.replicate 16 0, 16, 0, 0⟩

theorem receivedAtOnce_concludes {st : List UInt8} (h : (receivedAtOnce st).1 = .message) :
    Concludes ⟨true, st, [.chunk 0, .chunk 0, .chunk 15], [], []⟩ ⟨List.replicate 16 0, 16, 0, 0⟩
      .message (receivedAtOnce st).2.1 (receivedAtOnce st).2.2 :=
  .done _ _ _ _ _ (Prod.ext h rfl) (Or.inl rfl)

/-- A PUBREL with identifier 7, read by a client that speaks v5. -/
theorem replies_echo_pubrel :
    EchoesId .v5 [0x62, 0x02, 0x00, 0x07] (receivedAtOnce [0x62, 0x02, 0x00, 0x07]).2.2 := by
  have hmsg : (receivedAtOnce [0x62, 0x02, 0x00, 0x07]).1 = .message := by decide +kernel
  have hread : (receivedAtOnce [0x62, 0x02, 0x00, 0x07]).2.2.inBufferReadLen = 4 := by decide +kernel
  apply (replies_echo_iff .v5 rfl rfl (receivedAtOnce_concludes hmsg)).mpr
  intro _
  rw [hread]
  exact ⟨⟨7, by decide +kernel, by decide⟩, by decide +kernel, fun hv => absurd rfl hv⟩

/-- A QoS 1 PUBLISH with identifier 0 is acknowledged with the next one counted. -/
theorem reply_to_id_zero : ¬ ∀ v st t t' s s', s.inBufferReadLen = 0 → t.stream = st →
    Concludes t s .message t' s' → EchoesId v st s' := by
  intro h
  let st : List UInt8 := [0x32, 0x05, 0x00, 0x01, 0x61, 0x00, 0x00]
  have hmsg : (receivedAtOnce st).1 = .message := by decide +kernel
  have htopic : mqttGetPublishTopic (receivedAtOnce st).2.2.inBuffer
      (receivedAtOnce st).2.2.inBufferReadLen = some (4, 1) := by decide +kernel
  have hdata : (mqttGetPublishData (receivedAtOnce st).2.2.inBuffer
      (receivedAtOnce st).2.2.inBufferReadLen).2 = 0 := by decide +kernel
  have hread : PublishRead .v311 (receivedAtOnce st).2.2.inBuffer
      (receivedAtOnce st).2.2.inBufferReadLen := by
    unfold PublishRead
    rw [if_neg (by decide), htopic, hdata]
    exact ⟨by simp, fun hh => absurd hh.1 (by decide)⟩
  have hreply : replyBytes .v311 (receivedAtOnce st).2.2 true (Composer.counting 0) =
      [0x40, 0x02, 0x00, 0x01] := by decide +kernel
  obtain ⟨id,hid,hzero,-⟩ := h .v311 st _ _ _ _ rfl rfl (receivedAtOnce_concludes hmsg)
    _ rfl (Composer.counting 0) (Composer.counting_sound 0) true (fun _ => hread)
    (fun hnil => List.cons_ne_nil _ _ (hreply.symm.trans hnil))
  have hnone : carriedId st = some 0 := by decide +kernel
  rw [hnone] at hid
  exact hzero (Option.some.inj hid).symm

end EspMqtt
