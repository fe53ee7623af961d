import EspMqtt.CodecRoundTrip
import EspMqtt.Mqtt5Codec

/-! The packets that the calls of `mqtt5_msg.c` leave in the buffer. -/
namespace EspMqtt
open Wire Wire5

/-- A packet a v5 client is asked to compose. -/
inductive Outgoing5 where
  | connect (i : ConnectInfo) (property : ConnectionProperty) (willProperty : WillProperty)
  | publish (topic : Option (List UInt8)) (d : CData) (dataLength : ℤ) (qos retain : ℕ)
    (property : Option PublishProperty) (respInfo : Option (List UInt8))
  | subscribe (topics : List (List UInt8 × ℕ)) (property : Option SubscribeProperty)
  | unsubscribe (topic : List UInt8) (property : Option UnsubscribeProperty)
  | disconnect (property : Option DisconnectProperty)
  | puback (id : ℕ)
  | pubrec (id : ℕ)
  | pubrel (id : ℕ)
  | pubcomp (id : ℕ)

namespace Outgoing5

/-- The call that composes it, with the identifier it reports. -/
def composeIn (s : Composer) : Outgoing5 → ℕ × Composer
  | .connect i property willProperty => (0, s.mqtt5MsgConnect i property willProperty)
  | .publish topic d dataLength qos retain property respInfo =>
    s.mqtt5MsgPublish topic d dataLength qos retain property respInfo
  | .subscribe topics property => s.mqtt5MsgSubscribe topics property
  | .unsubscribe topic property => s.mqtt5MsgUnsubscribe (some topic) property
  | .disconnect property => (0, s.mqtt5MsgDisconnect property)
  | .puback id => (id, s.mqtt5MsgPuback id)
  | .pubrec id => (id, s.mqtt5MsgPubrec id)
  | .pubrel id => (id, s.mqtt5MsgPubrel id)
  | .pubcomp id => (id, s.mqtt5MsgPubcomp id)

end Outgoing5

/-- A block of properties behind its length. -/
def block (ps : List Property) : List UInt8 :=
  generateVariableLen 5 (blockBytes ps).length ++ blockBytes ps

/-- What stands in front of the payload of a PUBLISH. -/
def publishHead5 (topic : Option (List UInt8)) (qos id : ℕ) (property : Option PublishProperty)
    (respInfo : Option (List UInt8)) : List UInt8 :=
  publishHead ((given topic).getD []) qos id ++ block (PublishProperty.list property respInfo)

def subscription5 (property : Option SubscribeProperty) (t : List UInt8 × ℕ) : List UInt8 :=
  countedString (SubscribeProperty.filter property t.1) ++ [subscribeOptions property t.2]

/-- The will of a CONNECT with its properties. -/
def willBytes5 (i : ConnectInfo) (p : WillProperty) : List UInt8 :=
  match i.sentWill with
  | some w => block p.list ++ (countedString w.topic ++ countedString w.message)
  | none => []

namespace Outgoing5

/-- What stands behind the fixed header. -/
def body (id : ℕ) : Outgoing5 → List UInt8
  | .connect i property willProperty =>
    [0, 4, 0x4d, 0x51, 0x54, 0x54, 5] ++ UInt8.ofNat i.flags :: (u16 i.keepalive ++
      (block property.list ++ (countedString ((given i.clientId).getD []) ++
        (willBytes5 i willProperty ++
          (optionalBytes i.sentUsername ++ optionalBytes (given i.password))))))
  | .publish topic d dataLength qos _ property respInfo =>
    publishHead5 topic qos id property respInfo ++ d.slice 0 dataLength.toNat
  | .subscribe topics property =>
    u16 id ++ (block (SubscribeProperty.list property) ++ topics.flatMap (subscription5 property))
  | .unsubscribe topic property =>
    u16 id ++ (block (UnsubscribeProperty.list property) ++
      countedString (UnsubscribeProperty.filter property topic))
  | .disconnect property =>
    UInt8.ofNat ((property.map DisconnectProperty.disconnectReason).getD 0) ::
      block (DisconnectProperty.list property)
  | .puback id | .pubrec id | .pubrel id | .pubcomp id => u16 id ++ ([0] ++ block [])

/-- The first byte: type and flags. -/
def first : Outgoing5 → UInt8
  | .connect _ _ _ => headerByte .connect 0 0 0
  | .publish _ _ _ qos retain _ _ => headerByte .publish 0 qos retain
  | .subscribe _ _ => headerByte .subscribe 0 1 0
  | .unsubscribe _ _ => headerByte .unsubscribe 0 1 0
  | .disconnect _ => headerByte .disconnect 0 0 0
  | .puback _ => headerByte .puback 0 0 0
  | .pubrec _ => headerByte .pubrec 0 0 0
  | .pubrel _ => headerByte .pubrel 0 1 0
  | .pubcomp _ => headerByte .pubcomp 0 0 0

/-- The whole packet. -/
def bytes (id : ℕ) (q : Outgoing5) : List UInt8 :=
  q.first :: (Base128.encode 3 (q.body id).length ++ q.body id)

/-- The packet fits: into the buffer behind the five bytes kept for the fixed header, and
into a Remaining Length of four bytes. -/
def Fits (q : Outgoing5) (bufferLength id : ℕ) : Prop :=
  5+(q.body id).length ≤ bufferLength ∧ (q.body id).length < 128^4

instance (q : Outgoing5) (bufferLength id : ℕ) : Decidable (q.Fits bufferLength id) :=
  inferInstanceAs (Decidable (_ ∧ _))

/-- A PUBLISH whose header and properties fit and whose payload does not is sent in parts. -/
def Fragmented (bufferLength id : ℕ) : Outgoing5 → Prop
  | .publish topic d dataLength qos retain property respInfo =>
    5+(publishHead5 topic qos id property respInfo).length ≤ bufferLength ∧
    bufferLength <
      5+((publish topic d dataLength qos retain property respInfo).body id).length ∧
    ((publish topic d dataLength qos retain property respInfo).body id).length < 128^4
  | _ => False

/-- The beginning of a packet that does not fit the buffer. -/
def cut (q : Outgoing5) (bufferLength id : ℕ) : List UInt8 :=
  q.first :: (Base128.encode 3 (q.body id).length ++ (q.body id).take (bufferLength-5))

/-- The inputs the protocol has a packet for, and a PUBLISH whose length is an `int`. A
shared filter has at most 65531 bytes. -/
def InRange : Outgoing5 → Prop
  | .connect i property willProperty => Carried i.clientId ∧ Carried i.username ∧
      Carried i.password ∧ Carried i.willTopic ∧ i.willMessage.length < 65536 ∧
      i.willQos ≤ 2 ∧ i.keepalive < 65536 ∧ property.InRange ∧ willProperty.InRange
  | .publish topic d dataLength qos retain property respInfo =>
      ((given topic).isSome ∨ (property.map PublishProperty.topicAlias).getD 0 ≠ 0) ∧
      Carried topic ∧ 0 ≤ dataLength ∧ (d.isNull = true → dataLength = 0) ∧ qos ≤ 2 ∧
      retain ≤ 1 ∧ (∀ p, property = some p → p.InRange) ∧ given respInfo = none ∧
      5+(((publish topic d dataLength qos retain property respInfo).body 0).length : ℤ) < 2^31
  | .subscribe topics property => topics ≠ [] ∧ (∀ p, property = some p → p.InRange) ∧
      ∀ t ∈ topics, t.1 ≠ [] ∧ t.1.length < 65536 ∧ t.2 ≤ 2 ∧
        ∀ p, property = some p → p.isShareSubscribe = true → 8+p.shareName.length+t.1.length ≤ 65531
  | .unsubscribe topic property => topic ≠ [] ∧ topic.length < 65536 ∧
      ∀ p, property = some p → UserProperty.Carried p.userProperty ∧
        (p.isShareSubscribe = true → 8+p.shareName.length+topic.length ≤ 65531)
  | .disconnect property => ∀ p, property = some p → p.InRange
  | .puback id | .pubrec id | .pubrel id | .pubcomp id => 1 ≤ id ∧ id < 65536

end Outgoing5

namespace Composer

variable {s : Composer} {c : Connection} {acc : List UInt8}

/-! The end of a call. -/

/-- The two `fini_message` agree on a length that is not negative. -/
theorem mqtt5FiniMessage_eq (h : 0 ≤ s.totalLength) (type : MsgType) (dup qos retain : ℕ) :
    s.mqtt5FiniMessage type dup qos retain = s.finiMessage type dup qos retain := by
  have hcast : (s.totalLength.toNat : ℤ) = s.totalLength := Int.toNat_of_nonneg h
  have hlens : generateVariableLen 5 s.totalLength.toNat = encodedLens 5 s.totalLength := by
    rw [generateVariableLen_eq, hcast]
  unfold mqtt5FiniMessage
  dsimp only
  rw [if_neg (by omega), hlens]
  rfl

theorem Holds.mqtt5Fini (h : Holds s c acc) (hrem : 0 ≤ c.outboundMessage.remainingLength acc)
    (type : MsgType) (dup qos retain : ℕ) :
    (s.mqtt5FiniMessage type dup qos retain).connection =
      EspMqtt.finiMessage c type dup qos retain acc := by
  have htotal := h.totalLength_eq
  rw [mqtt5FiniMessage_eq (by rw [htotal]; exact hrem)]
  exact (h.fini type dup qos retain).connection

theorem remainingLength_ge (m : OutMessage) (acc : List UInt8) : -2^31 ≤ m.remainingLength acc := by
  unfold OutMessage.remainingLength
  split
  · have hge := @Int.le_bmod ((m.fragmentedMsgTotalLength : ℤ)-5) (2^32) (by decide)
    omega
  · omega

/-- A negative length is huge as a `size_t`, and has no packet. -/
theorem Holds.mqtt5Fini_data (h : Holds s c acc) (type : MsgType) (dup qos retain : ℕ) :
    let total := c.outboundMessage.remainingLength acc
    (s.mqtt5FiniMessage type dup qos retain).connection.outboundMessage.data =
      if 0 ≤ total ∧ total < 128^4 then
        headerByte type dup qos retain :: (Base128.encode 3 total.toNat ++ acc) else [] := by
  intro total
  by_cases hneg : total < 0
  · have htotal : s.totalLength = total := h.totalLength_eq
    have hge : -2^31 ≤ total := remainingLength_ge c.outboundMessage acc
    have hlens : 4 < (generateVariableLen 5 (total+2^32).toNat).length := by
      rw [generateVariableLen_eq]
      apply encodedLens_five
      omega
    unfold mqtt5FiniMessage sealMessage
    dsimp only
    rw [htotal, if_pos hneg, if_pos (by omega), if_neg (by omega)]
    rfl
  · have hcast : total = (total.toNat : ℤ) := by omega
    rw [h.mqtt5Fini (by omega), (finiMessage_announced hcast type dup qos retain).1]
    by_cases hshort : total < 128^4
    · rw [if_pos (by omega), if_pos ⟨by omega, hshort⟩]
    · rw [if_neg (by omega), if_neg fun hh => hshort hh.2]

theorem remainingLength_fresh (hc : c.outboundMessage.fragmentedMsgTotalLength = 0) :
    c.outboundMessage.remainingLength acc = (acc.length : ℤ) := by
  unfold OutMessage.remainingLength
  rw [if_neg (by simp [hc])]

theorem Gives.finish {r : Bool × Composer} (h : Gives r c acc)
    (hc : c.outboundMessage.fragmentedMsgTotalLength = 0) (type : MsgType) (qos : ℕ) :
    (mqtt5Finish r type qos).connection = finiOrFail c type qos (ifRoom c.bufferLength acc) := by
  unfold mqtt5Finish ifRoom
  rcases h with ⟨h1,h2⟩ | ⟨h1,h2,h3⟩
  · rw [if_pos h1, if_pos h2.room]
    exact h2.mqtt5Fini (by rw [remainingLength_fresh hc]; omega) type 0 qos 0
  · rw [if_neg (by simp [h1]), if_neg (by omega)]
    change EspMqtt.failMessage r.2.connection = EspMqtt.failMessage c
    rw [h2]

/-- The packet a call leaves in `outbound_message`. -/
theorem Gives.finish_data {r : Bool × Composer} (h : Gives r c acc)
    (hc : c.outboundMessage.fragmentedMsgTotalLength = 0) (type : MsgType) (qos : ℕ) :
    (mqtt5Finish r type qos).connection.outboundMessage.data =
      if 5+acc.length ≤ c.bufferLength ∧ acc.length < 128^4 then
        headerByte type 0 qos 0 :: (Base128.encode 3 acc.length ++ acc) else [] := by
  rw [h.finish hc]
  exact finiOrFail_framed hc type qos c.bufferLength acc

/-! CONNECT: the flags stand behind seven bytes, and are put together there. -/

/-- The packet with the flags `f` and what stands behind them. -/
def flagged (f : UInt8) (post : List UInt8) : List UInt8 :=
  [0, 4, 0x4d, 0x51, 0x54, 0x54, 5] ++ f :: post

theorem flagged_append (f : UInt8) (post bs : List UInt8) :
    flagged f post ++ bs = flagged f (post ++ bs) := by simp [flagged]

theorem flagged_length (f : UInt8) (post : List UInt8) : (flagged f post).length = 8+post.length := by
  simp only [flagged, List.length_append, List.length_cons, List.length_nil]
  omega

theorem Drafts.orFlagged {f : UInt8} {post : List UInt8} (h : Drafts s c (flagged f post)) (flag : UInt8) :
    Drafts (s.orFlag 12 flag) c (flagged (f ||| flag) post) := by
  have hlen : (flagged (f ||| flag) post).length = (flagged f post).length := by
    rw [flagged_length, flagged_length]
  refine ⟨h.connection, h.length.trans (by rw [hlen]), fun hroom => ?_⟩
  rw [hlen] at hroom
  exact (h.held hroom).orFlag flag

theorem Holds.orFlagged {f : UInt8} {post : List UInt8} (h : Holds s c (flagged f post)) (flag : UInt8) :
    Holds (s.orFlag 12 flag) c (flagged (f ||| flag) post) := h.orFlag flag

theorem orFlag_turns (f flag : UInt8) (post : List UInt8) :
    Turns (fun s => (true, s.orFlag 12 flag)) (flagged f post) (flagged (f ||| flag) post) := by
  intro s c h
  exact Or.inl ⟨rfl, h.orFlagged flag⟩

theorem appendFlagged_turns (f : UInt8) (text post : List UInt8) :
    Turns (appendText .none text) (flagged f post) (flagged f (post ++ countedString text)) := by
  rw [← flagged_append]
  exact appendText_turns text _

/-- A string and the flag that announces it. -/
theorem announce_turns (f flag : UInt8) (text post : List UInt8) :
    Turns (chain [appendText .none text, fun s => (true, s.orFlag 12 flag)]) (flagged f post)
      (flagged (f ||| flag) (post ++ countedString text)) :=
  turns_cons (appendFlagged_turns f text post) (by simp [flagged_length])
    (turns_single (orFlag_turns f flag _))

theorem properties_opens {steps : List (Composer → Bool × Composer)} {ps : List Property}
    (h : Extends (chain steps) (blockBytes ps)) (acc : List UInt8) :
    Opens (withProperties steps) acc (acc ++ block ps) := withProperties_opens h acc

theorem properties_turns {steps : List (Composer → Bool × Composer)} {ps : List Property}
    (h : Extends (chain steps) (blockBytes ps)) (acc : List UInt8) :
    Turns (withProperties steps) acc (acc ++ block ps) := (properties_opens h acc).turns

theorem mqtt5AppendWill_turns (i : ConnectInfo) (p : WillProperty) (f : UInt8) (post : List UInt8) :
    Turns (mqtt5AppendWill 12 i p) (flagged f post)
      (flagged (f ||| willFlags i) (post ++ willBytes5 i p)) := by
  unfold mqtt5AppendWill willFlags willBytes5 ConnectInfo.sentWill
  cases hg : given i.willTopic with
  | none =>
    intro s c h
    left
    simpa using h
  | some topic =>
    have hblock := properties_turns (willProperties_extends p) (flagged f post)
    rw [flagged_append] at hblock
    have htopic := appendFlagged_turns f topic (post ++ block p.list)
    have hmessage := appendFlagged_turns f i.willMessage (post ++ block p.list ++ countedString topic)
    simp only [Option.map_some, Option.isSome_some, if_true, ← List.append_assoc] at *
    refine turns_cons hblock (by simp [flagged_length]) ?_
    refine turns_cons htopic (by simp [flagged_length]) ?_
    refine turns_cons hmessage (by simp [flagged_length]) ?_
    refine turns_single ?_
    intro s c h
    left
    refine ⟨rfl, ?_⟩
    -- the will bit, the retain bit if it is set, the QoS
    have hwill := h.orFlagged 4
    cases i.willRetain with
    | true =>
      have hall := (hwill.orFlagged 32).orFlagged (UInt8.ofNat (i.willQos % 4*8))
      simpa only [if_true, UInt8.or_assoc] using hall
    | false =>
      have hall := hwill.orFlagged (UInt8.ofNat (i.willQos % 4*8))
      simpa [UInt8.or_assoc] using hall

theorem mqtt5AppendUsername_turns (i : ConnectInfo) (f : UInt8) (post : List UInt8) :
    Turns (mqtt5AppendUsername 12 i) (flagged f post)
      (flagged (f ||| if (given i.username).isSome then 128 else 0)
        (post ++ optionalBytes (given i.username))) := by
  unfold mqtt5AppendUsername
  cases given i.username with
  | none =>
    intro s c h
    left
    simpa [optionalBytes] using h
  | some username => exact announce_turns f 128 username post

theorem mqtt5AppendPassword_turns (i : ConnectInfo) (f : UInt8) (post : List UInt8) :
    Turns (mqtt5AppendPassword 12 i) (flagged f post)
      (flagged (f ||| (if (insertedUsername i).isSome then 128 else 0) |||
          if (given i.password).isSome then 64 else 0)
        (post ++ (optionalBytes (insertedUsername i) ++ optionalBytes (given i.password)))) := by
  unfold mqtt5AppendPassword insertedUsername
  cases hp : given i.password with
  | none =>
    intro s c h
    left
    simpa [optionalBytes] using h
  | some password =>
    dsimp only
    cases hu : given i.username with
    | some username =>
      simp only [Option.isNone_some, Bool.false_eq_true, if_false, false_and, Option.isSome_none,
        UInt8.or_zero, Option.isSome_some, if_true]
      exact announce_turns f 64 password post
    | none =>
      simp only [Option.isNone_none, if_true, Option.isSome_some, and_self, ← List.append_assoc]
      have hempty := appendNothing_turns (flagged f post)
      rw [flagged_append] at hempty
      have hboth := turns_cons hempty (by simp [flagged_length]) (turns_single (orFlag_turns f 128 _))
      refine turns_cons hboth ?_ ?_
      · simp only [flagged_length, List.length_append, optionalBytes, Option.map_some,
          Option.getD_some]
        omega
      · exact announce_turns (f ||| 128) 64 password _

/-- What stands behind the keep alive. -/
def connectSteps5 (i : ConnectInfo) (property : ConnectionProperty) (willProperty : WillProperty) :
    List (Composer → Bool × Composer) :=
  [withProperties (connectionProperties property),
    match given i.clientId with
      | some clientId => appendText .none clientId
      | none => appendProperty .none 2 none 0,
    mqtt5AppendWill 12 i willProperty, mqtt5AppendUsername 12 i, mqtt5AppendPassword 12 i]

theorem connectSteps5_opens (i : ConnectInfo) (property : ConnectionProperty)
    (willProperty : WillProperty) (f : UInt8) (post : List UInt8) :
    Opens (chain (connectSteps5 i property willProperty)) (flagged f post)
      (flagged (f ||| willFlags i ||| (if (given i.username).isSome then 128 else 0) |||
          (if (insertedUsername i).isSome then 128 else 0) |||
          if (given i.password).isSome then 64 else 0)
        (post ++ block property.list ++ countedString ((given i.clientId).getD []) ++
          willBytes5 i willProperty ++ optionalBytes (given i.username) ++
          (optionalBytes (insertedUsername i) ++ optionalBytes (given i.password)))) := by
  have hblock := properties_opens (connectionProperties_extends property) (flagged f post)
  rw [flagged_append] at hblock
  have hclient : Turns (match given i.clientId with
      | some clientId => appendText .none clientId
      | none => appendProperty .none 2 none 0) (flagged f (post ++ block property.list))
      (flagged f (post ++ block property.list ++ countedString ((given i.clientId).getD []))) := by
    cases given i.clientId with
    | some clientId => exact appendFlagged_turns f clientId _
    | none =>
      rw [← flagged_append]
      exact appendNothing_turns _
  refine opens_cons hblock (by simp [flagged_length]) ?_
  refine turns_cons hclient (by simp [flagged_length]) ?_
  refine turns_cons (mqtt5AppendWill_turns i willProperty f _) (by simp [flagged_length]) ?_
  refine turns_cons (mqtt5AppendUsername_turns i _ _) (by simp [flagged_length]) ?_
  exact turns_single (mqtt5AppendPassword_turns i _ _)

/-- The ten bytes nobody looks for room for are lost in a buffer that is too short for them, but
the properties behind them are refused. -/
theorem mqtt5MsgConnect_gives (hs : Sound s c) (i : ConnectInfo) (property : ConnectionProperty)
    (willProperty : WillProperty) :
    ∃ r, s.mqtt5MsgConnect i property willProperty = mqtt5Finish r .connect 0 ∧
      Gives r c ((Outgoing5.connect i property willProperty).body 0) := by
  have hname := hs.drafts.append [0, 4, 0x4d, 0x51, 0x54, 0x54, 5]
  have hkeep : Drafts _ c (flagged 0 (u16 i.keepalive)) := (hname.append [0]).append (u16 i.keepalive)
  have hclean : Drafts (if i.cleanSession then
      (((s.setMessageHeaderSize.append [0, 4, 0x4d, 0x51, 0x54, 0x54, 5]).append [0]).append
        (u16 i.keepalive)).orFlag 12 2
      else ((s.setMessageHeaderSize.append [0, 4, 0x4d, 0x51, 0x54, 0x54, 5]).append [0]).append
        (u16 i.keepalive)) c (flagged (if i.cleanSession then 0 ||| 2 else 0) (u16 i.keepalive)) := by
    cases i.cleanSession with
    | true => exact hkeep.orFlagged 2
    | false => exact hkeep
  have hall := connectSteps5_opens i property willProperty _ _ _ c hclean
  have hbody : flagged (UInt8.ofNat i.flags)
      (u16 i.keepalive ++ block property.list ++ countedString ((given i.clientId).getD []) ++
        willBytes5 i willProperty ++ optionalBytes (given i.username) ++
        (optionalBytes (insertedUsername i) ++ optionalBytes (given i.password))) =
      (Outgoing5.connect i property willProperty).body 0 := by
    have huser : optionalBytes (given i.username) ++ optionalBytes (insertedUsername i) =
        optionalBytes i.sentUsername := by
      unfold insertedUsername ConnectInfo.sentUsername
      cases given i.username <;> cases given i.password <;> simp [optionalBytes]
    change _ = flagged (UInt8.ofNat i.flags) _
    rw [← huser]
    simp only [List.append_assoc]
  rw [connectFlags_eq, hbody] at hall
  exact ⟨_, rfl, hall⟩

theorem mqtt5MsgConnect_data (hs : Sound s c)
    (hc : c.outboundMessage.fragmentedMsgTotalLength = 0) (i : ConnectInfo)
    (property : ConnectionProperty) (willProperty : WillProperty) :
    let body := (Outgoing5.connect i property willProperty).body 0
    (s.mqtt5MsgConnect i property willProperty).connection.outboundMessage.data =
      if 5+body.length ≤ c.bufferLength ∧ body.length < 128^4 then
        headerByte .connect 0 0 0 :: (Base128.encode 3 body.length ++ body) else [] := by
  obtain ⟨r,hr,hgives⟩ := mqtt5MsgConnect_gives hs i property willProperty
  rw [hr]
  exact hgives.finish_data hc .connect 0

/-! The calls that begin with an identifier. -/

/-- The identifier is drawn if the buffer has room for it. -/
theorem Sound.drawId (hs : Sound s c) (h7 : 7 ≤ c.bufferLength) (messageId : ℕ) :
    (s.setMessageHeaderSize.appendMessageId messageId).1 = (c.messageId messageId).1 ∧
    Holds (s.setMessageHeaderSize.appendMessageId messageId).2 (c.messageId messageId).2
      (u16 (c.messageId messageId).1) := by
  have hfirst := (hs.setMessageHeaderSize (by omega)).appendMessageId messageId
  rw [List.nil_append, u16_length] at hfirst
  rcases hfirst with ⟨-,h1,h2⟩ | ⟨hroom,-,-⟩
  · exact ⟨h1,h2⟩
  · omega

/-- A buffer without room for an identifier has none drawn. -/
theorem drawId_small (h : s.connection.bufferLength < 7) (id : ℕ) :
    (s.setMessageHeaderSize.appendMessageId id).1 = 0 := by
  unfold Composer.appendMessageId
  dsimp only
  rw [if_pos]
  rw [(messageId_frame _ id).2]
  exact h

theorem mqtt5AppendTopics_turns (property : Option SubscribeProperty) {topics : List (List UInt8 × ℕ)}
    (hne : ∀ t ∈ topics, t.1 ≠ []) (acc : List UInt8) :
    Turns (mqtt5AppendTopics property topics) acc (acc ++ topics.flatMap (subscription5 property)) := by
  induction topics generalizing acc with
  | nil =>
    intro s c h
    left
    rw [List.flatMap_nil, List.append_nil]
    exact ⟨rfl,h⟩
  | cons t ts ih =>
    obtain ⟨filter,qos⟩ := t
    have hf : filter ≠ [] := hne _ List.mem_cons_self
    have hsplit : acc ++ ((filter, qos) :: ts).flatMap (subscription5 property) =
        (acc ++ countedString (SubscribeProperty.filter property filter)) ++
          ([subscribeOptions property qos] ++ ts.flatMap (subscription5 property)) := by
      simp only [List.flatMap_cons, subscription5, List.append_assoc]
    intro s c h
    rw [mqtt5AppendTopics, if_neg hf, hsplit]
    apply (appendText_turns _ acc s c h).andThen (by simp)
    intro s c h
    have hl := h.length
    dsimp only
    rw [h.connection]
    by_cases hroom : c.bufferLength < s.length+1
    · right
      rw [if_pos hroom]
      refine ⟨rfl, h.connection, ?_⟩
      simp only [List.length_append, List.length_singleton] at hl ⊢
      omega
    · rw [if_neg hroom, ← List.append_assoc]
      apply ih fun t ht => hne t (List.mem_cons_of_mem _ ht)
      exact h.append (by rw [List.length_singleton]; omega)

theorem mqtt5MsgSubscribe_gives (hs : Sound s c) (h7 : 7 ≤ c.bufferLength)
    {topics : List (List UInt8 × ℕ)} {property : Option SubscribeProperty}
    (hp : ∀ p, property = some p → p.subscribeId < 128^4) (hne : ∀ t ∈ topics, t.1 ≠ []) :
    ∃ r, s.mqtt5MsgSubscribe topics property = ((c.messageId 0).1, mqtt5Finish r .subscribe 1) ∧
      Gives r (c.messageId 0).2 ((Outgoing5.subscribe topics property).body (c.messageId 0).1) := by
  obtain ⟨hid,hheld⟩ := hs.drawId h7 0
  have hpos := messageId_pos c 0
  have hall := turns_cons (properties_turns (subscribeProperties_extends hp) _)
    (by simp) (turns_single (mqtt5AppendTopics_turns property hne _)) _ _ hheld
  rw [List.append_assoc] at hall
  refine ⟨_, ?_, hall⟩
  unfold mqtt5MsgSubscribe
  dsimp only
  rw [hid, if_neg (by omega)]

theorem mqtt5MsgSubscribe_data (hs : Sound s c) (h7 : 7 ≤ c.bufferLength)
    (hc : c.outboundMessage.fragmentedMsgTotalLength = 0) {topics : List (List UInt8 × ℕ)}
    {property : Option SubscribeProperty} (hp : ∀ p, property = some p → p.InRange)
    (hne : ∀ t ∈ topics, t.1 ≠ []) :
    let id := (c.messageId 0).1
    let body := (Outgoing5.subscribe topics property).body id
    (s.mqtt5MsgSubscribe topics property).1 = id ∧
    (s.mqtt5MsgSubscribe topics property).2.connection.outboundMessage.data =
      if 5+body.length ≤ c.bufferLength ∧ body.length < 128^4 then
        headerByte .subscribe 0 1 0 :: (Base128.encode 3 body.length ++ body) else [] := by
  intro id body
  obtain ⟨hframe,hbl⟩ := messageId_frame c 0
  obtain ⟨r,hr,hgives⟩ := mqtt5MsgSubscribe_gives hs h7
    (fun p hpp => (hp p hpp).subscribeId.trans (by decide)) hne
  have hdata := hgives.finish_data (by rw [hframe]; exact hc) .subscribe 1
  rw [hbl] at hdata
  rw [hr]
  exact ⟨rfl,hdata⟩

theorem mqtt5MsgUnsubscribe_gives (hs : Sound s c) (h7 : 7 ≤ c.bufferLength) {topic : List UInt8}
    (hne : topic ≠ []) (property : Option UnsubscribeProperty) :
    ∃ r, s.mqtt5MsgUnsubscribe (some topic) property =
        ((c.messageId 0).1, mqtt5Finish r .unsubscribe 1) ∧
      Gives r (c.messageId 0).2 ((Outgoing5.unsubscribe topic property).body (c.messageId 0).1) := by
  obtain ⟨hid,hheld⟩ := hs.drawId h7 0
  have hpos := messageId_pos c 0
  have hblock : Extends (chain [appendUserProperty (property.bind UnsubscribeProperty.userProperty)])
      (blockBytes (UnsubscribeProperty.list property)) :=
    extends_single (appendUserProperty_block _)
  have hall := turns_cons (properties_turns hblock _)
    (by simp) (turns_single (appendText_turns (UnsubscribeProperty.filter property topic) _)) _ _ hheld
  rw [List.append_assoc] at hall
  refine ⟨_, ?_, hall⟩
  obtain ⟨b,bs,rfl⟩ := List.exists_cons_of_ne_nil hne
  unfold mqtt5MsgUnsubscribe
  dsimp only
  rw [hid, if_neg (by omega)]

theorem mqtt5MsgUnsubscribe_data (hs : Sound s c) (h7 : 7 ≤ c.bufferLength)
    (hc : c.outboundMessage.fragmentedMsgTotalLength = 0) {topic : List UInt8} (hne : topic ≠ [])
    (property : Option UnsubscribeProperty) :
    let id := (c.messageId 0).1
    let body := (Outgoing5.unsubscribe topic property).body id
    (s.mqtt5MsgUnsubscribe (some topic) property).1 = id ∧
    (s.mqtt5MsgUnsubscribe (some topic) property).2.connection.outboundMessage.data =
      if 5+body.length ≤ c.bufferLength ∧ body.length < 128^4 then
        headerByte .unsubscribe 0 1 0 :: (Base128.encode 3 body.length ++ body) else [] := by
  intro id body
  obtain ⟨hframe,hbl⟩ := messageId_frame c 0
  obtain ⟨r,hr,hgives⟩ := mqtt5MsgUnsubscribe_gives hs h7 hne property
  have hdata := hgives.finish_data (by rw [hframe]; exact hc) .unsubscribe 1
  rw [hbl] at hdata
  rw [hr]
  exact ⟨rfl,hdata⟩

theorem mqtt5AckMessage_data (hs : Sound s c) (h7 : 7 ≤ c.bufferLength)
    (hc : c.outboundMessage.fragmentedMsgTotalLength = 0) (type : MsgType) (qos : ℕ) {id : ℕ}
    (h1 : 1 ≤ id) :
    (mqtt5AckMessage type qos s id).connection.outboundMessage.data =
      if 5+(u16 id ++ ([0] ++ block [])).length ≤ c.bufferLength ∧
          (u16 id ++ ([0] ++ block [])).length < 128^4 then
        headerByte type 0 qos 0 :: (Base128.encode 3 (u16 id ++ ([0] ++ block [])).length ++
          (u16 id ++ ([0] ++ block []))) else [] := by
  have hm : c.messageId id = (id, c) := by
    unfold Connection.messageId
    rw [if_pos (by omega)]
  obtain ⟨hid,hheld⟩ := hs.drawId h7 id
  rw [hm] at hid hheld
  have hreason := hheld.drafts.append [0]
  have hnone : Extends (chain []) (blockBytes []) := extends_nothing
  have hall := properties_opens hnone _ _ _ hreason
  rw [List.append_assoc] at hall
  unfold mqtt5AckMessage
  dsimp only at hid ⊢
  rw [hid, if_neg (by omega)]
  exact hall.finish_data hc type qos

theorem mqtt5MsgDisconnect_gives (hs : Sound s c) (property : Option DisconnectProperty) :
    ∃ r, s.mqtt5MsgDisconnect property = mqtt5Finish r .disconnect 0 ∧
      Gives r c ((Outgoing5.disconnect property).body 0) := by
  have hopens : Opens (withProperties (disconnectProperties 5 property)) [0]
      ([UInt8.ofNat ((property.map DisconnectProperty.disconnectReason).getD 0)] ++
        block (DisconnectProperty.list property)) :=
    withProperties_opens' rfl fun s c b h => disconnectProperties_drafted h
  exact ⟨_, rfl, hopens _ c (hs.drafts.append [0])⟩

theorem mqtt5MsgDisconnect_data (hs : Sound s c)
    (hc : c.outboundMessage.fragmentedMsgTotalLength = 0) (property : Option DisconnectProperty) :
    let body := (Outgoing5.disconnect property).body 0
    (s.mqtt5MsgDisconnect property).connection.outboundMessage.data =
      if 5+body.length ≤ c.bufferLength ∧ body.length < 128^4 then
        headerByte .disconnect 0 0 0 :: (Base128.encode 3 body.length ++ body) else [] := by
  obtain ⟨r,hr,hgives⟩ := mqtt5MsgDisconnect_gives hs property
  rw [hr]
  exact hgives.finish_data hc .disconnect 0

/-! PUBLISH. -/

end Composer

/-- The payload behind `acc`, or as much of it as there is room for. -/
def appendPayload5 (c : Connection) (d : CData) (dataLength : ℤ) (acc : List UInt8) :
    List UInt8 × Connection :=
  let m := c.outboundMessage
  if (c.bufferLength : ℤ) < 5+acc.length+dataLength then
    (acc ++ d.slice 0 (c.bufferLength-(5+acc.length)), {c with outboundMessage :=
      {m with fragmentedMsgDataOffset := 5+acc.length
              fragmentedMsgTotalLength := (dataLength+(5+acc.length)).toNat}})
  else
    (acc ++ d.slice 0 dataLength.toNat,
      {c with outboundMessage := {m with fragmentedMsgTotalLength := 0}})

namespace Composer

variable {s : Composer} {c : Connection} {acc : List UInt8}

theorem Holds.mqtt5AppendPayload (h : Holds s c acc) {d : CData} {dataLength : ℤ}
    (hd : 0 ≤ dataLength) (hnull : d.isNull = true → dataLength = 0) :
    Holds (s.mqtt5AppendPayload d dataLength) (appendPayload5 c d dataLength acc).2
      (appendPayload5 c d dataLength acc).1 := by
  have hl := h.length
  have hroom := h.room
  unfold Composer.mqtt5AppendPayload appendPayload5
  dsimp only
  rw [h.connection, hl]
  by_cases hcut : (c.bufferLength : ℤ) < ((5+acc.length : ℕ) : ℤ)+dataLength
  · have hcut' : (c.bufferLength : ℤ) < 5+acc.length+dataLength := by omega
    rw [if_pos hcut, if_pos hcut']
    have hfill := h.append (b := d.slice 0 (c.bufferLength-(5+acc.length)))
      (by rw [CData.slice_length]; omega)
    exact ⟨⟨by push_cast; rfl, hfill.buffer, hfill.written⟩, hfill.length, hfill.room, hfill.body⟩
  · have hcut' : ¬ (c.bufferLength : ℤ) < 5+acc.length+dataLength := by omega
    rw [if_neg hcut, if_neg hcut']
    by_cases hn : d.isNull = true
    · rw [if_pos hn, hnull hn]
      have hall := h.append (b := []) (by rw [List.length_nil]; omega)
      rw [List.append_nil] at hall
      have hzero : acc ++ d.slice 0 (0 : ℤ).toNat = acc := List.append_nil acc
      dsimp only
      rw [hzero]
      exact ⟨⟨rfl, h.buffer, h.written⟩, h.length, h.room, h.body⟩
    · rw [if_neg hn]
      have hall := h.append (b := d.slice 0 dataLength.toNat)
        (by rw [CData.slice_length]; omega)
      exact ⟨⟨rfl, hall.buffer, hall.written⟩, hall.length, hall.room, hall.body⟩

/-- The identifier of a PUBLISH, if it has one. -/
theorem Holds.publishId (h : Holds s c acc) (qos : ℕ) :
    let r := if 0 < qos then s.appendMessageId 0 else (0, s)
    let id := (c.publishId qos).1
    (¬ (0 < qos ∧ r.1 = 0) ∧ r.1 = id ∧
      Holds r.2 (c.publishId qos).2 (acc ++ if 0 < qos then u16 id else [])) ∨
    ((0 < qos ∧ r.1 = 0) ∧ c.bufferLength < 5+(acc ++ if 0 < qos then u16 id else []).length) := by
  intro r id
  have hr : r = if 0 < qos then s.appendMessageId 0 else (0, s) := rfl
  have hid : id = (c.publishId qos).1 := rfl
  by_cases hq : 0 < qos
  · have hdraw : c.publishId qos = c.messageId 0 := if_pos hq
    have hpos := messageId_pos c 0
    rw [hdraw] at hid ⊢
    rw [if_pos hq] at hr ⊢
    rw [hr, hid]
    rcases h.appendMessageId 0 with ⟨-,h1,h2⟩ | ⟨hroom,h1,-⟩
    · left
      exact ⟨fun hh => by omega, h1, h2⟩
    · exact Or.inr ⟨⟨hq,h1⟩, hroom⟩
  · have hdraw : c.publishId qos = (0, c) := if_neg hq
    left
    rw [hdraw] at hid ⊢
    rw [if_neg hq] at hr ⊢
    rw [hr, hid, List.append_nil]
    exact ⟨fun hh => hq hh.1, rfl, h⟩

/-- The topic: NULL and the empty string are sent alike. -/
theorem Holds.publishTopic (h : Holds s c []) (topic : Option (List UInt8)) :
    Gives (appendProperty .none 2 topic ((given topic).getD []).length s) c
      (countedString ((given topic).getD [])) := by
  have hlen : ∀ bs, topic = some bs → bs.length = ((given topic).getD []).length := by
    rintro bs rfl
    cases bs <;> rfl
  have hsame : topic.getD [] = (given topic).getD [] := by
    cases topic with
    | none => rfl
    | some bs => cases bs <;> rfl
  have htext := appendProperty_turns .none two_ne_zero hlen [] _ c h
  rw [hsame, lengthBytes, if_neg (by decide), bigEndian_two] at htext
  exact htext

/-- `mqtt5_msg_publish` up to `fini_message`: the state in which that is called, or `none` if
the call fails before. -/
def mqtt5PublishBody (s : Composer) (topic : Option (List UInt8)) (d : CData) (dataLength : ℤ)
    (qos : ℕ) (property : Option PublishProperty) (respInfo : Option (List UInt8)) : Option Composer :=
  let s := s.setMessageHeaderSize
  if (given topic).isNone ∧ (property.map PublishProperty.topicAlias).getD 0 = 0 then none
  else
    let r := appendProperty .none 2 topic ((given topic).getD []).length s
    if r.1 = false then none
    else if d.isNull ∧ 0 < dataLength then none
    else
      let r := if 0 < qos then r.2.appendMessageId 0 else (0, r.2)
      if 0 < qos ∧ r.1 = 0 then none
      else
        let p := withProperties (publishProperties property respInfo) r.2
        if p.1 = false then none else some (p.2.mqtt5AppendPayload d dataLength)

end Composer

/-- A call of `mqtt5_msg_publish` gets as far as `fini_message`: there is a topic or an alias, the
data are there, and what stands in front of them fits the buffer. -/
structure PublishAdmitted5 (bufferLength : ℕ) (topic : Option (List UInt8)) (d : CData)
    (dataLength : ℤ) (qos : ℕ) (property : Option PublishProperty) (respInfo : Option (List UInt8)) :
    Prop where
  named : (given topic).isSome ∨ (property.map PublishProperty.topicAlias).getD 0 ≠ 0
  data : d.isNull = true → dataLength ≤ 0
  room : 5+(publishHead5 topic qos 0 property respInfo).length ≤ bufferLength

theorem publishHead5_length_eq (topic : Option (List UInt8)) (qos id id' : ℕ)
    (property : Option PublishProperty) (respInfo : Option (List UInt8)) :
    (publishHead5 topic qos id property respInfo).length =
      (publishHead5 topic qos id' property respInfo).length := by
  unfold publishHead5
  rw [List.length_append, List.length_append, publishHead_length_eq _ qos id id']

namespace Composer

/-- A buffer without room for the topic refuses it, also one shorter than the fixed header. -/
theorem Sound.publishTopic_gives (hs : Sound s c) (topic : Option (List UInt8)) :
    Gives (appendProperty .none 2 topic ((given topic).getD []).length s.setMessageHeaderSize) c
      (countedString ((given topic).getD [])) := by
  by_cases h5 : 5 ≤ c.bufferLength
  · exact (hs.setMessageHeaderSize h5).publishTopic topic
  · right
    have hsmall : s.setMessageHeaderSize.connection.bufferLength <
        s.setMessageHeaderSize.length+2+
          (if topic.isSome then ((given topic).getD []).length else 0)+
            (if PropertyType.none = PropertyType.none then ([] : List UInt8)
              else [UInt8.ofNat PropertyType.none.code]).length := by
      change s.connection.bufferLength < 5+2+_+_
      rw [hs.connection]
      omega
    unfold appendProperty
    dsimp only
    rw [if_pos hsmall]
    exact ⟨rfl, hs.connection, by omega⟩

/-- The call, seen from its `fini_message`. -/
theorem mqtt5PublishBody_cases (hs : Sound s c) {topic : Option (List UInt8)} {d : CData} {len : ℤ}
    {property : Option PublishProperty} (hd : 0 ≤ len) (qos retain : ℕ)
    (respInfo : Option (List UInt8)) :
    let r := s.mqtt5MsgPublish topic d len qos retain property respInfo
    let body := s.mqtt5PublishBody topic d len qos property respInfo
    let id := (c.publishId qos).1
    let head := publishHead5 topic qos id property respInfo
    let admitted := PublishAdmitted5 c.bufferLength topic d len qos property respInfo
    (¬ admitted ∧ body = none ∧ ∃ t : Composer, r.2 = t.failMessage) ∨
    (admitted ∧ ∃ t, body = some t ∧ r = (id, t.mqtt5FiniMessage .publish 0 qos retain) ∧
      Holds t (appendPayload5 (c.publishId qos).2 d len head).2
        (appendPayload5 (c.publishId qos).2 d len head).1) := by
  intro r body id head admitted
  have hr : r = s.mqtt5MsgPublish topic d len qos retain property respInfo := rfl
  have hb : body = s.mqtt5PublishBody topic d len qos property respInfo := rfl
  have hid : (c.publishId qos).1 = id := rfl
  obtain ⟨-,hbl⟩ := publishId_frame c qos
  have hhead : head = countedString ((given topic).getD []) ++ (if 0 < qos then u16 id else []) ++
      block (PublishProperty.list property respInfo) := by
    change publishHead _ _ _ ++ _ = _
    unfold publishHead countedString
    rfl
  have hlen : head.length = (countedString ((given topic).getD [])).length+
      (if 0 < qos then u16 id else []).length+
        (block (PublishProperty.list property respInfo)).length := by
    rw [hhead, List.length_append, List.length_append]
  have hlen0 : (publishHead5 topic qos 0 property respInfo).length = head.length :=
    publishHead5_length_eq topic qos 0 id property respInfo
  unfold mqtt5MsgPublish at hr
  unfold mqtt5PublishBody at hb
  dsimp only at hr hb
  by_cases hnone : (given topic).isNone ∧ (property.map PublishProperty.topicAlias).getD 0 = 0
  · left
    rw [if_pos hnone] at hr hb
    refine ⟨fun h => ?_, hb, _, by rw [hr]⟩
    rcases h.named with h1 | h1
    · rw [Option.isNone_iff_eq_none.mp hnone.1] at h1
      exact absurd h1 Bool.noConfusion
    · exact h1 hnone.2
  rw [if_neg hnone] at hr hb
  have htopic : (given topic).isSome ∨ (property.map PublishProperty.topicAlias).getD 0 ≠ 0 := by
    by_contra hno
    rw [not_or, not_not] at hno
    exact hnone ⟨by simpa using hno.1, hno.2⟩
  rcases hs.publishTopic_gives topic with ⟨h1,h2⟩ | ⟨h1,-,h3⟩
  swap
  · left
    rw [if_pos h1] at hr hb
    refine ⟨fun h => ?_, hb, _, by rw [hr]⟩
    have hroom := h.room
    omega
  rw [h1, if_neg (by decide)] at hr hb
  by_cases hdata : d.isNull = true ∧ 0 < len
  · left
    rw [if_pos hdata] at hr hb
    refine ⟨fun h => ?_, hb, _, by rw [hr]⟩
    have hle := h.data hdata.1
    omega
  rw [if_neg hdata] at hr hb
  have hnull : d.isNull = true → len ≤ 0 := fun hn => not_lt.mp fun hpos => hdata ⟨hn,hpos⟩
  rcases h2.publishId qos with ⟨e1,e2,e3⟩ | ⟨e1,e2⟩
  swap
  · left
    rw [if_pos e1] at hr hb
    refine ⟨fun h => ?_, hb, _, by rw [hr]⟩
    have hroom := h.room
    rw [List.length_append, hid] at e2
    omega
  rw [if_neg e1, e2] at hr
  rw [if_neg e1] at hb
  have hblock := properties_turns (publishProperties_extends property respInfo) _ _ _ e3
  rw [hid, ← hhead] at hblock
  rcases hblock with ⟨g1,g2⟩ | ⟨g1,-,g3⟩
  · right
    rw [g1, if_neg (by decide)] at hr hb
    have hroom := g2.room
    rw [hbl] at hroom
    refine ⟨⟨htopic, hnull, by omega⟩, _, hb, by rw [hr], g2.mqtt5AppendPayload hd ?_⟩
    intro hn
    have hle := hnull hn
    omega
  · left
    rw [if_pos g1] at hr hb
    rw [hbl] at g3
    refine ⟨fun h => ?_, hb, _, by rw [hr]⟩
    have hroom := h.room
    omega

/-- A PUBLISH that can be composed: nothing if header and properties do not fit. -/
theorem mqtt5MsgPublish_cases (hs : Sound s c)
    {topic : Option (List UInt8)} {d : CData} {len : ℤ} {property : Option PublishProperty}
    (htopic : (given topic).isSome ∨ (property.map PublishProperty.topicAlias).getD 0 ≠ 0)
    (hd : 0 ≤ len) (hnull : d.isNull = true → len = 0) (qos retain : ℕ)
    (respInfo : Option (List UInt8)) :
    let r := s.mqtt5MsgPublish topic d len qos retain property respInfo
    let id := (c.publishId qos).1
    let head := publishHead5 topic qos id property respInfo
    (c.bufferLength < 5+head.length ∧ r.2.connection.outboundMessage.data = []) ∨
    (5+head.length ≤ c.bufferLength ∧ r.1 = id ∧
      ∃ s', Holds s' (appendPayload5 (c.publishId qos).2 d len head).2
          (appendPayload5 (c.publishId qos).2 d len head).1 ∧
        r.2 = s'.mqtt5FiniMessage .publish 0 qos retain) := by
  intro r id head
  have hlen : (publishHead5 topic qos 0 property respInfo).length = head.length :=
    publishHead5_length_eq topic qos 0 id property respInfo
  rcases mqtt5PublishBody_cases hs hd qos retain respInfo with ⟨hno,-,t,ht⟩ | ⟨hyes,t,-,ht,hheld⟩
  · left
    refine ⟨?_, by rw [ht]; rfl⟩
    by_contra hroom
    exact hno ⟨htopic, fun hn => (hnull hn).le, by omega⟩
  · right
    have hroom := hyes.room
    exact ⟨by omega, congrArg Prod.fst ht, t, hheld, congrArg Prod.snd ht⟩

end Composer

end EspMqtt
