import EspMqtt.LengthLimit

/-! The fields of two bytes: what the encoders do with a string of more than 65535 bytes and
with a keep alive of more than 65535 seconds. -/
namespace EspMqtt
open Wire (u16 u16_length)

/-! What a call is given. -/

def ConnectInfo.strings (i : ConnectInfo) : List (List UInt8) :=
  i.clientId.toList ++ (i.willTopic.toList ++ (i.willMessage :: (i.username.toList ++ i.password.toList)))

/-- The strings that a call of `mqtt_msg.c` is given. -/
def Outgoing.strings : Outgoing → List (List UInt8)
  | .connect i => i.strings
  | .publish topic _ _ _ _ => [topic]
  | .subscribe topics => topics.map Prod.fst
  | .unsubscribe topic => [topic]
  | .puback _ | .pubrec _ | .pubrel _ | .pubcomp _ | .pingreq | .disconnect => []

def Outgoing.keepalive : Outgoing → ℕ
  | .connect i => i.keepalive
  | _ => 0

/-- Keys and values. -/
def UserProperty.strings (l : UserProperty) : List (List UInt8) :=
  (l.getD []).flatMap fun p => [p.1, p.2]

def WillProperty.strings (p : WillProperty) : List (List UInt8) :=
  p.contentType.toList ++ (p.responseTopic.toList ++ (p.correlationData.toList ++
    UserProperty.strings p.userProperty))

def PublishProperty.strings (p : PublishProperty) : List (List UInt8) :=
  p.responseTopic.toList ++ (p.correlationData.toList ++ (p.contentType.toList ++
    UserProperty.strings p.userProperty))

/-- The strings that a call of `mqtt5_msg.c` is given. -/
def Outgoing5.strings : Outgoing5 → List (List UInt8)
  | .connect i property willProperty =>
    i.strings ++ (UserProperty.strings property.userProperty ++ willProperty.strings)
  | .publish topic _ _ _ _ property respInfo =>
    topic.toList ++ (property.toList.flatMap PublishProperty.strings ++ respInfo.toList)
  | .subscribe topics property => topics.map Prod.fst ++
    property.toList.flatMap fun p => p.shareName :: UserProperty.strings p.userProperty
  | .unsubscribe topic property =>
    topic :: property.toList.flatMap fun p => p.shareName :: UserProperty.strings p.userProperty
  | .disconnect property => property.toList.flatMap fun p => UserProperty.strings p.userProperty
  | .puback _ | .pubrec _ | .pubrel _ | .pubcomp _ => []

def Outgoing5.keepalive : Outgoing5 → ℕ
  | .connect i _ _ => i.keepalive
  | _ => 0

/-- There is a string or a keep alive that two bytes do not hold. -/
def OutOfRange (strings : List (List UInt8)) (keepalive : ℕ) : Prop :=
  (∃ t ∈ strings, 65535 < t.length) ∨ 65535 < keepalive

/-! When a packet is composed. -/

/-- Nothing but its size keeps a call from composing its packet. -/
def Outgoing.Accepted : Outgoing → Prop
  | .publish topic d dataLength _ _ => topic ≠ [] ∧ (d.isNull = true → dataLength ≤ 0)
  | .subscribe topics => ∀ t ∈ topics, t.1 ≠ []
  | .unsubscribe topic => topic ≠ []
  | _ => True

/-- What has to fit the buffer: all of the body, every string with all of its bytes. Of a
PUBLISH it is only what stands in front of the payload. -/
def Outgoing.required : Outgoing → ℕ
  | .publish topic _ _ qos _ => (publishHead topic qos 0).length
  | q => (q.body 0).length

/-- The call announces what an earlier message has left over. -/
def Outgoing.keeps : Outgoing → Bool
  | .publish _ d _ _ _ => d.isNull
  | _ => true

/-- The packet can be composed. The length of a string is of no interest. -/
structure Outgoing.Encodable (q : Outgoing) (c : Connection) : Prop where
  accepted : q.Accepted
  room : 5+q.required ≤ c.bufferLength
  length : c.outboundMessage.announced q.keeps (q.body 0).length < 128^4

def Outgoing5.Accepted : Outgoing5 → Prop
  | .publish topic d dataLength _ _ property _ =>
    ((given topic).isSome ∨ (property.map PublishProperty.topicAlias).getD 0 ≠ 0) ∧
      (d.isNull = true → dataLength ≤ 0)
  | .subscribe topics _ => ∀ t ∈ topics, t.1 ≠ []
  | .unsubscribe topic _ => topic ≠ []
  | _ => True

def Outgoing5.required : Outgoing5 → ℕ
  | .publish topic _ _ qos _ property respInfo => (publishHead5 topic qos 0 property respInfo).length
  | q => (q.body 0).length

def Outgoing5.keeps : Outgoing5 → Bool
  | .publish _ _ _ _ _ _ _ => false
  | _ => true

structure Outgoing5.Encodable (q : Outgoing5) (c : Connection) : Prop where
  accepted : q.Accepted
  room : 5+q.required ≤ c.bufferLength
  nonneg : 0 ≤ c.outboundMessage.announced q.keeps (q.body 0).length
  length : c.outboundMessage.announced q.keeps (q.body 0).length < 128^4

/-- The values of the arguments in their C types: a length is a non-negative `int`, a subscription
identifier a `uint16_t`. -/
def Outgoing.Typed : Outgoing → Prop
  | .publish _ _ dataLength _ _ => 0 ≤ dataLength ∧ dataLength < 2^31
  | _ => True

def Outgoing5.Typed : Outgoing5 → Prop
  | .publish _ _ dataLength _ _ _ _ => 0 ≤ dataLength ∧ dataLength < 2^31
  | .subscribe _ property => ∀ p, property = some p → p.subscribeId < 65536
  | _ => True

/-! The ends of the calls. -/

/-- A body that fits is refused only if too much is announced. -/
theorem finiOrFail_refuses_iff (c : Connection) (type : MsgType) (qos n : ℕ) (body : List UInt8) :
    (finiOrFail c type qos (ifRoom n body)).outboundMessage.data = [] ↔
      ¬ (5+body.length ≤ n ∧ c.outboundMessage.remainingLength body < 128^4) := by
  unfold ifRoom
  by_cases hroom : 5+body.length ≤ n
  · have hfour := encodedLens_le_four_iff (c.outboundMessage.remainingLength body)
    rw [if_pos hroom]
    change (finiMessage c type 0 qos 0 body).outboundMessage.data = [] ↔ _
    unfold finiMessage
    dsimp only
    by_cases hshort : c.outboundMessage.remainingLength body < 128^4
    · have hle := hfour.mpr hshort
      rw [if_neg (by omega)]
      exact iff_of_false (List.cons_ne_nil _ _) (not_not_intro ⟨hroom,hshort⟩)
    · rw [if_pos (by by_contra hno; exact hshort (hfour.mp (by omega)))]
      exact iff_of_true rfl fun hh => hshort hh.2
  · rw [if_neg hroom]
    exact iff_of_true rfl fun hh => hroom hh.1

namespace Composer

variable {s : Composer} {c : Connection} {acc : List UInt8}

theorem Gives.finish_refuses_iff {r : Bool × Composer} (h : Gives r c acc) (type : MsgType) (qos : ℕ) :
    (mqtt5Finish r type qos).connection.outboundMessage.data = [] ↔
      ¬ (5+acc.length ≤ c.bufferLength ∧ 0 ≤ c.outboundMessage.remainingLength acc ∧
        c.outboundMessage.remainingLength acc < 128^4) := by
  unfold mqtt5Finish
  rcases h with ⟨h1,h2⟩ | ⟨h1,-,h3⟩
  · rw [if_pos h1, h2.mqtt5Fini_data]
    by_cases hok : 0 ≤ c.outboundMessage.remainingLength acc ∧
        c.outboundMessage.remainingLength acc < 128^4
    · rw [if_pos hok]
      exact iff_of_false (List.cons_ne_nil _ _) (not_not_intro ⟨h2.room,hok⟩)
    · rw [if_neg hok]
      exact iff_of_true rfl fun hh => hok hh.2
  · rw [if_neg (by simp [h1])]
    exact iff_of_true rfl fun hh => by omega

theorem andThen_failed {r : Bool × Composer} {f : Composer → Bool × Composer}
    (h : ∀ s, (f s).1 = false) : (andThen r f).1 = false := by
  unfold andThen
  split
  · exact h _
  · rename_i hr
    simpa using hr

/-- An empty filter ends the loop. -/
theorem appendTopics_empty {topics : List (List UInt8 × ℕ)} (h : ∃ t ∈ topics, t.1 = []) (s : Composer) :
    (appendTopics topics s).1 = false := by
  induction topics generalizing s with
  | nil => exact absurd h (by simp)
  | cons t ts ih =>
    obtain ⟨filter,qos⟩ := t
    rw [appendTopics]
    by_cases hf : filter = []
    · rw [if_pos hf]
    rw [if_neg hf]
    have hrest : ∃ t ∈ ts, t.1 = [] := by simpa [hf] using h
    apply andThen_failed
    intro s
    split
    · rfl
    · exact ih hrest _

theorem mqtt5AppendTopics_empty (property : Option SubscribeProperty) {topics : List (List UInt8 × ℕ)}
    (h : ∃ t ∈ topics, t.1 = []) (s : Composer) : (mqtt5AppendTopics property topics s).1 = false := by
  induction topics generalizing s with
  | nil => exact absurd h (by simp)
  | cons t ts ih =>
    obtain ⟨filter,qos⟩ := t
    rw [mqtt5AppendTopics]
    by_cases hf : filter = []
    · rw [if_pos hf]
    rw [if_neg hf]
    have hrest : ∃ t ∈ ts, t.1 = [] := by simpa [hf] using h
    apply andThen_failed
    intro s
    split
    · rfl
    · exact ih hrest _

end Composer

/-! Each call with strings. -/

section Calls

open Composer

variable {s : Composer}

theorem announced_body (m : OutMessage) (q : Outgoing) (id : ℕ) (hq : q.keeps = true)
    (hshort : (q.body id).length < 2^31) :
    m.remainingLength (q.body id) = m.announced q.keeps (q.body 0).length := by
  rw [remainingLength_announced m hshort, hq, body_length_eq q id 0]

theorem announced_body5 (m : OutMessage) (q : Outgoing5) (id : ℕ) (hq : q.keeps = true)
    (hshort : (q.body id).length < 2^31) :
    m.remainingLength (q.body id) = m.announced q.keeps (q.body 0).length := by
  rw [remainingLength_announced m hshort, hq, body5_length_eq q id 0]

/-- A call that composes its body if there is room for it, and then announces it. -/
theorem Outgoing.encodable_iff {q : Outgoing} {c : Connection} (hbuf : c.bufferLength < 2^31)
    (haccepted : q.Accepted) (hrequired : q.required = (q.body 0).length) (hkeeps : q.keeps = true)
    (id : ℕ) :
    5+(q.body id).length ≤ c.bufferLength ∧ c.outboundMessage.remainingLength (q.body id) < 128^4 ↔
      q.Encodable c := by
  have hlen := body_length_eq q id 0
  constructor
  · rintro ⟨hroom,hshort⟩
    rw [announced_body _ q id hkeeps (by omega)] at hshort
    exact ⟨haccepted, by omega, hshort⟩
  · intro h
    have hroom := h.room
    have hshort := h.length
    rw [← announced_body _ q id hkeeps (by omega)] at hshort
    exact ⟨by omega, hshort⟩

theorem Outgoing5.encodable_iff {q : Outgoing5} {c : Connection} (hbuf : c.bufferLength < 2^31)
    (haccepted : q.Accepted) (hrequired : q.required = (q.body 0).length) (hkeeps : q.keeps = true)
    (id : ℕ) :
    5+(q.body id).length ≤ c.bufferLength ∧ 0 ≤ c.outboundMessage.remainingLength (q.body id) ∧
      c.outboundMessage.remainingLength (q.body id) < 128^4 ↔ q.Encodable c := by
  have hlen := body5_length_eq q id 0
  constructor
  · rintro ⟨hroom,hnonneg,hshort⟩
    rw [announced_body5 _ q id hkeeps (by omega)] at hnonneg hshort
    exact ⟨haccepted, by omega, hnonneg, hshort⟩
  · intro h
    have hroom := h.room
    have hnonneg := h.nonneg
    have hshort := h.length
    rw [← announced_body5 _ q id hkeeps (by omega)] at hnonneg hshort
    exact ⟨by omega, hnonneg, hshort⟩

/-- A packet with an identifier does not fit a buffer with no room for it. -/
theorem Outgoing.not_encodable {q : Outgoing} {c : Connection} (hid : 2 ≤ q.required)
    (h7 : c.bufferLength < 7) : ¬ q.Encodable c := by
  intro h
  have hroom := h.room
  omega

theorem Outgoing5.not_encodable {q : Outgoing5} {c : Connection} (hid : 2 ≤ q.required)
    (h7 : c.bufferLength < 7) : ¬ q.Encodable c := by
  intro h
  have hroom := h.room
  omega

theorem connect_refused_iff (hs : s.Sound s.connection) (hbuf : s.connection.bufferLength < 2^31)
    (i : ConnectInfo) :
    (s.mqttMsgConnect i).connection.outboundMessage.data = [] ↔
      ¬ (Outgoing.connect i).Encodable s.connection := by
  by_cases h5 : 5 ≤ s.connection.bufferLength
  · rw [(mqttMsgConnect_sound hs h5 i).connection, mqttMsgConnect_eq s.connection i 0,
      finiOrFail_refuses_iff]
    exact not_congr (Outgoing.encodable_iff (q := .connect i) hbuf trivial rfl rfl _)
  · have hsmall : s.setMessageHeaderSize.connection.bufferLength <
        s.setMessageHeaderSize.length+(if i.protocolVer = .v31 then 12 else 10) := by
      change s.connection.bufferLength < 5+_
      omega
    unfold Composer.mqttMsgConnect
    dsimp only
    rw [if_pos hsmall]
    refine iff_of_true rfl fun h => ?_
    have hroom := h.room
    omega

theorem subscribe_refused_iff (hs : s.Sound s.connection) (hbuf : s.connection.bufferLength < 2^31)
    (topics : List (List UInt8 × ℕ)) :
    (s.mqttMsgSubscribe topics).2.connection.outboundMessage.data = [] ↔
      ¬ (Outgoing.subscribe topics).Encodable s.connection := by
  obtain ⟨hframe,hbl⟩ := messageId_frame s.connection 0
  -- an empty filter is refused by the call itself, not by `fini_message`
  by_cases hne : ∀ t ∈ topics, t.1 ≠ []
  swap
  · push Not at hne
    have hfailed := appendTopics_empty hne
    refine iff_of_true ?_ fun h => ?_
    · unfold Composer.mqttMsgSubscribe
      dsimp only
      split
      · rfl
      · unfold finish
        rw [if_neg (by simp [hfailed])]
        rfl
    · obtain ⟨t,ht,he⟩ := hne
      exact h.accepted t ht he
  by_cases h7 : s.connection.bufferLength < 7
  · have hid : 2 ≤ (Outgoing.subscribe topics).required := by
      change 2 ≤ ((Outgoing.subscribe topics).body 0).length
      simp only [Outgoing.body, List.length_append, u16_length]
      omega
    refine iff_of_true ?_ (Outgoing.not_encodable hid h7)
    unfold Composer.mqttMsgSubscribe
    dsimp only
    rw [drawId_small h7, if_pos rfl]
    rfl
  · rw [(mqttMsgSubscribe_sound hs (by omega) hne).2.connection, mqttMsgSubscribe_eq _ hne,
      finiOrFail_refuses_iff, hframe]
    exact not_congr (Outgoing.encodable_iff (q := .subscribe topics) hbuf hne rfl rfl _)

theorem unsubscribe_refused_iff (hs : s.Sound s.connection) (hbuf : s.connection.bufferLength < 2^31)
    (topic : List UInt8) :
    (s.mqttMsgUnsubscribe (some topic)).2.connection.outboundMessage.data = [] ↔
      ¬ (Outgoing.unsubscribe topic).Encodable s.connection := by
  obtain ⟨hframe,hbl⟩ := messageId_frame s.connection 0
  by_cases hne : topic = []
  · subst hne
    exact iff_of_true rfl fun h => h.accepted rfl
  by_cases h7 : s.connection.bufferLength < 7
  · have hid : 2 ≤ (Outgoing.unsubscribe topic).required := by
      change 2 ≤ ((Outgoing.unsubscribe topic).body 0).length
      simp only [Outgoing.body, List.length_append, u16_length]
      omega
    refine iff_of_true ?_ (Outgoing.not_encodable hid h7)
    obtain ⟨b,bs,rfl⟩ := List.exists_cons_of_ne_nil hne
    unfold Composer.mqttMsgUnsubscribe
    dsimp only
    rw [drawId_small h7, if_pos rfl]
    rfl
  · rw [(mqttMsgUnsubscribe_sound hs (by omega) hne).2.connection, mqttMsgUnsubscribe_eq _ hne,
      finiOrFail_refuses_iff, hframe]
    exact not_congr (Outgoing.encodable_iff (q := .unsubscribe topic) hbuf hne rfl rfl _)

theorem publish_refused_iff (hs : s.Sound s.connection) (hbuf : s.connection.bufferLength < 2^31)
    (topic : List UInt8) (d : CData) {len : ℤ} (hd : 0 ≤ len) (qos retain : ℕ) :
    (s.mqttMsgPublish (some topic) d len qos retain).2.connection.outboundMessage.data = [] ↔
      ¬ (Outgoing.publish topic d len qos retain).Encodable s.connection := by
  have hgiven : (given (some topic)).isSome ↔ topic ≠ [] := by simp [given]
  have hname : (given (some topic)).getD [] = topic := by cases topic <;> rfl
  rcases mqttPublishBody_cases hs hd qos retain with ⟨hno,-,t,ht⟩ | ⟨hyes,t,-,ht,hheld⟩
  · rw [ht]
    refine iff_of_true rfl fun h => hno ⟨hgiven.mpr h.accepted.1, h.accepted.2, ?_⟩
    rw [hname]
    exact h.room
  obtain ⟨hframe,hbl⟩ := publishId_frame s.connection qos
  have hroom := hyes.room
  rw [hname] at hheld hroom
  have hlen := publishHead_length_eq topic qos (s.connection.publishId qos).1 0
  have hbody := publish_body_length topic d len qos retain 0
  have hann := appendPayload_announced (s.connection.publishId qos).2 d
    (publishHead topic qos (s.connection.publishId qos).1) hd hyes.data
    (Or.inr ⟨by rw [hbl, hlen]; exact hroom, by rw [hbl]; exact hbuf⟩)
  dsimp only at hann
  rw [hframe] at hann
  have hsize : ((publishHead topic qos (s.connection.publishId qos).1).length : ℤ)+len =
      (((Outgoing.publish topic d len qos retain).body 0).length : ℤ) := by omega
  rw [ht, hheld.fini_refuses_iff .publish 0 qos retain]
  unfold encodedLensStored
  rw [hheld.totalLength_eq, ← not_le, encodedLens_le_four_iff, hann, hsize]
  refine not_congr ⟨fun h => ?_, fun h => h.length⟩
  exact ⟨⟨hgiven.mp hyes.named, hyes.data⟩, hroom, h⟩

theorem connect5_refused_iff (hs : s.Sound s.connection) (hbuf : s.connection.bufferLength < 2^31)
    (i : ConnectInfo) (property : ConnectionProperty) (willProperty : WillProperty) :
    (s.mqtt5MsgConnect i property willProperty).connection.outboundMessage.data = [] ↔
      ¬ (Outgoing5.connect i property willProperty).Encodable s.connection := by
  obtain ⟨r,hr,hgives⟩ := mqtt5MsgConnect_gives hs i property willProperty
  rw [hr, hgives.finish_refuses_iff]
  exact not_congr (Outgoing5.encodable_iff (q := .connect i property willProperty) hbuf trivial rfl rfl _)

theorem disconnect5_refused_iff (hs : s.Sound s.connection) (hbuf : s.connection.bufferLength < 2^31)
    (property : Option DisconnectProperty) :
    (s.mqtt5MsgDisconnect property).connection.outboundMessage.data = [] ↔
      ¬ (Outgoing5.disconnect property).Encodable s.connection := by
  obtain ⟨r,hr,hgives⟩ := mqtt5MsgDisconnect_gives hs property
  rw [hr, hgives.finish_refuses_iff]
  exact not_congr (Outgoing5.encodable_iff (q := .disconnect property) hbuf trivial rfl rfl _)

theorem subscribe5_refused_iff (hs : s.Sound s.connection) (hbuf : s.connection.bufferLength < 2^31)
    (topics : List (List UInt8 × ℕ)) (property : Option SubscribeProperty)
    (hp : ∀ p, property = some p → p.subscribeId < 65536) :
    (s.mqtt5MsgSubscribe topics property).2.connection.outboundMessage.data = [] ↔
      ¬ (Outgoing5.subscribe topics property).Encodable s.connection := by
  obtain ⟨hframe,hbl⟩ := messageId_frame s.connection 0
  by_cases hne : ∀ t ∈ topics, t.1 ≠ []
  swap
  · push Not at hne
    have hfailed := mqtt5AppendTopics_empty property hne
    refine iff_of_true ?_ fun h => ?_
    · have hchain (t : Composer) : (chain [withProperties (subscribeProperties property),
          mqtt5AppendTopics property topics] t).1 = false := by
        rw [chain_cons]
        exact andThen_failed hfailed
      unfold Composer.mqtt5MsgSubscribe
      dsimp only
      split
      · rfl
      · unfold mqtt5Finish
        rw [if_neg (by simp [hchain])]
        rfl
    · obtain ⟨t,ht,he⟩ := hne
      exact h.accepted t ht he
  by_cases h7 : s.connection.bufferLength < 7
  · have hid : 2 ≤ (Outgoing5.subscribe topics property).required := by
      change 2 ≤ ((Outgoing5.subscribe topics property).body 0).length
      simp only [Outgoing5.body, List.length_append, u16_length]
      omega
    refine iff_of_true ?_ (Outgoing5.not_encodable hid h7)
    unfold Composer.mqtt5MsgSubscribe
    dsimp only
    rw [drawId_small h7, if_pos rfl]
    rfl
  · obtain ⟨r,hr,hgives⟩ := mqtt5MsgSubscribe_gives hs (by omega)
      (fun p hpp => (hp p hpp).trans (by decide)) hne
    rw [hr, hgives.finish_refuses_iff, hframe, hbl]
    exact not_congr (Outgoing5.encodable_iff (q := .subscribe topics property) hbuf hne rfl rfl _)

theorem unsubscribe5_refused_iff (hs : s.Sound s.connection) (hbuf : s.connection.bufferLength < 2^31)
    (topic : List UInt8) (property : Option UnsubscribeProperty) :
    (s.mqtt5MsgUnsubscribe (some topic) property).2.connection.outboundMessage.data = [] ↔
      ¬ (Outgoing5.unsubscribe topic property).Encodable s.connection := by
  obtain ⟨hframe,hbl⟩ := messageId_frame s.connection 0
  by_cases hne : topic = []
  · subst hne
    exact iff_of_true rfl fun h => h.accepted rfl
  by_cases h7 : s.connection.bufferLength < 7
  · have hid : 2 ≤ (Outgoing5.unsubscribe topic property).required := by
      change 2 ≤ ((Outgoing5.unsubscribe topic property).body 0).length
      simp only [Outgoing5.body, List.length_append, u16_length]
      omega
    refine iff_of_true ?_ (Outgoing5.not_encodable hid h7)
    obtain ⟨b,bs,rfl⟩ := List.exists_cons_of_ne_nil hne
    unfold Composer.mqtt5MsgUnsubscribe
    dsimp only
    rw [drawId_small h7, if_pos rfl]
    rfl
  · obtain ⟨r,hr,hgives⟩ := mqtt5MsgUnsubscribe_gives hs (by omega) hne property
    rw [hr, hgives.finish_refuses_iff, hframe, hbl]
    exact not_congr (Outgoing5.encodable_iff (q := .unsubscribe topic property) hbuf hne rfl rfl _)

theorem publish5_refused_iff (hs : s.Sound s.connection) (hbuf : s.connection.bufferLength < 2^31)
    (topic : Option (List UInt8)) (d : CData) {len : ℤ} (hd : 0 ≤ len) (qos retain : ℕ)
    (property : Option PublishProperty) (respInfo : Option (List UInt8)) :
    (s.mqtt5MsgPublish topic d len qos retain property respInfo).2.connection.outboundMessage.data = [] ↔
      ¬ (Outgoing5.publish topic d len qos retain property respInfo).Encodable s.connection := by
  rcases mqtt5PublishBody_cases hs hd qos retain respInfo with ⟨hno,-,t,ht⟩ | ⟨hyes,t,-,ht,hheld⟩
  · rw [ht]
    exact iff_of_true rfl fun h => hno ⟨h.accepted.1, h.accepted.2, h.room⟩
  obtain ⟨hframe,hbl⟩ := publishId_frame s.connection qos
  have hlen := publishHead5_length_eq topic qos (s.connection.publishId qos).1 0 property respInfo
  have hbody := publish_body5_length topic d len qos retain 0 property respInfo
  have hann := appendPayload5_announced (s.connection.publishId qos).2 d
    (publishHead5 topic qos (s.connection.publishId qos).1 property respInfo) hd
    (Or.inr (by rw [hbl]; exact hbuf))
  dsimp only at hann
  rw [hframe] at hann
  have hsize : ((publishHead5 topic qos (s.connection.publishId qos).1 property respInfo).length : ℤ)+len =
      (((Outgoing5.publish topic d len qos retain property respInfo).body 0).length : ℤ) := by omega
  rw [ht, hheld.mqtt5Fini_refuses_iff .publish 0 qos retain, ← not_le, hheld.mqtt5Stored_le_four_iff,
    hann, hsize]
  refine not_congr ⟨fun h => ?_, fun h => ⟨h.nonneg, h.length⟩⟩
  exact ⟨⟨hyes.named, hyes.data⟩, hyes.room, h.1, h.2⟩

end Calls

/-! All calls. -/

/-- The answer to a field that two bytes do not hold: it is refused if and only if the packet
cannot be composed anyway, with all the bytes of every string. -/
theorem out_of_range_refused_iff (s : Composer) (hs : s.Sound s.connection)
    (hbuf : s.connection.bufferLength < 2^31) :
    (∀ q : Outgoing, q.Typed →
      ((OutOfRange q.strings q.keepalive → (q.composeIn s).2.connection.outboundMessage.data = []) ↔
        (OutOfRange q.strings q.keepalive → ¬ q.Encodable s.connection))) ∧
    (∀ q : Outgoing5, q.Typed →
      ((OutOfRange q.strings q.keepalive → (q.composeIn s).2.connection.outboundMessage.data = []) ↔
        (OutOfRange q.strings q.keepalive → ¬ q.Encodable s.connection))) := by
  -- an acknowledgement has no such field
  have hnothing {P Q : Prop} : (OutOfRange [] 0 → P) ↔ (OutOfRange [] 0 → Q) := by
    have hno : ¬ OutOfRange [] 0 := by simp [OutOfRange]
    exact iff_of_true (fun h => absurd h hno) (fun h => absurd h hno)
  constructor
  · intro q hq
    cases q with
    | connect i => exact imp_congr_right fun _ => connect_refused_iff hs hbuf i
    | publish topic d len qos retain =>
      exact imp_congr_right fun _ => publish_refused_iff hs hbuf topic d hq.1 qos retain
    | subscribe topics => exact imp_congr_right fun _ => subscribe_refused_iff hs hbuf topics
    | unsubscribe topic => exact imp_congr_right fun _ => unsubscribe_refused_iff hs hbuf topic
    | puback id => exact hnothing
    | pubrec id => exact hnothing
    | pubrel id => exact hnothing
    | pubcomp id => exact hnothing
    | pingreq => exact hnothing
    | disconnect => exact hnothing
  · intro q hq
    cases q with
    | connect i property willProperty =>
      exact imp_congr_right fun _ => connect5_refused_iff hs hbuf i property willProperty
    | publish topic d len qos retain property respInfo =>
      exact imp_congr_right fun _ =>
        publish5_refused_iff hs hbuf topic d hq.1 qos retain property respInfo
    | subscribe topics property =>
      exact imp_congr_right fun _ => subscribe5_refused_iff hs hbuf topics property hq
    | unsubscribe topic property =>
      exact imp_congr_right fun _ => unsubscribe5_refused_iff hs hbuf topic property
    | disconnect property => exact imp_congr_right fun _ => disconnect5_refused_iff hs hbuf property
    | puback id => exact hnothing
    | pubrec id => exact hnothing
    | pubrel id => exact hnothing
    | pubcomp id => exact hnothing

/-- A filter of 65536 bytes does not fit a buffer of 64. -/
theorem out_of_range_refused_long :
    ((freshComposer 64).mqttMsgUnsubscribe
      (some (List.replicate 65536 0x74))).2.connection.outboundMessage.data = [] ∧
    ((freshComposer 64).mqtt5MsgUnsubscribe
      (some (List.replicate 65536 0x74)) none).2.connection.outboundMessage.data = [] := by
  have hany (filter : List UInt8) (hlen : filter.length = 65536) :
      ((freshComposer 64).mqttMsgUnsubscribe (some filter)).2.connection.outboundMessage.data = [] ∧
      ((freshComposer 64).mqtt5MsgUnsubscribe
        (some filter) none).2.connection.outboundMessage.data = [] := by
    have hout : OutOfRange (Outgoing.unsubscribe filter).strings 0 :=
      Or.inl ⟨filter, List.mem_singleton_self _, by omega⟩
    have hout5 : OutOfRange (Outgoing5.unsubscribe filter none).strings 0 :=
      Or.inl ⟨filter, List.mem_cons_self, by omega⟩
    have hlong : ¬ (Outgoing.unsubscribe filter).Encodable (freshComposer 64).connection := by
      intro h
      have hroom : 5+((Outgoing.unsubscribe filter).body 0).length ≤ 64 := h.room
      simp only [Outgoing.body, countedString, List.length_append, u16_length] at hroom
      omega
    have hlong5 : ¬ (Outgoing5.unsubscribe filter none).Encodable (freshComposer 64).connection := by
      intro h
      have hroom : 5+((Outgoing5.unsubscribe filter none).body 0).length ≤ 64 := h.room
      simp only [Outgoing5.body, UnsubscribeProperty.filter, countedString, List.length_append,
        u16_length] at hroom
      omega
    have hall :=
      out_of_range_refused_iff (freshComposer 64) ⟨rfl, rfl, by simp [freshComposer]⟩ (by decide)
    exact ⟨(hall.1 (.unsubscribe filter) trivial).mpr (fun _ => hlong) hout,
      (hall.2 (.unsubscribe filter none) trivial).mpr (fun _ => hlong5) hout5⟩
  exact hany _ List.length_replicate

/-- A client with a keep alive of 65596 seconds. -/
def patientClient : ConnectInfo :=
  ⟨some [0x63], none, none, none, [], 0, false, 65596, true, .v311⟩

/-- Both versions announce one of 60 seconds for it. -/
theorem keepalive_truncated :
    let data := ((freshComposer 64).mqttMsgConnect patientClient).connection.outboundMessage.data
    let data5 := ((freshComposer 64).mqtt5MsgConnect patientClient ⟨0, 0, 0, 0, false, false, none⟩
      ⟨0, 0, false, none, none, none, none⟩).connection.outboundMessage.data
    OutOfRange patientClient.strings patientClient.keepalive ∧
      (data ≠ [] ∧ (data.drop 10).take 2 = [0, 60]) ∧
      (data5 ≠ [] ∧ (data5.drop 10).take 2 = [0, 60]) := by
  intro data data5
  have hnonempty {l : List UInt8} (h : (l.drop 10).take 2 = [0, 60]) : l ≠ [] := by
    rintro rfl
    simp at h
  have h4 : (data.drop 10).take 2 = [0, 60] := by decide +kernel
  have h5 : (data5.drop 10).take 2 = [0, 60] := by decide +kernel
  exact ⟨Or.inr (by decide), ⟨hnonempty h4, h4⟩, ⟨hnonempty h5, h5⟩⟩

end EspMqtt
