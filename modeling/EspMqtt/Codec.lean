import EspMqtt.PublishBytes
import EspMqtt.PublishParse
import EspMqtt.WireDecode

/-! What the composing half of `mqtt_msg.c` puts into a packet, against the
reference decoder. -/
namespace EspMqtt
open Wire

/-! The packets as a whole. -/

/-- A packet the client is asked to compose. -/
inductive Outgoing where
  | connect (i : ConnectInfo)
  | publish (topic : List UInt8) (d : CData) (dataLength : ℤ) (qos retain : ℕ)
  | subscribe (topics : List (List UInt8 × ℕ))
  | unsubscribe (topic : List UInt8)
  | puback (id : ℕ)
  | pubrec (id : ℕ)
  | pubrel (id : ℕ)
  | pubcomp (id : ℕ)
  | pingreq
  | disconnect

/-- The call that composes it, with the identifier it reports. -/
def Outgoing.compose (c : Connection) : Outgoing → ℕ × Connection
  | .connect i => (0, mqttMsgConnect c i)
  | .publish topic d dataLength qos retain => mqttMsgPublish c (some topic) d dataLength qos retain
  | .subscribe topics => mqttMsgSubscribe c topics
  | .unsubscribe topic => mqttMsgUnsubscribe c (some topic)
  | .puback id => (id, mqttMsgPuback c id)
  | .pubrec id => (id, mqttMsgPubrec c id)
  | .pubrel id => (id, mqttMsgPubrel c id)
  | .pubcomp id => (id, mqttMsgPubcomp c id)
  | .pingreq => (0, mqttMsgPingreq c)
  | .disconnect => (0, mqttMsgDisconnect c)

/-- A string the protocol can carry; NULL is allowed. -/
def Carried (s : Option (List UInt8)) : Prop := (s.getD []).length < 65536

instance (s : Option (List UInt8)) : Decidable (Carried s) :=
  inferInstanceAs (Decidable ((s.getD []).length < 65536))

/-- The inputs the protocol has a packet for, and a PUBLISH whose length is an `int`. -/
def Outgoing.InRange : Outgoing → Prop
  | .connect i => i.protocolVer = .v311 ∧ Carried i.clientId ∧ Carried i.username ∧
      Carried i.password ∧ Carried i.willTopic ∧ i.willMessage.length < 65536 ∧
      i.willQos ≤ 2 ∧ i.keepalive < 65536
  | .publish topic d dataLength qos retain => topic ≠ [] ∧ topic.length < 65536 ∧
      0 ≤ dataLength ∧ (d.isNull = true → dataLength = 0) ∧ qos ≤ 2 ∧ retain ≤ 1 ∧
      9+topic.length+dataLength < 2^31
  | .subscribe topics => ∀ t ∈ topics, t.1 ≠ [] ∧ t.1.length < 65536 ∧ t.2 ≤ 2
  | .unsubscribe topic => topic ≠ [] ∧ topic.length < 65536
  | .puback id | .pubrec id | .pubrel id | .pubcomp id => 1 ≤ id ∧ id < 65536
  | .pingreq => True
  | .disconnect => True

/-- The user name a CONNECT carries: an empty one if there is only a password. -/
def ConnectInfo.sentUsername (i : ConnectInfo) : Option (List UInt8) :=
  match given i.username with
  | some u => some u
  | none => (given i.password).map fun _ => []

def ConnectInfo.sentWill (i : ConnectInfo) : Option Will :=
  (given i.willTopic).map fun t => ⟨t, i.willMessage, i.willQos, i.willRetain⟩

/-- The packet a call stands for; `id` is the identifier it reports. -/
def Outgoing.packet (id : ℕ) : Outgoing → Packet
  | .connect i => .connect ⟨(given i.clientId).getD [], i.cleanSession, i.keepalive, i.sentWill,
      i.sentUsername, given i.password⟩
  | .publish topic d dataLength qos retain => .publish (calledPublish topic d dataLength qos retain id)
  | .subscribe topics => .subscribe id topics
  | .unsubscribe topic => .unsubscribe id [topic]
  | .puback id => .puback id
  | .pubrec id => .pubrec id
  | .pubrel id => .pubrel id
  | .pubcomp id => .pubcomp id
  | .pingreq => .pingreq
  | .disconnect => .disconnect

/-- A string as it stands in a packet. -/
def countedString (s : List UInt8) : List UInt8 := u16 s.length ++ s

def subscription (t : List UInt8 × ℕ) : List UInt8 := countedString t.1 ++ [UInt8.ofNat t.2]

/-- What stands behind the fixed header. -/
def Outgoing.body (id : ℕ) : Outgoing → List UInt8
  | .connect i => i.header ++ i.fields.flatMap countedString
  | .publish topic d dataLength qos _ => publishHead topic qos id ++ d.slice 0 dataLength.toNat
  | .subscribe topics => u16 id ++ topics.flatMap subscription
  | .unsubscribe topic => u16 id ++ countedString topic
  | .puback id | .pubrec id | .pubrel id | .pubcomp id => u16 id
  | .pingreq => []
  | .disconnect => []

/-- The first byte: type and flags. -/
def Outgoing.first : Outgoing → UInt8
  | .connect _ => headerByte .connect 0 0 0
  | .publish _ _ _ qos retain => headerByte .publish 0 qos retain
  | .subscribe _ => headerByte .subscribe 0 1 0
  | .unsubscribe _ => headerByte .unsubscribe 0 1 0
  | .puback _ => headerByte .puback 0 0 0
  | .pubrec _ => headerByte .pubrec 0 0 0
  | .pubrel _ => headerByte .pubrel 0 1 0
  | .pubcomp _ => headerByte .pubcomp 0 0 0
  | .pingreq => headerByte .pingreq 0 0 0
  | .disconnect => headerByte .disconnect 0 0 0

/-- The packet fits: into the buffer behind the five bytes kept for the fixed
header, and into a Remaining Length of four bytes. -/
def Outgoing.Fits (q : Outgoing) (bufferLength id : ℕ) : Prop :=
  5+(q.body id).length ≤ bufferLength ∧ (q.body id).length < 128^4

instance (q : Outgoing) (bufferLength id : ℕ) : Decidable (q.Fits bufferLength id) := by
  unfold Outgoing.Fits; infer_instance

/-! The bodies, read back. -/

theorem word_u16 {n : ℕ} (hn : n < 65536) (bs : List UInt8) :
    ByteReader.word (u16 n ++ bs) = some (n, bs) := ByteReader.word_append n hn bs

theorem counted_countedString {s : List UInt8} (hs : s.length < 65536) (bs : List UInt8) :
    ByteReader.counted (countedString s ++ bs) = some (s, bs) := by
  unfold countedString
  rw [List.append_assoc]
  exact ByteReader.counted_append s hs bs

theorem decodeAck_u16 (make : ℕ → Packet) {id : ℕ} (h1 : 1 ≤ id) (h2 : id < 65536) :
    decodeAck make (u16 id) = some (make id) := by
  have hw := word_u16 h2 []
  rw [List.append_nil] at hw
  unfold decodeAck
  simp only [hw, Option.bind_some, ne_eq, and_true]
  rw [if_pos (by omega)]

theorem readFilter_subscription {t : List UInt8 × ℕ} (h1 : t.1 ≠ []) (h2 : t.1.length < 65536)
    (h3 : t.2 ≤ 2) (bs : List UInt8) : readFilter (subscription t ++ bs) = some (t, bs) := by
  have hqos : (UInt8.ofNat t.2).toNat = t.2 := by rw [UInt8.toNat_ofNat']; omega
  unfold readFilter subscription
  rw [List.append_assoc]
  simp only [counted_countedString h2, Option.bind_some, List.singleton_append,
    ByteReader.byte_cons, hqos]
  rw [if_pos ⟨h3,h1⟩]

theorem decodeSubscribe_body {id : ℕ} {topics : List (List UInt8 × ℕ)} (h1 : 1 ≤ id)
    (h2 : id < 65536) (h : ∀ t ∈ topics, t.1 ≠ [] ∧ t.1.length < 65536 ∧ t.2 ≤ 2) :
    decodeSubscribe (u16 id ++ topics.flatMap subscription) = some (.subscribe id topics) := by
  have hlen : topics.length ≤ (topics.flatMap subscription).length := by
    clear h
    induction topics with
    | nil => simp
    | cons t ts ih =>
      simp only [List.flatMap_cons, List.length_append, List.length_cons, subscription,
        countedString, u16_length, List.length_nil]
      omega
  have hmany := ByteReader.many_flatMap readFilter subscription topics
    (topics.flatMap subscription).length
    (fun t ht => readFilter_subscription (h t ht).1 (h t ht).2.1 (h t ht).2.2)
    (fun t _ => by simp [subscription]) hlen
  unfold decodeSubscribe
  simp only [word_u16 h2, Option.bind_some, hmany]
  rw [if_pos (by omega)]

theorem decodeUnsubscribe_body {id : ℕ} {topic : List UInt8} (h1 : 1 ≤ id) (h2 : id < 65536)
    (h3 : topic ≠ []) (h4 : topic.length < 65536) :
    decodeUnsubscribe (u16 id ++ countedString topic) = some (.unsubscribe id [topic]) := by
  have hread : ∀ t ∈ [topic], ∀ bs, readTopicFilter (countedString t ++ bs) = some (t, bs) := by
    intro t ht bs
    obtain rfl := List.mem_singleton.mp ht
    unfold readTopicFilter
    simp only [counted_countedString h4, Option.bind_some]
    rw [if_pos h3]
  have hmany := ByteReader.many_flatMap readTopicFilter countedString [topic]
    (countedString topic).length hread (fun t _ => by simp [countedString, u16])
    (by simp [countedString]; omega)
  simp only [List.flatMap_cons, List.flatMap_nil, List.append_nil] at hmany
  unfold decodeUnsubscribe
  simp only [word_u16 h2, Option.bind_some, hmany]
  rw [if_pos (by omega)]

/-- The bits of the connect flags. -/
theorem connectFlags_bits (clean will retain user pass : Bool) {qos : ℕ} (hqos : qos ≤ 2)
    (hpass : pass = true → user = true) :
    let f := (if clean then 2 else 0)+(if will then 4+(if retain then 32 else 0)+qos*8 else 0)+
      (if user then 128 else 0)+(if pass then 64 else 0)
    f < 256 ∧ (f/2 % 2 == 1) = clean ∧ (f/4 % 2 == 1) = will ∧
      (will = true → f/8 % 4 = qos ∧ (f/32 % 2 == 1) = retain) ∧ (f/128 % 2 == 1) = user ∧
      (f/64 % 2 == 1) = pass ∧ connectFlagsOk f = true := by
  have hall : ∀ (clean will retain user pass : Bool) (q : Fin 3), (pass = true → user = true) →
      let f := (if clean then 2 else 0)+(if will then 4+(if retain then 32 else 0)+q.val*8 else 0)+
        (if user then 128 else 0)+(if pass then 64 else 0)
      f < 256 ∧ (f/2 % 2 == 1) = clean ∧ (f/4 % 2 == 1) = will ∧
        (will = true → f/8 % 4 = q.val ∧ (f/32 % 2 == 1) = retain) ∧ (f/128 % 2 == 1) = user ∧
        (f/64 % 2 == 1) = pass ∧ connectFlagsOk f = true := by decide
  exact hall clean will retain user pass ⟨qos, by omega⟩ hpass

theorem given_carried {s : Option (List UInt8)} (h : Carried s) {t : List UInt8}
    (ht : given s = some t) : t.length < 65536 := by
  have hs : s = some t := (Option.filter_eq_some_iff.mp ht).1
  simpa [Carried, hs] using h

theorem readWill_append {topic message : List UInt8} (h1 : topic.length < 65536)
    (h2 : message.length < 65536) (f : ℕ) (bs : List UInt8) :
    readWill f (countedString topic ++ (countedString message ++ bs)) =
      some (⟨topic, message, f/8 % 4, f/32 % 2 == 1⟩, bs) := by
  unfold readWill
  simp only [counted_countedString h1, Option.bind_some, counted_countedString h2, Option.map_some]

/-- The optional parts of a CONNECT, in order. -/
def ConnectInfo.willBytes (i : ConnectInfo) : List UInt8 :=
  match i.sentWill with
  | some w => countedString w.topic ++ countedString w.message
  | none => []

def optionalBytes (s : Option (List UInt8)) : List UInt8 := (s.map countedString).getD []

theorem fields_bytes (i : ConnectInfo) :
    i.fields.flatMap countedString = countedString ((given i.clientId).getD []) ++
      (i.willBytes ++ (optionalBytes i.sentUsername ++ optionalBytes (given i.password))) := by
  unfold ConnectInfo.fields ConnectInfo.willBytes ConnectInfo.sentWill ConnectInfo.sentUsername
    optionalBytes
  cases given i.willTopic <;> cases given i.username <;> cases given i.password <;> simp

theorem optional_counted {s : Option (List UInt8)} {present : Bool} (hp : present = s.isSome)
    (hs : ∀ t, s = some t → t.length < 65536) (bs : List UInt8) :
    ByteReader.optional present ByteReader.counted (optionalBytes s ++ bs) = some (s, bs) := by
  subst hp
  cases s with
  | none => rfl
  | some t =>
    have hread := counted_countedString (hs t rfl) bs
    simp only [ByteReader.optional, optionalBytes, Option.isSome_some, if_true, Option.map_some,
      Option.getD_some, hread]

/-- The flags of a CONNECT, bit by bit. -/
theorem flags_bits (i : ConnectInfo) (hqos : i.willQos ≤ 2) :
    i.flags < 256 ∧ (i.flags/2 % 2 == 1) = i.cleanSession ∧
      (i.flags/4 % 2 == 1) = (given i.willTopic).isSome ∧
      ((given i.willTopic).isSome = true →
        i.flags/8 % 4 = i.willQos ∧ (i.flags/32 % 2 == 1) = i.willRetain) ∧
      (i.flags/128 % 2 == 1) = ((given i.username).isSome || (given i.password).isSome) ∧
      (i.flags/64 % 2 == 1) = (given i.password).isSome ∧ connectFlagsOk i.flags = true := by
  have hbits := connectFlags_bits i.cleanSession (given i.willTopic).isSome i.willRetain
    ((given i.username).isSome || (given i.password).isSome) (given i.password).isSome hqos
    (by simp +contextual)
  have hflags : i.flags = (if i.cleanSession then 2 else 0)+
      (if (given i.willTopic).isSome then 4+(if i.willRetain then 32 else 0)+i.willQos*8 else 0)+
      (if (given i.username).isSome || (given i.password).isSome then 128 else 0)+
      (if (given i.password).isSome then 64 else 0) := by
    unfold ConnectInfo.flags
    rw [Nat.mod_eq_of_lt (by omega : i.willQos < 4)]
    simp only [Bool.or_eq_true]
  dsimp only at hbits
  rwa [← hflags] at hbits

theorem sentUsername_isSome (i : ConnectInfo) :
    i.sentUsername.isSome = ((given i.username).isSome || (given i.password).isSome) := by
  unfold ConnectInfo.sentUsername
  cases given i.username <;> simp

theorem sentUsername_carried {i : ConnectInfo} (huser : Carried i.username) :
    ∀ t, i.sentUsername = some t → t.length < 65536 := by
  intro t ht
  unfold ConnectInfo.sentUsername at ht
  cases hg : given i.username with
  | some u =>
    rw [hg] at ht
    obtain rfl := Option.some.inj ht
    exact given_carried huser hg
  | none =>
    rw [hg] at ht
    obtain ⟨p,-,rfl⟩ := Option.map_eq_some_iff.mp ht
    simp

theorem decodeConnect_body (i : ConnectInfo) (h : (Outgoing.connect i).InRange) (id : ℕ) :
    decodeConnect ((Outgoing.connect i).body id) = some ((Outgoing.connect i).packet id) := by
  obtain ⟨hver,hclient,huser,hpass,htopic,hmsg,hqos,hkeep⟩ := h
  obtain ⟨hf,hclean,hwill,hfields,hu,hp,hok⟩ := flags_bits i hqos
  have hbyte : (UInt8.ofNat i.flags).toNat = i.flags := by rw [UInt8.toNat_ofNat']; omega
  have hcid : ((given i.clientId).getD []).length < 65536 := by
    cases hg : given i.clientId with
    | none => simp
    | some t => exact given_carried hclient hg
  have hbody : (Outgoing.connect i).body id = countedString protocolName ++
      (4 :: UInt8.ofNat i.flags :: (u16 i.keepalive ++ (countedString ((given i.clientId).getD []) ++
        (i.willBytes ++ (optionalBytes i.sentUsername ++
          (optionalBytes (given i.password) ++ [])))))) := by
    simp only [Outgoing.body, ConnectInfo.header, hver, fields_bytes, List.append_nil]
    rfl
  have hreadWill (bs : List UInt8) : ByteReader.optional (i.flags/4 % 2 == 1) (readWill i.flags)
      (i.willBytes ++ bs) = some (i.sentWill, bs) := by
    rw [hwill]
    unfold ConnectInfo.willBytes ConnectInfo.sentWill
    cases hg : given i.willTopic with
    | none => rfl
    | some t =>
      have hf' := hfields (by simp [hg])
      have hread := readWill_append (given_carried htopic hg) hmsg i.flags bs
      simp only [ByteReader.optional, Option.isSome_some, if_true, Option.map_some,
        List.append_assoc, hread, hf'.1, hf'.2]
  have hreadUser := optional_counted (hu.trans (sentUsername_isSome i).symm) (sentUsername_carried huser)
  have hreadPass := optional_counted hp (fun t ht => given_carried hpass ht) []
  have hname := counted_countedString (s := protocolName) (by decide)
  rw [hbody]
  unfold decodeConnect
  simp only [hname, Option.bind_some, ByteReader.byte_cons, word_u16 hkeep,
    counted_countedString hcid, hbyte, hreadWill, hreadUser, hreadPass]
  rw [if_pos (by simp [hok]), hclean]
  rfl

theorem decodePublish_body {topic : List UInt8} {d : CData} {len : ℤ} {qos retain id : ℕ}
    (h : (Outgoing.publish topic d len qos retain).InRange) (hid : 0 < qos → 1 ≤ id ∧ id < 65536)
    (hid0 : qos = 0 → id = 0) :
    decodePublish (headerByte .publish 0 qos retain)
      ((Outgoing.publish topic d len qos retain).body id) =
        some ((Outgoing.publish topic d len qos retain).packet id) := by
  obtain ⟨hne,htopic,-,-,hqos,hretain,-⟩ := h
  have hbyte : (headerByte .publish 0 qos retain).toNat = 48+qos*2+retain := by
    unfold headerByte
    rw [UInt8.toNat_ofNat']
    change (3 % 16*16+0 % 2*8+qos % 4*2+retain % 2) % 256 = _
    omega
  have hq : (48+qos*2+retain)/2 % 4 = qos := by omega
  have hd : ((48+qos*2+retain)/8 % 2 == 1) = false := by
    rw [beq_eq_false_iff_ne]
    omega
  have hr : ((48+qos*2+retain) % 2 == 1) = decide (retain % 2 = 1) := by
    have hmod : (48+qos*2+retain) % 2 = retain % 2 := by omega
    rw [hmod, beq_eq_decide]
  have hreadId (bs : List UInt8) : ByteReader.optional (decide (0 < qos)) ByteReader.word
      ((if 0 < qos then u16 id else []) ++ bs) = some (if 0 < qos then some id else none, bs) := by
    by_cases hpos : 0 < qos
    · simp [ByteReader.optional, hpos, word_u16 (hid hpos).2]
    · simp [ByteReader.optional, hpos]
  have hbody : (Outgoing.publish topic d len qos retain).body id = countedString topic ++
      ((if 0 < qos then u16 id else []) ++ d.slice 0 len.toNat) := by
    simp only [Outgoing.body, publishHead, countedString, List.append_assoc]
  rw [hbody]
  unfold decodePublish
  simp only [hbyte, hq, hd, hr, counted_countedString htopic, Option.bind_some, hreadId]
  have hok : qos ≤ 2 ∧ (qos = 0 → True) ∧
      (if 0 < qos then some id else none) ≠ some 0 ∧ topic ≠ [] := by
    refine ⟨hqos, fun _ => trivial, ?_, hne⟩
    split
    · rename_i hpos
      have := (hid hpos).1
      simp
      omega
    · simp
  rw [if_pos hok]
  have hgetD : (if 0 < qos then some id else none).getD 0 = id := by
    split
    · rfl
    · rename_i hpos
      exact (hid0 (by omega)).symm
  simp only [Outgoing.packet, calledPublish, hgetD]

/-- The identifier a call reports, where its packet has one. -/
def Outgoing.Identified (id : ℕ) : Outgoing → Prop
  | .publish _ _ _ qos _ => (0 < qos → 1 ≤ id ∧ id < 65536) ∧ (qos = 0 → id = 0)
  | .subscribe _ | .unsubscribe _ => 1 ≤ id ∧ id < 65536
  | _ => True

theorem headerByte_nibbles (type : MsgType) {qos : ℕ} (hq : qos < 4) :
    (headerByte type 0 qos 0).toNat/16 = type.code ∧ (headerByte type 0 qos 0).toNat % 16 = qos*2 := by
  have hcode : type.code < 16 := by cases type <;> decide
  unfold headerByte
  rw [UInt8.toNat_ofNat']
  omega

theorem headerByte_publish_type (qos retain : ℕ) :
    (headerByte .publish 0 qos retain).toNat/16 = 3 := by
  unfold headerByte
  rw [UInt8.toNat_ofNat']
  change (3 % 16*16+0 % 2*8+qos % 4*2+retain % 2) % 256/16 = 3
  omega

/-- Every body in range is read back as the packet it stands for. -/
theorem decodeBody_outgoing {q : Outgoing} {id : ℕ} (h : q.InRange)
    (hid : q.Identified id) : decodeBody q.first (q.body id) = some (q.packet id) := by
  unfold decodeBody
  cases q with
  | connect i =>
    simp only [Outgoing.first, headerByte_nibbles .connect (by decide : 0 < 4), MsgType.code, Nat.zero_mul]
    exact decodeConnect_body i h id
  | publish topic d len qos retain =>
    simp only [Outgoing.first, headerByte_publish_type]
    exact decodePublish_body h hid.1 hid.2
  | subscribe topics =>
    simp only [Outgoing.first, headerByte_nibbles .subscribe (by decide : 1 < 4), MsgType.code, Nat.one_mul]
    exact decodeSubscribe_body hid.1 hid.2 h
  | unsubscribe topic =>
    simp only [Outgoing.first, headerByte_nibbles .unsubscribe (by decide : 1 < 4), MsgType.code, Nat.one_mul]
    exact decodeUnsubscribe_body hid.1 hid.2 h.1 h.2
  | puback id' =>
    simp only [Outgoing.first, headerByte_nibbles .puback (by decide : 0 < 4), MsgType.code, Nat.zero_mul]
    exact decodeAck_u16 _ h.1 h.2
  | pubrec id' =>
    simp only [Outgoing.first, headerByte_nibbles .pubrec (by decide : 0 < 4), MsgType.code, Nat.zero_mul]
    exact decodeAck_u16 _ h.1 h.2
  | pubrel id' =>
    simp only [Outgoing.first, headerByte_nibbles .pubrel (by decide : 1 < 4), MsgType.code, Nat.one_mul]
    exact decodeAck_u16 _ h.1 h.2
  | pubcomp id' =>
    simp only [Outgoing.first, headerByte_nibbles .pubcomp (by decide : 0 < 4), MsgType.code, Nat.zero_mul]
    exact decodeAck_u16 _ h.1 h.2
  | pingreq =>
    simp only [Outgoing.first, headerByte_nibbles .pingreq (by decide : 0 < 4), MsgType.code, Nat.zero_mul]
    rfl
  | disconnect =>
    simp only [Outgoing.first, headerByte_nibbles .disconnect (by decide : 0 < 4), MsgType.code, Nat.zero_mul]
    rfl

/-! What the calls compose. -/

/-- `fini_message` announces a body of `n` bytes, unless that is too long for the
length field. -/
theorem finiMessage_announced {c : Connection} {body : List UInt8} {n : ℕ}
    (hrem : c.outboundMessage.remainingLength body = (n : ℤ)) (type : MsgType) (dup qos retain : ℕ) :
    (finiMessage c type dup qos retain body).outboundMessage.data =
      (if n < 128^4 then headerByte type dup qos retain :: (Base128.encode 3 n ++ body) else []) ∧
    (finiMessage c type dup qos retain body).outboundMessage.fragmentedMsgTotalLength =
      c.outboundMessage.fragmentedMsgTotalLength := by
  unfold finiMessage
  dsimp only
  rw [hrem]
  by_cases hlen : n < 128^4
  · rw [if_pos hlen, encodedLens_encode 3 n 5 hlen (by decide)]
    have hle := Base128.encode_length_le 3 n
    rw [if_neg (by omega)]
    exact ⟨rfl,rfl⟩
  · rw [if_neg hlen]
    have hfive := encodedLens_five (n : ℤ) (by push_cast; exact_mod_cast not_lt.mp hlen)
    rw [if_pos (by omega)]
    exact ⟨rfl,rfl⟩

/-- With no fragment left over, the body it finds is what is announced. -/
theorem finiMessage_framed {c : Connection} (hc : c.outboundMessage.fragmentedMsgTotalLength = 0)
    (type : MsgType) (dup qos retain : ℕ) (body : List UInt8) :
    (finiMessage c type dup qos retain body).outboundMessage.data =
      if body.length < 128^4 then
        headerByte type dup qos retain :: (Base128.encode 3 body.length ++ body) else [] := by
  have hrem : c.outboundMessage.remainingLength body = (body.length : ℤ) := by
    unfold OutMessage.remainingLength
    rw [if_neg (by simp [hc])]
  exact (finiMessage_announced hrem type dup qos retain).1

theorem foldlM_appendString (bufferLength : ℕ) (ss : List (List UInt8)) (acc : List UInt8)
    (h : 5+acc.length ≤ bufferLength) :
    ss.foldlM (fun acc s => appendString bufferLength s acc) acc =
      if 5+(acc ++ ss.flatMap countedString).length ≤ bufferLength then
        some (acc ++ ss.flatMap countedString) else none := by
  induction ss generalizing acc with
  | nil => simp [h]
  | cons s ss ih =>
    rw [List.foldlM_cons, appendString]
    by_cases hroom : bufferLength < 5+acc.length+s.length+2
    · rw [if_pos hroom, if_neg]
      · rfl
      · simp only [List.flatMap_cons, countedString, List.length_append, u16_length]
        omega
    · rw [if_neg hroom]
      have hacc : 5+(acc ++ u16 s.length ++ s).length ≤ bufferLength := by
        simp only [List.length_append, u16_length]
        omega
      change List.foldlM _ (acc ++ u16 s.length ++ s) ss = _
      rw [ih _ hacc]
      simp only [List.flatMap_cons, countedString, List.append_assoc]

theorem appendTopics_eq (bufferLength : ℕ) (topics : List (List UInt8 × ℕ)) (acc : List UInt8)
    (h : 5+acc.length ≤ bufferLength) (hne : ∀ t ∈ topics, t.1 ≠ []) :
    appendTopics bufferLength topics acc =
      if 5+(acc ++ topics.flatMap subscription).length ≤ bufferLength then
        some (acc ++ topics.flatMap subscription) else none := by
  induction topics generalizing acc with
  | nil => simp [appendTopics, h]
  | cons t ts ih =>
    obtain ⟨filter,qos⟩ := t
    have hf : filter ≠ [] := hne _ List.mem_cons_self
    rw [appendTopics, if_neg hf, appendString]
    by_cases hroom : bufferLength < 5+acc.length+filter.length+2
    · rw [if_pos hroom, if_neg]
      simp only [List.flatMap_cons, subscription, countedString, List.length_append, u16_length]
      omega
    · rw [if_neg hroom]
      dsimp only
      by_cases hqos : bufferLength < 5+(acc ++ u16 filter.length ++ filter).length+1
      · rw [if_pos hqos, if_neg]
        simp only [List.flatMap_cons, subscription, countedString, List.length_append, u16_length,
          List.length_cons, List.length_nil] at hqos ⊢
        omega
      · rw [if_neg hqos, ih]
        · simp only [List.flatMap_cons, subscription, countedString, List.append_assoc]
        · simp only [List.length_append, u16_length, List.length_cons, List.length_nil] at hqos ⊢
          omega
        · exact fun t ht => hne t (List.mem_cons_of_mem _ ht)

/-- The packet in `outbound_message`: framed if it fits, else nothing. -/
def Outgoing.framed (q : Outgoing) (bufferLength id : ℕ) : List UInt8 :=
  if q.Fits bufferLength id then
    q.first :: (Base128.encode 3 (q.body id).length ++ q.body id) else []

theorem finiOrFail_framed {c : Connection} (hc : c.outboundMessage.fragmentedMsgTotalLength = 0)
    (type : MsgType) (qos bufferLength : ℕ) (body : List UInt8) :
    (finiOrFail c type qos
      (if 5+body.length ≤ bufferLength then some body else none)).outboundMessage.data =
      if 5+body.length ≤ bufferLength ∧ body.length < 128^4 then
        headerByte type 0 qos 0 :: (Base128.encode 3 body.length ++ body) else [] := by
  by_cases hroom : 5+body.length ≤ bufferLength
  · rw [if_pos hroom]
    change (finiMessage c type 0 qos 0 body).outboundMessage.data = _
    rw [finiMessage_framed hc]
    by_cases hlen : body.length < 128^4
    · rw [if_pos hlen, if_pos ⟨hroom,hlen⟩]
    · rw [if_neg hlen, if_neg fun hh => hlen hh.2]
  · rw [if_neg hroom, if_neg fun hh => hroom hh.1]
    rfl

/-- An identifier first thing in the body. -/
theorem appendMessageId_first (c : Connection) (id : ℕ) :
    (appendMessageId c [] id).2.1 =
      (if 5+(u16 (c.messageId id).1).length ≤ c.bufferLength then some (u16 (c.messageId id).1)
        else none) ∧
    (appendMessageId c [] id).2.2 = (c.messageId id).2 := by
  unfold appendMessageId
  dsimp only
  by_cases hroom : c.bufferLength < 5+([] : List UInt8).length+2
  · rw [if_pos hroom, if_neg (by rw [u16_length]; simp at hroom; omega)]
    exact ⟨rfl,rfl⟩
  · rw [if_neg hroom, if_pos (by rw [u16_length]; simp at hroom; omega)]
    exact ⟨rfl,rfl⟩

/-- A body that is composed if there is room for it. -/
def ifRoom (bufferLength : ℕ) (body : List UInt8) : Option (List UInt8) :=
  if 5+body.length ≤ bufferLength then some body else none

/-! Each call composes the body of its packet if there is room for it. -/

theorem ackMessage_eq (c : Connection) (type : MsgType) (qos : ℕ) {id : ℕ} (hid : 1 ≤ id) :
    ackMessage type qos c id = finiOrFail c type qos (ifRoom c.bufferLength (u16 id)) := by
  have hm : c.messageId id = (id, c) := by
    unfold Connection.messageId
    rw [if_pos (by omega)]
  obtain ⟨h1,h2⟩ := appendMessageId_first c id
  rw [hm] at h1 h2
  unfold ackMessage
  dsimp only
  rw [h1, h2]
  rfl

theorem mqttMsgConnect_eq (c : Connection) (i : ConnectInfo) (id : ℕ) :
    mqttMsgConnect c i =
      finiOrFail c .connect 0 (ifRoom c.bufferLength ((Outgoing.connect i).body id)) := by
  unfold mqttMsgConnect
  by_cases hroom : c.bufferLength < 5+i.header.length
  · rw [if_pos hroom]
    have hnone : ifRoom c.bufferLength ((Outgoing.connect i).body id) = none := by
      apply if_neg
      simp only [Outgoing.body, List.length_append]
      omega
    rw [hnone]
    rfl
  · rw [if_neg hroom, foldlM_appendString _ _ _ (by omega)]
    rfl

theorem mqttMsgSubscribe_eq (c : Connection) {topics : List (List UInt8 × ℕ)}
    (h : ∀ t ∈ topics, t.1 ≠ []) :
    (mqttMsgSubscribe c topics).2 = finiOrFail (c.messageId 0).2 .subscribe 1
      (ifRoom c.bufferLength ((Outgoing.subscribe topics).body (c.messageId 0).1)) := by
  obtain ⟨h1,h2⟩ := appendMessageId_first c 0
  change finiOrFail (appendMessageId c [] 0).2.2 .subscribe 1
    ((appendMessageId c [] 0).2.1.bind (appendTopics c.bufferLength topics)) = _
  rw [h1, h2]
  congr 1
  by_cases hroom : 5+(u16 (c.messageId 0).1).length ≤ c.bufferLength
  · rw [if_pos hroom, Option.bind_some, appendTopics_eq _ _ _ hroom h]
    rfl
  · rw [if_neg hroom]
    symm
    apply if_neg
    simp only [Outgoing.body, List.length_append]
    omega

theorem mqttMsgUnsubscribe_eq (c : Connection) {topic : List UInt8} (h : topic ≠ []) :
    (mqttMsgUnsubscribe c (some topic)).2 = finiOrFail (c.messageId 0).2 .unsubscribe 1
      (ifRoom c.bufferLength ((Outgoing.unsubscribe topic).body (c.messageId 0).1)) := by
  obtain ⟨h1,h2⟩ := appendMessageId_first c 0
  obtain ⟨b,bs,hb⟩ := List.exists_cons_of_ne_nil h
  have hcall : (mqttMsgUnsubscribe c (some topic)).2 =
      finiOrFail (appendMessageId c [] 0).2.2 .unsubscribe 1
        ((appendMessageId c [] 0).2.1.bind (appendString c.bufferLength topic)) := by
    rw [hb]
    rfl
  rw [hcall, h1, h2]
  congr 1
  by_cases hroom : 5+(u16 (c.messageId 0).1).length ≤ c.bufferLength
  · have hone := foldlM_appendString c.bufferLength [topic] (u16 (c.messageId 0).1) hroom
    simp only [List.foldlM_cons, List.foldlM_nil, bind_pure, List.flatMap_cons, List.flatMap_nil,
      List.append_nil] at hone
    rw [if_pos hroom, Option.bind_some, hone]
    rfl
  · rw [if_neg hroom]
    symm
    apply if_neg
    simp only [Outgoing.body, List.length_append]
    omega

/-- Every call but a PUBLISH leaves the framed packet or nothing. -/
theorem compose_framed {q : Outgoing} {c : Connection}
    (hc : c.outboundMessage.fragmentedMsgTotalLength = 0) (hbuf : 5 ≤ c.bufferLength)
    (hrange : q.InRange) (hq : ∀ topic d len qos retain, q ≠ .publish topic d len qos retain) :
    (q.compose c).2.outboundMessage.data = q.framed c.bufferLength (c.messageId 0).1 := by
  obtain ⟨hframe,-⟩ := messageId_frame c 0
  have hc' : (c.messageId 0).2.outboundMessage.fragmentedMsgTotalLength = 0 := by
    rw [hframe]
    exact hc
  have hack {type : MsgType} {qos id : ℕ} (hid : 1 ≤ id) :
      (ackMessage type qos c id).outboundMessage.data = _ :=
    (congrArg (fun c : Connection => c.outboundMessage.data) (ackMessage_eq c type qos hid)).trans
      (finiOrFail_framed hc type qos c.bufferLength (u16 id))
  cases q with
  | publish topic d len qos retain => exact absurd rfl (hq topic d len qos retain)
  | puback id => exact hack hrange.1
  | pubrec id => exact hack hrange.1
  | pubrel id => exact hack hrange.1
  | pubcomp id => exact hack hrange.1
  | pingreq =>
    have hfini := finiOrFail_framed hc .pingreq 0 c.bufferLength []
    rw [if_pos (by simpa using hbuf)] at hfini
    exact hfini
  | disconnect =>
    have hfini := finiOrFail_framed hc .disconnect 0 c.bufferLength []
    rw [if_pos (by simpa using hbuf)] at hfini
    exact hfini
  | connect i =>
    have heq : (Outgoing.compose c (.connect i)).2 = _ := mqttMsgConnect_eq c i (c.messageId 0).1
    rw [heq]
    exact finiOrFail_framed hc .connect 0 c.bufferLength _
  | subscribe topics =>
    have heq : (Outgoing.compose c (.subscribe topics)).2 = _ :=
      mqttMsgSubscribe_eq c fun t ht => (hrange t ht).1
    rw [heq]
    exact finiOrFail_framed hc' .subscribe 1 c.bufferLength _
  | unsubscribe topic =>
    have heq : (Outgoing.compose c (.unsubscribe topic)).2 = _ := mqttMsgUnsubscribe_eq c hrange.1
    rw [heq]
    exact finiOrFail_framed hc' .unsubscribe 1 c.bufferLength _

end EspMqtt
