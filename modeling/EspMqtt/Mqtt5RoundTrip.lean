import EspMqtt.Mqtt5Packets

/-! What the calls of `mqtt5_msg.c` compose is what a reference decoder reads. -/
namespace EspMqtt
open Wire (u16 u16_length)
open Wire5

/-! The bodies, read back. -/

/-- A block whose length has at most four bytes. -/
theorem readProperties_of_block {ps : List Property} {allowed : List PropertyId}
    (h : BlockOk ps allowed) (hlen : (blockBytes ps).length < 128^4) (bs : List UInt8) :
    readProperties allowed (block ps ++ bs) = some (Properties.ofList ps, bs) := by
  unfold block
  rw [generateVariableLen_encode hlen, List.append_assoc]
  exact readProperties_block h.sendable h.single h.allowed hlen bs

/-- The Property Length is the size of the block. -/
theorem block_length_field {ps : List Property} (hlen : (blockBytes ps).length < 128^4)
    (bs : List UInt8) :
    ByteReader.base128 4 (block ps ++ bs) = some ((blockBytes ps).length, blockBytes ps ++ bs) := by
  unfold block
  rw [generateVariableLen_encode hlen, List.append_assoc]
  exact ByteReader.base128_encode 3 _ hlen _

theorem blockBytes_le (ps : List Property) : (blockBytes ps).length ≤ (block ps).length := by
  unfold block
  rw [List.length_append]
  omega

/-- The packet a call stands for; `id` is the identifier it reports. -/
def Outgoing5.packet (id : ℕ) : Outgoing5 → Packet
  | .connect i property willProperty => .connect
    { clientId := (given i.clientId).getD []
      cleanStart := i.cleanSession
      keepalive := i.keepalive
      properties := property.asked
      will := i.sentWill.map fun w =>
        ⟨w.topic, w.message, w.qos, w.retain, willProperty.asked⟩
      username := i.sentUsername
      password := given i.password }
  | .publish topic d dataLength qos retain property respInfo => .publish
    { topic := (given topic).getD []
      payload := d.slice 0 dataLength.toNat
      qos := qos
      retain := decide (retain % 2 = 1)
      dup := false
      id := id
      properties := PublishProperty.asked property respInfo }
  | .subscribe topics property => .subscribe id (SubscribeProperty.asked property)
    (topics.map fun t =>
      { filter := SubscribeProperty.filter property t.1
        qos := t.2
        noLocal := (property.map SubscribeProperty.noLocalFlag).getD false
        retainAsPublished := (property.map SubscribeProperty.retainAsPublishedFlag).getD false
        retainHandling := (property.map SubscribeProperty.retainHandle).getD 0 })
  | .unsubscribe topic property => .unsubscribe id (UnsubscribeProperty.asked property)
    [UnsubscribeProperty.filter property topic]
  | .disconnect property =>
    .disconnect ((property.map DisconnectProperty.disconnectReason).getD 0)
      (DisconnectProperty.asked property)
  | .puback id => .puback id 0 {}
  | .pubrec id => .pubrec id 0 {}
  | .pubrel id => .pubrel id 0 {}
  | .pubcomp id => .pubcomp id 0 {}

theorem decodeAck_body (make : ℕ → ℕ → Properties → Packet) {id : ℕ} (h1 : 1 ≤ id) (h2 : id < 65536) :
    decodeAck make (u16 id ++ ([0] ++ block [])) = some (make id 0 {}) := by
  unfold decodeAck
  rw [word_u16 h2]
  have hreason : readReason [.reasonString] ([0] ++ block []) = some (0, {}) := by decide
  simp only [Option.bind_some, hreason]
  rw [if_pos (by omega)]

/-- The composed filter is not cut off. -/
theorem sharedTopic_eq {shareName filter : List UInt8}
    (h : 8+shareName.length+filter.length ≤ 65531) :
    sharedTopic shareName filter =
      [0x24, 0x73, 0x68, 0x61, 0x72, 0x65, 0x2f] ++ shareName ++ 0x2f :: filter := by
  unfold sharedTopic
  dsimp only
  apply List.take_of_length_le
  simp only [List.length_append, List.length_cons, List.length_nil]
  omega

theorem sharedTopic_ok {shareName filter : List UInt8}
    (h : 8+shareName.length+filter.length ≤ 65531) :
    sharedTopic shareName filter ≠ [] ∧ (sharedTopic shareName filter).length < 65536 := by
  rw [sharedTopic_eq h]
  refine ⟨by simp, ?_⟩
  simp only [List.length_append, List.length_cons, List.length_nil]
  omega

/-- A filter is sent as it is, or behind the name of the share. -/
theorem shared_filter_ok {share : Bool} {shareName filter : List UInt8} (hne : filter ≠ [])
    (hlen : filter.length < 65536) (h : share = true → 8+shareName.length+filter.length ≤ 65531) :
    (if share = true then sharedTopic shareName filter else filter) ≠ [] ∧
      (if share = true then sharedTopic shareName filter else filter).length < 65536 := by
  split
  · rename_i hs
    exact sharedTopic_ok (h hs)
  · exact ⟨hne,hlen⟩

theorem subscribe_filter_ok {property : Option SubscribeProperty} {filter : List UInt8}
    (hne : filter ≠ []) (hlen : filter.length < 65536)
    (h : ∀ p, property = some p → p.isShareSubscribe = true →
      8+p.shareName.length+filter.length ≤ 65531) :
    SubscribeProperty.filter property filter ≠ [] ∧
      (SubscribeProperty.filter property filter).length < 65536 := by
  cases property with
  | none => exact ⟨hne,hlen⟩
  | some p => exact shared_filter_ok hne hlen (h p rfl)

theorem unsubscribe_filter_ok {property : Option UnsubscribeProperty} {filter : List UInt8}
    (hne : filter ≠ []) (hlen : filter.length < 65536)
    (h : ∀ p, property = some p → p.isShareSubscribe = true →
      8+p.shareName.length+filter.length ≤ 65531) :
    UnsubscribeProperty.filter property filter ≠ [] ∧
      (UnsubscribeProperty.filter property filter).length < 65536 := by
  cases property with
  | none => exact ⟨hne,hlen⟩
  | some p => exact shared_filter_ok hne hlen (h p rfl)

/-- The options byte, bit by bit. -/
theorem subscribeOptions_bits {property : Option SubscribeProperty} {qos : ℕ} (hqos : qos ≤ 2)
    (h : ∀ p, property = some p → p.InRange) :
    let o := (subscribeOptions property qos).toNat
    o < 64 ∧ o % 4 = qos ∧ (o/4 % 2 == 1) = (property.map SubscribeProperty.noLocalFlag).getD false ∧
      (o/8 % 2 == 1) = (property.map SubscribeProperty.retainAsPublishedFlag).getD false ∧
      o/16 = (property.map SubscribeProperty.retainHandle).getD 0 := by
  have hall : ∀ (noLocal asPublished : Bool) (handle qos : Fin 3),
      let o := ((if 0 < handle.val ∧ handle.val < 3 then UInt8.ofNat (handle.val*16) else 0) |||
        (if noLocal then 4 else 0) ||| (if asPublished then 8 else 0) |||
          UInt8.ofNat (qos.val % 4)).toNat
      o < 64 ∧ o % 4 = qos.val ∧ (o/4 % 2 == 1) = noLocal ∧ (o/8 % 2 == 1) = asPublished ∧
        o/16 = handle.val := by decide
  cases property with
  | none =>
    have hplain := hall false false 0 ⟨qos, by omega⟩
    simpa [subscribeOptions] using hplain
  | some p =>
    have hhandle := (h p rfl).retainHandle
    exact hall p.noLocalFlag p.retainAsPublishedFlag ⟨p.retainHandle, by omega⟩ ⟨qos, by omega⟩

theorem readSubscription_bytes {property : Option SubscribeProperty} {t : List UInt8 × ℕ}
    (hp : ∀ p, property = some p → p.InRange)
    (hfilter : SubscribeProperty.filter property t.1 ≠ [] ∧
      (SubscribeProperty.filter property t.1).length < 65536) (hqos : t.2 ≤ 2) (bs : List UInt8) :
    readSubscription (subscription5 property t ++ bs) =
      some ({ filter := SubscribeProperty.filter property t.1
              qos := t.2
              noLocal := (property.map SubscribeProperty.noLocalFlag).getD false
              retainAsPublished := (property.map SubscribeProperty.retainAsPublishedFlag).getD false
              retainHandling := (property.map SubscribeProperty.retainHandle).getD 0 }, bs) := by
  obtain ⟨h1,h2,h3,h4,h5⟩ := subscribeOptions_bits hqos hp
  have hhandle : (property.map SubscribeProperty.retainHandle).getD 0 ≤ 2 := by
    cases property with
    | none => exact Nat.zero_le 2
    | some p => exact (hp p rfl).retainHandle
  unfold readSubscription subscription5
  rw [List.append_assoc]
  simp only [counted_countedString hfilter.2, Option.bind_some, List.singleton_append,
    ByteReader.byte_cons, h2, h3, h4, h5]
  rw [if_pos ⟨h1, by omega, by omega, hfilter.1⟩]

/-- The identifier a call reports, where its packet has one. -/
def Outgoing5.Identified (id : ℕ) : Outgoing5 → Prop
  | .publish _ _ _ qos _ _ _ => (0 < qos → 1 ≤ id ∧ id < 65536) ∧ (qos = 0 → id = 0)
  | .subscribe _ _ | .unsubscribe _ _ => 1 ≤ id ∧ id < 65536
  | _ => True

theorem decodeSubscribe_body5 {topics : List (List UInt8 × ℕ)} {property : Option SubscribeProperty}
    {id : ℕ} (h : (Outgoing5.subscribe topics property).InRange) (h1 : 1 ≤ id) (h2 : id < 65536)
    (hlen : ((Outgoing5.subscribe topics property).body id).length < 128^4) :
    decodeSubscribe ((Outgoing5.subscribe topics property).body id) =
      some ((Outgoing5.subscribe topics property).packet id) := by
  obtain ⟨hsome,hp,htopics⟩ := h
  have hread : ∀ t ∈ topics, ∀ bs, readSubscription (subscription5 property t ++ bs) = some (_, bs) :=
    fun t ht => readSubscription_bytes hp
      (subscribe_filter_ok (htopics t ht).1 (htopics t ht).2.1 (htopics t ht).2.2.2) (htopics t ht).2.2.1
  have hmany := ByteReader.many_map readSubscription (subscription5 property) _ topics
    (topics.flatMap (subscription5 property)).length hread (fun t _ => by simp [subscription5])
    (flatMap_length_ge fun t _ => by simp [subscription5])
  have hblock : (blockBytes (SubscribeProperty.list property)).length < 128^4 := by
    have := blockBytes_le (SubscribeProperty.list property)
    simp only [Outgoing5.body, List.length_append] at hlen
    omega
  unfold decodeSubscribe
  simp only [Outgoing5.body, word_u16 h2, Option.bind_some,
    readProperties_of_block (subscribeList_blockOk hp) hblock, hmany, ofList_subscribeProperty]
  rw [if_pos ⟨by omega, by simpa using hsome⟩]
  rfl

theorem decodeUnsubscribe_body5 {topic : List UInt8} {property : Option UnsubscribeProperty} {id : ℕ}
    (h : (Outgoing5.unsubscribe topic property).InRange) (h1 : 1 ≤ id) (h2 : id < 65536)
    (hlen : ((Outgoing5.unsubscribe topic property).body id).length < 128^4) :
    decodeUnsubscribe ((Outgoing5.unsubscribe topic property).body id) =
      some ((Outgoing5.unsubscribe topic property).packet id) := by
  obtain ⟨hne,htopic,hp⟩ := h
  have hfilter := unsubscribe_filter_ok hne htopic fun p hpp => (hp p hpp).2
  generalize hf : UnsubscribeProperty.filter property topic = filter at hfilter
  have hread : ∀ t ∈ [filter], ∀ bs, Wire.readTopicFilter (countedString t ++ bs) = some (t, bs) := by
    intro t ht bs
    obtain rfl := List.mem_singleton.mp ht
    unfold Wire.readTopicFilter
    simp only [counted_countedString hfilter.2, Option.bind_some]
    rw [if_pos hfilter.1]
  have hmany := ByteReader.many_flatMap Wire.readTopicFilter countedString [filter]
    (countedString filter).length hread (fun t _ => by simp [countedString, u16])
    (by simp [countedString]; omega)
  simp only [List.flatMap_cons, List.flatMap_nil, List.append_nil] at hmany
  have hblock : (blockBytes (UnsubscribeProperty.list property)).length < 128^4 := by
    have := blockBytes_le (UnsubscribeProperty.list property)
    simp only [Outgoing5.body, List.length_append] at hlen
    omega
  unfold decodeUnsubscribe
  simp only [Outgoing5.body, word_u16 h2, Option.bind_some, hf, ofList_unsubscribeProperty, hmany,
    readProperties_of_block (unsubscribeList_blockOk fun p hpp => (hp p hpp).1) hblock]
  rw [if_pos ⟨by omega, by simp⟩]
  simp only [Outgoing5.packet, hf]

theorem decodeDisconnect_body5 {property : Option DisconnectProperty} (id : ℕ)
    (h : (Outgoing5.disconnect property).InRange)
    (hlen : ((Outgoing5.disconnect property).body id).length < 128^4) :
    decodeDisconnect ((Outgoing5.disconnect property).body id) =
      some ((Outgoing5.disconnect property).packet id) := by
  have hblock : (blockBytes (DisconnectProperty.list property)).length < 128^4 := by
    have := blockBytes_le (DisconnectProperty.list property)
    simp only [Outgoing5.body, List.length_cons] at hlen
    omega
  have hreason : ((property.map DisconnectProperty.disconnectReason).getD 0) < 256 := by
    cases property with
    | none => decide
    | some p => exact (h p rfl).disconnectReason
  have hbyte : (UInt8.ofNat ((property.map DisconnectProperty.disconnectReason).getD 0)).toNat =
      (property.map DisconnectProperty.disconnectReason).getD 0 := by
    rw [UInt8.toNat_ofNat']
    omega
  have hread := readProperties_of_block (disconnectList_blockOk h) hblock []
  rw [List.append_nil] at hread
  obtain ⟨b,bs,hb⟩ : ∃ b bs, block (DisconnectProperty.list property) = b :: bs := by
    apply List.exists_cons_of_ne_nil
    apply List.ne_nil_of_length_pos
    have := generateVariableLen_pos (blockBytes (DisconnectProperty.list property)).length
    unfold block
    rw [List.length_append]
    omega
  unfold decodeDisconnect readReason
  simp only [Outgoing5.body]
  rw [hb] at hread ⊢
  simp only [hread, Option.bind_some, if_true, Option.map_some, hbyte, ofList_disconnectProperty,
    Outgoing5.packet]

theorem decodePublish_body5 {topic : Option (List UInt8)} {d : CData} {len : ℤ} {qos retain id : ℕ}
    {property : Option PublishProperty} {respInfo : Option (List UInt8)}
    (h : (Outgoing5.publish topic d len qos retain property respInfo).InRange)
    (hid : (Outgoing5.publish topic d len qos retain property respInfo).Identified id)
    (hlen : ((Outgoing5.publish topic d len qos retain property respInfo).body id).length < 128^4) :
    decodePublish (headerByte .publish 0 qos retain)
      ((Outgoing5.publish topic d len qos retain property respInfo).body id) =
        some ((Outgoing5.publish topic d len qos retain property respInfo).packet id) := by
  obtain ⟨hsome,htopic,-,-,hqos,hretain,hp,hresp,-⟩ := h
  have hbyte : (headerByte .publish 0 qos retain).toNat = 48+qos*2+retain := by
    unfold headerByte
    rw [UInt8.toNat_ofNat']
    change (3 % 16*16+0 % 2*8+qos % 4*2+retain % 2) % 256 = _
    omega
  have hq : (48+qos*2+retain)/2 % 4 = qos := by omega
  have hd : ((48+qos*2+retain)/8 % 2 == 1) = false := by
    rw [beq_eq_false_iff_ne]
    omega
  have hr : ((48+qos*2+retain) % 2 == 1) = decide (retain % 2 = 1) := by
    have hmod : (48+qos*2+retain) % 2 = retain % 2 := by omega
    rw [hmod, beq_eq_decide]
  have hreadId (bs : List UInt8) : ByteReader.optional (decide (0 < qos)) ByteReader.word
      ((if 0 < qos then u16 id else []) ++ bs) = some (if 0 < qos then some id else none, bs) := by
    by_cases hpos : 0 < qos
    · simp [ByteReader.optional, hpos, word_u16 (hid.1 hpos).2]
    · simp [ByteReader.optional, hpos]
  have hname : ((given topic).getD []).length < 65536 := by
    cases hg : given topic with
    | none => simp
    | some t => exact given_carried htopic hg
  have hbody : (Outgoing5.publish topic d len qos retain property respInfo).body id =
      countedString ((given topic).getD []) ++ ((if 0 < qos then u16 id else []) ++
        (block (PublishProperty.list property respInfo) ++ d.slice 0 len.toNat)) := by
    simp only [Outgoing5.body, publishHead5, publishHead, countedString, List.append_assoc]
  have hblock : (blockBytes (PublishProperty.list property respInfo)).length < 128^4 := by
    have := blockBytes_le (PublishProperty.list property respInfo)
    rw [hbody] at hlen
    simp only [List.length_append] at hlen
    omega
  have hok := publishList_blockOk_plain hp hresp
  rw [hbody]
  unfold decodePublish
  simp only [hbyte, hq, hd, hr, counted_countedString hname, Option.bind_some, hreadId,
    readProperties_of_block hok hblock, ofList_publishProperty]
  have hcond : qos ≤ 2 ∧ (qos = 0 → True) ∧ (if 0 < qos then some id else none) ≠ some 0 ∧
      ((given topic).getD [] = [] →
        (PublishProperty.asked property respInfo).topicAlias.isSome = true) := by
    refine ⟨hqos, fun _ => trivial, ?_, fun hempty => ?_⟩
    · split
      · rename_i hpos
        have := (hid.1 hpos).1
        simp
        omega
      · simp
    · rcases hsome with hsome | hsome
      · obtain ⟨t,ht⟩ := Option.isSome_iff_exists.mp hsome
        rw [ht] at hempty
        have hne := (Option.filter_eq_some_iff.mp ht).2
        exact absurd hempty (by simpa using hne)
      · cases property with
        | none => exact absurd rfl hsome
        | some p => simpa [PublishProperty.asked, nonzero] using hsome
  rw [if_pos hcond]
  have hgetD : (if 0 < qos then some id else none).getD 0 = id := by
    split
    · rfl
    · rename_i hpos
      exact (hid.2 (by omega)).symm
  simp only [Outgoing5.packet, hgetD]

theorem readWill_body5 {topic message : List UInt8} {p : WillProperty} (hp : p.InRange)
    (hblock : (blockBytes p.list).length < 128^4) (h1 : topic.length < 65536)
    (h2 : message.length < 65536) (f : ℕ) (bs : List UInt8) :
    readWill f (block p.list ++ (countedString topic ++ countedString message) ++ bs) =
      some (⟨topic, message, f/8 % 4, f/32 % 2 == 1, p.asked⟩, bs) := by
  unfold readWill
  simp only [List.append_assoc, readProperties_of_block hp.blockOk hblock, Option.bind_some,
    counted_countedString h1, counted_countedString h2, Option.map_some, ofList_willProperty]

theorem decodeConnect_body5 {i : ConnectInfo} {property : ConnectionProperty}
    {willProperty : WillProperty} (h : (Outgoing5.connect i property willProperty).InRange) (id : ℕ)
    (hlen : ((Outgoing5.connect i property willProperty).body id).length < 128^4) :
    decodeConnect ((Outgoing5.connect i property willProperty).body id) =
      some ((Outgoing5.connect i property willProperty).packet id) := by
  obtain ⟨hclient,huser,hpass,htopic,hmsg,hqos,hkeep,hprop,hwillProp⟩ := h
  obtain ⟨hf,hclean,hwill,hfields,hu,hp,hok⟩ := flags_bits i hqos
  have hbyte : (UInt8.ofNat i.flags).toNat = i.flags := by rw [UInt8.toNat_ofNat']; omega
  have hok5 : connectFlagsOk i.flags = true := by
    unfold Wire.connectFlagsOk at hok
    unfold connectFlagsOk
    rw [Bool.and_eq_true] at hok
    exact hok.1
  have hcid : ((given i.clientId).getD []).length < 65536 := by
    cases hg : given i.clientId with
    | none => simp
    | some t => exact given_carried hclient hg
  have hbody : (Outgoing5.connect i property willProperty).body id =
      countedString Wire.protocolName ++ (5 :: UInt8.ofNat i.flags :: (u16 i.keepalive ++
        (block property.list ++ (countedString ((given i.clientId).getD []) ++
          (willBytes5 i willProperty ++ (optionalBytes i.sentUsername ++
            (optionalBytes (given i.password) ++ []))))))) := by
    simp only [Outgoing5.body, List.append_nil]
    rfl
  have hsize := hlen
  rw [hbody] at hsize
  simp only [List.length_append, List.length_cons] at hsize
  have hblock : (blockBytes property.list).length < 128^4 := by
    have := blockBytes_le property.list
    omega
  have hreadWill (bs : List UInt8) : ByteReader.optional (i.flags/4 % 2 == 1) (readWill i.flags)
      (willBytes5 i willProperty ++ bs) = some (i.sentWill.map fun w =>
        ⟨w.topic, w.message, w.qos, w.retain, willProperty.asked⟩, bs) := by
    rw [hwill]
    unfold willBytes5 ConnectInfo.sentWill at *
    cases hg : given i.willTopic with
    | none => rfl
    | some t =>
      have hf' := hfields (by simp [hg])
      have hwillBlock : (blockBytes willProperty.list).length < 128^4 := by
        have := blockBytes_le willProperty.list
        simp only [hg, Option.map_some, List.length_append] at hsize
        omega
      have hread := readWill_body5 hwillProp hwillBlock (given_carried htopic hg) hmsg i.flags bs
      simp only [ByteReader.optional, Option.isSome_some, if_true, Option.map_some, hread, hf'.1, hf'.2]
  have hreadUser := optional_counted (hu.trans (sentUsername_isSome i).symm) (sentUsername_carried huser)
  have hreadPass := optional_counted hp (fun t ht => given_carried hpass ht) []
  have hname := counted_countedString (s := Wire.protocolName) (by decide)
  rw [hbody]
  unfold decodeConnect
  simp only [hname, Option.bind_some, ByteReader.byte_cons, word_u16 hkeep,
    readProperties_of_block hprop.blockOk hblock, counted_countedString hcid, hbyte, hreadWill,
    hreadUser, hreadPass, ofList_connectionProperty]
  rw [if_pos (by simp [hok5]), hclean]
  rfl

/-- Every body in range is read back as the packet it stands for. -/
theorem decodeBody_outgoing5 {q : Outgoing5} {id : ℕ} (h : q.InRange) (hid : q.Identified id)
    (hlen : (q.body id).length < 128^4) : decodeBody q.first (q.body id) = some (q.packet id) := by
  unfold decodeBody
  cases q with
  | connect i property willProperty =>
    simp only [Outgoing5.first, headerByte_nibbles .connect (by decide : 0 < 4), MsgType.code,
      Nat.zero_mul]
    exact decodeConnect_body5 h id hlen
  | publish topic d len qos retain property respInfo =>
    simp only [Outgoing5.first, headerByte_publish_type]
    exact decodePublish_body5 h hid hlen
  | subscribe topics property =>
    simp only [Outgoing5.first, headerByte_nibbles .subscribe (by decide : 1 < 4), MsgType.code,
      Nat.one_mul]
    exact decodeSubscribe_body5 h hid.1 hid.2 hlen
  | unsubscribe topic property =>
    simp only [Outgoing5.first, headerByte_nibbles .unsubscribe (by decide : 1 < 4), MsgType.code,
      Nat.one_mul]
    exact decodeUnsubscribe_body5 h hid.1 hid.2 hlen
  | disconnect property =>
    simp only [Outgoing5.first, headerByte_nibbles .disconnect (by decide : 0 < 4), MsgType.code,
      Nat.zero_mul]
    exact decodeDisconnect_body5 id h hlen
  | puback id' =>
    simp only [Outgoing5.first, headerByte_nibbles .puback (by decide : 0 < 4), MsgType.code,
      Nat.zero_mul]
    exact decodeAck_body _ h.1 h.2
  | pubrec id' =>
    simp only [Outgoing5.first, headerByte_nibbles .pubrec (by decide : 0 < 4), MsgType.code,
      Nat.zero_mul]
    exact decodeAck_body _ h.1 h.2
  | pubrel id' =>
    simp only [Outgoing5.first, headerByte_nibbles .pubrel (by decide : 1 < 4), MsgType.code,
      Nat.one_mul]
    exact decodeAck_body _ h.1 h.2
  | pubcomp id' =>
    simp only [Outgoing5.first, headerByte_nibbles .pubcomp (by decide : 0 < 4), MsgType.code,
      Nat.zero_mul]
    exact decodeAck_body _ h.1 h.2

/-! What a PUBLISH leaves in `outbound_message`. -/

theorem publish_body5_length (topic : Option (List UInt8)) (d : CData) (len : ℤ) (qos retain id : ℕ)
    (property : Option PublishProperty) (respInfo : Option (List UInt8)) :
    ((Outgoing5.publish topic d len qos retain property respInfo).body id).length =
      (publishHead5 topic qos id property respInfo).length+len.toNat := by
  simp only [Outgoing5.body, List.length_append, CData.slice_length]

theorem body5_length_eq (q : Outgoing5) (id id' : ℕ) : (q.body id).length = (q.body id').length := by
  cases q with
  | publish topic d len qos retain property respInfo =>
    rw [publish_body5_length, publish_body5_length, publishHead5_length_eq topic qos id id']
  | subscribe topics property => simp only [Outgoing5.body, List.length_append, u16_length]
  | unsubscribe topic property => simp only [Outgoing5.body, List.length_append, u16_length]
  | connect i property willProperty => rfl
  | disconnect property => rfl
  | puback i => rfl
  | pubrec i => rfl
  | pubrel i => rfl
  | pubcomp i => rfl

theorem fits5_iff (q : Outgoing5) (n id id' : ℕ) : q.Fits n id ↔ q.Fits n id' := by
  unfold Outgoing5.Fits
  rw [body5_length_eq q id id']

theorem fragmented5_iff (q : Outgoing5) (n id id' : ℕ) :
    q.Fragmented n id ↔ q.Fragmented n id' := by
  cases q with
  | publish topic d len qos retain property respInfo =>
    dsimp only [Outgoing5.Fragmented]
    rw [body5_length_eq _ id id', publishHead5_length_eq topic qos id id']
  | _ => exact Iff.rfl

theorem appendPayload5_cases (c : Connection) (d : CData) (len : ℤ) (acc : List UInt8) :
    ∃ c', ((c.bufferLength : ℤ) < 5+acc.length+len ∧
        appendPayload5 c d len acc = (acc ++ d.slice 0 (c.bufferLength-(5+acc.length)), c') ∧
        c'.outboundMessage.fragmentedMsgTotalLength = (len+(5+acc.length)).toNat ∧
        c'.outboundMessage.fragmentedMsgDataOffset = 5+acc.length) ∨
      (5+acc.length+len ≤ c.bufferLength ∧
        appendPayload5 c d len acc = (acc ++ d.slice 0 len.toNat, c') ∧
        c'.outboundMessage.fragmentedMsgTotalLength = 0) := by
  unfold appendPayload5
  dsimp only
  by_cases h : (c.bufferLength : ℤ) < 5+acc.length+len
  · rw [if_pos h]
    exact ⟨_, Or.inl ⟨h, rfl, rfl, rfl⟩⟩
  · rw [if_neg h]
    exact ⟨_, Or.inr ⟨not_lt.mp h, rfl, rfl⟩⟩

theorem publish_composed5 {s : Composer} {c : Connection} (hs : s.Sound c)
    {topic : Option (List UInt8)} {d : CData} {len : ℤ} {qos retain : ℕ}
    {property : Option PublishProperty} {respInfo : Option (List UInt8)}
    (htopic : (given topic).isSome ∨ (property.map PublishProperty.topicAlias).getD 0 ≠ 0)
    (hd : 0 ≤ len) (hnull : d.isNull = true → len = 0)
    (hint : 5+(((Outgoing5.publish topic d len qos retain property respInfo).body 0).length : ℤ) < 2^31) :
    let q := Outgoing5.publish topic d len qos retain property respInfo
    let r := q.composeIn s
    let id := (c.publishId qos).1
    let m := r.2.connection.outboundMessage
    (5+(publishHead5 topic qos id property respInfo).length ≤ c.bufferLength → r.1 = id) ∧
    (q.Fits c.bufferLength id → m.data = q.bytes id ∧ m.fragmentedMsgTotalLength = 0) ∧
    (q.Fragmented c.bufferLength id → m.data = q.cut c.bufferLength id ∧
      m.fragmentedMsgTotalLength = 5+(q.body id).length ∧
      (m.data.length : ℤ)-m.fragmentedMsgDataOffset =
        c.bufferLength-(5+(publishHead5 topic qos id property respInfo).length : ℕ)) ∧
    (¬ q.Fits c.bufferLength id → ¬ q.Fragmented c.bufferLength id → m.data = []) := by
  intro q r id m
  have hbody : (q.body id).length = (publishHead5 topic qos id property respInfo).length+len.toNat :=
    publish_body5_length topic d len qos retain id property respInfo
  have hint' : 5+((q.body id).length : ℤ) < 2^31 := by
    rw [body5_length_eq q id 0]
    exact hint
  obtain ⟨hframe,hbl⟩ := publishId_frame c qos
  rcases Composer.mqtt5MsgPublish_cases hs htopic hd hnull qos retain respInfo with
    ⟨hroom,hempty⟩ | ⟨hroom,hid,t,ht,hr⟩
  · -- not even header and properties fit
    refine ⟨fun hh => ?_, fun hfits => ?_, fun hcut => ?_, fun _ _ => hempty⟩
    · exact absurd hroom (not_lt.mpr hh)
    · have h1 := hfits.1
      change c.bufferLength < 5+(publishHead5 topic qos id property respInfo).length at hroom
      omega
    · exact absurd hroom (not_lt.mpr hcut.1)
  refine ⟨fun _ => hid, ?_⟩
  change 5+(publishHead5 topic qos id property respInfo).length ≤ c.bufferLength at hroom
  change Composer.Holds t (appendPayload5 (c.publishId qos).2 d len
    (publishHead5 topic qos id property respInfo)).2 _ at ht
  have hm : m = (t.mqtt5FiniMessage .publish 0 qos retain).connection.outboundMessage := by
    change r.2.connection.outboundMessage = _
    rw [← hr]
    rfl
  obtain ⟨c2,⟨hlong,hp,htotal,hoffset⟩ | ⟨hfit,hp,htotal⟩⟩ := appendPayload5_cases (c.publishId qos).2
    d len (publishHead5 topic qos id property respInfo)
  -- cut where the buffer ends: the length announced is that of the whole body
  · rw [hp, hbl] at ht
    rw [hbl] at hlong
    dsimp only at ht
    generalize hk : c.bufferLength-(5+(publishHead5 topic qos id property respInfo).length) = k at ht
    have htake : (q.body id).take (c.bufferLength-5) =
        publishHead5 topic qos id property respInfo ++ d.slice 0 k := by
      rw [← hk]
      exact take_payload hroom (by omega)
    have hrem : c2.outboundMessage.remainingLength
        (publishHead5 topic qos id property respInfo ++ d.slice 0 k) = ((q.body id).length : ℤ) := by
      unfold OutMessage.remainingLength
      rw [htotal, if_pos (by omega), Int.bmod_eq_of_le (by omega) (by omega)]
      omega
    have hfini := ht.mqtt5Fini (by rw [hrem]; omega) .publish 0 qos retain
    have hann := finiMessage_announced hrem .publish 0 qos retain
    have hdata := finiMessage_offset c2 .publish 0 qos retain
      (publishHead5 topic qos id property respInfo ++ d.slice 0 k)
    rw [hm, hfini]
    refine ⟨fun hfits => ?_, fun hcut => ?_, fun hno hno' => ?_⟩
    · have := hfits.1
      omega
    · have hshort : (q.body id).length < 128^4 := hcut.2.2
      have hcomposed := hann.1
      rw [if_pos hshort, ← htake] at hcomposed
      refine ⟨by rw [← htake]; exact hcomposed, by rw [hann.2, htotal]; omega, ?_⟩
      rw [hdata (by rw [← htake, hcomposed]; exact List.cons_ne_nil _ _), hoffset,
        List.length_append, CData.slice_length]
      omega
    · have hlong' : c.bufferLength < 5+(q.body id).length := by omega
      rw [hann.1]
      exact if_neg fun hshort => hno' ⟨hroom, hlong', hshort⟩
  -- all of the payload is in the buffer
  · rw [hp] at ht
    rw [hbl] at hfit
    have hwhole : publishHead5 topic qos id property respInfo ++ d.slice 0 len.toNat = q.body id := rfl
    dsimp only at ht
    rw [hwhole] at ht
    have hrem : c2.outboundMessage.remainingLength (q.body id) = ((q.body id).length : ℤ) :=
      Composer.remainingLength_fresh htotal
    have hfini := ht.mqtt5Fini (by rw [hrem]; omega) .publish 0 qos retain
    have hann := finiMessage_announced hrem .publish 0 qos retain
    rw [hm, hfini]
    refine ⟨fun hfits => ?_, fun hcut => ?_, fun hno _ => ?_⟩
    · exact ⟨by rw [hann.1]; exact if_pos hfits.2, by rw [hann.2, htotal]⟩
    · have hlong' : c.bufferLength < 5+(q.body id).length := hcut.2.1
      omega
    · rw [hann.1]
      exact if_neg fun hshort => hno ⟨by omega, hshort⟩

/-! All calls. -/

/-- The packet a call leaves: all of it if it fits, its beginning if it is a PUBLISH
to be sent in parts, else nothing. -/
theorem compose5_spec {q : Outgoing5} {s : Composer} {c : Connection} (hs : s.Sound c)
    (h16 : 16 ≤ c.bufferLength) (hc : c.outboundMessage.fragmentedMsgTotalLength = 0)
    (hrange : q.InRange) :
    let r := q.composeIn s
    let m := r.2.connection.outboundMessage
    (q.Fits c.bufferLength r.1 → q.Identified r.1 ∧ m.data = q.bytes r.1) ∧
    (q.Fragmented c.bufferLength r.1 → q.Identified r.1 ∧ m.data = q.cut c.bufferLength r.1 ∧
      m.fragmentedMsgTotalLength = 5+(q.body r.1).length) ∧
    (¬ q.Fits c.bufferLength r.1 → ¬ q.Fragmented c.bufferLength r.1 → m.data = []) := by
  intro r m
  -- a call that composes all of its packet or nothing
  have hother (id : ℕ) (hnot : ¬ q.Fragmented c.bufferLength r.1) (hid : q.Identified r.1)
      (hbody : q.body id = q.body r.1)
      (hdata : m.data = if 5+(q.body id).length ≤ c.bufferLength ∧ (q.body id).length < 128^4 then
        q.first :: (Base128.encode 3 (q.body id).length ++ q.body id) else []) :
      (q.Fits c.bufferLength r.1 → q.Identified r.1 ∧ m.data = q.bytes r.1) ∧
      (q.Fragmented c.bufferLength r.1 → q.Identified r.1 ∧ m.data = q.cut c.bufferLength r.1 ∧
        m.fragmentedMsgTotalLength = 5+(q.body r.1).length) ∧
      (¬ q.Fits c.bufferLength r.1 → ¬ q.Fragmented c.bufferLength r.1 → m.data = []) := by
    rw [hbody] at hdata
    refine ⟨fun hfits => ⟨hid, ?_⟩, fun hcut => absurd hcut hnot, fun hno _ => ?_⟩
    · rw [hdata]
      exact if_pos hfits
    · rw [hdata]
      exact if_neg hno
  -- only a PUBLISH can be sent in parts
  cases q with
  | connect i property willProperty =>
    exact hother 0 id trivial rfl (Composer.mqtt5MsgConnect_data hs hc i property willProperty)
  | publish topic d len qos retain property respInfo =>
    obtain ⟨htopic,-,hd,hnull,-,-,-,-,hint⟩ := hrange
    obtain ⟨h1,h2,h3,h4⟩ := publish_composed5 hs htopic hd hnull hint
    have hlen := publish_body5_length topic d len qos retain (c.publishId qos).1 property respInfo
    refine ⟨fun hfits => ?_, fun hcut => ?_, fun hno hno' => ?_⟩
    · have hfits' := (fits5_iff _ _ _ (c.publishId qos).1).mp hfits
      have hle := hfits'.1
      have hid : r.1 = (c.publishId qos).1 := h1 (by omega)
      rw [hid]
      exact ⟨publishId_range c qos, (h2 hfits').1⟩
    · have hcut' := (fragmented5_iff _ _ _ (c.publishId qos).1).mp hcut
      have hid : r.1 = (c.publishId qos).1 := h1 hcut'.1
      rw [hid]
      exact ⟨publishId_range c qos, (h3 hcut').1, (h3 hcut').2.1⟩
    · exact h4 (fun hh => hno ((fits5_iff _ _ _ _).mp hh))
        (fun hh => hno' ((fragmented5_iff _ _ _ _).mp hh))
  | subscribe topics property =>
    obtain ⟨-,hp,htopics⟩ := hrange
    obtain ⟨h1,h2⟩ := Composer.mqtt5MsgSubscribe_data hs (by omega) hc hp fun t ht => (htopics t ht).1
    have hid : r.1 = (c.messageId 0).1 := h1
    exact hother _ id (by rw [hid]; exact messageId_range c) (by rw [hid]) h2
  | unsubscribe topic property =>
    obtain ⟨h1,h2⟩ := Composer.mqtt5MsgUnsubscribe_data hs (by omega) hc hrange.1 property
    have hid : r.1 = (c.messageId 0).1 := h1
    exact hother _ id (by rw [hid]; exact messageId_range c) (by rw [hid]) h2
  | disconnect property =>
    exact hother 0 id trivial rfl (Composer.mqtt5MsgDisconnect_data hs hc property)
  | puback i =>
    exact hother i id trivial rfl (Composer.mqtt5AckMessage_data hs (by omega) hc .puback 0 hrange.1)
  | pubrec i =>
    exact hother i id trivial rfl (Composer.mqtt5AckMessage_data hs (by omega) hc .pubrec 0 hrange.1)
  | pubrel i =>
    exact hother i id trivial rfl (Composer.mqtt5AckMessage_data hs (by omega) hc .pubrel 1 hrange.1)
  | pubcomp i =>
    exact hother i id trivial rfl (Composer.mqtt5AckMessage_data hs (by omega) hc .pubcomp 0 hrange.1)

/-- The blocks of properties in a packet. -/
def Outgoing5.blocks : Outgoing5 → List (List Property)
  | .connect i property willProperty =>
    property.list :: if i.sentWill.isSome then [willProperty.list] else []
  | .publish _ _ _ _ _ property respInfo => [PublishProperty.list property respInfo]
  | .subscribe _ property => [SubscribeProperty.list property]
  | .unsubscribe _ property => [UnsubscribeProperty.list property]
  | .disconnect property => [DisconnectProperty.list property]
  | .puback _ | .pubrec _ | .pubrel _ | .pubcomp _ => [[]]

/-- Each block stands in the body, behind its length. -/
theorem block_infix_body {q : Outgoing5} {ps : List Property} (h : ps ∈ q.blocks) (id : ℕ) :
    block ps <:+: q.body id := by
  have hmid (l r : List UInt8) : block ps <:+: l ++ (block ps ++ r) :=
    ⟨l, r, List.append_assoc l _ r⟩
  cases q with
  | connect i property willProperty =>
    rcases List.mem_cons.mp h with rfl | hwill
    · have hsplit := hmid ([0, 4, 0x4d, 0x51, 0x54, 0x54, 5] ++ UInt8.ofNat i.flags :: u16 i.keepalive)
      simp only [List.append_assoc, List.cons_append] at hsplit
      exact hsplit _
    · cases hw : i.sentWill with
      | none =>
        rw [hw] at hwill
        exact absurd hwill (by simp)
      | some w =>
        rw [hw] at hwill
        obtain rfl := List.mem_singleton.mp (by simpa using hwill)
        have hsplit := hmid ([0, 4, 0x4d, 0x51, 0x54, 0x54, 5] ++ UInt8.ofNat i.flags ::
          (u16 i.keepalive ++ (block property.list ++ countedString ((given i.clientId).getD []))))
        simp only [List.append_assoc, List.cons_append] at hsplit
        simp only [Outgoing5.body, willBytes5, hw, List.append_assoc, List.cons_append]
        exact hsplit _
  | publish topic d len qos retain property respInfo =>
    obtain rfl := List.mem_singleton.mp h
    simp only [Outgoing5.body, publishHead5, List.append_assoc]
    exact hmid _ _
  | subscribe topics property =>
    obtain rfl := List.mem_singleton.mp h
    exact hmid (u16 id) _
  | unsubscribe topic property =>
    obtain rfl := List.mem_singleton.mp h
    exact hmid (u16 id) _
  | disconnect property =>
    obtain rfl := List.mem_singleton.mp h
    exact (List.suffix_cons _ _).isInfix
  | puback i =>
    obtain rfl := List.mem_singleton.mp h
    exact hmid (u16 i ++ [0]) []
  | pubrec i =>
    obtain rfl := List.mem_singleton.mp h
    exact hmid (u16 i ++ [0]) []
  | pubrel i =>
    obtain rfl := List.mem_singleton.mp h
    exact hmid (u16 i ++ [0]) []
  | pubcomp i =>
    obtain rfl := List.mem_singleton.mp h
    exact hmid (u16 i ++ [0]) []

end EspMqtt
