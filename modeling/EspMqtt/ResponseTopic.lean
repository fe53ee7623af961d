import EspMqtt.Mqtt5RoundTrip

/-! The response topic of a PUBLISH to a server that has given response information. -/
namespace EspMqtt
open Wire (u16 u16_length)
open Wire5

/-! A PUBLISH that is encoded. -/

/-- What a call of `mqtt5_msg_publish` has to do with to leave a packet, and the packet it
leaves: all of it, or its beginning up to the end of the buffer. -/
theorem mqtt5MsgPublish_encoded {s : Composer} {c : Connection} (hs : s.Sound c)
    (hbuf : c.bufferLength < 2^31) {topic : Option (List UInt8)} {d : CData} {len : ℤ} {qos retain : ℕ}
    {property : Option PublishProperty} {respInfo : Option (List UInt8)} (hd : 0 ≤ len)
    (hint : len < 2^31) :
    let r := s.mqtt5MsgPublish topic d len qos retain property respInfo
    let head := publishHead5 topic qos r.1 property respInfo
    r.2.connection.outboundMessage.data ≠ [] →
      PublishAdmitted5 c.bufferLength topic d len qos property respInfo ∧
      head.length+len.toNat < 128^4 ∧ ∃ part, r.2.connection.outboundMessage.data =
        headerByte .publish 0 qos retain ::
          (Base128.encode 3 (head.length+len.toNat) ++ (head ++ part)) := by
  intro r head hne
  obtain ⟨-,hbl⟩ := publishId_frame c qos
  rcases Composer.mqtt5PublishBody_cases hs hd qos retain respInfo with
    ⟨-,-,t,ht⟩ | ⟨hyes,t,-,ht,hheld⟩
  · have hempty : r.2.connection.outboundMessage.data = [] := by
      change (s.mqtt5MsgPublish topic d len qos retain property respInfo).2.connection.outboundMessage.data = []
      rw [ht]
      rfl
    exact absurd hempty hne
  have hid : (c.publishId qos).1 = r.1 := (congrArg Prod.fst ht).symm
  have hr : r.2 = t.mqtt5FiniMessage .publish 0 qos retain := congrArg Prod.snd ht
  have hroom := hyes.room
  rw [publishHead5_length_eq topic qos 0 r.1] at hroom
  change 5+head.length ≤ c.bufferLength at hroom
  rw [hid] at hheld
  change Composer.Holds t (appendPayload5 (c.publishId qos).2 d len head).2
    (appendPayload5 (c.publishId qos).2 d len head).1 at hheld
  refine ⟨hyes, ?_⟩
  -- the length announced is the one of the whole body, unless an int does not hold it
  obtain ⟨part,c2,hp,hrem⟩ : ∃ part c2, appendPayload5 (c.publishId qos).2 d len head = (head ++ part, c2) ∧
      (c2.outboundMessage.remainingLength (head ++ part) = head.length+len ∨
        c2.outboundMessage.remainingLength (head ++ part) < 0) := by
    obtain ⟨c2,⟨hlong,hp,htotal,-⟩ | ⟨hfit,hp,htotal⟩⟩ := appendPayload5_cases (c.publishId qos).2 d len head
    · refine ⟨_, c2, hp, ?_⟩
      unfold OutMessage.remainingLength
      rw [htotal, if_pos (by omega)]
      have hsub : ((len+(5+head.length)).toNat : ℤ)-5 = head.length+len := by omega
      rw [hsub]
      by_cases hint' : (head.length : ℤ)+len < 2^31
      · left
        exact Int.bmod_eq_of_le (by omega) (by omega)
      · right
        rw [← Int.sub_bmod_right, Int.bmod_eq_of_le (by omega) (by omega)]
        omega
    · refine ⟨_, c2, hp, ?_⟩
      left
      rw [Composer.remainingLength_fresh htotal, List.length_append, CData.slice_length]
      push_cast
      omega
  rw [hp] at hheld
  have hdata := hheld.mqtt5Fini_data .publish 0 qos retain
  dsimp only at hdata
  rw [← hr] at hdata
  by_cases hok : 0 ≤ c2.outboundMessage.remainingLength (head ++ part) ∧
      c2.outboundMessage.remainingLength (head ++ part) < 128^4
  · rw [if_pos hok] at hdata
    have hwhole : c2.outboundMessage.remainingLength (head ++ part) = head.length+len :=
      hrem.resolve_right (by omega)
    rw [hwhole] at hok hdata
    have hnat : ((head.length : ℤ)+len).toNat = head.length+len.toNat := by omega
    rw [hnat] at hdata
    exact ⟨by omega, part, hdata⟩
  · rw [if_neg hok] at hdata
    exact absurd hdata hne

/-! The property. -/

/-- The properties that are appended before the response topic. -/
def PublishProperty.front (p : PublishProperty) : List Property :=
  flagProperty .payloadFormatIndicator p.payloadFormatIndicator ++
  (numberProperty .messageExpiryInterval p.messageExpiryInterval ++
  numberProperty .topicAlias p.topicAlias)

/-- The properties that are appended after it. -/
def PublishProperty.behind (p : PublishProperty) : List Property :=
  textProperty .correlationData (given p.correlationData) ++
  (userProperties p.userProperty ++
  textProperty .contentType p.contentType)

/-- A PUBLISH has this response topic: behind first byte, Remaining Length, topic, identifier
and Property Length stand the properties of `front`, then the identifier 8 and the counted
string. -/
def CarriesResponseTopic (data topic : List UInt8) (qos id : ℕ) (front : List Property)
    (value : List UInt8) : Prop :=
  ∃ first remaining properties rest, Base128.IsField remaining ∧ Base128.IsField properties ∧
    data = first :: (remaining ++ (publishHead topic qos id ++ (properties ++ (blockBytes front ++
      (0x08 :: (countedString value ++ rest))))))

/-- It is the only one there. -/
theorem CarriesResponseTopic.unique {data topic v w : List UInt8} {qos id : ℕ} {front : List Property}
    (h : CarriesResponseTopic data topic qos id front v)
    (h' : CarriesResponseTopic data topic qos id front w) (hv : v.length < 65536)
    (hw : w.length < 65536) : v = w := by
  obtain ⟨b,l,k,rest,hl,hk,h⟩ := h
  obtain ⟨b',l',k',rest',hl',hk',h'⟩ := h'
  rw [h, List.cons.injEq] at h'
  -- part by part from the front, each of which says itself where it ends
  obtain ⟨-,h1⟩ := hl.prefix_free hl' h'.2
  obtain ⟨-,h2⟩ := hk.prefix_free hk' (List.append_cancel_left h1)
  have h3 := List.append_cancel_left h2
  rw [List.cons.injEq] at h3
  have hread := congrArg ByteReader.counted h3.2
  rw [counted_countedString hv, counted_countedString hw] at hread
  exact (Prod.mk.inj (Option.some.inj hread)).1

/-- The last byte of the topic that was to be sent is not sent, and a NUL stands in its place. -/
theorem joinedResponseTopic_eq {responseTopic respInfo : List UInt8}
    (hfit : responseTopic.length+respInfo.length ≤ 65534) :
    joinedResponseTopic responseTopic respInfo =
      (responseTopic ++ 0x2f :: respInfo).dropLast ++ [0] := by
  have hlen : (responseTopic ++ 0x2f :: respInfo).length = responseTopic.length+respInfo.length+1 := by
    rw [List.length_append, List.length_cons]
    omega
  have hmod : (responseTopic.length+respInfo.length+1) % 65536 =
      responseTopic.length+respInfo.length+1 := Nat.mod_eq_of_lt (by omega)
  unfold joinedResponseTopic
  dsimp only
  rw [hmod, ← hlen, ← List.dropLast_eq_take]
  apply List.take_of_length_le
  rw [List.length_append, List.length_dropLast, List.length_singleton]
  omega

theorem joinedResponseTopic_length {responseTopic respInfo : List UInt8}
    (hfit : responseTopic.length+respInfo.length ≤ 65534) :
    (joinedResponseTopic responseTopic respInfo).length = responseTopic.length+respInfo.length+1 := by
  rw [joinedResponseTopic_eq hfit, List.length_append, List.length_dropLast, List.length_append,
    List.length_cons, List.length_singleton]
  omega

/-- A C string has no NUL, so the topic is never the one that was to be sent. -/
theorem joinedResponseTopic_ne {responseTopic respInfo : List UInt8} (hne : respInfo ≠ [])
    (hnul : 0 ∉ respInfo) (hfit : responseTopic.length+respInfo.length ≤ 65534) :
    joinedResponseTopic responseTopic respInfo ≠ responseTopic ++ 0x2f :: respInfo := by
  intro heq
  rw [joinedResponseTopic_eq hfit] at heq
  have hsent : ((responseTopic ++ 0x2f :: respInfo).dropLast ++ [0]).getLast? = some 0 := by simp
  obtain ⟨last,hlast⟩ := Option.isSome_iff_exists.mp (List.getLast?_isSome.mpr hne)
  have hasked : (responseTopic ++ 0x2f :: respInfo).getLast? = some last := by
    simp [List.getLast?_append, List.getLast?_cons, hlast]
  rw [heq, hasked] at hsent
  apply hnul
  rw [← Option.some.inj hsent]
  exact List.mem_of_getLast? hlast

theorem publishList_split {p : PublishProperty} {responseTopic respInfo : List UInt8}
    (htopic : p.responseTopic = some responseTopic) (hne : respInfo ≠ []) :
    PublishProperty.list (some p) (some respInfo) =
      p.front ++ ((.responseTopic, .text (joinedResponseTopic responseTopic respInfo)) :: p.behind) := by
  have hgiven : given (some respInfo) = some respInfo := by simp [given, hne]
  have hsent : sentResponseTopic p.responseTopic (some respInfo) =
      some (joinedResponseTopic responseTopic respInfo) := by
    unfold sentResponseTopic
    rw [htopic, hgiven]
    rfl
  unfold PublishProperty.list PublishProperty.front PublishProperty.behind
  dsimp only
  rw [hsent]
  simp only [textProperty, List.append_assoc, List.cons_append, List.nil_append]

/-- A PUBLISH that is encoded has the topic of `joinedResponseTopic`. -/
theorem joinedResponseTopic_carried {s : Composer} {c : Connection} (hs : s.Sound c)
    (hbuf : c.bufferLength < 2^31) {topic : Option (List UInt8)} {d : CData} {len : ℤ} {qos retain : ℕ}
    {p : PublishProperty} {responseTopic respInfo : List UInt8} (hd : 0 ≤ len) (hint : len < 2^31)
    (htopic : p.responseTopic = some responseTopic) (hne : respInfo ≠ []) :
    let r := s.mqtt5MsgPublish topic d len qos retain (some p) (some respInfo)
    r.2.connection.outboundMessage.data ≠ [] →
      CarriesResponseTopic r.2.connection.outboundMessage.data ((given topic).getD []) qos r.1 p.front
        (joinedResponseTopic responseTopic respInfo) := by
  intro r hdata
  obtain ⟨-,hlen,part,hpacket⟩ := mqtt5MsgPublish_encoded hs hbuf hd hint hdata
  have hcount : (blockBytes (PublishProperty.list (some p) (some respInfo))).length < 128^4 := by
    have hle := blockBytes_le (PublishProperty.list (some p) (some respInfo))
    unfold publishHead5 at hlen
    rw [List.length_append] at hlen
    omega
  have hproperty : Property.bytes (.responseTopic, .text (joinedResponseTopic responseTopic respInfo)) =
      0x08 :: countedString (joinedResponseTopic responseTopic respInfo) := rfl
  have hblock : block (PublishProperty.list (some p) (some respInfo)) =
      Base128.encode 3 (blockBytes (PublishProperty.list (some p) (some respInfo))).length ++
        (blockBytes p.front ++ (0x08 :: (countedString (joinedResponseTopic responseTopic respInfo) ++
          blockBytes p.behind))) := by
    unfold block
    rw [generateVariableLen_encode hcount]
    congr 1
    rw [publishList_split htopic hne, blockBytes_append]
    unfold blockBytes
    rw [List.flatMap_cons, hproperty, List.cons_append]
  generalize (publishHead5 topic qos _ (some p) (some respInfo)).length+len.toNat = n at hlen hpacket
  refine ⟨headerByte .publish 0 qos retain, _, _, blockBytes p.behind ++ part, Base128.isField_encode 3 _ hlen,
    Base128.isField_encode 3 _ hcount, ?_⟩
  rw [hpacket, publishHead5, hblock]
  simp only [List.append_assoc, List.cons_append]
  rfl

/-- Whenever a PUBLISH is encoded for a server that has given response information, its response
topic ends with a NUL in place of the last byte, and is not the topic that was to be sent. -/
theorem responseTopic_never_joined (s : Composer) (hs : s.Sound s.connection)
    (hbuf : s.connection.bufferLength < 2^31) (topic : Option (List UInt8)) (d : CData) (len : ℤ)
    (hd : 0 ≤ len) (hint : len < 2^31) (qos retain : ℕ) (p : PublishProperty)
    (responseTopic respInfo : List UInt8) (htopic : p.responseTopic = some responseTopic)
    (hne : respInfo ≠ []) (hnul : 0 ∉ respInfo)
    (hfit : responseTopic.length+respInfo.length ≤ 65534) :
    let r := s.mqtt5MsgPublish topic d len qos retain (some p) (some respInfo)
    let data := r.2.connection.outboundMessage.data
    data ≠ [] →
      CarriesResponseTopic data ((given topic).getD []) qos r.1 p.front
        ((responseTopic ++ 0x2f :: respInfo).dropLast ++ [0]) ∧
      ¬ CarriesResponseTopic data ((given topic).getD []) qos r.1 p.front
        (responseTopic ++ 0x2f :: respInfo) := by
  intro r data hdata
  have hcarried : CarriesResponseTopic data ((given topic).getD []) qos r.1 p.front
      (joinedResponseTopic responseTopic respInfo) :=
    joinedResponseTopic_carried hs hbuf hd hint htopic hne hdata
  have hsent : (joinedResponseTopic responseTopic respInfo).length < 65536 := by
    rw [joinedResponseTopic_length hfit]
    omega
  have hasked : (responseTopic ++ 0x2f :: respInfo).length < 65536 := by
    rw [List.length_append, List.length_cons]
    omega
  rw [← joinedResponseTopic_eq hfit]
  refine ⟨hcarried, fun h => ?_⟩
  exact joinedResponseTopic_ne hne hnul hfit (hcarried.unique h hsent hasked)

/-- A response topic of one byte. -/
def answerProperty : PublishProperty where
  payloadFormatIndicator := false
  messageExpiryInterval := 0
  topicAlias := 0
  responseTopic := some [0x72]
  correlationData := none
  contentType := none
  userProperty := none

/-- "r" and the response information "i" are sent as "r/" and a NUL. -/
theorem responseTopic_never_joined_short :
    let r := (freshComposer 64).mqtt5MsgPublish (some [0x74]) zeroData 0 0 0 (some answerProperty)
      (some [0x69])
    let data := r.2.connection.outboundMessage.data
    data ≠ [] ∧ CarriesResponseTopic data [0x74] 0 r.1 answerProperty.front [0x72, 0x2f, 0] ∧
      ¬ CarriesResponseTopic data [0x74] 0 r.1 answerProperty.front [0x72, 0x2f, 0x69] := by
  have hdata : ((freshComposer 64).mqtt5MsgPublish (some [0x74]) zeroData 0 0 0 (some answerProperty)
      (some [0x69])).2.connection.outboundMessage.data ≠ [] := by decide +kernel
  exact ⟨hdata, responseTopic_never_joined (freshComposer 64) ⟨rfl, rfl, by simp [freshComposer]⟩
    (by decide) (some [0x74]) zeroData 0 (by decide) (by decide) 0 0 answerProperty [0x72] [0x69] rfl
    (by decide) (by decide) (by decide) hdata⟩

/-- A PUBLISH is encoded, and its response topic is not "r/i". -/
theorem joined_topic_not_carried :
    let r := (freshComposer 64).mqtt5MsgPublish (some [0x74]) zeroData 5 1 0 (some answerProperty)
      (some [0x69])
    r.2.connection.outboundMessage.data ≠ [] ∧
      ¬ CarriesResponseTopic r.2.connection.outboundMessage.data [0x74] 1 r.1 answerProperty.front
        ([0x72] ++ 0x2f :: [0x69]) := by
  have hdata : ((freshComposer 64).mqtt5MsgPublish (some [0x74]) zeroData 5 1 0 (some answerProperty)
      (some [0x69])).2.connection.outboundMessage.data ≠ [] := by decide +kernel
  refine ⟨hdata, fun h => ?_⟩
  have hcarried := joinedResponseTopic_carried (s := freshComposer 64) (c := (freshComposer 64).connection)
    ⟨rfl, rfl, by simp [freshComposer]⟩ (by decide) (by decide) (by decide)
    (show answerProperty.responseTopic = some [0x72] from rfl) (by decide) hdata
  have heq := hcarried.unique h (by decide) (by decide)
  exact absurd heq (by decide)

end EspMqtt
