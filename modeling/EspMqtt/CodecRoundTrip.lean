import EspMqtt.CodecBuffer

/-! What the calls of `mqtt_msg.c` compose is what a reference decoder reads. -/
namespace EspMqtt
open Wire

/-! PUBLISH. -/

/-- The identifier of a PUBLISH and what drawing it leaves. -/
def Connection.publishId (c : Connection) (qos : ℕ) : ℕ × Connection :=
  if 0 < qos then c.messageId 0 else (0, c)

theorem publishId_frame (c : Connection) (qos : ℕ) :
    (c.publishId qos).2.outboundMessage = c.outboundMessage ∧
    (c.publishId qos).2.bufferLength = c.bufferLength := by
  unfold Connection.publishId
  split
  · exact messageId_frame c 0
  · exact ⟨rfl,rfl⟩

theorem publishId_range (c : Connection) (qos : ℕ) :
    (0 < qos → 1 ≤ (c.publishId qos).1 ∧ (c.publishId qos).1 < 65536) ∧
    (qos = 0 → (c.publishId qos).1 = 0) := by
  unfold Connection.publishId
  constructor
  · intro hq
    rw [if_pos hq]
    exact messageId_range c
  · intro hq
    rw [if_neg (by omega)]

/-- `mqtt_msg_publish` with a topic and a payload: nothing if the variable header
does not fit. -/
theorem mqttMsgPublish_eq {c : Connection} {topic : List UInt8} (hne : topic ≠ []) {d : CData}
    {len : ℤ} (hnull : ¬ (d.isNull = true ∧ 0 < len)) (qos retain : ℕ) :
    (c.bufferLength < 5+(publishHead topic qos (c.publishId qos).1).length ∧
      (mqttMsgPublish c (some topic) d len qos retain).1 = 0 ∧
      (mqttMsgPublish c (some topic) d len qos retain).2.outboundMessage.data = []) ∨
    (5+(publishHead topic qos (c.publishId qos).1).length ≤ c.bufferLength ∧
      mqttMsgPublish c (some topic) d len qos retain = ((c.publishId qos).1,
        let b := appendPayload (c.publishId qos).2 d len (publishHead topic qos (c.publishId qos).1)
        finiMessage b.2 .publish 0 qos retain b.1)) := by
  obtain ⟨b,bs,rfl⟩ := List.exists_cons_of_ne_nil hne
  have hlen := publishHead_length (b :: bs) qos (c.publishId qos).1
  unfold mqttMsgPublish appendString
  dsimp only
  by_cases htopic : c.bufferLength < 5+([] : List UInt8).length+(b :: bs).length+2
  · left
    rw [if_pos htopic]
    refine ⟨?_, rfl, rfl⟩
    rw [List.length_nil] at htopic
    omega
  rw [if_neg htopic]
  dsimp only
  rw [if_neg hnull]
  rw [List.length_nil] at htopic
  by_cases hq : 0 < qos
  · have hid : c.publishId qos = c.messageId 0 := if_pos hq
    have hhead : publishHead (b :: bs) qos (c.messageId 0).1 =
        [] ++ u16 (b :: bs).length ++ (b :: bs) ++ u16 (c.messageId 0).1 := by
      unfold publishHead
      rw [if_pos hq, List.nil_append]
    rw [hid] at hlen ⊢
    rw [if_pos hq] at hlen
    simp only [if_pos hq, appendMessageId]
    by_cases hroom : c.bufferLength < 5+([] ++ u16 (b :: bs).length ++ (b :: bs)).length+2
    · left
      rw [if_pos hroom]
      refine ⟨?_, rfl, rfl⟩
      simp only [List.length_append, List.length_nil, u16_length] at hroom
      omega
    · right
      rw [if_neg hroom]
      simp only [List.length_append, List.length_nil, u16_length] at hroom
      refine ⟨by omega, ?_⟩
      rw [hhead]
  · right
    have hid : c.publishId qos = (0, c) := if_neg hq
    have hhead : publishHead (b :: bs) qos 0 = [] ++ u16 (b :: bs).length ++ (b :: bs) := by
      unfold publishHead
      rw [if_neg hq, List.append_nil, List.nil_append]
    rw [hid] at hlen ⊢
    rw [if_neg hq] at hlen
    simp only [if_neg hq]
    refine ⟨by dsimp only at hlen; omega, ?_⟩
    rw [hhead]

/-- The beginning of a PUBLISH whose header fits and whose payload does not. -/
def Outgoing.cut (q : Outgoing) (bufferLength id : ℕ) : List UInt8 :=
  q.first :: (Base128.encode 3 (q.body id).length ++ (q.body id).take (bufferLength-5))

/-- A PUBLISH whose header fits and whose payload does not is sent in parts. -/
def Outgoing.Fragmented (bufferLength id : ℕ) : Outgoing → Prop
  | .publish topic d dataLength qos retain =>
    5+(publishHead topic qos id).length ≤ bufferLength ∧
    bufferLength < 5+((Outgoing.publish topic d dataLength qos retain).body id).length ∧
    ((Outgoing.publish topic d dataLength qos retain).body id).length < 128^4
  | _ => False

theorem publish_body_length (topic : List UInt8) (d : CData) (len : ℤ) (qos retain id : ℕ) :
    ((Outgoing.publish topic d len qos retain).body id).length =
      (publishHead topic qos id).length+len.toNat := by
  simp only [Outgoing.body, List.length_append, CData.slice_length]

/-- The part of a body that fits into a buffer of `n` bytes. -/
theorem take_payload {d : CData} {head : List UInt8} {n len : ℕ} (hhead : 5+head.length ≤ n)
    (hlong : n ≤ 5+head.length+len) :
    (head ++ d.slice 0 len).take (n-5) = head ++ d.slice 0 (n-(5+head.length)) := by
  have hsplit := d.slice_append 0 (n-(5+head.length)) (len-(n-(5+head.length)))
  rw [show n-(5+head.length)+(len-(n-(5+head.length))) = len by omega] at hsplit
  rw [← hsplit, ← List.append_assoc]
  apply List.take_left'
  rw [List.length_append, CData.slice_length]
  omega

/-- Where the payload begins in a message that `fini_message` has closed: as many bytes
of it are in the buffer as there was room for. -/
theorem finiMessage_offset (c : Connection) (type : MsgType) (dup qos retain : ℕ)
    (body : List UInt8) (h : (finiMessage c type dup qos retain body).outboundMessage.data ≠ []) :
    ((finiMessage c type dup qos retain body).outboundMessage.data.length : ℤ)-
      (finiMessage c type dup qos retain body).outboundMessage.fragmentedMsgDataOffset =
        5+body.length-c.outboundMessage.fragmentedMsgDataOffset := by
  obtain ⟨hfew,-,hmsg⟩ := finiMessage_composed h
  rw [hmsg]
  simp only [List.length_cons, List.length_append]
  push_cast
  ring

/-- What a PUBLISH leaves in `outbound_message`, with no fragment left over. -/
theorem publish_composed {c : Connection} {topic : List UInt8} {d : CData} {len : ℤ}
    {qos retain : ℕ} (hc : c.outboundMessage.fragmentedMsgTotalLength = 0)
    (hrange : (Outgoing.publish topic d len qos retain).InRange) :
    let q := Outgoing.publish topic d len qos retain
    let r := mqttMsgPublish c (some topic) d len qos retain
    let id := (c.publishId qos).1
    (5+(publishHead topic qos id).length ≤ c.bufferLength → r.1 = id) ∧
    (q.Fits c.bufferLength id → r.2.outboundMessage.data =
        q.first :: (Base128.encode 3 (q.body id).length ++ q.body id) ∧
      r.2.outboundMessage.fragmentedMsgTotalLength = 0) ∧
    (q.Fragmented c.bufferLength id → r.2.outboundMessage.data = q.cut c.bufferLength id ∧
      r.2.outboundMessage.fragmentedMsgTotalLength = 5+(q.body id).length ∧
      (r.2.outboundMessage.data.length : ℤ)-r.2.outboundMessage.fragmentedMsgDataOffset =
        c.bufferLength-(5+(publishHead topic qos id).length : ℕ)) ∧
    (¬ q.Fits c.bufferLength id → ¬ q.Fragmented c.bufferLength id →
      r.2.outboundMessage.data = []) := by
  intro q r id
  obtain ⟨hne,htopic,hlen,hnull,hqos,hretain,hint⟩ := hrange
  have hbody : (q.body id).length = (publishHead topic qos id).length+len.toNat :=
    publish_body_length topic d len qos retain id
  have hcall : mqttMsgPublish c (some topic) d len qos retain = r := rfl
  obtain ⟨hframe,hbl⟩ := publishId_frame c qos
  have hdata : ¬ (d.isNull = true ∧ 0 < len) := by
    rintro ⟨hn,hpos⟩
    have := hnull hn
    omega
  have hid : (c.publishId qos).1 = id := rfl
  have hcases := mqttMsgPublish_eq (c := c) hne hdata qos retain
  rw [hcall, hid] at hcases
  rcases hcases with ⟨hroom,h1,h2⟩ | ⟨hroom,h⟩
  · -- not even the header fits
    refine ⟨fun hh => by omega, fun hfits => ?_, fun hcut => ?_, fun _ _ => h2⟩
    · have := hfits.1
      omega
    · have := hcut.1
      omega
  have hr1 : r.1 = id := by rw [h]
  have hr2 := congrArg Prod.snd h
  dsimp only at hr2
  have hc1 : (c.publishId qos).2.outboundMessage.fragmentedMsgTotalLength = 0 := by
    rw [hframe]
    exact hc
  refine ⟨fun _ => hr1, ?_⟩
  -- a body that stands in the buffer as a whole
  have hwhole (c' : Connection) (hc' : c'.outboundMessage.fragmentedMsgTotalLength = 0)
      (hfit : 5+(q.body id).length ≤ c.bufferLength)
      (hr : r.2 = finiMessage c' .publish 0 qos retain (q.body id)) :
      (q.Fits c.bufferLength id → r.2.outboundMessage.data =
          q.first :: (Base128.encode 3 (q.body id).length ++ q.body id) ∧
        r.2.outboundMessage.fragmentedMsgTotalLength = 0) ∧
      (q.Fragmented c.bufferLength id → r.2.outboundMessage.data = q.cut c.bufferLength id ∧
        r.2.outboundMessage.fragmentedMsgTotalLength = 5+(q.body id).length ∧
        (r.2.outboundMessage.data.length : ℤ)-r.2.outboundMessage.fragmentedMsgDataOffset =
          c.bufferLength-(5+(publishHead topic qos id).length : ℕ)) ∧
      (¬ q.Fits c.bufferLength id → ¬ q.Fragmented c.bufferLength id →
        r.2.outboundMessage.data = []) := by
    have hrem : c'.outboundMessage.remainingLength (q.body id) = ((q.body id).length : ℤ) := by
      unfold OutMessage.remainingLength
      rw [if_neg (by simp [hc'])]
    have hann := finiMessage_announced hrem .publish 0 qos retain
    rw [hr, hann.1, hann.2]
    refine ⟨fun hfits => ⟨if_pos hfits.2, hc'⟩, fun hcut => ?_, fun hno _ => ?_⟩
    · have hlong : c.bufferLength < 5+(q.body id).length := hcut.2.1
      omega
    · exact if_neg fun hshort => hno ⟨hfit,hshort⟩
  -- no data, data that fits, or data that is cut where the buffer ends
  rcases appendPayload_cases (c.publishId qos).2 d len (publishHead topic qos id) with
    ⟨hn,hp⟩ | ⟨-,hfit,hp⟩ | ⟨-,hlong,hp⟩
  · have hzero : len.toNat = 0 := by
      have := hnull hn
      omega
    have hempty : publishHead topic qos id = q.body id := by
      change _ = publishHead topic qos id ++ d.slice 0 len.toNat
      rw [hzero]
      exact (List.append_nil _).symm
    rw [hp] at hr2
    dsimp only at hr2
    rw [hempty] at hr2
    exact hwhole _ hc1 (by omega) hr2
  · rw [hp] at hr2
    exact hwhole _ rfl (by omega) hr2
  · obtain ⟨hb1,hb2,hb3⟩ : (appendPayload (c.publishId qos).2 d len (publishHead topic qos id)).1 =
        publishHead topic qos id ++
          d.slice 0 ((c.publishId qos).2.bufferLength-(5+(publishHead topic qos id).length)) ∧
        (appendPayload (c.publishId qos).2 d len
          (publishHead topic qos id)).2.outboundMessage.fragmentedMsgTotalLength =
            (len+(5+(publishHead topic qos id).length)).toNat ∧
        (appendPayload (c.publishId qos).2 d len
          (publishHead topic qos id)).2.outboundMessage.fragmentedMsgDataOffset =
            5+(publishHead topic qos id).length := by
      rw [hp]
      exact ⟨rfl,rfl,rfl⟩
    rw [hb1, hbl] at hr2
    rw [hbl] at hlong
    generalize (appendPayload (c.publishId qos).2 d len (publishHead topic qos id)).2 = c2
      at hr2 hb2 hb3
    generalize hk : c.bufferLength-(5+(publishHead topic qos id).length) = k at hr2
    have htake : (q.body id).take (c.bufferLength-5) = publishHead topic qos id ++ d.slice 0 k := by
      rw [← hk]
      exact take_payload hroom (by omega)
    -- the length announced is that of the whole body
    have hrem : c2.outboundMessage.remainingLength (publishHead topic qos id ++ d.slice 0 k) =
        ((q.body id).length : ℤ) := by
      have hhead := publishHead_length topic qos id
      have hle : (if 0 < qos then 2 else 0) ≤ 2 := by split <;> omega
      unfold OutMessage.remainingLength
      rw [hb2, if_pos (by omega), Int.bmod_eq_of_le (by omega) (by omega)]
      omega
    have hann := finiMessage_announced hrem .publish 0 qos retain
    have hoff := finiMessage_offset c2 .publish 0 qos retain
      (publishHead topic qos id ++ d.slice 0 k)
    rw [← hr2, ← htake] at hann
    rw [← hr2] at hoff
    refine ⟨fun hfits => ?_, fun hcut => ?_, fun hno hno' => ?_⟩
    · have := hfits.1
      omega
    · have hshort : (q.body id).length < 128^4 := hcut.2.2
      have hdata := hann.1
      rw [if_pos hshort] at hdata
      refine ⟨hdata, by rw [hann.2]; omega, ?_⟩
      rw [hoff (by rw [hdata]; exact List.cons_ne_nil _ _), hb3, List.length_append,
        CData.slice_length]
      omega
    · have hlong' : c.bufferLength < 5+(q.body id).length := by omega
      rw [hann.1]
      exact if_neg fun hshort => hno' ⟨hroom, hlong', hshort⟩

/-! How long a packet is does not depend on its identifier. -/

theorem publishHead_length_eq (topic : List UInt8) (qos id id' : ℕ) :
    (publishHead topic qos id).length = (publishHead topic qos id').length := by
  rw [publishHead_length, publishHead_length]

theorem body_length_eq (q : Outgoing) (id id' : ℕ) : (q.body id).length = (q.body id').length := by
  cases q with
  | publish topic d len qos retain =>
    rw [publish_body_length, publish_body_length, publishHead_length_eq topic qos id id']
  | subscribe topics => simp only [Outgoing.body, List.length_append, u16_length]
  | unsubscribe topic => simp only [Outgoing.body, List.length_append, u16_length]
  | connect i => rfl
  | puback i => rfl
  | pubrec i => rfl
  | pubrel i => rfl
  | pubcomp i => rfl
  | pingreq => rfl
  | disconnect => rfl

theorem fits_iff (q : Outgoing) (n id id' : ℕ) : q.Fits n id ↔ q.Fits n id' := by
  unfold Outgoing.Fits
  rw [body_length_eq q id id']

theorem fragmented_iff (q : Outgoing) (n id id' : ℕ) : q.Fragmented n id ↔ q.Fragmented n id' := by
  cases q with
  | publish topic d len qos retain =>
    dsimp only [Outgoing.Fragmented]
    rw [body_length_eq _ id id', publishHead_length_eq topic qos id id']
  | _ => exact Iff.rfl

/-! All calls. -/

/-- The packet a call leaves: all of it if it fits, its beginning if it is a PUBLISH
to be sent in parts, else nothing. -/
theorem compose_spec {q : Outgoing} {c : Connection}
    (hc : c.outboundMessage.fragmentedMsgTotalLength = 0) (h5 : 5 ≤ c.bufferLength)
    (hrange : q.InRange) :
    let r := q.compose c
    (q.Fits c.bufferLength r.1 → q.Identified r.1 ∧ r.2.outboundMessage.data =
      q.first :: (Base128.encode 3 (q.body r.1).length ++ q.body r.1)) ∧
    (q.Fragmented c.bufferLength r.1 → q.Identified r.1 ∧
      r.2.outboundMessage.data = q.cut c.bufferLength r.1 ∧
      r.2.outboundMessage.fragmentedMsgTotalLength = 5+(q.body r.1).length) ∧
    (¬ q.Fits c.bufferLength r.1 → ¬ q.Fragmented c.bufferLength r.1 →
      r.2.outboundMessage.data = []) := by
  intro r
  have hother (hq : ∀ topic d len qos retain, q ≠ .publish topic d len qos retain)
      (hnot : ¬ q.Fragmented c.bufferLength r.1)
      (hid : q.Fits c.bufferLength r.1 → q.Identified r.1 ∧ q.body (c.messageId 0).1 = q.body r.1) :
      (q.Fits c.bufferLength r.1 → q.Identified r.1 ∧ r.2.outboundMessage.data =
        q.first :: (Base128.encode 3 (q.body r.1).length ++ q.body r.1)) ∧
      (q.Fragmented c.bufferLength r.1 → q.Identified r.1 ∧
        r.2.outboundMessage.data = q.cut c.bufferLength r.1 ∧
        r.2.outboundMessage.fragmentedMsgTotalLength = 5+(q.body r.1).length) ∧
      (¬ q.Fits c.bufferLength r.1 → ¬ q.Fragmented c.bufferLength r.1 →
        r.2.outboundMessage.data = []) := by
    have hframed : r.2.outboundMessage.data = q.framed c.bufferLength (c.messageId 0).1 :=
      compose_framed hc h5 hrange hq
    unfold Outgoing.framed at hframed
    rw [hframed]
    refine ⟨fun hfits => ?_, fun hcut => absurd hcut hnot, fun hno _ => ?_⟩
    · obtain ⟨h1,h2⟩ := hid hfits
      rw [if_pos ((fits_iff q _ _ _).mp hfits), h2]
      exact ⟨h1,rfl⟩
    · exact if_neg fun hfits => hno ((fits_iff q _ _ _).mp hfits)
  have hdrawn (hroom : 7 ≤ c.bufferLength) : (appendMessageId c [] 0).1 = (c.messageId 0).1 := by
    unfold appendMessageId
    rw [if_neg (by simp; omega)]
  cases q with
  | publish topic d len qos retain =>
    obtain ⟨h1,h2,h3,h4⟩ := publish_composed hc hrange
    have hbody := publish_body_length topic d len qos retain (c.publishId qos).1
    have hid (hhead : 5+(publishHead topic qos (c.publishId qos).1).length ≤ c.bufferLength) :
        r.1 = (c.publishId qos).1 := h1 hhead
    refine ⟨fun hfits => ?_, fun hcut => ?_, fun hno hno' => ?_⟩
    · have hfits' := (fits_iff _ _ _ (c.publishId qos).1).mp hfits
      have hle := hfits'.1
      rw [hid (by omega)]
      exact ⟨publishId_range c qos, (h2 hfits').1⟩
    · have hcut' := (fragmented_iff _ _ _ (c.publishId qos).1).mp hcut
      rw [hid hcut'.1]
      exact ⟨publishId_range c qos, (h3 hcut').1, (h3 hcut').2.1⟩
    · exact h4 (fun hh => hno ((fits_iff _ _ _ _).mp hh))
        (fun hh => hno' ((fragmented_iff _ _ _ _).mp hh))
  | subscribe topics =>
    refine hother (fun _ _ _ _ _ => Outgoing.noConfusion) id fun hfits => ?_
    have hle := hfits.1
    simp only [Outgoing.body, List.length_append, u16_length] at hle
    have hr : r.1 = (c.messageId 0).1 := hdrawn (by omega)
    rw [hr]
    exact ⟨messageId_range c, rfl⟩
  | unsubscribe topic =>
    refine hother (fun _ _ _ _ _ => Outgoing.noConfusion) id fun hfits => ?_
    have hle := hfits.1
    simp only [Outgoing.body, List.length_append, u16_length] at hle
    obtain ⟨b,bs,rfl⟩ := List.exists_cons_of_ne_nil hrange.1
    have hr : r.1 = (c.messageId 0).1 := hdrawn (by omega)
    rw [hr]
    exact ⟨messageId_range c, rfl⟩
  | _ => exact hother (fun _ _ _ _ _ => Outgoing.noConfusion) id fun _ => ⟨trivial,rfl⟩

/-! The client's own accessors read a PUBLISH back. -/

/-- The bytes `mqtt_get_publish_topic` points at. -/
def readTopic (data : List UInt8) : Option (List UInt8) :=
  (mqttGetPublishTopic data data.length).map fun r => (data.drop r.1).take r.2

/-- The bytes `mqtt_get_publish_data` points at; there are none at NULL. -/
def readPayload (data : List UInt8) : List UInt8 :=
  ((mqttGetPublishData data data.length).1.map fun i =>
    (data.drop i).take (mqttGetPublishData data data.length).2).getD []

/-- The accessors find the message `p` in a packet. -/
structure Recovered (data : List UInt8) (p : Publish) : Prop where
  total : (mqttGetTotalLength data data.length).1 = data.length
  topic : readTopic data = some p.topic
  payload : readPayload data = p.payload
  payload_length : (mqttGetPublishData data data.length).2 = p.payload.length
  id : mqttGetId data data.length = p.id
  type : mqttGetType (data.getD 0 0) = some .publish
  qos : mqttGetQos (data.getD 0 0) = p.qos
  dup : mqttGetDup (data.getD 0 0) = if p.dup then 1 else 0
  retain : mqttGetRetain (data.getD 0 0) = if p.retain then 1 else 0

theorem Wire.Publish.firstByte_ok (p : Publish) (h : p.WellFormed) : FirstByteOk p.firstByte := by
  have hall : ∀ (q : Fin 3) (d r : Bool), (q.val = 0 → d = false) → FirstByteOk
      (UInt8.ofNat (48+(if d then 8 else 0)+2*q.val+(if r then 1 else 0))) := by decide
  have hq := h.qos_le
  exact hall ⟨p.qos, by omega⟩ p.dup p.retain fun hz => (h.qos_zero hz).1

/-- The reference encoding of a message, as a packet. -/
def Wire.Publish.frame (p : Publish) (h : p.WellFormed) (hlen : p.body.length < 128^4) : Frame where
  first := p.firstByte
  lens := Base128.encode 3 p.body.length
  body := p.body
  first_ok := p.firstByte_ok h
  lens_ok := Base128.isField_encode 3 p.body.length hlen
  lens_le := Base128.encode_length_le 3 p.body.length
  body_length := (Base128.value_encode 3 p.body.length hlen).symm

theorem encoding_recovered (p : Publish) (h : p.WellFormed) (hne : p.topic ≠ [])
    (hlen : p.body.length < 128^4) : Recovered p.encoding p := by
  let f := p.frame h hlen
  have hbytes : f.bytes = p.encoding := rfl
  have hl : p.encoding.length = f.headerLength+(p.variableHeader.length+p.payload.length) := by
    rw [← hbytes, f.bytes_length]
    change f.headerLength+(p.variableHeader ++ p.payload).length = _
    rw [List.length_append]
  have hholds : HoldsPublish f p p.encoding p.encoding.length :=
    ⟨⟨h,rfl,rfl⟩, by rw [hbytes], by omega, by rw [hbytes]⟩
  have ht : 1 ≤ p.topic.length := List.length_pos_iff.mpr hne
  obtain ⟨hty,hqos,hdup,hretain⟩ := firstByte_fields p h.qos_le
  have hdata := hholds.getPublishData (hholds.beyond ht)
  have hsub : p.encoding.length-(f.headerLength+p.variableHeader.length) = p.payload.length := by omega
  rw [hsub] at hdata
  have hsize : (mqttGetPublishData p.encoding p.encoding.length).2 = p.payload.length := by rw [hdata]
  have hslice := hholds.payload_slice
  rw [hsub, List.take_length] at hslice
  exact
    { total := by
        have htot := mqttGetTotalLength_frame f p.encoding p.encoding.length (by omega) (by rw [hbytes])
        rw [htot, hbytes]
      topic := by
        unfold readTopic
        rw [hholds.getPublishTopic (hholds.beyond ht), Option.map_some, hholds.topic_slice]
      payload := by
        unfold readPayload
        rw [hdata]
        dsimp only
        split
        · -- an empty payload is NULL
          have hzero : p.payload.length = 0 := by omega
          exact (List.length_eq_zero_iff.mp hzero).symm
        · rw [Option.map_some, Option.getD_some, hslice]
      payload_length := hsize
      id := hholds.getId le_rfl (hholds.beyond ht)
      type := hty
      qos := hqos
      dup := hdup
      retain := hretain }

/-! The buffer keeps its length. -/

theorem compose_bufferLength {q : Outgoing} {c : Connection} (hrange : q.InRange) :
    (q.compose c).2.bufferLength = c.bufferLength := by
  have hack (type : MsgType) (qos id : ℕ) (hid : 1 ≤ id) :
      (ackMessage type qos c id).bufferLength = c.bufferLength := by
    rw [ackMessage_eq c type qos hid]
    exact finiOrFail_bufferLength c type qos _
  obtain ⟨-,hdrawn⟩ := messageId_frame c 0
  cases q with
  | connect i =>
    change (mqttMsgConnect c i).bufferLength = _
    rw [mqttMsgConnect_eq c i 0]
    exact finiOrFail_bufferLength c .connect 0 _
  | publish topic d len qos retain => exact mqttMsgPublish_bufferLength c (some topic) d len qos retain
  | subscribe topics =>
    change (mqttMsgSubscribe c topics).2.bufferLength = _
    rw [mqttMsgSubscribe_eq c fun t ht => (hrange t ht).1, finiOrFail_bufferLength, hdrawn]
  | unsubscribe topic =>
    change (mqttMsgUnsubscribe c (some topic)).2.bufferLength = _
    rw [mqttMsgUnsubscribe_eq c hrange.1, finiOrFail_bufferLength, hdrawn]
  | puback id => exact hack .puback 0 id hrange.1
  | pubrec id => exact hack .pubrec 0 id hrange.1
  | pubrel id => exact hack .pubrel 1 id hrange.1
  | pubcomp id => exact hack .pubcomp 0 id hrange.1
  | pingreq => exact finiMessage_bufferLength c .pingreq 0 0 0 []
  | disconnect => exact finiMessage_bufferLength c .disconnect 0 0 0 []

/-- A PUBLISH that fits is the reference encoding of its message. -/
theorem publish_encoding {q : Outgoing} {id : ℕ} (hrange : q.InRange) (hid : q.Identified id)
    {p : Publish} (hp : q.packet id = .publish p) :
    p.WellFormed ∧ p.topic ≠ [] ∧ p.body = q.body id ∧ q.first = p.firstByte := by
  cases q with
  | publish topic d len qos retain =>
    obtain ⟨hne,htopic,-,-,hqos,-,-⟩ := hrange
    obtain rfl := Packet.publish.inj hp
    exact ⟨⟨hqos, htopic, fun hz => ⟨rfl, hid.2 hz⟩, hid.1⟩, hne, rfl,
      headerByte_publish topic d len qos retain id hqos⟩
  | _ => exact Packet.noConfusion hp

/-- A call on the buffer: a packet that fits is read back by the reference decoder, and
a PUBLISH by the accessors as well; a PUBLISH whose header fits and whose payload does
not is left as its beginning; else nothing is returned. Only the buffer is written. -/
theorem codec_round_trip (q : Outgoing) (s : Composer)
    (hbuf : s.buffer.length = s.connection.bufferLength) (hw : s.written = [])
    (h5 : 5 ≤ s.connection.bufferLength)
    (hfrag : s.connection.outboundMessage.fragmentedMsgTotalLength = 0) (hrange : q.InRange) :
    let n := s.connection.bufferLength
    let r := q.composeIn s
    let m := r.2.connection.outboundMessage
    (q.Fits n r.1 → q.Identified r.1 ∧ decode m.data = some (q.packet r.1) ∧
      ∀ p, q.packet r.1 = .publish p → Recovered m.data p) ∧
    (q.Fragmented n r.1 → q.Identified r.1 ∧ m.data = q.cut n r.1 ∧
      m.fragmentedMsgTotalLength = 5+(q.body r.1).length) ∧
    (¬ q.Fits n r.1 → ¬ q.Fragmented n r.1 → m.data = []) ∧
    ∀ i ∈ r.2.written, i < n := by
  intro n r m
  have hs : s.Sound s.connection := ⟨rfl, hbuf, by simp [hw]⟩
  obtain ⟨h1,h2⟩ := composeIn_sound hs h5 hrange
  obtain ⟨hfits,hcut,hnone⟩ := compose_spec hfrag h5 hrange
  have hm : m = (q.compose s.connection).2.outboundMessage :=
    congrArg Connection.outboundMessage h2.connection
  have hid : (q.compose s.connection).1 = r.1 := h1.symm
  rw [← hm, hid] at hfits hcut hnone
  refine ⟨fun hf => ?_, hcut, hnone, ?_⟩
  · obtain ⟨hident,hdata⟩ := hfits hf
    refine ⟨hident, ?_, fun p hp => ?_⟩
    · rw [hdata, decode_framed _ _ hf.2]
      exact decodeBody_outgoing hrange hident
    · obtain ⟨hwf,hne,hbody,hfirst⟩ := publish_encoding hrange hident hp
      have henc : m.data = p.encoding := by
        rw [hdata, hfirst, ← hbody]
        rfl
      rw [henc]
      exact encoding_recovered p hwf hne (by rw [hbody]; exact hf.2)
  · intro i hi
    exact (h2.written i hi).trans_eq (compose_bufferLength hrange)

/-- A connection with a buffer of `n` bytes, before its first packet. -/
def freshComposer (n : ℕ) : Composer where
  connection := ⟨⟨[], 0, 0⟩, 0, n, true, []⟩
  buffer := List.replicate n 0
  length := 0
  written := []

/-- Data that is all zero. -/
def zeroData : CData := ⟨false, fun _ => 0, 0⟩

theorem codec_round_trip_publish :
    let q := Outgoing.publish [0x74] zeroData 5 1 1
    let r := q.composeIn (freshComposer 32)
    decode r.2.connection.outboundMessage.data = some (q.packet r.1) ∧ ∀ i ∈ r.2.written, i < 32 := by
  have hrange : (Outgoing.publish [0x74] zeroData 5 1 1).InRange := by
    refine ⟨by decide, by decide, by decide, by decide, by decide, by decide, by decide⟩
  have hall := codec_round_trip (.publish [0x74] zeroData 5 1 1) (freshComposer 32) rfl rfl (by decide)
    rfl hrange
  refine ⟨(hall.1 ?_).2.1, hall.2.2.2⟩
  decide +kernel

/-- A PUBLISH whose header fits a buffer of ten bytes and whose payload does not: some bytes
are returned, and they are not a packet. -/
theorem publish_cut_short :
    let q := Outgoing.publish [0x74] zeroData 5 0 0
    let r := q.composeIn (freshComposer 10)
    q.InRange ∧ r.2.connection.outboundMessage.data ≠ [] ∧
      decode r.2.connection.outboundMessage.data = none := by
  refine ⟨⟨by decide, by decide, by decide, by decide, by decide, by decide, by decide⟩, ?_⟩
  decide +kernel

end EspMqtt
