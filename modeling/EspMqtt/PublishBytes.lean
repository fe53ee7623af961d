import EspMqtt.ClientCore

/-! What `esp_mqtt_client_publish` puts on the wire. -/
namespace EspMqtt
open Wire World

/-! The Remaining Length of `fini_message`. -/

theorem encodedLens_encode (k n j : ℕ) (hn : n < 128^(k+1)) (hj : k < j) :
    encodedLens j (n : ℤ) = Base128.encode k n := by
  induction k generalizing n j with
  | zero =>
    obtain ⟨j,rfl⟩ := Nat.exists_eq_add_of_lt hj
    rw [show 0+j+1 = j+1 by omega, encodedLens, if_neg (by omega),
      Int.tmod_eq_emod_of_nonneg (by omega)]
    simp only [Base128.encode]
    congr 2
    omega
  | succ k ih =>
    obtain ⟨j,rfl⟩ := Nat.exists_eq_add_of_lt hj
    rw [encodedLens, Base128.encode]
    by_cases hs : n < 128
    · rw [if_neg (by omega), if_pos hs, Int.tmod_eq_emod_of_nonneg (by omega)]
      congr 2
      omega
    · have hd : (n : ℤ)/128 = ((n/128 : ℕ) : ℤ) := by omega
      rw [if_pos (by omega), if_neg hs, hd]
      rw [ih (n/128) (k+1+j) (by rw [Nat.div_lt_iff_lt_mul (by decide)]; rwa [pow_succ] at hn)
        (by omega)]
      congr 2

/-- A number that takes five bytes is the only one that is refused. -/
theorem encodedLens_five (total : ℤ) (h : 128^4 ≤ total) : 4 < (encodedLens 5 total).length := by
  have h1 : 128 ≤ total := by omega
  have h2 : 128 ≤ total/128 := by omega
  have h3 : 128 ≤ total/128/128 := by omega
  have h4 : 128 ≤ total/128/128/128 := by omega
  simp only [encodedLens, if_pos h1, if_pos h2, if_pos h3, if_pos h4]
  split <;> simp

/-! Writes that succeed. -/

/-- Everything the transport has taken, in order. -/
def World.bytesOut (w : World) : List UInt8 :=
  (w.wire.reverse.map fun c => c.data.take c.sent).flatten

/-- A write that succeeds sends the outbound message and changes nothing else. -/
theorem espMqttWrite_true {H : Handler} {site : Site} {first : Bool} {w w' : World}
    (h : espMqttWrite H site first w = (true, w')) :
    w' = {w with transport := w.writeOutcome.2.2, wire := w.chunk site first :: w.wire} ∧
      w.writeOutcome.2.1 = w.connection.outboundMessage.data.length := by
  unfold espMqttWrite at h
  cases hs : w.writeOutcome.1 with
  | timeout => simp [hs] at h
  | fail => simp [hs] at h
  | ok =>
    have hcut : w.isCut first = false := by simp [World.isCut, hs]
    simp only [hs, World.recordWrite, hcut, Bool.false_eq_true, if_false, Prod.mk.injEq,
      true_and] at h
    exact ⟨h.symm, writeLoop_ok _ _ _ (Nat.le_refl _) hs⟩

theorem espMqttWrite_bytesOut {H : Handler} {site : Site} {first : Bool} {w w' : World}
    (h : espMqttWrite H site first w = (true, w')) :
    w'.bytesOut = w.bytesOut ++ w.connection.outboundMessage.data ∧ w'.connection = w.connection := by
  obtain ⟨rfl,hn⟩ := espMqttWrite_true h
  simp [World.bytesOut, World.chunk, hn]

/-! The rest of a message that does not fit the buffer. -/

theorem dataSent_refilled (w : World) (piece : List UInt8)
    (h0 : w.connection.outboundMessage.fragmentedMsgDataOffset = 0) (hp : piece.length < 2^31) :
    (w.refill piece).dataSent = piece.length := by
  have hs : (w.refill piece).dataSent =
      Int.bmod ((piece.length : ℤ)-w.connection.outboundMessage.fragmentedMsgDataOffset) (2^32) := rfl
  rw [hs, h0, Int.sub_zero]
  exact Int.bmod_eq_of_le (by omega) (by omega)

/-- The loop behind the first round sends `remaining` bytes from `current` on. -/
theorem restLoop_bytesOut (H : Handler) (d : CData) (k : ℕ) (remaining current : ℤ) (w w' : World)
    (h0 : w.connection.outboundMessage.fragmentedMsgDataOffset = 0)
    (hb : 0 < w.connection.bufferLength) (hr : remaining < 2^31) (hk : remaining.toNat ≤ k)
    (h : restLoop H d k remaining current w = (true, w')) :
    w'.bytesOut = w.bytesOut ++ d.slice current remaining.toNat := by
  induction k generalizing remaining current w with
  | zero =>
    simp only [restLoop, Prod.mk.injEq, true_and] at h
    rw [← h, Nat.le_zero.mp hk]
    simp [CData.slice]
  | succ k ih =>
    unfold restLoop at h
    by_cases hpos : 0 < remaining
    · rw [if_pos hpos] at h
      dsimp only at h
      generalize hn : min w.connection.bufferLength remaining.toNat = n at h
      have hnl : (d.slice current n).length = n := d.slice_length current n
      generalize hw : espMqttWrite H .publish false (w.refill (d.slice current n)) = r at h
      obtain ⟨ok,w1⟩ := r
      cases ok with
      | false => simp at h
      | true =>
        obtain ⟨e1,e2⟩ := espMqttWrite_bytesOut hw
        have hsent : w1.dataSent = n := by
          have : w1.dataSent = (w.refill (d.slice current n)).dataSent := by
            unfold World.dataSent
            rw [e2]
          rw [this, dataSent_refilled w _ h0 (by omega), hnl]
        simp only [hsent] at h
        have hbl : w1.clearFragments.connection.bufferLength = w.connection.bufferLength := by
          change w1.connection.bufferLength = _
          rw [e2]
          rfl
        have hi := ih (remaining-n) (current+n) w1.clearFragments rfl (by omega) (by omega)
          (by omega) h
        rw [hi, show w1.clearFragments.bytesOut = w1.bytesOut from rfl, e1, List.append_assoc]
        congr 1
        rw [show remaining.toNat = n+(remaining-n).toNat by omega, ← CData.slice_append]
        rfl
    · rw [if_neg hpos] at h
      simp only [Prod.mk.injEq, true_and] at h
      rw [← h, show remaining.toNat = 0 by omega]
      simp [CData.slice]

/-- If anything remains behind the first round, more bytes go out. -/
theorem restLoop_more (H : Handler) (d : CData) (k : ℕ) (remaining current : ℤ) (w w' : World)
    (hb : 0 < w.connection.bufferLength) (h : restLoop H d k remaining current w = (true, w')) :
    ∃ l, w'.bytesOut = w.bytesOut ++ l ∧ (0 < remaining → 0 < k → l ≠ []) := by
  induction k generalizing remaining current w with
  | zero =>
    simp only [restLoop, Prod.mk.injEq, true_and] at h
    exact ⟨[], by rw [← h, List.append_nil], fun _ hk => absurd hk (lt_irrefl 0)⟩
  | succ k ih =>
    unfold restLoop at h
    by_cases hpos : 0 < remaining
    · rw [if_pos hpos] at h
      dsimp only at h
      generalize hn : min w.connection.bufferLength remaining.toNat = n at h
      generalize hw : espMqttWrite H .publish false (w.refill (d.slice current n)) = r at h
      obtain ⟨ok,w1⟩ := r
      cases ok with
      | false => simp at h
      | true =>
        obtain ⟨e1,e2⟩ := espMqttWrite_bytesOut hw
        have hbl : 0 < w1.clearFragments.connection.bufferLength := by
          change 0 < w1.connection.bufferLength
          rw [e2]
          exact hb
        obtain ⟨l,hl,-⟩ := ih _ _ w1.clearFragments hbl h
        refine ⟨d.slice current n ++ l, ?_, fun _ _ hnil => ?_⟩
        · rw [hl, show w1.clearFragments.bytesOut = w1.bytesOut from rfl, e1, List.append_assoc]
          rfl
        · have := congrArg List.length hnil
          simp only [List.length_append, CData.slice_length, List.length_nil] at this
          omega
    · rw [if_neg hpos] at h
      simp only [Prod.mk.injEq, true_and] at h
      exact ⟨[], by rw [← h, List.append_nil], fun hp => absurd hp hpos⟩

/-! The packet `mqtt_msg_publish` composes. -/

theorem finiMessage_composed {c : Connection} {type : MsgType} {dup qos retain : ℕ}
    {body : List UInt8} (h : (finiMessage c type dup qos retain body).outboundMessage.data ≠ []) :
    (encodedLens 5 (c.outboundMessage.remainingLength body)).length ≤ 4 ∧
    (finiMessage c type dup qos retain body).bufferLength = c.bufferLength ∧
    (finiMessage c type dup qos retain body).outboundMessage =
      ⟨headerByte type dup qos retain ::
          (encodedLens 5 (c.outboundMessage.remainingLength body) ++ body),
        c.outboundMessage.fragmentedMsgTotalLength,
        c.outboundMessage.fragmentedMsgDataOffset-
          (4-(encodedLens 5 (c.outboundMessage.remainingLength body)).length)⟩ := by
  unfold finiMessage at h ⊢
  dsimp only at h ⊢
  split at h
  · exact absurd rfl h
  · rename_i hlen
    rw [if_neg hlen]
    exact ⟨by omega, rfl, rfl⟩

theorem messageId_frame (c : Connection) (messageId : ℕ) :
    (c.messageId messageId).2.outboundMessage = c.outboundMessage ∧
    (c.messageId messageId).2.bufferLength = c.bufferLength := by
  unfold Connection.messageId
  split
  · exact ⟨rfl,rfl⟩
  · split <;> exact ⟨rfl,rfl⟩

/-- The variable header a PUBLISH of `topic` begins with. -/
def publishHead (topic : List UInt8) (qos id : ℕ) : List UInt8 :=
  u16 topic.length ++ topic ++ (if 0 < qos then u16 id else [])

theorem publishHead_length (topic : List UInt8) (qos id : ℕ) :
    (publishHead topic qos id).length = 2+topic.length+(if 0 < qos then 2 else 0) := by
  unfold publishHead
  split <;> simp only [List.length_append, u16_length, List.length_nil]

/-- A PUBLISH that could be composed: its header, then what `appendPayload` puts
behind it. -/
theorem mqttMsgPublish_composed {c c' : Connection} {topic : List UInt8} {d : CData} {len : ℤ}
    {qos retain id : ℕ} (h : mqttMsgPublish c (some topic) d len qos retain = (id, c'))
    (hd : c'.outboundMessage.data ≠ []) :
    topic ≠ [] ∧ ¬ (d.isNull = true ∧ 0 < len) ∧ (qos = 0 → id = 0) ∧
    5+(publishHead topic qos id).length ≤ c.bufferLength ∧
    ∃ c1 : Connection, c1.outboundMessage = c.outboundMessage ∧ c1.bufferLength = c.bufferLength ∧
      c' = finiMessage (appendPayload c1 d len (publishHead topic qos id)).2 .publish 0 qos retain
        (appendPayload c1 d len (publishHead topic qos id)).1 := by
  unfold mqttMsgPublish at h
  cases topic with
  | nil =>
    simp only [Prod.mk.injEq] at h
    rw [← h.2] at hd
    exact absurd rfl hd
  | cons b bs =>
    refine ⟨List.cons_ne_nil b bs, ?_⟩
    dsimp only at h
    generalize b :: bs = topic at h ⊢
    have hfail {x : ℕ} {y : Connection} (he : (x, failMessage y) = (id, c')) : False := by
      simp only [Prod.mk.injEq] at he
      rw [← he.2] at hd
      exact hd rfl
    unfold appendString at h
    split at h
    · exact (hfail (by simpa using h)).elim
    rename_i acc hacc
    split at hacc
    · simp at hacc
    rename_i hroom
    simp only [List.nil_append, Option.some.injEq] at hacc
    subst hacc
    split at h
    · exact (hfail h).elim
    rename_i hnull
    refine ⟨by simpa using hnull, ?_⟩
    -- with QoS 0 there is no identifier, else there must be room for one
    by_cases hq : 0 < qos
    · simp only [if_pos hq, appendMessageId] at h
      obtain ⟨f1,f2⟩ := messageId_frame c 0
      by_cases hid : c.bufferLength < 5+(u16 topic.length ++ topic).length+2
      · simp only [if_pos hid] at h
        exact (hfail h).elim
      · simp only [if_neg hid, Prod.mk.injEq] at h
        obtain ⟨h1,h2⟩ := h
        subst h1
        have hh : publishHead topic qos (c.messageId 0).1 =
            u16 topic.length ++ topic ++ u16 (c.messageId 0).1 := by
          unfold publishHead
          rw [if_pos hq]
        refine ⟨fun hz => by omega, ?_, (c.messageId 0).2, f1, f2, ?_⟩
        · rw [hh]
          simp only [List.length_append, u16_length] at hid ⊢
          omega
        · rw [hh]
          exact h2.symm
    · simp only [if_neg hq, Prod.mk.injEq] at h
      obtain ⟨h1,h2⟩ := h
      have hh : publishHead topic qos id = u16 topic.length ++ topic := by
        unfold publishHead
        rw [if_neg hq, List.append_nil]
      refine ⟨fun _ => h1.symm, ?_, c, rfl, rfl, ?_⟩
      · rw [hh]
        simp only [List.length_append, u16_length, List.length_nil] at hroom ⊢
        omega
      · rw [hh]
        exact h2.symm

/-- Composing and storing leave the packet in the outbound message. -/
theorem enqueuePublish_composed {w w1 : World} {topic : List UInt8} {d : CData} {len : ℤ}
    {qos retain id : ℕ} {store : Bool} (hv : w.isV5 = false)
    (h : w.mqttClientEnqueuePublish (some topic) d len qos retain store = (some id, w1)) :
    w1.wire = w.wire ∧ w1.state = w.state ∧ w1.isV5 = false ∧
    ∃ c, mqttMsgPublish w.connection (some topic) d len qos retain = (id, c) ∧
      c.outboundMessage.data ≠ [] ∧ w1.connection.bufferLength = c.bufferLength ∧
      w1.connection.outboundMessage.data = c.outboundMessage.data ∧
      w1.connection.outboundMessage.fragmentedMsgDataOffset =
        c.outboundMessage.fragmentedMsgDataOffset := by
  unfold mqttClientEnqueuePublish makePublish at h
  simp only [hv, Bool.false_eq_true, if_false] at h
  generalize mqttMsgPublish w.connection (some topic) d len qos retain = e at h
  obtain ⟨k,c⟩ := e
  dsimp only at h
  split at h
  · simp at h
  rename_i id' w2 hmake
  split at hmake
  · simp at hmake
  rename_i hne
  simp only [Prod.mk.injEq, Option.some.injEq] at hmake
  obtain ⟨rfl,rfl⟩ := hmake
  have hdata : c.outboundMessage.data ≠ [] := by
    intro hnil
    apply hne
    simp [World.nothingComposed, World.publishing, World.arising, hnil]
  split at h
  · split at h
    · obtain ⟨ok,n,t,a,o,m,heq,-⟩ := World.mqttEnqueue_eq _ []
      rw [heq] at h
      cases ok with
      | false => simp at h
      | true =>
        simp only [if_true, Prod.mk.injEq, Option.some.injEq] at h
        obtain ⟨rfl,rfl⟩ := h
        exact ⟨rfl, rfl, hv, c, rfl, hdata, rfl, rfl, rfl⟩
    · generalize hsl : d.slice _ _ = l at h
      obtain ⟨ok,n,t,a,o,m,heq,-⟩ := World.mqttEnqueue_eq _ l
      rw [heq] at h
      cases ok with
      | false => simp at h
      | true =>
        simp only [if_true, Prod.mk.injEq, Option.some.injEq] at h
        obtain ⟨rfl,rfl⟩ := h
        exact ⟨rfl, rfl, hv, c, rfl, hdata, rfl, rfl, rfl⟩
  · simp only [Prod.mk.injEq, Option.some.injEq] at h
    obtain ⟨rfl,rfl⟩ := h
    exact ⟨rfl, rfl, hv, c, rfl, hdata, rfl, rfl, rfl⟩

/-- A send that succeeds: the outbound message, and then what the first round
did not count as sent. -/
theorem sendPublish_bytesOut {H : Handler} {d : CData} {len : ℤ} {w w' : World}
    (h : sendPublish H d len w = (true, w')) (hb : 0 < w.connection.bufferLength) :
    (len ≤ w.dataSent → w'.bytesOut = w.bytesOut ++ w.connection.outboundMessage.data) ∧
    (w.dataSent < len → ∃ l, l ≠ [] ∧
      w'.bytesOut = w.bytesOut ++ w.connection.outboundMessage.data ++ l) ∧
    (len-w.dataSent < 2^31 → w'.bytesOut = w.bytesOut ++ w.connection.outboundMessage.data ++
      d.slice w.dataSent (len-w.dataSent).toNat) := by
  unfold sendPublish at h
  dsimp only at h
  generalize hw : espMqttWrite H .publish true (w.inChunk
    (decide (w.connection.outboundMessage.fragmentedMsgTotalLength ≠ 0))) = r at h
  obtain ⟨ok,w1⟩ := r
  cases ok with
  | false => simp at h
  | true =>
    obtain ⟨e1,e2⟩ := espMqttWrite_bytesOut hw
    have hsent : w1.dataSent = w.dataSent := by
      unfold World.dataSent
      rw [e2]
      rfl
    have hb1 : 0 < (w1.clearFragments.inChunk w.inFirstChunk).connection.bufferLength := by
      change 0 < w1.connection.bufferLength
      rw [e2]
      exact hb
    have hout : w1.bytesOut = w.bytesOut ++ w.connection.outboundMessage.data := e1
    simp only [hsent] at h
    obtain ⟨l,hl,hne⟩ := restLoop_more H d _ _ _ _ w' hb1 h
    have hexact (hr : len-w.dataSent < 2^31) :=
      restLoop_bytesOut H d _ _ _ _ w' rfl hb1 hr (Nat.le_refl _) h
    refine ⟨fun hle => ?_, fun hlt => ⟨l, hne (by omega) (by omega), ?_⟩, fun hr => ?_⟩
    · have hall := hexact (by omega)
      rw [show (len-w.dataSent).toNat = 0 by omega] at hall
      rw [hall, ← hout]
      exact List.append_nil _
    · rw [hl, ← hout]
      rfl
    · rw [hexact hr, ← hout]
      rfl

/-- A publish on a connected 3.1.1 client that reports success has composed a
packet and sent all of it. -/
theorem espMqttClientPublish_sent {H : Handler} {topic : Option (List UInt8)} {d : CData} {len ret : ℤ}
    {qos retain : ℕ} {w w' : World} (hc : w.state = .connected) (hv : w.isV5 = false)
    (h : espMqttClientPublish H topic d len qos retain w = (ret, w')) (hret : 0 ≤ ret)
    (hs : ∀ id w1, w.mqttClientEnqueuePublish topic d (effectiveLen d len) qos retain false =
      (some id, w1) → w1.state = w.state ∧ w1.isV5 = false) :
    ∃ id w1 w2, w.mqttClientEnqueuePublish topic d (effectiveLen d len) qos retain false =
        (some id, w1) ∧
      sendPublish H d (effectiveLen d len) w1 = (true, w2) ∧ ret = id ∧ w'.bytesOut = w2.bytesOut := by
  unfold espMqttClientPublish at h
  simp only [hv, Bool.false_eq_true, false_and, if_false] at h
  split at h
  · simp only [Prod.mk.injEq] at h
    omega
  generalize hen : w.mqttClientEnqueuePublish topic d (effectiveLen d len) qos retain false = e at h hs
  obtain ⟨oid,w1⟩ := e
  cases oid with
  | none =>
    simp only [Prod.mk.injEq] at h
    omega
  | some id =>
    obtain ⟨s1,s2⟩ := hs id w1 rfl
    have hnot : ¬ w1.state ≠ .connected := by
      rw [s1, hc]
      exact not_not.mpr rfl
    simp only [if_neg hnot, s2, Bool.false_eq_true, false_and, if_false] at h
    generalize hsend : sendPublish H d (effectiveLen d len) w1 = r at h
    obtain ⟨ok,w2⟩ := r
    cases ok with
    | false =>
      simp only [cannotPublish, Prod.mk.injEq] at h
      omega
    | true =>
      simp only [Prod.mk.injEq] at h
      refine ⟨id, w1, w2, rfl, hsend, h.1.symm, ?_⟩
      rw [← h.2]
      unfold World.published
      split
      · dsimp only
        have hcounted : (if w2.isV5 then {w2 with
            sendPublishPacketCount := w2.sendPublishPacketCount+1} else w2).bytesOut = w2.bytesOut := by
          split <;> rfl
        generalize (if w2.isV5 then _ else w2) = u at hcounted ⊢
        obtain ⟨n,l,ht⟩ := World.tick_eq (u.noteTraffic (.sent u.origin.call id))
        rw [ht]
        exact hcounted
      · rfl

/-! The packet on the wire against the reference encoding. -/

/-- The message a publish call is to send, with the identifier it got. -/
def calledPublish (topic : List UInt8) (d : CData) (len : ℤ) (qos retain id : ℕ) : Publish :=
  ⟨topic, d.slice 0 len.toNat, qos, decide (retain % 2 = 1), false, id⟩

theorem headerByte_publish (topic : List UInt8) (d : CData) (len : ℤ) (qos retain id : ℕ)
    (hq : qos ≤ 2) :
    headerByte .publish 0 qos retain = (calledPublish topic d len qos retain id).firstByte := by
  unfold headerByte Publish.firstByte calledPublish
  have hm : (MsgType.publish.code % 16)*16 = 48 := rfl
  rw [hm]
  congr 1
  rcases Nat.mod_two_eq_zero_or_one retain with hr | hr
  · simp only [hr, decide_eq_true_eq]
    simp
    omega
  · simp only [hr, decide_true, if_true]
    simp
    omega

theorem calledPublish_encoding (topic : List UInt8) (d : CData) (len : ℤ) (qos retain id : ℕ) :
    (calledPublish topic d len qos retain id).encoding =
      (calledPublish topic d len qos retain id).firstByte ::
        (Base128.encode 3 ((publishHead topic qos id).length+len.toNat) ++
          (publishHead topic qos id ++ d.slice 0 len.toNat)) := by
  have hbody : (calledPublish topic d len qos retain id).body =
      publishHead topic qos id ++ d.slice 0 len.toNat := rfl
  rw [Publish.encoding, hbody, List.length_append, CData.slice_length]

/-- What earlier messages left in the outbound message does not get in the way
of a publish with a header of `head` bytes: a message that does not fit the
buffer sets everything anew; one that fits relies on the data offset, and one
without data on the total length, too. -/
def PublishSafe (m : OutMessage) (bufferLength head : ℕ) (d : CData) (len : ℤ) : Prop :=
  if d.isNull then
    (m.fragmentedMsgTotalLength = 0 ∨
        Int.bmod ((m.fragmentedMsgTotalLength : ℤ)-5) (2^32) = head-5) ∧
      len ≤ Int.bmod (head-m.fragmentedMsgDataOffset) (2^32)
  else head+len ≤ bufferLength → len ≤ Int.bmod (head+len-m.fragmentedMsgDataOffset) (2^32)

instance (m : OutMessage) (bufferLength head : ℕ) (d : CData) (len : ℤ) :
    Decidable (PublishSafe m bufferLength head d len) := by
  unfold PublishSafe
  infer_instance

/-- A leftover total length, if any, is that of a message below 2 GiB. -/
def LeftoverSane (m : OutMessage) : Prop :=
  m.fragmentedMsgTotalLength ≠ 0 →
    5 ≤ m.fragmentedMsgTotalLength ∧ m.fragmentedMsgTotalLength < 2^31

theorem LeftoverSane.remainingLength_nonneg {m : OutMessage} (h : LeftoverSane m)
    (body : List UInt8) : 0 ≤ m.remainingLength body := by
  unfold OutMessage.remainingLength
  split
  · rename_i hne
    obtain ⟨h1,h2⟩ := h hne
    rw [Int.bmod_eq_of_le (by omega) (by omega)]
    omega
  · omega

theorem OutMessage.dataSent_composed {m : OutMessage} {b : UInt8} {lens body : List UInt8} {offset : ℤ}
    (hd : m.data = b :: (lens ++ body)) (ho : m.fragmentedMsgDataOffset = offset-(4-lens.length)) :
    m.dataSent = Int.bmod (5+body.length-offset) (2^32) := by
  unfold OutMessage.dataSent
  rw [hd, ho]
  congr 1
  simp only [List.length_cons, List.length_append]
  omega

theorem dataSent_composed {w : World} {b : UInt8} {lens body : List UInt8} {offset : ℤ}
    (hd : w.connection.outboundMessage.data = b :: (lens ++ body))
    (ho : w.connection.outboundMessage.fragmentedMsgDataOffset = offset-(4-lens.length)) :
    w.dataSent = Int.bmod (5+body.length-offset) (2^32) := OutMessage.dataSent_composed hd ho

/-- The three ways `appendPayload` goes. -/
theorem appendPayload_cases (c : Connection) (d : CData) (len : ℤ) (head : List UInt8) :
    (d.isNull = true ∧ appendPayload c d len head = (head, c)) ∨
    (d.isNull = false ∧ 5+head.length+len ≤ c.bufferLength ∧
      appendPayload c d len head = (head ++ d.slice 0 len.toNat,
        {c with outboundMessage := {c.outboundMessage with fragmentedMsgTotalLength := 0}})) ∨
    (d.isNull = false ∧ (c.bufferLength : ℤ) < 5+head.length+len ∧
      appendPayload c d len head = (head ++ d.slice 0 (c.bufferLength-(5+head.length)),
        {c with outboundMessage := {c.outboundMessage with
          fragmentedMsgDataOffset := 5+head.length
          fragmentedMsgTotalLength := (len+(5+head.length)).toNat}})) := by
  unfold appendPayload
  cases hn : d.isNull with
  | true => exact Or.inl ⟨rfl,rfl⟩
  | false =>
    by_cases hfit : (c.bufferLength : ℤ) < 5+head.length+len
    · right; right
      refine ⟨rfl, hfit, ?_⟩
      simp only [Bool.false_eq_true, if_false, if_pos hfit]
    · right; left
      refine ⟨rfl, by omega, ?_⟩
      simp only [Bool.false_eq_true, if_false, if_neg hfit]

theorem finiMessage_bufferLength (c : Connection) (type : MsgType) (dup qos retain : ℕ)
    (body : List UInt8) : (finiMessage c type dup qos retain body).bufferLength = c.bufferLength := by
  unfold finiMessage
  dsimp only
  split <;> rfl

theorem finiOrFail_bufferLength (c : Connection) (type : MsgType) (qos : ℕ)
    (body : Option (List UInt8)) : (finiOrFail c type qos body).bufferLength = c.bufferLength := by
  cases body with
  | none => rfl
  | some body => exact finiMessage_bufferLength c type 0 qos 0 body

theorem mqttMsgPublish_bufferLength (c : Connection) (topic : Option (List UInt8)) (d : CData)
    (len : ℤ) (qos retain : ℕ) :
    (mqttMsgPublish c topic d len qos retain).2.bufferLength = c.bufferLength := by
  have happend (c : Connection) (acc : List UInt8) :
      (appendPayload c d len acc).2.bufferLength = c.bufferLength := by
    rcases appendPayload_cases c d len acc with ⟨-,h⟩ | ⟨-,-,h⟩ | ⟨-,-,h⟩ <;> rw [h]
  have hdrawn (acc : List UInt8) :
      (if 0 < qos then appendMessageId c acc 0 else (0, some acc, c)).2.2.bufferLength =
        c.bufferLength := by
    split
    · unfold appendMessageId
      dsimp only
      split <;> exact (messageId_frame c 0).2
    · rfl
  unfold mqttMsgPublish
  split
  · rfl
  · rfl
  · split
    · rfl
    · split
      · rfl
      · dsimp only
        split
        · exact hdrawn _
        · rw [finiMessage_bufferLength, happend, hdrawn]

/-- A message that does not fit goes out whole, whatever was left behind. -/
theorem sendPublish_fragmented {H : Handler} {topic : List UInt8} {d : CData} {len : ℤ}
    {qos retain id : ℕ} {w w' : World} (hq : qos ≤ 2) (hsend : sendPublish H d len w = (true, w'))
    (hhead : 5+(publishHead topic qos id).length ≤ w.connection.bufferLength)
    (hbig : (publishHead topic qos id).length+len.toNat < 128^4)
    (hlong : (w.connection.bufferLength : ℤ) < 5+(publishHead topic qos id).length+len)
    {lens : List UInt8} (hlens : lens = Base128.encode 3 ((publishHead topic qos id).length+len.toNat))
    (hdata : w.connection.outboundMessage.data = headerByte .publish 0 qos retain ::
      (lens ++ (publishHead topic qos id ++
        d.slice 0 (w.connection.bufferLength-(5+(publishHead topic qos id).length)))))
    (hoff : w.connection.outboundMessage.fragmentedMsgDataOffset =
      (5+(publishHead topic qos id).length : ℤ)-(4-lens.length)) :
    w'.bytesOut = w.bytesOut ++ (calledPublish topic d len qos retain id).encoding := by
  generalize hn : w.connection.bufferLength-(5+(publishHead topic qos id).length) = n at hdata
  have hsent : w.dataSent = n := by
    rw [dataSent_composed hdata hoff]
    simp only [List.length_append, CData.slice_length]
    rw [show (5+((publishHead topic qos id).length+n : ℕ) : ℤ)-
      (5+(publishHead topic qos id).length) = n by omega]
    exact Int.bmod_eq_of_le (by omega) (by omega)
  obtain ⟨-,-,hall⟩ := sendPublish_bytesOut hsend (by omega)
  rw [hall (by omega), hsent, hdata, calledPublish_encoding, ← headerByte_publish _ _ _ _ _ _ hq,
    hlens, List.append_assoc]
  congr 1
  rw [List.cons_append, List.append_assoc, List.append_assoc]
  congr 3
  have hsl := d.slice_append 0 n (len-n).toNat
  rw [Int.zero_add] at hsl
  rw [hsl]
  congr 1
  omega

/-- A message that fits: its encoding, and more if the data offset is off. -/
theorem sendPublish_fitting {H : Handler} {topic : List UInt8} {d : CData} {len offset : ℤ}
    {qos retain id : ℕ} {w w' : World} (hq : qos ≤ 2) (hsend : sendPublish H d len w = (true, w'))
    (hb : 0 < w.connection.bufferLength) (hlen : 0 ≤ len)
    {lens : List UInt8} (hlens : lens = Base128.encode 3 ((publishHead topic qos id).length+len.toNat))
    (hdata : w.connection.outboundMessage.data = headerByte .publish 0 qos retain ::
      (lens ++ (publishHead topic qos id ++ d.slice 0 len.toNat)))
    (hoff : w.connection.outboundMessage.fragmentedMsgDataOffset = offset-(4-lens.length)) :
    w'.bytesOut = w.bytesOut ++ (calledPublish topic d len qos retain id).encoding ↔
      len ≤ Int.bmod (((5+(publishHead topic qos id).length : ℕ) : ℤ)+len-offset) (2^32) := by
  have henc : w.connection.outboundMessage.data =
      (calledPublish topic d len qos retain id).encoding := by
    rw [hdata, calledPublish_encoding, ← headerByte_publish _ _ _ _ _ _ hq, hlens]
  have hsent : w.dataSent =
      Int.bmod (((5+(publishHead topic qos id).length : ℕ) : ℤ)+len-offset) (2^32) := by
    rw [dataSent_composed hdata hoff]
    congr 1
    simp only [List.length_append, CData.slice_length]
    omega
  obtain ⟨h1,h2,-⟩ := sendPublish_bytesOut hsend hb
  rw [← hsent, ← henc]
  constructor
  · intro heq
    by_contra hlt
    obtain ⟨l,hne,hl⟩ := h2 (by omega)
    rw [hl] at heq
    exact hne (by simpa using heq)
  · exact h1

/-- A message without data: the header, under a Remaining Length that may be a
leftover. -/
theorem sendPublish_null {H : Handler} {topic : List UInt8} {d : CData} {len offset total : ℤ}
    {qos retain id : ℕ} {w w' : World} (hq : qos ≤ 2) (hsend : sendPublish H d len w = (true, w'))
    (hb : 0 < w.connection.bufferLength) (hlen : len ≤ 0)
    (hbig : (publishHead topic qos id).length < 128^4)
    (hfew : (encodedLens 5 total).length ≤ 4)
    (hdata : w.connection.outboundMessage.data = headerByte .publish 0 qos retain ::
      (encodedLens 5 total ++ publishHead topic qos id))
    (hoff : w.connection.outboundMessage.fragmentedMsgDataOffset =
      offset-(4-(encodedLens 5 total).length)) :
    ((total = (publishHead topic qos id).length ∧
        len ≤ Int.bmod (((5+(publishHead topic qos id).length : ℕ) : ℤ)-offset) (2^32)) →
      w'.bytesOut = w.bytesOut ++ (calledPublish topic d len qos retain id).encoding) ∧
    (0 ≤ total → w'.bytesOut = w.bytesOut ++ (calledPublish topic d len qos retain id).encoding →
      total = (publishHead topic qos id).length ∧
        len ≤ Int.bmod (((5+(publishHead topic qos id).length : ℕ) : ℤ)-offset) (2^32)) := by
  have henc : (calledPublish topic d len qos retain id).encoding =
      headerByte .publish 0 qos retain ::
        (Base128.encode 3 (publishHead topic qos id).length ++ publishHead topic qos id) := by
    rw [calledPublish_encoding, ← headerByte_publish _ _ _ _ _ _ hq,
      show len.toNat = 0 by omega]
    simp [CData.slice]
  have hsent : w.dataSent =
      Int.bmod (((5+(publishHead topic qos id).length : ℕ) : ℤ)-offset) (2^32) := by
    rw [dataSent_composed hdata hoff]
    push_cast
    rfl
  obtain ⟨h1,h2,-⟩ := sendPublish_bytesOut hsend hb
  rw [← hsent, henc]
  refine ⟨fun hwhole => ?_, fun hpos heq => ?_⟩
  · obtain ⟨ht,hle⟩ := hwhole
    rw [h1 hle, hdata, ht, encodedLens_encode 3 _ 5 hbig (by omega)]
  · -- both length fields are complete, so neither is the beginning of the other
    obtain ⟨m,rfl⟩ := Int.eq_ofNat_of_zero_le hpos
    have hm : m < 128^4 := by
      by_contra hge
      have := encodedLens_five (m : ℤ) (by omega)
      omega
    have hfield := Base128.isField_encode 3 m hm
    have hfield' := Base128.isField_encode 3 (publishHead topic qos id).length hbig
    rw [encodedLens_encode 3 m 5 hm (by omega)] at hdata
    have hvalue (he : Base128.encode 3 m = Base128.encode 3 (publishHead topic qos id).length) :
        (m : ℤ) = (publishHead topic qos id).length := by
      have hv := congrArg Base128.value he
      rw [Base128.value_encode 3 m hm, Base128.value_encode 3 _ hbig] at hv
      exact congrArg _ hv
    by_cases hle : len ≤ w.dataSent
    · rw [h1 hle, hdata] at heq
      have hrest := List.cons.inj (List.append_cancel_left heq)
      obtain ⟨he,-⟩ := hfield.prefix_free hfield' hrest.2
      exact ⟨hvalue he, hle⟩
    · exfalso
      obtain ⟨l,hne,hl⟩ := h2 (by omega)
      rw [hl, hdata, List.append_assoc] at heq
      have hrest := List.append_cancel_left heq
      rw [List.cons_append, List.append_assoc] at hrest
      obtain ⟨-,he⟩ := hfield.prefix_free hfield' (List.cons.inj hrest).2
      exact hne (by simpa using he)

theorem remainingLength_eq_iff (m : OutMessage) (head : List UInt8) :
    m.remainingLength head = head.length ↔ (m.fragmentedMsgTotalLength = 0 ∨
      Int.bmod ((m.fragmentedMsgTotalLength : ℤ)-5) (2^32) = ((5+head.length : ℕ) : ℤ)-5) := by
  unfold OutMessage.remainingLength
  have h5 : ((5+head.length : ℕ) : ℤ)-5 = head.length := by omega
  rw [h5]
  by_cases hz : m.fragmentedMsgTotalLength = 0
  · simp [hz]
  · simp only [ne_eq, hz, not_false_eq_true, if_true, false_or]

/-- One call of `esp_mqtt_client_publish` on a connected client. -/
theorem espMqttClientPublish_encodes {H : Handler} {topic : List UInt8} {d : CData} {len ret : ℤ}
    {qos retain : ℕ} {w w' : World} (hc : w.state = .connected) (hv : w.isV5 = false)
    (hq : qos ≤ 2) (hbig : 2+topic.length+(if 0 < qos then 2 else 0)+(effectiveLen d len).toNat < 128^4)
    (h : espMqttClientPublish H (some topic) d len qos retain w = (ret, w')) (hret : 0 ≤ ret) :
    (PublishSafe w.connection.outboundMessage w.connection.bufferLength
        (5+(2+topic.length+(if 0 < qos then 2 else 0))) d (effectiveLen d len) →
      w'.bytesOut = w.bytesOut ++
        (calledPublish topic d (effectiveLen d len) qos retain ret.toNat).encoding) ∧
    (LeftoverSane w.connection.outboundMessage →
      w'.bytesOut = w.bytesOut ++
        (calledPublish topic d (effectiveLen d len) qos retain ret.toNat).encoding →
      PublishSafe w.connection.outboundMessage w.connection.bufferLength
        (5+(2+topic.length+(if 0 < qos then 2 else 0))) d (effectiveLen d len)) := by
  obtain ⟨id,w1,w2,hen,hsend,rfl,hout⟩ := espMqttClientPublish_sent hc hv h hret
    (fun id w1 he => (enqueuePublish_composed hv he).2.imp_right And.left)
  obtain ⟨f1,-,-,c,hmsg,hdata,hbl,hd1,hd2⟩ := enqueuePublish_composed hv hen
  obtain ⟨-,hnull,-,hroom,c1,hc1,hc2,rfl⟩ := mqttMsgPublish_composed hmsg hdata
  obtain ⟨hfew,hbl',hm⟩ := finiMessage_composed hdata
  have hw1 : w1.bytesOut = w.bytesOut := by
    unfold World.bytesOut
    rw [f1]
  rw [hout, ← hw1, Int.toNat_natCast, ← publishHead_length topic qos id] at *
  -- the call has sent what the composer left, with the header that `fini_message` put in front
  rw [hm] at hd1 hd2
  rw [hbl'] at hbl
  generalize hel : effectiveLen d len = n at *
  unfold PublishSafe
  rcases appendPayload_cases c1 d n (publishHead topic qos id) with
    ⟨hn,ha⟩ | ⟨hn,hfit,ha⟩ | ⟨hn,hlong,ha⟩
  · -- no data: what earlier messages left counts
    rw [ha] at hd1 hd2 hfew hbl
    have hlen : n ≤ 0 := by
      by_contra hpos
      exact hnull ⟨hn, by omega⟩
    obtain ⟨g1,g2⟩ := sendPublish_null hq hsend (by dsimp only at hbl; omega) hlen (by omega) hfew
      hd1 hd2
    rw [if_pos hn, ← hc1, ← remainingLength_eq_iff]
    exact ⟨g1, fun hsane heq => g2 (hsane.remainingLength_nonneg _) heq⟩
  · -- the message fits: only the offset counts
    rw [ha] at hd1 hd2 hbl
    dsimp only at hbl hd1 hd2
    have hrem : OutMessage.remainingLength
        {c1.outboundMessage with fragmentedMsgTotalLength := 0}
        (publishHead topic qos id ++ d.slice 0 n.toNat) =
        (((publishHead topic qos id).length+n.toNat : ℕ) : ℤ) := by
      simp [OutMessage.remainingLength]
    rw [hrem, encodedLens_encode 3 _ 5 hbig (by omega)] at hd1 hd2
    have hpos : 0 ≤ n := by
      rw [← hel]
      unfold effectiveLen
      split
      · omega
      · rename_i hcond
        simp only [hn, and_true, not_le] at hcond
        omega
    have hiff := sendPublish_fitting hq hsend (by omega) hpos rfl hd1 hd2
    rw [if_neg (by simp [hn]), ← hc1]
    exact ⟨fun hsafe => hiff.mpr (hsafe (by omega)), fun _ heq _ => hiff.mp heq⟩
  · -- the message does not fit: the composer has set both fields anew
    rw [ha] at hd1 hd2 hbl
    dsimp only at hbl hd1 hd2
    have hrem : OutMessage.remainingLength
        {c1.outboundMessage with
          fragmentedMsgDataOffset := 5+(publishHead topic qos id).length
          fragmentedMsgTotalLength := (n+(5+(publishHead topic qos id).length)).toNat}
        (publishHead topic qos id ++
          d.slice 0 (c1.bufferLength-(5+(publishHead topic qos id).length))) =
        (((publishHead topic qos id).length+n.toNat : ℕ) : ℤ) := by
      unfold OutMessage.remainingLength
      rw [if_pos (by dsimp only; omega)]
      rw [Int.bmod_eq_of_le (by dsimp only; omega) (by dsimp only; omega)]
      dsimp only
      omega
    rw [hrem, encodedLens_encode 3 _ 5 hbig (by omega)] at hd1 hd2
    rw [← hbl] at hd1
    have hall := sendPublish_fragmented hq hsend (by omega) hbig (by omega) rfl hd1 hd2
    rw [if_neg (by simp [hn])]
    exact ⟨fun _ => hall, fun _ _ hfit => absurd hfit (by omega)⟩

/-- In every run of a client, a publish that goes through on a connected 3.1.1
client puts exactly the PUBLISH on the wire if what earlier messages left behind
is harmless for it; and, leftovers of 2 GiB messages apart, only then. -/
theorem publish_encodes_iff (s : Settings) (incremental : Bool) (e : Environment) (n : ℕ)
    (ss : List ClientStep) {w w' : World} (hw : w = clientRun s incremental e n ss)
    (hc : w.state = .connected) (hv : w.isV5 = false) (topic : List UInt8) (d : CData) (len ret : ℤ)
    (qos retain seen : ℕ) (hq : qos ≤ 2)
    (hbig : 2+topic.length+(if 0 < qos then 2 else 0)+(effectiveLen d len).toNat < 128^4)
    (hcall : apiBody (handlerAt n) (.publish (some topic) d len qos retain) seen w = (ret, w'))
    (hret : 0 ≤ ret) :
    (PublishSafe w.connection.outboundMessage w.connection.bufferLength
        (5+(2+topic.length+(if 0 < qos then 2 else 0))) d (effectiveLen d len) →
      w'.bytesOut = w.bytesOut ++
        (calledPublish topic d (effectiveLen d len) qos retain ret.toNat).encoding) ∧
    (LeftoverSane w.connection.outboundMessage →
      w'.bytesOut = w.bytesOut ++
        (calledPublish topic d (effectiveLen d len) qos retain ret.toNat).encoding →
      PublishSafe w.connection.outboundMessage w.connection.bufferLength
        (5+(2+topic.length+(if 0 < qos then 2 else 0))) d (effectiveLen d len)) := by
  subst hw
  generalize clientRun s incremental e n ss = w at *
  have hbegin : (w.beginCall (.publish (some topic) d len qos retain) seen).bytesOut = w.bytesOut :=
    rfl
  have hone := espMqttClientPublish_encodes
    (w := w.beginCall (.publish (some topic) d len qos retain) seen) hc hv hq hbig hcall hret
  rw [hbegin] at hone
  exact hone

/-! A client that connects and publishes. -/

/-- A broker that accepts the connection. -/
def acceptingBroker : Environment :=
  plainEnvironment [some [0x20, 2, 0, 0]] (List.replicate 4 (.chunk 0)) []

/-- The client once it is connected. -/
def smallConnected : World := clientRun smallSettings false acceptingBroker 0 connectSteps

/-- A payload of 40 bytes goes out in two chunks, whole. -/
theorem publish_encodes_fragmented :
    (apiBody (handlerAt 0) (.publish (some [0x74]) (cBytes (List.replicate 40 5)) 40 1 0) 1
        smallConnected).2.bytesOut =
      smallConnected.bytesOut ++
        (calledPublish [0x74] (cBytes (List.replicate 40 5)) 40 1 0 7).encoding := by
  have hret : (apiBody (handlerAt 0) (.publish (some [0x74]) (cBytes (List.replicate 40 5)) 40 1 0) 1
      smallConnected).1 = 7 := by decide +kernel
  generalize hcall : apiBody (handlerAt 0)
    (.publish (some [0x74]) (cBytes (List.replicate 40 5)) 40 1 0) 1 smallConnected = r at hret
  obtain ⟨ret,w'⟩ := r
  subst hret
  have hboth := publish_encodes_iff smallSettings false acceptingBroker 0 connectSteps
    (w := smallConnected) rfl (by decide +kernel) (by decide +kernel) [0x74]
    (cBytes (List.replicate 40 5)) 40 7 1 0 1 (by decide) (by decide +kernel) hcall (by decide)
  refine hboth.1 ?_
  unfold PublishSafe
  decide +kernel

/-- A message to be stored, with a header longer than that of the next one. -/
def storeLong : ApiCall :=
  .enqueue (some (List.replicate 16 0x6c)) (cBytes (List.replicate 40 5)) 40 1 0 true

/-- The client with that message stored. -/
def smallStored : World :=
  clientRun smallSettings false acceptingBroker 0 (connectSteps ++ [.check storeLong, .body 0])

/-- The stored message leaves its data offset behind: the next publish sends 14
bytes more than its packet, the first 12 of them from before its payload. -/
theorem publish_after_enqueue_overruns :
    smallStored.state = .connected ∧ smallStored.isV5 = false ∧
    (apiBody (handlerAt 0) (.publish (some [0x74]) (cBytes [0xaa, 0xbb]) 2 0 0) 1 smallStored).1 = 0 ∧
    (apiBody (handlerAt 0) (.publish (some [0x74]) (cBytes [0xaa, 0xbb]) 2 0 0) 1
        smallStored).2.bytesOut ≠
      smallStored.bytesOut ++ (calledPublish [0x74] (cBytes [0xaa, 0xbb]) 2 0 0 0).encoding := by
  have hout : (apiBody (handlerAt 0) (.publish (some [0x74]) (cBytes [0xaa, 0xbb]) 2 0 0) 1
      smallStored).2.bytesOut =
      smallStored.bytesOut ++ (calledPublish [0x74] (cBytes [0xaa, 0xbb]) 2 0 0 0).encoding ++
        (List.replicate 12 0xdd ++ [0xaa, 0xbb]) := by decide +kernel
  refine ⟨by decide +kernel, by decide +kernel, by decide +kernel, ?_⟩
  rw [hout]
  simp

end EspMqtt
