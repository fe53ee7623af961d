import EspMqtt.PacketStream
import EspMqtt.PublishBytes
import EspMqtt.RunRules

/-! The Remaining Length of the packets of a 3.1.1 client: it is theirs as long as no
fragmented message has left its total length behind, nor its data offset where a
publish relies on it. -/
namespace EspMqtt
open World

/-- The Remaining Length is the number of bytes behind the fixed header. -/
def SelfConsistent (data : List UInt8) : Prop :=
  ∃ b lens body, data = b :: (lens ++ body) ∧ Base128.IsField lens ∧
    Base128.value lens = body.length

/-- A packet, if any, that is consistent. -/
def Sound (data : List UInt8) : Prop := data ≠ [] → SelfConsistent data

/-- These bytes of a packet, if any, announce `n` more. -/
def Announces (n : ℤ) (data : List UInt8) : Prop := data ≠ [] → Awaits n.toNat data

theorem Announces.sound {data : List UInt8} (h : Announces 0 data) : Sound data := by
  intro hne
  obtain ⟨b,lens,body,hdata,hfield,-,hvalue⟩ := h hne
  exact ⟨b, lens, body, hdata, hfield, hvalue⟩

/-- `fragmented_msg_total_length` of the outbound message. -/
def Connection.leftover (c : Connection) : ℕ := c.outboundMessage.fragmentedMsgTotalLength

/-! The encoders. -/

theorem finiMessage_leftover (c : Connection) (type : MsgType) (dup qos retain : ℕ)
    (body : List UInt8) : (finiMessage c type dup qos retain body).leftover = c.leftover := by
  unfold finiMessage
  dsimp only
  split <;> rfl

/-- With a Remaining Length of `n` bytes more than there are, as many are announced. -/
theorem finiMessage_announces {c : Connection} {body : List UInt8} {n : ℕ}
    (hrem : c.outboundMessage.remainingLength body = (body.length+n : ℕ)) (type : MsgType)
    (dup qos retain : ℕ) : Announces n (finiMessage c type dup qos retain body).outboundMessage.data := by
  intro hne
  obtain ⟨hfew,-,hm⟩ := finiMessage_composed hne
  rw [hrem] at hfew hm
  -- a length that takes five bytes would have been refused
  have hsmall : body.length+n < 128^4 := by
    by_contra hbig
    have := encodedLens_five ((body.length+n : ℕ) : ℤ) (by omega)
    omega
  rw [encodedLens_encode 3 _ 5 hsmall (by omega)] at hm hfew
  rw [hm]
  refine ⟨_, _, body, rfl, Base128.isField_encode 3 _ hsmall, hfew, ?_⟩
  rw [Base128.value_encode 3 _ hsmall, Int.toNat_natCast]

theorem finiMessage_dataSent {c : Connection} {type : MsgType} {dup qos retain : ℕ} {body : List UInt8}
    (h : (finiMessage c type dup qos retain body).outboundMessage.data ≠ []) :
    (finiMessage c type dup qos retain body).outboundMessage.dataSent =
      Int.bmod (5+body.length-c.outboundMessage.fragmentedMsgDataOffset) (2^32) := by
  obtain ⟨-,-,hm⟩ := finiMessage_composed h
  exact OutMessage.dataSent_composed (congrArg OutMessage.data hm)
    (congrArg OutMessage.fragmentedMsgDataOffset hm)

theorem finiMessage_sound {c : Connection} (h : c.leftover = 0) (type : MsgType) (dup qos retain : ℕ)
    (body : List UInt8) : Announces 0 (finiMessage c type dup qos retain body).outboundMessage.data :=
  finiMessage_announces (n := 0) (if_neg (not_not_intro h)) type dup qos retain

theorem finiOrFail_sound {c : Connection} (h : c.leftover = 0) (type : MsgType) (qos : ℕ)
    (body : Option (List UInt8)) :
    Announces 0 (finiOrFail c type qos body).outboundMessage.data ∧
      (finiOrFail c type qos body).leftover = 0 := by
  cases body with
  | none => exact ⟨fun hne => absurd rfl hne, h⟩
  | some body => exact ⟨finiMessage_sound h type 0 qos 0 body,
      (finiMessage_leftover c type 0 qos 0 body).trans h⟩

theorem appendMessageId_leftover (c : Connection) (acc : List UInt8) (id : ℕ) :
    (appendMessageId c acc id).2.2.leftover = c.leftover := by
  unfold appendMessageId Connection.leftover
  dsimp only
  split <;> rw [(messageId_frame c id).1]

theorem ackMessage_sound {c : Connection} (h : c.leftover = 0) (type : MsgType) (qos id : ℕ) :
    Announces 0 (ackMessage type qos c id).outboundMessage.data ∧ (ackMessage type qos c id).leftover = 0 :=
  finiOrFail_sound ((appendMessageId_leftover c [] id).trans h) type qos _

theorem mqttMsgConnect_sound {c : Connection} (h : c.leftover = 0) (i : ConnectInfo) :
    Announces 0 (mqttMsgConnect c i).outboundMessage.data ∧ (mqttMsgConnect c i).leftover = 0 := by
  unfold mqttMsgConnect
  split
  · exact ⟨fun hne => absurd rfl hne, h⟩
  · exact finiOrFail_sound h .connect 0 _

/-- With nothing left behind every control packet is sound, and leaves nothing. -/
theorem Control.sound {type : MsgType} {build : Connection → Connection} (hb : Control type build)
    {c : Connection} (h : c.leftover = 0) :
    Announces 0 (build c).outboundMessage.data ∧ (build c).leftover = 0 := by
  cases hb with
  | connect i => exact mqttMsgConnect_sound h i
  | puback id => exact ackMessage_sound h .puback 0 id
  | pubrec id => exact ackMessage_sound h .pubrec 0 id
  | pubrel id => exact ackMessage_sound h .pubrel 1 id
  | pubcomp id => exact ackMessage_sound h .pubcomp 0 id
  | pingreq => exact ⟨finiMessage_sound h .pingreq 0 0 0 [], (finiMessage_leftover c .pingreq 0 0 0 []).trans h⟩
  | disconnect =>
    exact ⟨finiMessage_sound h .disconnect 0 0 0 [], (finiMessage_leftover c .disconnect 0 0 0 []).trans h⟩

theorem Request.sound {a : ApiCall} {s : Site} {type : MsgType} {build : Connection → ℕ × Connection}
    (hb : Request a s type build) {c : Connection} (h : c.leftover = 0) :
    Announces 0 (build c).2.outboundMessage.data ∧ (build c).2.leftover = 0 := by
  cases hb with
  | subscribe topics =>
    exact finiOrFail_sound ((appendMessageId_leftover c [] 0).trans h) .subscribe 1 _
  | unsubscribe topic =>
    unfold mqttMsgUnsubscribe
    split
    · exact ⟨fun hne => absurd rfl hne, h⟩
    · exact ⟨fun hne => absurd rfl hne, h⟩
    · exact finiOrFail_sound ((appendMessageId_leftover c [] 0).trans h) .unsubscribe 1 _

/-! A PUBLISH. -/

/-- Length of the variable header of a PUBLISH. -/
def headLength (topic : Option (List UInt8)) (qos : ℕ) : ℕ :=
  2+(topic.getD []).length+(if 0 < qos then 2 else 0)

/-- The header fits the buffer and the payload behind it does not. -/
def Fragments (bufferLength : ℕ) (topic : Option (List UInt8)) (d : CData) (len : ℤ) (qos : ℕ) : Prop :=
  d.isNull = false ∧ 5+headLength topic qos ≤ bufferLength ∧
    (bufferLength : ℤ) < 5+headLength topic qos+effectiveLen d len

instance (bufferLength : ℕ) (topic : Option (List UInt8)) (d : CData) (len : ℤ) (qos : ℕ) :
    Decidable (Fragments bufferLength topic d len qos) := inferInstanceAs (Decidable (_ ∧ _ ∧ _))

theorem effectiveLen_nonneg {d : CData} (h : d.isNull = false) (len : ℤ) : 0 ≤ effectiveLen d len := by
  unfold effectiveLen
  split
  · omega
  · rename_i hcond
    simp only [h, and_true, not_le] at hcond
    omega

/-- A PUBLISH fails before its payload is looked at, or gets that far. -/
theorem mqttMsgPublish_cases (c : Connection) (topic : Option (List UInt8)) (d : CData) (len : ℤ)
    (qos retain : ℕ) :
    ∃ c1 : Connection, c1.outboundMessage = c.outboundMessage ∧ c1.bufferLength = c.bufferLength ∧
      ((mqttMsgPublish c topic d len qos retain).2 = failMessage c1 ∨
        ∃ head : List UInt8, head.length = headLength topic qos ∧ 5+head.length ≤ c.bufferLength ∧
          (mqttMsgPublish c topic d len qos retain).2 = finiMessage (appendPayload c1 d len head).2
            .publish 0 qos retain (appendPayload c1 d len head).1) := by
  obtain ⟨f1,f2⟩ := messageId_frame c 0
  unfold mqttMsgPublish
  cases topic with
  | none => exact ⟨c, rfl, rfl, Or.inl rfl⟩
  | some topic =>
    cases topic with
    | nil => exact ⟨c, rfl, rfl, Or.inl rfl⟩
    | cons b bs =>
      dsimp only
      generalize b :: bs = topic
      unfold appendString
      by_cases hroom : c.bufferLength < 5+([] : List UInt8).length+topic.length+2
      · rw [if_pos hroom]
        exact ⟨c, rfl, rfl, Or.inl rfl⟩
      · rw [if_neg hroom]
        dsimp only
        split
        · exact ⟨c, rfl, rfl, Or.inl rfl⟩
        · by_cases hq : 0 < qos
          · simp only [if_pos hq, appendMessageId]
            by_cases hid : c.bufferLength < 5+([] ++ Wire.u16 topic.length ++ topic).length+2
            · rw [if_pos hid]
              exact ⟨(c.messageId 0).2, f1, f2, Or.inl rfl⟩
            · rw [if_neg hid]
              refine ⟨(c.messageId 0).2, f1, f2, Or.inr ⟨_, ?_, ?_, rfl⟩⟩
              · simp only [headLength, if_pos hq, Option.getD_some, List.nil_append, List.length_append,
                  Wire.u16_length]
              · simp only [List.nil_append, List.length_append, Wire.u16_length] at hid ⊢
                omega
          · simp only [if_neg hq]
            refine ⟨c, rfl, rfl, Or.inr ⟨_, ?_, ?_, rfl⟩⟩
            · simp only [headLength, if_neg hq, Option.getD_some, List.nil_append, List.length_append,
                Wire.u16_length, Nat.add_zero]
            · simp only [List.length_nil, List.nil_append, List.length_append, Wire.u16_length] at hroom ⊢
              omega

/-- What `mqtt_msg_publish` leaves behind: what was there, nothing, or the total
length of a message that is composed and does not fit. -/
theorem mqttMsgPublish_leftover (c : Connection) (topic : Option (List UInt8)) (d : CData) (len : ℤ)
    (qos retain : ℕ) (hsmall : Fragments c.bufferLength topic d len qos →
      headLength topic qos+(effectiveLen d len).toNat < 128^4) (c' : Connection)
    (hc' : (mqttMsgPublish c topic d (effectiveLen d len) qos retain).2 = c') :
    c'.leftover = c.leftover ∨ c'.leftover = 0 ∨
      (Fragments c.bufferLength topic d len qos ∧ c'.outboundMessage.data ≠ []) := by
  obtain ⟨c1,h1,h2,hcases⟩ := mqttMsgPublish_cases c topic d (effectiveLen d len) qos retain
  rw [hc'] at hcases
  have hleft : c1.leftover = c.leftover := congrArg OutMessage.fragmentedMsgTotalLength h1
  rcases hcases with rfl | ⟨head,hlen,hroom,rfl⟩
  · exact Or.inl hleft
  · rw [finiMessage_leftover]
    rcases appendPayload_cases c1 d (effectiveLen d len) head with
      ⟨-,ha⟩ | ⟨-,-,ha⟩ | ⟨hn,hlong,ha⟩
    · rw [ha]
      exact Or.inl hleft
    · rw [ha]
      exact Or.inr (Or.inl rfl)
    · have hfrag : Fragments c.bufferLength topic d len qos := by
        refine ⟨hn, by omega, ?_⟩
        rw [h2, hlen] at hlong
        exact hlong
      refine Or.inr (Or.inr ⟨hfrag, ?_⟩)
      have hbig := hsmall hfrag
      have hpos := effectiveLen_nonneg hn len
      rw [ha]
      unfold finiMessage
      have hrem : OutMessage.remainingLength {c1.outboundMessage with
          fragmentedMsgDataOffset := 5+head.length
          fragmentedMsgTotalLength := (effectiveLen d len+(5+head.length)).toNat}
          (head ++ d.slice 0 (c1.bufferLength-(5+head.length))) =
          ((headLength topic qos+(effectiveLen d len).toNat : ℕ) : ℤ) := by
        unfold OutMessage.remainingLength
        rw [if_pos (by dsimp only; omega)]
        rw [Int.bmod_eq_of_le (by dsimp only; omega) (by dsimp only; omega)]
        dsimp only
        omega
      dsimp only
      rw [hrem, encodedLens_encode 3 _ 5 hbig (by omega)]
      have hfew := Base128.encode_length_le 3 (headLength topic qos+(effectiveLen d len).toNat)
      rw [if_neg (by omega)]
      exact List.cons_ne_nil _ _

/-- A message with all its bytes announces nothing more; if the data offset is not in the way, the send
loop takes `n` bytes for sent, or more. -/
theorem finiMessage_whole {c : Connection} (h : c.leftover = 0) (qos retain : ℕ) (body : List UInt8)
    (n : ℤ) {m : OutMessage} (hm : (finiMessage c .publish 0 qos retain body).outboundMessage = m) :
    m.fragmentedMsgTotalLength = 0 ∧ Announces 0 m.data ∧
    (n ≤ Int.bmod (5+body.length-c.outboundMessage.fragmentedMsgDataOffset) (2^32) →
      Announces (n-m.dataSent) m.data) := by
  have hsound := finiMessage_sound h .publish 0 qos retain body
  have htotal := (finiMessage_leftover c .publish 0 qos retain body).trans h
  have hsent := @finiMessage_dataSent c .publish 0 qos retain body
  unfold Connection.leftover at htotal
  rw [hm] at hsound htotal hsent
  refine ⟨htotal, hsound, fun hle hne => ?_⟩
  rw [hsent hne, Int.toNat_of_nonpos (by omega)]
  exact hsound hne

/-- What a PUBLISH of 3.1.1 announces: what is not in the buffer of a message that does not fit, and
else nothing. If the data offset gets in no one's way, the send loop counts the same. -/
theorem mqttMsgPublish_announces {c : Connection} {d : CData} (h : d.isNull = true → c.leftover = 0)
    (topic : Option (List UInt8)) (len : ℤ) (qos retain : ℕ)
    (hsmall : Fragments c.bufferLength topic d len qos →
      headLength topic qos+(effectiveLen d len).toNat < 128^4) (m : OutMessage)
    (hm : (mqttMsgPublish c topic d (effectiveLen d len) qos retain).2.outboundMessage = m) :
    Announces (if m.fragmentedMsgTotalLength = 0 then 0 else effectiveLen d len-m.dataSent) m.data ∧
    (PublishSafe ⟨[], 0, c.outboundMessage.fragmentedMsgDataOffset⟩ c.bufferLength
        (5+headLength topic qos) d (effectiveLen d len) →
      Announces (effectiveLen d len-m.dataSent) m.data) ∧
    (d.isNull = true → Announces 0 m.data) := by
  obtain ⟨c1,h1,h2,hcases⟩ := mqttMsgPublish_cases c topic d (effectiveLen d len) qos retain
  have hleft : c1.leftover = c.leftover := congrArg OutMessage.fragmentedMsgTotalLength h1
  rcases hcases with he | ⟨head,hlen,hroom,he⟩
  · subst hm
    rw [he]
    exact ⟨fun hne => absurd rfl hne, fun _ hne => absurd rfl hne, fun _ hne => absurd rfl hne⟩
  have hpos (hn : d.isNull = false) := effectiveLen_nonneg hn len
  generalize hel : effectiveLen d len = n at *
  have hcast : ((5+head.length : ℕ) : ℤ) = 5+head.length := by push_cast; ring
  rcases appendPayload_cases c1 d n head with ⟨hn,ha⟩ | ⟨hn,hfit,ha⟩ | ⟨hn,hlong,ha⟩
  · -- no data: nothing is left behind
    rw [he, ha] at hm
    obtain ⟨htotal,hsound,hoffset⟩ := finiMessage_whole (hleft.trans (h hn)) qos retain head n hm
    refine ⟨by rw [if_pos htotal]; exact hsound, fun hsafe => ?_, fun _ => hsound⟩
    rw [PublishSafe, if_pos hn, ← hlen, ← h1] at hsafe
    apply hoffset
    rw [← hcast]
    exact hsafe.2
  · -- the message fits
    obtain ⟨c2,hc2⟩ : ∃ c2, c2 = {c1 with outboundMessage :=
      {c1.outboundMessage with fragmentedMsgTotalLength := 0}} := ⟨_, rfl⟩
    have hzero : c2.leftover = 0 := by rw [hc2]; rfl
    have hsame : c2.outboundMessage.fragmentedMsgDataOffset = c.outboundMessage.fragmentedMsgDataOffset := by
      rw [hc2, ← h1]
    rw [he, ha, ← hc2] at hm
    obtain ⟨htotal,hsound,hoffset⟩ := finiMessage_whole hzero qos retain (head ++ d.slice 0 n.toNat) n hm
    refine ⟨by rw [if_pos htotal]; exact hsound, fun hsafe => ?_, fun _ => hsound⟩
    rw [PublishSafe, if_neg (by simp [hn]), ← hlen] at hsafe
    have hlength : ((head ++ d.slice 0 n.toNat).length : ℤ) = head.length+n := by
      have := hpos hn
      rw [List.length_append, CData.slice_length]
      omega
    apply hoffset
    rw [hlength, hsame, ← add_assoc, ← hcast]
    exact hsafe (by omega)
  · -- it does not, and both fields are set anew
    obtain ⟨c2,hc2⟩ : ∃ c2, c2 = {c1 with outboundMessage := {c1.outboundMessage with
      fragmentedMsgDataOffset := 5+head.length
      fragmentedMsgTotalLength := (n+(5+head.length)).toNat}} := ⟨_, rfl⟩
    have hbig := hsmall ⟨hn, by omega, by rw [hel, ← hlen]; omega⟩
    have hlen0 := hpos hn
    obtain ⟨k,hk⟩ : ∃ k, k = c1.bufferLength-(5+head.length) := ⟨_, rfl⟩
    rw [← hk] at ha
    have hrem : c2.outboundMessage.remainingLength (head ++ d.slice 0 k) =
        ((head ++ d.slice 0 k).length+(n.toNat-k) : ℕ) := by
      rw [List.length_append, CData.slice_length, hc2]
      unfold OutMessage.remainingLength
      dsimp only
      rw [if_pos (by omega), Int.bmod_eq_of_le (by omega) (by omega)]
      omega
    have hannounces := finiMessage_announces hrem .publish 0 qos retain
    have htotal := finiMessage_leftover c2 .publish 0 qos retain (head ++ d.slice 0 k)
    have hsent := @finiMessage_dataSent c2 .publish 0 qos retain (head ++ d.slice 0 k)
    rw [he, ha, ← hc2] at hm
    dsimp only at hm
    unfold Connection.leftover at htotal
    rw [hm] at hannounces htotal hsent
    have hrest : Announces (n-m.dataSent) m.data := by
      intro hne
      have hoffset : c2.outboundMessage.fragmentedMsgDataOffset = 5+head.length := by rw [hc2]
      have hcount : m.dataSent = k := by
        rw [hsent hne, List.length_append, CData.slice_length, hoffset]
        rw [show (5+((head.length+k : ℕ) : ℤ)-(5+head.length)) = k by push_cast; ring]
        exact Int.bmod_eq_of_le (by omega) (by omega)
      rw [hcount, show (n-(k : ℤ)).toNat = ((n.toNat-k : ℕ) : ℤ).toNat by omega]
      exact hannounces hne
    refine ⟨?_, fun _ => hrest, fun hnull => absurd (hn.symm.trans hnull) (by simp)⟩
    rw [if_neg (by rw [htotal, hc2]; dsimp only; omega)]
    exact hrest

theorem Announces.mqttSetDup {n : ℤ} {data : List UInt8} (h : Announces n data) :
    Announces n (mqttSetDup data) := by
  cases data with
  | nil => exact h
  | cons b bs =>
    intro _
    obtain ⟨b',lens,body,he,hf,hfew,hv⟩ := h (List.cons_ne_nil b bs)
    rw [List.cons.injEq] at he
    exact ⟨b ||| 0x08, lens, body, by rw [EspMqtt.mqttSetDup, he.2], hf, hfew, hv⟩

/-! Runs. -/

/-- What leaves no total length behind: a message that does not fit is small
enough for its length field and, if it is only enqueued, gets stored; and a
message without data does not come from an event inside the first chunk of
another message. -/
def Mark.tidy : Mark → Bool
  | .body c bufferLength _ _ _ _ _ _ inFirstChunk =>
    match c with
    | .publish topic d len qos _ =>
      !(d.isNull && inFirstChunk) && decide (Fragments bufferLength topic d len qos →
        headLength topic qos+(effectiveLen d len).toNat < 128^4)
    | .enqueue topic d len qos _ store =>
      !(d.isNull && inFirstChunk) && decide (Fragments bufferLength topic d len qos →
        (0 < qos ∨ store = true) ∧ headLength topic qos+(effectiveLen d len).toNat < 128^4)
    | .setConfig s => decide (s.information.protocolVer ≠ .v5)
    | _ => true
  | .cut _ => true
  | .fragmentNotStored => false

def Tidy (marks : List Mark) : Prop := ∀ m ∈ marks, m.tidy = true

theorem Tidy.tail {m : Mark} {marks : List Mark} (h : Tidy (m :: marks)) : Tidy marks :=
  fun k hk => h k (List.mem_cons_of_mem m hk)

theorem Tidy.head {m : Mark} {marks : List Mark} (h : Tidy (m :: marks)) : m.tidy = true :=
  h m List.mem_cons_self

/-- A publish that finds no data offset in its way. -/
def Mark.clear : Mark → Bool
  | .body (.publish topic d len qos _) bufferLength offset .. =>
    decide (PublishSafe ⟨[], 0, offset⟩ bufferLength (5+headLength topic qos) d (effectiveLen d len))
  | _ => true

def Clear (marks : List Mark) : Prop := ∀ m ∈ marks, m.clear = true

theorem Clear.head {m : Mark} {marks : List Mark} (h : Clear (m :: marks)) : m.clear = true :=
  h m List.mem_cons_self

theorem Clear.tail {m : Mark} {marks : List Mark} (h : Clear (m :: marks)) : Clear marks :=
  fun k hk => h k (List.mem_cons_of_mem m hk)

/-- Every packet handed to `esp_mqtt_write` whose encoder fixes its own length
has the right one. -/
def ControlConsistent (wire : List Chunk) : Prop :=
  ∀ c ∈ wire, c.first = true → c.origin.control = true → Sound c.data

/-- Every packet begins with a Remaining Length that counts the bytes behind it, those to be sent
after this write included. -/
def Announced (wire : List Chunk) : Prop := ∀ c ∈ wire, c.first = true → Announces c.behind c.data

/-- The part of the client that matters to the lengths. -/
structure LengthView where
  isV5 : Bool
  outbox : Outbox
  wire : List Chunk
  marks : List Mark

def Core.lengths (c : Core) : LengthView := ⟨c.isV5, c.outbox, c.wire, c.marks⟩

structure LengthsOk (v : LengthView) : Prop where
  v311 : v.isV5 = false
  stored : ∀ x ∈ v.outbox.list, Announces 0 x.buffer
  framed : ∀ c ∈ v.wire, c.first = true → c.origin.control = true → Announces 0 c.data
  announced : Clear v.marks → Announced v.wire

/-- Nothing is left behind, except inside the first chunk of a message. -/
def LengthP (b : Bool) (c : Core) : Prop :=
  c.inFirstChunk = b ∧
    (Tidy c.marks → LengthsOk c.lengths ∧ (c.connection.leftover = 0 ∨ b = true))

/-- The outbound message may go out as the beginning of a packet. -/
def Core.Fit (s : Site) (c : Core) : Prop :=
  Tidy c.marks →
    (s ≠ .publish ∨ c.origin.control = true → Announces 0 c.connection.outboundMessage.data) ∧
    (s = .publish → Clear c.marks → Announces c.behind c.connection.outboundMessage.data)

/-- Inside a publish, where the total length may be that of the message itself. -/
def LengthM (b : Bool) (c : Core) : Prop :=
  c.inFirstChunk = b ∧ (Tidy c.marks → LengthsOk c.lengths) ∧ c.Fit .publish

theorem LengthsOk.below {v : LengthView} {o : Outbox} (h : LengthsOk v) (ho : o.Below v.outbox) :
    LengthsOk {v with outbox := o} where
  v311 := h.v311
  stored x hx := by
    obtain ⟨y,hy,-,-,hbuf⟩ := ho x hx
    rcases hbuf with hb | hb
    · rw [hb]
      exact h.stored y hy
    · rw [hb]
      exact (h.stored y hy).mqttSetDup
  framed := h.framed
  announced := h.announced

theorem LengthsOk.append {v : LengthView} {o : Outbox} {x : OutboxItem} (h : LengthsOk v)
    (ho : o.list = v.outbox.list ++ [x]) (hx : Announces 0 x.buffer) :
    LengthsOk {v with outbox := o} where
  v311 := h.v311
  stored y hy := by
    change y ∈ o.list at hy
    rw [ho, List.mem_append, List.mem_singleton] at hy
    rcases hy with hy | rfl
    · exact h.stored y hy
    · exact hx
  framed := h.framed
  announced := h.announced

theorem LengthsOk.mark {v : LengthView} {m : Mark} (h : LengthsOk v) :
    LengthsOk {v with marks := m :: v.marks} where
  v311 := h.v311
  stored := h.stored
  framed := h.framed
  announced hclear := h.announced hclear.tail

theorem Core.Fit.announces {s : Site} {w : World} (h : w.core.Fit s) (ht : Tidy w.marks)
    (hclear : Clear w.marks) (f : Bool) : Announces (w.chunk s f).behind (w.chunk s f).data := by
  by_cases hs : s = .publish
  · have hbehind : (w.chunk s f).behind = w.behind := if_pos hs
    rw [hbehind]
    exact (h ht).2 hs hclear
  · have hbehind : (w.chunk s f).behind = 0 := if_neg hs
    rw [hbehind]
    exact (h ht).1 (Or.inl hs)

theorem recordWrite_tidy {w : World} {s : Site} {f : Bool} (h : Tidy (w.recordWrite s f).marks) :
    Tidy w.marks := by
  dsimp only [World.recordWrite] at h
  split at h
  · exact h.tail
  · exact h

theorem recordWrite_clear {w : World} {s : Site} {f : Bool} (h : Clear (w.recordWrite s f).marks) :
    Clear w.marks := by
  dsimp only [World.recordWrite] at h
  split at h
  · exact h.tail
  · exact h

theorem recordWrite_lengths {w : World} {s : Site} {f : Bool}
    (h : Tidy w.core.marks → LengthsOk w.core.lengths) (hfit : f = true → w.core.Fit s) :
    Tidy (w.recordWrite s f).core.marks → LengthsOk (w.recordWrite s f).core.lengths := by
  intro ht
  have htidy := recordWrite_tidy ht
  refine ⟨(h htidy).v311, (h htidy).stored, fun c hc hfirst hcontrol => ?_, fun hclear c hc hfirst => ?_⟩
  · rcases List.mem_cons.mp hc with rfl | hc
    · exact (hfit hfirst htidy).1 (Or.inr hcontrol)
    · exact (h htidy).framed c hc hfirst hcontrol
  · have hclear' := recordWrite_clear hclear
    rcases List.mem_cons.mp hc with rfl | hc
    · exact (hfit hfirst).announces htidy hclear' f
    · exact (h htidy).announced hclear' c hc hfirst

theorem LengthP.recordWrite {w : World} {s : Site} {b f : Bool} (h : LengthP b w.core)
    (hfit : f = true → w.core.Fit s) : LengthP b (w.recordWrite s f).core :=
  ⟨h.1, fun ht => ⟨recordWrite_lengths (fun ht => (h.2 ht).1) hfit ht, (h.2 (recordWrite_tidy ht)).2⟩⟩

theorem LengthP.mark {b : Bool} {c : Core} {m : Mark} {n : ℕ} (h : LengthP b c) :
    LengthP b {c with calls := n, marks := m :: c.marks} :=
  ⟨h.1, fun ht => ⟨(h.2 ht.tail).1.mark, (h.2 ht.tail).2⟩⟩

/-! A PUBLISH composed with nothing left behind. -/

section Composed

variable {b : Bool} {w v : World} {topic : Option (List UInt8)} {d : CData} {len : ℤ} {qos retain : ℕ}

theorem LengthP.composed (h : LengthP b w.core) (ht : Tidy w.marks)
    (hv : (w.makePublish topic d len qos retain).2 = v) :
    v.connection = (mqttMsgPublish w.connection topic d len qos retain).2 := by
  have hplain : w.isV5 = false := (h.2 ht).1.v311
  rw [← hv, w.makePublish_eq, if_neg (by rw [hplain]; decide)]
  rfl

/-- What it announces. -/
theorem LengthP.announces (h : LengthP b w.core) (ht : Tidy w.marks) (hnull : d.isNull = true → b = false)
    (hsmall : Fragments w.connection.bufferLength topic d len qos →
      headLength topic qos+(effectiveLen d len).toNat < 128^4)
    (hv : (w.makePublish topic d (effectiveLen d len) qos retain).2 = v) :
    let m := v.connection.outboundMessage
    Announces (if m.fragmentedMsgTotalLength = 0 then 0 else effectiveLen d len-m.dataSent) m.data ∧
    (PublishSafe ⟨[], 0, w.connection.outboundMessage.fragmentedMsgDataOffset⟩ w.connection.bufferLength
        (5+headLength topic qos) d (effectiveLen d len) →
      Announces (effectiveLen d len-m.dataSent) m.data) ∧
    (d.isNull = true → Announces 0 m.data) := by
  have hzero (hd : d.isNull = true) : w.connection.leftover = 0 :=
    (h.2 ht).2.resolve_right fun hb => absurd ((hnull hd).symm.trans hb) (by decide)
  apply mqttMsgPublish_announces hzero topic len qos retain hsmall
  rw [h.composed ht hv]

/-- It may go out as the beginning of a packet. -/
theorem LengthP.fit (h : LengthP b w.core) (hnull : Tidy w.marks → d.isNull = true → b = false)
    (hsmall : Tidy w.marks → Fragments w.connection.bufferLength topic d len qos →
      headLength topic qos+(effectiveLen d len).toNat < 128^4)
    (hv : (w.makePublish topic d (effectiveLen d len) qos retain).2 = v)
    (hsafe : Clear w.marks → PublishSafe ⟨[], 0, w.connection.outboundMessage.fragmentedMsgDataOffset⟩
      w.connection.bufferLength (5+headLength topic qos) d (effectiveLen d len)) : v.core.Fit .publish := by
  obtain ⟨c,hc⟩ := w.makePublish_core topic d (effectiveLen d len) qos retain
  have hbehind := w.makePublish_behind topic d (effectiveLen d len) qos retain
  rw [hv] at hc hbehind
  have hmarks : v.marks = w.marks := congrArg Core.marks hc
  intro ht
  replace ht : Tidy w.marks := hmarks ▸ ht
  obtain ⟨-,hclear,hcontrol⟩ := h.announces ht (hnull ht) (hsmall ht) hv
  refine ⟨fun hor => ?_, fun _ hcl => ?_⟩
  · -- without data it is a control packet
    apply hcontrol
    exact (congrArg (fun c => c.origin.control) hc).symm.trans (hor.resolve_left fun hne => hne rfl)
  · change Announces v.behind v.connection.outboundMessage.data
    rw [hbehind]
    apply hclear
    apply hsafe
    exact hmarks ▸ hcl

/-- What it leaves is its own total length at most. -/
theorem LengthP.leftover (h : LengthP b w.core) (ht : Tidy w.marks)
    (hsmall : Fragments w.connection.bufferLength topic d len qos →
      headLength topic qos+(effectiveLen d len).toNat < 128^4)
    (hv : (w.makePublish topic d (effectiveLen d len) qos retain).2 = v) :
    v.connection.leftover = 0 ∨ b = true ∨
      (Fragments w.connection.bufferLength topic d len qos ∧ v.connection.outboundMessage.data ≠ []) := by
  rcases mqttMsgPublish_leftover w.connection topic d len qos retain hsmall _ (h.composed ht hv).symm with
    hl | hl | hl
  · rw [hl]
    exact (h.2 ht).2.imp id Or.inl
  · exact Or.inl hl
  · exact Or.inr (Or.inr hl)

end Composed

/-- A PUBLISH composed and perhaps stored: nothing but its own total length is
left behind, and that only while it is neither stored nor sent. -/
theorem enqueuePublish_lengths {b : Bool} {w : World} (h : LengthP b w.core)
    (topic : Option (List UInt8)) (d : CData) (len : ℤ) (qos retain : ℕ) (store : Bool)
    (hnull : Tidy w.marks → d.isNull = true → b = false)
    (hsmall : Tidy w.marks → Fragments w.connection.bufferLength topic d len qos →
      headLength topic qos+(effectiveLen d len).toNat < 128^4)
    (r : Option ℕ × World)
    (hr : w.mqttClientEnqueuePublish topic d (effectiveLen d len) qos retain store = r) :
    (r.2.core.inFirstChunk = b ∧ (Tidy r.2.marks → LengthsOk r.2.core.lengths)) ∧
    ((Clear w.marks → PublishSafe ⟨[], 0, w.connection.outboundMessage.fragmentedMsgDataOffset⟩
        w.connection.bufferLength (5+headLength topic qos) d (effectiveLen d len)) →
      r.2.core.Fit .publish) ∧
    (Tidy r.2.marks → r.2.core.connection.leftover = 0 ∨ b = true ∨
      (r.1.isSome ∧ qos = 0 ∧ store = false ∧ Fragments w.connection.bufferLength topic d len qos)) := by
  obtain ⟨c,hc⟩ := w.makePublish_core topic d (effectiveLen d len) qos retain
  have hbehind := w.makePublish_behind topic d (effectiveLen d len) qos retain
  have hcases := enqueuePublish_cases w topic d (effectiveLen d len) qos retain store r hr _ rfl
  generalize hv : (w.makePublish topic d (effectiveLen d len) qos retain).2 = v at hc hbehind hcases
  -- what holds of the composed message
  have hmarks : v.marks = w.marks := congrArg Core.marks hc
  have hchunk : v.core.inFirstChunk = b := (congrArg Core.inFirstChunk hc).trans h.1
  have hok (ht : Tidy w.marks) : LengthsOk v.core.lengths := by
    rw [hc]
    exact (h.2 ht).1
  have hfit := h.fit hnull hsmall hv
  have hleft (ht : Tidy w.marks) := h.leftover ht (hsmall ht) hv
  -- nothing composed; QoS 0 and not stored; no memory, with all or a part in the buffer; stored
  rcases hcases with
    ⟨-,hnothing,he⟩ | ⟨hsome,-,hq,hs,he⟩ | ⟨-,-,-,hz,he⟩ | ⟨-,-,-,-,he⟩ | ⟨-,hsome,-,rest,o,ho,hrest,he⟩
  · rw [he]
    refine ⟨⟨hchunk, fun ht => hok (hmarks ▸ ?_)⟩, hfit, fun ht => ?_⟩
    · rwa [show r.2.marks = v.marks from congrArg Core.marks he] at ht
    rw [show r.2.marks = v.marks from congrArg Core.marks he, hmarks] at ht
    rcases hleft ht with hl | hl | ⟨-,hne⟩
    · exact Or.inl hl
    · exact Or.inr (Or.inl hl)
    · simp [World.nothingComposed, hne] at hnothing
  · rw [he]
    refine ⟨⟨hchunk, fun ht => hok (hmarks ▸ ?_)⟩, hfit, fun ht => ?_⟩
    · rwa [show r.2.marks = v.marks from congrArg Core.marks he] at ht
    rw [show r.2.marks = v.marks from congrArg Core.marks he, hmarks] at ht
    rcases hleft ht with hl | hl | ⟨hf,-⟩
    · exact Or.inl hl
    · exact Or.inr (Or.inl hl)
    · exact Or.inr (Or.inr ⟨hsome, hq, hs, hf⟩)
  · rw [he]
    refine ⟨⟨hchunk, fun ht => hok (hmarks ▸ ?_)⟩, hfit, fun _ => Or.inl hz⟩
    rwa [show r.2.marks = v.marks from congrArg Core.marks he] at ht
  · have hno (ht : Tidy r.2.marks) : False := by
      rw [show r.2.marks = .fragmentNotStored :: v.marks from congrArg Core.marks he] at ht
      exact absurd ht.head (by decide)
    rw [he]
    exact ⟨⟨hchunk, fun ht => (hno ht).elim⟩, fun _ ht => absurd ht.head (by decide),
      fun ht => (hno ht).elim⟩
  · have hmarks' : r.2.marks = w.marks := (congrArg Core.marks he).trans hmarks
    rw [he]
    refine ⟨⟨hchunk, fun ht => ?_⟩, hfit, fun _ => Or.inl rfl⟩
    rw [hmarks'] at ht
    obtain ⟨handle,msgId,msgQos,tick,pending,hlist⟩ := ho
    refine (hok ht).append hlist fun _ => ?_
    -- the rest is what the message announces behind the part in the buffer
    have hne : v.connection.outboundMessage.data ≠ [] := by
      intro hnil
      simp [World.nothingComposed, hnil] at hsome
    have hawaits := (h.announces ht (hnull ht) (hsmall ht) hv).1 hne
    change Awaits (if _ then 0 else effectiveLen d len-v.dataSent).toNat _ at hawaits
    rw [← hbehind] at hawaits
    apply Awaits.append
    rw [hrest]
    convert hawaits using 1
    split
    · rfl
    · exact Nat.add_zero _

theorem tidy_publish {topic : Option (List UInt8)} {d : CData} {len : ℤ} {qos retain bufferLength seen
    connection : ℕ} {offset : ℤ} {state : MqttState} {pc : TaskPc} {inCutError inFirstChunk : Bool}
    {marks : List Mark} (h : Tidy (.body (.publish topic d len qos retain) bufferLength offset seen
      connection state pc inCutError inFirstChunk :: marks)) :
    (d.isNull = true → inFirstChunk = false) ∧ (Fragments bufferLength topic d len qos →
      headLength topic qos+(effectiveLen d len).toNat < 128^4) := by
  have hm := h.head
  simp only [Mark.tidy, Bool.and_eq_true, Bool.not_eq_true', Bool.and_eq_false_iff,
    decide_eq_true_eq] at hm
  exact ⟨fun hd => hm.1.resolve_left fun hf => absurd (hd.symm.trans hf) (by decide), hm.2⟩

theorem tidy_enqueue {topic : Option (List UInt8)} {d : CData} {len : ℤ} {qos retain bufferLength seen
    connection : ℕ} {store : Bool} {offset : ℤ} {state : MqttState} {pc : TaskPc}
    {inCutError inFirstChunk : Bool} {marks : List Mark} (h : Tidy (.body
      (.enqueue topic d len qos retain store) bufferLength offset seen connection state pc inCutError
      inFirstChunk :: marks)) :
    (d.isNull = true → inFirstChunk = false) ∧ (Fragments bufferLength topic d len qos →
      (0 < qos ∨ store = true) ∧ headLength topic qos+(effectiveLen d len).toNat < 128^4) := by
  have hm := h.head
  simp only [Mark.tidy, Bool.and_eq_true, Bool.not_eq_true', Bool.and_eq_false_iff,
    decide_eq_true_eq] at hm
  exact ⟨fun hd => hm.1.resolve_left fun hf => absurd (hd.symm.trans hf) (by decide), hm.2⟩

def lengthRules : RunRules Bool where
  P := LengthP
  Q := LengthP
  R b s f c := LengthP b c ∧ (f = true → c.Fit s)
  M b _ := LengthM b
  L b _ _ := LengthP b
  Top b := b = false
  relax h := h
  settle h := h.1
  sent _ h _ := h.1.recordWrite h.2
  timedOut h _ := ⟨h.1.recordWrite h.2, fun _ => h.1.recordWrite h.2⟩
  failed {b _ _ _} h _ := ⟨b, h.1.recordWrite h.2, fun _ h' => ⟨h', fun _ => h'⟩⟩
  aborted {b w} h := by
    have hbelow : w.sessionOutbox.Below w.outbox := by
      unfold World.sessionOutbox
      split
      · exact Outbox.below_of_subset fun x hx =>
          List.mem_of_mem_filter (List.mem_of_mem_filter hx)
      · exact Outbox.Below.refl _
    exact ⟨h.1, fun ht => ⟨(h.2 ht).1.below hbelow, (h.2 ht).2⟩⟩
  control {b _ _ build w} hsite hb ht h _ := by
    have hzero (htidy : Tidy w.core.marks) : w.connection.leftover = 0 :=
      (h.2 htidy).2.resolve_right fun hf => absurd (ht.symm.trans hf) (by decide)
    exact ⟨⟨h.1, fun htidy => ⟨(h.2 htidy).1, Or.inl (hb.sound (hzero htidy)).2⟩⟩,
      fun _ htidy => ⟨fun _ => (hb.sound (hzero htidy)).1, fun hs => absurd hs hsite⟩⟩
  controlMqtt5 {_ _ _ _ _ _ w} _ _ _ h _ hv _ := by
    have hno (htidy : Tidy w.core.marks) : False := by
      have hf : w.isV5 = false := (h.2 htidy).1.v311
      exact absurd (hf.symm.trans hv) (by decide)
    exact ⟨⟨h.1, fun htidy => (hno htidy).elim⟩, fun _ htidy => (hno htidy).elim⟩
  load {_ x b w} _ h _ hx hb := by
    refine ⟨h, fun _ htidy => ⟨fun _ => ?_, fun hs => absurd hs (by decide)⟩⟩
    have hsound := (h.2 htidy).1.stored x hx
    rcases hb with rfl | rfl
    · exact hsound
    · exact hsound.mqttSetDup
  outbox h ho := ⟨h.1, fun ht => ⟨(h.2 ht).1.below ho, (h.2 ht).2⟩⟩
  outboxR h ho := ⟨⟨h.1.1, fun ht => ⟨(h.1.2 ht).1.below ho, (h.1.2 ht).2⟩⟩, h.2⟩
  reset h := ⟨h.1, fun ht => ⟨(h.2 ht).1, Or.inl rfl⟩⟩
  connecting h _ _ := h
  connected _ h _ := h
  reinit h _ := h
  begins h := h.mark
  setConfig {_ s _ w} h := by
    refine ⟨h.1, fun ht => ⟨⟨?_, (h.2 ht.tail).1.stored, (h.2 ht.tail).1.framed,
      fun hclear => (h.2 ht.tail).1.announced hclear.tail⟩, Or.inl rfl⟩⟩
    have hv : s.information.protocolVer ≠ .v5 := by simpa [Mark.tidy] using ht.head
    exact beq_eq_false_iff_ne.mpr hv
  enqueue {b topic d len qos retain store seen w} h := by
    rcases espMqttClientEnqueue_core (w.beginCall (.enqueue topic d len qos retain store) seen) topic d
      len qos retain store with he | he
    · rw [he]
      exact h.mark
    · rw [he]
      generalize hr : World.mqttClientEnqueuePublish _ topic d (effectiveLen d len) qos retain store = r
      obtain ⟨hm,-,hleft⟩ := enqueuePublish_lengths (b := b)
        (w := w.beginCall (.enqueue topic d len qos retain store) seen) h.mark topic d len qos retain
        store (fun ht hd => h.1.symm.trans ((tidy_enqueue ht).1 hd))
        (fun ht hf => ((tidy_enqueue ht).2 hf).2) r hr
      refine ⟨hm.1, fun ht => ⟨hm.2 ht, ?_⟩⟩
      rcases hleft ht with hl | hl | ⟨-,hq,hs,hf⟩
      · exact Or.inl hl
      · exact Or.inr hl
      · -- the call has been noted, and a message that does not fit has to be stored
        obtain ⟨c,o,ms,_,hc,hms⟩ := mqttClientEnqueuePublish_core
          (w.beginCall (.enqueue topic d len qos retain store) seen) topic d (effectiveLen d len) qos
          retain store
        rw [hr] at hc
        have ht' : Tidy (w.beginCall (.enqueue topic d len qos retain store) seen).marks := by
          rw [show r.2.core.marks = ms from congrArg Core.marks hc] at ht
          rcases hms with rfl | rfl
          · exact ht
          · exact ht.tail
        rcases ((tidy_enqueue ht').2 hf).1 with hpos | hstore
        · omega
        · exact absurd (hs.symm.trans hstore) (by decide)
  publish {b topic d len qos retain seen w} h r hr := by
    obtain ⟨hm,hfit,hleft⟩ := enqueuePublish_lengths (b := b)
      (w := w.beginCall (.publish topic d len qos retain) seen) h.mark topic d len qos retain
      false (fun ht hd => h.1.symm.trans ((tidy_publish ht).1 hd))
      (fun ht hf => (tidy_publish ht).2 hf) r hr
    have hfit := hfit fun hclear => of_decide_eq_true (Clear.head hclear)
    refine ⟨fun hnone => ⟨hm.1, fun ht => ⟨hm.2 ht, ?_⟩⟩, fun _ => ⟨hm.1, hm.2, hfit⟩⟩
    rcases hleft ht with hl | hl | ⟨hsome,-⟩
    · exact Or.inl hl
    · exact Or.inr hl
    · rw [hnone] at hsome
      exact absurd hsome (by decide)
  unsent h := ⟨h.1, fun ht => ⟨h.2.1 ht, Or.inl rfl⟩⟩
  cleared h := ⟨h.1, fun ht => ⟨(h.2 ht).1, Or.inl rfl⟩⟩
  overQuota {_ _ w} h hv := by
    refine ⟨h.1, fun ht => ?_⟩
    have hf : w.isV5 = false := (h.2.1 ht).v311
    exact absurd (hf.symm.trans hv) (by decide)
  firstChunk {b k _ w} h _ hk := by
    have hready : LengthP k (w.inChunk k).core := by
      refine ⟨rfl, fun ht => ⟨h.2.1 ht, ?_⟩⟩
      by_cases hz : w.connection.leftover = 0
      · exact Or.inl hz
      · exact Or.inr (hk.trans (decide_eq_true hz))
    refine ⟨k, ⟨hready, fun _ => h.2.2⟩, fun v hv _ => ⟨h.1, fun ht => ?_⟩,
      fun w' h' => ⟨h.1, fun ht => ⟨(h'.2 ht).1, Or.inl rfl⟩⟩⟩
    rw [hv] at ht ⊢
    exact ⟨((hready.recordWrite fun _ => h.2.2).2 ht).1, Or.inl rfl⟩
  nextChunk {b _ _ piece w} h _ _ _ := by
    have hready : LengthP b (w.refill piece).core := h
    refine ⟨⟨hready, fun hf => absurd hf (by decide)⟩, fun v hv _ => ?_⟩
    rw [← hv] at hready
    have hwrite := hready.recordWrite (s := .publish) (f := false) fun hf => absurd hf (by decide)
    exact ⟨hwrite.1, fun ht => ⟨(hwrite.2 ht).1, Or.inl rfl⟩⟩
  lastChunk h _ := h
  request {b c s type build seen w} hreq h w1 hw1 := by
    obtain ⟨e,he,hold,-⟩ := composeRequest_core (w.beginCall c seen).resetPendingMessage type seen build
    rw [← hw1] at he
    have hconn : w1.core.connection = e := congrArg Core.connection he
    have hbuild (ht : Tidy w1.core.marks) : Announces 0 w1.core.connection.outboundMessage.data ∧
        w1.core.connection.leftover = 0 := by
      have htw : Tidy w.core.marks := by
        rw [show w1.core.marks = _ :: w.marks from congrArg Core.marks he] at ht
        exact ht.tail
      rw [hconn, hold (h.2 htw).1.v311]
      exact hreq.sound rfl
    have hp : LengthP b w1.core := by
      refine ⟨(congrArg Core.inFirstChunk he).trans h.1, fun ht => ⟨?_, Or.inl (hbuild ht).2⟩⟩
      have hmark := h.mark (n := w.calls+1) (m := .body c w.connection.bufferLength
        w.connection.outboundMessage.fragmentedMsgDataOffset seen w.connections w.state w.pc w.inCutError
        w.inFirstChunk)
      rw [he] at ht ⊢
      exact (hmark.2 ht).1
    have hsite : s ≠ .publish := by
      cases hreq <;> decide
    refine ⟨hp, fun o ho => ⟨⟨hp.1, fun ht => ⟨?_, (hp.2 ht).2⟩⟩,
      fun _ ht => ⟨fun _ => (hbuild ht).1, fun hs => absurd hs hsite⟩⟩⟩
    obtain ⟨handle,msgId,msgQos,tick,pending,hlist⟩ := ho
    rw [List.append_nil] at hlist
    exact (hp.2 ht).1.append hlist (hbuild ht).1
  moves h _ _ := h
  exits {_ w} h := by
    have hbelow : w.taskExit.outbox.Below w.outbox := Outbox.removeAll_below _ _
    exact ⟨h.1, fun ht => ⟨(h.2 ht).1.below hbelow, (h.2 ht).2⟩⟩
  starts h _ _ := h
  refuses h _ := h
  stops h _ := h
  idles h _ := h
  joins h := h

theorem init_lengths {s : Settings} (hv : s.information.protocolVer ≠ .v5) (incremental : Bool)
    (e : Environment) : LengthP false (clientInit s incremental e).core :=
  ⟨rfl, fun _ => ⟨⟨beq_eq_false_iff_ne.mpr hv, fun _ hx => absurd hx List.not_mem_nil,
    fun _ hc => absurd hc List.not_mem_nil, fun _ _ hc => absurd hc List.not_mem_nil⟩, Or.inl rfl⟩⟩

/-- In every run of a 3.1.1 client that meets the conditions, the packets that
fix their own length have the right one, and between two steps no fragmented
message has left its total length behind. -/
theorem control_packets_consistent (s : Settings) (incremental : Bool) (e : Environment) (n : ℕ)
    (ss : List ClientStep) (hv : s.information.protocolVer ≠ .v5)
    (ht : Tidy (clientRun s incremental e n ss).marks) :
    ControlConsistent (clientRun s incremental e n ss).wire ∧
    (clientRun s incremental e n ss).connection.outboundMessage.fragmentedMsgTotalLength = 0 := by
  obtain ⟨-,hok⟩ := lengthRules.run_rule (i := false) s incremental e n ss rfl
    (init_lengths hv incremental e)
  refine ⟨fun c hc hfirst hcontrol => ?_, (hok ht).2.resolve_right (by decide)⟩
  apply Announces.sound
  exact (hok ht).1.framed c hc hfirst hcontrol

/-- A client that has one message enqueued and is stopped. -/
def stopAfter (c : ApiCall) : List ClientStep := connectSteps ++ [.check c, .body 0, .stop]

/-- A message that does not fit and is stored. -/
theorem control_packets_consistent_stored :
    ControlConsistent (clientRun smallSettings false acceptingBroker 0 (stopAfter storeLong)).wire ∧
    (clientRun smallSettings false acceptingBroker 0
      (stopAfter storeLong)).connection.outboundMessage.fragmentedMsgTotalLength = 0 :=
  control_packets_consistent smallSettings false acceptingBroker 0 (stopAfter storeLong) (by decide)
    (by unfold Tidy; decide +kernel)

/-- A message that does not fit and is not to be stored. -/
def dropLong : ApiCall := .enqueue (some [0x74]) (cBytes (List.replicate 40 5)) 40 0 0 false

/-- Its total length stays behind: the DISCONNECT claims 43 bytes and has none. -/
theorem disconnect_after_enqueue_inconsistent :
    smallSettings.information.protocolVer ≠ .v5 ∧
    ¬ ControlConsistent (clientRun smallSettings false acceptingBroker 0 (stopAfter dropLong)).wire := by
  refine ⟨by decide, fun h => ?_⟩
  have hwire : ∃ c ∈ (clientRun smallSettings false acceptingBroker 0 (stopAfter dropLong)).wire,
      c.first = true ∧ c.origin.control = true ∧ c.data = [0xe0, 43] := by decide +kernel
  obtain ⟨c,hc,hfirst,hcontrol,hdata⟩ := hwire
  obtain ⟨b,lens,body,he,hf,hv⟩ := h c hc hfirst hcontrol (by simp [hdata])
  rw [hdata, List.cons.injEq] at he
  have hfield : Base128.IsField [43] := by decide
  have heq : lens ++ body = [43] ++ [] := he.2.symm
  obtain ⟨rfl,rfl⟩ := hf.prefix_free hfield heq
  exact absurd hv (by decide)

end EspMqtt
