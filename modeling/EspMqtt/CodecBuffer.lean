import EspMqtt.Codec
import EspMqtt.MsgBuffer

/-! The calls on the buffer and the calls on lists of bytes compose the same
packets, and no index outside the buffer is written. -/
namespace EspMqtt
open Wire

namespace Composer

/-- All that was written lies in the buffer. -/
structure Sound (s : Composer) (c : Connection) : Prop where
  connection : s.connection = c
  buffer : s.buffer.length = c.bufferLength
  written : ∀ i ∈ s.written, i < c.bufferLength

/-- So far `acc` was composed, behind the five bytes kept for the fixed header. -/
structure Holds (s : Composer) (c : Connection) (acc : List UInt8) : Prop extends Sound s c where
  length : s.length = 5+acc.length
  room : 5+acc.length ≤ c.bufferLength
  body : ∃ gap rest : List UInt8, gap.length = 5 ∧ s.buffer = gap ++ (acc ++ rest)

/-- A step that composes `acc` if there is room for it, and fails else. -/
def Yields (r : Bool × Composer) (c : Connection) (acc : List UInt8) : Prop :=
  (r.1 = true ∧ Holds r.2 c acc) ∨ (r.1 = false ∧ Sound r.2 c ∧ c.bufferLength < 5+acc.length)

variable {s : Composer} {c : Connection} {acc : List UInt8}

theorem Sound.write (h : Sound s c) {i : ℕ} {bs : List UInt8} (hi : i+bs.length ≤ c.bufferLength) :
    Sound (s.write i bs) c where
  connection := h.connection
  buffer := by
    have hb := h.buffer
    exact (ByteBuffer.splice_length s.buffer bs i (by omega)).trans hb
  written := by
    intro j hj
    rcases List.mem_append.mp hj with hj | hj
    · exact h.written j hj
    · have := List.mem_range'_1.mp hj
      omega

theorem Sound.setMessageHeaderSize (h : Sound s c) (h5 : 5 ≤ c.bufferLength) :
    Holds s.setMessageHeaderSize c [] where
  toSound := ⟨h.connection, h.buffer, h.written⟩
  length := rfl
  room := h5
  body := by
    have hb := h.buffer
    refine ⟨s.buffer.take 5, s.buffer.drop 5, by rw [List.length_take]; omega, ?_⟩
    exact (List.take_append_drop 5 s.buffer).symm

theorem Sound.failMessage (h : Sound s c) :
    Sound s.failMessage (EspMqtt.failMessage c) where
  connection := congrArg EspMqtt.failMessage h.connection
  buffer := h.buffer
  written := h.written

theorem Holds.append (h : Holds s c acc) {b : List UInt8}
    (hroom : 5+acc.length+b.length ≤ c.bufferLength) : Holds (s.append b) c (acc ++ b) := by
  obtain ⟨gap,rest,hgap,hbuf⟩ := h.body
  have hlen : s.buffer.length = 5+acc.length+rest.length := by
    rw [hbuf]
    simp only [List.length_append, hgap]
    omega
  have hrest : b.length ≤ rest.length := by
    have := h.buffer
    omega
  have hsound : Sound (s.write s.length b) c := h.toSound.write (by rw [h.length]; omega)
  have hsplit : s.buffer = (gap ++ acc) ++ (rest.take b.length ++ rest.drop b.length) := by
    rw [hbuf, List.take_append_drop, List.append_assoc]
  have hwrite : ByteBuffer.splice s.buffer s.length b =
      gap ++ ((acc ++ b) ++ rest.drop b.length) := by
    have hpos : s.length = (gap ++ acc).length := by
      rw [h.length, List.length_append, hgap]
    rw [hpos, hsplit, ByteBuffer.splice_middle _ _ _ _ (by rw [List.length_take]; omega)]
    simp only [List.append_assoc]
  exact
    { toSound := ⟨hsound.connection, hsound.buffer, hsound.written⟩
      length := by
        change s.length+b.length = _
        rw [h.length, List.length_append]
        omega
      room := by rw [List.length_append]; omega
      body := ⟨gap, rest.drop b.length, hgap, hwrite⟩ }

/-- A byte that was composed already is written again. -/
theorem Holds.orFlag {pre post : List UInt8} {f : UInt8} (h : Holds s c (pre ++ f :: post))
    (flag : UInt8) : Holds (s.orFlag (5+pre.length) flag) c (pre ++ (f ||| flag) :: post) := by
  obtain ⟨gap,rest,hgap,hbuf⟩ := h.body
  have hroom := h.room
  have hl : (pre ++ f :: post).length = pre.length+1+post.length := by
    simp only [List.length_append, List.length_cons]
    omega
  have hpos : 5+pre.length = (gap ++ pre).length := by rw [List.length_append, hgap]
  have hsplit : s.buffer = (gap ++ pre) ++ ([f] ++ (post ++ rest)) := by
    rw [hbuf]
    simp
  have hread : s.buffer.getD (5+pre.length) 0 = f := by
    rw [hsplit, List.getD_append_right _ _ _ _ (by omega), hpos, Nat.sub_self]
    rfl
  have hsound : Sound (s.write (5+pre.length) [s.buffer.getD (5+pre.length) 0 ||| flag]) c :=
    h.toSound.write (by rw [List.length_singleton]; omega)
  have hwrite : ByteBuffer.splice s.buffer (5+pre.length) [f ||| flag] =
      gap ++ ((pre ++ (f ||| flag) :: post) ++ rest) := by
    rw [hpos, hsplit, ByteBuffer.splice_middle _ [f] [f ||| flag] _ rfl]
    simp
  exact
    { toSound := hsound
      length := by
        change s.length = _
        rw [h.length, hl]
        simp only [List.length_append, List.length_cons]
        omega
      room := by
        simp only [List.length_append, List.length_cons] at hroom ⊢
        exact hroom
      body := by
        refine ⟨gap, rest, hgap, ?_⟩
        change ByteBuffer.splice s.buffer (5+pre.length) [s.buffer.getD (5+pre.length) 0 ||| flag] = _
        rw [hread, hwrite] }

theorem Holds.appendString (h : Holds s c acc) (string : List UInt8) :
    Yields (s.appendString string) c (acc ++ countedString string) := by
  have hlen : (acc ++ countedString string).length = acc.length+2+string.length := by
    simp only [countedString, List.length_append, u16_length]
    omega
  have hl := h.length
  unfold Composer.appendString
  rw [h.connection]
  by_cases hroom : c.bufferLength < s.length+string.length+2
  · right
    rw [if_pos hroom]
    exact ⟨rfl, h.toSound, by omega⟩
  · left
    rw [if_neg hroom]
    have hcount := h.append (b := u16 string.length) (by rw [u16_length]; omega)
    have hboth := hcount.append (b := string)
      (by simp only [List.length_append, u16_length]; omega)
    rw [List.append_assoc] at hboth
    exact ⟨rfl, hboth⟩

/-- Once a step has failed for want of room, a longer packet fails, too. -/
theorem Yields.andThen {r : Bool × Composer} (h : Yields r c acc) {f : Composer → Bool × Composer}
    {acc' : List UInt8} (hle : acc.length ≤ acc'.length)
    (hf : ∀ s, Holds s c acc → Yields (f s) c acc') : Yields (andThen r f) c acc' := by
  unfold Composer.andThen
  rcases h with ⟨h1,h2⟩ | ⟨h1,h2,h3⟩
  · rw [if_pos h1]
    exact hf r.2 h2
  · right
    rw [if_neg (by simp [h1])]
    exact ⟨h1, h2, by omega⟩

/-- What `fini_message` announces. -/
theorem Holds.totalLength_eq (h : Holds s c acc) :
    s.totalLength = c.outboundMessage.remainingLength acc := by
  have hl := h.length
  unfold totalLength OutMessage.remainingLength
  dsimp only
  rw [h.connection, hl]
  congr 1
  omega

theorem Holds.fini (h : Holds s c acc) (type : MsgType) (dup qos retain : ℕ) :
    Sound (s.finiMessage type dup qos retain) (EspMqtt.finiMessage c type dup qos retain acc) := by
  obtain ⟨gap,rest,hgap,hbuf⟩ := h.body
  have hl := h.length
  have hroom := h.room
  have htotal := h.totalLength_eq
  unfold Composer.finiMessage EspMqtt.finiMessage
  dsimp only
  rw [htotal]
  generalize encodedLens 5 (c.outboundMessage.remainingLength acc) = lens
  by_cases hfive : 5 < lens.length+1
  · rw [if_pos hfive, if_pos hfive]
    exact h.toSound.failMessage
  rw [if_neg hfive, if_neg hfive]
  -- the gap ends with the type byte and the length bytes
  obtain ⟨front,old,olds,hsplit,hfront,holds⟩ : ∃ front old olds, gap = front ++ ([old] ++ olds) ∧
      front.length = 5-1-lens.length ∧ olds.length = lens.length := by
    refine ⟨gap.take (5-1-lens.length), gap.getD (5-1-lens.length) 0,
      gap.drop (5-1-lens.length+1), ?_, ?_, ?_⟩
    · have hone := ByteBuffer.take_succ_getD gap (5-1-lens.length) 0 (by omega)
      rw [← List.append_assoc, ← hone, List.take_append_drop]
    · rw [List.length_take]
      omega
    · rw [List.length_drop]
      omega
  have hone : ByteBuffer.splice s.buffer (5-1-lens.length) [headerByte type dup qos retain] =
      front ++ ([headerByte type dup qos retain] ++ (olds ++ (acc ++ rest))) := by
    rw [hbuf, hsplit, ← hfront]
    simp only [List.append_assoc]
    exact ByteBuffer.splice_middle front [old] _ _ rfl
  have htwo : ByteBuffer.splice (ByteBuffer.splice s.buffer (5-1-lens.length)
      [headerByte type dup qos retain]) (5-1-lens.length+1) lens =
      front ++ ([headerByte type dup qos retain] ++ (lens ++ (acc ++ rest))) := by
    have hpos : 5-1-lens.length+1 = (front ++ [headerByte type dup qos retain]).length := by
      rw [List.length_append, hfront, List.length_singleton]
    rw [hone, ← List.append_assoc, hpos, ByteBuffer.splice_middle _ _ _ _ holds.symm,
      List.append_assoc]
  have hdata : ((ByteBuffer.splice (ByteBuffer.splice s.buffer (5-1-lens.length)
      [headerByte type dup qos retain]) (5-1-lens.length+1) lens).drop (5-1-lens.length)).take
        (s.length-5+lens.length+1) = headerByte type dup qos retain :: (lens ++ acc) := by
    have hcount : s.length-5+lens.length+1 =
        ([headerByte type dup qos retain] ++ (lens ++ acc)).length := by
      simp only [List.length_append, List.length_singleton]
      omega
    have hassoc : [headerByte type dup qos retain] ++ (lens ++ (acc ++ rest)) =
        ([headerByte type dup qos retain] ++ (lens ++ acc)) ++ rest := by
      simp only [List.append_assoc]
    rw [htwo, ← hfront, List.drop_left, hcount, hassoc, List.take_left]
    rfl
  have hsound : Sound ((s.write (5-1-lens.length) [headerByte type dup qos retain]).write
      (5-1-lens.length+1) lens) c := by
    apply Sound.write
    · exact h.toSound.write (by rw [List.length_singleton]; omega)
    · omega
  refine ⟨?_, hsound.buffer, hsound.written⟩
  have hcast : ((5-1-lens.length : ℕ) : ℤ) = 4-(lens.length : ℤ) := by omega
  change Connection.mk _ _ _ _ _ = Connection.mk _ _ _ _ _
  rw [h.connection]
  congr 1
  congr 1
  · rw [hcast]

/-- The end of a call. -/
theorem Yields.finish {r : Bool × Composer} (h : Yields r c acc) (type : MsgType) (qos : ℕ) :
    Sound (finish r type qos 0) (finiOrFail c type qos (ifRoom c.bufferLength acc)) := by
  unfold Composer.finish ifRoom
  rcases h with ⟨h1,h2⟩ | ⟨h1,h2,h3⟩
  · rw [if_pos h1, if_pos h2.room]
    exact h2.fini type 0 qos 0
  · rw [if_neg (by simp [h1]), if_neg (by omega)]
    exact h2.failMessage

/-- The identifier, behind what was composed so far. -/
theorem Holds.appendMessageId (h : Holds s c acc) (messageId : ℕ) :
    (5+(acc ++ u16 (c.messageId messageId).1).length ≤ c.bufferLength ∧
      (s.appendMessageId messageId).1 = (c.messageId messageId).1 ∧
      Holds (s.appendMessageId messageId).2 (c.messageId messageId).2
        (acc ++ u16 (c.messageId messageId).1)) ∨
    (c.bufferLength < 5+(acc ++ u16 (c.messageId messageId).1).length ∧
      (s.appendMessageId messageId).1 = 0 ∧
      Sound (s.appendMessageId messageId).2 (c.messageId messageId).2) := by
  obtain ⟨-,hbl⟩ := messageId_frame c messageId
  have hl := h.length
  have hdrawn : Holds {s with connection := (c.messageId messageId).2} (c.messageId messageId).2 acc :=
    ⟨⟨rfl, h.buffer.trans hbl.symm, fun i hi => (h.written i hi).trans_eq hbl.symm⟩, hl,
      h.room.trans_eq hbl.symm, h.body⟩
  have hlen : (acc ++ u16 (c.messageId messageId).1).length = acc.length+2 := by
    rw [List.length_append, u16_length]
  unfold Composer.appendMessageId
  dsimp only
  rw [h.connection, hbl]
  by_cases hroom : c.bufferLength < s.length+2
  · right
    rw [if_pos hroom]
    exact ⟨by omega, rfl, hdrawn.toSound⟩
  · left
    rw [if_neg hroom]
    refine ⟨by omega, rfl, hdrawn.append ?_⟩
    rw [u16_length, hbl]
    omega

/-- An identifier is never zero. -/
theorem messageId_pos (c : Connection) (messageId : ℕ) : 1 ≤ (c.messageId messageId).1 := by
  by_cases h : messageId = 0
  · subst h
    exact (messageId_range c).1
  · unfold Connection.messageId
    rw [if_pos h]
    exact Nat.one_le_iff_ne_zero.mpr h

theorem ackMessage_sound (hs : Sound s c) (h5 : 5 ≤ c.bufferLength) (type : MsgType) (qos id : ℕ) :
    Sound (ackMessage type qos s id) (EspMqtt.ackMessage type qos c id) := by
  obtain ⟨hbody,hdrawn⟩ := appendMessageId_first c id
  have hpos := messageId_pos c id
  unfold EspMqtt.ackMessage Composer.ackMessage
  dsimp only
  rw [hbody, hdrawn]
  have hfirst := (hs.setMessageHeaderSize h5).appendMessageId id
  rw [List.nil_append] at hfirst
  rcases hfirst with ⟨hroom,h1,h2⟩ | ⟨hroom,h1,h2⟩
  · rw [h1, if_neg (by omega), if_pos hroom]
    exact h2.fini type 0 qos 0
  · rw [h1, if_pos rfl, if_neg (not_le.mpr hroom)]
    exact h2.failMessage

theorem appendTopics_yields (topics : List (List UInt8 × ℕ)) (hne : ∀ t ∈ topics, t.1 ≠ [])
    (h : Holds s c acc) : Yields (appendTopics topics s) c (acc ++ topics.flatMap subscription) := by
  induction topics generalizing s acc with
  | nil =>
    left
    rw [List.flatMap_nil, List.append_nil]
    exact ⟨rfl,h⟩
  | cons t ts ih =>
    obtain ⟨filter,qos⟩ := t
    have hf : filter ≠ [] := hne _ List.mem_cons_self
    have hsplit : acc ++ ((filter, qos) :: ts).flatMap subscription =
        (acc ++ countedString filter) ++ ([UInt8.ofNat qos] ++ ts.flatMap subscription) := by
      simp only [List.flatMap_cons, subscription, List.append_assoc]
    rw [appendTopics, if_neg hf, hsplit]
    apply (h.appendString filter).andThen (by simp only [List.length_append]; omega)
    intro s h
    have hl := h.length
    rw [h.connection]
    by_cases hroom : c.bufferLength < s.length+1
    · right
      rw [if_pos hroom]
      refine ⟨rfl, h.toSound, ?_⟩
      have hmore : (acc ++ countedString filter ++
          ([UInt8.ofNat qos] ++ ts.flatMap subscription)).length =
          (acc ++ countedString filter).length+1+(ts.flatMap subscription).length := by
        simp only [List.length_append, List.length_singleton]
        omega
      omega
    · rw [if_neg hroom, ← List.append_assoc]
      apply ih (fun t ht => hne t (List.mem_cons_of_mem _ ht))
      exact h.append (by rw [List.length_singleton]; omega)

theorem mqttMsgSubscribe_sound (hs : Sound s c) (h5 : 5 ≤ c.bufferLength)
    {topics : List (List UInt8 × ℕ)} (hne : ∀ t ∈ topics, t.1 ≠ []) :
    (mqttMsgSubscribe s topics).1 = (EspMqtt.mqttMsgSubscribe c topics).1 ∧
    Sound (mqttMsgSubscribe s topics).2 (EspMqtt.mqttMsgSubscribe c topics).2 := by
  have hid := messageId_pos c 0
  obtain ⟨-,hbl⟩ := messageId_frame c 0
  rw [mqttMsgSubscribe_eq c hne]
  have hfirst := (hs.setMessageHeaderSize h5).appendMessageId 0
  rw [List.nil_append] at hfirst
  unfold Composer.mqttMsgSubscribe EspMqtt.mqttMsgSubscribe EspMqtt.appendMessageId
  dsimp only
  rw [u16_length] at hfirst
  rcases hfirst with ⟨hroom,h1,h2⟩ | ⟨hroom,h1,h2⟩
  · rw [h1, if_neg (by omega), if_neg (by simp; omega)]
    have hall := (appendTopics_yields topics hne h2).finish .subscribe 1
    rw [hbl] at hall
    exact ⟨rfl, hall⟩
  · rw [h1, if_pos rfl, if_pos (by simp; omega)]
    have hnone : ifRoom c.bufferLength ((Outgoing.subscribe topics).body (c.messageId 0).1) = none := by
      apply if_neg
      simp only [Outgoing.body, List.length_append, u16_length]
      omega
    rw [hnone]
    exact ⟨rfl, h2.failMessage⟩

theorem mqttMsgUnsubscribe_sound (hs : Sound s c) (h5 : 5 ≤ c.bufferLength) {topic : List UInt8}
    (hne : topic ≠ []) :
    (mqttMsgUnsubscribe s (some topic)).1 = (EspMqtt.mqttMsgUnsubscribe c (some topic)).1 ∧
    Sound (mqttMsgUnsubscribe s (some topic)).2 (EspMqtt.mqttMsgUnsubscribe c (some topic)).2 := by
  have hid := messageId_pos c 0
  obtain ⟨-,hbl⟩ := messageId_frame c 0
  rw [mqttMsgUnsubscribe_eq c hne]
  have hfirst := (hs.setMessageHeaderSize h5).appendMessageId 0
  rw [List.nil_append, u16_length] at hfirst
  obtain ⟨b,bs,rfl⟩ := List.exists_cons_of_ne_nil hne
  unfold Composer.mqttMsgUnsubscribe EspMqtt.mqttMsgUnsubscribe EspMqtt.appendMessageId
  dsimp only
  rcases hfirst with ⟨hroom,h1,h2⟩ | ⟨hroom,h1,h2⟩
  · rw [h1, if_neg (by omega), if_neg (by simp; omega)]
    have hall := (h2.appendString (b :: bs)).finish .unsubscribe 1
    rw [hbl] at hall
    exact ⟨rfl, hall⟩
  · rw [h1, if_pos rfl, if_pos (by simp; omega)]
    have hnone : ifRoom c.bufferLength ((Outgoing.unsubscribe (b :: bs)).body (c.messageId 0).1) =
        none := by
      apply if_neg
      simp only [Outgoing.body, List.length_append, u16_length]
      omega
    rw [hnone]
    exact ⟨rfl, h2.failMessage⟩

/-! CONNECT: the flags are completed while the payload grows. -/

/-- A CONNECT of `i` as it stands in the buffer with the flags `f` and the `payload`. -/
def connectBody (i : ConnectInfo) (f : UInt8) (payload : List UInt8) : List UInt8 :=
  i.name ++ f :: (u16 i.keepalive ++ payload)

/-- The index of the flags. -/
def flagsOffset (i : ConnectInfo) : ℕ := 5+i.name.length

def willFlags (i : ConnectInfo) : UInt8 :=
  if (given i.willTopic).isSome then
    4 ||| (if i.willRetain then 32 else 0) ||| UInt8.ofNat (i.willQos % 4*8)
  else 0

variable {i : ConnectInfo} {f : UInt8} {payload : List UInt8}

theorem connectBody_append (more : List UInt8) :
    connectBody i f payload ++ more = connectBody i f (payload ++ more) := by
  simp [connectBody]

theorem connectBody_length : (connectBody i f payload).length = i.name.length+3+payload.length := by
  simp only [connectBody, List.length_append, List.length_cons, u16_length]
  omega

theorem Holds.orConnectFlag (h : Holds s c (connectBody i f payload)) (flag : UInt8) :
    Holds (s.orFlag (flagsOffset i) flag) c (connectBody i (f ||| flag) payload) := h.orFlag flag

theorem Holds.appendConnectString (h : Holds s c (connectBody i f payload)) (string : List UInt8) :
    Yields (s.appendString string) c (connectBody i f (payload ++ countedString string)) := by
  have hyields := h.appendString string
  rwa [connectBody_append] at hyields

/-- A string and the flag that announces it. -/
theorem Holds.announce (h : Holds s c (connectBody i f payload)) (string : List UInt8)
    (flag : UInt8) :
    Yields (Composer.andThen (s.appendString string) fun s => (true, s.orFlag (flagsOffset i) flag)) c
      (connectBody i (f ||| flag) (payload ++ countedString string)) := by
  apply (h.appendConnectString string).andThen (by rw [connectBody_length, connectBody_length])
  intro s h
  exact Or.inl ⟨rfl, h.orConnectFlag flag⟩

theorem appendWill_yields (h : Holds s c (connectBody i f payload)) :
    Yields (appendWill (flagsOffset i) i s) c
      (connectBody i (f ||| willFlags i) (payload ++ i.willBytes)) := by
  unfold appendWill willFlags ConnectInfo.willBytes ConnectInfo.sentWill
  cases hg : given i.willTopic with
  | none =>
    left
    simpa using h
  | some topic =>
    have hboth : Yields (Composer.andThen (s.appendString topic) fun s => s.appendString i.willMessage)
        c (connectBody i f (payload ++ (countedString topic ++ countedString i.willMessage))) := by
      rw [← List.append_assoc]
      apply (h.appendConnectString topic).andThen
      · simp only [connectBody_length, List.length_append]
        omega
      · intro s h
        exact h.appendConnectString i.willMessage
    dsimp only [Option.map_some]
    apply hboth.andThen (by rw [connectBody_length, connectBody_length])
    intro s h
    left
    refine ⟨rfl, ?_⟩
    have hwill := h.orConnectFlag 4
    cases i.willRetain with
    | true =>
      have hall := (hwill.orConnectFlag 32).orConnectFlag (UInt8.ofNat (i.willQos % 4*8))
      simpa only [Option.isSome_some, if_true, UInt8.or_assoc] using hall
    | false =>
      have hall := hwill.orConnectFlag (UInt8.ofNat (i.willQos % 4*8))
      simpa [UInt8.or_assoc] using hall

theorem appendUsername_yields (h : Holds s c (connectBody i f payload)) :
    Yields (appendUsername (flagsOffset i) i s) c
      (connectBody i (f ||| if (given i.username).isSome then 128 else 0)
        (payload ++ optionalBytes (given i.username))) := by
  unfold appendUsername
  cases given i.username with
  | none =>
    left
    simpa [optionalBytes] using h
  | some username => exact h.announce username 128

/-- The empty user name that goes with a password alone. -/
def insertedUsername (i : ConnectInfo) : Option (List UInt8) :=
  if (given i.username).isNone ∧ (given i.password).isSome then some [] else none

theorem appendPassword_yields (h : Holds s c (connectBody i f payload)) :
    Yields (appendPassword (flagsOffset i) i s) c
      (connectBody i (f ||| (if (insertedUsername i).isSome then 128 else 0) |||
          if (given i.password).isSome then 64 else 0)
        (payload ++ (optionalBytes (insertedUsername i) ++ optionalBytes (given i.password)))) := by
  unfold appendPassword insertedUsername
  cases hp : given i.password with
  | none =>
    left
    simpa [optionalBytes] using h
  | some password =>
    dsimp only
    cases hu : given i.username with
    | some username =>
      simp only [Option.isNone_some, Bool.false_eq_true, if_false, false_and, Option.isSome_none,
        UInt8.or_zero, Option.isSome_some, if_true]
      exact h.announce password 64
    | none =>
      simp only [Option.isNone_none, if_true, Option.isSome_some, and_self, ← List.append_assoc]
      apply (h.announce [] 128).andThen
      · simp only [connectBody_length, List.length_append, optionalBytes, Option.map_some,
          Option.getD_some]
        omega
      · intro s h
        exact h.announce password 64

/-- The flags as they were put together are the flags of the packet. -/
theorem connectFlags_eq (i : ConnectInfo) :
    (if i.cleanSession then 0 ||| 2 else 0) ||| willFlags i |||
      (if (given i.username).isSome then 128 else 0) |||
      (if (insertedUsername i).isSome then 128 else 0) |||
      (if (given i.password).isSome then 64 else 0) = UInt8.ofNat i.flags := by
  have hall : ∀ (clean will retain user pass : Bool) (q : Fin 4),
      (if clean then 0 ||| 2 else 0) |||
        (if will then 4 ||| (if retain then 32 else 0) ||| UInt8.ofNat (q.val*8) else 0) |||
        (if user then 128 else 0) ||| (if !user && pass then 128 else 0) |||
        (if pass then 64 else 0) =
      UInt8.ofNat ((if clean then 2 else 0)+
        (if will then 4+(if retain then 32 else 0)+q.val*8 else 0)+
        (if user || pass then 128 else 0)+(if pass then 64 else 0)) := by decide
  have hinserted : (insertedUsername i).isSome =
      (!(given i.username).isSome && (given i.password).isSome) := by
    unfold insertedUsername
    cases given i.username <;> cases given i.password <;> rfl
  have hone := hall i.cleanSession (given i.willTopic).isSome i.willRetain (given i.username).isSome
    (given i.password).isSome ⟨i.willQos % 4, Nat.mod_lt _ (by decide)⟩
  rw [hinserted]
  unfold willFlags ConnectInfo.flags
  simpa only [Bool.or_eq_true] using hone

theorem connectPayload_eq (i : ConnectInfo) :
    countedString ((given i.clientId).getD []) ++ i.willBytes ++ optionalBytes (given i.username) ++
      (optionalBytes (insertedUsername i) ++ optionalBytes (given i.password)) =
    i.fields.flatMap countedString := by
  rw [fields_bytes]
  unfold insertedUsername ConnectInfo.sentUsername
  cases given i.username <;> cases given i.password <;> simp [optionalBytes]

/-- The variable header with no flags yet. -/
theorem Holds.connectHeader (h : Holds s c []) (i : ConnectInfo)
    (hroom : 5+(i.name.length+3) ≤ c.bufferLength) :
    Holds ((({s with length := 5+(i.name.length+3)} : Composer).write 5 i.name).write (flagsOffset i)
      (0 :: u16 i.keepalive)) c (connectBody i 0 []) := by
  have hname := h.append (b := i.name) (by simp only [List.length_nil]; omega)
  have hboth := hname.append (b := 0 :: u16 i.keepalive)
    (by simp only [List.nil_append, List.length_cons, u16_length]; omega)
  have hsame : (s.append i.name).append (0 :: u16 i.keepalive) =
      (({s with length := 5+(i.name.length+3)} : Composer).write 5 i.name).write (flagsOffset i)
        (0 :: u16 i.keepalive) := by
    have hl : s.length = 5 := h.length
    unfold Composer.append Composer.write flagsOffset
    rw [hl]
    rfl
  rw [hsame] at hboth
  have hbody : [] ++ i.name ++ 0 :: u16 i.keepalive = connectBody i 0 [] := by
    unfold connectBody
    rw [List.nil_append, List.append_nil]
  rwa [hbody] at hboth

theorem Holds.cleanFlag (h : Holds s c (connectBody i 0 payload)) :
    Holds (if i.cleanSession then s.orFlag (flagsOffset i) 2 else s) c
      (connectBody i (if i.cleanSession then 0 ||| 2 else 0) payload) := by
  cases i.cleanSession with
  | true => exact h.orConnectFlag 2
  | false => exact h

theorem mqttMsgConnect_sound (hs : Sound s c) (h5 : 5 ≤ c.bufferLength) (i : ConnectInfo) :
    Sound (mqttMsgConnect s i) (EspMqtt.mqttMsgConnect c i) := by
  have hstart := hs.setMessageHeaderSize h5
  have hlen : (if i.protocolVer = .v31 then 12 else 10) = i.name.length+3 := by
    unfold ConnectInfo.name
    split <;> rfl
  have hbody : (Outgoing.connect i).body 0 =
      connectBody i (UInt8.ofNat i.flags) (i.fields.flatMap countedString) := by
    change i.name ++ UInt8.ofNat i.flags :: u16 i.keepalive ++ _ = _
    unfold connectBody
    simp
  have hfive : s.setMessageHeaderSize.length = 5 := rfl
  rw [mqttMsgConnect_eq c i 0, hbody]
  unfold Composer.mqttMsgConnect
  dsimp only
  rw [hstart.connection, hfive, hlen]
  by_cases hroom : c.bufferLength < 5+(i.name.length+3)
  · rw [if_pos hroom]
    have hnone : ifRoom c.bufferLength
        (connectBody i (UInt8.ofNat i.flags) (i.fields.flatMap countedString)) = none := by
      apply if_neg
      rw [connectBody_length]
      omega
    rw [hnone]
    exact hstart.toSound.failMessage
  rw [if_neg hroom]
  -- the header, then one field after the other
  have hheader := hstart.connectHeader i (by omega)
  rw [hstart.connection] at hheader
  have hclient := hheader.cleanFlag.appendConnectString ((given i.clientId).getD [])
  have hmore {f f' : UInt8} {payload more : List UInt8} :
      (connectBody i f payload).length ≤ (connectBody i f' (payload ++ more)).length := by
    rw [connectBody_length, connectBody_length, List.length_append]
    omega
  have hwill := hclient.andThen hmore fun s h => appendWill_yields h
  have huser := hwill.andThen hmore fun s h => appendUsername_yields h
  have hpass := huser.andThen hmore fun s h => appendPassword_yields h
  rw [List.nil_append, connectPayload_eq, connectFlags_eq] at hpass
  exact hpass.finish .connect 0

/-! PUBLISH. -/

theorem Holds.appendPayload (h : Holds s c acc) (d : CData) {dataLength : ℤ} (hd : 0 ≤ dataLength) :
    Holds (s.appendPayload d dataLength) (EspMqtt.appendPayload c d dataLength acc).2
      (EspMqtt.appendPayload c d dataLength acc).1 := by
  have hl := h.length
  have hroom := h.room
  unfold Composer.appendPayload EspMqtt.appendPayload
  dsimp only
  rw [h.connection, hl]
  by_cases hnull : d.isNull = true
  · rw [if_pos hnull, if_pos hnull]
    exact h
  rw [if_neg hnull, if_neg hnull]
  by_cases hcut : (c.bufferLength : ℤ) < ((5+acc.length : ℕ) : ℤ)+dataLength
  · have hcut' : (c.bufferLength : ℤ) < 5+acc.length+dataLength := by omega
    rw [if_pos hcut, if_pos hcut']
    have hfill := h.append (b := d.slice 0 (c.bufferLength-(5+acc.length)))
      (by rw [CData.slice_length]; omega)
    exact ⟨⟨by push_cast; rfl, hfill.buffer, hfill.written⟩, hfill.length, hfill.room, hfill.body⟩
  · have hcut' : ¬ (c.bufferLength : ℤ) < 5+acc.length+dataLength := by omega
    rw [if_neg hcut, if_neg hcut']
    have hall := h.append (b := d.slice 0 dataLength.toNat)
      (by rw [CData.slice_length]; omega)
    exact ⟨⟨rfl, hall.buffer, hall.written⟩, hall.length, hall.room, hall.body⟩

theorem mqttMsgPublish_sound (hs : Sound s c) (h5 : 5 ≤ c.bufferLength) (topic : Option (List UInt8))
    (d : CData) {dataLength : ℤ} (hd : 0 ≤ dataLength) (qos retain : ℕ) :
    (mqttMsgPublish s topic d dataLength qos retain).1 =
      (EspMqtt.mqttMsgPublish c topic d dataLength qos retain).1 ∧
    Sound (mqttMsgPublish s topic d dataLength qos retain).2
      (EspMqtt.mqttMsgPublish c topic d dataLength qos retain).2 := by
  have hstart := hs.setMessageHeaderSize h5
  unfold Composer.mqttMsgPublish EspMqtt.mqttMsgPublish
  match topic with
  | none => exact ⟨rfl, hstart.toSound.failMessage⟩
  | some [] => exact ⟨rfl, hstart.toSound.failMessage⟩
  | some (b :: bs) =>
    dsimp only
    generalize b :: bs = topic
    have hlen : (countedString topic).length = topic.length+2 := by
      simp only [countedString, List.length_append, u16_length]
      omega
    unfold EspMqtt.appendString
    have htopic := hstart.appendString topic
    rw [List.nil_append] at htopic
    rcases htopic with ⟨h1,h2⟩ | ⟨h1,h2,h3⟩
    · have hroom := h2.room
      have hfit : ¬ c.bufferLength < 5+([] : List UInt8).length+topic.length+2 := by
        rw [List.length_nil]
        omega
      rw [h1, if_neg Bool.noConfusion, if_neg hfit]
      dsimp only
      by_cases hnull : d.isNull = true ∧ 0 < dataLength
      · rw [if_pos hnull, if_pos hnull]
        exact ⟨rfl, h2.toSound.failMessage⟩
      rw [if_neg hnull, if_neg hnull]
      by_cases hq : 0 < qos
      · have hid := messageId_pos c 0
        obtain ⟨-,hbl⟩ := messageId_frame c 0
        simp only [EspMqtt.appendMessageId, hq, true_and, if_true]
        rcases h2.appendMessageId 0 with ⟨hr,e1,e2⟩ | ⟨hr,e1,e2⟩
        · have hfit' : ¬ c.bufferLength < 5+([] ++ u16 topic.length ++ topic).length+2 := by
            simp only [List.length_append, List.length_nil, u16_length, hlen] at hr ⊢
            omega
          rw [e1, if_neg (by omega), if_neg hfit']
          exact ⟨rfl, (e2.appendPayload d hd).fini .publish 0 qos retain⟩
        · have hfit' : c.bufferLength < 5+([] ++ u16 topic.length ++ topic).length+2 := by
            simp only [List.length_append, List.length_nil, u16_length, hlen] at hr ⊢
            omega
          rw [e1, if_pos rfl, if_pos hfit']
          exact ⟨rfl, e2.failMessage⟩
      · simp only [hq, false_and, if_false]
        exact ⟨trivial, (h2.appendPayload d hd).fini .publish 0 qos retain⟩
    · have hfit : c.bufferLength < 5+([] : List UInt8).length+topic.length+2 := by
        rw [List.length_nil]
        omega
      rw [if_pos h1, if_pos hfit]
      exact ⟨rfl, h2.failMessage⟩

end Composer

/-- The call that composes a packet, on the buffer. -/
def Outgoing.composeIn (s : Composer) : Outgoing → ℕ × Composer
  | .connect i => (0, s.mqttMsgConnect i)
  | .publish topic d dataLength qos retain => s.mqttMsgPublish (some topic) d dataLength qos retain
  | .subscribe topics => s.mqttMsgSubscribe topics
  | .unsubscribe topic => s.mqttMsgUnsubscribe (some topic)
  | .puback id => (id, s.mqttMsgPuback id)
  | .pubrec id => (id, s.mqttMsgPubrec id)
  | .pubrel id => (id, s.mqttMsgPubrel id)
  | .pubcomp id => (id, s.mqttMsgPubcomp id)
  | .pingreq => (0, s.mqttMsgPingreq)
  | .disconnect => (0, s.mqttMsgDisconnect)

/-- The calls on the buffer do what the calls on lists do, and stay in the buffer. -/
theorem composeIn_sound {q : Outgoing} {s : Composer} {c : Connection} (hs : s.Sound c)
    (h5 : 5 ≤ c.bufferLength) (hrange : q.InRange) :
    (q.composeIn s).1 = (q.compose c).1 ∧ (q.composeIn s).2.Sound (q.compose c).2 := by
  have hstart := hs.setMessageHeaderSize h5
  cases q with
  | connect i => exact ⟨rfl, Composer.mqttMsgConnect_sound hs h5 i⟩
  | publish topic d len qos retain =>
    exact Composer.mqttMsgPublish_sound hs h5 (some topic) d hrange.2.2.1 qos retain
  | subscribe topics =>
    exact Composer.mqttMsgSubscribe_sound hs h5 fun t ht => (hrange t ht).1
  | unsubscribe topic => exact Composer.mqttMsgUnsubscribe_sound hs h5 hrange.1
  | puback id => exact ⟨rfl, Composer.ackMessage_sound hs h5 .puback 0 id⟩
  | pubrec id => exact ⟨rfl, Composer.ackMessage_sound hs h5 .pubrec 0 id⟩
  | pubrel id => exact ⟨rfl, Composer.ackMessage_sound hs h5 .pubrel 1 id⟩
  | pubcomp id => exact ⟨rfl, Composer.ackMessage_sound hs h5 .pubcomp 0 id⟩
  | pingreq => exact ⟨rfl, hstart.fini .pingreq 0 0 0⟩
  | disconnect => exact ⟨rfl, hstart.fini .disconnect 0 0 0⟩

end EspMqtt
