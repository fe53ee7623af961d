import EspMqtt.RuntimeSlots
import EspMqtt.RuntimeApi

/-! The public reassembler `emqtt_receive` (`runtime/emqtt_contract.c`) against the
runtime's own DATA path: one keeps a fixed message and copies its metadata in and
out, the other owns a buffer of the declared length. -/
namespace EspMqtt

/-- `emqtt_receiver_t`; `message` is `none` when the pointer is NULL. -/
structure EmqttReceiver where
  message : Option Message
  received : ℕ
  active : Bool
  deriving DecidableEq, Repr

/-- `emqtt_receive_reset` of a receiver that is there. -/
def emqttReceiveReset (r : EmqttReceiver) : EmqttReceiver := {r with active := false, received := 0}

/-- The metadata of a message, as `emqtt_receive` copies it out. -/
def Message.info (m : Message) : MessageInfo :=
  ⟨m.topic, m.length, m.messageId, m.qos, m.retain, m.duplicate⟩

def zeroInfo : MessageInfo := ⟨[], 0, 0, 0, false, false⟩

/-- And as it copies it back. -/
def Message.withInfo (m : Message) (i : MessageInfo) : Message :=
  {m with topic := i.topic, length := i.length, messageId := i.messageId, qos := i.qos,
          retain := i.retain, duplicate := i.duplicate}

/-- `emqtt_receive` of a receiver that is there; the fragment may be NULL. -/
def emqttReceive (r : EmqttReceiver) (f : Option Fragment) : RxResult × EmqttReceiver :=
  match r.message, f with
  | none, _ => (.rejected, emqttReceiveReset r)
  | some _, none => (.rejected, {r with received := 0, active := false})
  | some m, some f =>
    let info := if r.active then m.info else zeroInfo
    match emqttReceiveInto ⟨r.received,r.active⟩ info m.payload emqttPayloadMax f with
    | (.rejected, st, _, payload) =>
      (.rejected, ⟨some {m with payload := payload}, st.received, st.active⟩)
    | (result, st, info, payload) =>
      (result, ⟨some ({m with payload := payload}.withInfo info), st.received, st.active⟩)

/-! What is heard of a fragment. -/

inductive Heard where
  | more
  | complete (info : MessageInfo) (payload : List UInt8)
  | rejected
  deriving DecidableEq, Repr

/-- The verdict of `emqtt_receive`, with the message if it is complete. -/
def heardOf (o : RxResult × EmqttReceiver) : Option Heard :=
  match o.1 with
  | .more => some .more
  | .rejected => some .rejected
  | .complete => o.2.message.map fun m => .complete m.info (m.payload.take m.length)

/-- The verdict of a DATA callback: nothing is queued, or a message, or a
fragment error. -/
def Runtime.heardSince (before after : Runtime) : Option Heard :=
  match after.notices.drop before.notices.length with
  | [] => some .more
  | [n] =>
    if n.kind = .message then
      (n.slot.bind after.messages).map fun m => .complete m.info m.payload
    else if n.kind = .error ∧ n.error = .fragment then some .rejected
    else none
  | _ => none

/-- A DATA event, with what the clock and the allocator answer and what the owner
did to the runtime just before. -/
structure Feed where
  owner : Runtime → Runtime
  event : MqttEvent
  answers : Answers

/-- What is heard of each fragment on the public side. -/
def receiveAll (r : EmqttReceiver) : List Fragment → List (Option Heard)
  | [] => []
  | f :: fs => heardOf (emqttReceive r (some f)) :: receiveAll (emqttReceive r (some f)).2 fs

/-- And on the runtime's side. -/
def onEventAll (r : Runtime) : List Feed → List (Option Heard)
  | [] => []
  | c :: cs =>
    let q := c.owner r
    q.heardSince (onEvent c.event c.answers q) :: onEventAll (onEvent c.event c.answers q) cs

/-- There is room for the notice, and a slot is free or already taken. -/
def Runtime.Roomy (r : Runtime) : Prop :=
  r.notices.length < noticeCapacity ∧
    (r.freeSlots ≠ [] ∨ (r.receiverMessage ≠ none ∧ r.receiverSlot ≠ none))

instance (r : Runtime) : Decidable r.Roomy := by unfold Runtime.Roomy; infer_instance

/-- Every event is a DATA event that finds storage and a slot; the owner leaves the
receiver alone. -/
def Available (r : Runtime) : List Feed → Prop
  | [] => True
  | c :: cs =>
    let q := c.owner r
    q.receiver = r.receiver ∧ q.receiverMessage = r.receiverMessage ∧ q.Roomy ∧
      c.event.id = .data ∧ c.answers.alloc = true ∧ Available (onEvent c.event c.answers q) cs

/-! The fragment core, over the two kinds of storage. -/

/-- The state and the metadata a fragment is compared with; `none` is a rejection. -/
def receiveStage (r : ReceiveState) (info : MessageInfo) (f : Fragment) :
    Option (ReceiveState × MessageInfo) :=
  if r.active then (if topicRepeats info.topic f then some (r, info) else none)
  else (receiveFirst f).map fun i => (⟨0,true⟩, i)

theorem emqttReceiveInto_eq (r : ReceiveState) (info : MessageInfo) (payload : List UInt8)
    (capacity : ℕ) (f : Fragment) :
    emqttReceiveInto r info payload capacity f =
      if fragmentMalformed capacity f then rejected info payload
      else match receiveStage r info f with
        | none => rejected info payload
        | some (r, info) =>
          if fragmentContinues r.received info f then
            let payload := ByteBuffer.splice payload r.received (bytesAt f.data f.dataLength.toNat)
            let received := r.received+f.dataLength.toNat
            if received = info.length then (.complete, ⟨received,false⟩, info, payload)
            else (.more, ⟨received,true⟩, info, payload)
          else rejected info payload := rfl

/-- The capacity only matters to a fragment that declares more. -/
theorem fragmentMalformed_capacity {c c' : ℕ} {f : Fragment} (h : f.totalLength ≤ c)
    (h' : f.totalLength ≤ c') : fragmentMalformed c f = fragmentMalformed c' f := by
  have hc : decide ((c : ℤ) < f.totalLength) = false := by simpa using h
  have hc' : decide ((c' : ℤ) < f.totalLength) = false := by simpa using h'
  simp only [fragmentMalformed, hc, hc']

/-- The two storages hold the same message up to `received`. -/
structure SameStorage (received length : ℕ) (payload buffer : List UInt8) : Prop where
  fixed : payload.length = emqttPayloadMax
  owned : buffer.length = length
  fits : length ≤ emqttPayloadMax
  within : received ≤ length
  bytes : payload.take received = buffer.take received

/-- A copy behind the bytes received keeps the storages the same. -/
theorem SameStorage.splice {received length : ℕ} {payload buffer : List UInt8}
    (h : SameStorage received length payload buffer) (bs : List UInt8)
    (hbs : received+bs.length ≤ length) :
    SameStorage (received+bs.length) length (ByteBuffer.splice payload received bs)
      (ByteBuffer.splice buffer received bs) where
  fixed := by
    have hfits := h.fits
    rw [ByteBuffer.splice_length _ _ _ (by rw [h.fixed]; omega), h.fixed]
  owned := by rw [ByteBuffer.splice_length _ _ _ (by rw [h.owned]; omega), h.owned]
  fits := h.fits
  within := hbs
  bytes := by
    have hle : received ≤ payload.length := by
      have hwithin := h.within
      have hfits := h.fits
      rw [h.fixed]
      omega
    rw [ByteBuffer.take_splice _ _ _ hle, ByteBuffer.take_splice _ _ _ (h.owned ▸ h.within),
      h.bytes]

/-- The outcomes of one fragment: rejected by both, or accepted by both with the
same state and metadata, the storages the same up to what is received. -/
inductive SameOutcome (payload : List UInt8) :
    RxResult × ReceiveState × MessageInfo × List UInt8 →
    RxResult × ReceiveState × MessageInfo × List UInt8 → Prop where
  | rejected {i i' : MessageInfo} {buffer : List UInt8} :
      SameOutcome payload (.rejected, ⟨0,false⟩, i, payload) (.rejected, ⟨0,false⟩, i', buffer)
  | more {k : ℕ} {i : MessageInfo} {p b : List UInt8} (h : SameStorage k i.length p b) :
      SameOutcome payload (.more, ⟨k,true⟩, i, p) (.more, ⟨k,true⟩, i, b)
  | complete {i : MessageInfo} {p b : List UInt8} (h : SameStorage i.length i.length p b) :
      SameOutcome payload (.complete, ⟨i.length,false⟩, i, p) (.complete, ⟨i.length,false⟩, i, b)

/-- One fragment into the fixed storage and into a buffer of `length` bytes, where
`length` is the declared length if the fragment begins a message. -/
theorem emqttReceiveInto_agree {r₁ r₂ : ReceiveState} {i₁ i₂ : MessageInfo} {f : Fragment}
    {payload buffer : List UInt8} {length : ℕ}
    (hstage : receiveStage r₁ i₁ f = receiveStage r₂ i₂ f)
    (hsame : ∀ r' i, receiveStage r₂ i₂ f = some (r',i) → i.length = length ∧
      SameStorage r'.received length payload buffer) (hfits : length ≤ emqttPayloadMax) :
    SameOutcome payload (emqttReceiveInto r₁ i₁ payload emqttPayloadMax f)
      (emqttReceiveInto r₂ i₂ buffer length f) := by
  rw [emqttReceiveInto_eq, emqttReceiveInto_eq, hstage]
  by_cases htotal : f.totalLength ≤ length
  · -- neither capacity is in the way
    have hmax : f.totalLength ≤ (emqttPayloadMax : ℤ) := htotal.trans (by exact_mod_cast hfits)
    rw [fragmentMalformed_capacity hmax htotal]
    by_cases hm : fragmentMalformed length f = true
    · rw [if_pos hm, if_pos hm]
      exact .rejected
    · rw [if_neg hm, if_neg hm]
      have hb := not_fragmentMalformed (Bool.not_eq_true _ ▸ hm)
      cases hst : receiveStage r₂ i₂ f with
      | none => exact .rejected
      | some ri =>
        obtain ⟨r',i⟩ := ri
        obtain ⟨hlen,hstorage⟩ := hsame r' i hst
        dsimp only
        by_cases hc : fragmentContinues r'.received i f = true
        · rw [if_pos hc, if_pos hc]
          simp only [fragmentContinues, Bool.and_eq_true, beq_iff_eq] at hc
          have hroom : r'.received+(bytesAt f.data f.dataLength.toNat).length ≤ length := by
            rw [bytesAt_length]
            omega
          have hnext := hstorage.splice _ hroom
          rw [bytesAt_length, ← hlen] at hnext
          by_cases hdone : r'.received+f.dataLength.toNat = i.length
          · rw [if_pos hdone, if_pos hdone, hdone]
            rw [hdone] at hnext
            exact .complete hnext
          · rw [if_neg hdone, if_neg hdone]
            exact .more hnext
        · rw [if_neg hc, if_neg hc]
          exact .rejected
  · -- the declared total grew: the buffer is too small, and the fixed storage
    -- finds a total that is not the message's
    have hsmall : fragmentMalformed length f = true := by
      have hlt : decide ((length : ℤ) < f.totalLength) = true := by simpa using htotal
      simp [fragmentMalformed, hlt]
    rw [if_pos hsmall]
    by_cases hm : fragmentMalformed emqttPayloadMax f = true
    · rw [if_pos hm]
      exact .rejected
    · rw [if_neg hm]
      cases hst : receiveStage r₂ i₂ f with
      | none => exact .rejected
      | some ri =>
        obtain ⟨r',i⟩ := ri
        obtain ⟨hlen,-⟩ := hsame r' i hst
        have hc : ¬ fragmentContinues r'.received i f = true := by
          intro hc
          simp only [fragmentContinues, Bool.and_eq_true, beq_iff_eq] at hc
          omega
        dsimp only
        rw [if_neg hc]
        exact .rejected

/-! The runtime's side of one fragment. -/

theorem heardSince_nothing {r q : Runtime} (h : q.notices = r.notices) :
    r.heardSince q = some .more := by
  simp [Runtime.heardSince, h]

theorem heardSince_error {r q : Runtime} {n : Notice} (h : q.notices = r.notices ++ [n])
    (hkind : n.kind = .error) (herror : n.error = .fragment) :
    r.heardSince q = some .rejected := by
  simp [Runtime.heardSince, h, hkind, herror]

theorem heardSince_message {r q : Runtime} {n : Notice} {s : Slot} {m : OwnedMessage}
    (h : q.notices = r.notices ++ [n]) (hkind : n.kind = .message) (hslot : n.slot = some s)
    (hm : q.messages s = some m) : r.heardSince q = some (.complete m.info m.payload) := by
  simp [Runtime.heardSince, h, hkind, hslot, hm]

theorem post_room {r : Runtime} (n : Notice) (h : r.notices.length < noticeCapacity) :
    (post r n).notices = r.notices ++ [n] ∧ (post r n).messages = r.messages ∧
      (post r n).receiver = r.receiver ∧ (post r n).receiverMessage = r.receiverMessage := by
  unfold post
  rw [if_pos h]
  exact ⟨rfl,rfl,rfl,rfl⟩

theorem releaseReceiverSlot_parts (r : Runtime) :
    (releaseReceiverSlot r).notices = r.notices ∧ (releaseReceiverSlot r).receiver = ⟨0,false⟩ ∧
      (releaseReceiverSlot r).receiverMessage = none := by
  unfold releaseReceiverSlot Runtime.sendSlot
  dsimp only
  split
  · split <;> exact ⟨rfl,rfl,rfl⟩
  · exact ⟨rfl,rfl,rfl⟩

/-- The complete message is announced from the slot it has or gets. -/
theorem completeMessage_heard {r : Runtime} (m : OwnedMessage) (n : Notice)
    (hroom : r.notices.length < noticeCapacity)
    (hslot : r.receiverSlot ≠ none ∨ r.freeSlots ≠ []) :
    r.heardSince (completeMessage r m n) = some (.complete m.info m.payload) ∧
      (completeMessage r m n).receiver = r.receiver ∧
      (completeMessage r m n).receiverMessage = none := by
  -- both ways end in the same transfer
  have htransfer : ∀ (q : Runtime) (s : Slot), q.notices = r.notices → q.receiver = r.receiver →
      r.heardSince (transferMessage q m s n) = some (.complete m.info m.payload) ∧
        (transferMessage q m s n).receiver = r.receiver ∧
        (transferMessage q m s n).receiverMessage = none := by
    intro q s hq hr
    have hpost := post_room
      (r := {q with messages := Function.update q.messages s (some m), receiverSlot := none
                    receiverMessage := none})
      {n with slot := some s, kind := .message} (hq ▸ hroom)
    refine ⟨heardSince_message (n := {n with slot := some s, kind := .message}) (s := s)
      (hpost.1.trans ?_) rfl rfl ?_, hpost.2.2.1.trans hr, hpost.2.2.2⟩
    · rw [← hq]
    · refine (congrFun hpost.2.1 s).trans ?_
      exact Function.update_self s (some m) q.messages
  unfold completeMessage
  cases hs : r.receiverSlot with
  | some s => exact htransfer r s rfl rfl
  | none =>
    cases hfree : r.freeSlots with
    | nil => simp [hs, hfree] at hslot
    | cons s rest => exact htransfer {r with freeSlots := rest} s rfl rfl

/-- What a fragment does to the runtime, by the outcome of the fragment core. -/
theorem receiveFragment_heard (e : MqttEvent) (a : Answers) {r : Runtime} (m : OwnedMessage)
    (n : Notice) (hroom : r.notices.length < noticeCapacity)
    (hslot : r.receiverSlot ≠ none ∨ r.freeSlots ≠ []) :
    let o := emqttReceiveInto r.receiver m.info m.payload m.info.length e.fragment
    let q := receiveFragment e a r m n
    (o.1 = .more → r.heardSince q = some .more ∧ q.receiver = o.2.1 ∧
      q.receiverMessage = some ⟨o.2.2.1, o.2.2.2, m.allocated⟩) ∧
    (o.1 = .rejected → r.heardSince q = some .rejected ∧ q.receiver.active = false ∧
      q.receiverMessage = none) ∧
    (o.1 = .complete → r.heardSince q = some (.complete o.2.2.1 o.2.2.2) ∧ q.receiver = o.2.1 ∧
      q.receiverMessage = none) := by
  unfold receiveFragment
  generalize emqttReceiveInto r.receiver m.info m.payload m.info.length e.fragment = o
  obtain ⟨result,rc,info,payload⟩ := o
  cases result with
  | more =>
    obtain ⟨c,hc⟩ := capacityNotePartial_eq
      {r with receiver := rc, receiverMessage := some ⟨info,payload,m.allocated⟩} a
    refine ⟨fun _ => ?_, by simp, by simp⟩
    dsimp only
    rw [hc]
    exact ⟨heardSince_nothing rfl, rfl, rfl⟩
  | rejected =>
    have hrel := releaseReceiverSlot_parts
      {r with receiver := rc, receiverMessage := some ⟨info,payload,m.allocated⟩}
    have hpost := post_room {n with kind := .error, error := .fragment} (hrel.1.symm ▸ hroom)
    refine ⟨by simp, fun _ => ⟨?_, ?_, hpost.2.2.2.trans hrel.2.2⟩, by simp⟩
    · exact heardSince_error (hpost.1.trans (by rw [hrel.1])) rfl rfl
    · exact congrArg ReceiveState.active (hpost.2.2.1.trans hrel.2.1)
  | complete =>
    refine ⟨by simp, by simp, fun _ => ?_⟩
    exact completeMessage_heard
      (r := {r with receiver := rc, receiverMessage := some ⟨info,payload,m.allocated⟩})
      ⟨info,payload,m.allocated⟩ n hroom hslot

/-! The two sides in step. -/

/-- Neither side is in a message, or both are in the same one at the same place. -/
inductive Agree (p : EmqttReceiver) (r : Runtime) : Prop where
  | idle (m : Message) (hm : p.message = some m) (hlen : m.payload.length = emqttPayloadMax)
      (hpublic : p.active = false) (hruntime : r.receiver.active = false)
      (hnone : r.receiverMessage = none)
  | busy (m : Message) (o : OwnedMessage) (hm : p.message = some m) (hpublic : p.active = true)
      (hruntime : r.receiver = ⟨p.received,true⟩) (hsome : r.receiverMessage = some o)
      (hinfo : o.info = m.info) (hsame : SameStorage p.received m.length m.payload o.payload)

/-- The public side of one fragment, by the outcome of the fragment core. -/
theorem emqttReceive_outcome {p : EmqttReceiver} {m : Message} (hm : p.message = some m)
    (hlen : m.payload.length = emqttPayloadMax) (f : Fragment) {q : Runtime} {o : RxResult × ReceiveState × MessageInfo × List UInt8}
    {heard : Option Heard} {a : ℕ}
    (hout : SameOutcome m.payload (emqttReceiveInto ⟨p.received,p.active⟩
      (if p.active then m.info else zeroInfo) m.payload emqttPayloadMax f) o)
    (hmore : o.1 = .more → heard = some .more ∧ q.receiver = o.2.1 ∧
      q.receiverMessage = some ⟨o.2.2.1, o.2.2.2, a⟩)
    (hrej : o.1 = .rejected → heard = some .rejected ∧ q.receiver.active = false ∧
      q.receiverMessage = none)
    (hcomp : o.1 = .complete → heard = some (.complete o.2.2.1 o.2.2.2) ∧ q.receiver = o.2.1 ∧
      q.receiverMessage = none) :
    heard = heardOf (emqttReceive p (some f)) ∧ Agree (emqttReceive p (some f)).2 q := by
  unfold emqttReceive
  rw [hm]
  dsimp only
  generalize emqttReceiveInto ⟨p.received,p.active⟩ (if p.active then m.info else zeroInfo)
    m.payload emqttPayloadMax f = o₁ at hout
  cases hout with
  | rejected =>
    obtain ⟨h1,h2,h3⟩ := hrej rfl
    exact ⟨h1, .idle {m with payload := m.payload} rfl hlen rfl h2 h3⟩
  | more hsame =>
    obtain ⟨h1,h2,h3⟩ := hmore rfl
    exact ⟨h1, .busy _ _ rfl rfl h2 h3 rfl hsame⟩
  | complete hsame =>
    obtain ⟨h1,h2,h3⟩ := hcomp rfl
    refine ⟨?_, .idle _ rfl hsame.fixed rfl (by rw [h2]) h3⟩
    -- all of the declared length is received, which is all the buffer holds
    have hbytes := hsame.bytes
    rw [List.take_of_length_le (le_of_eq hsame.owned)] at hbytes
    rw [h1, ← hbytes]
    rfl

/-- One fragment: the same verdict, and still in step. -/
theorem onEvent_agree {p : EmqttReceiver} {r : Runtime} (h : Agree p r) {e : MqttEvent}
    (he : e.id = .data) {a : Answers} (ha : a.alloc = true) (hroom : r.Roomy) :
    r.heardSince (onEvent e a r) = heardOf (emqttReceive p (some e.fragment)) ∧
      Agree (emqttReceive p (some e.fragment)).2 (onEvent e a r) := by
  obtain ⟨hnotices,hslots⟩ := hroom
  simp only [onEvent, he]
  generalize Notice.mk .connected e.msgId none 0 0 a.now .none [] = n
  -- inside a message both have the buffer; before one, the runtime still has to allocate it
  cases h with
  | busy m o hm hpublic hruntime hsome hinfo hsame =>
    have hslot : r.receiverSlot ≠ none ∨ r.freeSlots ≠ [] := by
      rcases hslots with h | h
      · exact Or.inr h
      · exact Or.inl h.2
    have hstart : ensureReceiver e a r = (.ready o, r) := by
      unfold ensureReceiver
      rw [hsome]
    have hlength : o.info.length = m.length := by
      rw [hinfo]
      rfl
    unfold onData
    rw [hstart]
    obtain ⟨hmore,hrej,hcomp⟩ := receiveFragment_heard e a o n hnotices hslot
    refine emqttReceive_outcome hm hsame.fixed e.fragment ?_ hmore hrej hcomp
    rw [if_pos hpublic, hpublic, hruntime, hlength, ← hinfo]
    apply emqttReceiveInto_agree rfl
    · intro r' i hst
      unfold receiveStage at hst
      rw [if_pos rfl] at hst
      split at hst
      · cases hst
        exact ⟨hlength,hsame⟩
      · cases hst
    · exact hsame.fits
  | idle m hm hlen hpublic hruntime hnone =>
    have hfree : r.freeSlots ≠ [] := by
      rcases hslots with h | h
      · exact h
      · exact absurd hnone h.1
    by_cases hrange : e.totalDataLen < 0 ∨ (emqttPayloadMax : ℤ) < e.totalDataLen
    · -- a declared length out of range is refused before anything is allocated
      have hbad : fragmentMalformed emqttPayloadMax e.fragment = true := by
        simp only [fragmentMalformed, MqttEvent.fragment, Bool.or_eq_true]
        rcases hrange with h | h <;> simp [h]
      have hstart : ensureReceiver e a r = (.refused, r) := by
        unfold ensureReceiver
        rw [hnone]
        exact if_pos hrange
      unfold onData
      rw [hstart]
      have hpost := post_room {n with kind := .error, error := .fragment} hnotices
      refine emqttReceive_outcome (o := (.rejected, ⟨0,false⟩, zeroInfo, [])) (a := 0) hm
        hlen e.fragment ?_ (by simp) (fun _ => ?_) (by simp)
      · rw [emqttReceiveInto_eq, if_pos hbad]
        exact .rejected
      · exact ⟨heardSince_error hpost.1 rfl rfl, hpost.2.2.1 ▸ hruntime, hpost.2.2.2.trans hnone⟩
    · have hstart : ensureReceiver e a r = (.ready (freshMessage e.totalDataLen.toNat),
          {r with receiverSlot := r.freeSlots.head?, freeSlots := r.freeSlots.tail
                  receiverMessage := some (freshMessage e.totalDataLen.toNat)}) := by
        unfold ensureReceiver
        rw [hnone]
        dsimp only
        rw [if_neg hrange, if_pos ha]
      have hslot : r.freeSlots.head? ≠ none := by simpa using hfree
      unfold onData
      rw [hstart]
      obtain ⟨hmore,hrej,hcomp⟩ := receiveFragment_heard e a
        (r := {r with receiverSlot := r.freeSlots.head?, freeSlots := r.freeSlots.tail
                      receiverMessage := some (freshMessage e.totalDataLen.toNat)})
        (freshMessage e.totalDataLen.toNat) n hnotices (Or.inl hslot)
      refine emqttReceive_outcome hm hlen e.fragment ?_ hmore hrej hcomp
      rw [if_neg (by simp [hpublic]), hpublic]
      have hlength : (freshMessage e.totalDataLen.toNat).info.length = e.totalDataLen.toNat := rfl
      have hfits : e.totalDataLen.toNat ≤ emqttPayloadMax := by omega
      -- nothing is held, so the fragment has to open a message
      have hfirst : receiveStage r.receiver (freshMessage e.totalDataLen.toNat).info e.fragment =
          (receiveFirst e.fragment).map fun i => (⟨0,true⟩, i) := by
        unfold receiveStage
        rw [if_neg (by simp [hruntime])]
      apply emqttReceiveInto_agree (hfirst.symm ▸ rfl)
      · intro r' i hst
        rw [hfirst] at hst
        unfold receiveFirst at hst
        split at hst
        · cases hst
        · cases hst
          exact ⟨rfl, hlen, by simp [freshMessage], hfits, Nat.zero_le _, rfl⟩
      · exact hfits

/-- The two reassemblers agree: for every sequence of DATA events, as long as
storage and a slot are there, the runtime's verdict on each is the one
`emqtt_receive` gives on the same fields, and complete messages are the same, byte
for byte. -/
theorem receivers_agree (p : EmqttReceiver) (r : Runtime) (m : Message) (hm : p.message = some m)
    (hlen : m.payload.length = emqttPayloadMax) (hpublic : p.active = false)
    (hruntime : r.receiver.active = false) (hnone : r.receiverMessage = none) (cs : List Feed)
    (havail : Available r cs) :
    onEventAll r cs = receiveAll p (cs.map fun c => c.event.fragment) := by
  have hagree : Agree p r := .idle m hm hlen hpublic hruntime hnone
  clear hm hlen hpublic hruntime hnone
  induction cs generalizing p r with
  | nil => rfl
  | cons c cs ih =>
    obtain ⟨hrc,hmsg,hroom,hid,halloc,hrest⟩ := havail
    -- what the owner does in between is out of the receiver's sight
    have howner : Agree p (c.owner r) := by
      cases hagree with
      | idle m hm hlen hpublic hruntime hnone =>
        exact .idle m hm hlen hpublic (hrc ▸ hruntime) (hmsg.trans hnone)
      | busy m o hm hpublic hruntime hsome hinfo hsame =>
        exact .busy m o hm hpublic (hrc.trans hruntime) (hmsg.trans hsome) hinfo hsame
    obtain ⟨hheard,hnext⟩ := onEvent_agree howner hid halloc hroom
    have htail := ih _ _ hrest hnext
    simp only [onEventAll, receiveAll, List.map_cons]
    rw [hheard, htail]

/-- A DATA event with two bytes of three, the last one, and one that starts in the
middle of nothing; the owner polls before each. -/
def threeFeeds : List Feed :=
  let a : Answers := ⟨0, 0, 0, true, 0, .ok, .ok, 7⟩
  let e : MqttEvent := ⟨.data, 0, some [0x74], 1, some [1,2], 2, 3, 0, 0, false, false, none⟩
  let last := {e with topic := none, topicLen := 0, data := some [3], dataLen := 1
                      currentDataOffset := 2}
  let poll := fun r : Runtime => (emqttPoll r a).2
  [⟨poll,e,a⟩, ⟨poll,last,a⟩, ⟨poll,last,a⟩]

theorem receivers_agree_threeFeeds :
    onEventAll (emqttCreated true [⟨[0x74],1⟩] true) threeFeeds =
      receiveAll ⟨some clearedEvent.message, 0, false⟩
        (threeFeeds.map fun c => c.event.fragment) ∧
    onEventAll (emqttCreated true [⟨[0x74],1⟩] true) threeFeeds =
      [some .more, some (.complete ⟨[0x74], 3, 0, 0, false, false⟩ [1,2,3]), some .rejected] := by
  have havail : Available (emqttCreated true [⟨[0x74],1⟩] true) threeFeeds := by
    simp only [threeFeeds, Available]
    decide +kernel
  refine ⟨?_, by decide +kernel⟩
  exact receivers_agree _ _ clearedEvent.message rfl List.length_replicate rfl (by decide)
    (by decide) threeFeeds havail

end EspMqtt
