import EspMqtt.Delivery

/-! End-to-end inbound delivery: one PUBLISH on the wire, one MESSAGE event for
the owner. -/
namespace EspMqtt
open Wire

/-! What the owner's calls leave alone while the session stays up. -/

theorem failClosed_log (r : Runtime) (a : Answers) : (failClosed r a).log = r.log := by
  unfold failClosed emqttStop
  split
  · rfl
  · exact drain_log {r with started := false}

theorem failClosed_overflow {r : Runtime} (h : r.overflow = false) (a : Answers) :
    (failClosed r a).overflow = false := by
  unfold failClosed emqttStop
  split
  · exact h
  · rfl

/-- An owner's call inside a session adds nothing to what callbacks produced. -/
def Unnoticed (r r' : Runtime) : Prop :=
  idealOf r'.log = idealOf r.log ∧ (r.overflow = false → r'.overflow = false)

theorem Unnoticed.failClosed {r r' : Runtime} (h : Unnoticed r r') (a : Answers) :
    Unnoticed r (failClosed r' a) :=
  ⟨by rw [failClosed_log]; exact h.1, fun ho => failClosed_overflow (h.2 ho) a⟩

theorem submitSubscriptions_unnoticed (r : Runtime) (subs : List Subscription) (dynamic : Bool)
    (a : Answers) : Unnoticed r (submitSubscriptions r subs dynamic a).2 := by
  unfold submitSubscriptions
  split
  · exact ⟨rfl,id⟩
  split
  · exact ⟨rfl,id⟩
  · exact ⟨rfl,id⟩

theorem pollConnected_unnoticed (r : Runtime) (n : Notice) (a : Answers) :
    Unnoticed r (pollConnected r n a).2 := by
  unfold pollConnected
  have hq : Unnoticed r (submitSubscriptions (clearPending r) (clearPending r).subscriptions
      false a).2 := submitSubscriptions_unnoticed (clearPending r) _ false a
  dsimp only
  generalize submitSubscriptions (clearPending r) (clearPending r).subscriptions false a = o at *
  obtain ⟨err,q⟩ := o
  split
  · rename_i he
    cases he
    exact hq
  · rename_i he
    cases he
    exact hq.failClosed a

theorem pollNotice_unnoticed (r : Runtime) (n : Notice) (a : Answers) :
    Unnoticed r (pollNotice r n a).rt := by
  have hself : Unnoticed r r := ⟨rfl,id⟩
  unfold pollNotice
  cases n.kind with
  | connected => exact pollConnected_unnoticed r n a
  | suback =>
    simp only [pollSuback]
    split
    · exact hself.failClosed a
    · exact ⟨rfl,id⟩
  | unsubscribed =>
    simp only [pollUnsubscribed]
    split
    · exact hself.failClosed a
    · exact ⟨rfl,id⟩
  | error =>
    simp only [pollError]
    split
    · exact hself.failClosed a
    split
    · exact ⟨rfl,id⟩
    · exact hself
  | disconnected => exact ⟨rfl,id⟩
  | ready => exact hself
  | puback => exact hself
  | deleted => exact hself
  | message =>
    simp only [pollMessage]
    split
    · exact hself
    · exact ⟨rfl,id⟩

theorem emqttPollBegin_unnoticed (r : Runtime) (a : Answers) :
    Unnoticed r (emqttPollBegin r a).rt := by
  have hself : Unnoticed r r := ⟨rfl,id⟩
  unfold emqttPollBegin
  split
  · exact hself
  split
  · have hq : Unnoticed r {r with overflow := false} := ⟨rfl, fun _ => rfl⟩
    exact hq.failClosed a
  split
  · split
    · exact hself
    · exact hself.failClosed a
  · rename_i n rest _
    have hp : Unnoticed r (r.popped n rest) := ⟨rfl,id⟩
    dsimp only
    split
    · exact hp.failClosed a
    · have hn := pollNotice_unnoticed (r.popped n rest) n a
      exact ⟨hn.1.trans hp.1, fun ho => hn.2 (hp.2 ho)⟩

theorem emqttPoll_unnoticed {r : Runtime} (hs : SlotsOk [] r) (a : Answers) :
    Unnoticed r (emqttPoll r a).2 := by
  have hp := emqttPollBegin_unnoticed r a
  have hslots := (emqttPollBegin_ok hs a).slots
  unfold emqttPoll
  generalize emqttPollBegin r a = p at hp hslots
  obtain ⟨res,q,ret⟩ := p
  cases ret with
  | none => exact hp
  | some sm =>
    have hroom := hslots.toSlotsApart.room (s := sm.1) (by simp)
    dsimp only at hroom ⊢
    rw [sendSlot_room q sm.1 hroom]
    exact hp

theorem ownerCall_unnoticed {r : Runtime} (hs : SlotsOk [] r) (hup : r.started = true)
    (a : Answers) (c : OwnerCall) : Unnoticed r (ownerCall r a c) := by
  have hself : Unnoticed r r := ⟨rfl,id⟩
  -- only polls and stops touch what is queued
  cases c with
  | start net time =>
    change Unnoticed r (emqttStart r net time a).2
    rw [emqttStart_running hup]
    exact hself
  | stop =>
    change Unnoticed r (emqttStop r a).2
    unfold emqttStop
    split
    · exact ⟨rfl,id⟩
    · refine ⟨?_, fun _ => rfl⟩
      change idealOf (drain {r with started := false}).log = _
      rw [drain_log]
  | poll => exact emqttPoll_unnoticed hs a
  | subscribe filter qos =>
    change Unnoticed r (emqttSubscribe r filter qos a).2
    unfold emqttSubscribe
    split
    · exact hself
    split
    · exact hself
    split
    · exact hself
    have hq : Unnoticed r (submitSubscriptions
        {r with pendingSubscription := ⟨filter.getD [],qos⟩} [⟨filter.getD [],qos⟩] true a).2 :=
      submitSubscriptions_unnoticed {r with pendingSubscription := ⟨filter.getD [],qos⟩} _ true a
    dsimp only
    generalize submitSubscriptions {r with pendingSubscription := ⟨filter.getD [],qos⟩}
      [⟨filter.getD [],qos⟩] true a = o at *
    obtain ⟨err,q⟩ := o
    split
    · rename_i he
      cases he
      exact hq
    · rename_i he
      cases he
      exact hq.failClosed a
  | unsubscribe filter =>
    change Unnoticed r (emqttUnsubscribe r filter a).2
    unfold emqttUnsubscribe
    split
    · exact hself
    split
    · exact hself
    dsimp only
    split
    · exact hself
    split
    · exact hself.failClosed a
    · exact ⟨rfl,id⟩
  | enqueue topic payload length qos =>
    change Unnoticed r (emqttEnqueue r topic payload length qos a).2
    unfold emqttEnqueue
    split
    · exact hself
    split
    · exact hself
    split
    · exact ⟨rfl,id⟩
    · exact hself

/-! Callbacks that find what they need. -/

/-- A DATA event that completes nothing needs no slot and no room. -/
theorem onData_quiet {r : Runtime} (e : MqttEvent) (a : Answers) (n : Notice)
    (ha : a.alloc = true) (hq : (r.idealView.data e n).sent = r.idealView.sent) :
    (onData e a r n).overflow = r.overflow := by
  have hne (l : List Sent) (x : Sent) : l ++ [x] ≠ l := by simp
  have hfrag (q : Runtime) (m : OwnedMessage)
      (h : (q.idealView.fragment e n m).sent = q.idealView.sent) :
      (receiveFragment e a q m n).overflow = q.overflow := by
    unfold receiveFragment
    unfold Ideal.fragment at h
    simp only [Runtime.idealView] at h
    generalize emqttReceiveInto q.receiver m.info m.payload m.info.length e.fragment = o at *
    obtain ⟨res,rc,info,payload⟩ := o
    cases res with
    | more =>
      obtain ⟨c,hcap⟩ := capacityNotePartial_eq
        {q with receiver := rc, receiverMessage := some ⟨info,payload,m.allocated⟩} a
      dsimp only
      rw [hcap]
    | rejected => exact absurd h (hne _ _)
    | complete => exact absurd h (hne _ _)
  unfold onData ensureReceiver
  unfold Ideal.data at hq
  cases hr : r.receiverMessage with
  | some m =>
    simp only [Runtime.idealView, hr] at hq
    dsimp only
    apply hfrag r m
    simpa only [Runtime.idealView, hr] using hq
  | none =>
    simp only [Runtime.idealView, hr] at hq
    by_cases hrange : e.totalDataLen < 0 ∨ (emqttPayloadMax : ℤ) < e.totalDataLen
    · rw [if_pos hrange] at hq
      exact absurd hq (hne _ _)
    · rw [if_neg hrange] at hq
      simp only [if_neg hrange, ha, if_true]
      exact hfrag {r with
        receiverSlot := r.freeSlots.head?
        freeSlots := r.freeSlots.tail
        receiverMessage := some (freshMessage e.totalDataLen.toNat)} _ hq

/-- A DATA event that completes a message, with a slot and room for its notice. -/
theorem onData_completes {r : Runtime} (hs : SlotsOk [] r) (e : MqttEvent) (a : Answers)
    (n : Notice) (ha : a.alloc = true) (hslot : r.receiverSlot ≠ none ∨ r.freeSlots ≠ [])
    (hroom : r.notices.length < noticeCapacity) {k : Notice} {m : OwnedMessage}
    (hq : (r.idealView.data e n).sent = r.idealView.sent ++ [(k, some m)]) :
    (onData e a r n).overflow = r.overflow := by
  -- the last fragment of a message needs a slot and room for one notice
  have hfrag (q : Runtime) (b : OwnedMessage) (hqs : q.receiverSlot ≠ none ∨ q.freeSlots ≠ [])
      (hqr : q.notices.length < noticeCapacity)
      (h : (q.idealView.fragment e n b).sent = q.idealView.sent ++ [(k, some m)]) :
      (receiveFragment e a q b n).overflow = q.overflow := by
    unfold receiveFragment
    unfold Ideal.fragment at h
    simp only [Runtime.idealView] at h
    generalize emqttReceiveInto q.receiver b.info b.payload b.info.length e.fragment = o at *
    obtain ⟨res,rc,info,payload⟩ := o
    cases res with
    | more => simp at h
    | rejected => simp [Ideal.send, Ideal.reset] at h
    | complete =>
      simp only [completeMessage]
      cases hsl : q.receiverSlot with
      | some s =>
        simp only [transferMessage, post]
        rw [if_pos hqr]
      | none =>
        cases hfree : q.freeSlots with
        | nil => exact absurd hfree (hqs.resolve_left (by simp [hsl]))
        | cons s rest =>
          simp only [transferMessage, post]
          rw [if_pos hqr]
  unfold onData ensureReceiver
  unfold Ideal.data at hq
  cases hr : r.receiverMessage with
  | some b =>
    simp only [Runtime.idealView, hr] at hq
    dsimp only
    apply hfrag r b hslot hroom
    simpa only [Runtime.idealView, hr] using hq
  | none =>
    simp only [Runtime.idealView, hr] at hq
    by_cases hrange : e.totalDataLen < 0 ∨ (emqttPayloadMax : ℤ) < e.totalDataLen
    · rw [if_pos hrange] at hq
      simp [Ideal.send] at hq
    · rw [if_neg hrange] at hq
      simp only [if_neg hrange, ha, if_true]
      refine hfrag {r with
        receiverSlot := r.freeSlots.head?
        freeSlots := r.freeSlots.tail
        receiverMessage := some (freshMessage e.totalDataLen.toNat)} _ (Or.inl ?_) hroom hq
      have hfree : r.freeSlots ≠ [] := hslot.resolve_left (by simp [hs.idle hr])
      simpa using hfree

/-- The events a run hands to the runtime. -/
def callbacksOf (ss : List (RtStep × Answers)) : List MqttEvent :=
  ss.filterMap fun s =>
    match s.1 with
    | .callback e => some e
    | .call _ => none

/-- A session in step with the unbounded runtime at `i`. -/
structure AtIdeal (r : Runtime) (i : Ideal) : Prop where
  fifo : FifoOk r
  slots : SlotsOk [] r
  up : r.started = true
  sound : r.overflow = false
  ideal : idealOf r.log = i

theorem AtIdeal.inStep {r : Runtime} {i : Ideal} (h : AtIdeal r i) :
    i = r.idealView.after (consumedOf r.log) := by
  rw [← h.ideal]
  exact h.fifo.inStep h.up h.sound

/-- An owner's call that leaves the session up leaves it where it is. -/
theorem AtIdeal.call {r : Runtime} {i : Ideal} (h : AtIdeal r i) (c : OwnerCall) (a : Answers)
    (ha : a.stop = .ok) (hup : (r.step (.call c, a)).started = true) :
    AtIdeal (r.step (.call c, a)) i := by
  obtain ⟨g1,g2⟩ := step_fifo h.fifo h.slots (.call c, a) (by simp [RtStep.isCallback]) ha
  obtain ⟨u1,u2⟩ := ownerCall_unnoticed h.slots h.up a c
  exact ⟨g1, g2, hup, u2 h.sound, u1.trans h.ideal⟩

/-- A callback that loses nothing takes it where the event leads. -/
theorem AtIdeal.callback {r : Runtime} {i : Ideal} (h : AtIdeal r i) (e : MqttEvent) (a : Answers)
    (ha : a.stop = .ok) (ho : (r.step (.callback e, a)).overflow = false) :
    AtIdeal (r.step (.callback e, a)) (i.event e a.now) := by
  obtain ⟨g1,g2⟩ := step_fifo h.fifo h.slots (.callback e, a) (fun _ => h.up) ha
  obtain ⟨v1,-,-,v4⟩ := ownerView_fields (onEvent_ownerView e a (r.note (.callback e a.now)))
  refine ⟨g1, g2, v1.trans h.up, ho, ?_⟩
  change idealOf (onEvent e a (r.note (.callback e a.now))).log = _
  rw [v4, ← h.ideal]
  rfl

/-- What an event sends, seen from the queue instead of from the whole history. -/
theorem AtIdeal.sent_event {r : Runtime} {i : Ideal} (h : AtIdeal r i) (e : MqttEvent) (now : ℤ)
    (l : List Sent) (hq : (i.event e now).sent = i.sent ++ l) :
    (r.idealView.event e now).sent = r.idealView.sent ++ l := by
  rw [h.inStep, Ideal.event_after] at hq
  simp only [Ideal.after, List.append_assoc] at hq
  exact List.append_cancel_left hq

theorem AtIdeal.quiet {r : Runtime} {i j : Ideal} (h : AtIdeal r i) (ss : List (RtStep × Answers))
    (ho : Orderly r ss) (hup : StaysUp r ss)
    (ha : ∀ s ∈ ss, s.1.isCallback = true → s.2.alloc = true) (hq : QuietTo i (callbacksOf ss) j) :
    AtIdeal (r.run ss) j := by
  induction ss generalizing r i with
  | nil =>
    have : i = j := hq
    rw [← this]
    exact h
  | cons s ss ih =>
    obtain ⟨o1,o2,o3⟩ := ho
    obtain ⟨u1,u2⟩ := hup
    have hup' : (r.step s).started = true := by
      cases ss with
      | nil => exact u2
      | cons t ss => exact u2.1
    have ha' : ∀ t ∈ ss, t.1.isCallback = true → t.2.alloc = true :=
      fun t ht => ha t (List.mem_cons_of_mem _ ht)
    obtain ⟨st,a⟩ := s
    cases st with
    | call c => exact ih (h.call c a o2 hup') o3 u2 ha' hq
    | callback e =>
      obtain ⟨hid,i',h1,h2,h3⟩ := hq
      have hsent := h.sent_event e a.now [] (by rw [h1, h2, List.append_nil])
      simp only [Ideal.event, hid, List.append_nil] at hsent
      have hov : (r.step (.callback e, a)).overflow = false := by
        have := onData_quiet (r := r.note (.callback e a.now)) e a
          { kind := .connected, messageId := e.msgId, slot := none, brokerCode := 0, tlsFlags := 0
            arrivedUs := a.now, error := .none, suback := [] }
          (ha _ List.mem_cons_self rfl) hsent
        change (onEvent e a (r.note (.callback e a.now))).overflow = false
        unfold onEvent
        rw [hid]
        exact this.trans h.sound
      have hstep := h.callback e a o2 hov
      rw [h1 a.now] at hstep
      exact ih hstep o3 u2 ha' h3

/-- The message the owner gets for `p`; unused payload bytes are zero. -/
def deliveredMessage (p : Publish) : Message :=
  { topic := p.topic
    payload := p.payload ++ List.replicate (emqttPayloadMax-p.payload.length) 0
    length := p.payload.length, messageId := p.id, qos := p.qos, retain := p.retain
    duplicate := p.dup }

theorem copied_partialMessage {p : Publish} :
    (partialMessage p p.payload).copied = deliveredMessage p := by
  have hs := splice_zeros [] p.payload emqttPayloadMax
  simp only [List.nil_append, List.length_nil] at hs
  simp [OwnedMessage.copied, partialMessage, publishInfo, deliveredMessage, hs]

/-- The completing event, with what it needs. -/
theorem AtIdeal.completes {r : Runtime} {j : Ideal} (h : AtIdeal r j) (p : Publish)
    (e : MqttEvent) (a : Answers) (ha : a.stop = .ok) (halloc : a.alloc = true)
    (hid : e.id = .data) (hlast : ∀ now, j.event e now = .delivered p p.payload now j.sent)
    (hslot : r.receiverSlot ≠ none ∨ r.freeSlots ≠ [])
    (hroom : r.notices.length < noticeCapacity) :
    AtIdeal (r.step (.callback e, a)) (.delivered p p.payload a.now j.sent) := by
  have hsent := h.sent_event e a.now [(messageNotice p a.now, some (partialMessage p p.payload))]
    (by rw [hlast a.now]; rfl)
  simp only [Ideal.event, hid] at hsent
  have hov : (r.step (.callback e, a)).overflow = false := by
    have hdone := onData_completes (r := r.note (.callback e a.now)) (h.slots.sameView rfl) e a
      { kind := .connected, messageId := e.msgId, slot := none, brokerCode := 0, tlsFlags := 0
        arrivedUs := a.now, error := .none, suback := [] } halloc hslot hroom hsent
    change (onEvent e a (r.note (.callback e a.now))).overflow = false
    unfold onEvent
    rw [hid]
    exact hdone.trans h.sound
  have hstep := h.callback e a ha hov
  rwa [hlast a.now] at hstep

/-- With the message at the head of the queue and the session not waiting beyond
its deadline, the poll hands it out. -/
theorem poll_delivers {r : Runtime} (hf : r.faulted = false) (ho : r.overflow = false)
    {n : Notice} {m : OwnedMessage} (hq : r.queued = [(n, some m)]) (hk : n.kind = .message)
    (hlate : r.state = .subscribing → n.arrivedUs < r.subscriptionDeadlineUs) (a : Answers) :
    ∃ ev, (emqttPoll r a).1 = some ev ∧ ev.kind = .message ∧ ev.message = m.copied := by
  unfold Runtime.queued at hq
  obtain ⟨k,rest,hn,hk',hrest⟩ := List.map_eq_cons_iff.mp hq
  simp only [Prod.mk.injEq] at hk'
  obtain ⟨rfl,hm⟩ := hk'
  have hkind : k.kind = .message := hk
  have harr : k.arrivedUs = k.unslotted.arrivedUs := rfl
  unfold emqttPoll emqttPollBegin
  rw [if_neg (by simp [hf]), if_neg (by simp [ho]), hn]
  dsimp only
  rw [if_neg (by
    change ¬ (r.state = .subscribing ∧ r.subscriptionDeadlineUs ≤ k.arrivedUs)
    rintro ⟨h1,h2⟩
    have := hlate h1
    omega)]
  unfold pollNotice
  rw [hkind]
  cases hs : k.slot with
  | none => simp [hs] at hm
  | some s =>
    have hms : r.messages s = some m := by simpa [hs] using hm
    have hd : (detachMessageSlot (r.popped k rest) s).1 = some m := hms
    simp only [pollMessage, hs, hd]
    exact ⟨_, rfl, hkind, rfl⟩

theorem callbacksOf_nil_quiet (ss : List (RtStep × Answers)) (h : callbacksOf ss = []) (i : Ideal) :
    QuietTo i (callbacksOf ss) i := by
  rw [h]
  rfl

theorem callbacksOf_cons {s : RtStep × Answers} {ss : List (RtStep × Answers)}
    (h : callbacksOf ss = []) (hs : s ∈ ss) : s.1.isCallback = false := by
  unfold callbacksOf at h
  have := List.filterMap_eq_nil_iff.mp h s hs
  cases hst : s.1 with
  | callback e => simp [hst] at this
  | call c => rfl

theorem staysUp_append {ss1 ss2 : List (RtStep × Answers)} {r : Runtime}
    (h : StaysUp r (ss1 ++ ss2)) : StaysUp r ss1 ∧ StaysUp (r.run ss1) ss2 := by
  induction ss1 generalizing r with
  | nil =>
    refine ⟨?_,h⟩
    cases ss2 with
    | nil => exact h
    | cons s ss2 => exact h.1
  | cons s ss1 ih =>
    obtain ⟨h1,h2⟩ := h
    exact ⟨⟨h1,(ih h2).1⟩, (ih h2).2⟩

/-- The events one PUBLISH becomes, whatever the reads. -/
theorem deliverPublish_received {f : Frame} {p : Publish} (hf : IsPublish f p)
    (hp : Deliverable p) {rest : List UInt8} {t t' : Transport} {s s' : RxState}
    (h : Partway f.bytes rest t s) (h0 : s.inBufferReadLen = 0) (hl : s.inBufferLength = 1024)
    (hrec : Receives t s t' s')
    (hreads : ReadsThrough 1024 t'.reads (f.bytes.length-s'.inBufferReadLen)) :
    ∃ first later, (deliverPublish t' s').1 = publishEvents p first later ∧
      p.payload = first ++ later.flatten ∧ ∀ c ∈ later, c ≠ [] := by
  obtain ⟨t1,t2⟩ := emqttTopicValid_length hp.topic
  have hmax : emqttTopicMax = 256 := rfl
  have hv := p.variableHeader_length
  have hh := f.headerLength_le
  have hvl : p.variableHeader.length ≤ 260 := by split at hv <;> omega
  have hbl : f.bytes.length = f.headerLength+(p.variableHeader.length+p.payload.length) := by
    rw [f.bytes_length, hf.body, Publish.body, List.length_append]
  have htwo := f.two_le_headerLength
  obtain ⟨g1,g2,g3,g4⟩ := receives_publish hf t1 rest h (by omega) (by omega) (by omega) hrec
  rw [hl] at g2 g3
  have hholds : HoldsPublish f p s'.inBuffer s'.inBufferReadLen :=
    ⟨hf, g1.seen, by omega, g1.le⟩
  obtain ⟨first,later,e1,e2,e3,-⟩ := deliverPublish_spec hholds (hholds.beyond t1) g1.calm.isOpen g1.ahead g4
    (by omega) (by rw [g2]; exact hreads)
  exact ⟨first,later,e1,e2,e3⟩

/-- One PUBLISH on the wire, one MESSAGE event for the owner. The DATA events of
`deliver_publish`, mixed in any way with owner calls that keep the session up,
add exactly one notice, and the poll that reaches it returns the packet. -/
theorem inbound_delivery {f : Frame} {p : Publish} (hf : IsPublish f p) (hp : Deliverable p)
    {rest : List UInt8} {t t' : Transport} {s s' : RxState} (h : Partway f.bytes rest t s)
    (h0 : s.inBufferReadLen = 0) (hl : s.inBufferLength = 1024) (hrec : Receives t s t' s')
    (hreads : ReadsThrough 1024 t'.reads (f.bytes.length-s'.inBufferReadLen))
    (tls : Bool) (subs : List Subscription) (countersValid : Bool)
    (ss0 ss1 ss2 : List (RtStep × Answers)) (e : MqttEvent) (a : Answers)
    (ho0 : Orderly (emqttCreated tls subs countersValid) ss0)
    {r : Runtime} (hr : r = (emqttCreated tls subs countersValid).run ss0)
    (hup : r.started = true) (hov : r.overflow = false) (hidle : r.receiverMessage = none)
    (hev : callbacksOf ss1 ++ [e] = (deliverPublish t' s').1) (hafter : callbacksOf ss2 = [])
    (ho : Orderly r (ss1 ++ (.callback e, a) :: ss2))
    (hst : StaysUp r (ss1 ++ (.callback e, a) :: ss2))
    (halloc : ∀ x ∈ ss1 ++ [(.callback e, a)], x.1.isCallback = true → x.2.alloc = true)
    (hslot : (r.run ss1).receiverSlot ≠ none ∨ (r.run ss1).freeSlots ≠ [])
    (hroom : (r.run ss1).notices.length < noticeCapacity)
    {r' : Runtime} (hr' : r' = r.run (ss1 ++ (.callback e, a) :: ss2)) :
    ∃ n m, n.kind = .message ∧
      consumedOf r'.log ++ r'.queued = consumedOf r.log ++ r.queued ++ [(n, some m)] ∧
      (consumedOf r'.log = consumedOf r.log ++ r.queued →
        (r'.state = .subscribing → a.now < r'.subscriptionDeadlineUs) →
        ∀ a', ∃ ev, (emqttPoll r' a').1 = some ev ∧ ev.kind = .message ∧
          ev.message = deliveredMessage p) := by
  obtain ⟨first,later,d1,d2,d3⟩ := deliverPublish_received hf hp h h0 hl hrec hreads
  obtain ⟨g1,g2⟩ := run_fifo ss0 _ (emqttCreated_fifo tls subs countersValid)
    (emqttCreated_ok tls subs countersValid) ho0
  rw [← hr] at g1 g2
  have hat : AtIdeal r (idealOf r.log) := ⟨g1, g2, hup, hov, rfl⟩
  have hview := hat.inStep
  have hm : (idealOf r.log).message = none := by
    rw [hview]
    exact hidle
  have hact : (idealOf r.log).receiver.active = false := by
    have hactive := g2.active
    rw [hidle] at hactive
    rw [hview]
    exact hactive.symm
  obtain ⟨es,e',j,c1,c2⟩ := publishEvents_complete hp _ hm hact first later d3 d2
  obtain ⟨rfl,he⟩ := List.append_inj' (hev.trans (d1.trans c1)) rfl
  obtain rfl : e = e' := by simpa using he
  obtain ⟨o1,-,o2,o3⟩ := orderly_append ho
  obtain ⟨u1,u2⟩ := staysUp_append hst
  -- up to the last DATA event nothing is added, then one notice, then nothing again
  have hj := hat.quiet ss1 o1 u1 (fun x hx => halloc x (by simp [hx])) c2.quiet
  have hdone := hj.completes p e a o2 (halloc (.callback e, a) (by simp) rfl) c2.data
    (by rw [c2.quiet.sent]; exact c2.last) hslot hroom
  have hend := hdone.quiet ss2 o3 u2.2
    (fun x hx hcb => absurd hcb (by simp [callbacksOf_cons hafter hx]))
    (callbacksOf_nil_quiet ss2 hafter _)
  have hrun : r' = ((r.run ss1).step (.callback e, a)).run ss2 := by
    rw [hr']
    exact List.foldl_append
  rw [← hrun, c2.quiet.sent] at hend
  -- consumed or queued, it is the ideal receiver's list
  have hall : consumedOf r'.log ++ r'.queued = consumedOf r.log ++ r.queued ++
      [(messageNotice p a.now, some (partialMessage p p.payload))] := by
    have h1 := congrArg Ideal.sent hend.inStep
    have h2 := congrArg Ideal.sent hview
    simp only [Ideal.delivered, Ideal.after, Runtime.idealView] at h1 h2
    rw [← h1, h2]
  refine ⟨_, _, rfl, hall, fun hc hlate a' => ?_⟩
  rw [hc] at hall
  have hq := List.append_cancel_left hall
  obtain ⟨ev,v1,v2,v3⟩ := poll_delivers (hend.fifo.unfaulted hend.up) hend.sound hq rfl hlate a'
  exact ⟨ev, v1, v2, v3.trans copied_partialMessage⟩

/-- A retained QoS 1 PUBLISH with a payload beyond the input buffer. -/
def longPublish : Publish := ⟨[0x74], List.replicate 1100 7, 1, true, false, 7⟩

def longFrame : Frame where
  first := 0x33
  lens := [0xd1, 0x08]
  body := longPublish.body
  first_ok := by decide
  lens_ok := by decide
  lens_le := by decide
  body_length := by decide +kernel

/-- It comes in small reads with a timeout inside its fixed header. -/
def longTransport : Transport :=
  { isOpen := true, stream := longFrame.bytes, writes := [], connects := []
    reads := [.chunk 0, .chunk 0, .timeout, .chunk 0, .chunk 1, .chunk 2000, .chunk 20, .chunk 100] }

def longRx : RxState := ⟨List.replicate 1024 0, 1024, 0, 0⟩

def longStarted : Recv × Transport × RxState := mqttMessageReceive longTransport longRx

def longReceived : Recv × Transport × RxState :=
  mqttMessageReceive longStarted.2.1 longStarted.2.2

def longEvents : List MqttEvent := (deliverPublish longReceived.2.1 longReceived.2.2).1

def longSteps : List (RtStep × Answers) :=
  (longEvents.take 2).map fun e => (.callback e, calmAnswers)

/-- The PUBLISH becomes three DATA events and one MESSAGE event. -/
theorem inbound_delivery_beyond_buffer :
    longEvents.length = 3 ∧
    ∃ ev, (emqttPoll (((emqttCreated true [] true).run
        [(.call (.start true true), calmAnswers)]).run
        (longSteps ++ [(.callback (longEvents.getD 2 (publishedEvent 0)), calmAnswers)]))
        calmAnswers).1 = some ev ∧
      ev.kind = .message ∧ ev.message = deliveredMessage longPublish := by
  have hf : IsPublish longFrame longPublish :=
    ⟨⟨by decide, by decide, by decide, by decide⟩, by decide, rfl⟩
  have hp : Deliverable longPublish :=
    ⟨hf.wellFormed, by decide, by decide +kernel, by decide +kernel⟩
  have h : Partway longFrame.bytes [] longTransport longRx :=
    ⟨⟨rfl, by simp [longTransport]⟩, Nat.zero_le _, Nat.zero_le _, rfl, (List.append_nil _).symm⟩
  have hlast : Receives longStarted.2.1 longStarted.2.2 longReceived.2.1 longReceived.2.2 :=
    .now (o := longReceived) rfl (by decide +kernel)
  have hrec : Receives longTransport longRx longReceived.2.1 longReceived.2.2 :=
    .later (o := longStarted) rfl (by decide +kernel) hlast
  obtain ⟨n,m,-,-,hpoll⟩ := inbound_delivery hf hp h rfl rfl hrec (by decide +kernel) true [] true
    [(.call (.start true true), calmAnswers)] longSteps []
    (longEvents.getD 2 (publishedEvent 0)) calmAnswers (by decide +kernel) rfl (by decide +kernel)
    (by decide +kernel) (by decide +kernel) (by decide +kernel) rfl (by decide +kernel)
    (by decide +kernel) (by decide +kernel) (by decide +kernel) (by decide +kernel) rfl
  exact ⟨by decide +kernel, hpoll (by decide +kernel) (by decide +kernel) calmAnswers⟩

end EspMqtt
