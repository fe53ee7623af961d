import EspMqtt.RuntimeRun

/-! READY soundness: what a SUBACK or UNSUBACK has to answer before the runtime
reports itself ready. -/
namespace EspMqtt

/-- A notice answers a submission if it is the acknowledgement for its kind of
request and carries its id. -/
def Submission.answeredBy (s : Submission) (n : Notice) : Bool :=
  n.messageId == s.id && n.kind == (if s.unsubscribe then .unsubscribed else .suback)

/-- The submissions not answered yet, made since the last CONNECTED or
DISCONNECTED notice a poll processed. -/
def outstanding : List Entry → List Submission
  | [] => []
  | .took n _ :: log =>
    if n.kind = .connected ∨ n.kind = .disconnected then []
    else (outstanding log).filter fun s => !s.answeredBy n
  | .submitted s :: log => outstanding log ++ [s]
  | .started :: log => outstanding log
  | .callback _ _ :: log => outstanding log

/-- The pending fields describe submission `s`. -/
structure Pending (r : Runtime) (s : Submission) : Prop where
  positive : 0 < s.id
  deadline : s.deadlineUs = r.subscriptionDeadlineUs
  fields : (s.unsubscribe = false ∧ r.pendingSubscribe = s.id ∧ s.filters = r.awaited ∧
      r.pendingSubscribeCount = s.filters.length ∧ r.pendingUnsubscribe ≤ 0) ∨
    (s.unsubscribe = true ∧ r.pendingUnsubscribe = s.id ∧ r.pendingSubscribe ≤ 0)

/-- With the runtime ready nothing is outstanding; while it waits, exactly the
submission its pending fields describe. -/
structure ReadyOk (r : Runtime) : Prop where
  ready : r.state = .ready →
    outstanding r.log = [] ∧ r.pendingSubscribe ≤ 0 ∧ r.pendingUnsubscribe ≤ 0
  waiting : r.state = .subscribing → ∃ s, outstanding r.log = [s] ∧ Pending r s

theorem ReadyOk.idle {r : Runtime} (h1 : r.state ≠ .ready) (h2 : r.state ≠ .subscribing) :
    ReadyOk r := ⟨fun h => absurd h h1, fun h => absurd h h2⟩

/-- Everything the invariant reads belongs to the owner. -/
theorem ReadyOk.sameOwner {r r' : Runtime} (h : ReadyOk r) (hv : r'.ownerView = r.ownerView) :
    ReadyOk r' := by
  have hf := congrArg (fun q : Runtime => (q.state, q.log, q.pendingSubscribe,
    q.pendingUnsubscribe, q.pendingSubscribeCount, q.subscriptionDeadlineUs,
    q.pendingDynamicSubscribe, q.pendingSubscription, q.subscriptions)) hv
  simp only [Runtime.ownerView, Prod.mk.injEq] at hf
  obtain ⟨f1,f2,f3,f4,f5,f6,f7,f8,f9⟩ := hf
  have ha : r'.awaited = r.awaited := by simp only [Runtime.awaited, f7, f8, f9]
  refine ⟨fun hs => ?_, fun hs => ?_⟩
  · rw [f2, f3, f4]
    exact h.ready (f1 ▸ hs)
  · obtain ⟨s,hs1,hs2⟩ := h.waiting (f1 ▸ hs)
    refine ⟨s, by rw [f2]; exact hs1, hs2.positive, by rw [f6]; exact hs2.deadline, ?_⟩
    rw [f3, f4, f5, ha]
    exact hs2.fields

theorem failClosed_ready (r : Runtime) (a : Answers) : ReadyOk (failClosed r a) :=
  .idle (by simp [failClosed]) (by simp [failClosed])

theorem emqttStart_ready {r : Runtime} (h : ReadyOk r) (net time : Bool) (a : Answers) :
    ReadyOk (emqttStart r net time a).2 := by
  unfold emqttStart
  split
  · exact h
  split
  · exact h
  dsimp only
  split
  · exact .idle (by simp) (by simp)
  · exact .idle (by simp) (by simp)

theorem emqttStop_ready (r : Runtime) (a : Answers) : ReadyOk (emqttStop r a).2 := by
  unfold emqttStop
  split
  · exact .idle (by simp) (by simp)
  · exact .idle (by simp) (by simp)

/-- A successful submission is the only one outstanding. -/
theorem submitSubscriptions_ready {r : Runtime} (subs : List Subscription) (dynamic : Bool)
    (a : Answers) (ho : outstanding r.log = []) (hp : r.pendingSubscribe ≤ 0)
    (hu : r.pendingUnsubscribe ≤ 0)
    (hw : subs = if dynamic then [r.pendingSubscription] else r.subscriptions) :
    ReadyOk (submitSubscriptions r subs dynamic a).2 := by
  unfold submitSubscriptions
  split
  · exact ⟨fun _ => ⟨ho,hp,hu⟩, fun hs => by simp at hs⟩
  split
  · exact .idle (by simp) (by simp)
  · rename_i hid
    refine ⟨fun hs => by simp at hs, fun _ => ?_⟩
    refine ⟨⟨false, a.request, subs, a.now+10000000⟩, ?_, by dsimp only; omega, rfl,
      Or.inl ⟨rfl, rfl, hw, rfl, hu⟩⟩
    change outstanding r.log ++ _ = _
    rw [ho]
    rfl

theorem emqttSubscribe_ready {r : Runtime} (h : ReadyOk r) (filter : Option (List UInt8))
    (qos : ℕ) (a : Answers) : ReadyOk (emqttSubscribe r filter qos a).2 := by
  unfold emqttSubscribe
  split
  · exact h
  rename_i hready
  obtain ⟨h1,h2,h3⟩ := h.ready (not_not.mp hready)
  split
  · exact h
  split
  · exact h
  dsimp only
  have hq := submitSubscriptions_ready (r := {r with pendingSubscription := ⟨filter.getD [],qos⟩})
    [⟨filter.getD [],qos⟩] true a h1 h2 h3 rfl
  generalize submitSubscriptions {r with pendingSubscription := ⟨filter.getD [],qos⟩}
    [⟨filter.getD [],qos⟩] true a = o at *
  obtain ⟨err,q⟩ := o
  split
  · rename_i he
    cases he
    exact hq
  · exact failClosed_ready _ a

theorem emqttUnsubscribe_ready {r : Runtime} (h : ReadyOk r) (filter : Option (List UInt8))
    (a : Answers) : ReadyOk (emqttUnsubscribe r filter a).2 := by
  unfold emqttUnsubscribe
  split
  · exact h
  rename_i hready
  obtain ⟨h1,h2,h3⟩ := h.ready (not_not.mp hready)
  split
  · exact h
  dsimp only
  split
  · exact h
  split
  · exact failClosed_ready r a
  · refine ⟨fun hs => by simp at hs, fun _ => ?_⟩
    let removed := (r.subscriptions.drop
      (r.subscriptions.findIdx fun s => some s.topic == filter)).take 1
    refine ⟨⟨true, a.request, removed, a.now+10000000⟩, ?_, by dsimp only; omega, rfl,
      Or.inr ⟨rfl,rfl,h2⟩⟩
    change outstanding r.log ++ _ = _
    rw [h1]
    rfl

theorem emqttEnqueue_ready {r : Runtime} (h : ReadyOk r) (topic : Option (List UInt8))
    (payload : Bool) (length qos : ℕ) (a : Answers) :
    ReadyOk (emqttEnqueue r topic payload length qos a).2 := by
  unfold emqttEnqueue
  split
  · exact h
  split
  · exact h
  split
  · exact h.sameOwner rfl
  · exact h

/-! The poll. -/

/-- A notice that is no acknowledgement and no change of the connection leaves
the submissions as they are. -/
theorem outstanding_took {n : Notice} {m : Option OwnedMessage} {log : List Entry}
    (h1 : n.kind ≠ .connected) (h2 : n.kind ≠ .disconnected) (h3 : n.kind ≠ .suback)
    (h4 : n.kind ≠ .unsubscribed) : outstanding (.took n m :: log) = outstanding log := by
  rw [outstanding, if_neg (by simp [h1, h2]), List.filter_eq_self]
  intro s _
  cases hu : s.unsubscribe <;> simp [Submission.answeredBy, hu, h3, h4]

theorem clearPending_ready {r : Runtime} (h1 : r.state ≠ .subscribing)
    (h2 : r.state = .ready → outstanding r.log = []) : ReadyOk (clearPending r) :=
  ⟨fun hs => ⟨h2 hs, by simp [clearPending], by simp [clearPending]⟩, fun hs => absurd hs h1⟩

/-- A poll that failed closed and says so. -/
structure FailedClosed (o : Option EmqttEvent × Runtime) : Prop where
  reports : ∃ ev, o.1 = some ev ∧ ev.kind = .error ∧ ev.error = .subscription
  faulted : o.2.faulted = true
  failed : o.2.state = .failed

/-- The SUBACK carries one code for each filter of `s`, in order, none of them
above 1 or above the QoS asked for, and it came in time. -/
structure Acknowledges (n : Notice) (s : Submission) : Prop where
  subscribe : s.unsubscribe = false
  id : n.messageId = s.id
  positive : 0 < s.id
  count : n.suback.length = s.filters.length
  granted : ∀ i (hi : i < n.suback.length) (hi' : i < s.filters.length),
    n.suback[i].toNat ≤ 1 ∧ n.suback[i].toNat ≤ s.filters[i].qos
  inTime : n.arrivedUs < s.deadlineUs

/-- The UNSUBACK answers `s` in time. -/
structure AcknowledgesRemoval (n : Notice) (s : Submission) : Prop where
  unsubscribe : s.unsubscribe = true
  id : n.messageId = s.id
  positive : 0 < s.id
  inTime : n.arrivedUs < s.deadlineUs

theorem emqttSubackValid_spec {codes : List UInt8} {subs : List Subscription} {expected : ℕ}
    (h : emqttSubackValid codes subs expected = true) (hl : subs.length = expected) :
    codes.length = subs.length ∧ ∀ i (hi : i < codes.length) (hi' : i < subs.length),
      codes[i].toNat ≤ 1 ∧ codes[i].toNat ≤ subs[i].qos := by
  simp only [emqttSubackValid, Bool.and_eq_true, Bool.not_eq_true', Bool.or_eq_false_iff,
    bne_eq_false_iff_eq, List.all_eq_true, List.mem_range, decide_eq_false_iff_not, not_lt] at h
  obtain ⟨⟨-,hc⟩,hall⟩ := h
  refine ⟨hc.trans hl.symm, fun i hi hi' => ?_⟩
  have := hall i hi
  simpa only [List.getD_eq_getElem?_getD, List.getElem?_eq_getElem hi,
    List.getElem?_eq_getElem hi', Option.getD_some] using this

/-- A SUBACK moves the runtime to READY for the one submission outstanding, or
the poll fails closed. `log` is the history before the notice was taken. -/
theorem pollSuback_cases {r : Runtime} {n : Notice} (a : Answers) {log : List Entry}
    {m : Option OwnedMessage} (hlog : r.log = .took n m :: log) (hk : n.kind = .suback)
    (hw : r.state = .subscribing → ∃ s, outstanding log = [s] ∧ Pending r s)
    (hlate : ¬ (r.state = .subscribing ∧ r.subscriptionDeadlineUs ≤ n.arrivedUs)) :
    ((∃ s, outstanding log = [s] ∧ Acknowledges n s) ∧ (pollSuback r n a).2.state = .ready ∧
      ReadyOk (pollSuback r n a).2) ∨
    (FailedClosed (pollSuback r n a) ∧ ReadyOk (pollSuback r n a).2) := by
  unfold pollSuback
  dsimp only
  split
  · refine Or.inr ⟨⟨⟨_,rfl,rfl,rfl⟩, rfl, rfl⟩, ?_⟩
    exact clearPending_ready (by simp [refuseSubscription, failClosed])
      (by simp [refuseSubscription, failClosed])
  · rename_i hok
    push Not at hok
    obtain ⟨hpos,hid,hst,-,hvalid⟩ := hok
    obtain ⟨s,hs,hp⟩ := hw hst
    have hsub : s.unsubscribe = false ∧ r.pendingSubscribe = s.id ∧ s.filters = r.awaited ∧
        r.pendingSubscribeCount = s.filters.length := by
      rcases hp.fields with ⟨h1,h2,h3,h4,-⟩ | ⟨-,-,h3⟩
      · exact ⟨h1,h2,h3,h4⟩
      · omega
    obtain ⟨h1,h2,h3,h4⟩ := hsub
    rw [← h3] at hvalid
    obtain ⟨hcount,hgrant⟩ := emqttSubackValid_spec (by simpa using hvalid) h4.symm
    have hin : n.arrivedUs < s.deadlineUs := by
      rw [hp.deadline]
      exact not_le.mp fun hh => hlate ⟨hst,hh⟩
    refine Or.inl ⟨⟨s, hs, h1, by omega, hp.positive, hcount, hgrant, hin⟩, rfl, ?_⟩
    apply clearPending_ready (by simp)
    intro _
    have hans : s.answeredBy n = true := by
      simp [Submission.answeredBy, h1, hk, hid, h2]
    dsimp only
    rw [hlog, outstanding, if_neg (by simp [hk]), hs]
    simp [hans]

theorem pollUnsubscribed_cases {r : Runtime} {n : Notice} (a : Answers) {log : List Entry}
    {m : Option OwnedMessage} (hlog : r.log = .took n m :: log) (hk : n.kind = .unsubscribed)
    (hw : r.state = .subscribing → ∃ s, outstanding log = [s] ∧ Pending r s)
    (hlate : ¬ (r.state = .subscribing ∧ r.subscriptionDeadlineUs ≤ n.arrivedUs)) :
    ((∃ s, outstanding log = [s] ∧ AcknowledgesRemoval n s) ∧
      (pollUnsubscribed r n a).2.state = .ready ∧ ReadyOk (pollUnsubscribed r n a).2) ∨
    (FailedClosed (pollUnsubscribed r n a) ∧ ReadyOk (pollUnsubscribed r n a).2) := by
  unfold pollUnsubscribed
  dsimp only
  split
  · refine Or.inr ⟨⟨⟨_,rfl,rfl,rfl⟩, rfl, rfl⟩, ?_⟩
    exact clearPending_ready (by simp [refuseSubscription, failClosed])
      (by simp [refuseSubscription, failClosed])
  · rename_i hok
    push Not at hok
    obtain ⟨hpos,hid,hst⟩ := hok
    obtain ⟨s,hs,hp⟩ := hw hst
    have hrem : s.unsubscribe = true ∧ r.pendingUnsubscribe = s.id := by
      rcases hp.fields with ⟨-,-,-,-,h5⟩ | ⟨h1,h2,-⟩
      · omega
      · exact ⟨h1,h2⟩
    obtain ⟨h1,h2⟩ := hrem
    have hin : n.arrivedUs < s.deadlineUs := by
      rw [hp.deadline]
      exact not_le.mp fun hh => hlate ⟨hst,hh⟩
    refine Or.inl ⟨⟨s, hs, h1, by omega, hp.positive, hin⟩, rfl, ?_⟩
    apply clearPending_ready (by simp)
    intro _
    have hans : s.answeredBy n = true := by
      simp [Submission.answeredBy, h1, hk, hid, h2]
    dsimp only
    rw [hlog, outstanding, if_neg (by simp [hk]), hs]
    simp [hans]

theorem pollConnected_ready {r : Runtime} (n : Notice) (a : Answers)
    (ho : outstanding r.log = []) : ReadyOk (pollConnected r n a).2 := by
  unfold pollConnected
  have hq := submitSubscriptions_ready (r := clearPending r) (clearPending r).subscriptions false a
    ho (by simp [clearPending]) (by simp [clearPending]) rfl
  dsimp only
  generalize submitSubscriptions (clearPending r) (clearPending r).subscriptions false a = o at *
  obtain ⟨err,q⟩ := o
  split
  · rename_i he
    cases he
    exact hq
  · exact failClosed_ready _ a

/-- Popping a notice does not change what is pending. -/
theorem Pending.popped {r : Runtime} {s : Submission} (h : Pending r s) (n : Notice)
    (rest : List Notice) : Pending (r.popped n rest) s := ⟨h.positive, h.deadline, h.fields⟩

/-- A notice of the remaining kinds keeps the invariant where the state stays. -/
theorem ReadyOk.took {r : Runtime} (h : ReadyOk r) {n : Notice} (rest : List Notice)
    (h1 : n.kind ≠ .connected) (h2 : n.kind ≠ .disconnected) (h3 : n.kind ≠ .suback)
    (h4 : n.kind ≠ .unsubscribed) : ReadyOk (r.popped n rest) := by
  have ho : outstanding (r.popped n rest).log = outstanding r.log := outstanding_took h1 h2 h3 h4
  refine ⟨fun hs => ?_, fun hs => ?_⟩
  · rw [ho]
    exact h.ready hs
  · obtain ⟨s,hs1,hs2⟩ := h.waiting hs
    exact ⟨s, ho.trans hs1, hs2.popped n rest⟩

theorem pollMessage_ownerView (r : Runtime) (n : Notice) :
    (pollMessage r n).rt.ownerView = r.ownerView := by
  unfold pollMessage
  split <;> rfl

theorem pollNotice_ready {r : Runtime} (h : ReadyOk r) (n : Notice) (rest : List Notice)
    (a : Answers)
    (hlate : ¬ (r.state = .subscribing ∧ r.subscriptionDeadlineUs ≤ n.arrivedUs)) :
    ReadyOk (pollNotice (r.popped n rest) n a).rt := by
  have hw : (r.popped n rest).state = .subscribing →
      ∃ s, outstanding r.log = [s] ∧ Pending (r.popped n rest) s := by
    intro hs
    obtain ⟨s,hs1,hs2⟩ := h.waiting hs
    exact ⟨s, hs1, hs2.popped n rest⟩
  unfold pollNotice
  cases hk : n.kind with
  | connected =>
    apply pollConnected_ready
    change outstanding (.took n _ :: r.log) = []
    rw [outstanding, if_pos (Or.inl hk)]
  | suback =>
    rcases pollSuback_cases (r := r.popped n rest) a rfl hk hw hlate with ⟨-,-,h3⟩ | ⟨-,h3⟩
    · exact h3
    · exact h3
  | unsubscribed =>
    rcases pollUnsubscribed_cases (r := r.popped n rest) a rfl hk hw hlate with ⟨-,-,h3⟩ | ⟨-,h3⟩
    · exact h3
    · exact h3
  | disconnected => exact .idle (by simp) (by simp)
  | message =>
    have ht := h.took rest (n := n) (by simp [hk]) (by simp [hk]) (by simp [hk]) (by simp [hk])
    exact ht.sameOwner (pollMessage_ownerView _ n)
  | error =>
    have ht := h.took rest (n := n) (by simp [hk]) (by simp [hk]) (by simp [hk]) (by simp [hk])
    unfold pollError
    dsimp only
    split
    · exact failClosed_ready _ a
    split
    · exact .idle (by simp) (by simp)
    · exact ht
  | ready => exact h.took rest (by simp [hk]) (by simp [hk]) (by simp [hk]) (by simp [hk])
  | puback => exact h.took rest (by simp [hk]) (by simp [hk]) (by simp [hk]) (by simp [hk])
  | deleted => exact h.took rest (by simp [hk]) (by simp [hk]) (by simp [hk]) (by simp [hk])

theorem emqttPollBegin_ready {r : Runtime} (h : ReadyOk r) (a : Answers) :
    ReadyOk (emqttPollBegin r a).rt := by
  unfold emqttPollBegin
  split
  · exact h
  split
  · exact failClosed_ready _ a
  split
  · split
    · exact h
    · exact failClosed_ready r a
  · rename_i n rest hr
    dsimp only
    split
    · exact failClosed_ready _ a
    · rename_i hlate
      exact pollNotice_ready h n rest a hlate

theorem emqttPoll_ready {r : Runtime} (h : ReadyOk r) (a : Answers) :
    ReadyOk (emqttPoll r a).2 := by
  have hp := emqttPollBegin_ready h a
  unfold emqttPoll
  generalize emqttPollBegin r a = p at hp
  obtain ⟨res,q,ret⟩ := p
  cases ret with
  | none => exact hp
  | some sm => exact hp.sameOwner (sendSlot_ownerView q sm.1)

theorem step_ready {r : Runtime} (h : ReadyOk r) (s : RtStep × Answers) : ReadyOk (r.step s) := by
  obtain ⟨st,a⟩ := s
  cases st with
  | callback e =>
    have hn : ReadyOk (r.note (.callback e a.now)) :=
      ⟨fun hs => h.ready hs, fun hs => by
        obtain ⟨s,hs1,hs2⟩ := h.waiting hs
        exact ⟨s, hs1, hs2.positive, hs2.deadline, hs2.fields⟩⟩
    exact hn.sameOwner (onEvent_ownerView e a _)
  | call c =>
    cases c with
    | start net time => exact emqttStart_ready h net time a
    | stop => exact emqttStop_ready r a
    | poll => exact emqttPoll_ready h a
    | subscribe filter qos => exact emqttSubscribe_ready h filter qos a
    | unsubscribe filter => exact emqttUnsubscribe_ready h filter a
    | enqueue topic payload length qos => exact emqttEnqueue_ready h topic payload length qos a

theorem run_ready (tls : Bool) (subs : List Subscription) (countersValid : Bool)
    (ss : List (RtStep × Answers)) : ReadyOk ((emqttCreated tls subs countersValid).run ss) :=
  Runtime.run_induction ReadyOk (fun _ s h => step_ready h s) ss _
    (.idle (by simp [emqttCreated, drain, clearPending, releaseReceiverSlot])
      (by simp [emqttCreated, drain, clearPending, releaseReceiverSlot]))

/-- The poll takes notice `n`: it is not faulted, nothing was lost and `n` is
the oldest notice queued. -/
def Takes (r : Runtime) (n : Notice) : Prop :=
  r.faulted = false ∧ r.overflow = false ∧ r.notices.head? = some n

instance (r : Runtime) (n : Notice) : Decidable (Takes r n) := by unfold Takes; infer_instance

/-- A poll that takes an acknowledgement, spelled out. -/
theorem emqttPoll_takes {r : Runtime} {n : Notice} (h : Takes r n) (a : Answers)
    (hk : n.kind = .suback ∨ n.kind = .unsubscribed) :
    (FailedClosed (emqttPoll r a) ∧
      (r.state = .subscribing ∧ r.subscriptionDeadlineUs ≤ n.arrivedUs)) ∨
    (¬ (r.state = .subscribing ∧ r.subscriptionDeadlineUs ≤ n.arrivedUs) ∧
      ∃ rest, emqttPoll r a = if n.kind = .suback then pollSuback (r.popped n rest) n a
        else pollUnsubscribed (r.popped n rest) n a) := by
  obtain ⟨hf,ho,hh⟩ := h
  obtain ⟨rest,hr⟩ : ∃ rest, r.notices = n :: rest := by
    cases hn : r.notices with
    | nil => rw [hn] at hh; cases hh
    | cons k rest =>
      rw [hn] at hh
      cases hh
      exact ⟨rest,rfl⟩
  unfold emqttPoll emqttPollBegin
  rw [if_neg (by simp [hf]), if_neg (by simp [ho]), hr]
  dsimp only
  by_cases hlate : r.state = .subscribing ∧ r.subscriptionDeadlineUs ≤ n.arrivedUs
  · left
    rw [if_pos (show (r.popped n rest).state = .subscribing ∧
      (r.popped n rest).subscriptionDeadlineUs ≤ n.arrivedUs from hlate)]
    exact ⟨⟨⟨_,rfl,rfl,rfl⟩,rfl,rfl⟩, hlate⟩
  · right
    rw [if_neg (show ¬ ((r.popped n rest).state = .subscribing ∧
      (r.popped n rest).subscriptionDeadlineUs ≤ n.arrivedUs) from hlate)]
    refine ⟨hlate, rest, ?_⟩
    rcases hk with hk | hk
    · simp [pollNotice, hk]
    · simp [pollNotice, hk]

/-- READY soundness. A SUBACK that a poll takes moves the runtime to READY only
for the one submission outstanding, which it grants filter by filter and in
time; an UNSUBACK only for the one outstanding; any other makes the poll fail
closed and report a subscription error. -/
theorem ready_sound (tls : Bool) (subs : List Subscription) (countersValid : Bool)
    (ss : List (RtStep × Answers)) (a : Answers) (n : Notice)
    (hn : Takes ((emqttCreated tls subs countersValid).run ss) n) :
    let r := (emqttCreated tls subs countersValid).run ss
    (n.kind = .suback →
      ((∃ s, outstanding r.log = [s] ∧ Acknowledges n s) ∧ (emqttPoll r a).2.state = .ready) ∨
      FailedClosed (emqttPoll r a)) ∧
    (n.kind = .unsubscribed →
      ((∃ s, outstanding r.log = [s] ∧ AcknowledgesRemoval n s) ∧
        (emqttPoll r a).2.state = .ready) ∨
      FailedClosed (emqttPoll r a)) := by
  have h := run_ready tls subs countersValid ss
  dsimp only
  generalize (emqttCreated tls subs countersValid).run ss = r at h hn
  have hw (rest : List Notice) : (r.popped n rest).state = .subscribing →
      ∃ s, outstanding r.log = [s] ∧ Pending (r.popped n rest) s := by
    intro hs
    obtain ⟨s,hs1,hs2⟩ := h.waiting hs
    exact ⟨s, hs1, hs2.popped n rest⟩
  constructor
  · intro hk
    rcases emqttPoll_takes hn a (Or.inl hk) with ⟨hc,-⟩ | ⟨hlate,rest,he⟩
    · exact Or.inr hc
    · rw [he, if_pos hk]
      rcases pollSuback_cases (r := r.popped n rest) a rfl hk (hw rest) hlate with
        ⟨h1,h2,-⟩ | ⟨h1,-⟩
      · exact Or.inl ⟨h1,h2⟩
      · exact Or.inr h1
  · intro hk
    rcases emqttPoll_takes hn a (Or.inr hk) with ⟨hc,-⟩ | ⟨hlate,rest,he⟩
    · exact Or.inr hc
    · rw [he, if_neg (by simp [hk])]
      rcases pollUnsubscribed_cases (r := r.popped n rest) a rfl hk (hw rest) hlate with
        ⟨h1,h2,-⟩ | ⟨h1,-⟩
      · exact Or.inl ⟨h1,h2⟩
      · exact Or.inr h1

/-- A created runtime with one filter, its CONNECTED notice polled, and the SUBACK
for the submission that follows queued. -/
def firstSubackSteps : List (RtStep × Answers) :=
  let a : Answers := ⟨0, 0, 0, true, 0, .ok, .ok, 7⟩
  let e : MqttEvent := ⟨.connected, 0, none, 0, none, 0, 0, 0, 0, false, false, none⟩
  [(.call (.start true true), a), (.callback e, a), (.call .poll, a),
    (.callback {e with id := .subscribed, msgId := 7, data := some [1], dataLen := 1}, a)]

def firstSubackNotice : Notice := ⟨.suback, 7, none, 0, 0, 0, .none, [1]⟩

theorem ready_sound_first_suback :
    ∃ s, outstanding ((emqttCreated true [⟨[0x74],1⟩] true).run firstSubackSteps).log = [s] ∧
      Acknowledges firstSubackNotice s := by
  have hn : Takes ((emqttCreated true [⟨[0x74],1⟩] true).run firstSubackSteps)
      firstSubackNotice := by decide +kernel
  rcases (ready_sound true [⟨[0x74],1⟩] true firstSubackSteps ⟨0, 0, 0, true, 0, .ok, .ok, 7⟩
    firstSubackNotice hn).1 rfl with ⟨h,-⟩ | h
  · exact h
  · exact absurd h.failed (by decide +kernel)

end EspMqtt
