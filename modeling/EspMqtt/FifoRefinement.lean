import EspMqtt.RuntimeFifo

/-! The owner's calls against the unbounded FIFO, and the refinement in every
run. -/
namespace EspMqtt

theorem InStep.consumed {r : Runtime} (h : InStep r) :
    consumedOf r.log <+: (idealOf r.log).sent := by
  rw [h]
  exact List.prefix_append _ _

/-- A running session that has lost nothing. -/
theorem FifoOk.running {r : Runtime} (hs : r.started = true) (hf : r.faulted = false)
    (hi : InStep r) : FifoOk r :=
  ⟨fun _ => hf, hi.consumed, fun _ _ => hi, fun hd => by rw [hs] at hd; cases hd⟩

/-- What the comparison with the unbounded runtime reads. -/
def Runtime.stepView (r : Runtime) : Ideal × Ideal × List Sent :=
  (r.idealView, idealOf r.log, consumedOf r.log)

theorem InStep.sameView {r r' : Runtime} (h : InStep r) (hv : r'.stepView = r.stepView) :
    InStep r' := by
  simp only [Runtime.stepView, Prod.mk.injEq] at hv
  obtain ⟨h1,h2,h3⟩ := hv
  unfold InStep at *
  rw [h1, h2, h3]
  exact h

theorem drain_log (r : Runtime) : (drain r).log = r.log :=
  (ownerView_fields (releaseReceiverSlot_ownerView r)).2.2.2

theorem drain_started (r : Runtime) : (drain r).started = r.started :=
  (ownerView_fields (releaseReceiverSlot_ownerView r)).1

theorem drain_receiver (r : Runtime) :
    (drain r).receiver = ⟨0,false⟩ ∧ (drain r).receiverMessage = none := by
  simp only [drain, clearPending, releaseReceiverSlot]
  cases r.receiverSlot with
  | none => exact ⟨rfl,rfl⟩
  | some s =>
    dsimp only [Runtime.sendSlot]
    split <;> exact ⟨rfl,rfl⟩

/-- A stopped runtime has nothing to hand out. -/
theorem FifoOk.stopped {r r' : Runtime} (hlog : r'.log = r.log)
    (hc : consumedOf r.log <+: (idealOf r.log).sent) (hs : r'.started = false)
    (hn : r'.notices = []) (ho : r'.overflow = false) (h1 : r'.state ≠ .subscribing)
    (h2 : r'.state ≠ .ready) : FifoOk r' := by
  refine ⟨fun hh => ?_, by rw [hlog]; exact hc, fun hh => ?_, fun _ => ⟨hn,ho,h1,h2⟩⟩
  · rw [hs] at hh
    cases hh
  · rw [hs] at hh
    cases hh

theorem emqttStop_fifo {r : Runtime} (hc : consumedOf r.log <+: (idealOf r.log).sent)
    (a : Answers) (ha : a.stop = .ok) : FifoOk (emqttStop r a).2 := by
  unfold emqttStop
  rw [if_neg (by simp [ha])]
  exact .stopped (drain_log {r with started := false}) hc (drain_started {r with started := false})
    rfl rfl (by simp) (by simp)

theorem failClosed_fifo {r : Runtime} (hc : consumedOf r.log <+: (idealOf r.log).sent)
    (a : Answers) (ha : a.stop = .ok) : FifoOk (failClosed r a) := by
  unfold failClosed emqttStop
  rw [if_neg (by simp [ha])]
  exact .stopped (drain_log {r with started := false}) hc (drain_started {r with started := false})
    rfl rfl (by simp) (by simp)

theorem emqttStart_fifo {r : Runtime} (h : FifoOk r) (net time : Bool) (a : Answers) :
    FifoOk (emqttStart r net time a).2 := by
  unfold emqttStart
  split
  · exact h
  rename_i hst
  have hs : r.started = false := by
    simp only [not_or, Bool.not_eq_true] at hst
    exact hst.1
  split
  · exact h
  dsimp only
  split
  · exact .stopped (drain_log r) h.consumed ((drain_started r).trans hs) rfl rfl (by simp) (by simp)
  · refine .running rfl rfl ?_
    obtain ⟨h1,h2⟩ := drain_receiver r
    change Ideal.fresh = Ideal.after ⟨(drain r).receiver, (drain r).receiverMessage, []⟩ []
    rw [h1, h2]
    rfl

/-- Requests only change what the owner keeps. -/
theorem FifoOk.request {r r' : Runtime} (h : FifoOk r) (hv : r'.stepView = r.stepView)
    (hs : r.started = true) (hs' : r'.started = true) (hf : r'.faulted = r.faulted)
    (ho : r'.overflow = r.overflow) : FifoOk r' := by
  have hv' := hv
  simp only [Runtime.stepView, Prod.mk.injEq] at hv'
  refine ⟨fun _ => hf.trans (h.unfaulted hs), ?_, fun _ hov => ?_, fun hd => ?_⟩
  · rw [hv'.2.1, hv'.2.2]
    exact h.consumed
  · exact (h.inStep hs (ho ▸ hov)).sameView hv
  · rw [hs'] at hd
    cases hd

theorem submitSubscriptions_frame (r : Runtime) (subs : List Subscription) (dynamic : Bool)
    (a : Answers) :
    (submitSubscriptions r subs dynamic a).2.stepView = r.stepView ∧
    (submitSubscriptions r subs dynamic a).2.started = r.started ∧
    (submitSubscriptions r subs dynamic a).2.faulted = r.faulted ∧
    (submitSubscriptions r subs dynamic a).2.overflow = r.overflow := by
  unfold submitSubscriptions
  split
  · exact ⟨rfl,rfl,rfl,rfl⟩
  split
  · exact ⟨rfl,rfl,rfl,rfl⟩
  · exact ⟨rfl,rfl,rfl,rfl⟩

theorem FifoOk.started_of_ready {r : Runtime} (h : FifoOk r) (hr : r.state = .ready) :
    r.started = true := by
  by_contra hs
  exact (h.down (by simpa using hs)).2.2.2 hr

theorem emqttSubscribe_fifo {r : Runtime} (h : FifoOk r) (filter : Option (List UInt8)) (qos : ℕ)
    (a : Answers) (ha : a.stop = .ok) : FifoOk (emqttSubscribe r filter qos a).2 := by
  unfold emqttSubscribe
  split
  · exact h
  rename_i hready
  have hs := h.started_of_ready (not_not.mp hready)
  split
  · exact h
  split
  · exact h
  dsimp only
  obtain ⟨f1,f2,f3,f4⟩ := submitSubscriptions_frame
    {r with pendingSubscription := ⟨filter.getD [],qos⟩} [⟨filter.getD [],qos⟩] true a
  generalize submitSubscriptions {r with pendingSubscription := ⟨filter.getD [],qos⟩}
    [⟨filter.getD [],qos⟩] true a = o at *
  obtain ⟨err,q⟩ := o
  have hq : FifoOk q := h.request f1 hs (f2.trans hs) f3 f4
  split
  · rename_i he
    cases he
    exact hq
  · rename_i he
    cases he
    exact failClosed_fifo hq.consumed a ha

theorem emqttUnsubscribe_fifo {r : Runtime} (h : FifoOk r) (filter : Option (List UInt8))
    (a : Answers) (ha : a.stop = .ok) : FifoOk (emqttUnsubscribe r filter a).2 := by
  unfold emqttUnsubscribe
  split
  · exact h
  rename_i hready
  have hs := h.started_of_ready (not_not.mp hready)
  split
  · exact h
  dsimp only
  split
  · exact h
  split
  · exact failClosed_fifo h.consumed a ha
  · exact h.request rfl hs hs rfl rfl

theorem emqttEnqueue_fifo {r : Runtime} (h : FifoOk r) (topic : Option (List UInt8))
    (payload : Bool) (length qos : ℕ) (a : Answers) :
    FifoOk (emqttEnqueue r topic payload length qos a).2 := by
  unfold emqttEnqueue
  split
  · exact h
  split
  · exact h
  split
  · exact ⟨h.unfaulted, h.consumed, h.inStep, h.down⟩
  · exact h

/-- Taking the oldest notice moves it from the queue to what was consumed. -/
theorem popped_inStep {r : Runtime} (h : InStep r) {n : Notice} {rest : List Notice}
    (hr : r.notices = n :: rest) : InStep (r.popped n rest) := by
  unfold InStep at *
  change idealOf r.log = Ideal.after
    ⟨r.receiver, r.receiverMessage, rest.map fun n => (n.unslotted, n.slot.bind r.messages)⟩
    (consumedOf r.log ++ [(n.unslotted, n.slot.bind r.messages)])
  rw [h]
  simp [Ideal.after, Runtime.idealView, Runtime.queued, hr]

theorem detach_inStep {r : Runtime} (h : InStep r) {s : Slot} (hs : s ∉ noticeSlots r.notices) :
    InStep (detachMessageSlot r s).2 := by
  apply h.sameView
  have hq := queued_update (r := r) hs none r.notices (List.Subset.refl _)
  simp only [Runtime.stepView, Runtime.idealView, Runtime.queued, detachMessageSlot, hq]

/-- What the first half of a poll leaves: a running session in step with the
unbounded runtime, or one that is over. -/
def PolledFifo (p : Polled) : Prop :=
  (p.rt.started = true ∧ p.rt.faulted = false ∧ InStep p.rt) ∨
    (FifoOk p.rt ∧ p.returning = none)

theorem pollConnected_fifo {r : Runtime} (hs : r.started = true) (hf : r.faulted = false)
    (hi : InStep r) (n : Notice) (a : Answers) (ha : a.stop = .ok) :
    FifoOk (pollConnected r n a).2 := by
  unfold pollConnected
  obtain ⟨f1,f2,f3,-⟩ := submitSubscriptions_frame (clearPending r) (clearPending r).subscriptions
    false a
  dsimp only
  generalize submitSubscriptions (clearPending r) (clearPending r).subscriptions false a = o at *
  obtain ⟨err,q⟩ := o
  have hq : InStep q := hi.sameView f1
  split
  · rename_i he
    cases he
    exact .running (f2.trans hs) (f3.trans hf) hq
  · rename_i he
    cases he
    exact failClosed_fifo hq.consumed a ha

theorem clearPending_fifo {r : Runtime} (h : FifoOk r) : FifoOk (clearPending r) :=
  ⟨h.unfaulted, h.consumed, h.inStep, h.down⟩

theorem pollSuback_fifo {r : Runtime} (hs : r.started = true) (hf : r.faulted = false)
    (hi : InStep r) (n : Notice) (a : Answers) (ha : a.stop = .ok) :
    FifoOk (pollSuback r n a).2 := by
  unfold pollSuback
  dsimp only
  split
  · exact clearPending_fifo (failClosed_fifo hi.consumed a ha)
  · exact .running hs hf (hi.sameView rfl)

theorem pollUnsubscribed_fifo {r : Runtime} (hs : r.started = true) (hf : r.faulted = false)
    (hi : InStep r) (n : Notice) (a : Answers) (ha : a.stop = .ok) :
    FifoOk (pollUnsubscribed r n a).2 := by
  unfold pollUnsubscribed
  dsimp only
  split
  · exact clearPending_fifo (failClosed_fifo hi.consumed a ha)
  · exact .running hs hf (hi.sameView rfl)

theorem pollError_fifo {r : Runtime} (hs : r.started = true) (hf : r.faulted = false)
    (hi : InStep r) (n : Notice) (a : Answers) (ha : a.stop = .ok) :
    FifoOk (pollError r n a).2 := by
  unfold pollError
  dsimp only
  split
  · exact failClosed_fifo hi.consumed a ha
  split
  · exact .running hs hf (hi.sameView rfl)
  · exact .running hs hf hi

theorem pollNotice_fifo {r : Runtime} (hs : r.started = true) (hf : r.faulted = false)
    (hi : InStep r) (n : Notice) (hslot : ∀ s, n.slot = some s → s ∉ noticeSlots r.notices)
    (a : Answers) (ha : a.stop = .ok) : PolledFifo (pollNotice r n a) := by
  unfold pollNotice
  cases n.kind with
  | connected => exact Or.inr ⟨pollConnected_fifo hs hf hi n a ha, rfl⟩
  | suback => exact Or.inr ⟨pollSuback_fifo hs hf hi n a ha, rfl⟩
  | unsubscribed => exact Or.inr ⟨pollUnsubscribed_fifo hs hf hi n a ha, rfl⟩
  | error => exact Or.inr ⟨pollError_fifo hs hf hi n a ha, rfl⟩
  | disconnected => exact Or.inl ⟨hs, hf, hi.sameView rfl⟩
  | ready => exact Or.inl ⟨hs,hf,hi⟩
  | puback => exact Or.inl ⟨hs,hf,hi⟩
  | deleted => exact Or.inl ⟨hs,hf,hi⟩
  | message =>
    simp only [pollMessage]
    cases hsl : n.slot with
    | none => exact Or.inl ⟨hs,hf,hi⟩
    | some s => exact Or.inl ⟨hs, hf, detach_inStep hi (hslot s hsl)⟩

theorem emqttPollBegin_fifo {r : Runtime} (h : FifoOk r) (hslots : SlotsOk [] r) (a : Answers)
    (ha : a.stop = .ok) : PolledFifo (emqttPollBegin r a) := by
  unfold emqttPollBegin
  split
  · exact Or.inr ⟨h,rfl⟩
  rename_i hfault
  split
  · exact Or.inr ⟨failClosed_fifo (r := {r with overflow := false}) h.consumed a ha, rfl⟩
  rename_i hover
  split
  · split
    · exact Or.inr ⟨h,rfl⟩
    · exact Or.inr ⟨failClosed_fifo h.consumed a ha, rfl⟩
  · rename_i n rest hr
    have hs : r.started = true := by
      by_contra hs
      have := (h.down (by simpa using hs)).1
      rw [hr] at this
      cases this
    have hi := popped_inStep (h.inStep hs (by simpa using hover)) hr
    dsimp only
    split
    · exact Or.inr ⟨failClosed_fifo hi.consumed a ha, rfl⟩
    · refine pollNotice_fifo (r := r.popped n rest) hs (h.unfaulted hs) hi n (fun s hsl => ?_) a ha
      have h1 := hslots.once s
      simp only [Runtime.holds, hr, noticeSlots_cons, hsl, Option.toList_some, List.count_append,
        List.count_singleton_self] at h1
      exact List.count_eq_zero.mp (show (noticeSlots rest).count s = 0 by omega)

theorem emqttPoll_fifo {r : Runtime} (h : FifoOk r) (hslots : SlotsOk [] r) (a : Answers)
    (ha : a.stop = .ok) : FifoOk (emqttPoll r a).2 := by
  have hp := emqttPollBegin_fifo h hslots a ha
  unfold emqttPoll
  generalize emqttPollBegin r a = p at hp
  obtain ⟨res,q,ret⟩ := p
  cases ret with
  | none =>
    rcases hp with ⟨h1,h2,h3⟩ | ⟨h1,-⟩
    · exact .running h1 h2 h3
    · exact h1
  | some sm =>
    rcases hp with ⟨h1,h2,h3⟩ | ⟨-,h2⟩
    · obtain ⟨v1,v2,-,v4⟩ := ownerView_fields (sendSlot_ownerView q sm.1)
      refine .running (v1.trans h1) (v2.trans h2) (h3.sameView ?_)
      unfold Runtime.stepView
      rw [v4]
      dsimp only [Runtime.sendSlot]
      split <;> rfl
    · cases h2

def RtStep.isCallback : RtStep → Bool
  | .callback _ => true
  | .call _ => false

/-- The SDK calls back only between a start and a stop, and stops when told to. -/
def Orderly (r : Runtime) : List (RtStep × Answers) → Prop
  | [] => True
  | s :: ss => (s.1.isCallback = true → r.started = true) ∧ s.2.stop = .ok ∧ Orderly (r.step s) ss

instance instDecidableOrderly (r : Runtime) :
    (ss : List (RtStep × Answers)) → Decidable (Orderly r ss)
  | [] => inferInstanceAs (Decidable True)
  | s :: ss =>
    have := instDecidableOrderly (r.step s) ss
    inferInstanceAs (Decidable ((s.1.isCallback = true → r.started = true) ∧ s.2.stop = .ok ∧
      Orderly (r.step s) ss))

theorem step_fifo {r : Runtime} (h : FifoOk r) (hslots : SlotsOk [] r) (s : RtStep × Answers)
    (hcb : s.1.isCallback = true → r.started = true) (ha : s.2.stop = .ok) :
    FifoOk (r.step s) ∧ SlotsOk [] (r.step s) := by
  obtain ⟨st,a⟩ := s
  cases st with
  | callback e =>
    have hnoted : SlotsOk [] (r.note (.callback e a.now)) := hslots.sameView rfl
    exact ⟨h.callback hslots (hcb rfl) e a, onEvent_ok hnoted e a⟩
  | call c =>
    refine ⟨?_, ownerCall_ok hslots c a⟩
    cases c with
    | start net time => exact emqttStart_fifo h net time a
    | stop => exact emqttStop_fifo h.consumed a ha
    | poll => exact emqttPoll_fifo h hslots a ha
    | subscribe filter qos => exact emqttSubscribe_fifo h filter qos a ha
    | unsubscribe filter => exact emqttUnsubscribe_fifo h filter a ha
    | enqueue topic payload length qos => exact emqttEnqueue_fifo h topic payload length qos a

theorem run_fifo (ss : List (RtStep × Answers)) (r : Runtime) (h : FifoOk r)
    (hslots : SlotsOk [] r) (ho : Orderly r ss) : FifoOk (r.run ss) ∧ SlotsOk [] (r.run ss) := by
  induction ss generalizing r with
  | nil => exact ⟨h,hslots⟩
  | cons s ss ih =>
    obtain ⟨h1,h2,h3⟩ := ho
    obtain ⟨g1,g2⟩ := step_fifo h hslots s h1 h2
    exact ih (r.step s) g1 g2 h3

theorem emqttCreated_fifo (tls : Bool) (subs : List Subscription) (countersValid : Bool) :
    FifoOk (emqttCreated tls subs countersValid) :=
  .stopped rfl (List.prefix_refl _) rfl rfl rfl (by simp [emqttCreated, drain, clearPending,
    releaseReceiverSlot]) (by simp [emqttCreated, drain, clearPending, releaseReceiverSlot])

/-- Something the callbacks produced since the last start is neither queued nor
consumed. -/
def Dropped (r : Runtime) : Prop := (idealOf r.log).sent ≠ consumedOf r.log ++ r.queued

instance (r : Runtime) : Decidable (Dropped r) := by unfold Dropped; infer_instance

/-- The session goes on: nothing stops it or fails it closed. -/
def StaysUp (r : Runtime) : List (RtStep × Answers) → Prop
  | [] => r.started = true
  | s :: ss => r.started = true ∧ StaysUp (r.step s) ss

instance instDecidableStaysUp (r : Runtime) :
    (ss : List (RtStep × Answers)) → Decidable (StaysUp r ss)
  | [] => inferInstanceAs (Decidable (r.started = true))
  | s :: ss =>
    have := instDecidableStaysUp (r.step s) ss
    inferInstanceAs (Decidable (r.started = true ∧ StaysUp (r.step s) ss))

theorem failClosed_started (r : Runtime) (a : Answers) (ha : a.stop = .ok) :
    (failClosed r a).started = false := by
  unfold failClosed emqttStop
  rw [if_neg (by simp [ha])]
  exact drain_started {r with started := false}

/-- With the overflow flag up the next poll reports it and ends the session. -/
theorem emqttPoll_overflow {r : Runtime} (hf : r.faulted = false) (hov : r.overflow = true)
    (a : Answers) (ha : a.stop = .ok) :
    (emqttPoll r a).1 = some (errorEvent .queue) ∧ (emqttPoll r a).2.started = false := by
  have hp : emqttPollBegin r a =
      ⟨some (errorEvent .queue), failClosed {r with overflow := false} a, none⟩ := by
    unfold emqttPollBegin
    rw [if_neg (by simp [hf]), if_pos hov]
  unfold emqttPoll
  rw [hp]
  exact ⟨rfl, failClosed_started _ a ha⟩

theorem emqttPoll_stopped {r : Runtime} (h : FifoOk r) (hs : r.started = false) (a : Answers) :
    emqttPoll r a = (none, r) := by
  obtain ⟨h1,h2,h3,-⟩ := h.down hs
  have hp : emqttPollBegin r a = ⟨none, r, none⟩ := by
    unfold emqttPollBegin
    split
    · rfl
    · rw [if_neg (by simp [h2]), h1]
      exact if_pos (Or.inl h3)
  unfold emqttPoll
  rw [hp]

theorem emqttStart_running {r : Runtime} (hs : r.started = true) (net time : Bool) (a : Answers) :
    (emqttStart r net time a).2 = r := by
  unfold emqttStart
  rw [if_pos (Or.inl hs)]

/-- A request leaves the flags alone or ends the session. -/
theorem emqttSubscribe_flags (r : Runtime) (filter : Option (List UInt8)) (qos : ℕ) (a : Answers)
    (ha : a.stop = .ok) :
    ((emqttSubscribe r filter qos a).2.overflow = r.overflow ∧
      (emqttSubscribe r filter qos a).2.started = r.started) ∨
    (emqttSubscribe r filter qos a).2.started = false := by
  unfold emqttSubscribe
  split
  · exact Or.inl ⟨rfl,rfl⟩
  split
  · exact Or.inl ⟨rfl,rfl⟩
  split
  · exact Or.inl ⟨rfl,rfl⟩
  dsimp only
  obtain ⟨-,f2,-,f4⟩ := submitSubscriptions_frame
    {r with pendingSubscription := ⟨filter.getD [],qos⟩} [⟨filter.getD [],qos⟩] true a
  generalize submitSubscriptions {r with pendingSubscription := ⟨filter.getD [],qos⟩}
    [⟨filter.getD [],qos⟩] true a = o at *
  obtain ⟨err,q⟩ := o
  split
  · rename_i he
    cases he
    exact Or.inl ⟨f4,f2⟩
  · exact Or.inr (failClosed_started _ a ha)

theorem emqttUnsubscribe_flags (r : Runtime) (filter : Option (List UInt8)) (a : Answers)
    (ha : a.stop = .ok) :
    ((emqttUnsubscribe r filter a).2.overflow = r.overflow ∧
      (emqttUnsubscribe r filter a).2.started = r.started) ∨
    (emqttUnsubscribe r filter a).2.started = false := by
  unfold emqttUnsubscribe
  split
  · exact Or.inl ⟨rfl,rfl⟩
  split
  · exact Or.inl ⟨rfl,rfl⟩
  dsimp only
  split
  · exact Or.inl ⟨rfl,rfl⟩
  split
  · exact Or.inr (failClosed_started _ a ha)
  · exact Or.inl ⟨rfl,rfl⟩

theorem emqttEnqueue_flags (r : Runtime) (topic : Option (List UInt8)) (payload : Bool)
    (length qos : ℕ) (a : Answers) :
    (emqttEnqueue r topic payload length qos a).2.overflow = r.overflow ∧
    (emqttEnqueue r topic payload length qos a).2.started = r.started := by
  unfold emqttEnqueue
  split
  · exact ⟨rfl,rfl⟩
  split
  · exact ⟨rfl,rfl⟩
  split <;> exact ⟨rfl,rfl⟩

/-- The overflow flag stays up for as long as the session does. -/
theorem step_overflow {r : Runtime} (h : FifoOk r) (hslots : SlotsOk [] r) (s : RtStep × Answers)
    (ha : s.2.stop = .ok) (hs : r.started = true) (hov : r.overflow = true)
    (hs' : (r.step s).started = true) : (r.step s).overflow = true := by
  obtain ⟨st,a⟩ := s
  cases st with
  | callback e =>
    by_contra hno
    have hcb : SlotsOk [] (r.note (.callback e a.now)) := hslots.sameView rfl
    have hno' : (r.step (.callback e, a)).overflow = false := by simpa using hno
    have := (onEvent_sim hcb e a hno').1
    exact absurd (hov.symm.trans this) (by simp)
  | call c =>
    cases c with
    | start net time =>
      change (emqttStart r net time a).2.overflow = true
      rw [emqttStart_running hs]
      exact hov
    | stop =>
      have hstop : (emqttStop r a).2.started = false := by
        unfold emqttStop
        rw [if_neg (by simp [show a.stop = .ok from ha])]
        exact drain_started {r with started := false}
      exact absurd (hs'.symm.trans hstop) (by simp)
    | poll =>
      have := (emqttPoll_overflow (h.unfaulted hs) hov a ha).2
      exact absurd (hs'.symm.trans this) (by simp)
    | subscribe filter qos =>
      rcases emqttSubscribe_flags r filter qos a ha with ⟨h1,-⟩ | h1
      · exact h1.trans hov
      · exact absurd (hs'.symm.trans h1) (by simp)
    | unsubscribe filter =>
      rcases emqttUnsubscribe_flags r filter a ha with ⟨h1,-⟩ | h1
      · exact h1.trans hov
      · exact absurd (hs'.symm.trans h1) (by simp)
    | enqueue topic payload length qos =>
      exact (emqttEnqueue_flags r topic payload length qos a).1.trans hov

theorem run_overflow (ss : List (RtStep × Answers)) (r : Runtime) (h : FifoOk r)
    (hslots : SlotsOk [] r) (ho : Orderly r ss) (hov : r.overflow = true) (hup : StaysUp r ss) :
    (r.run ss).overflow = true ∧ (r.run ss).started = true := by
  induction ss generalizing r with
  | nil => exact ⟨hov,hup⟩
  | cons s ss ih =>
    obtain ⟨h1,h2,h3⟩ := ho
    obtain ⟨g1,g2⟩ := step_fifo h hslots s h1 h2
    have hs' : (r.step s).started = true := by
      cases ss with
      | nil => exact hup.2
      | cons t ss => exact hup.2.1
    exact ih (r.step s) g1 g2 h3 (step_overflow h hslots s h2 hup.1 hov hs') hup.2

/-- Only a successful `emqtt_start` opens a session. -/
theorem step_opens {r : Runtime} (h : FifoOk r) (s : RtStep × Answers) (hs : r.started = false)
    (hs' : (r.step s).started = true) :
    ∃ net time, s.1 = .call (.start net time) ∧ (emqttStart r net time s.2).1 = .ok := by
  obtain ⟨st,a⟩ := s
  have hno {b : Bool} (hb : b = r.started) (hb' : b = true) : False := by
    rw [hb, hs] at hb'
    cases hb'
  cases st with
  | callback e =>
    exact (hno (ownerView_fields (onEvent_ownerView e a (r.note (.callback e a.now)))).1 hs').elim
  | call c =>
    cases c with
    | start net time =>
      refine ⟨net, time, rfl, ?_⟩
      change (emqttStart r net time a).2.started = true at hs'
      unfold emqttStart at hs' ⊢
      split at hs'
      · exact (hno rfl hs').elim
      rename_i h1
      rw [if_neg h1]
      split at hs'
      · exact (hno rfl hs').elim
      rename_i h2
      rw [if_neg h2]
      dsimp only at hs' ⊢
      split at hs'
      · exact (hno (drain_started r) hs').elim
      · rename_i h3
        rw [if_neg h3]
    | stop =>
      have hstop : (emqttStop r a).2.started = false := by
        unfold emqttStop
        rw [if_neg (by simp [hs])]
        exact drain_started {r with started := false}
      exact absurd (hs'.symm.trans hstop) (by simp)
    | poll =>
      change (emqttPoll r a).2.started = true at hs'
      rw [emqttPoll_stopped h hs] at hs'
      exact (hno rfl hs').elim
    | subscribe filter qos =>
      change (emqttSubscribe r filter qos a).2.started = true at hs'
      unfold emqttSubscribe at hs'
      rw [if_pos (h.down hs).2.2.2] at hs'
      exact (hno rfl hs').elim
    | unsubscribe filter =>
      change (emqttUnsubscribe r filter a).2.started = true at hs'
      unfold emqttUnsubscribe at hs'
      rw [if_pos (h.down hs).2.2.2] at hs'
      exact (hno rfl hs').elim
    | enqueue topic payload length qos =>
      exact (hno (emqttEnqueue_flags r topic payload length qos a).2 hs').elim

theorem orderly_append {ss1 ss2 : List (RtStep × Answers)} {r : Runtime}
    (h : Orderly r (ss1 ++ ss2)) : Orderly r ss1 ∧ Orderly (r.run ss1) ss2 := by
  induction ss1 generalizing r with
  | nil => exact ⟨trivial,h⟩
  | cons s ss1 ih =>
    obtain ⟨h1,h2,h3⟩ := h
    exact ⟨⟨h1,h2,(ih h3).1⟩, (ih h3).2⟩

/-- The bounded runtime refines the unbounded FIFO. What polls have consumed is
a prefix of what the callbacks produced; once something is dropped, the next
poll of the session reports it and ends the session; with no session open polls
return nothing, and only a successful start opens one. -/
theorem runtime_refines_fifo (tls : Bool) (subs : List Subscription) (countersValid : Bool)
    (ss : List (RtStep × Answers)) (ho : Orderly (emqttCreated tls subs countersValid) ss) :
    let r := (emqttCreated tls subs countersValid).run ss
    consumedOf r.log <+: (idealOf r.log).sent ∧
    (∀ ss1 ss2, ss = ss1 ++ ss2 → Dropped ((emqttCreated tls subs countersValid).run ss1) →
      StaysUp ((emqttCreated tls subs countersValid).run ss1) ss2 → ∀ a : Answers, a.stop = .ok →
        (emqttPoll r a).1 = some (errorEvent .queue) ∧ (emqttPoll r a).2.started = false) ∧
    (r.started = false → ∀ a, (emqttPoll r a).1 = none) ∧
    (∀ s, r.started = false → (r.step s).started = true →
      ∃ net time, s.1 = .call (.start net time) ∧ (emqttStart r net time s.2).1 = .ok) := by
  have hc := emqttCreated_fifo tls subs countersValid
  have hc' := emqttCreated_ok tls subs countersValid
  obtain ⟨hr,hr'⟩ := run_fifo ss _ hc hc' ho
  refine ⟨hr.consumed, ?_, ?_, ?_⟩
  · rintro ss1 ss2 rfl hdrop hup a ha
    obtain ⟨o1,o2⟩ := orderly_append ho
    obtain ⟨g1,g2⟩ := run_fifo ss1 _ hc hc' o1
    have hs1 : ((emqttCreated tls subs countersValid).run ss1).started = true := by
      cases ss2 with
      | nil => exact hup
      | cons s ss2 => exact hup.1
    have hov : ((emqttCreated tls subs countersValid).run ss1).overflow = true := by
      by_contra hno
      apply hdrop
      rw [g1.inStep hs1 (by simpa using hno)]
      rfl
    obtain ⟨k1,k2⟩ := run_overflow ss2 _ g1 g2 o2 hov hup
    have hrun : (emqttCreated tls subs countersValid).run (ss1 ++ ss2) =
        ((emqttCreated tls subs countersValid).run ss1).run ss2 := List.foldl_append
    rw [hrun] at hr ⊢
    exact emqttPoll_overflow (hr.unfaulted k2) k1 a ha
  · intro hs a
    rw [emqttPoll_stopped hr hs]
  · intro s hs hs'
    exact step_opens hr s hs hs'

def publishedEvent (msgId : ℤ) : MqttEvent :=
  { id := .published, msgId := msgId, topic := none, topicLen := 0, data := none, dataLen := 0
    totalDataLen := 0, currentDataOffset := 0, qos := 0, retain := false, dup := false
    errorHandle := none }

/-- A session in which the seventeenth notice finds the queue full. -/
def fullQueueSteps : List (RtStep × Answers) :=
  (.call (.start true true), calmAnswers) ::
    (List.range 17).map fun i => (.callback (publishedEvent i), calmAnswers)

theorem runtime_refines_fifo_full_queue :
    Orderly (emqttCreated true [] true) fullQueueSteps ∧
    Dropped ((emqttCreated true [] true).run fullQueueSteps) ∧
    (emqttPoll ((emqttCreated true [] true).run fullQueueSteps) calmAnswers).1 =
      some (errorEvent .queue) := by
  have ho : Orderly (emqttCreated true [] true) fullQueueSteps := by decide +kernel
  have hd : Dropped ((emqttCreated true [] true).run fullQueueSteps) := by decide +kernel
  have hup : StaysUp ((emqttCreated true [] true).run fullQueueSteps) [] := by
    change ((emqttCreated true [] true).run fullQueueSteps).started = true
    decide +kernel
  exact ⟨ho, hd, ((runtime_refines_fifo true [] true fullQueueSteps ho).2.1 fullQueueSteps []
    (List.append_nil _).symm hd hup calmAnswers rfl).1⟩

end EspMqtt
