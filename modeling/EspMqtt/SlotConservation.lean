import EspMqtt.RuntimeSlots

/-! The owner's side of the slot accounts, and slot and buffer conservation in
every run, also with callbacks between the two halves of a poll. -/
namespace EspMqtt

/-- The part of the state the accounts are about. -/
def Runtime.slotView (r : Runtime) : List Slot × Option Slot × List Notice ×
    (Slot → Option OwnedMessage) × ReceiveState × Option OwnedMessage × Bool × List Slot :=
  (r.freeSlots, r.receiverSlot, r.notices, r.messages, r.receiver, r.receiverMessage, r.faulted,
    r.refused)

theorem SlotsOk.sameView {out : List Slot} {r r' : Runtime} (h : SlotsOk out r)
    (hv : r'.slotView = r.slotView) : SlotsOk out r' := by
  simp only [Runtime.slotView, Prod.mk.injEq] at hv
  obtain ⟨h1,h2,h3,h4,h5,h6,h7,h8⟩ := hv
  refine h.move (fun t => ?_) h7 h3 h4 h8 ?_ ?_ ?_
  · simp only [Runtime.holds, h1, h2, h3]
  · rw [h5, h6]; exact h.active
  · rw [h6, h2]; exact h.idle
  · rw [h6]; exact h.receiving

/-- After a drain every slot is free, whatever was lost before. -/
theorem drain_ok {r : Runtime} (h : SlotsApart [] r) : SlotsOk [] (drain r) := by
  have hrel := releaseReceiverSlot_eq h.once
  unfold drain
  rw [hrel]
  have hc : ∀ s : Slot, ([0,1,2] : List Slot).count s+0+0+0 = 1 := by decide
  exact {
    once := fun t => Nat.le_of_eq (hc t)
    kinds := fun n hn => by cases hn
    active := rfl
    idle := fun _ => rfl
    sized := fun t m hm => by cases hm
    receiving := fun m hm => by cases hm
    accepted := h.accepted
    all := fun _ t => hc t
    named := fun _ t => by simp [clearPending, noticeSlots] }

theorem emqttStart_ok {r : Runtime} (h : SlotsOk [] r) (net time : Bool) (a : Answers) :
    SlotsOk [] (emqttStart r net time a).2 := by
  unfold emqttStart
  have hd := drain_ok h.toSlotsApart
  split
  · exact h
  · split
    · exact h
    · dsimp only
      split
      · exact hd.sameView rfl
      · exact hd.sameView rfl

theorem emqttStop_ok {r : Runtime} (h : SlotsOk [] r) (a : Answers) :
    SlotsOk [] (emqttStop r a).2 := by
  unfold emqttStop
  split
  · exact h.sameView rfl
  · have hdown : SlotsOk [] {r with started := false} := h.sameView rfl
    have hd : SlotsOk [] (drain {r with started := false}) := drain_ok hdown.toSlotsApart
    exact hd.sameView rfl

/-- Failing closed mends the accounts or, with the SDK still up, marks the
runtime as faulted. -/
theorem failClosed_ok {r : Runtime} (h : SlotsApart [] r) (a : Answers) :
    SlotsOk [] (failClosed r a) := by
  unfold failClosed emqttStop
  split
  · exact {
      once := h.once
      kinds := h.kinds
      active := h.active
      idle := h.idle
      sized := h.sized
      receiving := h.receiving
      accepted := h.accepted
      all := fun hf => by cases hf
      named := fun hf => by cases hf }
  · have hd := drain_ok (r := {r with started := false})
      ⟨h.once, h.kinds, h.active, h.idle, h.sized, h.receiving, h.accepted⟩
    exact {
      once := hd.once
      kinds := hd.kinds
      active := hd.active
      idle := hd.idle
      sized := hd.sized
      receiving := hd.receiving
      accepted := hd.accepted
      all := fun hf => by cases hf
      named := fun hf => by cases hf }

theorem submitSubscriptions_view (r : Runtime) (subs : List Subscription) (dynamic : Bool)
    (a : Answers) : (submitSubscriptions r subs dynamic a).2.slotView = r.slotView := by
  unfold submitSubscriptions
  split
  · rfl
  · split
    · rfl
    · rfl

theorem emqttSubscribe_ok {r : Runtime} (h : SlotsOk [] r) (filter : Option (List UInt8))
    (qos : ℕ) (a : Answers) : SlotsOk [] (emqttSubscribe r filter qos a).2 := by
  unfold emqttSubscribe
  split
  · exact h
  split
  · exact h
  split
  · exact h
  dsimp only
  have hv := submitSubscriptions_view {r with pendingSubscription := ⟨filter.getD [],qos⟩}
    [⟨filter.getD [],qos⟩] true a
  generalize submitSubscriptions {r with pendingSubscription := ⟨filter.getD [],qos⟩}
    [⟨filter.getD [],qos⟩] true a = o at hv
  obtain ⟨err,q⟩ := o
  have hq : SlotsOk [] q := h.sameView hv
  split
  · rename_i he
    cases he
    exact hq
  · rename_i he
    cases he
    exact failClosed_ok hq.toSlotsApart a

theorem emqttUnsubscribe_ok {r : Runtime} (h : SlotsOk [] r) (filter : Option (List UInt8))
    (a : Answers) : SlotsOk [] (emqttUnsubscribe r filter a).2 := by
  unfold emqttUnsubscribe
  split
  · exact h
  split
  · exact h
  dsimp only
  split
  · exact h
  split
  · exact failClosed_ok h.toSlotsApart a
  · exact h.sameView rfl

theorem emqttEnqueue_ok {r : Runtime} (h : SlotsOk [] r) (topic : Option (List UInt8))
    (payload : Bool) (length qos : ℕ) (a : Answers) :
    SlotsOk [] (emqttEnqueue r topic payload length qos a).2 := by
  unfold emqttEnqueue
  split
  · exact h
  split
  · exact h
  split
  · exact h.withCapacity _
  · exact h

theorem holds_popped {r : Runtime} {n : Notice} {rest : List Notice} (hr : r.notices = n :: rest)
    (s : Slot) : (r.popped n rest).holds s+n.slot.toList.count s = r.holds s := by
  simp only [Runtime.popped, Runtime.note, Runtime.holds, hr, noticeSlots_cons, List.count_append]
  omega

theorem popped_apart {r : Runtime} (h : SlotsOk [] r) {n : Notice} {rest : List Notice}
    (hr : r.notices = n :: rest) : SlotsApart [] (r.popped n rest) where
  once s := by
    have h1 := h.once s
    have h2 := holds_popped hr s
    simp only [List.count_nil] at h1 ⊢
    omega
  kinds k hk := h.kinds k (by rw [hr]; exact List.mem_cons_of_mem n hk)
  active := h.active
  idle := h.idle
  sized := h.sized
  receiving := h.receiving
  accepted := h.accepted

theorem popped_plain {r : Runtime} (h : SlotsOk [] r) {n : Notice} {rest : List Notice}
    (hr : r.notices = n :: rest) (hs : n.slot = none) : SlotsOk [] (r.popped n rest) := by
  have hn : noticeSlots r.notices = noticeSlots rest := by
    rw [hr, noticeSlots_cons, hs]
    rfl
  refine ⟨popped_apart h hr, fun hf t => ?_, fun hf t => ?_⟩
  · have := h.all hf t
    simp only [Runtime.holds, hn] at this
    exact this
  · have := h.named hf t
    rw [hn] at this
    exact this

/-- A message notice leaves its slot in the hand of the poll. -/
theorem popped_slot {r : Runtime} (h : SlotsOk [] r) {n : Notice} {rest : List Notice}
    (hr : r.notices = n :: rest) {s : Slot} (hs : n.slot = some s) :
    SlotsOk [s] (detachMessageSlot (r.popped n rest) s).2 := by
  have ha := popped_apart h hr
  have hc (t : Slot) : (r.popped n rest).holds t+[s].count t = r.holds t := by
    have := holds_popped hr t
    rwa [hs, Option.toList_some] at this
  refine ⟨⟨fun t => ?_, ha.kinds, ha.active, ha.idle, fun t m ht => ?_, ha.receiving,
    ha.accepted⟩, fun hf t => ?_, fun hf t => ?_⟩
  · have := h.once t
    rw [List.count_nil, Nat.add_zero, ← hc t] at this
    exact this
  · by_cases hts : t = s
    · subst hts
      simp [detachMessageSlot] at ht
    · simp only [detachMessageSlot, Function.update_of_ne hts] at ht
      exact ha.sized t m ht
  · have := h.all hf t
    rw [List.count_nil, Nat.add_zero, ← hc t] at this
    exact this
  · have hnm := h.named hf t
    rw [hr, noticeSlots_cons, hs] at hnm
    by_cases hts : t = s
    · subst hts
      have h1 := h.once t
      have h2 : (noticeSlots rest).count t = 0 := by
        simp only [Runtime.holds, hr, noticeSlots_cons, hs, Option.toList_some, List.count_append,
          List.count_singleton_self] at h1
        omega
      simp [detachMessageSlot, Runtime.popped, Runtime.note, List.count_eq_zero.mp h2]
    · simp only [detachMessageSlot, Function.update_of_ne hts]
      simpa [hts, Runtime.popped, Runtime.note] using hnm

/-- What the first half of a poll leaves: the accounts with the slot it has in
hand, and a detached buffer as sound as the ones in the slots. -/
structure PolledOk (p : Polled) : Prop where
  slots : SlotsOk (p.returning.toList.map Prod.fst) p.rt
  buffer : ∀ s m, p.returning = some (s, some m) → m.Sized

theorem PolledOk.plain {o : Option EmqttEvent} {r : Runtime} (h : SlotsOk [] r) :
    PolledOk ⟨o, r, none⟩ := ⟨h, fun _ _ hh => by cases hh⟩

theorem pollConnected_ok {r : Runtime} (h : SlotsOk [] r) (n : Notice) (a : Answers) :
    SlotsOk [] (pollConnected r n a).2 := by
  unfold pollConnected
  have hv := submitSubscriptions_view (clearPending r) (clearPending r).subscriptions false a
  dsimp only
  generalize submitSubscriptions (clearPending r) (clearPending r).subscriptions false a = o at hv
  obtain ⟨err,q⟩ := o
  have hq : SlotsOk [] q := h.sameView hv
  split
  · rename_i he
    cases he
    exact hq
  · rename_i he
    cases he
    exact failClosed_ok hq.toSlotsApart a

theorem pollSuback_ok {r : Runtime} (h : SlotsOk [] r) (n : Notice) (a : Answers) :
    SlotsOk [] (pollSuback r n a).2 := by
  unfold pollSuback
  dsimp only
  split
  · exact (failClosed_ok h.toSlotsApart a).sameView rfl
  · exact h.sameView rfl

theorem pollUnsubscribed_ok {r : Runtime} (h : SlotsOk [] r) (n : Notice) (a : Answers) :
    SlotsOk [] (pollUnsubscribed r n a).2 := by
  unfold pollUnsubscribed
  dsimp only
  split
  · exact (failClosed_ok h.toSlotsApart a).sameView rfl
  · exact h.sameView rfl

theorem pollError_ok {r : Runtime} (h : SlotsOk [] r) (n : Notice) (a : Answers) :
    SlotsOk [] (pollError r n a).2 := by
  unfold pollError
  dsimp only
  split
  · exact failClosed_ok h.toSlotsApart a
  split
  · exact h.sameView rfl
  · exact h

theorem emqttPollBegin_ok {r : Runtime} (h : SlotsOk [] r) (a : Answers) :
    PolledOk (emqttPollBegin r a) := by
  unfold emqttPollBegin
  split
  · exact .plain h
  split
  · exact .plain (failClosed_ok (h.withOverflow false).toSlotsApart a)
  split
  · split
    · exact .plain h
    · exact .plain (failClosed_ok h.toSlotsApart a)
  · rename_i n rest hr
    have hk := h.kinds n (by rw [hr]; exact List.mem_cons_self)
    have hplain (hm : n.kind ≠ .message) : SlotsOk [] (r.popped n rest) := by
      apply popped_plain h hr
      rw [← Option.not_isSome_iff_eq_none]
      exact fun hh => hm (hk.mp hh)
    dsimp only
    split
    · exact .plain (failClosed_ok (popped_apart h hr) a)
    · unfold pollNotice
      cases hkind : n.kind with
      | connected => exact .plain (pollConnected_ok (hplain (by simp [hkind])) n a)
      | suback => exact .plain (pollSuback_ok (hplain (by simp [hkind])) n a)
      | unsubscribed => exact .plain (pollUnsubscribed_ok (hplain (by simp [hkind])) n a)
      | disconnected => exact .plain ((hplain (by simp [hkind])).sameView rfl)
      | error => exact .plain (pollError_ok (hplain (by simp [hkind])) n a)
      | ready => exact .plain (hplain (by simp [hkind]))
      | puback => exact .plain (hplain (by simp [hkind]))
      | deleted => exact .plain (hplain (by simp [hkind]))
      | message =>
        obtain ⟨s,hs⟩ := Option.isSome_iff_exists.mp (hk.mpr hkind)
        simp only [pollMessage, hs]
        refine ⟨popped_slot h hr hs, fun t m hm => ?_⟩
        simp only [Option.some.injEq, Prod.mk.injEq] at hm
        exact h.sized s m hm.2

theorem emqttPoll_ok {r : Runtime} (h : SlotsOk [] r) (a : Answers) :
    SlotsOk [] (emqttPoll r a).2 := by
  have hp := (emqttPollBegin_ok h a).slots
  unfold emqttPoll
  generalize emqttPollBegin r a = p at hp
  obtain ⟨res,q,ret⟩ := p
  cases ret with
  | none => exact hp
  | some sm => exact hp.sendSlot

theorem ownerCall_ok {r : Runtime} (h : SlotsOk [] r) (c : OwnerCall) (a : Answers) :
    SlotsOk [] (ownerCall r a c) := by
  cases c with
  | start net time => exact emqttStart_ok h net time a
  | stop => exact emqttStop_ok h a
  | poll => exact emqttPoll_ok h a
  | subscribe filter qos => exact emqttSubscribe_ok h filter qos a
  | unsubscribe filter => exact emqttUnsubscribe_ok h filter a
  | enqueue topic payload length qos => exact emqttEnqueue_ok h topic payload length qos a

theorem emqttCreated_ok (tls : Bool) (subs : List Subscription) (countersValid : Bool) :
    SlotsOk [] (emqttCreated tls subs countersValid) := by
  apply drain_ok
  exact {
    once := fun s => by simp [Runtime.holds, noticeSlots]
    kinds := fun n hn => by cases hn
    active := rfl
    idle := fun _ => rfl
    sized := fun s m hm => by cases hm
    receiving := fun m hm => by cases hm
    accepted := rfl }

/-- The invariant of the finer machine. -/
structure MachineOk (m : Machine) : Prop where
  slots : SlotsOk (m.returning.toList.map Prod.fst) m.rt
  buffer : ∀ s b, m.returning = some (s, some b) → b.Sized

theorem MachineOk.step {m : Machine} (h : MachineOk m) (s : MachineStep × Answers) :
    MachineOk (m.step s) := by
  obtain ⟨st,a⟩ := s
  obtain ⟨rt,ret⟩ := m
  cases st with
  | callback e =>
    have hs : SlotsOk (ret.toList.map Prod.fst) (rt.note (.callback e a.now)) :=
      h.slots.sameView rfl
    cases ret with
    | none => exact ⟨onEvent_ok hs e a, h.buffer⟩
    | some sm => exact ⟨onEvent_ok hs e a, h.buffer⟩
  | call c =>
    cases ret with
    | none => exact ⟨ownerCall_ok h.slots c a, h.buffer⟩
    | some sm => exact h
  | pollBegin =>
    cases ret with
    | none =>
      have hp := emqttPollBegin_ok h.slots a
      exact ⟨hp.slots, hp.buffer⟩
    | some sm => exact h
  | pollEnd =>
    cases ret with
    | none => exact h
    | some sm => exact ⟨h.slots.sendSlot, fun _ _ hh => by cases hh⟩

theorem machineOk_run (tls : Bool) (subs : List Subscription) (countersValid : Bool)
    (ss : List (MachineStep × Answers)) :
    MachineOk (Machine.run ⟨emqttCreated tls subs countersValid, none⟩ ss) :=
  Machine.run_induction MachineOk (fun _ s h => h.step s) ss _
    ⟨emqttCreated_ok tls subs countersValid, fun _ _ hh => by cases hh⟩

/-- The slots the queued MESSAGE notices name. -/
def messageSlots (ns : List Notice) : List Slot :=
  (ns.filter fun n => n.kind = .message).filterMap Notice.slot

/-- The message buffers that exist. -/
def Machine.liveBuffers (m : Machine) : List OwnedMessage :=
  (List.finRange 3).filterMap m.rt.messages ++ m.rt.receiverMessage.toList ++
    (m.returning.bind Prod.snd).toList

/-- Slots and buffers are conserved. -/
structure Conserved (m : Machine) : Prop where
  partition : (m.rt.freeSlots ++ m.rt.receiverSlot.toList ++ messageSlots m.rt.notices ++
    m.returning.toList.map Prod.fst).Perm [0,1,2]
  named : ∀ s, m.rt.messages s ≠ none ↔ ∃ n ∈ m.rt.notices, n.kind = .message ∧ n.slot = some s
  receiver : m.rt.receiverMessage ≠ none ↔ m.rt.receiver.active = true
  live : m.liveBuffers.length ≤ 4
  sized : ∀ b ∈ m.liveBuffers, b.info.length = b.allocated
  neverRefused : m.rt.refused = []

theorem messageSlots_eq {ns : List Notice}
    (h : ∀ n ∈ ns, n.slot.isSome = true ↔ n.kind = .message) : messageSlots ns = noticeSlots ns := by
  induction ns with
  | nil => rfl
  | cons n ns ih =>
    have hn := h n List.mem_cons_self
    have ih' := ih fun k hk => h k (List.mem_cons_of_mem n hk)
    unfold messageSlots noticeSlots at *
    by_cases hm : n.kind = .message
    · simp only [List.filter_cons, hm, decide_true, if_true, List.filterMap_cons]
      rw [ih']
    · have hs : n.slot = none := by
        rw [← Option.not_isSome_iff_eq_none]
        exact fun hh => hm (hn.mp hh)
      simp only [List.filter_cons, hm, decide_false, Bool.false_eq_true, if_false,
        List.filterMap_cons, hs]
      exact ih'

theorem perm_of_counts {l : List Slot} (h : ∀ s, l.count s = 1) : l.Perm [0,1,2] := by
  rw [List.perm_iff_count]
  intro s
  rw [h s]
  revert s
  decide

/-- Every live buffer but the receiver's stands in a slot of its own. -/
theorem liveBuffers_le {m : Machine} (h : MachineOk m) (hf : m.rt.faulted = false) :
    m.liveBuffers.length ≤ 4 := by
  have hfull : (m.rt.freeSlots ++ m.rt.receiverSlot.toList ++ noticeSlots m.rt.notices ++
      m.returning.toList.map Prod.fst).Perm [0,1,2] := by
    apply perm_of_counts
    intro s
    have := h.slots.all hf s
    simp only [Runtime.holds] at this
    simp only [List.count_append]
    exact this
  have hlen := hfull.length_eq
  simp only [List.length_append, List.length_map, List.length_cons, List.length_nil] at hlen
  have hstored : ((List.finRange 3).filterMap m.rt.messages).length ≤
      (noticeSlots m.rt.notices).length := by
    have hsub : ∀ s ∈ (List.finRange 3).filter (fun s => (m.rt.messages s).isSome),
        s ∈ noticeSlots m.rt.notices := by
      intro s hs
      exact (h.slots.named hf s).mp (List.mem_filter.mp hs).2
    have hnd : ((List.finRange 3).filter (fun s => (m.rt.messages s).isSome)).Nodup :=
      (List.nodup_finRange 3).filter _
    have hle := (hnd.subperm hsub).length_le
    have heq : ((List.finRange 3).filterMap m.rt.messages).length =
        ((List.finRange 3).filter (fun s => (m.rt.messages s).isSome)).length := by
      rw [List.length_filterMap_eq_countP, List.countP_eq_length_filter]
    omega
  have h1 : m.rt.receiverMessage.toList.length ≤ 1 := by cases m.rt.receiverMessage <;> simp
  have h2 : (m.returning.bind Prod.snd).toList.length ≤ m.returning.toList.length := by
    cases m.returning with
    | none => simp
    | some sm => cases h3 : sm.2 <;> simp [h3]
  simp only [Machine.liveBuffers, List.length_append]
  omega

/-- Slot and buffer conservation in every run. -/
theorem slots_conserved (tls : Bool) (subs : List Subscription) (countersValid : Bool)
    (ss : List (MachineStep × Answers))
    (hf : (Machine.run ⟨emqttCreated tls subs countersValid, none⟩ ss).rt.faulted = false) :
    Conserved (Machine.run ⟨emqttCreated tls subs countersValid, none⟩ ss) := by
  have h := machineOk_run tls subs countersValid ss
  generalize Machine.run ⟨emqttCreated tls subs countersValid, none⟩ ss = m at h hf
  refine ⟨?_, fun s => ?_, ?_, liveBuffers_le h hf, ?_, h.slots.accepted⟩
  · rw [messageSlots_eq h.slots.kinds]
    apply perm_of_counts
    intro s
    have := h.slots.all hf s
    simp only [Runtime.holds] at this
    simp only [List.count_append]
    exact this
  · rw [← Option.isSome_iff_ne_none, h.slots.named hf s, ← messageSlots_eq h.slots.kinds]
    simp [messageSlots, and_assoc]
  · rw [← Option.isSome_iff_ne_none, h.slots.active]
  · intro b hb
    simp only [Machine.liveBuffers, List.mem_append, List.mem_filterMap, Option.mem_toList] at hb
    rcases hb with (⟨s,-,hs⟩ | hr) | hd
    · exact (h.slots.sized s b hs).1
    · exact (h.slots.receiving b hr).1
    · cases hret : m.returning with
      | none =>
        rw [hret] at hd
        cases hd
      | some sm =>
        obtain ⟨s,o⟩ := sm
        rw [hret] at hd
        simp only [Option.bind_some] at hd
        exact (h.buffer s b (by rw [hret, hd])).1

/-- The SDK, the clock and the allocator as they answer when all goes well. -/
def calmAnswers : Answers := ⟨0, 0, 0, true, 0, .ok, .ok, 7⟩

/-- A DATA event for topic `t`, QoS 1. -/
def dataEvent (msgId total offset : ℤ) (data : List UInt8) : MqttEvent :=
  { id := .data, msgId := msgId, topic := some [0x74], topicLen := 1, data := some data
    dataLen := data.length, totalDataLen := total, currentDataOffset := offset, qos := 1
    retain := false, dup := false, errorHandle := none }

/-- Two messages, a poll that holds the first one's slot, and the first half of
a third message meanwhile. -/
def midPollSteps : List (MachineStep × Answers) :=
  [.call (.start true true), .callback (dataEvent 1 1 0 [0xaa]), .callback (dataEvent 2 1 0 [0xbb]),
    .pollBegin, .callback (dataEvent 3 2 0 [0xcc])].map fun s => (s, calmAnswers)

theorem slots_conserved_mid_poll :
    Conserved (Machine.run ⟨emqttCreated true [] true, none⟩ midPollSteps) :=
  slots_conserved true [] true midPollSteps (by decide +kernel)

end EspMqtt
