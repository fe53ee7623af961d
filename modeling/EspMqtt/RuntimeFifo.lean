import EspMqtt.SlotConservation

/-! The bounded runtime against an unbounded FIFO. -/
namespace EspMqtt

/-- What a consumer gets of a notice: the notice without its slot number, and
the message it announces. -/
abbrev Sent := Notice × Option OwnedMessage

def Notice.unslotted (n : Notice) : Notice := {n with slot := none}

/-- The abstract runtime: everything the callbacks produce goes into one
unbounded sequence, and storage is always there. -/
structure Ideal where
  receiver : ReceiveState
  message : Option OwnedMessage
  sent : List Sent
  deriving DecidableEq

namespace Ideal

def fresh : Ideal := ⟨⟨0,false⟩, none, []⟩

def send (i : Ideal) (n : Notice) (m : Option OwnedMessage) : Ideal :=
  {i with sent := i.sent ++ [(n,m)]}

def reset (i : Ideal) : Ideal := {i with receiver := ⟨0,false⟩, message := none}

/-- A fragment, into the message begun or into a new one of the declared length. -/
def fragment (i : Ideal) (e : MqttEvent) (n : Notice) (m : OwnedMessage) : Ideal :=
  match emqttReceiveInto i.receiver m.info m.payload m.info.length e.fragment with
  | (.more, rc, info, payload) =>
    {i with receiver := rc, message := some ⟨info,payload,m.allocated⟩}
  | (.rejected, _, _, _) => i.reset.send {n with kind := .error, error := .fragment} none
  | (.complete, rc, info, payload) =>
    {i with receiver := rc, message := none}.send {n with kind := .message}
      (some ⟨info,payload,m.allocated⟩)

def data (i : Ideal) (e : MqttEvent) (n : Notice) : Ideal :=
  match i.message with
  | some m => i.fragment e n m
  | none =>
    if e.totalDataLen < 0 ∨ (emqttPayloadMax : ℤ) < e.totalDataLen then
      i.send {n with kind := .error, error := .fragment} none
    else i.fragment e n (freshMessage e.totalDataLen.toNat)

/-- What a callback that arrives at `now` adds. -/
def event (i : Ideal) (e : MqttEvent) (now : ℤ) : Ideal :=
  let n : Notice :=
    { kind := .connected, messageId := e.msgId, slot := none, brokerCode := 0, tlsFlags := 0
      arrivedUs := now, error := .none, suback := [] }
  match e.id with
  | .connected => i.reset.send n none
  | .disconnected => i.reset.send {n with kind := .disconnected} none
  | .subscribed => i.send (subackNotice e n) none
  | .unsubscribed => i.send {n with kind := .unsubscribed} none
  | .published => i.send {n with kind := .puback} none
  | .deleted => i.send {n with kind := .deleted, error := .expired} none
  | .error =>
    i.send (match e.errorHandle with
      | none => {n with kind := .error, error := .sdk}
      | some h => {n with kind := .error, brokerCode := h.connectReturnCode,
                          tlsFlags := h.espTlsCertVerifyFlags, error := noticeError h}) none
  | .data => i.data e n
  | .other => i

end Ideal

/-- The unbounded runtime after the callbacks since the last start. -/
def idealOf : List Entry → Ideal
  | [] => .fresh
  | .started :: _ => .fresh
  | .callback e now :: log => (idealOf log).event e now
  | .took _ _ :: log => idealOf log
  | .submitted _ :: log => idealOf log

/-- The notices polls have taken since the last start, with their messages. -/
def consumedOf : List Entry → List Sent
  | [] => []
  | .started :: _ => []
  | .took n m :: log => consumedOf log ++ [(n.unslotted,m)]
  | .callback _ _ :: log => consumedOf log
  | .submitted _ :: log => consumedOf log

/-- The notices still queued, with their messages. -/
def Runtime.queued (r : Runtime) : List Sent :=
  r.notices.map fun n => (n.unslotted, n.slot.bind r.messages)

/-- The runtime as the unbounded one sees it. -/
def Runtime.idealView (r : Runtime) : Ideal := ⟨r.receiver, r.receiverMessage, r.queued⟩

/-! One callback: unless something is lost, the runtime does what the unbounded
one does. -/

/-- Storing a message in a slot no queued notice names changes no queued notice. -/
theorem queued_update {r : Runtime} {s : Slot} (hs : s ∉ noticeSlots r.notices)
    (o : Option OwnedMessage) (ns : List Notice) (hns : ns ⊆ r.notices) :
    (ns.map fun n => (n.unslotted, n.slot.bind (Function.update r.messages s o))) =
      ns.map fun n => (n.unslotted, n.slot.bind r.messages) := by
  apply List.map_congr_left
  intro n hn
  cases hslot : n.slot with
  | none => rfl
  | some t =>
    have hne : t ≠ s := by
      rintro rfl
      exact hs (List.mem_filterMap.mpr ⟨n, hns hn, hslot⟩)
    simp only [Option.bind_some, Function.update_of_ne hne]

theorem post_plain_sim (r : Runtime) (n : Notice) (hn : n.slot = none)
    (ho : (post r n).overflow = false) :
    r.overflow = false ∧ (post r n).idealView = r.idealView.send n none := by
  unfold post at *
  split at ho
  · rename_i hlen
    rw [if_pos hlen]
    refine ⟨ho, ?_⟩
    have hu : n.unslotted = n := by
      unfold Notice.unslotted
      rw [← hn]
    simp [Runtime.idealView, Runtime.queued, Ideal.send, hn, hu]
  · cases ho

theorem transferMessage_sim (r : Runtime) (m : OwnedMessage) (s : Slot) (n : Notice)
    (hn : n.slot = none) (hs : s ∉ noticeSlots r.notices)
    (ho : (transferMessage r m s n).overflow = false) :
    r.overflow = false ∧ (transferMessage r m s n).idealView =
      Ideal.send ⟨r.receiver, none, r.queued⟩ {n with kind := .message} (some m) := by
  unfold transferMessage post at *
  split at ho
  · rename_i hlen
    rw [if_pos hlen]
    refine ⟨ho, ?_⟩
    have hu : Notice.unslotted {n with slot := some s, kind := .message} =
        {n with kind := .message} := by
      unfold Notice.unslotted
      rw [← hn]
    have hq := queued_update (r := r) hs (some m) r.notices (List.Subset.refl _)
    simp only [Runtime.idealView, Runtime.queued, Ideal.send, List.map_append, List.map_cons,
      List.map_nil, hu, hq, Option.bind_some, Function.update_self]
  · cases ho

theorem sendSlot_sim (r : Runtime) (s : Slot) (ho : (r.sendSlot s).overflow = false) :
    r.overflow = false ∧ (r.sendSlot s).idealView = r.idealView := by
  unfold Runtime.sendSlot at *
  split at ho
  · rename_i hlen
    rw [if_pos hlen]
    exact ⟨ho,rfl⟩
  · cases ho

theorem releaseReceiverSlot_sim (r : Runtime) (ho : (releaseReceiverSlot r).overflow = false) :
    r.overflow = false ∧ (releaseReceiverSlot r).idealView = r.idealView.reset := by
  unfold releaseReceiverSlot at *
  cases hs : r.receiverSlot with
  | none =>
    simp only [hs] at ho ⊢
    exact ⟨ho,rfl⟩
  | some s =>
    simp only [hs] at ho ⊢
    exact sendSlot_sim _ s ho

theorem completeMessage_sim (out : List Slot) (r : Runtime) (m : OwnedMessage) (n : Notice)
    (hn : n.slot = none) (hc : ∀ s, r.holds s+out.count s ≤ 1)
    (ho : (completeMessage r m n).overflow = false) :
    r.overflow = false ∧ (completeMessage r m n).idealView =
      Ideal.send ⟨r.receiver, none, r.queued⟩ {n with kind := .message} (some m) := by
  unfold completeMessage at *
  cases hs : r.receiverSlot with
  | some s =>
    simp only [hs] at ho ⊢
    apply transferMessage_sim r m s n hn _ ho
    have h1 := hc s
    simp only [Runtime.holds, hs, Option.toList_some, List.count_singleton_self] at h1
    exact List.count_eq_zero.mp (by omega)
  | none =>
    simp only [hs] at ho ⊢
    cases hfree : r.freeSlots with
    | nil =>
      simp only [hfree] at ho
      cases ho
    | cons s rest =>
      simp only [hfree] at ho ⊢
      apply transferMessage_sim {r with freeSlots := rest} m s n hn _ ho
      have h1 := hc s
      simp only [Runtime.holds, hfree, List.count_cons_self] at h1
      exact List.count_eq_zero.mp (by dsimp only; omega)

theorem receiveFragment_sim (out : List Slot) (e : MqttEvent) (a : Answers) (r : Runtime)
    (m : OwnedMessage) (n : Notice) (hn : n.slot = none) (hc : ∀ s, r.holds s+out.count s ≤ 1)
    (ho : (receiveFragment e a r m n).overflow = false) :
    r.overflow = false ∧ (receiveFragment e a r m n).idealView = r.idealView.fragment e n m := by
  unfold receiveFragment Ideal.fragment at *
  simp only [Runtime.idealView]
  generalize emqttReceiveInto r.receiver m.info m.payload m.info.length e.fragment = o at *
  obtain ⟨res,rc,info,payload⟩ := o
  cases res with
  | more =>
    dsimp only at ho ⊢
    obtain ⟨c,hcap⟩ := capacityNotePartial_eq
      {r with receiver := rc, receiverMessage := some ⟨info,payload,m.allocated⟩} a
    rw [hcap] at ho ⊢
    exact ⟨ho,rfl⟩
  | rejected =>
    dsimp only at ho ⊢
    rw [releaseReceiverSlot_receiver] at ho ⊢
    obtain ⟨h1,h2⟩ := post_plain_sim _ {n with kind := .error, error := .fragment} hn ho
    obtain ⟨h3,h4⟩ := releaseReceiverSlot_sim r h1
    refine ⟨h3, ?_⟩
    change (post _ _).idealView = _
    rw [h2, h4]
    rfl
  | complete =>
    dsimp only at ho ⊢
    exact completeMessage_sim out
      {r with receiver := rc, receiverMessage := some ⟨info,payload,m.allocated⟩} _ n hn hc ho

theorem onData_sim {r : Runtime} (h : SlotsOk [] r) (e : MqttEvent) (a : Answers) (n : Notice)
    (hn : n.slot = none) (ho : (onData e a r n).overflow = false) :
    r.overflow = false ∧ (onData e a r n).idealView = r.idealView.data e n := by
  unfold onData ensureReceiver Ideal.data at *
  cases hr : r.receiverMessage with
  | some m =>
    simp only [hr, Runtime.idealView] at ho ⊢
    have := receiveFragment_sim [] e a r m n hn h.once ho
    simpa only [Runtime.idealView, hr] using this
  | none =>
    have hslot := h.idle hr
    simp only [hr, Runtime.idealView] at ho ⊢
    by_cases hrange : e.totalDataLen < 0 ∨ (emqttPayloadMax : ℤ) < e.totalDataLen
    · simp only [if_pos hrange] at ho ⊢
      obtain ⟨h1,h2⟩ := post_plain_sim r {n with kind := .error, error := .fragment} hn ho
      refine ⟨h1, ?_⟩
      simpa only [Runtime.idealView, hr] using h2
    · simp only [if_neg hrange] at ho ⊢
      cases ha : a.alloc with
      | true =>
        simp only [ha, if_true] at ho ⊢
        refine receiveFragment_sim [] e a
          {r with receiverSlot := r.freeSlots.head?, freeSlots := r.freeSlots.tail,
                  receiverMessage := some (freshMessage e.totalDataLen.toNat)} _ n hn ?_ ho
        intro t
        have := h.once t
        rwa [← holds_takeSlot hslot t (some (freshMessage e.totalDataLen.toNat)) r.receiver] at this
      | false =>
        simp only [ha] at ho
        cases ho

theorem onEvent_sim {r : Runtime} (h : SlotsOk [] r) (e : MqttEvent) (a : Answers)
    (ho : (onEvent e a r).overflow = false) :
    r.overflow = false ∧ (onEvent e a r).idealView = r.idealView.event e a.now := by
  unfold onEvent Ideal.event at *
  cases hid : e.id with
  | connected =>
    simp only [hid] at ho ⊢
    obtain ⟨h1,h2⟩ := post_plain_sim _ _ rfl ho
    obtain ⟨h3,h4⟩ := releaseReceiverSlot_sim r h1
    exact ⟨h3, by rw [h2, h4]⟩
  | disconnected =>
    simp only [hid] at ho ⊢
    obtain ⟨h1,h2⟩ := post_plain_sim _ _ rfl ho
    obtain ⟨h3,h4⟩ := releaseReceiverSlot_sim r h1
    exact ⟨h3, by rw [h2, h4]⟩
  | subscribed =>
    simp only [hid] at ho ⊢
    refine post_plain_sim r _ ?_ ho
    unfold subackNotice
    split <;> rfl
  | unsubscribed =>
    simp only [hid] at ho ⊢
    exact post_plain_sim r _ rfl ho
  | published =>
    simp only [hid] at ho ⊢
    exact post_plain_sim r _ rfl ho
  | deleted =>
    simp only [hid] at ho ⊢
    exact post_plain_sim r _ rfl ho
  | error =>
    simp only [hid] at ho ⊢
    refine post_plain_sim r _ ?_ ho
    cases e.errorHandle <;> rfl
  | data =>
    simp only [hid] at ho ⊢
    exact onData_sim h e a _ rfl ho
  | other =>
    simp only [hid] at ho ⊢
    exact ⟨ho, trivial⟩

/-- With `l` sent before everything else. -/
def Ideal.after (i : Ideal) (l : List Sent) : Ideal := ⟨i.receiver, i.message, l ++ i.sent⟩

/-- The unbounded runtime only ever appends. -/
theorem Ideal.fragment_after (i : Ideal) (l : List Sent) (e : MqttEvent) (n : Notice)
    (m : OwnedMessage) : (i.after l).fragment e n m = (i.fragment e n m).after l := by
  unfold Ideal.fragment
  simp only [Ideal.after]
  generalize emqttReceiveInto i.receiver m.info m.payload m.info.length e.fragment = o
  obtain ⟨res,rc,info,payload⟩ := o
  cases res <;> simp [Ideal.send, Ideal.reset]

theorem Ideal.event_after (i : Ideal) (l : List Sent) (e : MqttEvent) (now : ℤ) :
    (i.after l).event e now = (i.event e now).after l := by
  unfold Ideal.event
  cases e.id with
  | data =>
    obtain ⟨rc,message,sent⟩ := i
    simp only [Ideal.data, Ideal.after]
    cases message with
    | some m => exact Ideal.fragment_after ⟨rc, some m, sent⟩ l e _ m
    | none =>
      dsimp only
      split
      · simp [Ideal.send]
      · exact Ideal.fragment_after ⟨rc, none, sent⟩ l e _ _
  | connected => simp [Ideal.send, Ideal.reset, Ideal.after]
  | disconnected => simp [Ideal.send, Ideal.reset, Ideal.after]
  | subscribed => simp [Ideal.send, Ideal.after]
  | unsubscribed => simp [Ideal.send, Ideal.after]
  | published => simp [Ideal.send, Ideal.after]
  | deleted => simp [Ideal.send, Ideal.after]
  | error => simp [Ideal.send, Ideal.after]
  | other => rfl

theorem Ideal.sent_prefix (i : Ideal) (e : MqttEvent) (now : ℤ) :
    i.sent <+: (i.event e now).sent := by
  have h := Ideal.event_after ⟨i.receiver, i.message, []⟩ i.sent e now
  simp only [Ideal.after, List.append_nil] at h
  rw [h]
  exact List.prefix_append _ _

/-- The runtime is where the unbounded one is, once what polls have taken is
put in front of the queue. -/
def InStep (r : Runtime) : Prop :=
  idealOf r.log = r.idealView.after (consumedOf r.log)

/-- The refinement invariant, for an SDK that stops when it is told to. -/
structure FifoOk (r : Runtime) : Prop where
  unfaulted : r.started = true → r.faulted = false
  consumed : consumedOf r.log <+: (idealOf r.log).sent
  inStep : r.started = true → r.overflow = false → InStep r
  down : r.started = false → r.notices = [] ∧ r.overflow = false ∧ r.state ≠ .subscribing ∧
    r.state ≠ .ready

/-- What the owner's fields say, read off their view. -/
theorem ownerView_fields {r r' : Runtime} (h : r'.ownerView = r.ownerView) :
    r'.started = r.started ∧ r'.faulted = r.faulted ∧ r'.state = r.state ∧ r'.log = r.log := by
  have := congrArg (fun q : Runtime => (q.started, q.faulted, q.state, q.log)) h
  simpa only [Runtime.ownerView, Prod.mk.injEq] using this

theorem FifoOk.callback {r : Runtime} (h : FifoOk r) (hslots : SlotsOk [] r)
    (hs : r.started = true) (e : MqttEvent) (a : Answers) : FifoOk (r.step (.callback e, a)) := by
  have hnoted : SlotsOk [] (r.note (.callback e a.now)) := hslots.sameView rfl
  obtain ⟨v1,v2,-,v4⟩ := ownerView_fields (onEvent_ownerView e a (r.note (.callback e a.now)))
  change FifoOk (onEvent e a (r.note (.callback e a.now)))
  have hlog : (onEvent e a (r.note (.callback e a.now))).log = .callback e a.now :: r.log := v4
  have hst : (onEvent e a (r.note (.callback e a.now))).started = true := v1.trans hs
  refine ⟨fun _ => v2.trans (h.unfaulted hs), ?_, fun _ ho => ?_, fun hd => ?_⟩
  · rw [hlog]
    exact h.consumed.trans (Ideal.sent_prefix _ e a.now)
  · obtain ⟨hov,hview⟩ := onEvent_sim hnoted e a ho
    have hin := h.inStep hs hov
    unfold InStep at hin ⊢
    rw [hlog, idealOf, consumedOf, hin, Ideal.event_after, hview]
    rfl
  · rw [hst] at hd
    cases hd

end EspMqtt
