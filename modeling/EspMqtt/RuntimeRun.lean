import EspMqtt.RuntimeApi

/-! Runs of the emqtt runtime: callbacks of the SDK worker and calls of the
owner task, in any order. -/
namespace EspMqtt

inductive OwnerCall where
  | start (networkReady trustedTimeReady : Bool)
  | stop
  | poll
  | subscribe (filter : Option (List UInt8)) (qos : ℕ)
  | unsubscribe (filter : Option (List UInt8))
  | enqueue (topic : Option (List UInt8)) (payload : Bool) (length qos : ℕ)
  deriving DecidableEq, Repr

def ownerCall (r : Runtime) (a : Answers) : OwnerCall → Runtime
  | .start networkReady trustedTimeReady => (emqttStart r networkReady trustedTimeReady a).2
  | .stop => (emqttStop r a).2
  | .poll => (emqttPoll r a).2
  | .subscribe filter qos => (emqttSubscribe r filter qos a).2
  | .unsubscribe filter => (emqttUnsubscribe r filter a).2
  | .enqueue topic payload length qos => (emqttEnqueue r topic payload length qos a).2

/-- One atomic step: a callback of the SDK or a whole call of the owner. -/
inductive RtStep where
  | callback (e : MqttEvent)
  | call (c : OwnerCall)
  deriving DecidableEq, Repr

def Runtime.step (r : Runtime) (s : RtStep × Answers) : Runtime :=
  match s.1 with
  | .callback e => onEvent e s.2 (r.note (.callback e s.2.now))
  | .call c => ownerCall r s.2 c

def Runtime.run (r : Runtime) (ss : List (RtStep × Answers)) : Runtime := ss.foldl Runtime.step r

/-- The runtime together with a poll that has detached a message and not yet
returned its slot. -/
structure Machine where
  rt : Runtime
  returning : Option (Slot × Option OwnedMessage)
  deriving DecidableEq

/-- The finer steps: callbacks may also come between the two halves of a poll. -/
inductive MachineStep where
  | callback (e : MqttEvent)
  | call (c : OwnerCall)
  | pollBegin
  | pollEnd
  deriving DecidableEq, Repr

def Machine.step (m : Machine) (s : MachineStep × Answers) : Machine :=
  match s.1, m.returning with
  | .callback e, _ => {m with rt := onEvent e s.2 (m.rt.note (.callback e s.2.now))}
  | .call c, none => {m with rt := ownerCall m.rt s.2 c}
  | .pollBegin, none =>
    let p := emqttPollBegin m.rt s.2
    ⟨p.rt, p.returning⟩
  | .pollEnd, some (slot, _) => ⟨m.rt.sendSlot slot, none⟩
  | _, _ => m

def Machine.run (m : Machine) (ss : List (MachineStep × Answers)) : Machine :=
  ss.foldl Machine.step m

/-- An invariant of every step is an invariant of every run. -/
theorem Runtime.run_induction (P : Runtime → Prop) (hstep : ∀ r s, P r → P (r.step s))
    (ss : List (RtStep × Answers)) (r : Runtime) (h : P r) : P (r.run ss) := by
  induction ss generalizing r with
  | nil => exact h
  | cons s ss ih => exact ih (r.step s) (hstep r s h)

theorem Machine.run_induction (P : Machine → Prop) (hstep : ∀ m s, P m → P (m.step s))
    (ss : List (MachineStep × Answers)) (m : Machine) (h : P m) : P (m.run ss) := by
  induction ss generalizing m with
  | nil => exact h
  | cons s ss ih => exact ih (m.step s) (hstep m s h)

/-- The fields only the owner task writes: everything but the queues, the slots,
the receiver, the overflow flag and the capacity figures. -/
def Runtime.ownerView (r : Runtime) : Runtime :=
  {r with
    notices := []
    freeSlots := []
    receiver := ⟨0,false⟩
    receiverMessage := none
    receiverSlot := none
    messages := fun _ => none
    overflow := false
    capacity := ⟨0,0,0,0,0,0,0,0,0,0,0,0,0,false,false⟩
    refused := []}

theorem sendSlot_ownerView (r : Runtime) (s : Slot) : (r.sendSlot s).ownerView = r.ownerView := by
  unfold Runtime.sendSlot
  split <;> rfl

theorem releaseReceiverSlot_ownerView (r : Runtime) :
    (releaseReceiverSlot r).ownerView = r.ownerView := by
  unfold releaseReceiverSlot
  dsimp only
  split
  · exact sendSlot_ownerView _ _
  · rfl

theorem post_ownerView (r : Runtime) (n : Notice) : (post r n).ownerView = r.ownerView := by
  unfold post
  split
  · rfl
  · dsimp only
    split
    · exact sendSlot_ownerView (detachMessageSlot _ _).2 _
    · rfl

theorem completeMessage_ownerView (r : Runtime) (m : OwnedMessage) (n : Notice) :
    (completeMessage r m n).ownerView = r.ownerView := by
  unfold completeMessage
  split
  · exact post_ownerView _ _
  · split
    · exact releaseReceiverSlot_ownerView r
    · exact post_ownerView _ _

theorem receiveFragment_ownerView (e : MqttEvent) (a : Answers) (r : Runtime) (m : OwnedMessage)
    (n : Notice) : (receiveFragment e a r m n).ownerView = r.ownerView := by
  unfold receiveFragment
  split
  · unfold capacityNotePartial
    dsimp only
    split
    · rfl
    · split <;> rfl
  · exact (post_ownerView _ _).trans (releaseReceiverSlot_ownerView _)
  · exact completeMessage_ownerView _ _ _

theorem onData_ownerView (e : MqttEvent) (a : Answers) (r : Runtime) (n : Notice) :
    (onData e a r n).ownerView = r.ownerView := by
  unfold onData ensureReceiver
  cases r.receiverMessage with
  | some m => exact receiveFragment_ownerView e a r m n
  | none =>
    dsimp only
    by_cases hrange : e.totalDataLen < 0 ∨ (emqttPayloadMax : ℤ) < e.totalDataLen
    · rw [if_pos hrange]
      exact post_ownerView _ _
    · rw [if_neg hrange]
      cases a.alloc with
      | true => exact receiveFragment_ownerView _ _ _ _ _
      | false =>
        cases r.freeSlots.head? with
        | none => rfl
        | some s => exact sendSlot_ownerView _ s

/-- A callback does not touch what belongs to the owner. -/
theorem onEvent_ownerView (e : MqttEvent) (a : Answers) (r : Runtime) :
    (onEvent e a r).ownerView = r.ownerView := by
  unfold onEvent
  cases e.id with
  | connected => exact (post_ownerView _ _).trans (releaseReceiverSlot_ownerView r)
  | disconnected => exact (post_ownerView _ _).trans (releaseReceiverSlot_ownerView r)
  | subscribed => exact post_ownerView _ _
  | unsubscribed => exact post_ownerView _ _
  | published => exact post_ownerView _ _
  | deleted => exact post_ownerView _ _
  | error => exact post_ownerView _ _
  | data => exact onData_ownerView e a r _
  | other => rfl

end EspMqtt
