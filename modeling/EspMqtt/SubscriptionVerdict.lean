import EspMqtt.RuntimeReady
import EspMqtt.FifoRefinement

/-! The verdict on a pending subscribe or unsubscribe: it depends on when the
acknowledgements arrived and not on when the owner polls. -/
namespace EspMqtt

/-- What happens while the owner waits: callbacks, and polls of its own. -/
inductive WaitStep where
  | callback (e : MqttEvent)
  | poll
  deriving DecidableEq, Repr

/-- Callbacks and polls, each at the time its answers carry. -/
abbrev Schedule := List (WaitStep × Answers)

/-- The callbacks of a schedule with their arrival times. -/
def arrivalsOf : Schedule → List (MqttEvent × ℤ)
  | [] => []
  | (.callback e, a) :: σ => (e, a.now) :: arrivalsOf σ
  | (.poll, _) :: σ => arrivalsOf σ

/-- The request is still waiting, or the poll that ended it and what it left. -/
inductive Waited where
  | waiting (r : Runtime)
  | ended (ev : Option EmqttEvent) (r : Runtime)

/-- The run of a schedule up to the poll after which the runtime does not wait
any more. -/
def await (r : Runtime) : Schedule → Waited
  | [] => .waiting r
  | (.callback e, a) :: σ => await (r.step (.callback e, a)) σ
  | (.poll, a) :: σ =>
    if (emqttPoll r a).2.state = .subscribing then await (emqttPoll r a).2 σ
    else .ended (emqttPoll r a).1 (emqttPoll r a).2

/-- A request that the SDK accepted at `a.now`: a dynamic one, or the list the
owner submits when it polls a CONNECTED notice. -/
inductive Submits (r : Runtime) (a : Answers) : Submission → Runtime → Prop where
  | subscribe (filter : Option (List UInt8)) (qos : ℕ) {r' : Runtime}
      (h : emqttSubscribe r filter qos a = (.ok, r')) :
      Submits r a ⟨false, a.request, [⟨filter.getD [], qos⟩], a.now+10000000⟩ r'
  | unsubscribe (filter : Option (List UInt8)) {r' : Runtime}
      (h : emqttUnsubscribe r filter a = (.ok, r')) :
      Submits r a ⟨true, a.request,
        (r.subscriptions.drop (r.subscriptions.findIdx fun s => some s.topic == filter)).take 1,
        a.now+10000000⟩ r'
  | connected (n : Notice) {ev : Option EmqttEvent} {r' : Runtime} (hn : Takes r n)
      (hkind : n.kind = .connected) (h : emqttPoll r a = (ev, r'))
      (hwait : r'.state = .subscribing) :
      Submits r a ⟨false, a.request, r.subscriptions, a.now+10000000⟩ r'

/-! The verdict, from the acknowledgements alone. -/

def Notice.isAck (n : Notice) : Bool := n.kind == .suback || n.kind == .unsubscribed

/-- The acknowledgement a callback that arrives at `now` queues. -/
def ackNotice (e : MqttEvent) (now : ℤ) : Option Notice :=
  let n : Notice :=
    { kind := .connected, messageId := e.msgId, slot := none, brokerCode := 0, tlsFlags := 0
      arrivedUs := now, error := .none, suback := [] }
  match e.id with
  | .subscribed => some (subackNotice e n)
  | .unsubscribed => some {n with kind := .unsubscribed}
  | _ => none

/-- The acknowledgement is the one for this request and grants it. -/
def Submission.grantedBy (s : Submission) (n : Notice) : Bool :=
  s.answeredBy n &&
    (s.unsubscribe || (n.error == .none && emqttSubackValid n.suback s.filters s.filters.length))

inductive Verdict where
  | granted (n : Notice)
  | refused
  deriving DecidableEq, Repr

/-- The first acknowledgement decides; it has to arrive before the deadline. -/
def Submission.verdict (s : Submission) : List Notice → Verdict
  | [] => .refused
  | n :: _ => if n.arrivedUs < s.deadlineUs ∧ s.grantedBy n then .granted n else .refused

/-- How a request ends under a verdict: READY or UNSUBSCRIBED is reported, or a
subscription error with the runtime failed closed. -/
def EndsAs (s : Submission) (stops : Prop) (ev : Option EmqttEvent) (r : Runtime) : Verdict → Prop
  | .granted n =>
    ev = some {n.event with kind := if s.unsubscribe then .unsubscribed else .ready} ∧
      r.state = .ready
  | .refused => FailedClosed (ev, r) ∧ (stops → r.started = false)

/-- Nothing but messages, acknowledgements and reports on publishes. -/
def Notice.Quiet (n : Notice) : Prop :=
  n.kind ≠ .connected ∧ n.kind ≠ .disconnected ∧ (n.kind = .error → n.error = .fragment)

instance (n : Notice) : Decidable n.Quiet := by unfold Notice.Quiet; infer_instance

def MqttEvent.Quiet (e : MqttEvent) : Prop :=
  e.id ≠ .connected ∧ e.id ≠ .disconnected ∧ e.id ≠ .error

instance (e : MqttEvent) : Decidable e.Quiet := by unfold MqttEvent.Quiet; infer_instance

/-- Time does not go back, from the oldest notice queued to the last step. -/
def InOrder (r : Runtime) (σ : Schedule) : Prop :=
  (r.notices.map (·.arrivedUs) ++ σ.map (·.2.now)).Pairwise (· ≤ ·)

instance (r : Runtime) (σ : Schedule) : Decidable (InOrder r σ) := by
  unfold InOrder; infer_instance

/-- Nothing is lost while the request waits. -/
def NoOverflow (r : Runtime) (σ : Schedule) : Prop :=
  ∀ σ', σ' <+: σ → ∀ r', await r σ' = .waiting r' → r'.overflow = false

instance (r : Runtime) (σ : Schedule) : Decidable (NoOverflow r σ) :=
  decidable_of_iff (∀ σ' ∈ σ.inits, (match await r σ' with
      | .waiting r' => r'.overflow
      | .ended _ _ => false) = false) (by
    simp only [List.mem_inits, NoOverflow]
    refine forall₂_congr fun σ' _ => ?_
    cases await r σ' with
    | waiting q => simp
    | ended ev q => simp)

/-- The schedule closes with polls enough for what is queued by then, the last of
them after the deadline unless an acknowledgement is queued. -/
def Drains (s : Submission) (r : Runtime) (σ : Schedule) : Prop :=
  ∃ σ' polls, σ = σ' ++ polls ∧ (∀ p ∈ polls, p.1 = .poll) ∧
    ∀ r', await r σ' = .waiting r' →
      (r'.notices.any Notice.isAck = true ∧ r'.notices.length ≤ polls.length) ∨
      (r'.notices.length < polls.length ∧
        ∃ p, polls.getLast? = some p ∧ s.deadlineUs ≤ p.2.now)

/-! While the request waits. -/

/-- The runtime waits for the answer to `s`. -/
structure Waits (s : Submission) (r : Runtime) : Prop where
  state : r.state = .subscribing
  up : r.faulted = false
  pending : Pending r s

/-- Everything `Waits` reads belongs to the owner, the history apart. -/
theorem Waits.sameOwner {s : Submission} {r r' : Runtime} (h : Waits s r)
    (hv : {r' with log := []}.ownerView = {r with log := []}.ownerView) : Waits s r' := by
  have hf := congrArg (fun q : Runtime => (q.state, q.faulted, q.pendingSubscribe,
    q.pendingUnsubscribe, q.pendingSubscribeCount, q.subscriptionDeadlineUs,
    q.pendingDynamicSubscribe, q.pendingSubscription, q.subscriptions)) hv
  simp only [Runtime.ownerView, Prod.mk.injEq] at hf
  obtain ⟨f1,f2,f3,f4,f5,f6,f7,f8,f9⟩ := hf
  have ha : r'.awaited = r.awaited := by simp only [Runtime.awaited, f7, f8, f9]
  refine ⟨f1.trans h.state, f2.trans h.up, h.pending.positive, ?_, ?_⟩
  · rw [f6]
    exact h.pending.deadline
  · rw [f3, f4, f5, ha]
    exact h.pending.fields

theorem Waits.popped {s : Submission} {r : Runtime} (h : Waits s r) (n : Notice)
    (rest : List Notice) : Waits s (r.popped n rest) :=
  ⟨h.state, h.up, h.pending.popped n rest⟩

/-! Callbacks: without loss, what a callback queues is appended. -/

theorem post_notices {r : Runtime} {n : Notice} (h : (post r n).overflow = false) :
    (post r n).notices = r.notices ++ [n] := by
  by_cases hroom : r.notices.length < noticeCapacity
  · simp only [post, if_pos hroom]
  · simp [post, if_neg hroom] at h

theorem sendSlot_notices (r : Runtime) (s : Slot) : (r.sendSlot s).notices = r.notices := by
  unfold Runtime.sendSlot
  split <;> rfl

theorem releaseReceiverSlot_notices (r : Runtime) :
    (releaseReceiverSlot r).notices = r.notices := by
  unfold releaseReceiverSlot
  dsimp only
  split
  · exact sendSlot_notices _ _
  · rfl

/-- A callback adds no notice, or one stamped with its arrival, which is an
acknowledgement exactly when the callback is. -/
structure Appends (ack : Option Notice) (now : ℤ) (before after : List Notice) : Prop where
  queue : after = before ∧ ack = none ∨
    ∃ n, after = before ++ [n] ∧ n.arrivedUs = now ∧ n.Quiet ∧
      (ack = some n ∧ n.isAck = true ∨ ack = none ∧ n.isAck = false)

theorem Appends.nothing (now : ℤ) (before : List Notice) : Appends none now before before :=
  ⟨Or.inl ⟨rfl,rfl⟩⟩

/-- A notice of a kind nobody waits for. -/
theorem Appends.plain {now : ℤ} {before after : List Notice} {n : Notice}
    (hqueue : after = before ++ [n]) (hnow : n.arrivedUs = now) (hquiet : n.Quiet)
    (hack : n.isAck = false) : Appends none now before after :=
  ⟨Or.inr ⟨n, hqueue, hnow, hquiet, Or.inr ⟨rfl,hack⟩⟩⟩

theorem Appends.answer {now : ℤ} {before after : List Notice} {n : Notice}
    (hqueue : after = before ++ [n]) (hnow : n.arrivedUs = now) (hquiet : n.Quiet)
    (hack : n.isAck = true) : Appends (some n) now before after :=
  ⟨Or.inr ⟨n, hqueue, hnow, hquiet, Or.inl ⟨rfl,hack⟩⟩⟩

theorem completeMessage_appends {r : Runtime} {m : OwnedMessage} {n : Notice}
    (ho : (completeMessage r m n).overflow = false) :
    Appends none n.arrivedUs r.notices (completeMessage r m n).notices := by
  unfold completeMessage at ho ⊢
  split at ho
  · exact .plain (post_notices ho) rfl ⟨by simp, by simp, by simp⟩ rfl
  · split at ho
    · simp at ho
    · exact .plain (post_notices ho) rfl ⟨by simp, by simp, by simp⟩ rfl

theorem receiveFragment_appends {e : MqttEvent} {a : Answers} {r : Runtime} {m : OwnedMessage}
    {n : Notice} (ho : (receiveFragment e a r m n).overflow = false) :
    Appends none n.arrivedUs r.notices (receiveFragment e a r m n).notices := by
  unfold receiveFragment at ho ⊢
  split at ho
  · -- more to come: nothing is queued
    obtain ⟨c,hc⟩ := capacityNotePartial_eq _ a
    rw [hc]
    exact .nothing _ _
  · -- rejected: the fragment error, after the slot went back
    refine .plain (n := {n with kind := .error, error := .fragment}) ?_ rfl
      ⟨by simp, by simp, by simp⟩ rfl
    rw [post_notices ho, releaseReceiverSlot_notices]
  · exact completeMessage_appends ho

theorem onData_appends {e : MqttEvent} {a : Answers} {r : Runtime} {n : Notice}
    (ho : (onData e a r n).overflow = false) :
    Appends none n.arrivedUs r.notices (onData e a r n).notices := by
  unfold onData ensureReceiver at ho ⊢
  cases hm : r.receiverMessage with
  | some m =>
    rw [hm] at ho
    exact receiveFragment_appends ho
  | none =>
    rw [hm] at ho
    dsimp only at ho ⊢
    by_cases hrange : e.totalDataLen < 0 ∨ (emqttPayloadMax : ℤ) < e.totalDataLen
    · rw [if_pos hrange] at ho ⊢
      exact .plain (post_notices ho) rfl ⟨by simp, by simp, by simp⟩ rfl
    · rw [if_neg hrange] at ho ⊢
      cases halloc : a.alloc with
      | true =>
        rw [halloc] at ho
        exact receiveFragment_appends (r := {r with receiverSlot := r.freeSlots.head?, freeSlots := r.freeSlots.tail, receiverMessage := some (freshMessage e.totalDataLen.toNat)}) ho
      | false =>
        -- without memory the callback raises the overflow flag
        rw [halloc] at ho
        simp at ho

theorem onEvent_appends {e : MqttEvent} {a : Answers} {r : Runtime} (hquiet : e.Quiet)
    (ho : (onEvent e a r).overflow = false) :
    Appends (ackNotice e a.now) a.now r.notices (onEvent e a r).notices := by
  obtain ⟨h1,h2,h3⟩ := hquiet
  unfold onEvent at ho ⊢
  unfold ackNotice
  cases hid : e.id with
  | connected => exact absurd hid h1
  | disconnected => exact absurd hid h2
  | error => exact absurd hid h3
  | subscribed =>
    rw [hid] at ho
    have hk : ∀ n, (subackNotice e n).kind = .suback ∧ (subackNotice e n).arrivedUs = n.arrivedUs := by
      intro n
      unfold subackNotice
      split <;> exact ⟨rfl,rfl⟩
    exact .answer (post_notices ho) (hk _).2 ⟨by simp [hk], by simp [hk], by simp [hk]⟩
      (by simp [Notice.isAck, hk])
  | unsubscribed =>
    rw [hid] at ho
    exact .answer (post_notices ho) rfl ⟨by simp, by simp, by simp⟩ rfl
  | published =>
    rw [hid] at ho
    exact .plain (post_notices ho) rfl ⟨by simp, by simp, by simp⟩ rfl
  | deleted =>
    rw [hid] at ho
    exact .plain (post_notices ho) rfl ⟨by simp, by simp, by simp⟩ rfl
  | data =>
    rw [hid] at ho
    exact onData_appends ho
  | other => exact .nothing _ _

/-! The polls. -/

theorem failedClosed_timeout (r : Runtime) (a : Answers) (s : Submission) :
    EndsAs s (a.stop = .ok) (some (errorEvent .subscription)) (failClosed r a) .refused :=
  ⟨⟨⟨_,rfl,rfl,rfl⟩, rfl, rfl⟩, fun ha => failClosed_started r a ha⟩

/-- A SUBACK ends the request as it deserves. -/
theorem pollSuback_ends {s : Submission} {r : Runtime} (h : Waits s r) {n : Notice}
    (hk : n.kind = .suback) (a : Answers) :
    EndsAs s (a.stop = .ok) (pollSuback r n a).1 (pollSuback r n a).2
      (if s.grantedBy n then .granted n else .refused) := by
  by_cases hbad : r.pendingSubscribe ≤ 0 ∨ n.messageId ≠ r.pendingSubscribe ∨
      r.state ≠ .subscribing ∨ n.error ≠ .none ∨
      emqttSubackValid n.suback r.awaited r.pendingSubscribeCount = false
  · have hno : s.grantedBy n = false := by
      rcases h.pending.fields with ⟨f1,f2,f3,f4,-⟩ | ⟨f1,-,-⟩
      · rw [f2, ← f3, f4] at hbad
        have hpos := h.pending.positive
        rcases hbad with hb | hb | hb | hb | hb
        · omega
        · simp [Submission.grantedBy, Submission.answeredBy, hb]
        · exact absurd h.state hb
        · simp [Submission.grantedBy, f1, hb]
        · simp [Submission.grantedBy, f1, hb]
      · simp [Submission.grantedBy, Submission.answeredBy, f1, hk]
    rw [if_neg (by simp [hno])]
    unfold pollSuback
    rw [if_pos hbad]
    exact ⟨⟨⟨_,rfl,rfl,rfl⟩, rfl, rfl⟩, fun ha => failClosed_started r a ha⟩
  · have hyes : s.unsubscribe = false ∧ s.grantedBy n = true := by
      push Not at hbad
      obtain ⟨hpos,hid,-,herr,hvalid⟩ := hbad
      rcases h.pending.fields with ⟨f1,f2,f3,f4,-⟩ | ⟨-,-,f3⟩
      · rw [← f3, f4] at hvalid
        refine ⟨f1, ?_⟩
        simp [Submission.grantedBy, Submission.answeredBy, f1, hk, hid, f2, herr, hvalid]
      · omega
    rw [if_pos hyes.2]
    unfold pollSuback
    rw [if_neg hbad]
    refine ⟨?_, rfl⟩
    rw [hyes.1]
    rfl

theorem pollUnsubscribed_ends {s : Submission} {r : Runtime} (h : Waits s r) {n : Notice}
    (hk : n.kind = .unsubscribed) (a : Answers) :
    EndsAs s (a.stop = .ok) (pollUnsubscribed r n a).1 (pollUnsubscribed r n a).2
      (if s.grantedBy n then .granted n else .refused) := by
  by_cases hbad : r.pendingUnsubscribe ≤ 0 ∨ n.messageId ≠ r.pendingUnsubscribe ∨
      r.state ≠ .subscribing
  · have hno : s.grantedBy n = false := by
      rcases h.pending.fields with ⟨f1,-⟩ | ⟨f1,f2,-⟩
      · simp [Submission.grantedBy, Submission.answeredBy, f1, hk]
      · have hpos := h.pending.positive
        rw [f2] at hbad
        rcases hbad with hb | hb | hb
        · omega
        · simp [Submission.grantedBy, Submission.answeredBy, hb]
        · exact absurd h.state hb
    rw [if_neg (by simp [hno])]
    unfold pollUnsubscribed
    rw [if_pos hbad]
    exact ⟨⟨⟨_,rfl,rfl,rfl⟩, rfl, rfl⟩, fun ha => failClosed_started r a ha⟩
  · have hyes : s.unsubscribe = true ∧ s.grantedBy n = true := by
      push Not at hbad
      obtain ⟨hpos,hid,-⟩ := hbad
      rcases h.pending.fields with ⟨-,-,-,-,f5⟩ | ⟨f1,f2,-⟩
      · omega
      · exact ⟨f1, by simp [Submission.grantedBy, Submission.answeredBy, f1, hk, hid, f2]⟩
    rw [if_pos hyes.2]
    unfold pollUnsubscribed
    rw [if_neg hbad]
    refine ⟨?_, rfl⟩
    rw [hyes.1]
    change some n.event = _
    rw [← hk]
    rfl

/-- A notice nobody waits for leaves the request waiting. -/
theorem pollNotice_waits {s : Submission} {r : Runtime} (h : Waits s r) {n : Notice}
    (hquiet : n.Quiet) (hack : n.isAck = false) (a : Answers) :
    Waits s (pollNotice r n a).rt ∧ (pollNotice r n a).rt.notices = r.notices := by
  obtain ⟨h1,h2,h3⟩ := hquiet
  unfold pollNotice
  cases hk : n.kind with
  | connected => exact absurd hk h1
  | disconnected => exact absurd hk h2
  | suback => simp [Notice.isAck, hk] at hack
  | unsubscribed => simp [Notice.isAck, hk] at hack
  | message =>
    unfold pollMessage
    dsimp only
    split
    · exact ⟨h,rfl⟩
    · exact ⟨h.sameOwner rfl, rfl⟩
  | error =>
    -- only a fragment error, which leaves the session alone
    have hf := h3 hk
    simp only [pollError, hf]
    exact ⟨h,rfl⟩
  | ready => exact ⟨h,rfl⟩
  | puback => exact ⟨h,rfl⟩
  | deleted => exact ⟨h,rfl⟩

/-- The next acknowledgements, those still queued first. -/
def acksOf (r : Runtime) (σ : Schedule) : List Notice :=
  r.notices.filter Notice.isAck ++ (arrivalsOf σ).filterMap fun c => ackNotice c.1 c.2

theorem verdict_late {s : Submission} {acks : List Notice}
    (h : ∀ n ∈ acks, s.deadlineUs ≤ n.arrivedUs) : s.verdict acks = .refused := by
  cases acks with
  | nil => rfl
  | cons n acks =>
    have hn := h n List.mem_cons_self
    exact if_neg fun hh => by omega

theorem verdict_inTime {s : Submission} {n : Notice} (acks : List Notice)
    (h : n.arrivedUs < s.deadlineUs) :
    s.verdict (n :: acks) = if s.grantedBy n then .granted n else .refused := by
  simp [Submission.verdict, h]

theorem EndsAs.mono {s : Submission} {stops stops' : Prop} {ev : Option EmqttEvent} {r : Runtime}
    {v : Verdict} (h : EndsAs s stops ev r v) (himp : stops' → stops) : EndsAs s stops' ev r v := by
  cases v with
  | granted n => exact h
  | refused => exact ⟨h.1, fun hs => h.2 (himp hs)⟩

/-- A request that ended does not wait. -/
theorem EndsAs.over {s : Submission} {stops : Prop} {ev : Option EmqttEvent} {r : Runtime}
    {v : Verdict} (h : EndsAs s stops ev r v) : r.state ≠ .subscribing := by
  cases v with
  | granted n => simp [h.2]
  | refused =>
    have hfailed : r.state = .failed := h.1.failed
    simp [hfailed]

theorem ackNotice_arrived {e : MqttEvent} {now : ℤ} {n : Notice} (h : ackNotice e now = some n) :
    n.arrivedUs = now := by
  unfold ackNotice at h
  split at h
  · obtain rfl := Option.some.inj h
    unfold subackNotice
    split <;> rfl
  · obtain rfl := Option.some.inj h
    rfl
  · cases h

/-- Every acknowledgement to come arrives at a step of the schedule. -/
theorem arrivalsOf_stamp {σ : Schedule} {n : Notice}
    (h : n ∈ (arrivalsOf σ).filterMap fun c => ackNotice c.1 c.2) :
    n.arrivedUs ∈ σ.map (·.2.now) := by
  induction σ with
  | nil => simp [arrivalsOf] at h
  | cons st σ ih =>
    obtain ⟨w,a⟩ := st
    cases w with
    | poll => exact List.mem_cons_of_mem _ (ih h)
    | callback e =>
      simp only [arrivalsOf, List.filterMap_cons] at h
      split at h
      · exact List.mem_cons_of_mem _ (ih h)
      · rename_i m hm
        rcases List.mem_cons.mp h with rfl | h
        · rw [ackNotice_arrived hm]
          exact List.mem_cons_self
        · exact List.mem_cons_of_mem _ (ih h)

/-- What a poll does to a request that waits. -/
inductive PollCase (s : Submission) (r : Runtime) (a : Answers) : Prop where
  | early (hqueue : r.notices = []) (hnow : a.now < s.deadlineUs)
      (hpoll : emqttPoll r a = (none, r))
  | timeout (hqueue : r.notices = []) (hnow : s.deadlineUs ≤ a.now)
      (hends : EndsAs s (a.stop = .ok) (emqttPoll r a).1 (emqttPoll r a).2 .refused)
  | late (n : Notice) (rest : List Notice) (hqueue : r.notices = n :: rest)
      (harr : s.deadlineUs ≤ n.arrivedUs)
      (hends : EndsAs s (a.stop = .ok) (emqttPoll r a).1 (emqttPoll r a).2 .refused)
  | answer (n : Notice) (rest : List Notice) (hqueue : r.notices = n :: rest)
      (harr : n.arrivedUs < s.deadlineUs) (hack : n.isAck = true)
      (hends : EndsAs s (a.stop = .ok) (emqttPoll r a).1 (emqttPoll r a).2
        (if s.grantedBy n then .granted n else .refused))
  | pass (n : Notice) (rest : List Notice) (hqueue : r.notices = n :: rest)
      (hack : n.isAck = false) (hwaits : Waits s (emqttPoll r a).2)
      (hrest : (emqttPoll r a).2.notices = rest)

theorem emqttPoll_cases {s : Submission} {r : Runtime} (h : Waits s r)
    (ho : r.overflow = false) (hquiet : ∀ n ∈ r.notices, n.Quiet) (a : Answers) :
    PollCase s r a := by
  have hdeadline := h.pending.deadline
  -- the poll looks at the clock only where the queue is empty
  cases hqueue : r.notices with
  | nil =>
    by_cases hnow : a.now < s.deadlineUs
    · have hearly : r.state ≠ .subscribing ∨ a.now < r.subscriptionDeadlineUs :=
        Or.inr (hdeadline ▸ hnow)
      refine .early hqueue hnow ?_
      unfold emqttPoll emqttPollBegin
      rw [if_neg (by simp [h.up]), if_neg (by simp [ho]), hqueue]
      dsimp only
      rw [if_pos hearly]
    · have hlate : ¬ (r.state ≠ .subscribing ∨ a.now < r.subscriptionDeadlineUs) := by
        rw [← hdeadline]
        simp [h.state, hnow]
      refine .timeout hqueue (not_lt.mp hnow) ?_
      unfold emqttPoll emqttPollBegin
      rw [if_neg (by simp [h.up]), if_neg (by simp [ho]), hqueue]
      dsimp only
      rw [if_neg hlate]
      exact failedClosed_timeout r a s
  | cons n rest =>
    have hp : Waits s (r.popped n rest) := h.popped n rest
    -- a notice counts by the time it arrived
    by_cases harr : s.deadlineUs ≤ n.arrivedUs
    · have hlate : (r.popped n rest).state = .subscribing ∧
          (r.popped n rest).subscriptionDeadlineUs ≤ n.arrivedUs := by
        rw [← hp.pending.deadline]
        exact ⟨hp.state,harr⟩
      refine .late n rest hqueue harr ?_
      unfold emqttPoll emqttPollBegin
      rw [if_neg (by simp [h.up]), if_neg (by simp [ho]), hqueue]
      dsimp only
      rw [if_pos hlate]
      exact failedClosed_timeout _ a s
    · have hin : ¬ ((r.popped n rest).state = .subscribing ∧
          (r.popped n rest).subscriptionDeadlineUs ≤ n.arrivedUs) := by
        rw [← hp.pending.deadline]
        exact fun hh => harr hh.2
      have hbegin : emqttPollBegin r a = pollNotice (r.popped n rest) n a := by
        unfold emqttPollBegin
        rw [if_neg (by simp [h.up]), if_neg (by simp [ho]), hqueue]
        exact if_neg hin
      cases hack : n.isAck with
      | true =>
        refine .answer n rest hqueue (not_le.mp harr) hack ?_
        unfold emqttPoll
        rw [hbegin]
        have hk : n.kind = .suback ∨ n.kind = .unsubscribed := by simpa [Notice.isAck] using hack
        rcases hk with hk | hk
        · simp only [pollNotice, hk]
          exact pollSuback_ends hp hk a
        · simp only [pollNotice, hk]
          exact pollUnsubscribed_ends hp hk a
      | false =>
        have hn : n.Quiet := hquiet n (hqueue ▸ List.mem_cons_self)
        obtain ⟨hw,hrest⟩ := pollNotice_waits hp hn hack a
        have hpoll : Waits s (emqttPoll r a).2 ∧ (emqttPoll r a).2.notices = rest := by
          unfold emqttPoll
          rw [hbegin]
          dsimp only
          split
          · rename_i slot _ _
            refine ⟨hw.sameOwner ?_, (sendSlot_notices _ slot).trans hrest⟩
            have hv := sendSlot_ownerView (pollNotice (r.popped n rest) n a).rt slot
            exact congrArg (fun q : Runtime => {q with log := []}) hv
          · exact ⟨hw,hrest⟩
        exact .pass n rest hqueue hack hpoll.1 hpoll.2

/-! Whole schedules. -/

theorem NoOverflow.here {r : Runtime} {σ : Schedule} (h : NoOverflow r σ) : r.overflow = false :=
  h [] List.nil_prefix r rfl

theorem NoOverflow.callback {r : Runtime} {e : MqttEvent} {a : Answers} {σ : Schedule}
    (h : NoOverflow r ((.callback e, a) :: σ)) : NoOverflow (r.step (.callback e, a)) σ := by
  intro σ' hpre r' hr
  exact h ((.callback e, a) :: σ') ((List.prefix_cons_inj _).mpr hpre) r' hr

theorem NoOverflow.poll {r : Runtime} {a : Answers} {σ : Schedule}
    (h : NoOverflow r ((.poll, a) :: σ)) (hwait : (emqttPoll r a).2.state = .subscribing) :
    NoOverflow (emqttPoll r a).2 σ := by
  intro σ' hpre r' hr
  apply h ((.poll, a) :: σ') ((List.prefix_cons_inj _).mpr hpre) r'
  rw [await, if_pos hwait]
  exact hr

/-- A callback leaves a waiting request waiting, and moves its own
acknowledgement from the schedule to the queue. -/
theorem callback_waits {s : Submission} {r : Runtime} {e : MqttEvent} {a : Answers} {σ : Schedule}
    (h : Waits s r) (hquiet : ∀ n ∈ r.notices, n.Quiet) (he : e.Quiet)
    (hin : InOrder r ((.callback e, a) :: σ))
    (ho : (r.step (.callback e, a)).overflow = false) :
    Waits s (r.step (.callback e, a)) ∧ (∀ n ∈ (r.step (.callback e, a)).notices, n.Quiet) ∧
      InOrder (r.step (.callback e, a)) σ ∧
      acksOf (r.step (.callback e, a)) σ = acksOf r ((.callback e, a) :: σ) := by
  have happ : Appends (ackNotice e a.now) a.now r.notices (r.step (.callback e, a)).notices :=
    onEvent_appends (r := r.note (.callback e a.now)) he ho
  have hw : Waits s (r.step (.callback e, a)) := by
    apply h.sameOwner
    have hv := onEvent_ownerView e a (r.note (.callback e a.now))
    exact congrArg (fun q : Runtime => {q with log := []}) hv
  refine ⟨hw, ?_⟩
  unfold InOrder acksOf at *
  rcases happ.queue with ⟨hq,hack⟩ | ⟨n,hq,hnow,hn,hack⟩
  · rw [hq]
    refine ⟨hquiet, ?_, ?_⟩
    · refine hin.sublist ?_
      simp
    · simp [arrivalsOf, hack]
  · rw [hq]
    refine ⟨?_, ?_, ?_⟩
    · intro m hm
      rcases List.mem_append.mp hm with hm | hm
      · exact hquiet m hm
      · obtain rfl := List.mem_singleton.mp hm
        exact hn
    · simpa [hnow] using hin
    · rcases hack with ⟨hack,his⟩ | ⟨hack,his⟩ <;> simp [arrivalsOf, hack, his]

/-- Where a schedule leaves the request: ended under the verdict, or waiting. -/
def Waited.Follows (s : Submission) (stops : Prop) (v : Verdict) : Waited → Prop
  | .ended ev r => EndsAs s stops ev r v
  | .waiting r => Waits s r ∧ ∀ n ∈ r.notices, n.Quiet

theorem Waited.Follows.mono {s : Submission} {stops stops' : Prop} {v : Verdict} {o : Waited}
    (h : o.Follows s stops v) (himp : stops' → stops) : o.Follows s stops' v := by
  cases o with
  | ended ev r => exact EndsAs.mono h himp
  | waiting r => exact h

/-- However the polls fall, a request that ends, ends as its acknowledgements
say. -/
theorem await_follows {s : Submission} {σ : Schedule} {r : Runtime}
    (h : Waits s r) (hquiet : ∀ n ∈ r.notices, n.Quiet) (hcb : ∀ c ∈ arrivalsOf σ, c.1.Quiet)
    (hin : InOrder r σ) (hno : NoOverflow r σ) :
    (await r σ).Follows s (∀ p ∈ σ, p.2.stop = .ok) (s.verdict (acksOf r σ)) := by
  induction σ generalizing r with
  | nil => exact ⟨h,hquiet⟩
  | cons st σ ih =>
    obtain ⟨w,a⟩ := st
    have htail : ∀ {v : Verdict} {o : Waited}, o.Follows s (∀ p ∈ σ, p.2.stop = .ok) v →
        o.Follows s (∀ p ∈ (w,a) :: σ, p.2.stop = .ok) v :=
      fun hends => hends.mono fun hs p hp => hs p (List.mem_cons_of_mem _ hp)
    cases w with
    | callback e =>
      obtain ⟨h1,h2,h3,h4⟩ := callback_waits h hquiet (hcb _ List.mem_cons_self) hin
        hno.callback.here
      rw [← h4]
      exact htail (ih h1 h2 (fun c hc => hcb c (List.mem_cons_of_mem _ hc)) h3 hno.callback)
    | poll =>
      have hcb' : ∀ c ∈ arrivalsOf σ, c.1.Quiet := hcb
      -- a poll that ends the request ends it with what the rest of the schedule confirms
      have hover : ∀ {v : Verdict},
          EndsAs s (a.stop = .ok) (emqttPoll r a).1 (emqttPoll r a).2 v →
          (await r ((.poll, a) :: σ)).Follows s
            (∀ p ∈ ((.poll, a) : WaitStep × Answers) :: σ, p.2.stop = .ok) v := by
        intro v hends
        rw [await, if_neg hends.over]
        exact EndsAs.mono hends fun hs => hs _ List.mem_cons_self
      cases emqttPoll_cases h hno.here hquiet a with
      | early hqueue hnow hpoll =>
        have hwait : (emqttPoll r a).2.state = .subscribing := by
          rw [hpoll]
          exact h.state
        have hno' := hno.poll hwait
        rw [hpoll] at hno'
        have hin' : InOrder r σ := hin.sublist (by simp)
        rw [await, if_pos hwait, hpoll]
        exact htail (ih h hquiet hcb' hin' hno')
      | timeout hqueue hnow hends =>
        -- whatever arrives after this poll arrives after the deadline
        have hv : s.verdict (acksOf r ((.poll, a) :: σ)) = .refused := by
          apply verdict_late
          intro n hn
          unfold InOrder at hin
          rw [hqueue] at hin
          simp only [acksOf, hqueue, List.filter_nil, List.nil_append] at hn
          have hle := (List.pairwise_cons.mp hin).1 _ (arrivalsOf_stamp hn)
          exact hnow.trans hle
        rw [hv]
        exact hover hends
      | late n rest hqueue harr hends =>
        have hv : s.verdict (acksOf r ((.poll, a) :: σ)) = .refused := by
          apply verdict_late
          intro m hm
          unfold InOrder at hin
          rw [hqueue] at hin
          have hle := (List.pairwise_cons.mp hin).1 m.arrivedUs
          unfold acksOf at hm
          rw [hqueue] at hm
          rcases List.mem_append.mp hm with hm | hm
          · rcases List.mem_cons.mp (List.mem_filter.mp hm).1 with rfl | hm
            · exact harr
            · exact harr.trans (hle (List.mem_append_left _ (List.mem_map_of_mem hm)))
          · exact harr.trans (hle (List.mem_append_right _
              (List.mem_cons_of_mem _ (arrivalsOf_stamp hm))))
        rw [hv]
        exact hover hends
      | answer n rest hqueue harr hack hends =>
        have hv : s.verdict (acksOf r ((.poll, a) :: σ)) =
            if s.grantedBy n then .granted n else .refused := by
          unfold acksOf
          rw [hqueue, List.filter_cons_of_pos hack]
          exact verdict_inTime _ harr
        rw [hv]
        exact hover hends
      | pass n rest hqueue hack hwaits hrest =>
        have hno' := hno.poll hwaits.state
        have hquiet' : ∀ m ∈ (emqttPoll r a).2.notices, m.Quiet := by
          rw [hrest]
          exact fun m hm => hquiet m (hqueue ▸ List.mem_cons_of_mem _ hm)
        have hin' : InOrder (emqttPoll r a).2 σ := by
          unfold InOrder at hin ⊢
          rw [hqueue] at hin
          rw [hrest]
          refine hin.sublist ?_
          simp
        have hacks : acksOf (emqttPoll r a).2 σ = acksOf r ((.poll, a) :: σ) := by
          unfold acksOf
          rw [hrest, hqueue, List.filter_cons_of_neg (by simp [hack])]
          rfl
        rw [← hacks, await, if_pos hwaits.state]
        exact htail (ih hwaits hquiet' hcb' hin' hno')

theorem arrivalsOf_append (σ τ : Schedule) :
    arrivalsOf (σ ++ τ) = arrivalsOf σ ++ arrivalsOf τ := by
  induction σ with
  | nil => rfl
  | cons st σ ih =>
    obtain ⟨w,a⟩ := st
    cases w with
    | callback e => simp only [List.cons_append, arrivalsOf, ih]
    | poll => simp only [List.cons_append, arrivalsOf, ih]

theorem await_append (r : Runtime) (σ τ : Schedule) :
    await r (σ ++ τ) = match await r σ with
      | .waiting r' => await r' τ
      | .ended ev r' => .ended ev r' := by
  induction σ generalizing r with
  | nil => rfl
  | cons st σ ih =>
    obtain ⟨w,a⟩ := st
    cases w with
    | callback e => exact ih _
    | poll =>
      simp only [List.cons_append, await]
      split
      · exact ih _
      · rfl

/-- Polls alone end the request: each takes one notice off the queue, and the one
that finds the queue empty after the deadline gives up. -/
theorem await_polls {s : Submission} {polls : Schedule} {r : Runtime} (h : Waits s r)
    (hquiet : ∀ n ∈ r.notices, n.Quiet) (hno : NoOverflow r polls)
    (hpolls : ∀ p ∈ polls, p.1 = .poll)
    (henough : (r.notices.any Notice.isAck = true ∧ r.notices.length ≤ polls.length) ∨
      (r.notices.length < polls.length ∧
        ∃ p, polls.getLast? = some p ∧ s.deadlineUs ≤ p.2.now)) :
    ∃ ev r', await r polls = .ended ev r' := by
  induction polls generalizing r with
  | nil =>
    rcases henough with ⟨hack,hlen⟩ | ⟨hlen,-⟩
    · have hnil : r.notices = [] := List.length_eq_zero_iff.mp (Nat.le_zero.mp hlen)
      simp [hnil] at hack
    · simp at hlen
  | cons p polls ih =>
    obtain ⟨w,a⟩ := p
    obtain rfl : w = .poll := hpolls _ List.mem_cons_self
    have hpolls' : ∀ p ∈ polls, p.1 = .poll := fun p hp => hpolls p (List.mem_cons_of_mem _ hp)
    have hover : ∀ {v : Verdict},
        EndsAs s (a.stop = .ok) (emqttPoll r a).1 (emqttPoll r a).2 v →
        ∃ ev r', await r ((.poll, a) :: polls) = .ended ev r' := by
      intro v hends
      rw [await, if_neg hends.over]
      exact ⟨_,_,rfl⟩
    cases emqttPoll_cases h hno.here hquiet a with
    | early hqueue hnow hpoll =>
      have hwait : (emqttPoll r a).2.state = .subscribing := by
        rw [hpoll]
        exact h.state
      have hno' := hno.poll hwait
      rw [hpoll] at hno'
      rw [await, if_pos hwait, hpoll]
      apply ih h hquiet hno' hpolls'
      -- this poll came before the deadline, so it is not the last one
      rcases henough with ⟨hack,-⟩ | ⟨-,q,hlast,hq⟩
      · simp [hqueue] at hack
      · cases polls with
        | nil =>
          obtain rfl := Option.some.inj hlast
          exact absurd hnow (not_lt.mpr hq)
        | cons p' polls =>
          refine Or.inr ⟨by simp [hqueue], q, ?_, hq⟩
          rw [← hlast, List.getLast?_cons_cons]
    | timeout hqueue hnow hends => exact hover hends
    | late n rest hqueue harr hends => exact hover hends
    | answer n rest hqueue harr hack hends => exact hover hends
    | pass n rest hqueue hack hwaits hrest =>
      have hno' := hno.poll hwaits.state
      rw [await, if_pos hwaits.state]
      have hquiet' : ∀ m ∈ (emqttPoll r a).2.notices, m.Quiet := by
        rw [hrest]
        exact fun m hm => hquiet m (hqueue ▸ List.mem_cons_of_mem _ hm)
      apply ih hwaits hquiet' hno' hpolls'
      rw [hrest]
      rw [hqueue] at henough
      rcases henough with ⟨hany,hlen⟩ | ⟨hlen,q,hlast,hq⟩
      · exact Or.inl ⟨by simpa [hack] using hany, Nat.le_of_succ_le_succ hlen⟩
      · have hlen' : rest.length < polls.length := Nat.lt_of_succ_lt_succ hlen
        cases polls with
        | nil => simp at hlen'
        | cons p' polls =>
          refine Or.inr ⟨hlen', q, ?_, hq⟩
          rw [← hlast, List.getLast?_cons_cons]

/-- A schedule that drains the queue ends the request, as its acknowledgements
say. -/
theorem await_drained {s : Submission} {σ : Schedule} {r : Runtime} (h : Waits s r)
    (hquiet : ∀ n ∈ r.notices, n.Quiet) (hcb : ∀ c ∈ arrivalsOf σ, c.1.Quiet)
    (hin : InOrder r σ) (hno : NoOverflow r σ) (hdrain : Drains s r σ) :
    ∃ ev r', await r σ = .ended ev r' ∧
      EndsAs s (∀ p ∈ σ, p.2.stop = .ok) ev r' (s.verdict (acksOf r σ)) := by
  have hfollows := await_follows h hquiet hcb hin hno
  have hends : ∃ ev r', await r σ = .ended ev r' := by
    obtain ⟨front,polls,rfl,hpolls,henough⟩ := hdrain
    have hcb' : ∀ c ∈ arrivalsOf front, c.1.Quiet := by
      intro c hc
      apply hcb
      rw [arrivalsOf_append]
      exact List.mem_append_left _ hc
    have hin' : InOrder r front := hin.sublist (by simp)
    have hno' : NoOverflow r front :=
      fun τ hpre => hno τ (hpre.trans (List.prefix_append _ _))
    have hfront := await_follows h hquiet hcb' hin' hno'
    rw [await_append]
    cases hw : await r front with
    | ended ev r' => exact ⟨ev,r',rfl⟩
    | waiting r' =>
      rw [hw] at hfront
      have hnopolls : NoOverflow r' polls := by
        intro τ hpre q hq
        apply hno (front ++ τ) ((List.prefix_append_right_inj _).mpr hpre) q
        rw [await_append, hw]
        exact hq
      exact await_polls hfront.1 hfront.2 hnopolls hpolls (henough r' hw)
  obtain ⟨ev,r',he⟩ := hends
  rw [he] at hfollows
  exact ⟨ev, r', he, hfollows⟩

/-! A submission starts the wait. -/

/-- Only a runtime that failed closed is faulted. -/
def FaultFailed (r : Runtime) : Prop := r.faulted = true → r.state = .failed

theorem FaultFailed.failed {r : Runtime} (h : r.state = .failed) : FaultFailed r := fun _ => h

theorem FaultFailed.up {r : Runtime} (h : r.faulted = false) : FaultFailed r :=
  fun hf => absurd hf (by simp [h])

theorem FaultFailed.up_of_ready {r : Runtime} (h : FaultFailed r) (hready : r.state = .ready) :
    r.faulted = false := by
  by_contra hf
  have hfailed := h (by simpa using hf)
  simp [hfailed] at hready

theorem submitSubscriptions_faultFailed {r : Runtime} (hup : r.faulted = false)
    (subs : List Subscription) (dynamic : Bool) (a : Answers) :
    (submitSubscriptions r subs dynamic a).2.faulted = false := by
  unfold submitSubscriptions
  split
  · exact hup
  · split <;> exact hup

theorem pollNotice_faultFailed {r : Runtime} (hup : r.faulted = false) (n : Notice) (a : Answers) :
    FaultFailed (pollNotice r n a).rt := by
  unfold pollNotice
  -- a notice either leaves the fault flag alone or fails closed
  cases n.kind with
  | connected =>
    have hsub := submitSubscriptions_faultFailed (r := clearPending r) hup
      (clearPending r).subscriptions false a
    unfold pollConnected
    dsimp only
    generalize submitSubscriptions (clearPending r) (clearPending r).subscriptions false a = o at hsub
    split
    · exact .up hsub
    · exact .failed rfl
  | suback =>
    unfold pollSuback
    dsimp only
    split
    · exact .failed rfl
    · exact .up hup
  | unsubscribed =>
    unfold pollUnsubscribed
    dsimp only
    split
    · exact .failed rfl
    · exact .up hup
  | disconnected => exact .up hup
  | message =>
    unfold pollMessage
    dsimp only
    split
    · exact .up hup
    · exact .up hup
  | error =>
    unfold pollError
    dsimp only
    split
    · exact .failed rfl
    · split
      · exact .failed rfl
      · exact .up hup
  | ready => exact .up hup
  | puback => exact .up hup
  | deleted => exact .up hup

theorem emqttPollBegin_faultFailed {r : Runtime} (h : FaultFailed r) (a : Answers) :
    FaultFailed (emqttPollBegin r a).rt := by
  cases hf : r.faulted with
  | true =>
    unfold emqttPollBegin
    rw [if_pos hf]
    exact h
  | false =>
    unfold emqttPollBegin
    rw [if_neg (by simp [hf])]
    split
    · exact .failed rfl
    · split
      · split
        · exact h
        · exact .failed rfl
      · dsimp only
        split
        · exact .failed rfl
        · exact pollNotice_faultFailed (r := r.popped _ _) hf _ a

theorem FaultFailed.sameOwner {r r' : Runtime} (h : FaultFailed r)
    (hv : r'.ownerView = r.ownerView) : FaultFailed r' := by
  have hfaulted := congrArg Runtime.faulted hv
  have hstate := congrArg Runtime.state hv
  exact fun hf => hstate.trans (h (hfaulted.symm.trans hf))

theorem emqttPoll_faultFailed {r : Runtime} (h : FaultFailed r) (a : Answers) :
    FaultFailed (emqttPoll r a).2 := by
  have hp := emqttPollBegin_faultFailed h a
  unfold emqttPoll
  dsimp only
  split
  · exact hp.sameOwner (sendSlot_ownerView _ _)
  · exact hp

theorem step_faultFailed {r : Runtime} (h : FaultFailed r) (s : RtStep × Answers) :
    FaultFailed (r.step s) := by
  obtain ⟨st,a⟩ := s
  -- a callback does not touch what the owner keeps
  cases st with
  | callback e => exact FaultFailed.sameOwner (r := r.note _) h (onEvent_ownerView e a _)
  | call c =>
    cases c with
    | start net time =>
      change FaultFailed (emqttStart r net time a).2
      unfold emqttStart
      split
      · exact h
      · split
        · exact h
        · dsimp only
          split
          · exact .failed rfl
          · exact .up rfl
    | stop =>
      change FaultFailed (emqttStop r a).2
      unfold emqttStop
      split
      · exact .failed rfl
      · exact .up rfl
    | poll => exact emqttPoll_faultFailed h a
    | subscribe filter qos =>
      change FaultFailed (emqttSubscribe r filter qos a).2
      unfold emqttSubscribe
      split
      · exact h
      · rename_i hready
        have hup := h.up_of_ready (not_not.mp hready)
        split
        · exact h
        · split
          · exact h
          · have hsub := submitSubscriptions_faultFailed
              (r := {r with pendingSubscription := ⟨filter.getD [],qos⟩}) hup
              [⟨filter.getD [],qos⟩] true a
            dsimp only
            generalize submitSubscriptions {r with pendingSubscription := ⟨filter.getD [],qos⟩}
              [⟨filter.getD [],qos⟩] true a = o at hsub
            split
            · exact .up hsub
            · exact .failed rfl
    | unsubscribe filter =>
      change FaultFailed (emqttUnsubscribe r filter a).2
      unfold emqttUnsubscribe
      split
      · exact h
      · rename_i hready
        have hup := h.up_of_ready (not_not.mp hready)
        split
        · exact h
        · dsimp only
          split
          · exact h
          · split
            · exact .failed rfl
            · exact .up hup
    | enqueue topic payload length qos =>
      change FaultFailed (emqttEnqueue r topic payload length qos a).2
      unfold emqttEnqueue
      split
      · exact h
      · split
        · exact h
        · split
          · exact h
          · exact h

theorem run_faultFailed (tls : Bool) (subs : List Subscription) (countersValid : Bool)
    (ss : List (RtStep × Answers)) : FaultFailed ((emqttCreated tls subs countersValid).run ss) :=
  Runtime.run_induction FaultFailed (fun _ s h => step_faultFailed h s) ss _ (.up rfl)

/-- An id the SDK does not accept is an error of the call. -/
theorem refusedId_error {id : ℤ} (h : id ≤ 0) :
    (if id = 0 then EspErr.fail else apiResult id) ≠ .ok := by
  unfold apiResult
  split
  · simp
  · split
    · simp
    · rw [if_pos (by omega)]
      simp

/-- What a list accepted by the SDK leaves. -/
theorem submitSubscriptions_waits {r r' : Runtime} {subs : List Subscription} {dynamic : Bool}
    {a : Answers} (hup : r.faulted = false) (hunsub : r.pendingUnsubscribe ≤ 0)
    (hlist : subs = if dynamic then [r.pendingSubscription] else r.subscriptions)
    (hne : subs.length ≠ 0) (h : submitSubscriptions r subs dynamic a = (.ok, r')) :
    Waits ⟨false, a.request, subs, a.now+10000000⟩ r' := by
  unfold submitSubscriptions at h
  rw [if_neg hne] at h
  by_cases hid : a.request ≤ 0
  · rw [if_pos hid] at h
    exact absurd (congrArg Prod.fst h) (refusedId_error hid)
  · rw [if_neg hid] at h
    cases h
    exact ⟨rfl, hup, not_le.mp hid, rfl, Or.inl ⟨rfl, rfl, hlist, rfl, hunsub⟩⟩

theorem emqttSubscribe_waits {r r' : Runtime} {a : Answers} {filter : Option (List UInt8)} {qos : ℕ}
    (hready : ReadyOk r) (hfault : FaultFailed r) (h : emqttSubscribe r filter qos a = (.ok, r')) :
    Waits ⟨false, a.request, [⟨filter.getD [], qos⟩], a.now+10000000⟩ r' := by
  unfold emqttSubscribe at h
  split at h
  · cases h
  rename_i hst
  have hst : r.state = .ready := not_not.mp hst
  split at h
  · cases h
  split at h
  · cases h
  dsimp only at h
  split at h
  · rename_i q hq
    cases h
    exact submitSubscriptions_waits (r := {r with pendingSubscription := ⟨filter.getD [],qos⟩})
      (hfault.up_of_ready hst) (hready.ready hst).2.2 rfl (by simp) hq
  · rename_i e q hne hq
    cases h
    exact (hne rfl).elim

theorem emqttUnsubscribe_waits {r r' : Runtime} {a : Answers} {filter : Option (List UInt8)}
    (hready : ReadyOk r) (hfault : FaultFailed r) (h : emqttUnsubscribe r filter a = (.ok, r')) :
    Waits ⟨true, a.request,
      (r.subscriptions.drop (r.subscriptions.findIdx fun s => some s.topic == filter)).take 1,
      a.now+10000000⟩ r' := by
  unfold emqttUnsubscribe at h
  split at h
  · cases h
  rename_i hst
  have hst : r.state = .ready := not_not.mp hst
  split at h
  · cases h
  dsimp only at h
  split at h
  · cases h
  by_cases hid : a.request ≤ 0
  · rw [if_pos hid] at h
    exact absurd (congrArg Prod.fst h) (refusedId_error hid)
  · rw [if_neg hid] at h
    cases h
    exact ⟨rfl, hfault.up_of_ready hst, not_le.mp hid, rfl,
      Or.inr ⟨rfl, rfl, (hready.ready hst).2.1⟩⟩

theorem pollConnected_waits {r r' : Runtime} {a : Answers} {n : Notice} {ev : Option EmqttEvent}
    (hup : r.faulted = false) (h : pollConnected r n a = (ev, r')) (hwait : r'.state = .subscribing) :
    Waits ⟨false, a.request, r.subscriptions, a.now+10000000⟩ r' := by
  unfold pollConnected at h
  dsimp only at h
  split at h
  · rename_i q hq
    cases h
    refine submitSubscriptions_waits (r := clearPending r) hup ?_ rfl ?_ hq
    · change (-1 : ℤ) ≤ 0
      decide
    · -- an empty list is ready at once
      intro (hnil : (clearPending r).subscriptions.length = 0)
      unfold submitSubscriptions at hq
      rw [if_pos hnil] at hq
      cases hq
      simp at hwait
  · cases h
    simp [failClosed] at hwait

/-- Whatever submitted the request, the runtime waits for its answer. -/
theorem submits_waits {r r' : Runtime} {a : Answers} {s : Submission} (hready : ReadyOk r)
    (hfault : FaultFailed r) (h : Submits r a s r') : Waits s r' := by
  cases h with
  | subscribe filter qos h => exact emqttSubscribe_waits hready hfault h
  | unsubscribe filter h => exact emqttUnsubscribe_waits hready hfault h
  | connected n hn hkind h hwait =>
    obtain ⟨hup,ho,hhead⟩ := hn
    cases hqueue : r.notices with
    | nil => simp [hqueue] at hhead
    | cons m rest =>
      rw [hqueue] at hhead
      obtain rfl := Option.some.inj hhead
      unfold emqttPoll emqttPollBegin at h
      rw [if_neg (by simp [hup]), if_neg (by simp [ho]), hqueue] at h
      dsimp only at h
      split at h
      · cases h
        simp [failClosed] at hwait
      · simp only [pollNotice, hkind] at h
        exact pollConnected_waits (r := r.popped m rest) hup h hwait

/-- The verdict on a request depends on the arrivals, not on the polls: any two
schedules with the same callbacks at the same times that drain the queue end it
the same way, READY or UNSUBSCRIBED if the first acknowledgement is the matching
one and arrived less than ten seconds after the submission, and otherwise with a
subscription error and the session stopped. -/
theorem verdict_of_arrivals (tls : Bool) (subs : List Subscription) (countersValid : Bool)
    (ss : List (RtStep × Answers)) (a : Answers) (s : Submission) (r : Runtime)
    (hsub : Submits ((emqttCreated tls subs countersValid).run ss) a s r) (σ₁ σ₂ : Schedule)
    (hsame : arrivalsOf σ₁ = arrivalsOf σ₂) (hquiet : ∀ n ∈ r.notices, n.Quiet)
    (hcb : ∀ c ∈ arrivalsOf σ₁, c.1.Quiet) (hin₁ : InOrder r σ₁) (hin₂ : InOrder r σ₂)
    (hno₁ : NoOverflow r σ₁) (hno₂ : NoOverflow r σ₂) (hdrain₁ : Drains s r σ₁)
    (hdrain₂ : Drains s r σ₂) :
    ∃ ev₁ r₁ ev₂ r₂, await r σ₁ = .ended ev₁ r₁ ∧ await r σ₂ = .ended ev₂ r₂ ∧
      EndsAs s (∀ p ∈ σ₁, p.2.stop = .ok) ev₁ r₁ (s.verdict (acksOf r σ₁)) ∧
      EndsAs s (∀ p ∈ σ₂, p.2.stop = .ok) ev₂ r₂ (s.verdict (acksOf r σ₁)) := by
  have hwaits : Waits s r :=
    submits_waits (run_ready tls subs countersValid ss) (run_faultFailed tls subs countersValid ss)
      hsub
  obtain ⟨ev₁,r₁,he₁,hends₁⟩ := await_drained hwaits hquiet hcb hin₁ hno₁ hdrain₁
  obtain ⟨ev₂,r₂,he₂,hends₂⟩ := await_drained hwaits hquiet (hsame ▸ hcb) hin₂ hno₂ hdrain₂
  have hacks : acksOf r σ₁ = acksOf r σ₂ := by rw [acksOf, acksOf, hsame]
  rw [← hacks] at hends₂
  exact ⟨ev₁, r₁, ev₂, r₂, he₁, he₂, hends₁, hends₂⟩

/-- A runtime with one filter and its CONNECTED notice queued. -/
def connectedSteps : List (RtStep × Answers) :=
  let a : Answers := ⟨0, 0, 0, true, 0, .ok, .ok, 7⟩
  let e : MqttEvent := ⟨.connected, 0, none, 0, none, 0, 0, 0, 0, false, false, none⟩
  [(.call (.start true true), a), (.callback e, a)]

def connectedRuntime : Runtime := (emqttCreated true [⟨[0x74],1⟩] true).run connectedSteps

/-- The poll of the CONNECTED notice, which submits the filter with id 7 at time 0. -/
def submittedRuntime : Runtime := (emqttPoll connectedRuntime ⟨0, 0, 0, true, 0, .ok, .ok, 7⟩).2

def firstSubmission : Submission := ⟨false, 7, [⟨[0x74],1⟩], 10000000⟩

theorem connectedRuntime_submits :
    Submits ((emqttCreated true [⟨[0x74],1⟩] true).run connectedSteps)
      ⟨0, 0, 0, true, 0, .ok, .ok, 7⟩ firstSubmission submittedRuntime :=
  .connected ⟨.connected, 0, none, 0, 0, 0, .none, []⟩ (by decide +kernel) rfl rfl
    (by decide +kernel)

/-- A SUBACK for `id` that arrives at `now`. -/
def subackAt (id now : ℤ) : WaitStep × Answers :=
  (.callback ⟨.subscribed, id, none, 0, some [1], 1, 1, 0, 0, false, false, none⟩,
    ⟨now, 0, 0, true, 0, .ok, .ok, 7⟩)

def pollAt (now : ℤ) : WaitStep × Answers := (.poll, ⟨now, 0, 0, true, 0, .ok, .ok, 7⟩)

/-- Polled at two or at twenty seconds, a SUBACK that came after one is in time. -/
theorem verdict_of_late_poll :
    ∃ ev₁ r₁ ev₂ r₂,
      await submittedRuntime [subackAt 7 1000000, pollAt 2000000] = .ended ev₁ r₁ ∧
      await submittedRuntime [pollAt 500000, subackAt 7 1000000, pollAt 20000000] =
        .ended ev₂ r₂ ∧ r₁.state = .ready ∧ r₂.state = .ready := by
  have hdrain₁ : Drains firstSubmission submittedRuntime [subackAt 7 1000000, pollAt 2000000] := by
    refine ⟨[subackAt 7 1000000], [pollAt 2000000], rfl, by decide, fun r' h => ?_⟩
    cases h
    exact Or.inl (by decide +kernel)
  have hdrain₂ : Drains firstSubmission submittedRuntime
      [pollAt 500000, subackAt 7 1000000, pollAt 20000000] := by
    refine ⟨[pollAt 500000, subackAt 7 1000000], [pollAt 20000000], rfl, by decide,
      fun r' h => ?_⟩
    have hr : r' = submittedRuntime.step (.callback
        ⟨.subscribed, 7, none, 0, some [1], 1, 1, 0, 0, false, false, none⟩,
        ⟨1000000, 0, 0, true, 0, .ok, .ok, 7⟩) := by
      cases h
      decide +kernel
    rw [hr]
    exact Or.inl (by decide +kernel)
  obtain ⟨ev₁,r₁,ev₂,r₂,h₁,h₂,hends₁,hends₂⟩ := verdict_of_arrivals true [⟨[0x74],1⟩] true
    connectedSteps ⟨0, 0, 0, true, 0, .ok, .ok, 7⟩ firstSubmission submittedRuntime
    connectedRuntime_submits [subackAt 7 1000000, pollAt 2000000]
    [pollAt 500000, subackAt 7 1000000, pollAt 20000000] rfl (by decide +kernel)
    (by decide +kernel) (by decide +kernel) (by decide +kernel) (by decide +kernel)
    (by decide +kernel) hdrain₁ hdrain₂
  have hverdict : firstSubmission.verdict
      (acksOf submittedRuntime [subackAt 7 1000000, pollAt 2000000]) =
        .granted ⟨.suback, 7, none, 0, 0, 1000000, .none, [1]⟩ := by decide +kernel
  rw [hverdict] at hends₁ hends₂
  exact ⟨ev₁, r₁, ev₂, r₂, h₁, h₂, hends₁.2, hends₂.2⟩

/-- A SUBACK for another id comes first: the poll that takes it fails closed,
although the matching one arrives long before the deadline. -/
theorem foreign_suback_refuses :
    ∃ ev r', Submits ((emqttCreated true [⟨[0x74],1⟩] true).run connectedSteps)
        ⟨0, 0, 0, true, 0, .ok, .ok, 7⟩ firstSubmission submittedRuntime ∧
      (∀ n ∈ submittedRuntime.notices, n.Quiet) ∧
      InOrder submittedRuntime [subackAt 99 1000000, subackAt 7 2000000, pollAt 3000000] ∧
      NoOverflow submittedRuntime [subackAt 99 1000000, subackAt 7 2000000, pollAt 3000000] ∧
      (∃ n ∈ acksOf submittedRuntime [subackAt 99 1000000, subackAt 7 2000000, pollAt 3000000],
        firstSubmission.grantedBy n ∧ n.arrivedUs < firstSubmission.deadlineUs) ∧
      await submittedRuntime [subackAt 99 1000000, subackAt 7 2000000, pollAt 3000000] =
        .ended (some ev) r' ∧ ev.error = .subscription ∧ r'.state = .failed := by
  refine ⟨_, _, connectedRuntime_submits, by decide +kernel, by decide +kernel, by decide +kernel,
    ⟨⟨.suback, 7, none, 0, 0, 2000000, .none, [1]⟩, by decide +kernel, by decide +kernel,
      by decide +kernel⟩, rfl, by decide +kernel, by decide +kernel⟩

end EspMqtt
