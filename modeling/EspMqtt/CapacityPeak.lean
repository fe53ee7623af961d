import EspMqtt.CapacityNote

/-! The peak in the capacity figures over all runs of one instance: nothing but the second critical
section of `capacity_note_partial` writes it, and what stands there is one whole observation. -/
namespace EspMqtt

/-- The figures that belong to the recorded peak. -/
structure CapacityPeak where
  completeOwnerCount : ℕ
  completePayloadBytes : ℕ
  partialDeclaredBytes : ℕ
  partialReceivedBytes : ℕ
  ownedRequestBytes : ℕ
  outboxWireBytesAtRxPeak : ℕ
  rxPeakUptimeMs : ℕ
  rxPeakObservedUntilUptimeMs : ℕ
  deriving DecidableEq, Repr

/-- The recorded peak, if one is valid. -/
def CapacityStats.peak (c : CapacityStats) : Option CapacityPeak :=
  if c.rxPeakValid then
    some ⟨c.completeOwnerCount, c.completePayloadBytes, c.partialDeclaredBytes,
      c.partialReceivedBytes, c.ownedRequestBytes, c.outboxWireBytesAtRxPeak, c.rxPeakUptimeMs,
      c.rxPeakObservedUntilUptimeMs⟩
  else none

/-- The two counters fit their 32 bits. -/
structure CapacityStats.Counted (c : CapacityStats) : Prop where
  notices : c.noticeFullCount ≤ uint32Max
  outbox : c.outboxFullCount ≤ uint32Max

/-- A step that at most lets go of buffers. -/
structure Sheds (r r' : Runtime) : Prop where
  messages : ∀ s m, r'.messages s = some m → r.messages s = some m
  receiver : ∀ m, r'.receiverMessage = some m → r.receiverMessage = some m
  capacity : r'.capacity = r.capacity

/-- New figures with the old peak. -/
structure CapacityStats.Keeps (c c' : CapacityStats) : Prop where
  peak : c'.peak = c.peak
  valid : c'.countersValid = true → c.countersValid = true
  counted : c.Counted → c'.Counted

/-- A step that leaves the peak alone. -/
structure Spares (r r' : Runtime) : Prop where
  bounded : r.Bounded → r'.Bounded
  figures : r.capacity.Keeps r'.capacity

theorem Sheds.same {r r' : Runtime} (hm : r'.messages = r.messages)
    (hr : r'.receiverMessage = r.receiverMessage) (hc : r'.capacity = r.capacity) : Sheds r r' where
  messages s m h := by rwa [hm] at h
  receiver m h := by rwa [hr] at h
  capacity := hc

theorem Sheds.trans {r s t : Runtime} (h : Sheds r s) (h' : Sheds s t) : Sheds r t where
  messages i m hm := h.messages i m (h'.messages i m hm)
  receiver m hm := h.receiver m (h'.receiver m hm)
  capacity := h'.capacity.trans h.capacity

/-- What the step starts from may differ from `r` outside the buffers and the figures. -/
theorem Sheds.since {r q r' : Runtime} (h : Sheds q r') (hm : q.messages = r.messages)
    (hr : q.receiverMessage = r.receiverMessage) (hc : q.capacity = r.capacity) : Sheds r r' :=
  (Sheds.same hm hr hc).trans h

theorem Sheds.spares {r r' : Runtime} (h : Sheds r r') : Spares r r' where
  bounded hb := {
    messages := fun s m hm => hb.messages s m (h.messages s m hm)
    receiver := fun m hm => hb.receiver m (h.receiver m hm) }
  figures := by
    rw [h.capacity]
    exact ⟨rfl, fun hv => hv, fun hc => hc⟩

theorem CapacityStats.Keeps.trans {c d e : CapacityStats} (h : c.Keeps d) (h' : d.Keeps e) :
    c.Keeps e where
  peak := h'.peak.trans h.peak
  valid hv := h.valid (h'.valid hv)
  counted hc := h'.counted (h.counted hc)

theorem Spares.trans {r s t : Runtime} (h : Spares r s) (h' : Spares s t) : Spares r t :=
  ⟨fun hb => h'.bounded (h.bounded hb), h.figures.trans h'.figures⟩

theorem sendSlot_sheds (r : Runtime) (s : Slot) : Sheds r (r.sendSlot s) := by
  unfold Runtime.sendSlot
  split
  · exact .same rfl rfl rfl
  · exact .same rfl rfl rfl

theorem releaseReceiverSlot_sheds (r : Runtime) : Sheds r (releaseReceiverSlot r) := by
  have hdrop : Sheds r
      {r with receiverSlot := none, receiver := ⟨0,false⟩, receiverMessage := none} :=
    ⟨fun _ _ h => h, fun _ h => (nomatch h), rfl⟩
  unfold releaseReceiverSlot
  cases r.receiverSlot with
  | none => exact hdrop
  | some s => exact hdrop.trans (sendSlot_sheds _ s)

theorem detachMessageSlot_sheds (r : Runtime) (s : Slot) : Sheds r (detachMessageSlot r s).2 where
  messages t m hm := by
    by_cases hts : t = s
    · subst hts
      simp [detachMessageSlot] at hm
    · simpa only [detachMessageSlot, Function.update_of_ne hts] using hm
  receiver _ h := h
  capacity := rfl

theorem releaseMessageSlot_sheds (r : Runtime) (s : Slot) : Sheds r (releaseMessageSlot r s) :=
  (detachMessageSlot_sheds r s).trans (sendSlot_sheds _ s)

/-! The owner's calls -/

theorem drain_sheds (r : Runtime) : Sheds r (drain r) := by
  apply (releaseReceiverSlot_sheds r).trans
  exact ⟨fun _ _ h => (nomatch h), fun _ h => h, rfl⟩

theorem emqttStart_sheds (r : Runtime) (networkReady trustedTimeReady : Bool) (a : Answers) :
    Sheds r (emqttStart r networkReady trustedTimeReady a).2 := by
  unfold emqttStart
  split
  · exact .same rfl rfl rfl
  split
  · exact .same rfl rfl rfl
  dsimp only
  split
  · exact (drain_sheds r).trans (.same rfl rfl rfl)
  · exact (drain_sheds r).trans (.same rfl rfl rfl)

theorem emqttStop_sheds (r : Runtime) (a : Answers) : Sheds r (emqttStop r a).2 := by
  unfold emqttStop
  split
  · exact .same rfl rfl rfl
  · have hd : Sheds r (drain {r with started := false}) :=
      (drain_sheds {r with started := false}).since rfl rfl rfl
    exact hd.trans (.same rfl rfl rfl)

theorem failClosed_sheds (r : Runtime) (a : Answers) : Sheds r (failClosed r a) :=
  (emqttStop_sheds r a).trans (.same rfl rfl rfl)

theorem submitSubscriptions_sheds (r : Runtime) (subscriptions : List Subscription)
    (dynamic : Bool) (a : Answers) :
    Sheds r (submitSubscriptions r subscriptions dynamic a).2 := by
  unfold submitSubscriptions
  split
  · exact .same rfl rfl rfl
  split
  · exact .same rfl rfl rfl
  · exact .same rfl rfl rfl

theorem emqttSubscribe_sheds (r : Runtime) (filter : Option (List UInt8)) (qos : ℕ)
    (a : Answers) : Sheds r (emqttSubscribe r filter qos a).2 := by
  unfold emqttSubscribe
  split
  · exact .same rfl rfl rfl
  split
  · exact .same rfl rfl rfl
  split
  · exact .same rfl rfl rfl
  dsimp only
  have hsub := submitSubscriptions_sheds {r with pendingSubscription := ⟨filter.getD [],qos⟩}
    [⟨filter.getD [],qos⟩] true a
  split
  · rename_i he
    rw [he] at hsub
    exact hsub.since rfl rfl rfl
  · rename_i he
    rw [he] at hsub
    exact (hsub.trans (failClosed_sheds _ a)).since rfl rfl rfl

theorem emqttUnsubscribe_sheds (r : Runtime) (filter : Option (List UInt8)) (a : Answers) :
    Sheds r (emqttUnsubscribe r filter a).2 := by
  unfold emqttUnsubscribe
  split
  · exact .same rfl rfl rfl
  split
  · exact .same rfl rfl rfl
  dsimp only
  split
  · exact .same rfl rfl rfl
  split
  · exact failClosed_sheds r a
  · exact .same rfl rfl rfl

theorem pollConnected_sheds (r : Runtime) (n : Notice) (a : Answers) :
    Sheds r (pollConnected r n a).2 := by
  unfold pollConnected
  have hsub := submitSubscriptions_sheds (clearPending r) (clearPending r).subscriptions false a
  dsimp only
  split
  · rename_i he
    rw [he] at hsub
    exact hsub.since rfl rfl rfl
  · rename_i he
    rw [he] at hsub
    exact (hsub.trans (failClosed_sheds _ a)).since rfl rfl rfl

theorem pollSuback_sheds (r : Runtime) (n : Notice) (a : Answers) :
    Sheds r (pollSuback r n a).2 := by
  unfold pollSuback
  dsimp only
  split
  · exact (failClosed_sheds r a).trans (.same rfl rfl rfl)
  · exact .same rfl rfl rfl

theorem pollUnsubscribed_sheds (r : Runtime) (n : Notice) (a : Answers) :
    Sheds r (pollUnsubscribed r n a).2 := by
  unfold pollUnsubscribed
  dsimp only
  split
  · exact (failClosed_sheds r a).trans (.same rfl rfl rfl)
  · exact .same rfl rfl rfl

theorem pollMessage_sheds (r : Runtime) (n : Notice) : Sheds r (pollMessage r n).rt := by
  unfold pollMessage
  split
  · exact .same rfl rfl rfl
  · exact detachMessageSlot_sheds r _

theorem pollError_sheds (r : Runtime) (n : Notice) (a : Answers) :
    Sheds r (pollError r n a).2 := by
  unfold pollError
  dsimp only
  split
  · exact failClosed_sheds r a
  split
  · exact .same rfl rfl rfl
  · exact .same rfl rfl rfl

theorem pollNotice_sheds (r : Runtime) (n : Notice) (a : Answers) :
    Sheds r (pollNotice r n a).rt := by
  unfold pollNotice
  cases n.kind with
  | connected => exact pollConnected_sheds r n a
  | suback => exact pollSuback_sheds r n a
  | unsubscribed => exact pollUnsubscribed_sheds r n a
  | disconnected => exact .same rfl rfl rfl
  | message => exact pollMessage_sheds r n
  | error => exact pollError_sheds r n a
  | ready => exact .same rfl rfl rfl
  | puback => exact .same rfl rfl rfl
  | deleted => exact .same rfl rfl rfl

theorem emqttPollBegin_sheds (r : Runtime) (a : Answers) : Sheds r (emqttPollBegin r a).rt := by
  unfold emqttPollBegin
  split
  · exact .same rfl rfl rfl
  split
  · exact (failClosed_sheds {r with overflow := false} a).since rfl rfl rfl
  split
  · split
    · exact .same rfl rfl rfl
    · exact failClosed_sheds r a
  · rename_i n rest _
    dsimp only
    split
    · exact (failClosed_sheds (r.popped n rest) a).since rfl rfl rfl
    · exact (pollNotice_sheds (r.popped n rest) n a).since rfl rfl rfl

theorem emqttPoll_sheds (r : Runtime) (a : Answers) : Sheds r (emqttPoll r a).2 := by
  have hp := emqttPollBegin_sheds r a
  unfold emqttPoll
  dsimp only
  split
  · exact hp.trans (sendSlot_sheds _ _)
  · exact hp

/-- A counter moves on, or is full and says so. -/
theorem capacityIncrement_keeps (c : CapacityStats) (counter : ℕ)
    (set : ℕ → CapacityStats → CapacityStats)
    (hset : counter ≠ uint32Max → c.Keeps (set (counter+1) c)) :
    c.Keeps (capacityIncrement c counter set) := by
  unfold capacityIncrement
  split
  · exact ⟨rfl, fun hv => (nomatch hv), fun hc => ⟨hc.notices,hc.outbox⟩⟩
  · exact hset ‹_›

theorem emqttEnqueue_spares (r : Runtime) (topic : Option (List UInt8)) (payload : Bool)
    (length qos : ℕ) (a : Answers) : Spares r (emqttEnqueue r topic payload length qos a).2 := by
  have hsame : Spares r r := Sheds.spares (.same rfl rfl rfl)
  unfold emqttEnqueue
  split
  · exact hsame
  split
  · exact hsame
  split
  · refine ⟨fun hb => ⟨hb.messages,hb.receiver⟩, ?_⟩
    have hcount := capacityIncrement_keeps r.capacity r.capacity.outboxFullCount
      (fun k c => {c with outboxFullCount := k}) fun hk =>
        ⟨rfl, fun hv => hv, fun hc => ⟨hc.notices,lt_of_le_of_ne hc.outbox hk⟩⟩
    exact hcount.trans ⟨rfl, fun hv => hv, fun hc => ⟨hc.notices,hc.outbox⟩⟩
  · exact hsame

theorem ownerCall_spares (r : Runtime) (a : Answers) (c : OwnerCall) :
    Spares r (ownerCall r a c) := by
  cases c with
  | start networkReady trustedTimeReady =>
    exact (emqttStart_sheds r networkReady trustedTimeReady a).spares
  | stop => exact (emqttStop_sheds r a).spares
  | poll => exact (emqttPoll_sheds r a).spares
  | subscribe filter qos => exact (emqttSubscribe_sheds r filter qos a).spares
  | unsubscribe filter => exact (emqttUnsubscribe_sheds r filter a).spares
  | enqueue topic payload length qos => exact emqttEnqueue_spares r topic payload length qos a

/-! The callbacks -/

theorem post_spares (r : Runtime) (n : Notice) : Spares r (post r n) := by
  have hwater (k : ℕ) : r.capacity.Keeps {r.capacity with noticeCountHighWater := k} :=
    ⟨rfl, fun hv => hv, fun hc => ⟨hc.notices,hc.outbox⟩⟩
  unfold post
  split
  · exact ⟨fun hb => ⟨hb.messages,hb.receiver⟩, hwater _⟩
  · have hcount := (hwater (max r.capacity.noticeCountHighWater r.notices.length)).trans
      (capacityIncrement_keeps _ r.capacity.noticeFullCount
        (fun k c => {c with noticeFullCount := k}) fun hk =>
          ⟨rfl, fun hv => hv, fun hc => ⟨lt_of_le_of_ne hc.notices hk,hc.outbox⟩⟩)
    -- what is not queued gives its buffer and its slot back
    have hcounted (c : CapacityStats) (hc : r.capacity.Keeps c) :
        Spares r {r with capacity := c} := ⟨fun hb => ⟨hb.messages,hb.receiver⟩, hc⟩
    cases n.slot with
    | none => exact (hcounted _ hcount).trans (Sheds.spares (.same rfl rfl rfl))
    | some s =>
      apply (hcounted _ hcount).trans
      exact Sheds.spares ((releaseMessageSlot_sheds _ s).trans (.same rfl rfl rfl))

theorem transferMessage_spares (r : Runtime) (m : OwnedMessage) (s : Slot) (n : Notice)
    (hm : m.allocated ≤ emqttPayloadMax) : Spares r (transferMessage r m s n) := by
  refine Spares.trans ?_ (post_spares _ _)
  refine ⟨fun hb => ⟨fun t b ht => ?_, fun _ h => (nomatch h)⟩, rfl, fun hv => hv, fun hc => hc⟩
  dsimp only at ht
  by_cases hts : t = s
  · subst hts
    rw [Function.update_self] at ht
    cases ht
    exact hm
  · rw [Function.update_of_ne hts] at ht
    exact hb.messages t b ht

theorem completeMessage_spares (r : Runtime) (m : OwnedMessage) (n : Notice)
    (hm : m.allocated ≤ emqttPayloadMax) : Spares r (completeMessage r m n) := by
  unfold completeMessage
  split
  · exact transferMessage_spares r m _ n hm
  · split
    · exact Sheds.spares ((releaseReceiverSlot_sheds r).trans (.same rfl rfl rfl))
    · rename_i s rest _
      have hrest : Spares r {r with freeSlots := rest} := Sheds.spares (.same rfl rfl rfl)
      exact hrest.trans (transferMessage_spares _ m s n hm)

/-- Storing into the buffer being received keeps its size. -/
theorem receiving_spares (r : Runtime) (rc : ReceiveState) (info : MessageInfo)
    (payload : List UInt8) {m : OwnedMessage} (hm : m.allocated ≤ emqttPayloadMax) :
    Spares r {r with receiver := rc, receiverMessage := some ⟨info,payload,m.allocated⟩} := by
  refine ⟨fun hb => ⟨hb.messages, fun b h => ?_⟩, rfl, fun hv => hv, fun hc => hc⟩
  cases h
  exact hm

/-- The storage a fragment goes to. -/
theorem ensureReceiver_spares (e : MqttEvent) (a : Answers) (r : Runtime) :
    Spares r (ensureReceiver e a r).2 := by
  unfold ensureReceiver
  cases hr : r.receiverMessage with
  | some m => exact Sheds.spares (.same rfl rfl rfl)
  | none =>
    dsimp only
    by_cases hrange : e.totalDataLen < 0 ∨ (emqttPayloadMax : ℤ) < e.totalDataLen
    · rw [if_pos hrange]
      exact Sheds.spares (.same rfl rfl rfl)
    · rw [if_neg hrange]
      cases a.alloc with
      | true =>
        refine ⟨fun hb => ⟨hb.messages, fun b h => ?_⟩, rfl, fun hv => hv, fun hc => hc⟩
        cases h
        simp only [freshMessage]
        omega
      | false =>
        rw [if_neg Bool.false_ne_true]
        cases r.freeSlots.head? with
        | none => exact Sheds.spares (.same rfl hr.symm rfl)
        | some s =>
          let q := {r with receiverMessage := none, receiverSlot := some s, freeSlots := r.freeSlots.tail}
          have hsent : Sheds r (q.sendSlot s) := (sendSlot_sheds q s).since rfl hr.symm rfl
          exact Sheds.spares (hsent.trans (.same rfl rfl rfl))

theorem ensureReceiver_ready {e : MqttEvent} {a : Answers} {r : Runtime} {m : OwnedMessage}
    (h : (ensureReceiver e a r).1 = .ready m) :
    (ensureReceiver e a r).2.receiverMessage = some m := by
  unfold ensureReceiver at h ⊢
  cases hr : r.receiverMessage with
  | some b =>
    rw [hr] at h
    cases h
    exact hr
  | none =>
    rw [hr] at h
    dsimp only at h ⊢
    by_cases hrange : e.totalDataLen < 0 ∨ (emqttPayloadMax : ℤ) < e.totalDataLen
    · rw [if_pos hrange] at h
      cases h
    · rw [if_neg hrange] at h ⊢
      cases ha : a.alloc with
      | true =>
        rw [ha] at h
        cases h
        rfl
      | false =>
        rw [ha] at h
        cases h

/-- Only an incomplete fragment reaches `capacity_note_partial`. -/
theorem receiveFragment_spares (e : MqttEvent) (a : Answers) (r : Runtime) {m : OwnedMessage}
    (n : Notice) (hm : m.allocated ≤ emqttPayloadMax)
    (hmore : (emqttReceiveInto r.receiver m.info m.payload m.info.length e.fragment).1 ≠ .more) :
    Spares r (receiveFragment e a r m n) := by
  unfold receiveFragment
  generalize emqttReceiveInto r.receiver m.info m.payload m.info.length e.fragment = o at hmore
  obtain ⟨res,rc,info,payload⟩ := o
  have hin := receiving_spares r rc info payload hm
  cases res with
  | more => exact absurd rfl hmore
  | rejected =>
    exact (hin.trans (releaseReceiverSlot_sheds _).spares).trans (post_spares _ _)
  | complete => exact hin.trans (completeMessage_spares _ _ n hm)

theorem onData_spares (e : MqttEvent) (a : Answers) {r : Runtime} (n : Notice) (hb : r.Bounded)
    (hid : e.id = .data) (h : onEventPartial e a r = none) : Spares r (onData e a r n) := by
  have hens := ensureReceiver_spares e a r
  have hready {m : OwnedMessage} := ensureReceiver_ready (e := e) (a := a) (r := r) (m := m)
  unfold onEventPartial at h
  unfold onData
  rw [hid] at h
  generalize ensureReceiver e a r = o at hens hready h
  obtain ⟨start,q⟩ := o
  cases start with
  | refused => exact hens.trans (post_spares _ _)
  | noMemory => exact hens
  | ready m =>
    have hm := (hens.bounded hb).receiver m (hready rfl)
    refine hens.trans (receiveFragment_spares e a q n hm fun hmore => ?_)
    dsimp only at h
    generalize emqttReceiveInto q.receiver m.info m.payload m.info.length e.fragment = o at h hmore
    obtain ⟨res,rc,info,payload⟩ := o
    subst hmore
    cases h

theorem onEvent_spares (e : MqttEvent) (a : Answers) {r : Runtime} (hb : r.Bounded)
    (h : onEventPartial e a r = none) : Spares r (onEvent e a r) := by
  have hrel (n : Notice) : Spares r (post (releaseReceiverSlot r) n) :=
    (releaseReceiverSlot_sheds r).spares.trans (post_spares _ n)
  unfold onEvent
  cases hid : e.id with
  | connected => exact hrel _
  | disconnected => exact hrel _
  | subscribed => exact post_spares r _
  | unsubscribed => exact post_spares r _
  | published => exact post_spares r _
  | deleted => exact post_spares r _
  | error => exact post_spares r _
  | data => exact onData_spares e a _ hb hid h
  | other => exact Sheds.spares (.same rfl rfl rfl)

/-- What is not complete has not outgrown the largest payload. -/
theorem emqttReceiveInto_more {r rc : ReceiveState} {info info' : MessageInfo}
    {payload payload' : List UInt8} {capacity : ℕ} {f : Fragment}
    (h : emqttReceiveInto r info payload capacity f = (.more, rc, info', payload')) :
    rc.received ≤ emqttPayloadMax := by
  unfold emqttReceiveInto at h
  by_cases hm : fragmentMalformed capacity f = true
  · rw [if_pos hm] at h
    cases h
  · rw [if_neg hm] at h
    have hf := not_fragmentMalformed (Bool.not_eq_true _ ▸ hm)
    split at h
    · cases h
    split at h
    · rename_i hc
      simp only [fragmentContinues, Bool.and_eq_true, beq_iff_eq] at hc
      dsimp only at h
      split at h
      · cases h
      · cases h
        dsimp only
        omega
    · cases h

/-- A callback that gets there goes on with `capacity_note_partial`. -/
theorem onEventPartial_some {e : MqttEvent} {a : Answers} {r q : Runtime}
    (h : onEventPartial e a r = some q) :
    onEvent e a r = capacityNotePartial q a ∧ (r.Bounded → Spares r q) ∧
      q.receiverMessage.isSome = true ∧ q.receiver.received ≤ emqttPayloadMax := by
  have hens := ensureReceiver_spares e a r
  have hready {m : OwnedMessage} := ensureReceiver_ready (e := e) (a := a) (r := r) (m := m)
  unfold onEventPartial at h
  unfold onEvent onData
  generalize ensureReceiver e a r = o at hens hready h
  obtain ⟨start,p⟩ := o
  split at h
  · rename_i hid heq
    cases heq
    rw [hid]
    dsimp only at h ⊢
    unfold receiveFragment
    split at h
    · rename_i m rc info payload hmore
      cases h
      rw [hmore]
      refine ⟨rfl, fun hb => ?_, rfl, emqttReceiveInto_more hmore⟩
      exact hens.trans (receiving_spares p rc info payload ((hens.bounded hb).receiver _ (hready rfl)))
    · cases h
  · cases h

theorem onEventPartial_ok {out : List Slot} {e : MqttEvent} {a : Answers} {r q : Runtime}
    (h : SlotsOk out r) (hq : onEventPartial e a r = some q) : SlotsOk out q := by
  have hevent := onEvent_ok h e a
  obtain ⟨c,hc⟩ := capacityNotePartial_eq q a
  rw [(onEventPartial_some hq).1, hc] at hevent
  exact hevent.sameView rfl

/-! The record over a run -/

/-- An observation as the record would hold it, from the state it was made in. -/
def Observation.peak (o : Observation) : CapacityPeak where
  completeOwnerCount := o.seen.complete.length
  completePayloadBytes := (o.seen.complete.map fun m => m.info.length).sum
  partialDeclaredBytes := (o.seen.receiverMessage.map fun m => m.info.length).getD 0
  partialReceivedBytes := o.seen.receiver.received
  ownedRequestBytes := o.seen.requestedBytes
  outboxWireBytesAtRxPeak := o.seenOutbox.toInt.toNat
  rxPeakUptimeMs := o.nowMs
  rxPeakObservedUntilUptimeMs := o.untilMs

/-- Observations are ordered by the bytes asked for, then by the outbox. -/
def Observation.key (o : Observation) : ℕ ×ₗ ℤ := toLex (o.seen.requestedBytes, o.seenOutbox.toInt)

/-- The first of the largest observations among those with a size of the outbox. -/
noncomputable def largest (observed : List Observation) : Option Observation :=
  (observed.filter fun o => decide (0 ≤ o.seenOutbox)).argmax Observation.key

/-- The figures of an observation belong to one moment. -/
structure Observation.Joint (o : Observation) : Prop where
  scan : o.scan.Exact o.seen
  outbox : o.outbox = o.seenOutbox

theorem largest_negative (observed : List Observation) {o : Observation} (h : o.seenOutbox < 0) :
    largest (observed ++ [o]) = largest observed := by
  have hneg : ¬ 0 ≤ o.seenOutbox := Int32.not_le.mpr h
  simp only [largest, List.filter_append, List.filter_singleton, hneg, decide_false,
    cond_false, List.append_nil]

theorem largest_concat (observed : List Observation) {o : Observation} (h : 0 ≤ o.seenOutbox) :
    largest (observed ++ [o]) = some (match largest observed with
      | none => o
      | some best => if best.key < o.key then o else best) := by
  simp only [largest, List.filter_append, List.filter_singleton, h, decide_true, cond_true,
    List.argmax_concat]
  cases (observed.filter fun o => decide (0 ≤ o.seenOutbox)).argmax Observation.key with
  | none => rfl
  | some best =>
    dsimp only
    split
    · rfl
    · rfl

theorem largest_nonneg {observed : List Observation} {o : Observation}
    (h : largest observed = some o) : 0 ≤ o.seenOutbox := by
  have hmem := List.argmax_mem h
  simpa using (List.mem_filter.mp hmem).2

theorem key_lt_iff (o p : Observation) : o.key < p.key ↔
    o.seen.requestedBytes < p.seen.requestedBytes ∨
      (o.seen.requestedBytes = p.seen.requestedBytes ∧ o.seenOutbox.toInt < p.seenOutbox.toInt) :=
  Prod.Lex.toLex_lt_toLex

/-- What the store writes down is the observation in the state it was made in. -/
theorem Observation.Joint.stored {o : Observation} (hj : o.Joint) (h0 : ¬ o.outbox < 0) :
    (⟨o.scan.complete.toNat, o.scan.payload.toNat, o.scan.declared.toNat, o.scan.received.toNat,
      o.scan.bytes.toNat, o.outbox.toUInt32.toNat, o.nowMs, o.untilMs⟩ : CapacityPeak) =
      o.peak := by
  obtain ⟨m,hm⟩ := Option.isSome_iff_exists.mp hj.scan.receiving
  have hcast := toUInt32_of_nonneg h0
  have hout : o.outbox.toUInt32.toNat = o.seenOutbox.toInt.toNat := by
    rw [← hj.outbox]
    omega
  rw [hj.scan.complete, hj.scan.payload, hj.scan.declared m hm, hj.scan.received, hj.scan.bytes,
    hout, Observation.peak, hm, Option.map_some, Option.getD_some]

theorem capacityStore_peak {c : CapacityStats} {observed : List Observation} {o : Observation}
    (hj : o.Joint) (h : c.peak = (largest observed).map Observation.peak) :
    (capacityStore c o).peak = (largest (observed ++ [o])).map Observation.peak := by
  unfold capacityStore
  by_cases hneg : o.outbox < 0
  · rw [if_pos hneg, largest_negative observed (hj.outbox ▸ hneg), ← h]
    rfl
  · have h0 : 0 ≤ o.seenOutbox := Int32.not_lt.mp (hj.outbox ▸ hneg)
    have hcast := toUInt32_of_nonneg hneg
    rw [hj.outbox] at hcast
    rw [if_neg hneg, largest_concat observed h0, Option.map_some]
    cases hl : largest observed with
    | none =>
      -- the first observation with a size of the outbox is taken as it is
      rw [hl, Option.map_none] at h
      have hv : c.rxPeakValid = false := by
        by_contra hv
        rw [CapacityStats.peak, if_pos (by simpa using hv)] at h
        cases h
      rw [if_pos (Or.inl hv)]
      exact congrArg some (hj.stored hneg)
    | some best =>
      rw [hl, Option.map_some] at h
      have hb0 := Int32.le_iff_toInt_le.mp (largest_nonneg hl)
      rw [Int32.toInt_zero] at hb0
      have hv : c.rxPeakValid = true := by
        by_contra hv
        rw [CapacityStats.peak, if_neg hv] at h
        cases h
      have hpeak := h
      rw [CapacityStats.peak, if_pos hv, Option.some.injEq] at hpeak
      have hreq : c.ownedRequestBytes = best.seen.requestedBytes :=
        congrArg CapacityPeak.ownedRequestBytes hpeak
      have hout : c.outboxWireBytesAtRxPeak = best.seenOutbox.toInt.toNat :=
        congrArg CapacityPeak.outboxWireBytesAtRxPeak hpeak
      have hlarger : (c.rxPeakValid = false ∨ c.ownedRequestBytes < o.scan.bytes.toNat ∨
          (o.scan.bytes.toNat = c.ownedRequestBytes ∧
            c.outboxWireBytesAtRxPeak < o.outbox.toUInt32.toNat)) ↔ best.key < o.key := by
        rw [key_lt_iff, hj.scan.bytes, hj.outbox, hreq, hout, hv]
        simp only [Bool.true_eq_false, false_or]
        omega
      dsimp only
      by_cases hlt : best.key < o.key
      · rw [if_pos (hlarger.mpr hlt), if_pos hlt]
        exact congrArg some (hj.stored hneg)
      · rw [if_neg (mt hlarger.mp hlt), if_neg hlt]
        exact h

/-- What holds inside `capacity_note_partial`. -/
def PhaseOk (r : Runtime) (outbox : Int32) : NotePhase → Prop
  | .outside => True
  | .sampled read _ => read = outbox ∧ r.receiverMessage.isSome = true ∧
      r.receiver.received ≤ emqttPayloadMax
  | .scanned read _ scan seen seenOutbox => scan.Exact seen ∧ read = seenOutbox
  | .bounded o => o.Joint

/-- The figures of an instance against all it has observed. -/
structure CapacityFaithful (w : NoteMachine) : Prop where
  record : w.machine.rt.capacity.peak = (largest w.observed).map Observation.peak
  joint : ∀ o ∈ w.observed, o.Joint
  counted : w.machine.rt.capacity.Counted

/-- The invariant of the machine. -/
structure NoteOk (w : NoteMachine) : Prop where
  machine : MachineOk w.machine
  bounded : w.machine.rt.Bounded
  phase : PhaseOk w.machine.rt w.outbox w.phase
  faithful : CapacityFaithful w

/-- A step of the machine below that does not touch the record. -/
theorem NoteOk.spared {w : NoteMachine} (h : NoteOk w) {m : Machine} (phase : NotePhase)
    (hm : MachineOk m) (hs : Spares w.machine.rt m.rt) (hp : PhaseOk m.rt w.outbox phase) :
    NoteOk {w with machine := m, phase := phase} where
  machine := hm
  bounded := hs.bounded h.bounded
  phase := hp
  faithful := ⟨hs.figures.peak.trans h.faithful.record, h.faithful.joint,
    hs.figures.counted h.faithful.counted⟩

/-- The owner's steps, and the callbacks that do not get to `capacity_note_partial`. -/
theorem machineStep_spares {m : Machine} (hb : m.rt.Bounded) (s : MachineStep) (a : Answers)
    (hs : ∀ e, s = .callback e →
      onEventPartial e a (m.rt.note (.callback e a.now)) = none) :
    Spares m.rt (m.step (s, a)).rt := by
  have hsame : Spares m.rt m.rt := Sheds.spares (.same rfl rfl rfl)
  obtain ⟨rt,ret⟩ := m
  cases s with
  | callback e =>
    have hnote : Spares rt (rt.note (.callback e a.now)) := Sheds.spares (.same rfl rfl rfl)
    exact hnote.trans (onEvent_spares e a (hnote.bounded hb) (hs e rfl))
  | call c =>
    cases ret with
    | none => exact ownerCall_spares rt a c
    | some sm => exact hsame
  | pollBegin =>
    cases ret with
    | none => exact (emqttPollBegin_sheds rt a).spares
    | some sm => exact hsame
  | pollEnd =>
    cases ret with
    | none => exact hsame
    | some sm => exact (sendSlot_sheds rt _).spares

/-- Between two steps of the worker the owner leaves its place in the callback as it was. -/
theorem meanwhile_spares {w : NoteMachine} (h : NoteOk w) (s : MachineStep) (a : Answers) :
    NoteOk (w.meanwhile s a) ∧
      Spares w.machine.rt (w.meanwhile s a).machine.rt := by
  have hstay : NoteOk w ∧ Spares w.machine.rt w.machine.rt :=
    ⟨h, Sheds.spares (.same rfl rfl rfl)⟩
  have hmove (hs : ∀ e, s ≠ .callback e) (hm : (w.machine.step (s, a)).rt.receiver =
        w.machine.rt.receiver ∧ (w.machine.step (s, a)).rt.receiverMessage =
        w.machine.rt.receiverMessage) :
      NoteOk {w with machine := w.machine.step (s, a)} ∧
        Spares w.machine.rt (w.machine.step (s, a)).rt := by
    have hspare := machineStep_spares h.bounded s a fun e he => absurd he (hs e)
    refine ⟨h.spared w.phase (h.machine.step (s, a)) hspare ?_, hspare⟩
    have hp := h.phase
    cases hw : w.phase with
    | outside => trivial
    | sampled read nowMs =>
      rw [hw] at hp
      refine ⟨hp.1, ?_, ?_⟩
      · rw [hm.2]
        exact hp.2.1
      · rw [hm.1]
        exact hp.2.2
    | scanned read nowMs scan seen seenOutbox =>
      rw [hw] at hp
      exact hp
    | bounded o =>
      rw [hw] at hp
      exact hp
  unfold NoteMachine.meanwhile
  cases s with
  | callback e => exact hstay
  | call c =>
    dsimp only
    split
    · exact hmove (fun _ he => nomatch he) ‹_›
    · exact hstay
  | pollBegin =>
    dsimp only
    split
    · exact hmove (fun _ he => nomatch he) ‹_›
    · exact hstay
  | pollEnd =>
    dsimp only
    split
    · exact hmove (fun _ he => nomatch he) ‹_›
    · exact hstay

/-- A callback, up to the point where the others may run again, or a step of the owner. -/
theorem NoteOk.advance {w : NoteMachine} (h : NoteOk w) (hout : w.phase = .outside)
    (s : MachineStep) (a : Answers) :
    NoteOk (w.advance s a) ∧ Spares w.machine.rt (w.advance s a).machine.rt := by
  have hmove (hs : ∀ e, s = .callback e →
      onEventPartial e a (w.machine.rt.note (.callback e a.now)) = none) :
      NoteOk {w with machine := w.machine.step (s, a)} ∧
        Spares w.machine.rt (w.machine.step (s, a)).rt := by
    have hspare := machineStep_spares h.bounded s a hs
    exact ⟨h.spared w.phase (h.machine.step (s, a)) hspare (hout ▸ trivial), hspare⟩
  unfold NoteMachine.advance
  cases s with
  | call c => exact hmove fun _ he => nomatch he
  | pollBegin => exact hmove fun _ he => nomatch he
  | pollEnd => exact hmove fun _ he => nomatch he
  | callback e =>
    dsimp only
    cases hq : onEventPartial e a (w.machine.rt.note (.callback e a.now)) with
    | none =>
      apply hmove
      intro e' he
      cases he
      exact hq
    | some q =>
      have hnote : Spares w.machine.rt (w.machine.rt.note (.callback e a.now)) :=
        Sheds.spares (.same rfl rfl rfl)
      have hslots : SlotsOk (w.machine.returning.toList.map Prod.fst)
          (w.machine.rt.note (.callback e a.now)) := h.machine.slots.sameView rfl
      obtain ⟨-,hspare,hsome,hrec⟩ := onEventPartial_some hq
      have hspare := hnote.trans (hspare (hnote.bounded h.bounded))
      have hm : MachineOk {w.machine with rt := q} :=
        ⟨onEventPartial_ok hslots hq, h.machine.buffer⟩
      exact ⟨h.spared (.sampled w.outbox _) hm hspare ⟨rfl,hsome,hrec⟩, hspare⟩

theorem capacityStore_counted {c : CapacityStats} (h : c.Counted) (o : Observation) :
    (capacityStore c o).Counted := by
  unfold capacityStore
  split
  · exact ⟨h.notices,h.outbox⟩
  split
  · exact ⟨h.notices,h.outbox⟩
  · exact h

theorem capacityStore_valid {c : CapacityStats} {o : Observation}
    (h : (capacityStore c o).countersValid = true) : c.countersValid = true := by
  unfold capacityStore at h
  split at h
  · cases h
  split at h
  · exact h
  · exact h

/-- The first critical section reads the state as it is. -/
theorem PhaseOk.scan {w : NoteMachine} (h : NoteOk w) {read : Int32} {nowMs : ℕ}
    (hw : w.phase = .sampled read nowMs) : PhaseOk w.machine.rt w.outbox
      (.scanned read nowMs (capacityScan w.machine.rt) w.machine.rt w.outbox) := by
  have hp := h.phase
  rw [hw] at hp
  exact ⟨capacityScan_exact h.machine.slots h.bounded hp.2.1 hp.2.2, hp.1⟩

/-- The second critical section stores what belongs to the first. -/
theorem NoteOk.store {w : NoteMachine} (h : NoteOk w) {o : Observation} (hj : o.Joint) :
    NoteOk { machine := {w.machine with rt := {w.machine.rt with
               capacity := capacityStore w.machine.rt.capacity o}}
             outbox := w.outbox, phase := .outside, observed := w.observed ++ [o] } where
  machine := ⟨h.machine.slots.withCapacity _, h.machine.buffer⟩
  bounded := ⟨h.bounded.messages, h.bounded.receiver⟩
  phase := trivial
  faithful := {
    record := capacityStore_peak hj h.faithful.record
    joint := fun p hp => by
      rcases List.mem_append.mp hp with hp | hp
      · exact h.faithful.joint p hp
      · rw [List.mem_singleton.mp hp]
        exact hj
    counted := capacityStore_counted h.faithful.counted o }

/-- One step keeps the invariant, and never makes the counters valid again. -/
theorem NoteOk.step {w : NoteMachine} (h : NoteOk w) (s : NoteStep × Answers) :
    NoteOk (w.step s) ∧ ((w.step s).machine.rt.capacity.countersValid = true →
      w.machine.rt.capacity.countersValid = true) := by
  obtain ⟨s,a⟩ := s
  have hp := h.phase
  have hstay (phase : NotePhase) (outbox : Int32) (hp : PhaseOk w.machine.rt outbox phase) :
      NoteOk ⟨w.machine, outbox, phase, w.observed⟩ ∧
        (w.machine.rt.capacity.countersValid = true →
          w.machine.rt.capacity.countersValid = true) :=
    ⟨⟨h.machine, h.bounded, hp, ⟨h.faithful.record, h.faithful.joint, h.faithful.counted⟩⟩,
      fun hv => hv⟩
  unfold NoteMachine.step
  cases s with
  | machine st =>
    have hin := (meanwhile_spares h st a).imp_right fun hs => hs.figures.valid
    cases hw : w.phase with
    | outside => exact (h.advance hw st a).imp_right fun hs => hs.figures.valid
    | sampled read nowMs => exact hin
    | scanned read nowMs scan seen seenOutbox => exact hin
    | bounded o => exact hin
  | outbox bytes =>
    cases hw : w.phase with
    | outside => exact hstay .outside _ trivial
    | sampled read nowMs => exact hstay _ _ hp
    | scanned read nowMs scan seen seenOutbox => exact hstay _ _ hp
    | bounded o => exact hstay _ _ hp
  | scan =>
    cases hw : w.phase with
    | sampled read nowMs => exact hstay _ _ (PhaseOk.scan h hw)
    | outside => exact hstay _ _ hp
    | scanned read nowMs scan seen seenOutbox => exact hstay _ _ hp
    | bounded o => exact hstay _ _ hp
  | bound =>
    cases hw : w.phase with
    | scanned read nowMs scan seen seenOutbox =>
      rw [hw] at hp
      exact hstay _ _ ⟨hp.1,hp.2⟩
    | outside => exact hstay _ _ hp
    | sampled read nowMs => exact hstay _ _ hp
    | bounded o => exact hstay _ _ hp
  | store =>
    cases hw : w.phase with
    | bounded o =>
      rw [hw] at hp
      exact ⟨h.store hp, capacityStore_valid⟩
    | outside => exact hstay _ _ hp
    | sampled read nowMs => exact hstay _ _ hp
    | scanned read nowMs scan seen seenOutbox => exact hstay _ _ hp

theorem emqttCreated_capacity (tls : Bool) (subs : List Subscription) (countersValid : Bool) :
    (emqttCreated tls subs countersValid).capacity =
      ⟨0,0,0,0,0,0,0,0,0,0,0,0,0,false,countersValid⟩ := (drain_sheds _).capacity

theorem noteOk_created (tls : Bool) (subs : List Subscription) (countersValid : Bool)
    (outbox : Int32) : NoteOk (NoteMachine.created tls subs countersValid outbox) where
  machine := machineOk_run tls subs countersValid []
  bounded := ⟨fun _ _ h => (nomatch h), fun _ h => (nomatch h)⟩
  phase := trivial
  faithful := {
    record := by
      have hc := emqttCreated_capacity tls subs countersValid
      rw [NoteMachine.created, hc]
      rfl
    joint := fun _ h => (nomatch h)
    counted := by
      have hc := emqttCreated_capacity tls subs countersValid
      rw [NoteMachine.created, hc]
      exact ⟨Nat.zero_le _, Nat.zero_le _⟩ }

theorem noteOk_run (ss : List (NoteStep × Answers)) {w : NoteMachine} (h : NoteOk w) :
    NoteOk (w.run ss) :=
  NoteMachine.run_induction NoteOk (fun _ s h => (h.step s).1) ss w h

/-- Counters that are not valid stay so. -/
theorem run_countersValid (ss : List (NoteStep × Answers)) {w : NoteMachine} (h : NoteOk w)
    (hv : w.machine.rt.capacity.countersValid = false) :
    (w.run ss).machine.rt.capacity.countersValid = false := by
  have hinv := NoteMachine.run_induction
    (fun w => NoteOk w ∧ w.machine.rt.capacity.countersValid = false)
    (fun w s h => by
      obtain ⟨hok,hvalid⟩ := h.1.step s
      refine ⟨hok, ?_⟩
      rw [← Bool.not_eq_true]
      intro ht
      rw [hvalid ht] at h
      exact absurd h.2 (by simp)) ss w ⟨h,hv⟩
  exact hinv.2

/-- A step of the machine below with nothing between the steps of `capacity_note_partial`. -/
def atomically (s : MachineStep × Answers) : List (NoteStep × Answers) :=
  [(.outbox (Int32.ofInt s.2.outboxSize), s.2), (.machine s.1, s.2), (.scan, s.2), (.bound, s.2),
    (.store, s.2)]

/-- The whole of `capacity_note_partial`, uninterrupted, is one step of the machine below. -/
theorem atomically_step {w : NoteMachine} (h : NoteOk w) (hout : w.phase = .outside)
    (s : MachineStep × Answers)
    (hfit : (Int32.ofInt s.2.outboxSize).toInt = s.2.outboxSize) :
    (w.run (atomically s)).machine = w.machine.step s ∧
      (w.run (atomically s)).phase = .outside := by
  obtain ⟨s,a⟩ := s
  obtain ⟨m,outbox,phase,observed⟩ := w
  subst hout
  cases s with
  | call c => exact ⟨rfl,rfl⟩
  | pollBegin => exact ⟨rfl,rfl⟩
  | pollEnd => exact ⟨rfl,rfl⟩
  | callback e =>
    cases hq : onEventPartial e a (m.rt.note (.callback e a.now)) with
    | none =>
      simp only [atomically, NoteMachine.run, List.foldl_cons, List.foldl_nil, NoteMachine.step,
        NoteMachine.advance, hq, and_self]
    | some q =>
      -- what the callback has done before the first read of the outbox keeps the accounts
      obtain ⟨heq,hspare,hsome,hrec⟩ := onEventPartial_some hq
      have hnote : SlotsOk (m.returning.toList.map Prod.fst) (m.rt.note (.callback e a.now)) :=
        h.machine.slots.sameView rfl
      have hbound : (m.rt.note (.callback e a.now)).Bounded :=
        ⟨h.bounded.messages, h.bounded.receiver⟩
      have hstore := capacityNotePartial_eq_store (onEventPartial_ok hnote hq)
        ((hspare hbound).bounded hbound) hsome hrec a (Int32.ofInt a.outboxSize) hfit.symm
      have hevent := heq.trans hstore
      simp only [atomically, NoteMachine.run, List.foldl_cons, List.foldl_nil, NoteMachine.step,
        NoteMachine.advance, hq, Machine.step, hevent, observe, and_self]

/-- So every run of the machine below is one of these runs. -/
theorem atomically_run {ss : List (MachineStep × Answers)}
    (hfit : ∀ s ∈ ss, (Int32.ofInt s.2.outboxSize).toInt = s.2.outboxSize) {w : NoteMachine}
    (h : NoteOk w) (hout : w.phase = .outside) :
    (w.run (ss.flatMap atomically)).machine = w.machine.run ss := by
  induction ss generalizing w with
  | nil => rfl
  | cons s ss ih =>
    obtain ⟨hm,hp⟩ := atomically_step h hout s (hfit s List.mem_cons_self)
    have hrest := ih (fun t ht => hfit t (List.mem_cons_of_mem s ht))
      (noteOk_run (atomically s) h) hp
    rw [List.flatMap_cons, NoteMachine.run, List.foldl_append]
    rw [hm] at hrest
    exact hrest

/-- In every run of an instance, whatever the owner does between the steps of
`capacity_note_partial`, the recorded peak is the first of the largest observations, each of which
is of one moment.  Stopping and starting keep the figures. -/
theorem capacity_peak_joint (tls : Bool) (subs : List Subscription) (countersValid : Bool)
    (outbox : Int32) (ss : List (NoteStep × Answers)) :
    let w := (NoteMachine.created tls subs countersValid outbox).run ss
    CapacityFaithful w ∧
    (∀ a, (emqttStop w.machine.rt a).2.capacity = w.machine.rt.capacity) ∧
    (∀ networkReady trustedTimeReady a,
      (emqttStart w.machine.rt networkReady trustedTimeReady a).2.capacity =
        w.machine.rt.capacity) ∧
    ∀ more, w.machine.rt.capacity.countersValid = false →
      (w.run more).machine.rt.capacity.countersValid = false := by
  intro w
  have hw : NoteOk w := noteOk_run ss (noteOk_created tls subs countersValid outbox)
  refine ⟨hw.faithful, fun a => ?_, fun networkReady trustedTimeReady a => ?_, fun more hv => ?_⟩
  · exact (emqttStop_sheds w.machine.rt a).capacity
  · exact (emqttStart_sheds w.machine.rt networkReady trustedTimeReady a).capacity
  · exact run_countersValid more hw hv

/-- One byte of two arrives while another message waits in its slot.  A poll detaches that one
before the scan, and what the outbox is to hold next has to wait for the store. -/
example :
    let a : Answers := ⟨0, 7000, 9000, true, 5, .ok, .ok, 1⟩
    let data (total : ℤ) : NoteStep := .machine (.callback
      ⟨.data, 1, some [0x74], 1, some [0xaa], 1, total, 0, 1, false, false, none⟩)
    let ss : List NoteStep :=
      [data 1, data 2, .machine .pollBegin, .scan, .bound, .outbox 8, .store]
    ((NoteMachine.created false [] true 5).run (ss.map (·, a))).machine.rt.capacity.peak =
      some ⟨0, 0, 2, 1, 274, 5, 7, 9⟩ := by decide +kernel

end EspMqtt
