import EspMqtt.Config
import EspMqtt.RuntimeReady

/-! The list of desired subscriptions: what holds of it in every reachable state, and the
two ways in which it changes. -/
namespace EspMqtt

/-- What emqtt keeps true of its subscriptions and of a request on its way. -/
structure Desired (r : Runtime) : Prop where
  count : r.subscriptions.length ≤ emqttSubscriptionsMax
  valid : ∀ s ∈ r.subscriptions, FilterValid s.topic
  distinct : (r.subscriptions.map Subscription.topic).Nodup
  qos : ∀ s ∈ r.subscriptions, s.qos ≤ 1
  unsubscribing : 0 < r.pendingUnsubscribe → r.pendingUnsubscribeIndex < r.subscriptions.length
  subscribing : r.pendingDynamicSubscribe = true →
    r.subscriptions.length < emqttSubscriptionsMax ∧
    r.pendingSubscription.topic ∉ r.subscriptions.map Subscription.topic
  pendingOk : r.pendingDynamicSubscribe = true →
    FilterValid r.pendingSubscription.topic ∧ r.pendingSubscription.qos ≤ 1
  idle : r.state = .ready → r.pendingUnsubscribe ≤ 0 ∧ r.pendingDynamicSubscribe = false

/-- Nothing is on its way. -/
structure Idle (r : Runtime) : Prop where
  unsubscribe : r.pendingUnsubscribe = -1
  dynamic : r.pendingDynamicSubscribe = false

namespace Desired

variable {r r' : Runtime}

/-- The same list with nothing on its way. -/
theorem cleared (h : Desired r) (hlist : r'.subscriptions = r.subscriptions) (hidle : Idle r') : Desired r' where
  count := hlist ▸ h.count
  valid := hlist ▸ h.valid
  distinct := hlist ▸ h.distinct
  qos := hlist ▸ h.qos
  unsubscribing := fun hpos => absurd hpos (by rw [hidle.unsubscribe]; decide)
  subscribing := fun hdyn => absurd hdyn (by rw [hidle.dynamic]; decide)
  pendingOk := fun hdyn => absurd hdyn (by rw [hidle.dynamic]; decide)
  idle := fun _ => ⟨by rw [hidle.unsubscribe]; decide, hidle.dynamic⟩

/-- The same list and the same request, and no step into READY. -/
theorem kept (h : Desired r) (hlist : r'.subscriptions = r.subscriptions)
    (hunsub : r'.pendingUnsubscribe = r.pendingUnsubscribe)
    (hindex : r'.pendingUnsubscribeIndex = r.pendingUnsubscribeIndex)
    (hdyn : r'.pendingDynamicSubscribe = r.pendingDynamicSubscribe)
    (hsub : r.pendingDynamicSubscribe = true → r'.pendingSubscription = r.pendingSubscription)
    (hstate : r'.state = .ready → r.state = .ready) : Desired r' where
  count := hlist ▸ h.count
  valid := hlist ▸ h.valid
  distinct := hlist ▸ h.distinct
  qos := hlist ▸ h.qos
  unsubscribing := by
    rw [hunsub, hindex, hlist]
    exact h.unsubscribing
  subscribing := by
    intro hd
    rw [hdyn] at hd
    rw [hlist, hsub hd]
    exact h.subscribing hd
  pendingOk := by
    intro hd
    rw [hdyn] at hd
    rw [hsub hd]
    exact h.pendingOk hd
  idle := by
    intro hready
    rw [hunsub, hdyn]
    exact h.idle (hstate hready)

/-- The same list, with a filter on its way to it. -/
theorem submitted (h : Desired r) (hunsub : r'.pendingUnsubscribe ≤ 0) (hlist : r'.subscriptions = r.subscriptions)
    (hroom : r.subscriptions.length < emqttSubscriptionsMax)
    (hfresh : r'.pendingSubscription.topic ∉ r.subscriptions.map Subscription.topic)
    (hvalid : FilterValid r'.pendingSubscription.topic) (hqos : r'.pendingSubscription.qos ≤ 1)
    (hstate : r'.state = .subscribing) : Desired r' where
  count := hlist ▸ h.count
  valid := hlist ▸ h.valid
  distinct := hlist ▸ h.distinct
  qos := hlist ▸ h.qos
  unsubscribing := fun hpos => by omega
  subscribing := fun _ => by
    rw [hlist]
    exact ⟨hroom, hfresh⟩
  pendingOk := fun _ => ⟨hvalid, hqos⟩
  idle := fun hready => by
    rw [hstate] at hready
    exact absurd hready (by decide)

end Desired

theorem clearPending_idle (r : Runtime) : Idle (clearPending r) := ⟨rfl, rfl⟩

theorem sendSlot_subscriptions (r : Runtime) (s : Slot) : (r.sendSlot s).subscriptions = r.subscriptions := by
  unfold Runtime.sendSlot
  split <;> rfl

theorem releaseReceiverSlot_subscriptions (r : Runtime) :
    (releaseReceiverSlot r).subscriptions = r.subscriptions := by
  unfold releaseReceiverSlot
  dsimp only
  split
  · exact sendSlot_subscriptions _ _
  · rfl

theorem drain_subscriptions (r : Runtime) : (drain r).subscriptions = r.subscriptions :=
  releaseReceiverSlot_subscriptions r

theorem drain_idle (r : Runtime) : Idle (drain r) := ⟨rfl, rfl⟩

/-- What belongs to the owner decides; the callbacks do not touch it. -/
theorem Desired.of_ownerView {r r' : Runtime} (h : Desired r) (hview : r'.ownerView = r.ownerView) : Desired r' := by
  have hlist := congrArg Runtime.subscriptions hview
  have hunsub := congrArg Runtime.pendingUnsubscribe hview
  have hindex := congrArg Runtime.pendingUnsubscribeIndex hview
  have hdyn := congrArg Runtime.pendingDynamicSubscribe hview
  have hsub := congrArg Runtime.pendingSubscription hview
  have hstate := congrArg Runtime.state hview
  exact h.kept hlist hunsub hindex hdyn (fun _ => hsub) (fun hready => hstate.symm.trans hready)

/-! Owner calls that leave the list alone. -/

theorem emqttStop_desired {r : Runtime} (h : Desired r) (a : Answers) :
    Desired (emqttStop r a).2 ∧ (emqttStop r a).2.subscriptions = r.subscriptions := by
  unfold emqttStop
  split
  · exact ⟨h.kept rfl rfl rfl rfl (fun _ => rfl) (fun hs => by simp at hs), rfl⟩
  · have hlist : (drain {r with started := false}).subscriptions = r.subscriptions := drain_subscriptions _
    exact ⟨h.cleared hlist ⟨rfl, rfl⟩, hlist⟩

theorem failClosed_desired {r : Runtime} (h : Desired r) (a : Answers) :
    Desired (failClosed r a) ∧ (failClosed r a).subscriptions = r.subscriptions := by
  obtain ⟨hstop,hlist⟩ := emqttStop_desired h a
  exact ⟨hstop.kept rfl rfl rfl rfl (fun _ => rfl) (fun hs => by simp [failClosed] at hs), hlist⟩

theorem emqttStart_desired {r : Runtime} (h : Desired r) (networkReady trustedTimeReady : Bool) (a : Answers) :
    Desired (emqttStart r networkReady trustedTimeReady a).2 ∧
    (emqttStart r networkReady trustedTimeReady a).2.subscriptions = r.subscriptions := by
  have hlist := drain_subscriptions r
  unfold emqttStart
  split
  · exact ⟨h, rfl⟩
  · split
    · exact ⟨h, rfl⟩
    · dsimp only
      split
      · exact ⟨h.cleared hlist ⟨rfl, rfl⟩, hlist⟩
      · exact ⟨h.cleared hlist ⟨rfl, rfl⟩, hlist⟩

theorem emqttEnqueue_desired {r : Runtime} (h : Desired r) (topic : Option (List UInt8)) (payload : Bool)
    (length qos : ℕ) (a : Answers) :
    Desired (emqttEnqueue r topic payload length qos a).2 ∧
    (emqttEnqueue r topic payload length qos a).2.subscriptions = r.subscriptions := by
  unfold emqttEnqueue
  split
  · exact ⟨h, rfl⟩
  · split
    · exact ⟨h, rfl⟩
    · split
      · exact ⟨h.kept rfl rfl rfl rfl (fun _ => rfl) id, rfl⟩
      · exact ⟨h, rfl⟩

/-- A filter that `emqtt_subscribe` lets through. -/
theorem filterOk_valid {filter : Option (List UInt8)} (h : filterOk filter = true) :
    ∃ topic, filter = some topic ∧ FilterValid topic := by
  cases filter with
  | none => exact absurd h (by simp [filterOk, emqttTopicValid])
  | some topic =>
    refine ⟨topic, rfl, ?_⟩
    unfold filterOk at h
    have hle := (emqttTopicValid_length h).2
    have hlen : ((some topic).map List.length).getD 0 = topic.length := rfl
    rw [hlen] at h hle
    rwa [Nat.min_eq_left (by omega)] at h

/-- A request that the SDK takes for a filter that is not in the list. -/
theorem emqttSubscribe_desired {r : Runtime} (h : Desired r) (filter : Option (List UInt8)) (qos : ℕ) (a : Answers) :
    Desired (emqttSubscribe r filter qos a).2 ∧ (emqttSubscribe r filter qos a).2.subscriptions = r.subscriptions := by
  unfold emqttSubscribe
  split
  · exact ⟨h, rfl⟩
  · rename_i hready
    rw [not_not] at hready
    obtain ⟨hunsub,hdyn⟩ := h.idle hready
    split
    · exact ⟨h, rfl⟩
    · rename_i hargs
      rw [not_or, not_or] at hargs
      obtain ⟨hqos,hfilter,hroom⟩ := hargs
      split
      · exact ⟨h, rfl⟩
      · rename_i hnew
        obtain ⟨topic,rfl,hvalid⟩ := filterOk_valid (Bool.not_eq_false _ ▸ hfilter)
        -- with the request noted down but not yet sent
        have hnoted : Desired {r with pendingSubscription := ⟨topic, qos⟩} :=
          h.kept rfl rfl rfl rfl (fun hd => absurd hd (by rw [hdyn]; decide)) id
        dsimp only
        unfold submitSubscriptions
        rw [if_neg (by simp)]
        split
        · rename_i q heq
          split at heq
          · split at heq
            · exact absurd heq (by simp)
            · rw [Prod.mk.injEq] at heq
              unfold apiResult at heq
              split at heq
              · exact absurd heq.1 (by simp)
              · split at heq
                · exact absurd heq.1 (by simp)
                · omega
          · rw [Prod.mk.injEq] at heq
            rw [← heq.2]
            have hcount := h.count
            have hfresh : topic ∉ r.subscriptions.map Subscription.topic := by
              intro hmem
              obtain ⟨s,hs,rfl⟩ := List.mem_map.mp hmem
              exact hnew (List.any_eq_true.mpr ⟨s, hs, by simp⟩)
            exact ⟨h.submitted hunsub rfl (by omega) hfresh hvalid (show qos ≤ 1 by omega) rfl, rfl⟩
        · rename_i e q hne heq
          have hq : Desired q ∧ q.subscriptions = r.subscriptions := by
            split at heq
            · rw [Prod.mk.injEq] at heq
              rw [← heq.2]
              exact ⟨hnoted.kept rfl rfl rfl rfl (fun _ => rfl) (fun hs => by simp at hs), rfl⟩
            · rw [Prod.mk.injEq] at heq
              exact absurd heq.1.symm (fun h => hne (by rw [h]))
          obtain ⟨hf,hl⟩ := failClosed_desired hq.1 a
          exact ⟨hf, hl.trans hq.2⟩

theorem emqttUnsubscribe_desired {r : Runtime} (h : Desired r) (filter : Option (List UInt8)) (a : Answers) :
    Desired (emqttUnsubscribe r filter a).2 ∧ (emqttUnsubscribe r filter a).2.subscriptions = r.subscriptions := by
  unfold emqttUnsubscribe
  split
  · exact ⟨h, rfl⟩
  · rename_i hready
    rw [not_not] at hready
    obtain ⟨hunsub,hdyn⟩ := h.idle hready
    split
    · exact ⟨h, rfl⟩
    · dsimp only
      split
      · exact ⟨h, rfl⟩
      · rename_i hfound
        split
        · obtain ⟨hf,hl⟩ := failClosed_desired h a
          exact ⟨hf, hl⟩
        · refine ⟨⟨h.count, h.valid, h.distinct, h.qos, fun _ => ?_, fun hd => absurd hd ?_, fun hd => absurd hd ?_,
            fun hs => by simp at hs⟩, rfl⟩
          · have hle : r.subscriptions.findIdx (fun s => some s.topic == filter) ≤ r.subscriptions.length :=
              List.findIdx_le_length
            dsimp only [Runtime.note]
            omega
          · exact ne_true_of_eq_false hdyn
          · exact ne_true_of_eq_false hdyn

/-! Polling. -/

/-- A SUBACK for the request on its way, which arrived in time and grants what was asked for. -/
structure MatchingSuback (r : Runtime) (n : Notice) : Prop where
  kind : n.kind = .suback
  state : r.state = .subscribing
  id : 0 < r.pendingSubscribe ∧ n.messageId = r.pendingSubscribe
  inTime : n.arrivedUs < r.subscriptionDeadlineUs
  granted : n.error = .none ∧ emqttSubackValid n.suback r.awaited r.pendingSubscribeCount = true

/-- An UNSUBACK for the request on its way, which arrived in time. -/
structure MatchingUnsuback (r : Runtime) (n : Notice) : Prop where
  kind : n.kind = .unsubscribed
  state : r.state = .subscribing
  id : 0 < r.pendingUnsubscribe ∧ n.messageId = r.pendingUnsubscribe
  inTime : n.arrivedUs < r.subscriptionDeadlineUs

/-- What consuming the notice does to the list. -/
inductive ListStep (r : Runtime) (n : Notice) (after : List Subscription) : Prop where
  | same (h : after = r.subscriptions)
  | appended (hack : MatchingSuback r n) (hdynamic : r.pendingDynamicSubscribe = true)
      (h : after = r.subscriptions ++ [r.pendingSubscription])
  | removed (hack : MatchingUnsuback r n) (hindex : r.pendingUnsubscribeIndex < r.subscriptions.length)
      (h : after = r.subscriptions.eraseIdx r.pendingUnsubscribeIndex)

theorem pollConnected_desired {r : Runtime} (h : Desired r) (n : Notice) (a : Answers) :
    Desired (pollConnected r n a).2 ∧ (pollConnected r n a).2.subscriptions = r.subscriptions := by
  have hclear : Desired (clearPending r) := h.cleared rfl (clearPending_idle r)
  have hsubmit : Desired (submitSubscriptions (clearPending r) (clearPending r).subscriptions false a).2 ∧
      (submitSubscriptions (clearPending r) (clearPending r).subscriptions false a).2.subscriptions =
        r.subscriptions := by
    unfold submitSubscriptions
    split
    · exact ⟨hclear.cleared rfl ⟨rfl, rfl⟩, rfl⟩
    · split
      · exact ⟨hclear.cleared rfl ⟨rfl, rfl⟩, rfl⟩
      · exact ⟨hclear.cleared rfl ⟨rfl, rfl⟩, rfl⟩
  unfold pollConnected
  dsimp only
  generalize submitSubscriptions (clearPending r) (clearPending r).subscriptions false a = o at hsubmit
  obtain ⟨e,q⟩ := o
  have hfail := failClosed_desired hsubmit.1 a
  cases e with
  | ok => exact hsubmit
  | _ => exact ⟨hfail.1, hfail.2.trans hsubmit.2⟩

/-- A list that takes up the filter on its way to it. -/
theorem Desired.append {r r' : Runtime} (h : Desired r) (hdyn : r.pendingDynamicSubscribe = true)
    (hlist : r'.subscriptions = r.subscriptions ++ [r.pendingSubscription]) (hidle : Idle r') : Desired r' := by
  obtain ⟨hroom,hfresh⟩ := h.subscribing hdyn
  obtain ⟨hvalid,hqos⟩ := h.pendingOk hdyn
  have hmem {P : Subscription → Prop} (hold : ∀ s ∈ r.subscriptions, P s) (hnew : P r.pendingSubscription) :
      ∀ s ∈ r'.subscriptions, P s := by
    intro s hs
    rw [hlist, List.mem_append, List.mem_singleton] at hs
    rcases hs with hs | rfl
    · exact hold s hs
    · exact hnew
  refine ⟨?_, hmem h.valid hvalid, ?_, hmem h.qos hqos, ?_, ?_, ?_, fun _ => ?_⟩
  · rw [hlist, List.length_append]
    exact hroom
  · rw [hlist, List.map_append, List.nodup_append]
    refine ⟨h.distinct, List.nodup_singleton _, fun x hx y hy heq => ?_⟩
    rw [List.map_singleton, List.mem_singleton] at hy
    exact hfresh (by rwa [← hy, ← heq])
  · rw [hidle.unsubscribe]
    exact fun hpos => absurd hpos (by decide)
  · rw [hidle.dynamic]
    exact fun hd => absurd hd (by decide)
  · rw [hidle.dynamic]
    exact fun hd => absurd hd (by decide)
  · rw [hidle.unsubscribe, hidle.dynamic]
    exact ⟨by decide, rfl⟩

/-- A list with one filter taken out. -/
theorem Desired.erase {r r' : Runtime} (h : Desired r) (i : ℕ) (hlist : r'.subscriptions = r.subscriptions.eraseIdx i)
    (hidle : Idle r') : Desired r' := by
  have hsub : r'.subscriptions.Sublist r.subscriptions := hlist ▸ List.eraseIdx_sublist _ _
  refine ⟨hsub.length_le.trans h.count, fun s hs => h.valid s (hsub.subset hs), h.distinct.sublist (hsub.map _),
    fun s hs => h.qos s (hsub.subset hs), ?_, ?_, ?_, fun _ => ?_⟩
  · rw [hidle.unsubscribe]
    exact fun hpos => absurd hpos (by decide)
  · rw [hidle.dynamic]
    exact fun hd => absurd hd (by decide)
  · rw [hidle.dynamic]
    exact fun hd => absurd hd (by decide)
  · rw [hidle.unsubscribe, hidle.dynamic]
    exact ⟨by decide, rfl⟩

theorem pollSuback_desired {r : Runtime} (h : Desired r) (n : Notice) (a : Answers) (hkind : n.kind = .suback)
    (hlate : ¬ (r.state = .subscribing ∧ r.subscriptionDeadlineUs ≤ n.arrivedUs)) :
    Desired (pollSuback r n a).2 ∧ ListStep r n (pollSuback r n a).2.subscriptions := by
  unfold pollSuback
  dsimp only
  by_cases hbad : r.pendingSubscribe ≤ 0 ∨ n.messageId ≠ r.pendingSubscribe ∨ r.state ≠ .subscribing ∨
      n.error ≠ .none ∨ emqttSubackValid n.suback r.awaited r.pendingSubscribeCount = false
  · rw [if_pos hbad]
    obtain ⟨hfail,hlist⟩ := failClosed_desired h a
    exact ⟨hfail.cleared rfl (clearPending_idle _), .same hlist⟩
  · rw [if_neg hbad]
    simp only [not_or, not_le, not_not, Bool.not_eq_false] at hbad
    obtain ⟨hpos,hid,hstate,herror,hvalid⟩ := hbad
    have hack : MatchingSuback r n :=
      ⟨hkind, hstate, ⟨hpos, hid⟩, by rw [not_and, not_le] at hlate; exact hlate hstate, herror, hvalid⟩
    cases hdyn : r.pendingDynamicSubscribe with
    | true =>
      exact ⟨h.append hdyn rfl ⟨rfl, rfl⟩, .appended hack hdyn rfl⟩
    | false =>
      exact ⟨h.cleared rfl ⟨rfl, rfl⟩, .same rfl⟩

theorem pollUnsubscribed_desired {r : Runtime} (h : Desired r) (n : Notice) (a : Answers)
    (hkind : n.kind = .unsubscribed) (hlate : ¬ (r.state = .subscribing ∧ r.subscriptionDeadlineUs ≤ n.arrivedUs)) :
    Desired (pollUnsubscribed r n a).2 ∧ ListStep r n (pollUnsubscribed r n a).2.subscriptions := by
  unfold pollUnsubscribed
  dsimp only
  by_cases hbad : r.pendingUnsubscribe ≤ 0 ∨ n.messageId ≠ r.pendingUnsubscribe ∨ r.state ≠ .subscribing
  · rw [if_pos hbad]
    obtain ⟨hfail,hlist⟩ := failClosed_desired h a
    exact ⟨hfail.cleared rfl (clearPending_idle _), .same hlist⟩
  · rw [if_neg hbad]
    simp only [not_or, not_le, not_not] at hbad
    obtain ⟨hpos,hid,hstate⟩ := hbad
    have hack : MatchingUnsuback r n :=
      ⟨hkind, hstate, ⟨hpos, hid⟩, by rw [not_and, not_le] at hlate; exact hlate hstate⟩
    exact ⟨h.erase r.pendingUnsubscribeIndex rfl ⟨rfl, rfl⟩, .removed hack (h.unsubscribing hpos) rfl⟩

theorem pollNotice_desired {r : Runtime} (h : Desired r) (n : Notice) (a : Answers)
    (hlate : ¬ (r.state = .subscribing ∧ r.subscriptionDeadlineUs ≤ n.arrivedUs)) :
    Desired (pollNotice r n a).rt ∧ ListStep r n (pollNotice r n a).rt.subscriptions := by
  unfold pollNotice
  dsimp only
  cases hkind : n.kind with
  | connected =>
    obtain ⟨hd,hlist⟩ := pollConnected_desired h n a
    exact ⟨hd, .same hlist⟩
  | suback => exact pollSuback_desired h n a hkind hlate
  | unsubscribed => exact pollUnsubscribed_desired h n a hkind hlate
  | disconnected => exact ⟨h.cleared rfl ⟨rfl, rfl⟩, .same rfl⟩
  | message =>
    unfold pollMessage
    cases n.slot with
    | none => exact ⟨h, .same rfl⟩
    | some s => exact ⟨h.kept rfl rfl rfl rfl (fun _ => rfl) id, .same rfl⟩
  | error =>
    unfold pollError
    dsimp only
    split
    · obtain ⟨hfail,hlist⟩ := failClosed_desired h a
      exact ⟨hfail, .same hlist⟩
    · split
      · exact ⟨h.kept rfl rfl rfl rfl (fun _ => rfl) (fun hs => by simp at hs), .same rfl⟩
      · exact ⟨h, .same rfl⟩
  | ready => exact ⟨h, .same rfl⟩
  | puback => exact ⟨h, .same rfl⟩
  | deleted => exact ⟨h, .same rfl⟩

/-- A poll leaves the list as it is, or it consumes an acknowledgement for it. -/
theorem emqttPollBegin_desired {r : Runtime} (h : Desired r) (a : Answers) :
    Desired (emqttPollBegin r a).rt ∧ ((emqttPollBegin r a).rt.subscriptions = r.subscriptions ∨
      ∃ n rest, r.notices = n :: rest ∧ ListStep r n (emqttPollBegin r a).rt.subscriptions) := by
  unfold emqttPollBegin
  split
  · exact ⟨h, .inl rfl⟩
  · split
    · have hflag : Desired {r with overflow := false} := h.kept rfl rfl rfl rfl (fun _ => rfl) id
      obtain ⟨hfail,hlist⟩ := failClosed_desired hflag a
      exact ⟨hfail, .inl hlist⟩
    · split
      · split
        · exact ⟨h, .inl rfl⟩
        · obtain ⟨hfail,hlist⟩ := failClosed_desired h a
          exact ⟨hfail, .inl hlist⟩
      · rename_i n rest hnotices
        have hpop : Desired (r.popped n rest) := h.kept rfl rfl rfl rfl (fun _ => rfl) id
        dsimp only
        split
        · obtain ⟨hfail,hlist⟩ := failClosed_desired hpop a
          exact ⟨hfail, .inl hlist⟩
        · rename_i hlate
          obtain ⟨hd,hstep⟩ := pollNotice_desired hpop n a hlate
          refine ⟨hd, .inr ⟨n, rest, hnotices, ?_⟩⟩
          cases hstep with
          | same hs => exact .same hs
          | appended hack hdyn hs => exact .appended ⟨hack.kind, hack.state, hack.id, hack.inTime, hack.granted⟩ hdyn hs
          | removed hack hindex hs => exact .removed ⟨hack.kind, hack.state, hack.id, hack.inTime⟩ hindex hs

theorem pollSuback_appends {r : Runtime} {n : Notice} (h : MatchingSuback r n)
    (hdyn : r.pendingDynamicSubscribe = true) (a : Answers) :
    (pollSuback r n a).2.subscriptions = r.subscriptions ++ [r.pendingSubscription] := by
  have hgood : ¬ (r.pendingSubscribe ≤ 0 ∨ n.messageId ≠ r.pendingSubscribe ∨ r.state ≠ .subscribing ∨
      n.error ≠ .none ∨ emqttSubackValid n.suback r.awaited r.pendingSubscribeCount = false) := by
    simp [h.id.1, h.id.2, h.state, h.granted.1, h.granted.2]
  unfold pollSuback
  dsimp only
  rw [if_neg hgood]
  exact if_pos hdyn

theorem pollUnsubscribed_removes {r : Runtime} {n : Notice} (h : MatchingUnsuback r n) (a : Answers) :
    (pollUnsubscribed r n a).2.subscriptions = r.subscriptions.eraseIdx r.pendingUnsubscribeIndex := by
  have hgood : ¬ (r.pendingUnsubscribe ≤ 0 ∨ n.messageId ≠ r.pendingUnsubscribe ∨ r.state ≠ .subscribing) := by
    simp [h.id.1, h.id.2, h.state]
  unfold pollUnsubscribed
  dsimp only
  rw [if_neg hgood]
  rfl

/-- A poll that takes the acknowledgement waited for takes it into the list. -/
theorem emqttPoll_list {r : Runtime} {n : Notice} (h : Takes r n) (a : Answers) :
    (MatchingSuback r n → r.pendingDynamicSubscribe = true →
      (emqttPoll r a).2.subscriptions = r.subscriptions ++ [r.pendingSubscription]) ∧
    (MatchingUnsuback r n →
      (emqttPoll r a).2.subscriptions = r.subscriptions.eraseIdx r.pendingUnsubscribeIndex) := by
  constructor
  · intro hack hdyn
    rcases emqttPoll_takes h a (.inl hack.kind) with ⟨-,-,hlate⟩ | ⟨-,rest,he⟩
    · exact absurd hack.inTime (not_lt.mpr hlate)
    · have hpopped : MatchingSuback (r.popped n rest) n :=
        ⟨hack.kind, hack.state, hack.id, hack.inTime, hack.granted⟩
      rw [he, if_pos hack.kind]
      exact pollSuback_appends hpopped hdyn a
  · intro hack
    rcases emqttPoll_takes h a (.inr hack.kind) with ⟨-,-,hlate⟩ | ⟨-,rest,he⟩
    · exact absurd hack.inTime (not_lt.mpr hlate)
    · have hpopped : MatchingUnsuback (r.popped n rest) n :=
        ⟨hack.kind, hack.state, hack.id, hack.inTime⟩
      rw [he, if_neg (by simp [hack.kind])]
      exact pollUnsubscribed_removes hpopped a

/-- A poll and the return of a slot. -/
theorem emqttPoll_rt (r : Runtime) (a : Answers) :
    (emqttPoll r a).2.ownerView = (emqttPollBegin r a).rt.ownerView := by
  unfold emqttPoll
  dsimp only
  split
  · exact sendSlot_ownerView _ _
  · rfl

/-! Whole runs. -/

/-- The step is a poll, or the first half of one. -/
def MachineStep.isPoll : MachineStep → Bool
  | .call .poll => true
  | .pollBegin => true
  | _ => false

theorem ownerCall_desired {r : Runtime} (h : Desired r) (a : Answers) (c : OwnerCall) :
    Desired (ownerCall r a c) ∧ ((ownerCall r a c).subscriptions = r.subscriptions ∨
      (c = .poll ∧ ∃ n rest, r.notices = n :: rest ∧ ListStep r n (ownerCall r a c).subscriptions)) := by
  cases c with
  | start networkReady trustedTimeReady =>
    obtain ⟨hd,hlist⟩ := emqttStart_desired h networkReady trustedTimeReady a
    exact ⟨hd, .inl hlist⟩
  | stop =>
    obtain ⟨hd,hlist⟩ := emqttStop_desired h a
    exact ⟨hd, .inl hlist⟩
  | poll =>
    obtain ⟨hd,hstep⟩ := emqttPollBegin_desired h a
    have hview := emqttPoll_rt r a
    have hlist : (emqttPoll r a).2.subscriptions = (emqttPollBegin r a).rt.subscriptions :=
      (congrArg Runtime.subscriptions hview :)
    refine ⟨hd.of_ownerView hview, ?_⟩
    unfold ownerCall
    dsimp only
    rw [hlist]
    exact hstep.imp_right fun hex => ⟨rfl, hex⟩
  | subscribe filter qos =>
    obtain ⟨hd,hlist⟩ := emqttSubscribe_desired h filter qos a
    exact ⟨hd, .inl hlist⟩
  | unsubscribe filter =>
    obtain ⟨hd,hlist⟩ := emqttUnsubscribe_desired h filter a
    exact ⟨hd, .inl hlist⟩
  | enqueue topic payload length qos =>
    obtain ⟨hd,hlist⟩ := emqttEnqueue_desired h topic payload length qos a
    exact ⟨hd, .inl hlist⟩

/-- What one step keeps, and what it may do to the list. -/
theorem Machine.step_desired {m : Machine} (h : Desired m.rt) (s : MachineStep × Answers) :
    Desired (m.step s).rt ∧ ((m.step s).rt.subscriptions = m.rt.subscriptions ∨
      (s.1.isPoll = true ∧ ∃ n rest, m.rt.notices = n :: rest ∧ ListStep m.rt n (m.step s).rt.subscriptions)) := by
  obtain ⟨st,a⟩ := s
  obtain ⟨rt,returning⟩ := m
  unfold Machine.step
  cases st with
  | callback e =>
    have hview : (onEvent e a (rt.note (.callback e a.now))).ownerView = (rt.note (.callback e a.now)).ownerView :=
      onEvent_ownerView e a _
    have hnote : Desired (rt.note (.callback e a.now)) := h.kept rfl rfl rfl rfl (fun _ => rfl) id
    exact ⟨hnote.of_ownerView hview, .inl (congrArg Runtime.subscriptions hview :)⟩
  | call c =>
    cases returning with
    | some x => exact ⟨h, .inl rfl⟩
    | none =>
      obtain ⟨hd,hstep⟩ := ownerCall_desired h a c
      refine ⟨hd, hstep.imp_right ?_⟩
      rintro ⟨rfl,hex⟩
      exact ⟨rfl, hex⟩
  | pollBegin =>
    cases returning with
    | some x => exact ⟨h, .inl rfl⟩
    | none =>
      obtain ⟨hd,hstep⟩ := emqttPollBegin_desired h a
      exact ⟨hd, hstep.imp_right fun hex => ⟨rfl, hex⟩⟩
  | pollEnd =>
    cases returning with
    | none => exact ⟨h, .inl rfl⟩
    | some x =>
      have hview := sendSlot_ownerView rt x.1
      exact ⟨h.of_ownerView hview, .inl (congrArg Runtime.subscriptions hview :)⟩

/-- The same for either kind of poll. -/
theorem Machine.step_list {m : Machine} {n : Notice} (h : Takes m.rt n) (hnone : m.returning = none)
    (s : MachineStep × Answers) (hs : s.1.isPoll = true) :
    (MatchingSuback m.rt n → m.rt.pendingDynamicSubscribe = true →
      (m.step s).rt.subscriptions = m.rt.subscriptions ++ [m.rt.pendingSubscription]) ∧
    (MatchingUnsuback m.rt n →
      (m.step s).rt.subscriptions = m.rt.subscriptions.eraseIdx m.rt.pendingUnsubscribeIndex) := by
  obtain ⟨st,a⟩ := s
  obtain ⟨rt,returning⟩ := m
  dsimp only at h hnone ⊢
  subst hnone
  have hpoll := emqttPoll_list h a
  cases st with
  | callback e => exact absurd hs (by simp [MachineStep.isPoll])
  | pollEnd => exact absurd hs (by simp [MachineStep.isPoll])
  | pollBegin =>
    have hlist : (emqttPollBegin rt a).rt.subscriptions = (emqttPoll rt a).2.subscriptions :=
      (congrArg Runtime.subscriptions (emqttPoll_rt rt a).symm :)
    unfold Machine.step
    dsimp only
    rw [hlist]
    exact hpoll
  | call c =>
    cases c with
    | poll => exact hpoll
    | _ => exact absurd hs (by simp [MachineStep.isPoll])

/-- The list of a runtime that has just been created. -/
theorem emqttCreate_desired {c : EmqttConfig} {lab countersValid : Bool} {r : Runtime}
    (h : emqttCreate c lab countersValid = some r) : Desired r := by
  unfold emqttCreate at h
  split at h
  · rename_i hvalid
    rw [Option.some.injEq] at h
    subst h
    unfold emqttConfigValid at hvalid
    simp only [Bool.and_eq_true, Bool.not_eq_true', Bool.or_eq_false_iff, decide_eq_false_iff_not] at hvalid
    obtain ⟨hall,hentries⟩ := hvalid
    obtain ⟨hspec,hnodup⟩ := entriesValid_spec hentries List.nodup_nil
    have hlist : (emqttCreated c.tls c.subscriptions countersValid).subscriptions = c.subscriptions :=
      drain_subscriptions _
    have hmem : ∀ s ∈ c.subscriptions, s.qos ≤ 1 ∧ FilterValid s.topic := by
      intro s hs
      obtain ⟨e,he,rfl⟩ := List.mem_map.mp hs
      exact hspec e he
    have hidle : Idle (emqttCreated c.tls c.subscriptions countersValid) := drain_idle _
    refine ⟨?_, ?_, ?_, ?_, fun hpos => absurd hpos (by rw [hidle.unsubscribe]; decide),
      fun hd => absurd hd (by rw [hidle.dynamic]; decide), fun hd => absurd hd (by rw [hidle.dynamic]; decide),
      fun _ => ⟨by rw [hidle.unsubscribe]; decide, hidle.dynamic⟩⟩
    · rw [hlist]
      unfold EmqttConfig.subscriptions
      rw [List.length_map, List.length_take, c.entries_size]
      exact Nat.min_le_right _ _
    · rw [hlist]
      exact fun s hs => (hmem s hs).2
    · rw [hlist]
      unfold EmqttConfig.subscriptions
      rw [List.map_map]
      rwa [List.nil_append] at hnodup
    · rw [hlist]
      exact fun s hs => (hmem s hs).1
  · exact absurd h (by simp)

/-- In every state that callbacks and calls of the owner can lead to, the list is sound and
so is the request on its way to it; it changes only where a poll consumes the matching
acknowledgement, and there it does. -/
theorem subscription_list_sound (c : EmqttConfig) (lab countersValid : Bool) (r : Runtime)
    (hcreate : emqttCreate c lab countersValid = some r) (ss : List (MachineStep × Answers)) :
    Desired (Machine.run ⟨r, none⟩ ss).rt ∧
    (∀ s, ((Machine.run ⟨r, none⟩ ss).step s).rt.subscriptions = (Machine.run ⟨r, none⟩ ss).rt.subscriptions ∨
      (s.1.isPoll = true ∧ ∃ n rest, (Machine.run ⟨r, none⟩ ss).rt.notices = n :: rest ∧
        ListStep (Machine.run ⟨r, none⟩ ss).rt n ((Machine.run ⟨r, none⟩ ss).step s).rt.subscriptions)) ∧
    ∀ s n, s.1.isPoll = true → (Machine.run ⟨r, none⟩ ss).returning = none →
      Takes (Machine.run ⟨r, none⟩ ss).rt n →
      (MatchingSuback (Machine.run ⟨r, none⟩ ss).rt n →
        (Machine.run ⟨r, none⟩ ss).rt.pendingDynamicSubscribe = true →
        ((Machine.run ⟨r, none⟩ ss).step s).rt.subscriptions =
          (Machine.run ⟨r, none⟩ ss).rt.subscriptions ++ [(Machine.run ⟨r, none⟩ ss).rt.pendingSubscription]) ∧
      (MatchingUnsuback (Machine.run ⟨r, none⟩ ss).rt n →
        ((Machine.run ⟨r, none⟩ ss).step s).rt.subscriptions =
          (Machine.run ⟨r, none⟩ ss).rt.subscriptions.eraseIdx
            (Machine.run ⟨r, none⟩ ss).rt.pendingUnsubscribeIndex) := by
  have hrun : Desired (Machine.run ⟨r, none⟩ ss).rt :=
    Machine.run_induction (fun m => Desired m.rt) (fun m s hm => (Machine.step_desired hm s).1) ss ⟨r, none⟩
      (emqttCreate_desired hcreate)
  exact ⟨hrun, fun s => (Machine.step_desired hrun s).2,
    fun s n hs hnone ht => Machine.step_list ht hnone s hs⟩

def listAnswers : Answers := ⟨0, 0, 0, true, 0, .ok, .ok, 7⟩

def listEvent (id : EventId) (data : List UInt8) : MqttEvent :=
  ⟨id, 7, none, 0, some data, data.length, 0, 0, 0, false, false, none⟩

/-- The runtime of `labConfig` becomes ready and subscribes to "u" in addition; the SUBACK is there. -/
def subscribeSteps : List (MachineStep × Answers) :=
  [.call (.start true true), .callback (listEvent .connected []), .call .poll,
    .callback (listEvent .subscribed [1]), .call .poll, .call (.subscribe (some [0x75]) 1),
    .callback (listEvent .subscribed [1])].map fun s => (s, listAnswers)

/-- The SUBACK is polled, and "t/#" is unsubscribed; the UNSUBACK is there. -/
def unsubscribeSteps : List (MachineStep × Answers) :=
  subscribeSteps ++ [.call .poll, .call (.unsubscribe (some [0x74, 0x2f, 0x23])),
    .callback (listEvent .unsubscribed [])].map fun s => (s, listAnswers)

/-- The list that a run of `labConfig` leads to. -/
def labMachine (ss : List (MachineStep × Answers)) : Machine :=
  Machine.run ⟨emqttCreated false labConfig.subscriptions true, none⟩ ss

theorem labConfig_subscriptions_sound :
    Desired (labMachine unsubscribeSteps).rt ∧
    ((labMachine subscribeSteps).step (.pollBegin, listAnswers)).rt.subscriptions =
      [⟨[0x74, 0x2f, 0x23], 1⟩] ++ [⟨[0x75], 1⟩] ∧
    ((labMachine unsubscribeSteps).step (.call .poll, listAnswers)).rt.subscriptions = [⟨[0x75], 1⟩] := by
  have hsub := (subscription_list_sound labConfig true true _ labConfig_created subscribeSteps).2.2
    (.pollBegin, listAnswers) ⟨.suback, 7, none, 0, 0, 0, .none, [1]⟩ rfl (by decide +kernel) (by decide +kernel)
  have hunsub := subscription_list_sound labConfig true true _ labConfig_created unsubscribeSteps
  have htook := hunsub.2.2 (.call .poll, listAnswers) ⟨.unsubscribed, 7, none, 0, 0, 0, .none, []⟩ rfl
    (by decide +kernel) (by decide +kernel)
  refine ⟨hunsub.1, ?_, ?_⟩
  · refine (hsub.1 ⟨rfl, ?_, ?_, ?_, ?_⟩ ?_).trans ?_ <;> decide +kernel
  · refine (htook.2 ⟨rfl, ?_, ?_, ?_⟩).trans ?_ <;> decide +kernel

end EspMqtt
