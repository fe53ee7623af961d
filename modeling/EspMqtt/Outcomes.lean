import EspMqtt.Library.KeyedList
import EspMqtt.PacketIds

/-! Every stored packet has one outcome: it is still stored, or it has left for
one reason, and the events report the reasons that are to be reported. -/
namespace EspMqtt
open World Ledger Relation

/-- The event that tells the user that a packet has left. -/
def Removal.completion : Removal → Option EventId
  | .acked event => some event
  | .expired => some .deleted
  | .sent | .cleared | .stopped => none

/-- That event, and the identifier it has to name. -/
def Departure.report (d : Departure) : Option (EventId × ℤ) :=
  d.reason.completion.map fun id => (id, (d.item.msgId : ℤ))

def EventId.isCompletion : EventId → Bool
  | .published | .subscribed | .unsubscribed | .deleted => true
  | _ => false

/-- What an event tells of a packet that has left. -/
def MqttEvent.report (e : MqttEvent) : Option (EventId × ℤ) :=
  if e.id.isCompletion then some (e.id, e.msgId) else none

/-- The reason fits the packet, and what is on the wire. -/
def Departure.Proper (wire : List Chunk) (d : Departure) : Prop :=
  match d.reason with
  | .acked event => ∃ type, d.item.msgType = some type ∧ event = ackEvent type ∧
      (type = .publish ∨ type = .subscribe ∨ type = .unsubscribe)
  | .sent => d.item.msgType = some .publish ∧ d.item.msgQos = 0 ∧
      ∃ c ∈ wire, c.data = d.item.buffer ∧ c.sent = c.data.length ∧ c.origin = d.item.origin
  | .cleared => d.item.msgType = some .subscribe ∨ d.item.msgType = some .unsubscribe
  | .expired | .stopped => True

theorem Departure.Proper.mono {wire wire' : List Chunk} {d : Departure} (h : d.Proper wire)
    (hw : wire ⊆ wire') : d.Proper wire' := by
  unfold Departure.Proper at h ⊢
  split at h
  · exact h
  · obtain ⟨ht,hq,c,hc,hdata⟩ := h
    exact ⟨ht, hq, c, hw hc, hdata⟩
  · exact h
  · trivial
  · trivial

namespace Ledger

theorem depart_gone (L : Ledger) (reason : Removal) (o : Outbox) :
    (L.depart reason o).gone = ((KeyedList.missing OutboxItem.handle L.outbox.list o.list).map
      (⟨·, reason, if L.state = .connected then unacked L.traffic else []⟩)) ++ L.gone := rfl

theorem removeFirst_split {o : Outbox} {p : OutboxItem → Bool} {x : OutboxItem}
    (hx : o.list.find? p = some x) {l₁ l₂ : List OutboxItem} (hl : o.list = l₁ ++ x :: l₂)
    (hnot : ∀ y ∈ l₁, !p y) (hp : p x) : (o.removeFirst p).2.list = l₁ ++ l₂ := by
  unfold Outbox.removeFirst
  rw [hx]
  change o.list.eraseP p = _
  rw [hl, List.eraseP_append_right _ (fun b hb => by simpa using hnot b hb),
    List.eraseP_cons_of_pos hp]

/-- The first match is taken out: it is the one packet that leaves. -/
theorem missing_removeFirst {L : Ledger} (h : L.Neat) {p : OutboxItem → Bool} {x : OutboxItem}
    (hx : L.outbox.list.find? p = some x) :
    KeyedList.missing OutboxItem.handle L.outbox.list (L.outbox.removeFirst p).2.list = [x] := by
  obtain ⟨hp,l₁,l₂,hl,hnot⟩ := List.find?_eq_some_iff_append.mp hx
  have herase := removeFirst_split hx hl hnot hp
  have hn := Outbox.handles_of_neat h
  rw [herase, hl]
  rw [hl] at hn
  exact KeyedList.missing_append hn

theorem depart_removeFirst {L : Ledger} (h : L.Neat) (reason : Removal) {p : OutboxItem → Bool}
    {x : OutboxItem} (hx : L.outbox.list.find? p = some x) :
    (L.depart reason (L.outbox.removeFirst p).2).gone =
      ⟨x, reason, if L.state = .connected then unacked L.traffic else []⟩ :: L.gone := by
  rw [depart_gone, missing_removeFirst h hx]
  rfl

theorem removeFirst_sublist (o : Outbox) (p : OutboxItem → Bool) :
    (o.removeFirst p).2.list.Sublist o.list := by
  unfold Outbox.removeFirst
  split
  · exact List.eraseP_sublist
  · exact List.Sublist.refl _

/-- Stored is what is in the outbox, and what has left it. -/
def Conserved (L : Ledger) : Prop :=
  (L.stored.map fun p => p.1.label).Perm (L.outbox.labels ++ L.gone.map fun d => d.item.label)

/-- What leaves is accounted for. -/
theorem Conserved.depart {L : Ledger} (hn : L.Neat) (h : L.Conserved) (reason : Removal) {o : Outbox}
    (ho : o.list.Sublist L.outbox.list) : (L.depart reason o).Conserved := by
  have hsplit := (KeyedList.perm_append_missing (Outbox.handles_of_neat hn) ho).map OutboxItem.label
  unfold Conserved at h ⊢
  rw [depart_gone, List.map_append, List.map_map]
  refine h.trans ?_
  rw [← List.append_assoc]
  refine List.Perm.append_right _ (hsplit.trans ?_)
  rw [List.map_append]
  rfl

/-- An entry that leaves the stored packets and their labels alone. -/
theorem Conserved.kept {L L' : Ledger} (h : L.Conserved) (hl : L'.outbox.labels = L.outbox.labels)
    (hs : L'.stored = L.stored) (hg : L'.gone = L.gone) : L'.Conserved := by
  unfold Conserved at h ⊢
  rw [hl, hs, hg]
  exact h

theorem aborted_sublist (L : Ledger) : (if L.cleanSession then
    (L.outbox.deleteMessageType .subscribe).deleteMessageType .unsubscribe
    else L.outbox).list.Sublist L.outbox.list := by
  split
  · exact List.filter_sublist.trans List.filter_sublist
  · exact List.Sublist.refl _

theorem apiMove_conserved {L L' : Ledger} (hm : ApiMove L L') (hn : L.Neat) (h : L.Conserved) :
    L'.Conserved := by
  have hadds {x : OutboxItem} {L' : Ledger} (hx : Adds L x L') (hg : L'.gone = L.gone) :
      L'.Conserved := by
    unfold Conserved at h ⊢
    rw [hx.labels, hx.stored, hg, List.map_cons, List.append_assoc]
    refine (h.cons x.label).trans ?_
    exact List.perm_middle.symm
  rcases apiMove_labels hm with hs | ⟨x,hx⟩
  · cases hm with
    | abort hs => exact h.depart hn .cleared (aborted_sublist L)
    | publish x hx ht hid => exact absurd hs.stored (List.cons_ne_self _ _)
    | request x hx ht hq hid => exact absurd hs.stored (List.cons_ne_self _ _)
    | published x tick hx hp ht hq hs hquota =>
      exact h.kept ((Outbox.setPending_labels _ _ _).trans (Outbox.setTick_labels _ _ _)) rfl rfl
    | _ => exact h
  · refine hadds hx ?_
    cases hm with
    | abort hs => exact absurd hx.stored (List.cons_ne_self _ _).symm
    | _ => rfl

theorem taskMove_conserved {L L' : Ledger} (hm : TaskMove L L') (hn : L.Neat) (h : L.Conserved) :
    L'.Conserved := by
  cases hm with
  | api hm => exact apiMove_conserved hm hn h
  | finished x e hs hx he => exact h.depart hn _ (removeFirst_sublist _ _)
  | answered type x e ht hx he => exact h.depart hn _ (removeFirst_sublist _ _)
  | unreported x stray hx => exact h.depart hn _ (removeFirst_sublist _ _)
  | acknowledged msgId => exact h.kept (Outbox.setPending_labels _ _ _) rfl rfl
  | dup handle => exact h.kept (Outbox.setDup_labels _ _) rfl rfl
  | expired p x e hx he hid => exact h.depart hn _ (removeFirst_sublist _ _)
  | expiredAll p hr => exact h.depart hn _ List.filter_sublist
  | sentQos0 x hx ht hq hw => exact h.depart hn _ (removeFirst_sublist _ _)
  | sentRequest x tick hx ht =>
    exact h.kept ((Outbox.setPending_labels _ _ _).trans (Outbox.setTick_labels _ _ _)) rfl rfl
  | _ => exact h

theorem move_conserved {L L' : Ledger} (hm : Move L L') (hn : L.Neat) (h : L.Conserved) :
    L'.Conserved := by
  cases hm with
  | task hm => exact taskMove_conserved hm hn h
  | abort => exact h.depart hn .cleared (aborted_sublist L)
  | opened receiveMaximum hr hv => exact h.kept (requeueLoop_labels _ _).1 rfl rfl
  | exits => exact h.depart hn .stopped List.filter_sublist
  | _ => exact h

/-! The reasons. -/

/-- Every packet that has left had a proper reason to. -/
def Reasoned (L : Ledger) : Prop := ∀ d ∈ L.gone, d.Proper L.wire

theorem Reasoned.depart {L : Ledger} (h : L.Reasoned) {reason : Removal} {o : Outbox}
    (hd : ∀ x ∈ KeyedList.missing OutboxItem.handle L.outbox.list o.list, ∀ u,
      Departure.Proper L.wire ⟨x, reason, u⟩) : (L.depart reason o).Reasoned := by
  intro d hmem
  rw [depart_gone] at hmem
  rcases List.mem_append.mp hmem with hnew | hold
  · obtain ⟨x,hx,rfl⟩ := List.mem_map.mp hnew
    exact hd x hx _
  · exact h d hold

theorem Reasoned.removeFirst {L : Ledger} (hn : L.Neat) (h : L.Reasoned) {reason : Removal}
    {p : OutboxItem → Bool} {x : OutboxItem} (hx : L.outbox.list.find? p = some x)
    (hd : ∀ u, Departure.Proper L.wire ⟨x, reason, u⟩) :
    (L.depart reason (L.outbox.removeFirst p).2).Reasoned := by
  refine h.depart fun y hy => ?_
  rw [missing_removeFirst hn hx, List.mem_singleton] at hy
  exact hy ▸ hd

/-- An abort drops requests only. -/
theorem aborted_reasoned {L : Ledger} (h : L.Reasoned) : L.aborted.Reasoned := by
  refine Reasoned.depart (L := L) h fun x hx u => ?_
  obtain ⟨hmem,hgone⟩ := KeyedList.mem_missing.mp hx
  by_contra hnot
  have hnot' : ¬ (x.msgType = some .subscribe ∨ x.msgType = some .unsubscribe) := hnot
  rw [not_or] at hnot'
  refine hgone x ?_ rfl
  split
  · refine List.mem_filter.mpr ⟨List.mem_filter.mpr ⟨hmem, ?_⟩, ?_⟩
    · simp [hnot'.1]
    · simp [hnot'.2]
  · exact hmem

/-- The packet at an address is the one that has it. -/
theorem find_handle {L : Ledger} (hn : L.Neat) {x : OutboxItem} (hx : x ∈ L.outbox.list) :
    L.outbox.list.find? (fun i => i.handle == x.handle) = some x := by
  obtain ⟨y,hy⟩ := Option.isSome_iff_exists.mp (List.find?_isSome.mpr
    (⟨x, hx, by simp⟩ : ∃ i ∈ L.outbox.list, (i.handle == x.handle) = true))
  have hkey : y.handle = x.handle := by simpa using List.find?_some hy
  rw [hy, List.inj_on_of_nodup_map (Outbox.handles_of_neat hn) (List.mem_of_find?_eq_some hy) hx hkey]

theorem find_type {o : Outbox} {msgId : ℕ} {type : MsgType} {x : OutboxItem}
    (hx : o.list.find? (fun i => i.msgId == msgId && i.msgType == some type) = some x) :
    x.msgType = some type := by
  have hfound := List.find?_some hx
  rw [Bool.and_eq_true, beq_iff_eq, beq_iff_eq] at hfound
  exact hfound.2

theorem move_reasoned {L L' : Ledger} (hm : Move L L') (hn : L.Neat) (h : L.Reasoned) :
    L'.Reasoned := by
  cases hm with
  | task hm =>
    cases hm with
    | api hm =>
      cases hm with
      | abort hs => exact aborted_reasoned h
      | write c => exact fun d hd => Departure.Proper.mono (h d hd) (List.subset_cons_self _ _)
      | _ => exact h
    | finished x e hs hx he =>
      exact h.removeFirst hn hx fun u => ⟨.publish, find_type hx, rfl, Or.inl rfl⟩
    | answered type x e ht hx he =>
      exact h.removeFirst hn hx fun u => ⟨type, find_type hx, rfl, Or.inr ht⟩
    | unreported x stray hx =>
      exact h.removeFirst hn hx fun u => ⟨.subscribe, find_type hx, rfl, Or.inr (Or.inl rfl)⟩
    | expired p x e hx he hid => exact h.removeFirst hn hx fun u => trivial
    | expiredAll p hr => exact h.depart fun x hx u => trivial
    | sentQos0 x hx ht hq hw =>
      exact h.removeFirst hn (find_handle hn hx) fun u => ⟨ht,hq,hw⟩
    | _ => exact h
  | abort => exact aborted_reasoned h
  | exits => exact Reasoned.depart (L := L) h fun x hx u => trivial
  | _ => exact h

/-! The events. -/

/-- Nothing kept a departure from being reported: DELETED events are on, no SUBACK came without
return codes, and no event of an acknowledgement was to name another packet. -/
structure Reporting (L : Ledger) : Prop where
  codes : L.emptySubacks = 0
  named : L.strayAcks = 0
  configured : ∀ s ∈ L.configured, s.config.reportDeletedMessages = true

theorem strayed_eq_zero {L : Ledger} {x : OutboxItem} {e : MqttEvent} (h : L.strayed x e = 0) :
    L.strayAcks = 0 ∧ e.msgId = x.msgId := by
  unfold strayed at h
  split at h
  · exact ⟨h, ‹_›⟩
  · exact absurd h (Nat.succ_ne_zero _)

theorem Reporting.before {L L' : Ledger} (hm : Move L L') (h : L'.Reporting) : L.Reporting := by
  cases hm with
  | task hm =>
    cases hm with
    | api hm =>
      cases hm with
      | setConfig s => exact ⟨h.codes, h.named, fun t ht => h.configured t (List.mem_cons_of_mem _ ht)⟩
      | _ => exact ⟨h.codes, h.named, h.configured⟩
    | finished x e hs hx he => exact ⟨h.codes, (strayed_eq_zero h.named).1, h.configured⟩
    | answered type x e ht hx he => exact ⟨h.codes, (strayed_eq_zero h.named).1, h.configured⟩
    | unreported x stray hx => exact absurd h.codes (Nat.succ_ne_zero _)
    | _ => exact ⟨h.codes, h.named, h.configured⟩
  | _ => exact ⟨h.codes, h.named, h.configured⟩

/-- The completion events are the reasons that are to be reported, in their order. -/
structure Reported (L : Ledger) : Prop where
  deleted : L.reportDeleted = true
  events : L.events.filterMap MqttEvent.report = L.gone.filterMap Departure.report

/-- Packets that leave without an event. -/
theorem Reported.silent {L : Ledger} (h : L.Reported) {reason : Removal} (o : Outbox)
    (hr : reason.completion = none) : (L.depart reason o).Reported := by
  refine ⟨h.deleted, h.events.trans ?_⟩
  rw [depart_gone, List.filterMap_append, List.filterMap_map]
  have hnone : (KeyedList.missing OutboxItem.handle L.outbox.list o.list).filterMap
      (Departure.report ∘
        (⟨·, reason, if L.state = .connected then unacked L.traffic else []⟩)) = [] := by
    rw [List.filterMap_eq_nil_iff]
    intro x _
    unfold Function.comp Departure.report
    rw [hr, Option.map_none]
  rw [hnone, List.nil_append]

/-- One packet leaves, and its event names it. -/
theorem Reported.told {L L' : Ledger} (hn : L.Neat) (h : L.Reported) {reason : Removal}
    {p : OutboxItem → Bool} {x : OutboxItem} (hx : L.outbox.list.find? p = some x) {e : MqttEvent}
    (he : reason.completion = some e.id) (hc : e.id.isCompletion = true) (hid : e.msgId = x.msgId)
    (hd : L'.reportDeleted = L.reportDeleted) (hev : L'.events = e :: L.events)
    (hg : L'.gone = (L.depart reason (L.outbox.removeFirst p).2).gone) : L'.Reported := by
  refine ⟨hd.trans h.deleted, ?_⟩
  have hevent : e.report = some (e.id, (x.msgId : ℤ)) := by
    unfold MqttEvent.report
    rw [if_pos hc, hid]
  have hleft : Departure.report ⟨x, reason, if L.state = .connected then unacked L.traffic else []⟩ =
      some (e.id, (x.msgId : ℤ)) := by
    unfold Departure.report
    rw [he, Option.map_some]
  rw [hev, hg, depart_removeFirst hn reason hx, List.filterMap_cons_some hevent,
    List.filterMap_cons_some hleft, h.events]

/-- Other events. -/
theorem Reported.raise {L : Ledger} (h : L.Reported) {e : MqttEvent} (he : e.id.isCompletion = false) :
    (L.raise e).Reported := by
  refine ⟨h.deleted, ?_⟩
  have hnone : e.report = none := by
    unfold MqttEvent.report
    rw [he]
    rfl
  unfold Ledger.raise
  rw [List.filterMap_cons_none hnone]
  exact h.events

theorem move_reported {L L' : Ledger} (hm : Move L L') (hn : L.Neat) (hr : L'.Reporting)
    (h : L.Reported) : L'.Reported := by
  cases hm with
  | task hm =>
    cases hm with
    | api hm =>
      cases hm with
      | event e he =>
        refine h.raise ?_
        rcases he with he | he <;> rw [he] <;> rfl
      | abort hs => exact ⟨h.deleted, (h.silent _ rfl).events⟩
      | setConfig s => exact ⟨hr.configured s List.mem_cons_self, h.events⟩
      | _ => exact ⟨h.deleted, h.events⟩
    | event e he =>
      refine h.raise ?_
      rcases he with he | he | he | he | he <;> rw [he] <;> rfl
    | finished x e hs hx he =>
      exact h.told hn hx (by rw [he]; rfl) (by rw [he]; rfl) (strayed_eq_zero hr.named).2 rfl rfl rfl
    | answered type x e ht hx he =>
      exact h.told hn hx (by rw [he]; rfl) (by rw [he]; rcases ht with rfl | rfl <;> rfl)
        (strayed_eq_zero hr.named).2 rfl rfl rfl
    | unreported x stray hx => exact absurd hr.codes (Nat.succ_ne_zero _)
    | expired p x e hx he hid =>
      exact h.told hn hx (by rw [he]; rfl) (by rw [he]; rfl) hid rfl rfl rfl
    | expiredAll p hoff => exact absurd (h.deleted.symm.trans hoff) (by decide)
    | sentQos0 x hx ht hq hw => exact h.silent _ rfl
    | _ => exact ⟨h.deleted, h.events⟩
  | abort => exact ⟨h.deleted, (h.silent _ rfl).events⟩
  | exits => exact ⟨h.deleted, (h.silent _ rfl).events⟩
  | _ => exact ⟨h.deleted, h.events⟩

/-- No address is given out twice. -/
def Distinct (L : Ledger) : Prop :=
  (L.stored.map fun p => p.1.handle).Nodup ∧ ∀ p ∈ L.stored, p.1.handle < L.outbox.nextHandle

theorem move_distinct {L L' : Ledger} (hm : Move L L') (h : L.Distinct) : L'.Distinct := by
  unfold Distinct at h ⊢
  rcases move_labels hm with hs | ⟨x,hx⟩
  · rw [hs.stored, hs.nextHandle]
    exact h
  · rw [hx.stored, hx.nextHandle, List.map_cons, List.nodup_cons]
    refine ⟨⟨fun hmem => ?_, h.1⟩, fun p hp => ?_⟩
    · obtain ⟨p,hp,heq⟩ := List.mem_map.mp hmem
      have hlt := h.2 p hp
      rw [heq, hx.fresh.handle] at hlt
      exact absurd hlt (Nat.lt_irrefl _)
    · rcases List.mem_cons.mp hp with rfl | hp
      · exact hx.fresh.handle ▸ Nat.lt_succ_self _
      · exact (h.2 p hp).trans (Nat.lt_succ_self _)

end Ledger

/-- What has been stored is what is still stored and what has left, each for one reason, and
the completion events are those of the reasons, each with the identifier of its packet. -/
structure World.OneOutcome (w : World) : Prop where
  conserved : (w.stored.map fun p => p.1.label).Perm
    (w.outbox.labels ++ w.gone.map fun d => d.item.label)
  distinct : (w.stored.map fun p => p.1.handle).Nodup
  proper : ∀ d ∈ w.gone, d.Proper w.wire
  reported : w.events.filterMap MqttEvent.report = w.gone.filterMap Departure.report

/-- With DELETED events every stored message has one outcome in every run, unless a SUBACK
without return codes has come for a stored SUBSCRIBE, or an acknowledgement for which the
event reads another identifier from the buffer than the one it is matched by. -/
theorem one_outcome_per_message (s : Settings) (incremental : Bool) (e : Environment) (n : ℕ)
    (ss : List ClientStep) (hs : s.config.reportDeletedMessages = true)
    (hset : ∀ t ∈ (clientRun s incremental e n ss).marks.filterMap Mark.settings,
      t.config.reportDeletedMessages = true)
    (hsuback : (clientRun s incremental e n ss).emptySubacks = 0)
    (hstray : (clientRun s incremental e n ss).strayAcks = 0) :
    (clientRun s incremental e n ss).OneOutcome := by
  have hinv : ∀ L L', Move L L' →
      (L.Neat ∧ L.Conserved ∧ L.Distinct ∧ L.Reasoned ∧ (L.Reporting → L.Reported)) →
      L'.Neat ∧ L'.Conserved ∧ L'.Distinct ∧ L'.Reasoned ∧ (L'.Reporting → L'.Reported) := by
    rintro L L' hm ⟨hn,hc,hd,hr,he⟩
    exact ⟨move_neat hm hn, move_conserved hm hn hc, move_distinct hm hd, move_reasoned hm hn hr,
      fun hrep => move_reported hm hn hrep (he (hrep.before hm))⟩
  obtain ⟨-,hc,hd,hr,he⟩ := moves_induction hinv (run_moves s incremental e n ss)
    ⟨run_neat s incremental e n [], List.Perm.nil, ⟨List.nodup_nil, by simp [World.ledger, clientInit]⟩,
      by simp [Reasoned, World.ledger, clientInit], fun _ => ⟨hs,rfl⟩⟩
  exact ⟨hc, hd.1, hr, (he ⟨hsuback,hstray,hset⟩).events⟩

/-- `smallSettings` in a build with DELETED events. -/
def reportingSettings : Settings :=
  {smallSettings with config := {smallSettings.config with reportDeletedMessages := true}}

/-- A subscription, and a SUBACK with these return codes. -/
def subscribeRun (codes : List UInt8) : World :=
  clientRun reportingSettings false
    (brokerSending ([0x90, 2+UInt8.ofNat codes.length, 0, 7] ++ codes)) 0
    (connectSteps ++ [.check (.subscribe [([0x74], 0)]), .body 0] ++ passSteps)

/-- The SUBSCRIBE leaves with its event. -/
theorem one_outcome_of_subscription :
    (subscribeRun [0]).outbox.list = [] ∧
    (subscribeRun [0]).events.map (fun e => (e.id, e.msgId)) =
      [(.subscribed, 7), (.connected, 0), (.other, 0)] ∧
    (subscribeRun [0]).OneOutcome :=
  ⟨by decide +kernel, by decide +kernel, one_outcome_per_message reportingSettings false _ 0 _ rfl
    (by decide +kernel) (by decide +kernel) (by decide +kernel)⟩

/-- The SUBACK has no return code: the SUBSCRIBE leaves, and nobody is told. -/
theorem empty_suback_not_reported : ¬ (subscribeRun []).OneOutcome := by
  intro h
  have hevents : (subscribeRun []).events.filterMap MqttEvent.report = [] := by decide +kernel
  have hgone : (subscribeRun []).gone.filterMap Departure.report = [(.subscribed, 7)] := by decide +kernel
  have hreported := h.reported
  rw [hevents, hgone] at hreported
  exact absurd hreported (by decide)

end EspMqtt
