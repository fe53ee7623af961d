import EspMqtt.FlowControl
import EspMqtt.OutboxMarks
import EspMqtt.Outcomes

/-! What becomes of a stored PUBLISH. Its bytes stay but for the DUP bit, its state
follows a diagram, and once a PUBREC has come it rests. -/
namespace EspMqtt
open World Ledger Relation

/-- How the state of a stored PUBLISH changes; only v5 clients queue one again. -/
inductive PendingState.Next (v5 : Prop) : PendingState → PendingState → Prop where
  | sent : Next v5 .queued .transmitted
  | requeued (h : v5) : Next v5 .transmitted .queued
  | received (pending : PendingState) : Next v5 pending .acknowledged

/-- Nothing leads away from ACKNOWLEDGED. -/
theorem PendingState.acknowledged_stays {v5 : Prop} {p q : PendingState}
    (h : ReflTransGen (PendingState.Next v5) p q) (hp : p = .acknowledged) : q = .acknowledged := by
  induction h with
  | refl => exact hp
  | tail _ hnext ih =>
    cases hnext with
    | sent => exact absurd ih (by decide)
    | requeued h => exact absurd ih (by decide)
    | received => rfl

/-- A packet that waits for its acknowledgement, queued again. -/
def OutboxItem.requeued (x : OutboxItem) : OutboxItem :=
  {x with pending := .queued, buffer := if x.isRepeat then mqttSetDup x.buffer else x.buffer}

/-- What one entry of the books does to a stored packet; `noted` says that a whole transmission of it
is in the books behind the entry. -/
inductive OutboxItem.Turn (v5 noted : Prop) : OutboxItem → OutboxItem → Prop where
  | kept (x : OutboxItem) : Turn v5 noted x x
  | sent (x : OutboxItem) (tick : ℕ) (hz : x.msgId ≠ 0) (hp : x.pending = .queued) (hn : noted) :
      Turn v5 noted x {x with tick := tick, pending := .transmitted}
  | requested (x : OutboxItem) (tick : ℕ) (hz : x.msgId ≠ 0) (ht : x.msgType ≠ some .publish) :
      Turn v5 noted x {x with tick := tick, pending := .transmitted}
  | received (x : OutboxItem) : Turn v5 noted x {x with pending := .acknowledged}
  | repeated (x : OutboxItem) (hr : x.isRepeat = true) :
      Turn v5 noted x {x with buffer := mqttSetDup x.buffer}
  | requeued (x : OutboxItem) (hv : v5) (hp : x.pending = .transmitted) : Turn v5 noted x x.requeued

theorem OutboxItem.label_of_mqttSetDup (x : OutboxItem) :
    ({x with buffer := mqttSetDup x.buffer} : OutboxItem).label = x.label := by
  have hempty : (mqttSetDup x.buffer).isEmpty = x.buffer.isEmpty := by
    cases x.buffer <;> rfl
  unfold OutboxItem.label
  rw [hempty]

theorem OutboxItem.Turn.label {v5 noted : Prop} {x y : OutboxItem} (h : x.Turn v5 noted y) : y.label = x.label := by
  cases h with
  | kept => rfl
  | sent => rfl
  | requested => rfl
  | received => rfl
  | repeated hr => exact x.label_of_mqttSetDup
  | requeued hv hp =>
    unfold OutboxItem.requeued
    split
    · exact x.label_of_mqttSetDup
    · rfl

/-- A stored packet and what has become of it. -/
structure OutboxItem.Follows (v5 : Prop) (x y : OutboxItem) : Prop where
  label : y.label = x.label
  copy : y.buffer = x.buffer ∨ y.buffer = mqttSetDup x.buffer
  path : x.msgType = some .publish → ReflTransGen (PendingState.Next v5) x.pending y.pending

namespace OutboxItem.Follows
variable {v5 : Prop} {x y z : OutboxItem}

theorem refl (v5 : Prop) (x : OutboxItem) : x.Follows v5 x := ⟨rfl, Or.inl rfl, fun _ => .refl⟩

theorem trans (h : x.Follows v5 y) (h' : y.Follows v5 z) : x.Follows v5 z where
  label := h'.label.trans h.label
  copy := by
    -- the bit is set once or twice
    rcases h.copy with hy | hy <;> rcases h'.copy with hz | hz
    · exact Or.inl (hz.trans hy)
    · exact Or.inr (by rw [hz, hy])
    · exact Or.inr (by rw [hz, hy])
    · exact Or.inr (by rw [hz, hy, mqttSetDup_twice])
  path := fun ht => (h.path ht).trans (h'.path ((congrArg Label.msgType h.label).trans ht))

theorem of_turn {noted : Prop} (h : x.Turn v5 noted y) : x.Follows v5 y := by
  refine ⟨h.label, ?_, fun ht => ?_⟩
  · cases h with
    | repeated hr => exact Or.inr rfl
    | requeued hv hp =>
      unfold OutboxItem.requeued
      dsimp only
      split
      · exact Or.inr rfl
      · exact Or.inl rfl
    | _ => exact Or.inl rfl
  · cases h with
    | kept => exact .refl
    | sent tick hz hp hn =>
      rw [hp]
      exact .single .sent
    | requested tick hz hnot => exact absurd ht hnot
    | received => exact .single (.received _)
    | repeated hr => exact .refl
    | requeued hv hp =>
      rw [hp]
      exact .single (.requeued hv)

end OutboxItem.Follows

/-! The marks of the outbox. -/

namespace Outbox
variable {o : Outbox} {n calls : ℕ}

/-- The DUP bit set in the copy of `x` is set in no other. -/
theorem setDupOwn_mem (hn : Neat o.labels n calls) {x : OutboxItem} (hx : x ∈ o.list) {y : OutboxItem}
    (hy : y ∈ (o.setDup x.handle).list) :
    y = {x with buffer := mqttSetDup x.buffer} ∨ y ∈ o.list ∧ y.handle ≠ x.handle := by
  have hnodup := handles_of_neat hn
  -- the first packet at that address is `x`
  have hfound : o.list.find? (fun i => i.handle == x.handle) = some x := by
    cases h : o.list.find? (fun i => i.handle == x.handle) with
    | none =>
      have hnone := List.find?_eq_none.mp h x hx
      exact absurd (beq_self_eq_true x.handle) hnone
    | some z =>
      have hz : z.handle = x.handle := by simpa using List.find?_some h
      rw [List.inj_on_of_nodup_map hnodup (List.mem_of_find?_eq_some h) hx hz]
  obtain ⟨l₁,l₂,hl,hmod⟩ := modifyFirst_split hfound
  rw [hl] at hnodup
  unfold setDup at hy
  rw [hmod] at hy
  have hother (h : y ∈ l₁ ++ l₂) : y ∈ o.list ∧ y.handle ≠ x.handle := by
    have hone := KeyedList.missing_append hnodup
    have hmem : x ∈ KeyedList.missing OutboxItem.handle (l₁ ++ x :: l₂) (l₁ ++ l₂) := by
      rw [hone]
      exact List.mem_singleton_self x
    refine ⟨?_, (KeyedList.mem_missing.mp hmem).2 y h⟩
    rw [hl]
    exact (List.sublist_cons_self x l₂).append_left l₁ |>.subset h
  rcases List.mem_append.mp hy with hy | hy
  · exact Or.inr (hother (List.mem_append_left _ hy))
  · rcases List.mem_cons.mp hy with hy | hy
    · exact Or.inl hy
    · exact Or.inr (hother (List.mem_append_right _ hy))

/-- One round of the loop: the packet found is queued again, the others stay. -/
theorem requeueRound_mem (hn : Neat o.labels n calls) (hids : o.idsInUse.Nodup) {x : OutboxItem}
    (hx : x ∈ o.list) (hz : x.msgId ≠ 0) (hp : x.pending = .transmitted) {u : Outbox}
    (hu : u = if x.msgType = some .publish ∧ 0 < x.msgQos then o.setDup x.handle else o) :
    u.labels = o.labels ∧ (u.get x.msgId).isSome ∧
      ∀ y ∈ (u.setPending x.msgId .queued).list, y = x.requeued ∨ y ∈ o.list := by
  have hlabels : u.labels = o.labels := by
    rw [hu]
    split
    · exact o.setDup_labels x.handle
    · rfl
  have hnu : Neat u.labels n calls := hlabels ▸ hn
  have hidsu : u.idsInUse.Nodup := by
    rw [idsInUse_eq, hlabels, ← idsInUse_eq]
    exact hids
  have hkind : x.isRepeat = true ↔ x.msgType = some .publish ∧ 0 < x.msgQos := by
    unfold OutboxItem.isRepeat
    rw [hp]
    simp
  -- what `x` has become, and what the others are
  obtain ⟨x',hx',hid',hp',hreq,hothers⟩ : ∃ x' ∈ u.list, x'.msgId = x.msgId ∧
      x'.pending = .transmitted ∧ {x' with pending := .queued} = x.requeued ∧ ∀ y ∈ u.list, y.msgId ≠ x.msgId → y ∈ o.list := by
    unfold OutboxItem.requeued
    by_cases hdup : x.msgType = some .publish ∧ 0 < x.msgQos
    · rw [if_pos hdup] at hu
      rw [if_pos (hkind.mpr hdup)]
      have hmem : x.label ∈ u.labels := hlabels ▸ List.mem_map_of_mem hx
      obtain ⟨x',hx',heq⟩ := List.mem_map.mp hmem
      have hsame : x' = {x with buffer := mqttSetDup x.buffer} := by
        rw [hu] at hx'
        apply (setDupOwn_mem hn hx hx').resolve_right
        exact fun h => h.2 (congrArg Label.handle heq)
      subst hsame
      refine ⟨_, hx', rfl, hp, rfl, fun y hy hne => ?_⟩
      rw [hu] at hy
      rcases setDupOwn_mem hn hx hy with rfl | ⟨hold,-⟩
      · exact absurd rfl hne
      · exact hold
    · rw [if_neg hdup] at hu
      rw [if_neg fun h => hdup (hkind.mp h)]
      exact ⟨x, hu ▸ hx, rfl, hp, rfl, fun y hy _ => hu ▸ hy⟩
  rw [← hid'] at hz ⊢
  refine ⟨hlabels, (requeue_step hnu hidsu hx' hz hp').1, fun y hy => ?_⟩
  rcases modifyOwn_mem hnu hidsu hx' hz _ hy with rfl | ⟨hold,hne⟩
  · exact Or.inl hreq
  · exact Or.inr (hothers y hold (hid' ▸ hne))

/-- The loop over the transmitted packets queues some of them again and leaves the rest alone. -/
theorem mem_requeueLoop (k : ℕ) {o : Outbox} (hn : Neat o.labels n calls)
    (hids : o.idsInUse.Nodup) (hz : ∀ x ∈ o.list, x.pending = .transmitted → x.msgId ≠ 0)
    {y : OutboxItem} (hy : y ∈ (requeueLoop k o).list) :
    ∃ x ∈ o.list, y = x ∨ x.pending = .transmitted ∧ y = x.requeued := by
  induction k generalizing o with
  | zero => exact ⟨y, hy, Or.inl rfl⟩
  | succ k ih =>
    unfold requeueLoop at hy
    cases hd : o.dequeue .transmitted with
    | none =>
      rw [hd] at hy
      exact ⟨y, hy, Or.inl rfl⟩
    | some x =>
      rw [hd] at hy
      have hx : x ∈ o.list := List.mem_of_find?_eq_some hd
      have hp : x.pending = .transmitted := by simpa using List.find?_some hd
      dsimp only at hy
      generalize hu : (if x.msgType = some .publish ∧ 0 < x.msgQos then o.setDup x.handle else o) = u at hy
      obtain ⟨hlabels,hget,hround⟩ := requeueRound_mem hn hids hx (hz x hx hp) hp hu.symm
      obtain ⟨g,hg⟩ := Option.isSome_iff_exists.mp hget
      rw [hg] at hy
      dsimp only at hy
      have hmark : (u.setPending x.msgId .queued).labels = o.labels :=
        (u.setPending_labels x.msgId .queued).trans hlabels
      have hids' : (u.setPending x.msgId .queued).idsInUse.Nodup := by
        rw [idsInUse_eq, hmark, ← idsInUse_eq]
        exact hids
      have hz' : ∀ v ∈ (u.setPending x.msgId .queued).list, v.pending = .transmitted → v.msgId ≠ 0 := by
        intro v hv hvp
        rcases hround v hv with rfl | hold
        · exact absurd hvp (by decide : PendingState.queued ≠ .transmitted)
        · exact hz v hold hvp
      obtain ⟨v,hv,hvy⟩ := ih (hmark ▸ hn) hids' hz' hy
      -- what this round has queued is left alone by the others
      rcases hround v hv with rfl | hold
      · rcases hvy with rfl | ⟨hvp,-⟩
        · exact ⟨x, hx, Or.inr ⟨hp, rfl⟩⟩
        · exact absurd hvp (by decide : PendingState.queued ≠ .transmitted)
      · exact ⟨v, hold, hvy⟩

end Outbox

namespace Ledger
variable {v5 : Prop} {L L' : Ledger}

/-- No identifier is drawn twice, and `v5` if the client is ever told to speak it. -/
structure Tame (v5 : Prop) (L : Ledger) : Prop where
  fresh : L.FreshIds
  version : ∀ s ∈ L.configured, s.information.protocolVer = .v5 → v5

theorem Tame.before (hm : Move L L') (h : L'.Tame v5) : L.Tame v5 := by
  refine ⟨h.fresh.before hm, ?_⟩
  cases hm with
  | task hm =>
    cases hm with
    | api hm =>
      cases hm with
      | setConfig s => exact fun t ht => h.version t (List.mem_cons_of_mem _ ht)
      | _ => exact h.version
    | _ => exact h.version
  | _ => exact h.version

theorem Tame.before_moves (hm : ReflTransGen Move L L') (h : L'.Tame v5) : L.Tame v5 := by
  induction hm with
  | refl => exact h
  | tail _ hm ih => exact ih (h.before hm)

/-- Addresses, calls and what is stored only grow. -/
theorem move_grows (hm : Move L L') : L.outbox.nextHandle ≤ L'.outbox.nextHandle ∧ L.calls ≤ L'.calls ∧
    L.stored ⊆ L'.stored := by
  rcases move_labels hm with hs | ⟨x,hx⟩
  · exact ⟨Nat.le_of_eq hs.nextHandle.symm, hs.calls, hs.stored ▸ List.Subset.refl _⟩
  · rw [hx.nextHandle, hx.calls, hx.stored]
    exact ⟨Nat.le_succ _, Nat.le_succ _, List.subset_cons_self _ _⟩

/-- Every call stores one packet at most. -/
def SeparateCalls (L : Ledger) : Prop :=
  (L.stored.map fun p => p.1.origin.call).Nodup ∧ ∀ p ∈ L.stored, p.1.origin.call ≤ L.calls

theorem SeparateCalls.move (hm : Move L L') (h : L.SeparateCalls) : L'.SeparateCalls := by
  unfold SeparateCalls at h ⊢
  rcases move_labels hm with hs | ⟨x,hx⟩
  · rw [hs.stored]
    exact ⟨h.1, fun p hp => (h.2 p hp).trans hs.calls⟩
  · rw [hx.stored, hx.calls, List.map_cons, List.nodup_cons]
    refine ⟨⟨fun hmem => ?_, h.1⟩, fun p hp => ?_⟩
    · obtain ⟨p,hp,heq⟩ := List.mem_map.mp hmem
      have hle := h.2 p hp
      rw [heq, hx.fresh.call] at hle
      exact absurd hle (Nat.not_succ_le_self _)
    · rcases List.mem_cons.mp hp with rfl | hp
      · exact Nat.le_of_eq hx.fresh.call
      · exact (h.2 p hp).trans (Nat.le_succ _)

/-- The packet of this call has been sent whole. -/
def SentBefore (L : Ledger) (call : ℕ) : Prop := ∃ msgId, Traffic.sent call msgId ∈ L.traffic

/-- A packet that this entry has stored. -/
structure Newcomer (L L' : Ledger) (y : OutboxItem) : Prop where
  handle : L.outbox.nextHandle ≤ y.handle
  call : L.calls < y.origin.call
  stored : ∃ p ∈ L'.stored, p.1.label = y.label ∧ p.1.buffer = y.buffer
  first : y.isRepeat = false
  numbered : y.pending = .transmitted → y.msgId ≠ 0

/-- Every packet of `L'` is new, or one of `L` and what this entry does to it. -/
def Turns (v5 : Prop) (L L' : Ledger) : Prop :=
  ∀ y ∈ L'.outbox.list, Newcomer L L' y ∨ ∃ x ∈ L.outbox.list, x.Turn v5 (L'.SentBefore x.origin.call) y

theorem turns_subset (h : L'.outbox.list ⊆ L.outbox.list) : L.Turns v5 L' :=
  fun y hy => Or.inr ⟨y, h hy, .kept y⟩

theorem aborted_turns (L : Ledger) : L.Turns v5 L.aborted :=
  turns_subset (aborted_sublist L).subset

/-- A packet at the end. -/
theorem store_turns {x : OutboxItem} (hx : L.Fresh x) {y : OutboxItem} (hy : y ∈ (L.store x).outbox.list)
    (hstored : L'.stored = (L.store x).stored) :
    Newcomer L L' y ∨ ∃ x ∈ L.outbox.list, x.Turn v5 (L'.SentBefore x.origin.call) y := by
  rcases List.mem_append.mp hy with hy | hy
  · exact Or.inr ⟨y, hy, .kept y⟩
  · left
    rw [List.mem_singleton.mp hy]
    refine ⟨Nat.le_of_eq hx.handle.symm, Nat.lt_of_succ_le (Nat.le_of_eq hx.call.symm), ?_, ?_, fun hp => ?_⟩
    · rw [hstored]
      exact ⟨_, List.mem_cons_self, rfl, rfl⟩
    · unfold OutboxItem.isRepeat
      rw [hx.pending]
      simp
    · rw [hx.pending] at hp
      exact absurd hp (by decide)

theorem typed_numbered (hn : L.Neat) {x : OutboxItem} (hx : x ∈ L.outbox.list)
    (h : x.msgType = some .publish → 0 < x.msgQos) : x.msgId ≠ 0 := by
  rcases hn.typed x.label (List.mem_map_of_mem hx) with ⟨ht,hid⟩ | ⟨-,-,hid⟩
  · exact fun hz => absurd (hid.mp hz) (Nat.pos_iff_ne_zero.mp (h ht))
  · exact hid

theorem apiMove_turns (hm : ApiMove L L') (hn : L.Neat) (hids : L.outbox.idsInUse.Nodup)
    (hn' : L'.Neat) (hids' : L'.outbox.idsInUse.Nodup) : L.Turns v5 L' := by
  cases hm with
  | abort hs => exact aborted_turns L
  | publish x hx ht hid => exact fun y hy => store_turns hx hy rfl
  | request x hx ht hq hid =>
    intro y hy
    -- the mark is on the new packet, whose identifier no other has
    have hlabels := (L.store x).outbox.setPending_labels x.msgId .transmitted
    have hstored : EspMqtt.Neat (L.store x).outbox.labels (L.outbox.nextHandle+1) (L.calls+1) :=
      hlabels ▸ hn'
    have hdistinct : (L.store x).outbox.idsInUse.Nodup := by
      rw [Outbox.idsInUse_eq, ← hlabels, ← Outbox.idsInUse_eq]
      exact hids'
    have hlast : x ∈ (L.store x).outbox.list := List.mem_append_right _ (List.mem_singleton_self x)
    rcases Outbox.modifyOwn_mem hstored hdistinct hlast hid _ hy with rfl | ⟨hold,-⟩
    · left
      refine ⟨Nat.le_of_eq hx.handle.symm, Nat.lt_of_succ_le (Nat.le_of_eq hx.call.symm),
        ⟨_, List.mem_cons_self, rfl, rfl⟩, ?_, fun _ => hid⟩
      unfold OutboxItem.isRepeat
      rcases ht with ht | ht <;> simp [ht]
    · exact store_turns hx hold rfl
  | published x tick hx hp ht hq hs hquota =>
    intro y hy
    right
    have hz := typed_numbered hn hx fun _ => hq
    rcases Outbox.marked_mem hn hids hx hz tick .transmitted hy with rfl | ⟨hold,-⟩
    · exact ⟨x, hx, .sent x tick hz hp ⟨x.msgId, List.mem_cons_self⟩⟩
    · exact ⟨y, hold, .kept y⟩
  | _ => exact turns_subset (List.Subset.refl _)

theorem taskMove_turns (hm : TaskMove L L') (hn : L.Neat) (hids : L.outbox.idsInUse.Nodup)
    (hn' : L'.Neat) (hids' : L'.outbox.idsInUse.Nodup) : L.Turns v5 L' := by
  cases hm with
  | api hm => exact apiMove_turns hm hn hids hn' hids'
  | finished x e hs hx he => exact turns_subset (removeFirst_sublist _ _).subset
  | answered type x e ht hx he => exact turns_subset (removeFirst_sublist _ _).subset
  | unreported x stray hx => exact turns_subset (removeFirst_sublist _ _).subset
  | acknowledged msgId =>
    intro y hy
    right
    rcases Outbox.mem_modifyFirst hy with hold | ⟨x,hx,rfl⟩
    · exact ⟨y, hold, .kept y⟩
    · exact ⟨x, hx, .received x⟩
  | dup handle hrepeat =>
    obtain ⟨x,hx,rfl,hr⟩ := hrepeat
    intro y hy
    right
    rcases Outbox.setDupOwn_mem hn hx hy with rfl | ⟨hold,-⟩
    · exact ⟨x, hx, .repeated x hr⟩
    · exact ⟨y, hold, .kept y⟩
  | expired p x e hx he hid => exact turns_subset (removeFirst_sublist _ _).subset
  | expiredAll p hr => exact turns_subset List.filter_sublist.subset
  | sentQos0 x hx ht hq hw => exact turns_subset (removeFirst_sublist _ _).subset
  | sentRequest x tick hx ht =>
    intro y hy
    right
    have hz := typed_numbered hn hx fun h => absurd h ht
    rcases Outbox.marked_mem hn hids hx hz tick .transmitted hy with rfl | ⟨hold,-⟩
    · exact ⟨x, hx, .requested x tick hz ht⟩
    · exact ⟨y, hold, .kept y⟩
  | _ => exact turns_subset (List.Subset.refl _)

/-- What holds along a tame run. -/
structure Traced (v5 : Prop) (L : Ledger) : Prop where
  neat : L.Neat
  ids : L.outbox.idsInUse.Nodup
  version : L.isV5 = true → v5
  numbered : ∀ x ∈ L.outbox.list, x.pending = .transmitted → x.msgId ≠ 0
  conserved : L.Conserved
  calls : L.SeparateCalls

theorem move_turns (hm : Move L L') (h : L.Traced v5) (hn' : L'.Neat)
    (hids' : L'.outbox.idsInUse.Nodup) : L.Turns v5 L' := by
  cases hm with
  | task hm => exact taskMove_turns hm h.neat h.ids hn' hids'
  | abort => exact aborted_turns L
  | opened receiveMaximum hr hv =>
    intro y hy
    right
    obtain ⟨x,hx,rfl | ⟨hp,rfl⟩⟩ := Outbox.mem_requeueLoop _ h.neat h.ids h.numbered hy
    · exact ⟨y, hx, .kept y⟩
    · exact ⟨x, hx, .requeued x (h.version hv) hp⟩
  | exits => exact turns_subset List.filter_sublist.subset
  | _ => exact turns_subset (List.Subset.refl _)

theorem move_version (hm : Move L L') (ht : L'.Tame v5) (h : L.isV5 = true → v5) : L'.isV5 = true → v5 := by
  cases hm with
  | task hm =>
    cases hm with
    | api hm =>
      cases hm with
      | setConfig s => exact fun hv => ht.version s List.mem_cons_self (by simpa using hv)
      | _ => exact h
    | _ => exact h
  | _ => exact h

theorem move_traced (hm : Move L L') (ht : L'.Tame v5) (h : L.Traced v5) : L'.Traced v5 := by
  have hn' := move_neat hm h.neat
  have hids' := move_ids hm ht.fresh h.ids
  refine ⟨hn', hids', move_version hm ht h.version, fun y hy hp => ?_, move_conserved hm h.neat h.conserved,
    h.calls.move hm⟩
  rcases move_turns hm h hn' hids' y hy with hnew | ⟨x,hx,hturn⟩
  · exact hnew.numbered hp
  · cases hturn with
    | kept => exact h.numbered y hx hp
    | sent tick hz hq hn => exact hz
    | requested tick hz ht => exact hz
    | received => exact absurd hp (by decide : PendingState.acknowledged ≠ .transmitted)
    | repeated hr => exact h.numbered x hx hp
    | requeued hv hq => exact absurd hp (by decide : PendingState.queued ≠ .transmitted)

namespace Traced
variable {x y : OutboxItem}

theorem stored_label (h : L.Traced v5) (hx : x ∈ L.outbox.list) : ∃ p ∈ L.stored, p.1.label = x.label := by
  have hmem : x.label ∈ L.stored.map fun p => p.1.label :=
    h.conserved.mem_iff.mpr (List.mem_append_left _ (List.mem_map_of_mem hx))
  exact List.mem_map.mp hmem

/-- What was stored by one call is one packet. -/
theorem stored_eq (h : L.Traced v5) {p q : OutboxItem × List ℕ} (hp : p ∈ L.stored) (hq : q ∈ L.stored)
    (hcall : q.1.origin.call = p.1.origin.call) : q = p :=
  List.inj_on_of_nodup_map h.calls.1 hq hp hcall

/-- So is what it left in the outbox. -/
theorem eq_of_call (h : L.Traced v5) (hx : x ∈ L.outbox.list) (hy : y ∈ L.outbox.list)
    (hcall : y.origin.call = x.origin.call) : y = x := by
  obtain ⟨p,hp,hpx⟩ := h.stored_label hx
  obtain ⟨q,hq,hqy⟩ := h.stored_label hy
  have hsame : q.1.origin.call = p.1.origin.call := by
    calc q.1.origin.call = y.origin.call := congrArg (fun a => a.origin.call) hqy
      _ = x.origin.call := hcall
      _ = p.1.origin.call := (congrArg (fun a => a.origin.call) hpx).symm
  apply Outbox.eq_of_label h.neat hx hy
  rw [← hqy, h.stored_eq hp hq hsame, hpx]

end Traced

/-! From one point of a run to a later one. -/

/-- The books of a tame run at `L`, which were at `L₀` before. -/
structure Since (v5 : Prop) (L₀ L : Ledger) : Prop where
  traced : L.Traced v5
  nextHandle : L₀.outbox.nextHandle ≤ L.outbox.nextHandle
  continues : ∀ y ∈ L.outbox.list, L₀.outbox.nextHandle ≤ y.handle ∨ ∃ x ∈ L₀.outbox.list, x.Follows v5 y
  stored : L₀.stored ⊆ L.stored

namespace Since
variable {L₀ : Ledger} {x y : OutboxItem}

theorem refl (h : L.Traced v5) : L.Since v5 L :=
  ⟨h, Nat.le_refl _, fun y hy => Or.inr ⟨y, hy, .refl v5 y⟩, List.Subset.refl _⟩

theorem move (hm : Move L L') (ht : L'.Tame v5) (h : L₀.Since v5 L) : L₀.Since v5 L' := by
  have htraced := move_traced hm ht h.traced
  obtain ⟨hnext,-,hstored⟩ := move_grows hm
  refine ⟨htraced, h.nextHandle.trans hnext, fun y hy => ?_, List.Subset.trans h.stored hstored⟩
  rcases move_turns hm h.traced htraced.neat htraced.ids y hy with hnew | ⟨x,hx,hturn⟩
  · exact Or.inl (h.nextHandle.trans hnew.handle)
  · have hfollows := OutboxItem.Follows.of_turn hturn
    rcases h.continues x hx with hnew | ⟨u,hu,hux⟩
    · left
      rw [show y.handle = x.handle from congrArg Label.handle hfollows.label]
      exact hnew
    · exact Or.inr ⟨u, hu, hux.trans hfollows⟩

/-- A packet that is still there, by its label, is what has become of it. -/
theorem follows (h : L₀.Since v5 L) (h₀ : L₀.Traced v5) (hx : x ∈ L₀.outbox.list)
    (hy : y ∈ L.outbox.list) (hlabel : y.label = x.label) : x.Follows v5 y := by
  rcases h.continues y hy with hnew | ⟨u,hu,huy⟩
  · -- an older address
    have hlt : x.handle < L₀.outbox.nextHandle := h₀.neat.below x.label (List.mem_map_of_mem hx)
    rw [← show y.handle = x.handle from congrArg Label.handle hlabel] at hlt
    exact absurd hnew (Nat.not_le_of_lt hlt)
  · have hux : u = x := Outbox.eq_of_label h₀.neat hx hu (huy.label.symm.trans hlabel)
    exact hux ▸ huy

/-- A packet of `L₀` is still there, or it has left. -/
theorem outcome (h : L₀.Since v5 L) (h₀ : L₀.Traced v5) (hx : x ∈ L₀.outbox.list) :
    (∃ y ∈ L.outbox.list, x.Follows v5 y) ∨ ∃ d ∈ L.gone, d.item.label = x.label := by
  obtain ⟨p,hp,hlabel⟩ := h₀.stored_label hx
  have hmem : x.label ∈ L.outbox.labels ++ L.gone.map fun d => d.item.label := by
    apply h.traced.conserved.mem_iff.mp
    rw [← hlabel]
    exact List.mem_map_of_mem (h.stored hp)
  rcases List.mem_append.mp hmem with hstill | hgone
  · obtain ⟨y,hy,heq⟩ := List.mem_map.mp hstill
    exact Or.inl ⟨y, hy, h.follows h₀ hx hy heq⟩
  · exact Or.inr (List.mem_map.mp hgone)

/-- The packet of a call is the only one of that call, at any time. -/
theorem same_call (h : L₀.Since v5 L) (h₀ : L₀.Traced v5) (hx : x ∈ L₀.outbox.list)
    (hy : y ∈ L.outbox.list) (hcall : y.origin.call = x.origin.call) : y.label = x.label := by
  obtain ⟨p,hp,hpx⟩ := h₀.stored_label hx
  obtain ⟨q,hq,hqy⟩ := h.traced.stored_label hy
  have hsame : q.1.origin.call = p.1.origin.call := by
    calc q.1.origin.call = y.origin.call := congrArg (fun a => a.origin.call) hqy
      _ = x.origin.call := hcall
      _ = p.1.origin.call := (congrArg (fun a => a.origin.call) hpx).symm
  rw [← hqy, h.traced.stored_eq (h.stored hp) hq hsame, hpx]

end Since

end Ledger

/-! Runs. -/

/-- The client is told to speak v5, when it is made or later. -/
def World.SpeaksV5 (s : Settings) (w : World) : Prop :=
  s.information.protocolVer = .v5 ∨ ∃ t ∈ w.marks.filterMap Mark.settings, t.information.protocolVer = .v5

/-- A part of a run is followed by the entries of the rest. -/
theorem run_moves_append (s : Settings) (incremental : Bool) (e : Environment) (n : ℕ)
    (ss ss' : List ClientStep) : ReflTransGen Move (clientRun s incremental e n ss).ledger
      (clientRun s incremental e n (ss ++ ss')).ledger := by
  rw [clientRun_append]
  exact steps_induction (handlerAt n) (fun w => ReflTransGen Move _ w.ledger)
    (fun w st h => h.trans (step_moves (handlerAt_calls n) w st)) ss' _ .refl

theorem init_traced (s : Settings) (incremental : Bool) (e : Environment) {v5 : Prop}
    (hinit : s.information.protocolVer = .v5 → v5) : (clientInit s incremental e).ledger.Traced v5 := by
  refine ⟨run_neat s incremental e 0 [], List.nodup_nil, fun hv => hinit (beq_iff_eq.mp hv), ?_,
    List.Perm.nil, List.nodup_nil, ?_⟩
  · exact fun x hx => absurd hx List.not_mem_nil
  · exact fun p hp => absurd hp List.not_mem_nil

theorem run_traced (s : Settings) (incremental : Bool) (e : Environment) (n : ℕ) (ss : List ClientStep)
    {v5 : Prop} (hinit : s.information.protocolVer = .v5 → v5)
    (htame : (clientRun s incremental e n ss).ledger.Tame v5) :
    (clientRun s incremental e n ss).ledger.Traced v5 :=
  moves_induction (P := fun L => L.Tame v5 → L.Traced v5)
    (fun _ _ hm ih ht => move_traced hm ht (ih (ht.before hm))) (run_moves s incremental e n ss)
    (fun _ => init_traced s incremental e hinit) htame

/-- The whole run and a part of it. -/
theorem run_since (s : Settings) (incremental : Bool) (e : Environment) (n : ℕ) (ss ss' : List ClientStep)
    {v5 : Prop} (hinit : s.information.protocolVer = .v5 → v5)
    (htame : (clientRun s incremental e n (ss ++ ss')).ledger.Tame v5) :
    (clientRun s incremental e n ss).ledger.Since v5 (clientRun s incremental e n (ss ++ ss')).ledger := by
  have hmoves := run_moves_append s incremental e n ss ss'
  have htraced := run_traced s incremental e n ss hinit (htame.before_moves hmoves)
  exact moves_induction (P := fun L => L.Tame v5 → (clientRun s incremental e n ss).ledger.Since v5 L)
    (fun _ _ hm ih ht => (ih (ht.before hm)).move hm ht) hmoves (fun _ => .refl htraced) htame

/-- A stored PUBLISH at any later point of a run whose identifiers are distinct: it is still stored, with
the same identifier and bytes but for the DUP bit and in a state its old one leads to, or it has left. -/
theorem stored_publish_continues (s : Settings) (incremental : Bool) (e : Environment) (n : ℕ)
    (ss ss' : List ClientStep) (hfresh : ∀ p ∈ (clientRun s incremental e n (ss ++ ss')).stored,
      p.1.isHandshake = true → p.1.msgId ∉ p.2)
    (x : OutboxItem) (hx : x ∈ (clientRun s incremental e n ss).outbox.list)
    (ht : x.msgType = some .publish) :
    (∃ y ∈ (clientRun s incremental e n (ss ++ ss')).outbox.list, y.label = x.label ∧
      (y.buffer = x.buffer ∨ y.buffer = mqttSetDup x.buffer) ∧
      ReflTransGen (PendingState.Next ((clientRun s incremental e n (ss ++ ss')).SpeaksV5 s))
        x.pending y.pending) ∨
    ∃ d ∈ (clientRun s incremental e n (ss ++ ss')).gone, d.item.label = x.label := by
  have htame : (clientRun s incremental e n (ss ++ ss')).ledger.Tame
      ((clientRun s incremental e n (ss ++ ss')).SpeaksV5 s) := ⟨hfresh, fun t ht hv => Or.inr ⟨t, ht, hv⟩⟩
  have htraced := run_traced s incremental e n ss Or.inl
    (htame.before_moves (run_moves_append s incremental e n ss ss'))
  apply ((run_since s incremental e n ss ss' Or.inl htame).outcome htraced hx).imp_left
  rintro ⟨y,hy,hfollows⟩
  exact ⟨y, hy, hfollows.label, hfollows.copy, hfollows.path ht⟩

/-- A QoS 2 message as it is stored. -/
def receivedItem (pending : PendingState) : OutboxItem :=
  ⟨0, [0x34, 6, 0, 1, 0x74, 0, 7, 0x78], 7, some .publish, 2, 0, pending, ⟨1, 1, false⟩⟩

theorem stored_publish_continues_received :
    ∃ y ∈ (clientRun smallSettings false (brokerSending [0x50, 2, 0, 7]) 0
        (connectSteps ++ publishQos 2 ++ passSteps)).outbox.list,
      y.label = (receivedItem .transmitted).label ∧
      ReflTransGen (PendingState.Next ((clientRun smallSettings false (brokerSending [0x50, 2, 0, 7]) 0
        (connectSteps ++ publishQos 2 ++ passSteps)).SpeaksV5 smallSettings)) .transmitted y.pending := by
  rcases stored_publish_continues smallSettings false (brokerSending [0x50, 2, 0, 7]) 0
    (connectSteps ++ publishQos 2) passSteps (by decide +kernel) (receivedItem .transmitted)
    (by decide +kernel) rfl with ⟨y,hy,hlabel,-,hpath⟩ | ⟨d,hd,-⟩
  · exact ⟨y, hy, hlabel, hpath⟩
  · have hgone : (clientRun smallSettings false (brokerSending [0x50, 2, 0, 7]) 0
        (connectSteps ++ publishQos 2 ++ passSteps)).gone = [] := by decide +kernel
    rw [hgone] at hd
    exact absurd hd List.not_mem_nil

end EspMqtt
