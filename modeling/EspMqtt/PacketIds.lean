import EspMqtt.LedgerTask

/-! The packets in the outbox are told apart by their addresses, and by their
packet identifiers as long as no identifier is drawn twice. -/
namespace EspMqtt
open World Ledger Relation

/-- What stays with a stored packet as long as it is stored. -/
structure Label where
  handle : ℕ
  msgId : ℕ
  msgType : Option MsgType
  msgQos : ℕ
  origin : Provenance
  empty : Bool
  deriving DecidableEq

def OutboxItem.label (x : OutboxItem) : Label :=
  ⟨x.handle, x.msgId, x.msgType, x.msgQos, x.origin, x.buffer.isEmpty⟩

def Label.isHandshake (a : Label) : Bool :=
  a.msgType == some .subscribe || a.msgType == some .unsubscribe ||
    a.msgType == some .publish && decide (0 < a.msgQos)

namespace Outbox

def labels (o : Outbox) : List Label := o.list.map OutboxItem.label

theorem idsInUse_eq (o : Outbox) :
    o.idsInUse = (o.labels.filter Label.isHandshake).map Label.msgId := by
  unfold idsInUse labels
  rw [List.filter_map, List.map_map]
  rfl

/-- Changing the first match changes no label. -/
theorem modifyFirst_labels (o : Outbox) (p : OutboxItem → Bool) {f : OutboxItem → OutboxItem}
    (hf : ∀ x, (f x).label = x.label) : (o.modifyFirst p f).labels = o.labels := by
  have hgo (l : List OutboxItem) :
      (modifyFirst.go p f l).map OutboxItem.label = l.map OutboxItem.label := by
    induction l with
    | nil => rfl
    | cons y l ih =>
      unfold modifyFirst.go
      split
      · rw [List.map_cons, List.map_cons, hf]
      · rw [List.map_cons, List.map_cons, ih]
  exact hgo o.list

theorem setPending_labels (o : Outbox) (msgId : ℕ) (pending : PendingState) :
    (o.setPending msgId pending).labels = o.labels := modifyFirst_labels o _ fun _ => rfl

theorem setTick_labels (o : Outbox) (msgId tick : ℕ) : (o.setTick msgId tick).labels = o.labels :=
  modifyFirst_labels o _ fun _ => rfl

theorem setDup_labels (o : Outbox) (handle : ℕ) : (o.setDup handle).labels = o.labels := by
  apply modifyFirst_labels
  intro x
  have hempty : (mqttSetDup x.buffer).isEmpty = x.buffer.isEmpty := by
    cases x.buffer <;> rfl
  unfold OutboxItem.label
  rw [hempty]

theorem removeFirst_labels (o : Outbox) (p : OutboxItem → Bool) :
    (o.removeFirst p).2.labels.Sublist o.labels := by
  unfold removeFirst labels
  split
  · exact List.eraseP_sublist.map _
  · exact List.Sublist.refl _

theorem removeAll_labels (o : Outbox) (p : OutboxItem → Bool) :
    (o.removeAll p).labels.Sublist o.labels := List.filter_sublist.map _

theorem removeFirst_nextHandle (o : Outbox) (p : OutboxItem → Bool) :
    (o.removeFirst p).2.nextHandle = o.nextHandle := by
  unfold removeFirst
  split <;> rfl

end Outbox

/-- Requeueing moves no packet. -/
theorem requeueLoop_labels (k : ℕ) (o : Outbox) :
    (requeueLoop k o).labels = o.labels ∧ (requeueLoop k o).nextHandle = o.nextHandle := by
  induction k generalizing o with
  | zero => exact ⟨rfl,rfl⟩
  | succ k ih =>
    unfold requeueLoop
    split
    · exact ⟨rfl,rfl⟩
    · rename_i x _
      extract_lets +onlyGivenNames u
      have hu : u.labels = o.labels ∧ u.nextHandle = o.nextHandle := by
        dsimp only [u]
        split
        · exact ⟨o.setDup_labels x.handle, rfl⟩
        · exact ⟨rfl,rfl⟩
      clear_value u
      split
      · exact hu
      · obtain ⟨h1,h2⟩ := ih (u.setPending x.msgId .queued)
        exact ⟨h1.trans ((u.setPending_labels _ _).trans hu.1), h2.trans hu.2⟩

/-- An identifier goes with a packet that awaits an answer, and with no other. -/
def Label.Typed (a : Label) : Prop :=
  (a.msgType = some .publish ∧ (a.msgId = 0 ↔ a.msgQos = 0)) ∨
  ((a.msgType = some .subscribe ∨ a.msgType = some .unsubscribe) ∧ a.msgQos = 0 ∧ a.msgId ≠ 0)

theorem Label.Typed.isHandshake_iff {a : Label} (h : a.Typed) : a.isHandshake = true ↔ a.msgId ≠ 0 := by
  unfold Label.isHandshake
  rcases h with ⟨ht,hid⟩ | ⟨ht | ht,-,hid⟩
  · rw [ht, ne_eq, hid]
    simp [Nat.pos_iff_ne_zero]
  · simp [ht, hid]
  · simp [ht, hid]

/-- The packets in an outbox: told apart by their addresses, and none of them empty. -/
structure Neat (l : List Label) (nextHandle calls : ℕ) : Prop where
  handles : (l.map Label.handle).Nodup
  below : ∀ a ∈ l, a.handle < nextHandle
  calls : ∀ a ∈ l, a.origin.call ≤ calls
  typed : ∀ a ∈ l, a.Typed
  full : ∀ a ∈ l, a.empty = false

theorem Neat.sublist {l l' : List Label} {n calls calls' : ℕ} (h : Neat l n calls) (hl : l'.Sublist l)
    (hc : calls ≤ calls') : Neat l' n calls' where
  handles := h.handles.sublist (hl.map _)
  below a ha := h.below a (hl.subset ha)
  calls a ha := (h.calls a (hl.subset ha)).trans hc
  typed a ha := h.typed a (hl.subset ha)
  full a ha := h.full a (hl.subset ha)

theorem Neat.append {l : List Label} {n calls : ℕ} (h : Neat l n calls) {a : Label}
    (hh : a.handle = n) (hc : a.origin.call ≤ calls+1) (ht : a.Typed) (hf : a.empty = false) :
    Neat (l ++ [a]) (n+1) (calls+1) := by
  have hmem {P : Label → Prop} (hl : ∀ b ∈ l, P b) (ha : P a) : ∀ b ∈ l ++ [a], P b := by
    intro b hb
    rcases List.mem_append.mp hb with hb | hb
    · exact hl b hb
    · exact (List.mem_singleton.mp hb) ▸ ha
  refine ⟨?_, hmem (fun b hb => (h.below b hb).trans (Nat.lt_succ_self n)) (by omega),
    hmem (fun b hb => (h.calls b hb).trans (Nat.le_succ _)) hc, hmem h.typed ht, hmem h.full hf⟩
  rw [List.map_append, List.map_singleton]
  -- the new address is above all others
  refine List.Nodup.append h.handles (List.nodup_singleton _) ?_
  intro i hi hi'
  obtain ⟨b,hb,rfl⟩ := List.mem_map.mp hi
  have hlt := h.below b hb
  rw [List.mem_singleton.mp hi', hh] at hlt
  exact absurd hlt (Nat.lt_irrefl n)

namespace Ledger

/-- An entry that stores nothing: packets stay as they are, or go. -/
structure Shrinks (L L' : Ledger) : Prop where
  labels : L'.outbox.labels.Sublist L.outbox.labels
  nextHandle : L'.outbox.nextHandle = L.outbox.nextHandle
  stored : L'.stored = L.stored
  calls : L.calls ≤ L'.calls

/-- An entry that stores `x`. -/
structure Adds (L : Ledger) (x : OutboxItem) (L' : Ledger) : Prop where
  fresh : L.Fresh x
  typed : x.label.Typed
  labels : L'.outbox.labels = L.outbox.labels ++ [x.label]
  nextHandle : L'.outbox.nextHandle = L.outbox.nextHandle+1
  stored : L'.stored = (x, L.outbox.idsInUse) :: L.stored
  calls : L'.calls = L.calls+1

theorem shrinks_of_eq {L L' : Ledger} (ho : L'.outbox = L.outbox) (hs : L'.stored = L.stored)
    (hc : L.calls ≤ L'.calls) : Shrinks L L' := by
  refine ⟨?_, by rw [ho], hs, hc⟩
  rw [ho]

/-- The packets that a step takes out. -/
theorem shrinks_outbox {L L' : Ledger} {o : Outbox} (ho : L'.outbox = o)
    (hl : o.labels.Sublist L.outbox.labels) (hn : o.nextHandle = L.outbox.nextHandle)
    (hs : L'.stored = L.stored) (hc : L.calls ≤ L'.calls) : Shrinks L L' := by
  subst ho
  exact ⟨hl, hn, hs, hc⟩

/-- The packets that a step only marks. -/
theorem shrinks_marked {L L' : Ledger} {o : Outbox} (ho : L'.outbox = o)
    (hl : o.labels = L.outbox.labels) (hn : o.nextHandle = L.outbox.nextHandle)
    (hs : L'.stored = L.stored) (hc : L.calls ≤ L'.calls) : Shrinks L L' :=
  shrinks_outbox ho (hl ▸ List.Sublist.refl _) hn hs hc

theorem aborted_shrinks (L : Ledger) : Shrinks L L.aborted := by
  have hboth : ((L.outbox.deleteMessageType .subscribe).deleteMessageType .unsubscribe).labels.Sublist
      L.outbox.labels :=
    (Outbox.removeAll_labels _ _).trans (Outbox.removeAll_labels _ _)
  cases hc : L.cleanSession with
  | true =>
    refine shrinks_outbox (o := (L.outbox.deleteMessageType .subscribe).deleteMessageType .unsubscribe)
      ?_ hboth rfl rfl (Nat.le_refl _)
    unfold aborted depart
    rw [if_pos hc]
  | false =>
    refine shrinks_of_eq ?_ rfl (Nat.le_refl _)
    unfold aborted depart
    rw [if_neg (by simp [hc])]

theorem apiMove_labels {L L' : Ledger} (h : ApiMove L L') : Shrinks L L' ∨ ∃ x, Adds L x L' := by
  have hstore (x : OutboxItem) : (L.store x).outbox.labels = L.outbox.labels ++ [x.label] :=
    List.map_append
  cases h with
  | event e he => exact Or.inl (shrinks_of_eq rfl rfl (Nat.le_refl _))
  | write c => exact Or.inl (shrinks_of_eq rfl rfl (Nat.le_refl _))
  | abort hs => exact Or.inl (aborted_shrinks L)
  | call o => exact Or.inl (shrinks_of_eq rfl rfl (Nat.le_succ _))
  | setConfig s => exact Or.inl (shrinks_of_eq rfl rfl (Nat.le_succ _))
  | publish x hx ht hid => exact Or.inr ⟨x, hx, Or.inl ⟨ht,hid⟩, hstore x, rfl, rfl, rfl⟩
  | request x hx ht hq hid =>
    refine Or.inr ⟨x, hx, Or.inr ⟨ht,hq,hid⟩, ?_, rfl, rfl, rfl⟩
    exact (Outbox.setPending_labels _ _ _).trans (hstore x)
  | published x tick hx hp ht hq hs hquota =>
    exact Or.inl (shrinks_marked rfl ((Outbox.setPending_labels _ _ _).trans
      (Outbox.setTick_labels _ _ _)) rfl rfl (Nat.le_refl _))

theorem taskMove_labels {L L' : Ledger} (h : TaskMove L L') : Shrinks L L' ∨ ∃ x, Adds L x L' := by
  cases h with
  | api h => exact apiMove_labels h
  | event e he => exact Or.inl (shrinks_of_eq rfl rfl (Nat.le_refl _))
  | origin o => exact Or.inl (shrinks_of_eq rfl rfl (Nat.le_refl _))
  | finished x e hs hx he =>
    exact Or.inl (shrinks_outbox rfl (Outbox.removeFirst_labels _ _)
      (Outbox.removeFirst_nextHandle _ _) rfl (Nat.le_refl _))
  | unknown msgId hs hx => exact Or.inl (shrinks_of_eq rfl rfl (Nat.le_refl _))
  | answered type x e ht hx he =>
    exact Or.inl (shrinks_outbox rfl (Outbox.removeFirst_labels _ _)
      (Outbox.removeFirst_nextHandle _ _) rfl (Nat.le_refl _))
  | unreported x stray hx =>
    exact Or.inl (shrinks_outbox rfl (Outbox.removeFirst_labels _ _)
      (Outbox.removeFirst_nextHandle _ _) rfl (Nat.le_refl _))
  | acknowledged msgId =>
    exact Or.inl (shrinks_marked rfl (Outbox.setPending_labels _ _ _) rfl rfl (Nat.le_refl _))
  | dup handle =>
    exact Or.inl (shrinks_marked rfl (Outbox.setDup_labels _ _) rfl rfl (Nat.le_refl _))
  | expired p x e hx he hid =>
    exact Or.inl (shrinks_outbox rfl (Outbox.removeFirst_labels _ _)
      (Outbox.removeFirst_nextHandle _ _) rfl (Nat.le_refl _))
  | expiredAll p hr =>
    exact Or.inl (shrinks_outbox rfl (Outbox.removeAll_labels _ _) rfl rfl (Nat.le_refl _))
  | sentQos0 x hx ht hq hw =>
    exact Or.inl (shrinks_outbox rfl (Outbox.removeFirst_labels _ _)
      (Outbox.removeFirst_nextHandle _ _) rfl (Nat.le_refl _))
  | sentRequest x tick hx ht =>
    exact Or.inl (shrinks_marked rfl ((Outbox.setPending_labels _ _ _).trans
      (Outbox.setTick_labels _ _ _)) rfl rfl (Nat.le_refl _))
  | resent x hx hp ht hq => exact Or.inl (shrinks_of_eq rfl rfl (Nat.le_refl _))

/-- An entry stores one packet or none. -/
theorem move_labels {L L' : Ledger} (h : Move L L') : Shrinks L L' ∨ ∃ x, Adds L x L' := by
  cases h with
  | task h => exact taskMove_labels h
  | abort => exact Or.inl (aborted_shrinks L)
  | connecting hs => exact Or.inl (shrinks_of_eq rfl rfl (Nat.le_refl _))
  | opened receiveMaximum hr hv =>
    have hq := requeueLoop_labels L.outbox.list.length L.outbox
    exact Or.inl (shrinks_marked rfl hq.1 hq.2 rfl (Nat.le_refl _))
  | openedV3 hv => exact Or.inl (shrinks_of_eq rfl rfl (Nat.le_refl _))
  | refused receiveMaximum hr hs => exact Or.inl (shrinks_of_eq rfl rfl (Nat.le_refl _))
  | moved s hs => exact Or.inl (shrinks_of_eq rfl rfl (Nat.le_refl _))
  | exits => exact Or.inl (shrinks_outbox rfl (Outbox.removeAll_labels _ _) rfl rfl (Nat.le_refl _))

/-- No identifier was drawn that a stored packet held. -/
def FreshIds (L : Ledger) : Prop :=
  ∀ p ∈ L.stored, p.1.isHandshake = true → p.1.msgId ∉ p.2

theorem FreshIds.before {L L' : Ledger} (hm : Move L L') (h : L'.FreshIds) : L.FreshIds := by
  intro p hp
  rcases move_labels hm with hs | ⟨x,hx⟩
  · exact h p (hs.stored ▸ hp)
  · exact h p (hx.stored ▸ List.mem_cons_of_mem _ hp)

def Neat (L : Ledger) : Prop := EspMqtt.Neat L.outbox.labels L.outbox.nextHandle L.calls

theorem move_neat {L L' : Ledger} (hm : Move L L') (h : L.Neat) : L'.Neat := by
  unfold Ledger.Neat at h ⊢
  rcases move_labels hm with hs | ⟨x,hx⟩
  · rw [hs.nextHandle]
    exact h.sublist hs.labels hs.calls
  · rw [hx.labels, hx.nextHandle, hx.calls]
    have hfull : x.label.empty = false := by
      simpa [OutboxItem.label] using hx.fresh.buffer
    exact h.append hx.fresh.handle (Nat.le_of_eq hx.fresh.call) hx.typed hfull

/-- The identifiers in use are distinct, and stay so when a fresh one comes in. -/
theorem move_ids {L L' : Ledger} (hm : Move L L') (hf : L'.FreshIds)
    (h : L.outbox.idsInUse.Nodup) : L'.outbox.idsInUse.Nodup := by
  rcases move_labels hm with hs | ⟨x,hx⟩
  · rw [Outbox.idsInUse_eq] at h ⊢
    exact h.sublist ((hs.labels.filter _).map _)
  · have hnew := hf (x, L.outbox.idsInUse) (hx.stored ▸ List.mem_cons_self)
    rw [Outbox.idsInUse_eq, hx.labels, List.filter_append, List.map_append,
      ← Outbox.idsInUse_eq]
    refine List.Nodup.append h ?_ ?_
    · exact (List.nodup_singleton x.label.msgId).sublist
        ((List.filter_sublist (l := [x.label])).map Label.msgId)
    · intro i hi hi'
      obtain ⟨a,ha,rfl⟩ := List.mem_map.mp hi'
      obtain ⟨hxa,hhand⟩ := List.mem_filter.mp ha
      rw [List.mem_singleton] at hxa
      subst hxa
      exact hnew hhand hi

end Ledger

theorem Outbox.handles_of_neat {o : Outbox} {n calls : ℕ} (hn : EspMqtt.Neat o.labels n calls) :
    (o.list.map OutboxItem.handle).Nodup := by
  have hnodup := hn.handles
  unfold labels at hnodup
  rw [List.map_map] at hnodup
  exact hnodup

/-- A packet that awaits an answer is the one its identifier leads to. -/
theorem Outbox.find_own {o : Outbox} {n calls : ℕ} (hn : Neat o.labels n calls)
    (hids : o.idsInUse.Nodup) {x : OutboxItem} (hx : x ∈ o.list) (hh : x.isHandshake = true)
    (p : OutboxItem → Bool) (hp : p x = true) :
    o.list.find? (fun i => i.msgId == x.msgId && p i) = some x := by
  have hself : (x.msgId == x.msgId && p x) = true := by simp [hp]
  have hsome : (o.list.find? fun i => i.msgId == x.msgId && p i).isSome :=
    List.find?_isSome.mpr ⟨x,hx,hself⟩
  obtain ⟨y,hy⟩ := Option.isSome_iff_exists.mp hsome
  have hmem : y ∈ o.list := List.mem_of_find?_eq_some hy
  have hid : y.msgId = x.msgId := by
    have hfound := List.find?_some hy
    rw [Bool.and_eq_true, beq_iff_eq] at hfound
    exact hfound.1
  have hlabel {z : OutboxItem} (hz : z ∈ o.list) : z.isHandshake = true ↔ z.msgId ≠ 0 :=
    (hn.typed z.label (List.mem_map_of_mem hz)).isHandshake_iff
  have hyh : y.isHandshake = true := by
    rw [hlabel hmem, hid]
    exact (hlabel hx).mp hh
  have heq : y = x := List.inj_on_of_nodup_map hids (List.mem_filter.mpr ⟨hmem,hyh⟩)
    (List.mem_filter.mpr ⟨hx,hh⟩) hid
  rw [hy, heq]

theorem run_neat (s : Settings) (incremental : Bool) (e : Environment) (n : ℕ)
    (ss : List ClientStep) : (clientRun s incremental e n ss).ledger.Neat :=
  moves_induction (fun _ _ => move_neat) (run_moves s incremental e n ss)
    ⟨List.nodup_nil, by simp [Outbox.labels, clientInit, World.ledger, Outbox.init],
      by simp [Outbox.labels, clientInit, World.ledger, Outbox.init],
      by simp [Outbox.labels, clientInit, World.ledger, Outbox.init],
      by simp [Outbox.labels, clientInit, World.ledger, Outbox.init]⟩

theorem run_ids (s : Settings) (incremental : Bool) (e : Environment) (n : ℕ)
    (ss : List ClientStep) (h : (clientRun s incremental e n ss).ledger.FreshIds) :
    (clientRun s incremental e n ss).outbox.idsInUse.Nodup :=
  moves_induction (P := fun L => L.FreshIds → L.outbox.idsInUse.Nodup)
    (fun _ _ hm ih hf => move_ids hm hf (ih (hf.before hm)))
    (run_moves s incremental e n ss) (fun _ => List.nodup_nil) h

/-- As long as no identifier is drawn that a stored packet holds, the
identifiers in use are distinct, none of them is 0, and each of them leads the
operations of the outbox to its own packet. -/
theorem packet_ids_unique (s : Settings) (incremental : Bool) (e : Environment) (n : ℕ)
    (ss : List ClientStep) (hfresh : ∀ p ∈ (clientRun s incremental e n ss).stored,
      p.1.isHandshake = true → p.1.msgId ∉ p.2) :
    (clientRun s incremental e n ss).outbox.idsInUse.Nodup ∧
    0 ∉ (clientRun s incremental e n ss).outbox.idsInUse ∧
    ∀ x ∈ (clientRun s incremental e n ss).outbox.list, x.isHandshake = true →
      (clientRun s incremental e n ss).outbox.get x.msgId = some x ∧
      ∀ type, x.msgType = some type → (clientRun s incremental e n ss).outbox.list.find?
        (fun i => i.msgId == x.msgId && i.msgType == some type) = some x := by
  have hneat := run_neat s incremental e n ss
  have hids := run_ids s incremental e n ss hfresh
  refine ⟨hids, fun hz => ?_, fun x hx hh => ⟨?_, fun type ht => ?_⟩⟩
  · obtain ⟨x,hx,hid⟩ := List.mem_map.mp hz
    obtain ⟨hmem,hh⟩ := List.mem_filter.mp hx
    exact (hneat.typed x.label (List.mem_map_of_mem hmem)).isHandshake_iff.mp hh hid
  · have hfound := Outbox.find_own hneat hids hx hh (fun _ => true) rfl
    simp only [Bool.and_true] at hfound
    exact hfound
  · exact Outbox.find_own hneat hids hx hh (fun i => i.msgType == some type) (by simp [ht])

/-- A QoS 1 message published while there is no connection. -/
def publishSteps : List ClientStep :=
  [.check (.publish (some [0x74]) (cBytes [0x78]) 1 1 0), .body 0]

/-- Two messages under the identifiers 7 and 8. -/
theorem packet_ids_unique_two_messages :
    (clientRun smallSettings false (plainEnvironment [] [] []) 0
      (publishSteps ++ publishSteps)).outbox.idsInUse = [7, 8] ∧
    (clientRun smallSettings false (plainEnvironment [] [] []) 0
      (publishSteps ++ publishSteps)).outbox.idsInUse.Nodup :=
  ⟨by decide +kernel, (packet_ids_unique smallSettings false (plainEnvironment [] [] []) 0
    (publishSteps ++ publishSteps) (by decide +kernel)).1⟩

/-- `platform_random` gives 7 twice, and both messages are stored under it. -/
theorem packet_ids_drawn_twice :
    ¬ (clientRun smallSettings false {plainEnvironment [] [] [] with randoms := [7, 7]} 0
      (publishSteps ++ publishSteps)).outbox.idsInUse.Nodup := by
  have hids : (clientRun smallSettings false {plainEnvironment [] [] [] with randoms := [7, 7]} 0
      (publishSteps ++ publishSteps)).outbox.idsInUse = [7, 7] := by decide +kernel
  rw [hids]
  decide

end EspMqtt
