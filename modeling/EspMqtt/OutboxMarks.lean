import EspMqtt.Library.KeyedList
import EspMqtt.PacketIds

/-! Marks set by identifier, where identifiers are distinct, and the loop that
queues the transmitted packets again. -/
namespace EspMqtt
open World Ledger

namespace Outbox

/-- The first match and what stands around it. -/
theorem modifyFirst_split {o : Outbox} {p : OutboxItem → Bool} {x : OutboxItem}
    (h : o.list.find? p = some x) : ∃ l₁ l₂, o.list = l₁ ++ x :: l₂ ∧
      ∀ f, (o.modifyFirst p f).list = l₁ ++ f x :: l₂ := by
  obtain ⟨hp,l₁,l₂,hl,hnot⟩ := List.find?_eq_some_iff_append.mp h
  refine ⟨l₁, l₂, hl, fun f => ?_⟩
  have hgo : modifyFirst.go p f (l₁ ++ x :: l₂) = l₁ ++ f x :: l₂ := by
    clear hl
    induction l₁ with
    | nil => simp [modifyFirst.go, hp]
    | cons y l₁ ih =>
      have hy : p y = false := by simpa using hnot y List.mem_cons_self
      rw [List.cons_append, modifyFirst.go, hy, if_neg (by decide),
        ih fun z hz => hnot z (List.mem_cons_of_mem _ hz)]
      rfl
  change modifyFirst.go p f o.list = _
  rw [hl]
  exact hgo

variable {o : Outbox} {n calls : ℕ}

/-- The other packets have other identifiers. -/
theorem other_id (hn : Neat o.labels n calls) (hids : o.idsInUse.Nodup) {l₁ l₂ : List OutboxItem}
    {x : OutboxItem} (hl : o.list = l₁ ++ x :: l₂) (hx : x.msgId ≠ 0) {y : OutboxItem}
    (hy : y ∈ l₁ ++ l₂) : y.msgId ≠ x.msgId := by
  intro hid
  have hxl : x ∈ o.list := by simp [hl]
  have hyl : y ∈ o.list := by
    rw [hl]
    rcases List.mem_append.mp hy with hy | hy
    · exact List.mem_append_left _ hy
    · exact List.mem_append_right _ (List.mem_cons_of_mem _ hy)
  have hhand {z : OutboxItem} (hz : z ∈ o.list) (hne : z.msgId ≠ 0) : z.isHandshake = true :=
    (hn.typed z.label (List.mem_map_of_mem hz)).isHandshake_iff.mpr hne
  have heq : y = x := List.inj_on_of_nodup_map hids
    (List.mem_filter.mpr ⟨hyl, hhand hyl (hid ▸ hx)⟩) (List.mem_filter.mpr ⟨hxl, hhand hxl hx⟩) hid
  -- `x` stands in the list once
  have hnodup := handles_of_neat hn
  rw [hl] at hnodup
  have hone := KeyedList.missing_append hnodup
  have hmem : x ∈ KeyedList.missing OutboxItem.handle (l₁ ++ x :: l₂) (l₁ ++ l₂) := by
    rw [hone]
    exact List.mem_singleton_self x
  exact (KeyedList.mem_missing.mp hmem).2 y hy (by rw [heq])

/-- A mark set by the identifier of `x` is set on `x`. -/
theorem modifyOwn_mem (hn : Neat o.labels n calls) (hids : o.idsInUse.Nodup) {x : OutboxItem}
    (hx : x ∈ o.list) (hz : x.msgId ≠ 0) (f : OutboxItem → OutboxItem) {y : OutboxItem}
    (hy : y ∈ (o.modifyFirst (fun i => i.msgId == x.msgId) f).list) :
    y = f x ∨ y ∈ o.list ∧ y.msgId ≠ x.msgId := by
  have hhand := (hn.typed x.label (List.mem_map_of_mem hx)).isHandshake_iff.mpr hz
  have hfound := find_own hn hids hx hhand (fun _ => true) rfl
  simp only [Bool.and_true] at hfound
  obtain ⟨l₁,l₂,hl,hmod⟩ := modifyFirst_split hfound
  rw [hmod f] at hy
  have hother (h : y ∈ l₁ ++ l₂) : y ∈ o.list ∧ y.msgId ≠ x.msgId := by
    refine ⟨?_, other_id hn hids hl hz h⟩
    rw [hl]
    rcases List.mem_append.mp h with h | h
    · exact List.mem_append_left _ h
    · exact List.mem_append_right _ (List.mem_cons_of_mem _ h)
  rcases List.mem_append.mp hy with hy | hy
  · exact Or.inr (hother (List.mem_append_left _ hy))
  · rcases List.mem_cons.mp hy with hy | hy
    · exact Or.inl hy
    · exact Or.inr (hother (List.mem_append_right _ hy))

/-- Time and state set by the identifier of `x`. -/
theorem marked_mem (hn : Neat o.labels n calls) (hids : o.idsInUse.Nodup) {x : OutboxItem}
    (hx : x ∈ o.list) (hz : x.msgId ≠ 0) (tick : ℕ) (pending : PendingState) {y : OutboxItem}
    (hy : y ∈ ((o.setTick x.msgId tick).setPending x.msgId pending).list) :
    y = {x with tick := tick, pending := pending} ∨ y ∈ o.list ∧ y.msgId ≠ x.msgId := by
  have hlabels := o.setTick_labels x.msgId tick
  have hn' : Neat (o.setTick x.msgId tick).labels n calls := hlabels ▸ hn
  have hids' : (o.setTick x.msgId tick).idsInUse.Nodup := by
    rw [idsInUse_eq, hlabels, ← idsInUse_eq]
    exact hids
  -- the packet after the first mark
  obtain ⟨u,hu,hutick⟩ : ∃ u ∈ (o.setTick x.msgId tick).list, u.label = x.label := by
    have hmem : x.label ∈ (o.setTick x.msgId tick).labels := hlabels ▸ List.mem_map_of_mem hx
    obtain ⟨u,hu,heq⟩ := List.mem_map.mp hmem
    exact ⟨u,hu,heq⟩
  have huid : u.msgId = x.msgId := congrArg Label.msgId hutick
  have hxu : u = {x with tick := tick} := by
    rcases modifyOwn_mem hn hids hx hz _ hu with h | ⟨-,h⟩
    · exact h
    · exact absurd huid h
  have hy' : y ∈ ((o.setTick x.msgId tick).modifyFirst (fun i => i.msgId == u.msgId)
      fun i => {i with pending := pending}).list := by
    rw [huid]
    exact hy
  rcases modifyOwn_mem hn' hids' hu (huid ▸ hz) _ hy' with h | ⟨h,hne⟩
  · rw [hxu] at h
    exact Or.inl h
  · rw [huid] at hne
    rcases modifyOwn_mem hn hids hx hz _ h with h | h
    · exact absurd (congrArg OutboxItem.msgId h) hne
    · exact Or.inr h

end Outbox

/-! Requeueing. -/

namespace Outbox

variable {o : Outbox} {n calls : ℕ}

/-- How many packets wait for an answer. -/
def transmitted (o : Outbox) : ℕ := (o.list.map OutboxItem.pending).count .transmitted

theorem setDup_pending (o : Outbox) (handle : ℕ) :
    (o.setDup handle).list.map OutboxItem.pending = o.list.map OutboxItem.pending := by
  have hgo (l : List OutboxItem) (p : OutboxItem → Bool) :
      (modifyFirst.go p (fun i => {i with buffer := mqttSetDup i.buffer}) l).map OutboxItem.pending =
        l.map OutboxItem.pending := by
    induction l with
    | nil => rfl
    | cons y l ih =>
      unfold modifyFirst.go
      split
      · rfl
      · rw [List.map_cons, List.map_cons, ih]
  exact hgo o.list _

/-- The DUP bit changes neither label nor state. -/
theorem mem_setDup {handle : ℕ} {y : OutboxItem} (hy : y ∈ (o.setDup handle).list) :
    ∃ x ∈ o.list, y.label = x.label ∧ y.pending = x.pending := by
  rcases mem_modifyFirst hy with h | ⟨x,hx,rfl⟩
  · exact ⟨y, h, rfl, rfl⟩
  · have hempty : (mqttSetDup x.buffer).isEmpty = x.buffer.isEmpty := by
      cases x.buffer <;> rfl
    refine ⟨x, hx, ?_, rfl⟩
    unfold OutboxItem.label
    rw [hempty]

theorem eq_of_label (hn : Neat o.labels n calls) {x y : OutboxItem} (hx : x ∈ o.list)
    (hy : y ∈ o.list) (h : y.label = x.label) : y = x :=
  List.inj_on_of_nodup_map (handles_of_neat hn) hy hx (congrArg Label.handle h)

/-- One round: the packet found is queued again, and one less waits. -/
theorem requeue_step (hn : Neat o.labels n calls) (hids : o.idsInUse.Nodup) {x : OutboxItem}
    (hx : x ∈ o.list) (hz : x.msgId ≠ 0) (hp : x.pending = .transmitted) :
    (o.get x.msgId).isSome ∧ (o.setPending x.msgId .queued).transmitted+1 = o.transmitted ∧
    ∀ y ∈ (o.setPending x.msgId .queued).list, y.pending = .transmitted → y ∈ o.list := by
  have hhand := (hn.typed x.label (List.mem_map_of_mem hx)).isHandshake_iff.mpr hz
  have hfound := find_own hn hids hx hhand (fun _ => true) rfl
  simp only [Bool.and_true] at hfound
  refine ⟨Option.isSome_iff_exists.mpr ⟨x,hfound⟩, ?_, fun y hy hyp => ?_⟩
  · obtain ⟨l₁,l₂,hl,hmod⟩ := modifyFirst_split hfound
    have hafter : (o.setPending x.msgId .queued).list = l₁ ++ {x with pending := .queued} :: l₂ :=
      hmod _
    unfold transmitted
    rw [hafter, hl, List.map_append, List.map_append, List.map_cons, List.map_cons,
      List.count_append, List.count_append, hp, List.count_cons_self,
      List.count_cons_of_ne (by simp)]
    omega
  · rcases modifyOwn_mem hn hids hx hz _ hy with rfl | h
    · exact absurd hyp (by simp)
    · exact h.1

end Outbox

/-- Behind the loop nothing counts as transmitted any more. -/
theorem requeueLoop_none (k : ℕ) {o : Outbox} {n calls : ℕ} (hn : Neat o.labels n calls)
    (hids : o.idsInUse.Nodup) (hz : ∀ x ∈ o.list, x.pending = .transmitted → x.msgId ≠ 0)
    (hk : o.transmitted ≤ k) : ∀ x ∈ (requeueLoop k o).list, x.pending ≠ .transmitted := by
  induction k generalizing o with
  | zero =>
    intro x hx hp
    have hpos : 0 < o.transmitted :=
      List.count_pos_iff.mpr (List.mem_map.mpr ⟨x,hx,hp⟩)
    omega
  | succ k ih =>
    unfold requeueLoop
    cases hd : o.dequeue .transmitted with
    | none =>
      intro x hx hp
      exact absurd (List.find?_eq_none.mp hd x hx) (by simp [hp])
    | some x =>
      have hx : x ∈ o.list := List.mem_of_find?_eq_some hd
      have hp : x.pending = .transmitted := by simpa using List.find?_some hd
      dsimp only
      generalize hu : (if x.msgType = some .publish ∧ 0 < x.msgQos then o.setDup x.handle else o) = u
      have hlabels : u.labels = o.labels := by
        rw [← hu]
        split
        · exact o.setDup_labels x.handle
        · rfl
      have hcount : u.transmitted = o.transmitted := by
        rw [← hu]
        unfold Outbox.transmitted
        split
        · rw [o.setDup_pending x.handle]
        · rfl
      have hback {y : OutboxItem} (hy : y ∈ u.list) : ∃ z ∈ o.list, y.label = z.label ∧
          y.pending = z.pending := by
        rw [← hu] at hy
        split at hy
        · exact Outbox.mem_setDup hy
        · exact ⟨y, hy, rfl, rfl⟩
      have hnu : Neat u.labels n calls := hlabels ▸ hn
      have hidsu : u.idsInUse.Nodup := by
        rw [Outbox.idsInUse_eq, hlabels, ← Outbox.idsInUse_eq]
        exact hids
      have hzu : ∀ y ∈ u.list, y.pending = .transmitted → y.msgId ≠ 0 := by
        intro y hy hyp
        obtain ⟨z,hzl,hlabel,hpend⟩ := hback hy
        rw [show y.msgId = z.msgId from congrArg Label.msgId hlabel]
        exact hz z hzl (hpend.symm.trans hyp)
      -- the packet found, with its DUP bit set
      obtain ⟨y,hy,hylabel⟩ : ∃ y ∈ u.list, y.label = x.label := by
        have hmem : x.label ∈ u.labels := hlabels ▸ List.mem_map_of_mem hx
        obtain ⟨y,hy,heq⟩ := List.mem_map.mp hmem
        exact ⟨y,hy,heq⟩
      have hyp : y.pending = .transmitted := by
        obtain ⟨z,hzl,hlabel,hpend⟩ := hback hy
        rw [hpend, Outbox.eq_of_label hn hx hzl (hlabel.symm.trans hylabel), hp]
      have hid : x.msgId = y.msgId := (congrArg Label.msgId hylabel).symm
      obtain ⟨hget,hless,hrest⟩ := Outbox.requeue_step hnu hidsu hy (hzu y hy hyp) hyp
      rw [hid]
      obtain ⟨g,hg⟩ := Option.isSome_iff_exists.mp hget
      rw [hg]
      dsimp only
      have hmark := u.setPending_labels y.msgId .queued
      refine ih (hmark ▸ hnu) ?_ (fun v hv hvp => hzu v (hrest v hv hvp) hvp) (by omega)
      rw [Outbox.idsInUse_eq, hmark, ← Outbox.idsInUse_eq]
      exact hidsu

end EspMqtt
