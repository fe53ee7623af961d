import EspMqtt.Outcomes
import EspMqtt.OutboxMarks

/-! The send quota of a v5 client: its counter, and what the broker has not
acknowledged on the connection. -/
namespace EspMqtt
open World Ledger Relation

/-- The message a packet carries, as the traffic names it. -/
def Label.key (a : Label) : ℕ × ℕ := (a.origin.call, a.msgId)

/-- A PUBLISH that takes from the send quota. -/
def Label.Counts (a : Label) : Prop := a.msgType = some .publish ∧ 0 < a.msgQos

theorem Label.Counts.isHandshake {a : Label} (h : a.Counts) : a.isHandshake = true := by
  simp [Label.isHandshake, h.1, h.2]

/-! What the traffic leaves unacknowledged. -/

theorem unacked_sent_mem {message msgId : ℕ} {l : List Traffic} (h : (message, msgId) ∈ unacked l) :
    unacked (.sent message msgId :: l) = unacked l := if_pos h

theorem unacked_sent_new {message msgId : ℕ} {l : List Traffic} (h : (message, msgId) ∉ unacked l) :
    unacked (.sent message msgId :: l) = (message, msgId) :: unacked l := if_neg h

theorem unacked_nodup (l : List Traffic) : (unacked l).Nodup := by
  induction l with
  | nil => exact List.nodup_nil
  | cons t l ih =>
    cases t with
    | opened receiveMaximum => exact List.nodup_nil
    | sent message msgId =>
      by_cases h : (message, msgId) ∈ unacked l
      · rw [unacked_sent_mem h]
        exact ih
      · rw [unacked_sent_new h]
        exact List.nodup_cons.mpr ⟨h,ih⟩
    | acked msgId => exact ih.filter _

theorem mem_unacked_acked {msgId : ℕ} {l : List Traffic} {m : ℕ × ℕ} :
    m ∈ unacked (.acked msgId :: l) ↔ m ∈ unacked l ∧ m.2 ≠ msgId := by
  change m ∈ (unacked l).filter _ ↔ _
  simp

namespace Ledger

/-- The states of the stored messages agree with the traffic. -/
structure Paired (L : Ledger) : Prop where
  queued : ∀ x ∈ L.outbox.list, x.label.Counts → x.pending = .queued →
    x.label.key ∉ unacked L.traffic
  numbered : ∀ x ∈ L.outbox.list, x.pending = .transmitted → x.msgId ≠ 0
  transmitted : ∀ x ∈ L.outbox.list, x.label.Counts → x.pending = .transmitted →
    x.label.key ∈ unacked L.traffic
  known : ∀ m ∈ unacked L.traffic, m.1 ≤ L.calls
  closed : L.state = .waitReconnect → L.isOpen = false

/-- Packets go, and at most a PUBREC is noted on one that stays. -/
theorem Paired.mono {L L' : Ledger} (h : L.Paired)
    (hlist : ∀ y ∈ L'.outbox.list, ∃ x ∈ L.outbox.list, y.label = x.label ∧
      (y.pending = x.pending ∨ y.pending = .acknowledged))
    (ht : unacked L'.traffic = unacked L.traffic) (hc : L.calls ≤ L'.calls)
    (hcl : L'.state = .waitReconnect → L'.isOpen = false) : L'.Paired := by
  have hsame {y : OutboxItem} (hy : y ∈ L'.outbox.list) (hp : y.pending ≠ .acknowledged) :
      ∃ x ∈ L.outbox.list, y.label = x.label ∧ y.pending = x.pending := by
    obtain ⟨x,hx,hlabel,hpend⟩ := hlist y hy
    exact ⟨x, hx, hlabel, hpend.resolve_right hp⟩
  refine ⟨fun y hy hcount hp => ?_, fun y hy hp => ?_, fun y hy hcount hp => ?_, fun m hm => ?_, hcl⟩
  · obtain ⟨x,hx,hlabel,hpend⟩ := hsame hy (by simp [hp])
    rw [ht, hlabel]
    exact h.queued x hx (hlabel ▸ hcount) (hpend.symm.trans hp)
  · obtain ⟨x,hx,hlabel,hpend⟩ := hsame hy (by simp [hp])
    rw [show y.msgId = x.msgId from congrArg Label.msgId hlabel]
    exact h.numbered x hx (hpend.symm.trans hp)
  · obtain ⟨x,hx,hlabel,hpend⟩ := hsame hy (by simp [hp])
    rw [ht, hlabel]
    exact h.transmitted x hx (hlabel ▸ hcount) (hpend.symm.trans hp)
  · rw [ht] at hm
    exact (h.known m hm).trans hc

theorem Paired.subset {L L' : Ledger} (h : L.Paired) (hlist : L'.outbox.list ⊆ L.outbox.list)
    (ht : unacked L'.traffic = unacked L.traffic) (hc : L.calls ≤ L'.calls)
    (hcl : L'.state = .waitReconnect → L'.isOpen = false) : L'.Paired :=
  h.mono (fun y hy => ⟨y, hlist hy, rfl, Or.inl rfl⟩) ht hc hcl

theorem aborted_paired {L : Ledger} (h : L.Paired) : L.aborted.Paired :=
  h.subset (aborted_sublist L).subset rfl (Nat.le_refl _) fun _ => rfl

/-- Another packet, or the same ones, with the first one of its identifier sent. -/
theorem apiMove_paired {L L' : Ledger} (hm : ApiMove L L') (hn : L.Neat) (hn' : L'.Neat)
    (hids : L.outbox.idsInUse.Nodup) (hids' : L'.outbox.idsInUse.Nodup) (h : L.Paired) : L'.Paired := by
  -- only storing and sending matter: `hsplit` says what is in the outbox behind them
  cases hm with
  | event e he => exact h.subset (fun _ => id) rfl (Nat.le_refl _) h.closed
  | write c => exact h.subset (fun _ => id) rfl (Nat.le_refl _) h.closed
  | abort hs => exact aborted_paired h
  | call o => exact h.subset (fun _ => id) rfl (Nat.le_succ _) h.closed
  | setConfig s => exact h.subset (fun _ => id) rfl (Nat.le_succ _) h.closed
  | publish x hx ht hid =>
    -- a call that begins has sent nothing yet
    have hnew : x.label.key ∉ unacked L.traffic := by
      intro hmem
      have hle : x.origin.call ≤ L.calls := h.known _ hmem
      rw [hx.call] at hle
      omega
    have hsplit {y : OutboxItem} (hy : y ∈ (L.store x).outbox.list) : y ∈ L.outbox.list ∨ y = x := by
      simpa [Ledger.store] using hy
    refine ⟨fun y hy hcount hp => ?_, fun y hy hp => ?_, fun y hy hcount hp => ?_, fun m hmem => ?_,
      h.closed⟩
    · rcases hsplit hy with hy | rfl
      · exact h.queued y hy hcount hp
      · exact hnew
    · rcases hsplit hy with hy | rfl
      · exact h.numbered y hy hp
      · exact absurd (hx.pending.symm.trans hp) (by decide)
    · rcases hsplit hy with hy | rfl
      · exact h.transmitted y hy hcount hp
      · exact absurd (hx.pending.symm.trans hp) (by decide)
    · exact (h.known m hmem).trans (Nat.le_succ _)
  | request x hx ht hq hid =>
    have hlabels := Outbox.setPending_labels (L.store x).outbox x.msgId .transmitted
    have hstored : EspMqtt.Neat (L.store x).outbox.labels (L.store x).outbox.nextHandle
        (L.store x).calls := by
      rw [← hlabels]
      exact hn'
    have hnodup : (L.store x).outbox.idsInUse.Nodup := by
      rw [Outbox.idsInUse_eq, ← hlabels, ← Outbox.idsInUse_eq]
      exact hids'
    have hxmem : x ∈ (L.store x).outbox.list := by simp [Ledger.store]
    have hsplit {y : OutboxItem} (hy : y ∈ ((L.store x).outbox.setPending x.msgId .transmitted).list) :
        y = {x with pending := .transmitted} ∨ y ∈ L.outbox.list := by
      rcases Outbox.modifyOwn_mem hstored hnodup hxmem hid _ hy with hy | ⟨hy,hne⟩
      · exact Or.inl hy
      · refine Or.inr ?_
        rcases List.mem_append.mp hy with hy | hy
        · exact hy
        · exact absurd (congrArg OutboxItem.msgId (List.mem_singleton.mp hy)) hne
    -- a request does not count
    have hnot : ¬ x.label.Counts := fun hcount => by
      have hpos : 0 < x.msgQos := hcount.2
      omega
    refine ⟨fun y hy hcount hp => ?_, fun y hy hp => ?_, fun y hy hcount hp => ?_, fun m hmem => ?_,
      h.closed⟩
    · rcases hsplit hy with rfl | hy
      · exact absurd hcount hnot
      · exact h.queued y hy hcount hp
    · rcases hsplit hy with rfl | hy
      · exact hid
      · exact h.numbered y hy hp
    · rcases hsplit hy with rfl | hy
      · exact absurd hcount hnot
      · exact h.transmitted y hy hcount hp
    · exact (h.known m hmem).trans (Nat.le_succ _)
  | published x tick hx hp ht hq hs hquota =>
    have hcounts : x.label.Counts := ⟨ht,hq⟩
    have hz : x.msgId ≠ 0 :=
      (hn.typed x.label (List.mem_map_of_mem hx)).isHandshake_iff.mp hcounts.isHandshake
    -- a queued message is not awaited yet, so sending it adds one
    have hfresh := h.queued x hx hcounts hp
    have hsent : unacked (L.publishSent x tick).traffic = x.label.key :: unacked L.traffic :=
      unacked_sent_new hfresh
    have hsplit {y : OutboxItem} (hy : y ∈ (L.publishSent x tick).outbox.list) :
        y = {x with tick := tick, pending := .transmitted} ∨ y ∈ L.outbox.list ∧ y.msgId ≠ x.msgId :=
      Outbox.marked_mem hn hids hx hz tick .transmitted hy
    refine ⟨fun y hy hcount hyp => ?_, fun y hy hyp => ?_, fun y hy hcount hyp => ?_, fun m hmem => ?_,
      h.closed⟩
    · rcases hsplit hy with rfl | ⟨hy,hne⟩
      · exact absurd hyp (by simp)
      · rw [hsent]
        refine fun hmem => ?_
        rcases List.mem_cons.mp hmem with heq | hmem
        · exact hne (congrArg Prod.snd heq)
        · exact h.queued y hy hcount hyp hmem
    · rcases hsplit hy with rfl | ⟨hy,-⟩
      · exact hz
      · exact h.numbered y hy hyp
    · rw [hsent]
      rcases hsplit hy with rfl | ⟨hy,-⟩
      · exact List.mem_cons_self
      · exact List.mem_cons_of_mem _ (h.transmitted y hy hcount hyp)
    · rw [hsent] at hmem
      rcases List.mem_cons.mp hmem with rfl | hmem
      · exact hn.calls x.label (List.mem_map_of_mem hx)
      · exact h.known m hmem

/-- A PUBACK or PUBCOMP that leaves only packets with other identifiers. -/
theorem Paired.acked {L L' : Ledger} (h : L.Paired) {msgId : ℕ} (hlist : L'.outbox.list ⊆ L.outbox.list)
    (hother : ∀ y ∈ L'.outbox.list, y.label.Counts → y.msgId ≠ msgId)
    (ht : L'.traffic = .acked msgId :: L.traffic) (hc : L.calls ≤ L'.calls)
    (hcl : L'.state = .waitReconnect → L'.isOpen = false) : L'.Paired := by
  refine ⟨fun y hy hcount hp hmem => ?_, fun y hy hp => h.numbered y (hlist hy) hp,
    fun y hy hcount hp => ?_, fun m hmem => ?_, hcl⟩
  · rw [ht] at hmem
    exact h.queued y (hlist hy) hcount hp (mem_unacked_acked.mp hmem).1
  · rw [ht]
    exact mem_unacked_acked.mpr ⟨h.transmitted y (hlist hy) hcount hp, hother y hy hcount⟩
  · rw [ht] at hmem
    exact (h.known m (mem_unacked_acked.mp hmem).1).trans hc

/-- A counted packet that stays is not the one that was found. -/
theorem removed_other {L : Ledger} (hn : L.Neat) (hids : L.outbox.idsInUse.Nodup)
    {p : OutboxItem → Bool} {x y : OutboxItem} (hx : L.outbox.list.find? p = some x)
    (hy : y ∈ (L.outbox.removeFirst p).2.list) (hcount : y.label.Counts) : y.msgId ≠ x.msgId := by
  have hyl : y ∈ L.outbox.list := (removeFirst_sublist L.outbox p).subset hy
  have hyz : y.msgId ≠ 0 :=
    (hn.typed y.label (List.mem_map_of_mem hyl)).isHandshake_iff.mp hcount.isHandshake
  by_cases hz : x.msgId = 0
  · rw [hz]
    exact hyz
  · obtain ⟨hp,l₁,l₂,hl,hnot⟩ := List.find?_eq_some_iff_append.mp hx
    have herase : (L.outbox.removeFirst p).2.list = l₁ ++ l₂ := removeFirst_split hx hl hnot hp
    exact Outbox.other_id hn hids hl hz (herase ▸ hy)

theorem taskMove_paired {L L' : Ledger} (hm : TaskMove L L') (hn : L.Neat) (hn' : L'.Neat)
    (hids : L.outbox.idsInUse.Nodup) (hids' : L'.outbox.idsInUse.Nodup) (h : L.Paired) : L'.Paired := by
  cases hm with
  | api hm => exact apiMove_paired hm hn hn' hids hids' h
  | event e he => exact h.subset (fun _ => id) rfl (Nat.le_refl _) h.closed
  | origin o => exact h.subset (fun _ => id) rfl (Nat.le_refl _) h.closed
  | finished x e hs hx he =>
    exact h.acked (removeFirst_sublist _ _).subset (fun y hy => removed_other hn hids hx hy) rfl
      (Nat.le_refl _) h.closed
  -- an acknowledgement that fits no message takes none away
  | unknown msgId hs hx =>
    refine h.acked (fun _ => id) (fun y hy hcount hid => ?_) rfl (Nat.le_refl _) h.closed
    have hno := List.find?_eq_none.mp hx y hy
    have htype : y.msgType = some .publish := hcount.1
    simp [hid, htype] at hno
  | answered type x e ht hx he =>
    exact h.subset (removeFirst_sublist _ _).subset rfl (Nat.le_refl _) h.closed
  | unreported x stray hx => exact h.subset (removeFirst_sublist _ _).subset rfl (Nat.le_refl _) h.closed
  | acknowledged msgId =>
    refine h.mono (fun y hy => ?_) rfl (Nat.le_refl _) h.closed
    rcases Outbox.mem_modifyFirst hy with hy | ⟨x,hx,rfl⟩
    · exact ⟨y, hy, rfl, Or.inl rfl⟩
    · exact ⟨x, hx, rfl, Or.inr rfl⟩
  | dup handle =>
    refine h.mono (fun y hy => ?_) rfl (Nat.le_refl _) h.closed
    obtain ⟨x,hx,hlabel,hpend⟩ := Outbox.mem_setDup hy
    exact ⟨x, hx, hlabel, Or.inl hpend⟩
  | expired p x e hx he hid => exact h.subset (removeFirst_sublist _ _).subset rfl (Nat.le_refl _) h.closed
  | expiredAll p hr => exact h.subset List.filter_sublist.subset rfl (Nat.le_refl _) h.closed
  | sentQos0 x hx ht hq hw =>
    exact h.subset (removeFirst_sublist _ _).subset rfl (Nat.le_refl _) h.closed
  | sentRequest x tick hx ht =>
    -- a packet that is no PUBLISH has an identifier
    have htyped : x.label.Typed := hn.typed x.label (List.mem_map_of_mem hx)
    have hz : x.msgId ≠ 0 := by
      rcases htyped with ⟨hpub,-⟩ | ⟨-,-,hz⟩
      · exact absurd hpub ht
      · exact hz
    have hsplit {y : OutboxItem}
        (hy : y ∈ ((L.outbox.setTick x.msgId tick).setPending x.msgId .transmitted).list) :
        y = {x with tick := tick, pending := .transmitted} ∨ y ∈ L.outbox.list ∧ y.msgId ≠ x.msgId :=
      Outbox.marked_mem hn hids hx hz tick .transmitted hy
    refine ⟨fun y hy hcount hyp => ?_, fun y hy hyp => ?_, fun y hy hcount hyp => ?_, h.known, h.closed⟩
    · rcases hsplit hy with rfl | ⟨hy,-⟩
      · exact absurd hcount.1 ht
      · exact h.queued y hy hcount hyp
    · rcases hsplit hy with rfl | ⟨hy,-⟩
      · exact hz
      · exact h.numbered y hy hyp
    · rcases hsplit hy with rfl | ⟨hy,-⟩
      · exact absurd hcount.1 ht
      · exact h.transmitted y hy hcount hyp
  | resent x hx hp ht hq =>
    exact h.subset (fun _ => id) (unacked_sent_mem (h.transmitted x hx ⟨ht,hq⟩ hp)) (Nat.le_refl _)
      h.closed

/-- The states agree with the traffic of a v5 client in every run without
identifiers drawn twice. -/
theorem move_paired {L L' : Ledger} (hm : Move L L') (hv : L.isV5 = true) (hn : L.Neat)
    (hn' : L'.Neat) (hids : L.outbox.idsInUse.Nodup) (hids' : L'.outbox.idsInUse.Nodup)
    (h : L.Paired) : L'.Paired := by
  cases hm with
  | task hm => exact taskMove_paired hm hn hn' hids hids' h
  | abort => exact aborted_paired h
  | connecting hs =>
    exact h.subset (fun _ => id) rfl (Nat.le_refl _) fun hw => absurd (hs.symm.trans hw) (by decide)
  | opened receiveMaximum hr hv =>
    -- a new connection: everything waits to be sent again
    have hnone := requeueLoop_none L.outbox.list.length hn hids h.numbered
      (List.count_le_length.trans (by simp))
    refine ⟨fun y hy _ _ hmem => absurd hmem List.not_mem_nil, fun y hy hp => absurd hp (hnone y hy),
      fun y hy _ hp => absurd hp (hnone y hy), fun m hmem => absurd hmem List.not_mem_nil,
      fun hw => absurd hw (by simp)⟩
  | openedV3 hv3 => exact absurd (hv.symm.trans hv3) (by decide)
  | refused receiveMaximum hr hs => exact h.subset (fun _ => id) rfl (Nat.le_refl _) h.closed
  | moved s hs =>
    refine h.subset (fun _ => id) rfl (Nat.le_refl _) fun hw => ?_
    have hw' : s = .waitReconnect := hw
    rcases hs with hs | hs <;> exact absurd (hs.symm.trans hw') (by decide)
  | exits =>
    exact h.subset List.filter_sublist.subset rfl (Nat.le_refl _) fun hw => absurd hw (by simp)

/-- A PUBLISH goes out on a connection that is up. -/
theorem published_connected {L : Ledger} (hn : L.Neat) (h : L.Paired) {x : OutboxItem}
    (hx : x ∈ L.outbox.list)
    (hs : L.state = .connected ∨ L.Up ∧ (x.buffer = [] ∨ L.isOpen = true)) : L.state = .connected := by
  rcases hs with hs | ⟨hup,hopen⟩
  · exact hs
  · have hfull : x.buffer ≠ [] := by
      simpa [OutboxItem.label] using hn.full x.label (List.mem_map_of_mem hx)
    rcases hup with hs | hs
    · exact hs
    · exact absurd ((hopen.resolve_left hfull).symm.trans (h.closed hs)) (by decide)

theorem gone_subset {L L' : Ledger} (hm : Move L L') : L.gone ⊆ L'.gone := by
  have hdepart (reason : Removal) (o : Outbox) : L.gone ⊆ (L.depart reason o).gone :=
    List.subset_append_right _ _
  cases hm with
  | task hm =>
    cases hm with
    | api hm =>
      cases hm with
      | abort hs => exact hdepart _ _
      | _ => exact fun _ => id
    | finished x e hs hx he => exact hdepart _ _
    | answered type x e ht hx he => exact hdepart _ _
    | unreported x stray hx => exact hdepart _ _
    | expired p x e hx he hid => exact hdepart _ _
    | expiredAll p hr => exact hdepart _ _
    | sentQos0 x hx ht hq hw => exact hdepart _ _
    | _ => exact fun _ => id
  | abort => exact hdepart _ _
  | exits => exact hdepart _ _
  | _ => exact fun _ => id

/-! The window: what is unacknowledged stays within the Receive Maximum. -/

/-- Every PUBACK and PUBCOMP that completed a message was for one sent on the
connection and not acknowledged on it. -/
def AcksInTurn (L : Ledger) : Prop :=
  ∀ d ∈ L.gone, d.reason = .acked .published → (d.item.origin.call, d.item.msgId) ∈ d.unacked

structure Window (L : Ledger) : Prop where
  covered : (unacked L.traffic).length ≤ L.sendPublishPacketCount
  bounded : L.sendPublishPacketCount ≤ quota L.traffic
  announced : L.state = .connected → L.receiveMaximum = quota L.traffic

theorem aborted_window {L : Ledger} (h : L.Window) : L.aborted.Window :=
  ⟨h.covered, h.bounded, fun hs => absurd hs (by simp [Ledger.aborted])⟩

theorem taskMove_window {L L' : Ledger} (hm : TaskMove L L') (hv : L.isV5 = true) (hn : L.Neat)
    (hp : L.Paired) (hacks : L'.AcksInTurn) (h : L.Window) : L'.Window := by
  cases hm with
  | api hm =>
    cases hm with
    | abort hs => exact aborted_window h
    | published x tick hx hq ht hqos hs hquota =>
      have hconnected := published_connected hn hp hx hs
      have hsent : unacked (L.publishSent x tick).traffic = x.label.key :: unacked L.traffic :=
        unacked_sent_new (hp.queued x hx ⟨ht,hqos⟩ hq)
      have hcount : (L.publishSent x tick).sendPublishPacketCount = L.sendPublishPacketCount+1 :=
        if_pos hv
      refine ⟨?_, ?_, h.announced⟩
      · rw [hsent, hcount, List.length_cons]
        exact Nat.succ_le_succ h.covered
      · rw [hcount]
        calc L.sendPublishPacketCount+1 ≤ L.receiveMaximum := hquota hv
          _ = quota L.traffic := h.announced hconnected
    | _ => exact ⟨h.covered, h.bounded, h.announced⟩
  | finished x e hs hx he =>
    -- one message less on both sides
    have hgone := depart_removeFirst hn (.acked .published) hx
    rw [if_pos hs] at hgone
    have hmem := hacks ⟨x, .acked .published, unacked L.traffic⟩
      (show _ ∈ (L.depart (.acked .published) _).gone from hgone ▸ List.mem_cons_self) rfl
    have hfilter : ((unacked L.traffic).filter fun m => m.2 != x.msgId).length <
        (unacked L.traffic).length := by
      rw [List.length_filter_lt_length_iff_exists]
      exact ⟨_, hmem, by simp⟩
    have hcovered := h.covered
    have hbounded := h.bounded
    refine ⟨?_, ?_, h.announced⟩
    · change ((unacked L.traffic).filter fun m => m.2 != x.msgId).length ≤
        if L.isV5 then L.sendPublishPacketCount-1 else L.sendPublishPacketCount
      rw [if_pos hv]
      omega
    · change (if L.isV5 then L.sendPublishPacketCount-1 else L.sendPublishPacketCount) ≤ quota L.traffic
      rw [if_pos hv]
      omega
  | unknown msgId hs hx => exact ⟨(List.length_filter_le _ _).trans h.covered, h.bounded, h.announced⟩
  | resent x hx hpend ht hq =>
    refine ⟨?_, h.bounded, h.announced⟩
    have hsame : unacked (L.note (.sent x.origin.call x.msgId)).traffic = unacked L.traffic :=
      unacked_sent_mem (hp.transmitted x hx ⟨ht,hq⟩ hpend)
    rw [hsame]
    exact h.covered
  | _ => exact ⟨h.covered, h.bounded, h.announced⟩

theorem move_window {L L' : Ledger} (hm : Move L L') (hv : L.isV5 = true) (hn : L.Neat)
    (hp : L.Paired) (hacks : L'.AcksInTurn) (h : L.Window) : L'.Window := by
  cases hm with
  | task hm => exact taskMove_window hm hv hn hp hacks h
  | abort => exact aborted_window h
  | connecting hs => exact ⟨h.covered, h.bounded, h.announced⟩
  | opened receiveMaximum hr hv => exact ⟨Nat.le_refl _, Nat.zero_le _, fun _ => rfl⟩
  | openedV3 hv3 => exact absurd (hv.symm.trans hv3) (by decide)
  | refused receiveMaximum hr hs => exact ⟨h.covered, h.bounded, fun hc => absurd hc hs⟩
  | moved s hs =>
    refine ⟨h.covered, h.bounded, fun hc => ?_⟩
    have hc' : s = .connected := hc
    rcases hs with hs | hs <;> exact absurd (hs.symm.trans hc') (by decide)
  | exits => exact ⟨h.covered, h.bounded, fun hc => absurd hc (by simp)⟩

/-! The counter fits its sixteen bits in any run. -/

def Narrow (L : Ledger) : Prop := L.receiveMaximum < 65536 ∧ L.sendPublishPacketCount < 65536

theorem move_narrow {L L' : Ledger} (hm : Move L L') (h : L.Narrow) : L'.Narrow := by
  cases hm with
  | task hm =>
    cases hm with
    | api hm =>
      cases hm with
      | published x tick hx hq ht hqos hs hquota =>
        refine ⟨h.1, ?_⟩
        change (if L.isV5 then L.sendPublishPacketCount+1 else L.sendPublishPacketCount) < 65536
        split
        · rename_i hv
          exact Nat.lt_of_le_of_lt (hquota hv) h.1
        · exact h.2
      | _ => exact h
    | finished x e hs hx he =>
      refine ⟨h.1, ?_⟩
      change (if L.isV5 then L.sendPublishPacketCount-1 else L.sendPublishPacketCount) < 65536
      split
      · exact Nat.lt_of_le_of_lt (Nat.sub_le _ _) h.2
      · exact h.2
    | _ => exact h
  | opened receiveMaximum hr hv => exact ⟨hr, Nat.succ_pos 65535⟩
  | refused receiveMaximum hr hs => exact ⟨hr,h.2⟩
  | _ => exact h

/-! Runs of a v5 client whose identifiers are distinct. -/

/-- No identifier was drawn twice, and the client has spoken v5 all the time. -/
structure Ordinary (L : Ledger) : Prop where
  fresh : L.FreshIds
  v5 : ∀ s ∈ L.configured, s.information.protocolVer = .v5

theorem Ordinary.before {L L' : Ledger} (hm : Move L L') (h : L'.Ordinary) : L.Ordinary := by
  refine ⟨h.fresh.before hm, ?_⟩
  cases hm with
  | task hm =>
    cases hm with
    | api hm =>
      cases hm with
      | setConfig s => exact fun t ht => h.v5 t (List.mem_cons_of_mem _ ht)
      | _ => exact h.v5
    | _ => exact h.v5
  | _ => exact h.v5

structure Orderly (L : Ledger) : Prop where
  neat : L.Neat
  ids : L.outbox.idsInUse.Nodup
  v5 : L.isV5 = true
  paired : L.Paired

theorem move_orderly {L L' : Ledger} (hm : Move L L') (ho : L'.Ordinary) (h : L.Orderly) :
    L'.Orderly := by
  have hn' := move_neat hm h.neat
  have hids' := move_ids hm ho.fresh h.ids
  refine ⟨hn', hids', ?_, move_paired hm h.v5 h.neat hn' h.ids hids' h.paired⟩
  cases hm with
  | task hm =>
    cases hm with
    | api hm =>
      cases hm with
      | setConfig s =>
        change (s.information.protocolVer == .v5) = true
        rw [ho.v5 s List.mem_cons_self]
        rfl
      | _ => exact h.v5
    | _ => exact h.v5
  | _ => exact h.v5

theorem init_orderly (s : Settings) (incremental : Bool) (e : Environment)
    (hv : s.information.protocolVer = .v5) : (clientInit s incremental e).ledger.Orderly := by
  refine ⟨run_neat s incremental e 0 [], List.nodup_nil, ?_, ?_⟩
  · change (s.information.protocolVer == .v5) = true
    rw [hv]
    rfl
  · refine ⟨?_, ?_, ?_, ?_, ?_⟩ <;> simp [World.ledger, clientInit, Outbox.init, unacked]

end Ledger

/-- MQTT 5 flow control. The counter never leaves its sixteen bits. In a run whose
identifiers are distinct and whose PUBACKs and PUBCOMPs complete only messages
that await one on the connection, no more than Receive Maximum messages await one. -/
theorem receive_maximum_respected (s : Settings) (incremental : Bool) (e : Environment) (n : ℕ)
    (ss : List ClientStep) (hv : s.information.protocolVer = .v5)
    (hset : ∀ t ∈ (clientRun s incremental e n ss).marks.filterMap Mark.settings,
      t.information.protocolVer = .v5) :
    (clientRun s incremental e n ss).sendPublishPacketCount < 65536 ∧
    ((∀ p ∈ (clientRun s incremental e n ss).stored, p.1.isHandshake = true → p.1.msgId ∉ p.2) →
      (∀ d ∈ (clientRun s incremental e n ss).gone, d.reason = .acked .published →
        (d.item.origin.call, d.item.msgId) ∈ d.unacked) →
      (unacked (clientRun s incremental e n ss).traffic).length ≤
        quota (clientRun s incremental e n ss).traffic) := by
  have hinv : ∀ L L', Move L L' →
      (L.Narrow ∧ (L.Ordinary → L.Orderly) ∧ (L.Ordinary → L.AcksInTurn → L.Window)) →
      L'.Narrow ∧ (L'.Ordinary → L'.Orderly) ∧ (L'.Ordinary → L'.AcksInTurn → L'.Window) := by
    rintro L L' hm ⟨hnarrow,horderly,hwindow⟩
    refine ⟨move_narrow hm hnarrow, fun ho => move_orderly hm ho (horderly (ho.before hm)),
      fun ho hacks => ?_⟩
    have hbefore := horderly (ho.before hm)
    exact move_window hm hbefore.v5 hbefore.neat hbefore.paired hacks
      (hwindow (ho.before hm) fun d hd => hacks d (gone_subset hm hd))
  obtain ⟨hnarrow,-,hwindow⟩ := moves_induction hinv (run_moves s incremental e n ss)
    ⟨⟨Nat.lt_succ_self 65535, Nat.succ_pos 65535⟩, fun _ => init_orderly s incremental e hv,
      fun _ _ => ⟨Nat.le_refl _, Nat.zero_le _, fun _ => rfl⟩⟩
  refine ⟨hnarrow.2, fun hfresh hacks => ?_⟩
  have hw := hwindow ⟨hfresh,hset⟩ hacks
  exact hw.covered.trans hw.bounded

def publishQos (qos : ℕ) : List ClientStep :=
  [.check (.publish (some [0x74]) (cBytes [0x78]) 1 qos 0), .body 0]

/-- A broker with Receive Maximum 1 that acknowledges the first message, and time
that passes in these steps. -/
def v5Run (ticks : List ℕ) : World :=
  clientRun v5Settings false
    {plainEnvironment [some [0x20, 6, 0, 0, 3, 0x21, 0, 1, 0x40, 2, 0, 7]]
      (List.replicate 9 (.chunk 9)) [] with
      mqtt5 := answerConnect 1 ++ [answerPublish 7]
      ticks := ticks} 0
    (connectSteps ++ publishQos 1 ++ passSteps)

/-- A message sent and acknowledged. -/
theorem receive_maximum_respected_once :
    (v5Run []).traffic = [.acked 7, .sent 1 7, .opened 1] ∧
    (unacked (v5Run []).traffic).length ≤ quota (v5Run []).traffic :=
  ⟨by decide +kernel, (receive_maximum_respected v5Settings false _ 0 _ rfl (by decide +kernel)).2
    (by decide +kernel) (by decide +kernel)⟩

/-- A QoS 2 message that has got its PUBREC when the connection breaks; its
PUBCOMP comes on the next connection, between two other messages. -/
def carriedRun : World :=
  clientRun v5Settings false
    {plainEnvironment [some [0x20, 6, 0, 0, 3, 0x21, 0, 1, 0x50, 2, 0, 7],
        some [0x20, 6, 1, 0, 3, 0x21, 0, 1, 0x70, 2, 0, 7]]
      (List.replicate 6 (.chunk 9) ++ [.error] ++ List.replicate 9 (.chunk 9)) [] with
      mqtt5 := answerConnect 1 ++ [answerPublish 7, answerBytes [4, 0, 7, 0, 0]] ++
        answerConnect 1 ++ [answerPublish 8, answerPublish 9]
      randoms := [7, 8, 9]} 0
    (connectSteps ++ publishQos 2 ++ passSteps ++ passSteps ++ [.check .reconnect, .body 0] ++
      List.replicate 6 (.task false) ++ publishQos 1 ++ passSteps ++ publishQos 1)

/-- The PUBCOMP gives back a place that was never taken on this connection: two
messages are unacknowledged under a Receive Maximum of 1. -/
theorem carried_pubcomp_exceeds_quota :
    unacked carriedRun.traffic = [(4, 9), (3, 8)] ∧ quota carriedRun.traffic = 1 ∧
    ¬ (unacked carriedRun.traffic).length ≤ quota carriedRun.traffic := by
  have hunacked : unacked carriedRun.traffic = [(4, 9), (3, 8)] := by decide +kernel
  have hquota : quota carriedRun.traffic = 1 := by decide +kernel
  refine ⟨hunacked, hquota, ?_⟩
  rw [hunacked, hquota]
  decide

namespace Ledger

/-! The quota comes back: nothing is counted that is not awaited. -/

/-- No message expired while the broker had not acknowledged it on the connection. -/
def NoneExpired (L : Ledger) : Prop :=
  ∀ d ∈ L.gone, d.reason = .expired → (d.item.origin.call, d.item.msgId) ∉ d.unacked

structure Settled (L : Ledger) : Prop where
  counted : L.sendPublishPacketCount ≤ (unacked L.traffic).length
  held : L.state = .connected → ∀ m ∈ unacked L.traffic, ∃ x ∈ L.outbox.list, x.label.Counts ∧
    x.label.key = m

/-- What is awaited stays in the outbox: it is not among what leaves. -/
theorem Settled.kept {L L' : Ledger} (hn : L.Neat) (h : L.Settled) (hsub : L'.outbox.list ⊆ L.outbox.list)
    (hstays : L.state = .connected → ∀ x ∈ KeyedList.missing OutboxItem.handle L.outbox.list
      L'.outbox.list, x.label.Counts → x.label.key ∉ unacked L'.traffic)
    (ht : unacked L'.traffic ⊆ unacked L.traffic) (hs : L'.state = L.state)
    (hc : L'.sendPublishPacketCount ≤ (unacked L'.traffic).length) : L'.Settled := by
  refine ⟨hc, fun hconn m hm => ?_⟩
  rw [hs] at hconn
  obtain ⟨x,hx,hcount,hkey⟩ := h.held hconn m (ht hm)
  by_cases hmem : x ∈ L'.outbox.list
  · exact ⟨x, hmem, hcount, hkey⟩
  · -- no other packet has its address
    have hmissing : x ∈ KeyedList.missing OutboxItem.handle L.outbox.list L'.outbox.list := by
      refine KeyedList.mem_missing.mpr ⟨hx, fun y hy heq => hmem ?_⟩
      rw [← List.inj_on_of_nodup_map (Outbox.handles_of_neat hn) (hsub hy) hx heq]
      exact hy
    exact absurd (hkey ▸ hm) (hstays hconn x hmissing hcount)

/-- The packets are the same or more, whatever marks they have got. -/
theorem Settled.marked {L L' : Ledger} (h : L.Settled) (hl : L.outbox.labels ⊆ L'.outbox.labels)
    (ht : L'.traffic = L.traffic) (hs : L'.state = .connected → L.state = .connected)
    (hc : L'.sendPublishPacketCount = L.sendPublishPacketCount) : L'.Settled := by
  refine ⟨by rw [hc, ht]; exact h.counted, fun hconn m hm => ?_⟩
  rw [ht] at hm
  obtain ⟨x,hx,hcount,hkey⟩ := h.held (hs hconn) m hm
  obtain ⟨y,hy,heq⟩ := List.mem_map.mp (hl (List.mem_map_of_mem hx))
  exact ⟨y, hy, heq ▸ hcount, heq ▸ hkey⟩

/-- The state says that there is no connection. -/
theorem Settled.down {L L' : Ledger} (h : L.Settled) (ht : L'.traffic = L.traffic)
    (hs : L'.state ≠ .connected) (hc : L'.sendPublishPacketCount = L.sendPublishPacketCount) :
    L'.Settled :=
  ⟨by rw [hc, ht]; exact h.counted, fun hconn => absurd hconn hs⟩

theorem apiMove_settled {L L' : Ledger} (hm : ApiMove L L') (hv : L.isV5 = true) (hn : L.Neat)
    (hp : L.Paired) (h : L.Settled) : L'.Settled := by
  have hstore (x : OutboxItem) : (L.store x).outbox.labels = L.outbox.labels ++ [x.label] :=
    List.map_append
  cases hm with
  | abort hs => exact h.down rfl (by simp [Ledger.aborted]) rfl
  | publish x hx ht hid => exact h.marked (hstore x ▸ List.subset_append_left _ _) rfl id rfl
  | request x hx ht hq hid =>
    refine h.marked ?_ rfl id rfl
    change L.outbox.labels ⊆ ((L.store x).outbox.setPending x.msgId .transmitted).labels
    rw [Outbox.setPending_labels, hstore]
    exact List.subset_append_left _ _
  | published x tick hx hq ht hqos hs hquota =>
    have hconnected := published_connected hn hp hx hs
    have hsent : unacked (L.publishSent x tick).traffic = x.label.key :: unacked L.traffic :=
      unacked_sent_new (hp.queued x hx ⟨ht,hqos⟩ hq)
    have hlabels : (L.publishSent x tick).outbox.labels = L.outbox.labels :=
      (Outbox.setPending_labels _ _ _).trans (Outbox.setTick_labels _ _ _)
    have hsame {y : OutboxItem} (hy : y ∈ L.outbox.list) :
        ∃ z ∈ (L.publishSent x tick).outbox.list, z.label = y.label := by
      have hmem : y.label ∈ (L.publishSent x tick).outbox.labels := hlabels ▸ List.mem_map_of_mem hy
      obtain ⟨z,hz,heq⟩ := List.mem_map.mp hmem
      exact ⟨z,hz,heq⟩
    refine ⟨?_, fun _ m hm => ?_⟩
    · have hcount : (L.publishSent x tick).sendPublishPacketCount = L.sendPublishPacketCount+1 :=
        if_pos hv
      rw [hsent, hcount, List.length_cons]
      exact Nat.succ_le_succ h.counted
    · rw [hsent] at hm
      rcases List.mem_cons.mp hm with rfl | hm
      · obtain ⟨z,hz,heq⟩ := hsame hx
        exact ⟨z, hz, heq ▸ ⟨ht,hqos⟩, heq ▸ rfl⟩
      · obtain ⟨y,hy,hcount,hkey⟩ := h.held hconnected m hm
        obtain ⟨z,hz,heq⟩ := hsame hy
        exact ⟨z, hz, heq ▸ hcount, heq ▸ hkey⟩
  | _ => exact h.marked (fun _ => id) rfl id rfl

/-- The acknowledgement of `x` takes its message out and no other. -/
theorem acked_length {L : Ledger} (ho : L.Orderly) (h : L.Settled) (hs : L.state = .connected)
    {x : OutboxItem} (hx : x ∈ L.outbox.list) :
    (unacked L.traffic).length ≤ ((unacked L.traffic).filter fun m => m.2 != x.msgId).length+1 := by
  have hone : ((unacked L.traffic).filter fun m => !(m.2 != x.msgId)).length ≤ 1 := by
    have hnodup := (unacked_nodup L.traffic).filter fun m => !(m.2 != x.msgId)
    have hall : ∀ m ∈ (unacked L.traffic).filter fun m => !(m.2 != x.msgId), m = x.label.key := by
      intro m hm
      obtain ⟨hmem,hid⟩ := List.mem_filter.mp hm
      have hid' : m.2 = x.msgId := by simpa using hid
      obtain ⟨y,hy,hcount,hkey⟩ := h.held hs m hmem
      -- the message of `m` has the identifier of `x`, so it is `x`
      have hyid : y.msgId = x.msgId := (congrArg Prod.snd hkey).trans hid'
      have hyz : y.msgId ≠ 0 :=
        (ho.neat.typed y.label (List.mem_map_of_mem hy)).isHandshake_iff.mp hcount.isHandshake
      have hxh : x.isHandshake = true :=
        (ho.neat.typed x.label (List.mem_map_of_mem hx)).isHandshake_iff.mpr
          fun hz => hyz (hyid.trans hz)
      have heq : y = x := List.inj_on_of_nodup_map ho.ids
        (List.mem_filter.mpr ⟨hy, hcount.isHandshake⟩) (List.mem_filter.mpr ⟨hx,hxh⟩) hyid
      rw [← heq, hkey]
    have hkeys : ((unacked L.traffic).filter fun m => !m.2 != x.msgId) ⊆ [x.label.key] :=
      fun m hm => List.mem_singleton.mpr (hall m hm)
    have hsub := hnodup.subperm hkeys
    exact hsub.length_le
  have hsplit := List.length_eq_length_filter_add (l := unacked L.traffic) fun m => m.2 != x.msgId
  omega

/-- A request that leaves is not what a PUBACK is awaited for. -/
theorem missing_type {L : Ledger} (hn : L.Neat) {msgId : ℕ} {type : MsgType} {x : OutboxItem}
    (hx : L.outbox.list.find? (fun i => i.msgId == msgId && i.msgType == some type) = some x)
    (ht : type ≠ .publish) : ∀ y ∈ KeyedList.missing OutboxItem.handle L.outbox.list
      (L.outbox.delete msgId type).2.list, ¬ y.label.Counts := by
  intro y hy hcount
  have hone := missing_removeFirst hn hx
  have hy' : y ∈ [x] := hone ▸ hy
  rw [List.mem_singleton.mp hy'] at hcount
  have heq : some type = some MsgType.publish := (find_type hx).symm.trans hcount.1
  exact ht (Option.some.inj heq)

theorem taskMove_settled {L L' : Ledger} (hm : TaskMove L L') (ho : L.Orderly)
    (hexp : L'.NoneExpired) (h : L.Settled) : L'.Settled := by
  have hn := ho.neat
  cases hm with
  | api hm => exact apiMove_settled hm ho.v5 hn ho.paired h
  | finished x e hs hx he =>
    have hmem := List.mem_of_find?_eq_some hx
    refine h.kept hn (removeFirst_sublist _ _).subset (fun _ y hy _ hkey => ?_)
      (List.filter_subset_self _) rfl ?_
    · have hone := missing_removeFirst hn hx
      have hy' : y ∈ [x] := hone ▸ hy
      rw [List.mem_singleton.mp hy'] at hkey
      exact (mem_unacked_acked.mp hkey).2 rfl
    -- one less is awaited, and one less is counted
    · have hlen := acked_length ho h hs hmem
      have hcounted := h.counted
      change (if L.isV5 then L.sendPublishPacketCount-1 else L.sendPublishPacketCount) ≤
        ((unacked L.traffic).filter fun m => m.2 != x.msgId).length
      rw [if_pos ho.v5]
      omega
  | unknown msgId hs hx =>
    -- no message that is awaited has this identifier
    have hsame : unacked (L.note (.acked msgId)).traffic = unacked L.traffic := by
      change (unacked L.traffic).filter _ = _
      rw [List.filter_eq_self]
      intro m hm
      obtain ⟨y,hy,hcount,hkey⟩ := h.held hs m hm
      have hno := List.find?_eq_none.mp hx y hy
      have hid : m.2 = y.msgId := (congrArg Prod.snd hkey).symm
      have htype : y.msgType = some .publish := hcount.1
      simpa [hid, htype] using hno
    refine ⟨by rw [hsame]; exact h.counted, fun hconn m hm => ?_⟩
    rw [hsame] at hm
    exact h.held hconn m hm
  | answered type x e ht hx he =>
    refine h.kept hn (removeFirst_sublist _ _).subset (fun _ y hy hcount => ?_) (fun _ => id) rfl h.counted
    exact absurd hcount (missing_type hn hx (by rcases ht with rfl | rfl <;> decide) y hy)
  | unreported x stray hx =>
    refine h.kept hn (removeFirst_sublist _ _).subset (fun _ y hy hcount => ?_) (fun _ => id) rfl h.counted
    exact absurd hcount (missing_type hn hx (by decide) y hy)
  | acknowledged msgId =>
    refine h.marked ?_ rfl id rfl
    change L.outbox.labels ⊆ (L.outbox.setPending msgId .acknowledged).labels
    rw [Outbox.setPending_labels]
    exact List.Subset.refl _
  | dup handle =>
    refine h.marked ?_ rfl id rfl
    change L.outbox.labels ⊆ (L.outbox.setDup handle).labels
    rw [Outbox.setDup_labels]
    exact List.Subset.refl _
  | expired p x e hx he hid =>
    refine h.kept hn (removeFirst_sublist _ _).subset (fun hs y hy _ => ?_) (fun _ => id) rfl h.counted
    have hgone : ⟨y, .expired, unacked L.traffic⟩ ∈
        (L.depart .expired (L.outbox.removeFirst p).2).gone := by
      rw [depart_gone, if_pos hs]
      exact List.mem_append_left _ (List.mem_map_of_mem hy)
    exact hexp _ hgone rfl
  | expiredAll p hr =>
    refine h.kept hn List.filter_sublist.subset (fun hs y hy _ => ?_) (fun _ => id) rfl h.counted
    have hgone : ⟨y, .expired, unacked L.traffic⟩ ∈
        (L.depart .expired (L.outbox.removeAll p)).gone := by
      rw [depart_gone, if_pos hs]
      exact List.mem_append_left _ (List.mem_map_of_mem hy)
    exact hexp _ hgone rfl
  | sentQos0 x hx ht hq hw =>
    refine h.kept hn (removeFirst_sublist _ _).subset (fun _ y hy hcount => ?_) (fun _ => id) rfl h.counted
    -- what leaves has the address of `x`, so it is `x`
    have hfound : L.outbox.list.find? (fun i => i.handle == x.handle) = some x := find_handle hn hx
    have hone := missing_removeFirst hn hfound
    have hy' : y ∈ [x] := hone ▸ hy
    rw [List.mem_singleton.mp hy'] at hcount
    have hpos : 0 < x.msgQos := hcount.2
    omega
  | sentRequest x tick hx ht =>
    refine h.marked ?_ rfl id rfl
    change L.outbox.labels ⊆ ((L.outbox.setTick x.msgId tick).setPending x.msgId .transmitted).labels
    rw [Outbox.setPending_labels, Outbox.setTick_labels]
    exact List.Subset.refl _
  | resent x hx hp ht hq =>
    have hsame : unacked (L.note (.sent x.origin.call x.msgId)).traffic = unacked L.traffic :=
      unacked_sent_mem (ho.paired.transmitted x hx ⟨ht,hq⟩ hp)
    refine ⟨by rw [hsame]; exact h.counted, fun hconn m hm => ?_⟩
    rw [hsame] at hm
    exact h.held hconn m hm
  | _ => exact h.marked (fun _ => id) rfl id rfl

theorem move_settled {L L' : Ledger} (hm : Move L L') (ho : L.Orderly) (hexp : L'.NoneExpired)
    (h : L.Settled) : L'.Settled := by
  cases hm with
  | task hm => exact taskMove_settled hm ho hexp h
  | abort => exact h.down rfl (by simp [Ledger.aborted]) rfl
  | connecting hs => exact h.marked (fun _ => id) rfl id rfl
  -- a new connection counts from 0
  | opened receiveMaximum hr hv => exact ⟨Nat.zero_le _, fun _ m hm => absurd hm List.not_mem_nil⟩
  | openedV3 hv3 => exact absurd (ho.v5.symm.trans hv3) (by decide)
  | refused receiveMaximum hr hs => exact h.marked (fun _ => id) rfl id rfl
  | moved s hs =>
    refine h.down rfl (fun hc => ?_) rfl
    have hc' : s = .connected := hc
    rcases hs with hs | hs <;> exact absurd (hs.symm.trans hc') (by decide)
  | exits => exact h.down rfl (by simp) rfl

end Ledger

/-- The send quota is not leaked: in a run whose identifiers are distinct and in
which no message expires while its acknowledgement is awaited, the counter is 0
once everything sent on the connection is acknowledged. -/
theorem send_quota_not_leaked (s : Settings) (incremental : Bool) (e : Environment) (n : ℕ)
    (ss : List ClientStep) (hv : s.information.protocolVer = .v5)
    (hset : ∀ t ∈ (clientRun s incremental e n ss).marks.filterMap Mark.settings,
      t.information.protocolVer = .v5)
    (hfresh : ∀ p ∈ (clientRun s incremental e n ss).stored, p.1.isHandshake = true → p.1.msgId ∉ p.2)
    (hexp : ∀ d ∈ (clientRun s incremental e n ss).gone, d.reason = .expired →
      (d.item.origin.call, d.item.msgId) ∉ d.unacked)
    (hacked : unacked (clientRun s incremental e n ss).traffic = []) :
    (clientRun s incremental e n ss).sendPublishPacketCount = 0 := by
  -- what the history allows at the end it has allowed all along
  have hinv : ∀ L L', Move L L' →
      ((L.Ordinary → L.Orderly) ∧ (L.Ordinary → L.NoneExpired → L.Settled)) →
      (L'.Ordinary → L'.Orderly) ∧ (L'.Ordinary → L'.NoneExpired → L'.Settled) := by
    rintro L L' hm ⟨horderly,hsettled⟩
    refine ⟨fun ho => move_orderly hm ho (horderly (ho.before hm)), fun ho hnone => ?_⟩
    exact move_settled hm (horderly (ho.before hm)) hnone
      (hsettled (ho.before hm) fun d hd => hnone d (gone_subset hm hd))
  obtain ⟨-,hsettled⟩ := moves_induction hinv (run_moves s incremental e n ss)
    ⟨fun _ => init_orderly s incremental e hv,
      fun _ _ => ⟨Nat.le_refl _, fun _ m hm => absurd hm List.not_mem_nil⟩⟩
  have hcounted := (hsettled ⟨hfresh,hset⟩ hexp).counted
  have hzero : (unacked (clientRun s incremental e n ss).ledger.traffic).length = 0 :=
    List.length_eq_zero_iff.mpr hacked
  exact Nat.le_zero.mp (hcounted.trans (Nat.le_of_eq hzero))

/-- The acknowledgement comes in time. -/
theorem send_quota_not_leaked_once :
    unacked (v5Run []).traffic = [] ∧ (v5Run []).sendPublishPacketCount = 0 :=
  ⟨by decide +kernel, send_quota_not_leaked v5Settings false _ 0 _ rfl (by decide +kernel)
    (by decide +kernel) (by decide +kernel) (by decide +kernel)⟩

/-- The message expires before its PUBACK comes, and is counted for ever. -/
theorem expired_message_leaks_quota :
    unacked (v5Run (List.replicate 30 31000)).traffic = [] ∧
    (v5Run (List.replicate 30 31000)).sendPublishPacketCount ≠ 0 := by
  have hcount : (v5Run (List.replicate 30 31000)).sendPublishPacketCount = 1 := by decide +kernel
  refine ⟨by decide +kernel, ?_⟩
  rw [hcount]
  decide

end EspMqtt
