import EspMqtt.PendingStates

/-! What of a stored packet goes out again: its bytes as they were stored until it has been sent whole,
the same bytes with the DUP bit set from then on, and nothing once a PUBREC has come. -/
namespace EspMqtt
open World Ledger Relation

/-- `y` stands in the outbox for the packet that was stored as `x`; `sent` says that it has been sent
whole. -/
structure OutboxItem.Copy (sent : Prop) (x y : OutboxItem) : Prop where
  label : x.label = y.label
  first : ¬ sent → y.buffer = x.buffer ∧ y.isRepeat = false
  kind : sent → y.msgType = some .publish ∧ 0 < y.msgQos
  later : sent → y.buffer = x.buffer ∨ y.buffer = mqttSetDup x.buffer
  again : sent → y.pending = .queued → y.buffer = mqttSetDup x.buffer

namespace OutboxItem.Copy
variable {sent noted v5 : Prop} {x y z : OutboxItem}

theorem isRepeat_eq (h : OutboxItem.Copy sent x y) (hs : sent) : y.isRepeat = (y.pending == .transmitted) := by
  obtain ⟨ht,hq⟩ := h.kind hs
  unfold OutboxItem.isRepeat
  rw [ht, decide_eq_true hq]
  simp

/-- With the bit set in it, the copy is the stored packet with the bit set. -/
theorem setDup_eq (h : OutboxItem.Copy sent x y) : mqttSetDup y.buffer = mqttSetDup x.buffer := by
  by_cases hs : sent
  · rcases h.later hs with hb | hb
    · rw [hb]
    · rw [hb, mqttSetDup_twice]
  · rw [(h.first hs).1]

/-- What `esp_mqtt_write` is given for it. -/
theorem written (h : OutboxItem.Copy sent x y) (hp : y.pending = .queued ∨ y.pending = .transmitted) :
    (¬ sent → (if y.isRepeat then mqttSetDup y.buffer else y.buffer) = x.buffer) ∧
    (sent → (if y.isRepeat then mqttSetDup y.buffer else y.buffer) = mqttSetDup x.buffer) := by
  refine ⟨fun hs => ?_, fun hs => ?_⟩
  · obtain ⟨hb,hr⟩ := h.first hs
    simp [hr, hb]
  · rw [h.isRepeat_eq hs]
    rcases hp with hp | hp
    · -- queued again, the bit was set then
      simpa [hp] using h.again hs hp
    · simpa [hp] using h.setDup_eq

/-- An entry that notes no transmission. -/
theorem turn (h : OutboxItem.Copy sent x y) (hyz : y.Turn v5 noted z) (hnoted : noted → sent) :
    OutboxItem.Copy sent x z := by
  have hlabel : x.label = z.label := h.label.trans hyz.label.symm
  have hset := h.setDup_eq
  cases hyz with
  | kept => exact h
  | sent tick hz hp hn =>
    exact ⟨hlabel, fun hs => absurd (hnoted hn) hs, h.kind, h.later, fun _ hq => absurd hq (by simp)⟩
  | requested tick hz ht =>
    refine ⟨hlabel, fun hs => ⟨(h.first hs).1, ?_⟩, h.kind, h.later, fun _ hq => absurd hq (by simp)⟩
    unfold OutboxItem.isRepeat
    simp [ht]
  | received =>
    refine ⟨hlabel, fun hs => ⟨(h.first hs).1, ?_⟩, h.kind, h.later, fun _ hq => absurd hq (by simp)⟩
    unfold OutboxItem.isRepeat
    simp
  | repeated hr =>
    have hs : sent := by
      by_contra hs
      exact absurd ((h.first hs).2.symm.trans hr) (by decide)
    exact ⟨hlabel, fun hn => absurd hs hn, h.kind, fun _ => Or.inr hset, fun _ _ => hset⟩
  | requeued hv hp =>
    have hrepeat (hs : sent) : y.requeued.buffer = mqttSetDup x.buffer := by
      have hr : y.isRepeat = true := by
        rw [h.isRepeat_eq hs, hp]
        decide
      unfold OutboxItem.requeued
      rw [if_pos hr]
      exact hset
    refine ⟨hlabel, fun hs => ?_, h.kind, fun hs => Or.inr (hrepeat hs), fun hs _ => hrepeat hs⟩
    -- no bit is set in what has not been sent
    obtain ⟨hb,hr⟩ := h.first hs
    refine ⟨?_, by unfold OutboxItem.isRepeat; simp [OutboxItem.requeued]⟩
    unfold OutboxItem.requeued
    simpa [hr] using hb

/-- The entry that notes the first transmission. -/
theorem first_sent (h : OutboxItem.Copy sent x y) (hs : ¬ sent) (hn : noted) (hyz : y.Turn v5 noted z)
    (ht : y.msgType = some .publish) (hq : 0 < y.msgQos) (hp : z.pending = .transmitted) :
    OutboxItem.Copy noted x z := by
  have hfollows := OutboxItem.Follows.of_turn hyz
  refine ⟨h.label.trans hyz.label.symm, fun hnot => absurd hn hnot, fun _ => ⟨?_, ?_⟩, fun _ => ?_,
    fun _ hqueued => ?_⟩
  · exact (congrArg Label.msgType hfollows.label).trans ht
  · rw [show z.msgQos = y.msgQos from congrArg Label.msgQos hfollows.label]
    exact hq
  · rw [← (h.first hs).1]
    exact hfollows.copy
  · exact absurd (hqueued.symm.trans hp) (by decide)

end OutboxItem.Copy

/-! The books: which transmissions are noted, and what goes out. -/

namespace Ledger
variable {v5 : Prop} {L L' L₀ : Ledger} {call : ℕ}

/-- Entries note traffic and forget none. -/
theorem move_traffic (hm : Move L L') : L.traffic <:+ L'.traffic := by
  have hsame : L.traffic <:+ L.traffic := List.suffix_refl _
  have hnote (t : Traffic) : L.traffic <:+ t :: L.traffic := List.suffix_cons _ _
  cases hm with
  | task hm =>
    cases hm with
    | api hm =>
      cases hm with
      | published x tick => exact hnote _
      | _ => exact hsame
    | finished x => exact hnote _
    | unknown msgId => exact hnote _
    | resent x => exact hnote _
    | _ => exact hsame
  | opened receiveMaximum => exact hnote _
  | openedV3 => exact hnote _
  | _ => exact hsame

theorem SentBefore.mono (h : L.SentBefore call) (ht : L.traffic <:+ L'.traffic) : L'.SentBefore call :=
  h.imp fun _ hsent => ht.subset hsent

/-- What has been sent whole had been before this entry, or it is a PUBLISH that waits for its
acknowledgement from now on. -/
theorem move_sentBefore (hm : Move L L') (hn : L.Neat) (hids : L.outbox.idsInUse.Nodup)
    (h : L'.SentBefore call) : L.SentBefore call ∨
      ∃ x ∈ L.outbox.list, x.origin.call = call ∧ x.msgType = some .publish ∧ 0 < x.msgQos ∧
        ∀ y ∈ L'.outbox.list, y.label = x.label → y.pending = .transmitted := by
  obtain ⟨msgId,h⟩ := h
  have hold (h : Traffic.sent call msgId ∈ L.traffic) : L.SentBefore call := ⟨msgId, h⟩
  cases hm with
  | task hm =>
    cases hm with
    | api hm =>
      cases hm with
      | published x tick hx hp ht hq hs hquota =>
        rcases List.mem_cons.mp h with heq | h
        · obtain ⟨hcall,-⟩ := Traffic.sent.inj heq
          refine Or.inr ⟨x, hx, hcall.symm, ht, hq, fun y hy hlabel => ?_⟩
          have hz := typed_numbered hn hx fun _ => hq
          rcases Outbox.marked_mem hn hids hx hz tick .transmitted hy with rfl | ⟨-,hne⟩
          · rfl
          · exact absurd (congrArg Label.msgId hlabel) hne
        · exact Or.inl (hold h)
      | _ => exact Or.inl (hold h)
    | resent x hx hp ht hq =>
      rcases List.mem_cons.mp h with heq | h
      · obtain ⟨hcall,-⟩ := Traffic.sent.inj heq
        refine Or.inr ⟨x, hx, hcall.symm, ht, hq, fun y hy hlabel => ?_⟩
        rw [Outbox.eq_of_label hn hx hy hlabel]
        exact hp
      · exact Or.inl (hold h)
    | finished x => exact Or.inl (hold (List.mem_of_ne_of_mem (by simp) h))
    | unknown msgId => exact Or.inl (hold (List.mem_of_ne_of_mem (by simp) h))
    | _ => exact Or.inl (hold h)
  | opened receiveMaximum => exact Or.inl (hold (List.mem_of_ne_of_mem (by simp) h))
  | openedV3 => exact Or.inl (hold (List.mem_of_ne_of_mem (by simp) h))
  | _ => exact Or.inl (hold h)

/-- An entry for a write changes the wire alone. -/
theorem move_wire (hm : Move L L') : L'.wire = L.wire ∨ ∃ c, L'.wire = c :: L.wire ∧
    c.notes = L.traffic.length ∧ (c.site = .resend → L.Resends c) := by
  cases hm with
  | task hm =>
    cases hm with
    | api hm =>
      cases hm with
      | write c hn hc => exact Or.inr ⟨c, rfl, hn, hc⟩
      | _ => exact Or.inl rfl
    | _ => exact Or.inl rfl
  | _ => exact Or.inl rfl

/-- The stored copies of what the outbox holds. -/
structure Copies (L : Ledger) : Prop where
  copies : ∀ y ∈ L.outbox.list, ∃ p ∈ L.stored, OutboxItem.Copy (L.SentBefore y.origin.call) p.1 y
  calls : ∀ call, L.SentBefore call → call ≤ L.calls
  clean : ∀ p ∈ L.stored, p.1.msgType = some .publish →
    p.1.buffer ≠ [] ∧ mqttGetDup (p.1.buffer.headD 0) = 0

theorem move_clean (hm : Move L L')
    (h : ∀ p ∈ L.stored, p.1.msgType = some .publish →
      p.1.buffer ≠ [] ∧ mqttGetDup (p.1.buffer.headD 0) = 0) :
    ∀ p ∈ L'.stored, p.1.msgType = some .publish →
      p.1.buffer ≠ [] ∧ mqttGetDup (p.1.buffer.headD 0) = 0 := by
  cases hm with
  | task hm =>
    cases hm with
    | api hm =>
      cases hm with
      | publish x hx ht hid hd =>
        intro p hp hpub
        rcases List.mem_cons.mp hp with rfl | hp
        · exact ⟨hx.buffer, hd⟩
        · exact h p hp hpub
      | request x hx ht =>
        intro p hp hpub
        rcases List.mem_cons.mp hp with rfl | hp
        · rcases ht with ht | ht
          · exact absurd (ht.symm.trans hpub) (by decide)
          · exact absurd (ht.symm.trans hpub) (by decide)
        · exact h p hp hpub
      | _ => exact h
    | _ => exact h
  | _ => exact h

theorem move_copies (hm : Move L L') (ht : L.Traced v5) (hn' : L'.Neat)
    (hids' : L'.outbox.idsInUse.Nodup) (h : L.Copies) : L'.Copies := by
  have hgrown := (move_grows hm).2
  refine ⟨fun z hz => ?_, fun call hcall => ?_, move_clean hm h.clean⟩
  · rcases move_turns hm ht hn' hids' z hz with hnew | ⟨y,hy,hturn⟩
    · -- the call that stored it is a new one
      have hunsent : ¬ L'.SentBefore z.origin.call := by
        intro hsent
        rcases move_sentBefore hm ht.neat ht.ids hsent with hold | ⟨x,hx,hcall,-⟩
        · exact absurd (h.calls _ hold) (Nat.not_le_of_lt hnew.call)
        · have hle : x.origin.call ≤ L.calls := ht.neat.calls x.label (List.mem_map_of_mem hx)
          exact absurd (hcall ▸ hle) (Nat.not_le_of_lt hnew.call)
      obtain ⟨p,hp,hlabel,hbuffer⟩ := hnew.stored
      exact ⟨p, hp, hlabel, fun _ => ⟨hbuffer.symm, hnew.first⟩, fun hs => absurd hs hunsent,
        fun hs => absurd hs hunsent, fun hs => absurd hs hunsent⟩
    · obtain ⟨p,hp,hcopy⟩ := h.copies y hy
      have hsame : z.origin.call = y.origin.call := congrArg (fun a => a.origin.call) hturn.label
      refine ⟨p, hgrown.2 hp, ?_⟩
      rw [hsame]
      by_cases hold : L.SentBefore y.origin.call
      · have hiff : L'.SentBefore y.origin.call ↔ L.SentBefore y.origin.call :=
          ⟨fun _ => hold, fun hs => hs.mono (move_traffic hm)⟩
        rw [hiff] at hturn ⊢
        exact hcopy.turn hturn fun hs => hs
      · by_cases hsent : L'.SentBefore y.origin.call
        · rcases move_sentBefore hm ht.neat ht.ids hsent with hs | ⟨x,hx,hcall,hpub,hq,hmarked⟩
          · exact absurd hs hold
          · have heq : x = y := ht.eq_of_call hy hx hcall
            subst heq
            exact hcopy.first_sent hold hsent hturn hpub hq (hmarked z hz hturn.label)
        · have hcopy' := hcopy.turn hturn fun hs => absurd hs hsent
          have hiff : L'.SentBefore y.origin.call ↔ L.SentBefore y.origin.call :=
            ⟨fun hs => absurd hs hsent, fun hs => absurd hs hold⟩
          rwa [hiff]
  · rcases move_sentBefore hm ht.neat ht.ids hcall with hold | ⟨x,hx,rfl,-⟩
    · exact (h.calls call hold).trans hgrown.1
    · exact (ht.neat.calls x.label (List.mem_map_of_mem hx)).trans hgrown.1

/-- The first `notes` entries tell that a PUBLISH has been sent whole for this call. -/
def SentBy (L : Ledger) (notes call : ℕ) : Prop :=
  ∃ msgId, Traffic.sent call msgId ∈ L.traffic.drop (L.traffic.length-notes)

theorem sentBy_length : L.SentBy L.traffic.length call ↔ L.SentBefore call := by
  unfold SentBy SentBefore
  rw [Nat.sub_self, List.drop_zero]

/-- What is noted later says nothing of it. -/
theorem sentBy_mono {notes : ℕ} (hn : notes ≤ L.traffic.length) (ht : L.traffic <:+ L'.traffic) :
    L'.SentBy notes call ↔ L.SentBy notes call := by
  obtain ⟨ts,ht⟩ := ht
  unfold SentBy
  have hsplit : L'.traffic.length-notes = ts.length+(L.traffic.length-notes) := by
    rw [← ht, List.length_append]
    omega
  rw [hsplit, ← ht, ← List.drop_drop, List.drop_left]

/-- A write of the worker that repeats a stored packet, in the books `L` which were at `L₀` before: its
bytes as they were stored if it had not been sent whole before the write, and with the DUP bit if it had. -/
structure Repeats (L₀ L : Ledger) (c : Chunk) : Prop where
  stored : ∃ p ∈ L.stored, c.origin = p.1.origin ∧
    (¬ L.SentBy c.notes p.1.origin.call → c.data = p.1.buffer) ∧
    (L.SentBy c.notes p.1.origin.call → c.data = mqttSetDup p.1.buffer)
  notes : c.notes ≤ L.traffic.length
  awaited : ∀ x ∈ L₀.outbox.list, x.msgType = some .publish → x.pending = .acknowledged →
    c.origin.call ≠ x.origin.call

theorem Repeats.mono {c : Chunk} (h : L₀.Repeats L c) (hs : L.stored ⊆ L'.stored)
    (ht : L.traffic <:+ L'.traffic) : L₀.Repeats L' c where
  stored := by
    obtain ⟨p,hp,horigin,hdata⟩ := h.stored
    refine ⟨p, hs hp, horigin, ?_⟩
    rw [sentBy_mono h.notes ht]
    exact hdata
  notes := h.notes.trans ht.length_le
  awaited := h.awaited

/-- The books of a tame run at `L`, with what has gone out again since `L₀`. -/
structure Resending (v5 : Prop) (L₀ L : Ledger) : Prop where
  since : L₀.Since v5 L
  copies : L.Copies
  wire : ∃ cs, L.wire = cs ++ L₀.wire ∧ ∀ c ∈ cs, c.site = .resend → L₀.Repeats L c

/-- What the worker gives to `esp_mqtt_write`, by what was stored. -/
theorem Resending.repeats {c : Chunk} (h : L₀.Resending v5 L) (h₀ : L₀.Traced v5)
    (hn : c.notes = L.traffic.length) (hc : L.Resends c) : L₀.Repeats L c := by
  obtain ⟨y,hy,hpending,horigin,hdata⟩ := hc
  obtain ⟨p,hp,hcopy⟩ := h.copies.copies y hy
  have hsame : p.1.origin = y.origin := congrArg Label.origin hcopy.label
  obtain ⟨hfirst,hagain⟩ := hcopy.written hpending
  refine ⟨⟨p, hp, horigin.trans hsame.symm, ?_⟩, hn.le, fun x hx ht hrests hcall => ?_⟩
  · rw [hsame, hn, sentBy_length]
    exact ⟨fun hsent => hdata.trans (hfirst hsent), fun hsent => hdata.trans (hagain hsent)⟩
  · -- it would be the packet that rests
    have hlabel := h.since.same_call h₀ hx hy (horigin ▸ hcall)
    have hpath := (h.since.follows h₀ hx hy hlabel).path ht
    have hstays := PendingState.acknowledged_stays hpath hrests
    rcases hpending with hq | hq
    · exact absurd (hq.symm.trans hstays) (by decide)
    · exact absurd (hq.symm.trans hstays) (by decide)

theorem Resending.move (hm : Move L L') (h₀ : L₀.Traced v5) (ht : L'.Tame v5) (h : L₀.Resending v5 L) :
    L₀.Resending v5 L' := by
  have hsince := h.since.move hm ht
  have htraffic := move_traffic hm
  have hstored := (move_grows hm).2.2
  refine ⟨hsince, move_copies hm h.since.traced hsince.traced.neat hsince.traced.ids h.copies, ?_⟩
  obtain ⟨cs,hcs,hrepeats⟩ := h.wire
  have hgrown (c : Chunk) (hc : c ∈ cs) (hs : c.site = .resend) : L₀.Repeats L' c :=
    (hrepeats c hc hs).mono hstored htraffic
  rcases move_wire hm with hsame | ⟨k,hk,hn,hresends⟩
  · exact ⟨cs, hsame.trans hcs, hgrown⟩
  · refine ⟨k :: cs, by rw [hk, hcs, List.cons_append], fun c hc hs => ?_⟩
    rcases List.mem_cons.mp hc with rfl | hc
    · exact (h.repeats h₀ hn (hresends hs)).mono hstored htraffic
    · exact hgrown c hc hs

end Ledger

/-! What a publishing call sends itself goes out before the call is over. -/

/-- A PUBLISH that goes out while it is being published. -/
def Chunk.Publishes (c : Chunk) : Prop := c.site ≠ .resend ∧ c.first = true ∧ c.msgType = some .publish

/-- Behind the wire `i.2` no call up to `i.1` has published. -/
structure PublishesLater (i : ℕ × List Chunk) (c : Core) : Prop where
  calls : i.1 ≤ c.calls
  wire : ∃ cs, c.wire = cs ++ i.2 ∧ ∀ k ∈ cs, k.Publishes → i.1 < k.origin.call

/-- The outbound message may be written at this site. -/
def LateAt (i : ℕ × List Chunk) (s : Site) (f : Bool) (c : Core) : Prop :=
  s ≠ .resend → f = true → packetType c.connection.outboundMessage.data = some .publish → i.1 < c.origin.call

theorem PublishesLater.recordWrite {i : ℕ × List Chunk} {w : World} {s : Site} {f : Bool}
    (h : PublishesLater i w.core) (hlate : LateAt i s f w.core) : PublishesLater i (w.recordWrite s f).core := by
  obtain ⟨cs,hcs,hlater⟩ := h.wire
  refine ⟨h.calls, w.chunk s f :: cs, ?_, fun k hk hpub => ?_⟩
  · change w.chunk s f :: w.core.wire = _
    rw [hcs, List.cons_append]
  · rcases List.mem_cons.mp hk with rfl | hk
    · exact hlate hpub.1 hpub.2.1 hpub.2.2
    · exact hlater k hk hpub

theorem lateAt_of_composed {i : ℕ × List Chunk} {s : Site} {f : Bool} {c : Core} {type : MsgType}
    (hc : Composed type c.connection) (htype : type ≠ .publish) : LateAt i s f c := by
  intro _ _ hpub
  rcases hc with hc | hc
  · rw [hc] at hpub
    exact absurd hpub (by decide)
  · exact absurd (Option.some.inj (hc.symm.trans hpub)) htype

theorem Control.ne_publish {type : MsgType} {build : Connection → Connection} (h : Control type build) :
    type ≠ .publish := by
  cases h <;> decide

theorem enqueuePublish_later {i : ℕ × List Chunk} {w : World} (h : PublishesLater i w.core)
    (hcalls : i.1 < w.calls) (topic : Option (List UInt8)) (d : CData) (len : ℤ) (qos retain : ℕ) (store : Bool) :
    PublishesLater i (w.mqttClientEnqueuePublish topic d len qos retain store).2.core ∧
      i.1 < (w.mqttClientEnqueuePublish topic d len qos retain store).2.core.origin.call := by
  obtain ⟨c,o,ms,_,hc,-⟩ := mqttClientEnqueuePublish_core w topic d len qos retain store
  rw [hc]
  exact ⟨⟨h.calls, h.wire⟩, hcalls⟩

theorem PublishesLater.beginCall {i : ℕ × List Chunk} {w : World} (h : PublishesLater i w.core) (c : ApiCall)
    (seen : ℕ) : PublishesLater i (w.beginCall c seen).core :=
  ⟨h.calls.trans (Nat.le_succ _), h.wire⟩

def laterRules : RunRules (ℕ × List Chunk) where
  P := PublishesLater
  Q := PublishesLater
  R i s f c := PublishesLater i c ∧ LateAt i s f c
  M i _ c := PublishesLater i c ∧ i.1 < c.origin.call
  L i _ _ c := PublishesLater i c
  Top _ := True
  relax h := h
  settle h := h.1
  sent _ h _ := h.1.recordWrite h.2
  timedOut h _ := ⟨h.1.recordWrite h.2, fun _ => h.1.recordWrite h.2⟩
  failed {i s f _} h _ := by
    have h' := h.1.recordWrite h.2
    exact ⟨i, ⟨h'.calls, h'.wire⟩, fun _ hw => ⟨⟨hw.calls, hw.wire⟩, fun _ => ⟨hw.calls, hw.wire⟩⟩⟩
  aborted h := ⟨h.calls, h.wire⟩
  control _ hb _ h _ := ⟨⟨h.calls, h.wire⟩, lateAt_of_composed (hb.composed _) hb.ne_publish⟩
  controlMqtt5 {_ _ type _ qos m w} _ hb _ h _ _ hm := by
    have hc : Composed type {w.connection with outboundMessage := m} := by
      rcases hm with hm | ⟨rest,hm⟩
      · exact Or.inl hm
      · exact Composed.of_headerByte hm
    exact ⟨⟨h.calls, h.wire⟩, lateAt_of_composed hc hb.ne_publish⟩
  load _ h _ _ _ := ⟨⟨h.calls, h.wire⟩, fun hs => absurd rfl hs⟩
  outbox h _ := ⟨h.calls, h.wire⟩
  outboxR h _ := ⟨⟨h.1.calls, h.1.wire⟩, h.2⟩
  reset h := ⟨h.calls, h.wire⟩
  connecting h _ _ := ⟨h.calls, h.wire⟩
  connected _ h _ := ⟨h.calls, h.wire⟩
  reinit h _ := ⟨h.calls, h.wire⟩
  begins {_ c seen _} h := h.beginCall c seen
  setConfig {_ s seen _} h := by
    have h' := h.beginCall (.setConfig s) seen
    exact ⟨h'.calls, h'.wire⟩
  enqueue {_ topic d len qos retain store seen w} h := by
    have h' := h.beginCall (.enqueue topic d len qos retain store) seen
    rcases espMqttClientEnqueue_core (w.beginCall (.enqueue topic d len qos retain store) seen) topic d
      len qos retain store with he | he
    · rw [he]
      exact h'
    · rw [he]
      exact (enqueuePublish_later h' (Nat.lt_succ_of_le h.calls) topic d (effectiveLen d len) qos retain store).1
  publish {_ topic d len qos retain seen w} h r hr := by
    have h' := h.beginCall (.publish topic d len qos retain) seen
    have hdone := enqueuePublish_later h' (Nat.lt_succ_of_le h.calls) topic d (effectiveLen d len) qos
      retain false
    rw [hr] at hdone
    exact ⟨fun _ => hdone.1, fun _ => hdone⟩
  unsent h := ⟨h.1.calls, h.1.wire⟩
  cleared h := ⟨h.calls, h.wire⟩
  overQuota h _ := h.1
  firstChunk {i b _ w} h _ _ := by
    have hp : PublishesLater i (w.inChunk b).core := ⟨h.1.calls, h.1.wire⟩
    have hlate : LateAt i .publish true (w.inChunk b).core := fun _ _ _ => h.2
    refine ⟨i, ⟨hp,hlate⟩, fun v hv _ => ?_, fun _ h' => ⟨h'.calls, h'.wire⟩⟩
    subst hv
    exact ⟨(hp.recordWrite hlate).calls, (hp.recordWrite hlate).wire⟩
  nextChunk {i _ _ piece w} h _ _ _ := by
    have hp : PublishesLater i (w.refill piece).core := ⟨h.calls, h.wire⟩
    have hlate : LateAt i .publish false (w.refill piece).core := fun _ hf => absurd hf (by decide)
    refine ⟨⟨hp,hlate⟩, fun v hv _ => ?_⟩
    subst hv
    exact ⟨(hp.recordWrite hlate).calls, (hp.recordWrite hlate).wire⟩
  lastChunk h _ := h
  request {i c _ type build seen w} _ h w1 hw1 := by
    obtain ⟨e,he,-⟩ := composeRequest_core (w.beginCall c seen).resetPendingMessage type seen build
    rw [← hw1] at he
    have h' := h.beginCall c seen
    have hp : PublishesLater i w1.core := by
      rw [he]
      exact ⟨h'.calls, h'.wire⟩
    have hlate : i.1 < w1.core.origin.call := by
      rw [he]
      exact Nat.lt_succ_of_le h.calls
    exact ⟨hp, fun _ _ => ⟨⟨hp.calls, hp.wire⟩, fun _ _ _ => hlate⟩⟩
  moves h _ _ := ⟨h.calls, h.wire⟩
  exits h := ⟨h.calls, h.wire⟩
  starts h _ _ := ⟨h.calls, h.wire⟩
  refuses h _ := ⟨h.calls, h.wire⟩
  stops h _ := ⟨h.calls, h.wire⟩
  idles h _ := ⟨h.calls, h.wire⟩
  joins h := ⟨h.calls, h.wire⟩

/-! Runs. -/

theorem run_copies (s : Settings) (incremental : Bool) (e : Environment) (n : ℕ) (ss : List ClientStep)
    {v5 : Prop} (hinit : s.information.protocolVer = .v5 → v5)
    (htame : (clientRun s incremental e n ss).ledger.Tame v5) :
    (clientRun s incremental e n ss).ledger.Traced v5 ∧ (clientRun s incremental e n ss).ledger.Copies := by
  have hempty : (clientInit s incremental e).ledger.Copies := by
    refine ⟨fun y hy => absurd hy List.not_mem_nil, fun call hcall => ?_, fun p hp => absurd hp List.not_mem_nil⟩
    exact absurd hcall.choose_spec List.not_mem_nil
  refine moves_induction (P := fun L => L.Tame v5 → L.Traced v5 ∧ L.Copies) (fun L L' hm ih ht => ?_)
    (run_moves s incremental e n ss) (fun _ => ⟨init_traced s incremental e hinit, hempty⟩) htame
  obtain ⟨htraced,hcopies⟩ := ih (ht.before hm)
  have htraced' := move_traced hm ht htraced
  exact ⟨htraced', move_copies hm htraced htraced'.neat htraced'.ids hcopies⟩

/-- The whole run and what has gone out again since a part of it. -/
theorem run_resending (s : Settings) (incremental : Bool) (e : Environment) (n : ℕ)
    (ss ss' : List ClientStep) {v5 : Prop} (hinit : s.information.protocolVer = .v5 → v5)
    (htame : (clientRun s incremental e n (ss ++ ss')).ledger.Tame v5) :
    (clientRun s incremental e n ss).ledger.Resending v5 (clientRun s incremental e n (ss ++ ss')).ledger := by
  have hmoves := run_moves_append s incremental e n ss ss'
  obtain ⟨htraced,hcopies⟩ := run_copies s incremental e n ss hinit (htame.before_moves hmoves)
  have hstart : (clientRun s incremental e n ss).ledger.Resending v5 (clientRun s incremental e n ss).ledger :=
    ⟨.refl htraced, hcopies, [], rfl, fun c hc => absurd hc List.not_mem_nil⟩
  exact moves_induction (P := fun L => L.Tame v5 → (clientRun s incremental e n ss).ledger.Resending v5 L)
    (fun _ _ hm ih ht => (ih (ht.before hm)).move hm htraced ht) hmoves (fun _ => hstart) htame

/-- What goes out behind a part of the run: a PUBLISH is of a call that has come since, or the worker
repeats it. -/
theorem run_writes (s : Settings) (incremental : Bool) (e : Environment) (n : ℕ)
    (ss ss' : List ClientStep) {v5 : Prop} (hinit : s.information.protocolVer = .v5 → v5)
    (htame : (clientRun s incremental e n (ss ++ ss')).ledger.Tame v5) :
    ∃ cs, (clientRun s incremental e n (ss ++ ss')).wire = cs ++ (clientRun s incremental e n ss).wire ∧
      ∀ c ∈ cs, c.first = true → c.msgType = some .publish →
        (clientRun s incremental e n ss).calls < c.origin.call ∨ c.site = .resend ∧
          (clientRun s incremental e n ss).ledger.Repeats (clientRun s incremental e n (ss ++ ss')).ledger c := by
  obtain ⟨cs,hcs,hrepeats⟩ := (run_resending s incremental e n ss ss' hinit htame).wire
  have hstart : PublishesLater ((clientRun s incremental e n ss).calls, (clientRun s incremental e n ss).wire)
      (clientRun s incremental e n ss).core :=
    ⟨Nat.le_refl _, [], rfl, fun k hk => absurd hk List.not_mem_nil⟩
  obtain ⟨ks,hks,hlater⟩ := (laterRules.append_rule s incremental e n ss ss' trivial hstart).wire
  -- both describe what has been added to the wire
  have hsame : ks = cs := List.append_cancel_right (hks.symm.trans hcs)
  subst hsame
  refine ⟨ks, hcs, fun c hc hfirst ht => ?_⟩
  by_cases hsite : c.site = .resend
  · exact Or.inr ⟨hsite, hrepeats c hc hsite⟩
  · exact Or.inl (hlater c hc ⟨hsite, hfirst, ht⟩)

/-- A PUBLISH that a PUBREC has come for, in any run whose identifiers are distinct: as long as it is stored
it stays acknowledged, and no PUBLISH packet of its call goes out any more, on whatever connection. -/
theorem acknowledged_publish_rests (s : Settings) (incremental : Bool) (e : Environment) (n : ℕ)
    (ss ss' : List ClientStep) (hfresh : ∀ p ∈ (clientRun s incremental e n (ss ++ ss')).stored,
      p.1.isHandshake = true → p.1.msgId ∉ p.2)
    (x : OutboxItem) (hx : x ∈ (clientRun s incremental e n ss).outbox.list)
    (ht : x.msgType = some .publish) (hp : x.pending = .acknowledged) :
    (∀ y ∈ (clientRun s incremental e n (ss ++ ss')).outbox.list, y.origin.call = x.origin.call →
      y.pending = .acknowledged) ∧
    ∃ cs, (clientRun s incremental e n (ss ++ ss')).wire = cs ++ (clientRun s incremental e n ss).wire ∧
      ∀ c ∈ cs, c.first = true → c.msgType = some .publish → c.origin.call ≠ x.origin.call := by
  have htame : (clientRun s incremental e n (ss ++ ss')).ledger.Tame True := ⟨hfresh, fun _ _ _ => trivial⟩
  have htraced := run_traced s incremental e n ss (fun _ => trivial)
    (htame.before_moves (run_moves_append s incremental e n ss ss'))
  have hsince := run_since s incremental e n ss ss' (fun _ => trivial) htame
  obtain ⟨cs,hcs,hwrites⟩ := run_writes s incremental e n ss ss' (fun _ => trivial) htame
  refine ⟨fun y hy hcall => ?_, cs, hcs, fun c hc hfirst hpub hcall => ?_⟩
  · have hfollows := hsince.follows htraced hx hy (hsince.same_call htraced hx hy hcall)
    exact PendingState.acknowledged_stays (hfollows.path ht) hp
  · rcases hwrites c hc hfirst hpub with hlater | ⟨-,hrepeats⟩
    · have hle : x.origin.call ≤ (clientRun s incremental e n ss).calls :=
        htraced.neat.calls x.label (List.mem_map_of_mem hx)
      exact absurd (hcall ▸ hle) (Nat.not_le_of_lt hlater)
    · exact hrepeats.awaited x hx ht hp hcall

/-- The PUBREC comes in the first pass of the worker; three more follow. -/
theorem acknowledged_publish_rests_received :
    ∃ cs, (clientRun smallSettings false (brokerSending [0x50, 2, 0, 7]) 0
        (connectSteps ++ publishQos 2 ++ passSteps ++ (passSteps ++ passSteps))).wire =
      cs ++ (clientRun smallSettings false (brokerSending [0x50, 2, 0, 7]) 0
        (connectSteps ++ publishQos 2 ++ passSteps)).wire ∧
      ∀ c ∈ cs, c.first = true → c.msgType = some .publish → c.origin.call ≠ 1 :=
  (acknowledged_publish_rests smallSettings false (brokerSending [0x50, 2, 0, 7]) 0
    (connectSteps ++ publishQos 2 ++ passSteps) (passSteps ++ passSteps) (by decide +kernel)
    (receivedItem .acknowledged) (by decide +kernel) rfl rfl).2

/-- Before the chunk `c` went out, a PUBLISH had been sent whole for this call. -/
def World.SentWholeBefore (w : World) (c : Chunk) (call : ℕ) : Prop :=
  ∃ msgId, Traffic.sent call msgId ∈ w.traffic.drop (w.traffic.length-c.notes)

/-- A stored PUBLISH, in any run whose identifiers are distinct: the copy has no DUP bit, and when its bytes
go out later, it is the worker that repeats them, as they were stored if the packet had not been sent whole
before that write, and with the DUP bit set, and nothing else changed, if it had. -/
theorem repeated_publish_bytes (s : Settings) (incremental : Bool) (e : Environment) (n : ℕ)
    (ss ss' : List ClientStep) (hfresh : ∀ p ∈ (clientRun s incremental e n (ss ++ ss')).stored,
      p.1.isHandshake = true → p.1.msgId ∉ p.2)
    (p : OutboxItem × List ℕ) (hp : p ∈ (clientRun s incremental e n ss).stored)
    (ht : p.1.msgType = some .publish) :
    p.1.buffer ≠ [] ∧ mqttGetDup (p.1.buffer.headD 0) = 0 ∧
    ∃ cs, (clientRun s incremental e n (ss ++ ss')).wire = cs ++ (clientRun s incremental e n ss).wire ∧
      ∀ c ∈ cs, c.first = true → c.msgType = some .publish → c.origin.call = p.1.origin.call →
        c.site = .resend ∧
        (¬ (clientRun s incremental e n (ss ++ ss')).SentWholeBefore c p.1.origin.call →
          c.data = p.1.buffer) ∧
        ((clientRun s incremental e n (ss ++ ss')).SentWholeBefore c p.1.origin.call →
          WithDup p.1.buffer c.data) := by
  have htame : (clientRun s incremental e n (ss ++ ss')).ledger.Tame True := ⟨hfresh, fun _ _ _ => trivial⟩
  have hcopies := run_copies s incremental e n ss (fun _ => trivial)
    (htame.before_moves (run_moves_append s incremental e n ss ss'))
  have hsince := run_since s incremental e n ss ss' (fun _ => trivial) htame
  obtain ⟨cs,hcs,hwrites⟩ := run_writes s incremental e n ss ss' (fun _ => trivial) htame
  obtain ⟨hne,hclean⟩ := hcopies.2.clean p hp ht
  refine ⟨hne, hclean, cs, hcs, fun c hc hfirst hpub hcall => ?_⟩
  rcases hwrites c hc hfirst hpub with hlater | ⟨hsite,hrepeats⟩
  · have hle : p.1.origin.call ≤ (clientRun s incremental e n ss).calls := hcopies.1.calls.2 p hp
    exact absurd (hcall ▸ hle) (Nat.not_le_of_lt hlater)
  · obtain ⟨q,hq,horigin,hfirst,hagain⟩ := hrepeats.stored
    have hsame : q.1.origin.call = p.1.origin.call := by
      rw [← horigin]
      exact hcall
    have heq := hsince.traced.stored_eq (hsince.stored hp) hq hsame
    subst heq
    refine ⟨hsite, hfirst, fun hsent => ?_⟩
    rw [hagain hsent]
    exact withDup_mqttSetDup hne

/-- A broker that accepts and then is silent, while time passes. -/
def silentBroker : World.Environment :=
  {plainEnvironment [some [0x20, 2, 0, 0]] (List.replicate 9 (.chunk 9)) [] with
    ticks := [0, 0, 0, 0, 0, 0, 0, 0, 1500, 1500, 1500]}

/-- A QoS 1 message as it is stored. -/
def silentItem : OutboxItem :=
  ⟨0, [0x32, 6, 0, 1, 0x74, 0, 7, 0x78], 7, some .publish, 1, 0, .queued, ⟨1, 1, false⟩⟩

/-- It is sent, and after a while it is sent again with the DUP bit. -/
theorem repeated_publish_bytes_timeout :
    ((clientRun smallSettings false silentBroker 0
      (connectSteps ++ publishQos 1 ++ passSteps)).wire.map fun c => (c.site, c.data)).take 2 =
        [(.resend, 0x3a :: silentItem.buffer.tail), (.publish, silentItem.buffer)] ∧
    ∃ cs, (clientRun smallSettings false silentBroker 0
        (connectSteps ++ publishQos 1 ++ passSteps)).wire =
      cs ++ (clientRun smallSettings false silentBroker 0 (connectSteps ++ publishQos 1)).wire ∧
      ∀ c ∈ cs, c.first = true → c.msgType = some .publish → c.origin.call = 1 →
        c.site = .resend ∧
        (¬ (clientRun smallSettings false silentBroker 0
            (connectSteps ++ publishQos 1 ++ passSteps)).SentWholeBefore c 1 → c.data = silentItem.buffer) ∧
        ((clientRun smallSettings false silentBroker 0
            (connectSteps ++ publishQos 1 ++ passSteps)).SentWholeBefore c 1 →
          WithDup silentItem.buffer c.data) :=
  ⟨by decide +kernel, (repeated_publish_bytes smallSettings false silentBroker 0 (connectSteps ++ publishQos 1)
    passSteps (by decide +kernel) (silentItem, []) (by decide +kernel) rfl).2.2⟩

end EspMqtt
