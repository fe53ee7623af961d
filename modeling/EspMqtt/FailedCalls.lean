import EspMqtt.Admission

/-! What a call that reports failure leaves in the outbox. -/
namespace EspMqtt
open World Ledger Relation

/-- How a call can return at `w`: its tests turn it away, or it gets the lock there,
`seen` being the connection that was up when it made its tests. -/
inductive Returns (n : ℕ) (c : ApiCall) (seen : ℕ) (w : World) : ℤ × World → Prop
  | check (r : ℤ) (h : w.apiCheck c = some r) : Returns n c seen w (r, w)
  | body : Returns n c seen w (apiBody (handlerAt n) c seen w)

/-- The call stores its packet, goes on to send it, and the transport does not take
all of it. -/
def Stranded (w : World) (c : ApiCall) (seen : ℕ) : Prop :=
  w.passes c = true ∧ (w.composed c seen).nothingComposed = false ∧ stores c = true ∧
    w.hasMemory = true ∧ w.sends c = true ∧ takes w.transport (w.writes c seen) = false

/-- Packets that later calls store belong to those calls. -/
theorem apiMoves_spare {k : ℕ} {L L' : Ledger} (h : ReflTransGen ApiMove L L') (hk : k ≤ L.calls)
    (hL : ∀ a ∈ L.outbox.labels, a.origin.call ≠ k) :
    k ≤ L'.calls ∧ ∀ a ∈ L'.outbox.labels, a.origin.call ≠ k := by
  induction h with
  | refl => exact ⟨hk,hL⟩
  | tail _ hmove ih =>
    obtain ⟨hcalls,hlabels⟩ := ih
    rcases apiMove_labels hmove with hs | ⟨x,hx⟩
    · exact ⟨hcalls.trans hs.calls, fun a ha => hlabels a (hs.labels.subset ha)⟩
    · refine ⟨hcalls.trans (hx.calls ▸ Nat.le_succ _), fun a ha => ?_⟩
      rw [hx.labels, List.mem_append, List.mem_singleton] at ha
      rcases ha with ha | rfl
      · exact hlabels a ha
      · have hcall : x.label.origin.call = _ := hx.fresh.call
        rw [hcall]
        omega

/-- Calls that bring no packet leave the outbox alone. -/
theorem apiBody_outbox (H : Handler) {c : ApiCall} (hc : brings c = false) (seen : ℕ) (w : World) :
    (apiBody H c seen w).2.outbox = w.outbox := by
  cases c with
  | disconnect => rfl
  | reconnect =>
    change (espMqttClientReconnect (w.beginCall .reconnect seen)).2.outbox = _
    unfold espMqttClientReconnect
    split <;> rfl
  | setConfig s => rfl
  | _ => exact absurd hc (by simp [brings])

/-- A failed call that is not stranded has left nothing behind. -/
theorem spared_of_outcome {n : ℕ} {c : ApiCall} {seen : ℕ} {w : World} {r : ℤ × World}
    (hw : ∀ a ∈ w.outbox.labels, a.origin.call ≤ w.calls) (ho : Outcome (handlerAt n) w c seen r)
    (hneg : r.1 < 0) (hgood : ¬ Stranded w c seen) :
    ∀ a ∈ r.2.outbox.labels, a.origin.call ≠ w.calls+1 := by
  have hold : ∀ a ∈ w.outbox.labels, a.origin.call ≠ w.calls+1 := by
    intro a ha
    have hle := hw a ha
    omega
  cases ho with
  | refused _ ho => exact ho ▸ hold
  | kept v hv _ hr ho =>
    -- a stored packet would have been reported by its identifier
    have hs : stores c = false := by
      refine eq_false_of_ne_true fun hs => ?_
      have hpos := hr.mpr hs
      omega
    rw [ho, hv.unstored hs]
    exact hold
  | sent v hv _ _ hr =>
    exact absurd hneg (by omega)
  | failed v hv hsends ht _ hmoves =>
    have hs : stores c = false := by
      refine eq_false_of_ne_true fun hs => hgood ?_
      exact ⟨hv.passed, hv.composed, hs, hv.memory hs, hsends, ht⟩
    have hlabels : ∀ a ∈ v.ledger.outbox.labels, a.origin.call ≠ w.calls+1 := by
      have hbox : v.ledger.outbox = w.outbox := hv.unstored hs
      rw [hbox]
      exact hold
    exact (apiMoves_spare (hmoves (handlerAt_calls n)) hv.calls.ge hlabels).2

/-- A stranded packet is in the outbox, and the call has failed. -/
theorem stranded_outcome {c : ApiCall} {seen : ℕ} {w : World} {r : ℤ × World}
    (ho : Outcome (handlerAt 0) w c seen r) (h : Stranded w c seen) :
    r.1 < 0 ∧ ∃ x ∈ r.2.outbox.list, x.origin.call = w.calls+1 := by
  obtain ⟨hpasses,hcomposed,hstores,hmemory,hsends,htakes⟩ := h
  cases ho with
  | refused _ _ hwhy =>
    rcases hwhy hpasses with hn | ⟨-,hn⟩
    · exact absurd (hcomposed.symm.trans hn) (by simp)
    · exact absurd (hmemory.symm.trans hn) (by simp)
  | kept v _ hs => exact absurd (hsends.symm.trans hs) (by simp)
  | sent v _ _ ht => exact absurd (htakes.symm.trans ht) (by simp)
  | failed v hv _ _ hneg _ hidle =>
    obtain ⟨hpublish,hrequest⟩ := hidle rfl
    obtain ⟨x,-,hcall,htype,-,hlabels⟩ := hv.stored hstores
    have hmem : x.label ∈ v.outbox.labels := by
      rw [hlabels]
      exact List.mem_append_right _ (List.mem_singleton_self _)
    obtain ⟨y,hy,hlabel⟩ := List.mem_map.mp hmem
    have hycall : y.origin.call = w.calls+1 :=
      (congrArg (fun a : Label => a.origin.call) hlabel).trans hcall
    refine ⟨hneg, y, ?_, hycall⟩
    rcases htype with ht | hreq
    · exact hpublish y hy ((congrArg Label.msgType hlabel).trans ht)
    · exact (hrequest hreq).symm ▸ hy

/-- A call that returns a negative value has none of its packets in the outbox,
exactly unless it stores its packet and then cannot send it. -/
theorem failed_call_stores_nothing (s : Settings) (incremental : Bool) (e : Environment) (k : ℕ)
    (ss : List ClientStep) (c : ApiCall) (seen : ℕ) :
    (∀ n r, Returns n c seen (clientRun s incremental e k ss) r → r.1 < 0 →
      ∀ x ∈ r.2.outbox.list, x.origin.call ≠ (clientRun s incremental e k ss).calls+1) ↔
    ¬ Stranded (clientRun s incremental e k ss) c seen := by
  have hneat := (run_neat s incremental e k ss).calls
  generalize clientRun s incremental e k ss = w at hneat
  have hw : ∀ a ∈ w.outbox.labels, a.origin.call ≤ w.calls := hneat
  have hlabel {o : Outbox} (h : ∀ a ∈ o.labels, a.origin.call ≠ w.calls+1) :
      ∀ x ∈ o.list, x.origin.call ≠ w.calls+1 :=
    fun x hx => h x.label (List.mem_map_of_mem hx)
  constructor
  · intro hall hstranded
    have hc : brings c = true := by
      obtain ⟨-,-,hs,-⟩ := hstranded
      cases c <;> first | rfl | exact absurd hs (by simp [stores])
    obtain ⟨hneg,x,hx,hcall⟩ := stranded_outcome (call_outcome (handlerAt 0) w hc seen) hstranded
    exact hall 0 _ .body hneg x hx hcall
  · intro hgood n r hr hneg
    cases hr with
    | check r h =>
      refine hlabel fun a ha => ?_
      have hle := hw a ha
      omega
    | body =>
      cases hc : brings c with
      | true => exact hlabel (spared_of_outcome hw (call_outcome (handlerAt n) w hc seen) hneg hgood)
      | false =>
        rw [apiBody_outbox (handlerAt n) hc seen w]
        refine hlabel fun a ha => ?_
        have hle := hw a ha
        omega

/-- A connected client whose next write fails. -/
def brokenRun : World :=
  clientRun smallSettings false (plainEnvironment [some [0x20, 2, 0, 0]] (List.replicate 4 (.chunk 9))
    [.accept 99, .error]) 0 connectSteps

/-- A QoS 1 publish on that client returns -1, and its message stays in the outbox. -/
theorem failed_publish_stays_stored :
    ¬ ∀ n r, Returns n (.publish (some [0x74]) (cBytes [0x78]) 1 1 0) 1 brokenRun r → r.1 < 0 →
      ∀ x ∈ r.2.outbox.list, x.origin.call ≠ brokenRun.calls+1 := by
  intro hall
  have hfails := hall 0 _ .body
  have hret : (apiBody (handlerAt 0) (.publish (some [0x74]) (cBytes [0x78]) 1 1 0) 1 brokenRun).1 = -1 := by
    decide +kernel
  have hkept : (apiBody (handlerAt 0) (.publish (some [0x74]) (cBytes [0x78]) 1 1 0) 1
      brokenRun).2.outbox.list.map (fun x => x.origin.call) = [brokenRun.calls+1] := by decide +kernel
  have hmem : brokenRun.calls+1 ∈ (apiBody (handlerAt 0) (.publish (some [0x74]) (cBytes [0x78]) 1 1 0) 1
      brokenRun).2.outbox.list.map (fun x => x.origin.call) := by
    rw [hkept]
    exact List.mem_singleton_self _
  obtain ⟨x,hx,hcall⟩ := List.mem_map.mp hmem
  exact hfails (by rw [hret]; decide) x hx hcall

end EspMqtt
