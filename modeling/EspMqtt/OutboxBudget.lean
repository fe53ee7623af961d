import EspMqtt.Admission

/-! The byte budget of the outbox. The tests of the calls look at the payload and
at the bytes that are stored already, and `esp_mqtt_client_unsubscribe` makes none;
what is stored is the encoded packet. -/
namespace EspMqtt
open World Ledger

namespace World

/-- The call passes its tests, and memory and transport do not fail it. -/
def succeeds (w : World) (c : ApiCall) (seen : ℕ) : Bool :=
  w.passes c && !(w.composed c seen).nothingComposed && (!stores c || w.hasMemory) &&
    if w.sends c then takes w.transport (w.writes c seen) else stores c

/-- The outbox behind the call would be past its budget. -/
def exceeds (w : World) (c : ApiCall) (seen : ℕ) : Bool :=
  decide (w.config.outboxLimit < w.outbox.size+(w.packet c seen).length)

/-- A call that succeeds keeps to the budget, and one that cannot keep to it fails. -/
def Budgeted (w : World) (c : ApiCall) (seen : ℕ) (r : ℤ × World) : Prop :=
  brings c = true → 0 < w.config.outboxLimit →
    (0 ≤ r.1 → r.2.outbox.size ≤ w.config.outboxLimit) ∧ (w.exceeds c seen = true → r.1 < 0)

/-- Nothing stops a call whose packet does not fit. -/
def Overruns (w : World) (c : ApiCall) (seen : ℕ) : Prop :=
  brings c = true ∧ 0 < w.config.outboxLimit ∧ w.succeeds c seen = true ∧ w.exceeds c seen = true

theorem packet_unstored {w : World} {c : ApiCall} {seen : ℕ} (h : stores c = false) :
    w.packet c seen = [] := by
  unfold packet
  simp [h]

/-- The outbox behind a call that has stored its packet, or has none to store. -/
theorem Prepared.size {w v : World} {c : ApiCall} {seen : ℕ} (h : Prepared w c seen v) :
    v.outbox.size = w.outbox.size+(w.packet c seen).length := by
  cases hs : stores c with
  | false =>
    rw [h.unstored hs, packet_unstored hs]
    rfl
  | true =>
    obtain ⟨x,hx,-,-,hsize,-⟩ := h.stored hs
    rw [hsize, hx]

/-- What a call reports, and the outbox it then leaves. -/
theorem outcome_size {H : Handler} {w : World} {c : ApiCall} {seen : ℕ} {r : ℤ × World}
    (ho : Outcome H w c seen r) : (0 ≤ r.1 ↔ w.succeeds c seen = true) ∧
      (0 ≤ r.1 → r.2.outbox.size = w.outbox.size+(w.packet c seen).length) := by
  have hprepared {v : World} (hv : Prepared w c seen v) : w.succeeds c seen =
      if w.sends c then takes w.transport (w.writes c seen) else stores c := by
    have hmemory : (!stores c || w.hasMemory) = true := by
      cases hs : stores c with
      | false => rfl
      | true => exact hv.memory hs
    unfold succeeds
    rw [hv.passed, hv.composed, hmemory]
    rfl
  cases ho with
  | refused hneg _ hwhy =>
    refine ⟨⟨fun h => absurd hneg (by omega), fun h => ?_⟩, fun h => absurd hneg (by omega)⟩
    unfold succeeds at h
    simp only [Bool.and_eq_true, Bool.not_eq_true', Bool.or_eq_true] at h
    obtain ⟨⟨⟨hpasses,hcomposed⟩,hmemory⟩,-⟩ := h
    rcases hwhy hpasses with hn | ⟨hs,hn⟩
    · exact absurd (hcomposed.symm.trans hn) (by simp)
    · rw [hs, hn] at hmemory
      exact absurd hmemory (by simp)
  | kept v hv hs hr ho =>
    rw [hprepared hv, hs, ho]
    exact ⟨hr, fun _ => hv.size⟩
  | sent v hv hs ht hr _ hz =>
    rw [hprepared hv, hs, hz]
    exact ⟨⟨fun _ => ht, fun _ => hr⟩, fun _ => hv.size⟩
  | failed v hv hs ht hr =>
    rw [hprepared hv, hs, if_pos rfl, ht]
    exact ⟨⟨fun h => absurd hr (by omega), fun h => absurd h (by simp)⟩, fun h => absurd hr (by omega)⟩

theorem budgeted_iff (H : Handler) (w : World) (c : ApiCall) (seen : ℕ) :
    Budgeted w c seen (apiBody H c seen w) ↔ ¬ Overruns w c seen := by
  cases hc : brings c with
  | false =>
    refine ⟨fun _ h => ?_, fun _ h => ?_⟩
    · exact absurd (hc.symm.trans h.1) (by simp)
    · exact absurd (hc.symm.trans h) (by simp)
  | true =>
    obtain ⟨hsucceeds,hsize⟩ := outcome_size (call_outcome H w hc seen)
    constructor
    · rintro hb ⟨-,hpos,hs,hx⟩
      have hneg := (hb hc hpos).2 hx
      have hret := hsucceeds.mpr hs
      omega
    · intro hfits _ hpos
      refine ⟨fun hret => ?_, fun hx => ?_⟩
      · rw [hsize hret]
        refine Nat.le_of_not_lt fun hlt => hfits ⟨hc, hpos, hsucceeds.mp hret, decide_eq_true hlt⟩
      · refine Int.lt_of_not_ge fun hret => hfits ⟨hc, hpos, hsucceeds.mp hret, hx⟩

/-- The call that a step gives the lock to, and the client it finds. -/
def locked (w : World) : ClientStep → Option (ApiCall × ℕ × World)
  | .body i => w.admitted[i]?.map fun a => (a.1, a.2, {w with admitted := w.admitted.eraseIdx i})
  | _ => none

/-- Something holds of every call of a run, where it gets the lock. -/
def Throughout (H : Handler) (P : World → ApiCall → ℕ → Prop) : World → List ClientStep → Prop
  | _, [] => True
  | w, s :: ss => (∀ c seen v, w.locked s = some (c, seen, v) → P v c seen) ∧ Throughout H P (w.step H s) ss

theorem throughout_congr {H : Handler} {P Q : World → ApiCall → ℕ → Prop}
    (h : ∀ w c seen, P w c seen ↔ Q w c seen) (w : World) (ss : List ClientStep) :
    Throughout H P w ss ↔ Throughout H Q w ss := by
  induction ss generalizing w with
  | nil => exact Iff.rfl
  | cons s ss ih =>
    unfold Throughout
    rw [ih]
    simp only [h]

end World

/-- A call keeps to the budget of the outbox exactly when it does not overrun it:
pass its tests with a packet that does not fit. So do all calls of a run. -/
theorem outbox_budget_kept (n : ℕ) :
    (∀ w c seen, Budgeted w c seen (apiBody (handlerAt n) c seen w) ↔ ¬ Overruns w c seen) ∧
    ∀ s incremental e ss,
      Throughout (handlerAt n) (fun w c seen => Budgeted w c seen (apiBody (handlerAt n) c seen w))
        (clientInit s incremental e) ss ↔
      Throughout (handlerAt n) (fun w c seen => ¬ Overruns w c seen) (clientInit s incremental e) ss :=
  ⟨budgeted_iff (handlerAt n), fun _ _ _ ss => throughout_congr (budgeted_iff (handlerAt n)) _ ss⟩

/-- Room for 8 bytes in the outbox. -/
def tightSettings : Settings := {smallSettings with config := {smallSettings.config with outboxLimit := 8}}

/-- The payload of 5 bytes passes the test, and the packet of 12 bytes is stored. -/
theorem publish_overruns_budget :
    ¬ Throughout (handlerAt 0) (fun w c seen => Budgeted w c seen (apiBody (handlerAt 0) c seen w))
      (clientInit tightSettings false (plainEnvironment [] [] []))
      [.check (.publish (some [0x74]) (cBytes [1, 2, 3, 4, 5]) 5 1 0), .body 0] := by
  intro h
  have hbudgeted : Budgeted (clientInit tightSettings false (plainEnvironment [] [] []))
      (.publish (some [0x74]) (cBytes [1, 2, 3, 4, 5]) 5 1 0) 0 (apiBody (handlerAt 0)
        (.publish (some [0x74]) (cBytes [1, 2, 3, 4, 5]) 5 1 0) 0
        (clientInit tightSettings false (plainEnvironment [] [] []))) := h.2.1 _ _ _ rfl
  have hret : 0 ≤ (apiBody (handlerAt 0) (.publish (some [0x74]) (cBytes [1, 2, 3, 4, 5]) 5 1 0) 0
      (clientInit tightSettings false (plainEnvironment [] [] []))).1 := by decide +kernel
  have hsize : (apiBody (handlerAt 0) (.publish (some [0x74]) (cBytes [1, 2, 3, 4, 5]) 5 1 0) 0
      (clientInit tightSettings false (plainEnvironment [] [] []))).2.outbox.size = 12 := by
    decide +kernel
  have hkept := (hbudgeted rfl (by decide)).1 hret
  rw [hsize] at hkept
  exact absurd hkept (by decide)

end EspMqtt
