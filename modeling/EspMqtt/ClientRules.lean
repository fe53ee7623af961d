import EspMqtt.ClientCore

/-! Rules for predicates that hold along every run of the client. A predicate
that follows the rules is carried through the handlers, the API calls and the
worker once and for all; what a result needs is an instance of them. -/
namespace EspMqtt

/-- Predicates with the rules that carry them through the calls of the API. `P`
holds between operations and in the handlers, `Q` after a write that failed and
before the abort, `R` when the outbound message may be written, `M` before the
first write of a publish with so many bytes of payload, and `L` in its loop, with
so much fuel and so many bytes to come. -/
structure ApiRules (ι : Type) where
  P : ι → Core → Prop
  Q : ι → Core → Prop
  R : ι → Site → Bool → Core → Prop
  M : ι → ℤ → Core → Prop
  L : ι → ℕ → ℤ → Core → Prop
  relax {i c} : P i c → Q i c
  settle {i s c} : R i s true c → P i c
  -- the three ends of a write
  sent {i s} {w : World} : s ≠ .publish → R i s true w.core → w.writeOutcome.1 = .ok →
    P i (w.recordWrite s true).core
  timedOut {i s f} {w : World} : R i s f w.core → w.writeOutcome.1 = .timeout →
    Q i (w.recordWrite s f).core ∧ (s.ignoresFailure → P i (w.recordWrite s f).core)
  failed {i s f} {w : World} : R i s f w.core → w.writeOutcome.1 = .fail →
    ∃ j, P j ((w.recordWrite s f).inCut (w.isCut f)).core ∧ ∀ w' : World, P j w'.core →
      Q i (w'.inCut w.inCutError).core ∧ (s.ignoresFailure → P i (w'.inCut w.inCutError).core)
  aborted {i} {w : World} : Q i w.core → P i {w with
    transport := espTransportClose w.transport
    outbox := w.sessionOutbox
    state := .waitReconnect}.core
  -- changes of state and time in the outbox
  touched {i o} {w : World} : P i w.core → o.Touched w.outbox → P i {w with outbox := o}.core
  touchedR {i s f o} {w : World} : R i s f w.core → o.Touched w.outbox →
    R i s f {w with outbox := o}.core
  reset {i} {w : World} : P i w.core → P i w.resetPendingMessage.core
  -- the calls
  begins {i c seen} {w : World} : P i w.core → P i (w.beginCall c seen).core
  setConfig {i s seen} {w : World} : P i w.core →
    P i (World.espMqttSetConfig s (w.beginCall (.setConfig s) seen)).2.core
  enqueue {i topic d len qos retain store seen} {w : World} : P i w.core →
    P i (World.espMqttClientEnqueue topic d len qos retain store
      (w.beginCall (.enqueue topic d len qos retain store) seen)).2.core
  publish {i topic d len qos retain seen} {w : World} : P i w.core →
    ∀ r, (w.beginCall (.publish topic d len qos retain) seen).mqttClientEnqueuePublish topic d
      (World.effectiveLen d len) qos retain false = r →
    (r.1 = none → P i r.2.core) ∧ (r.1.isSome → M i (World.effectiveLen d len) r.2.core)
  unsent {i len} {w : World} : M i len w.core → P i (w.setTotalLength 0).core
  cleared {i} {w : World} : P i w.core → P i (w.setTotalLength 0).core
  overQuota {i len} {w : World} : M i len w.core → w.isV5 → P i w.core
  firstChunk {i b len} {w : World} : M i len w.core → w.state = .connected →
    b = decide (w.connection.outboundMessage.fragmentedMsgTotalLength ≠ 0) →
    ∃ j, R j .publish true (w.inChunk b).core ∧
      (∀ v, v = w.inChunk b → v.writeOutcome.1 = .ok →
        L i (len-v.dataSent).toNat (len-v.dataSent)
          ((v.recordWrite .publish true).clearFragments.inChunk w.inFirstChunk).core) ∧
      (∀ w' : World, P j w'.core → P i ((w'.inChunk w.inFirstChunk).setTotalLength 0).core)
  nextChunk {i k remaining piece} {w : World} : L i (k+1) remaining w.core → w.state = .connected →
    0 < remaining → piece.length = min w.connection.bufferLength remaining.toNat →
    R i .publish false (w.refill piece).core ∧
      (∀ v, v = w.refill piece → v.writeOutcome.1 = .ok →
        L i k (remaining-v.dataSent) (v.recordWrite .publish false).clearFragments.core)
  lastChunk {i k remaining} {w : World} : L i k remaining w.core → remaining ≤ 0 ∨ k = 0 → P i w.core
  request {i c s type build seen} {w : World} : Request c s type build → P i w.core →
    ∀ w1, w1 = (w.beginCall c seen).resetPendingMessage.composeRequest type seen build →
    P i w1.core ∧ ∀ o, w1.Appended [] o → R i s true {w1 with outbox := o}.core

namespace ApiRules
open World

variable {ι : Type} (D : ApiRules ι) {H : Handler} {i : ι} {w : World}

/-- A handler under which the rules work: it keeps `P`, and the only change of
state it brings about is an abort. -/
structure Keeps (H : Handler) : Prop where
  keeps : ∀ {j} {v : World}, D.P j v.core → D.P j (H v).core
  state : ∀ v : World, (H v).state = v.state ∨ v.state = .connected ∧ (H v).state = .waitReconnect

/-- Between two operations of the worker. -/
def Live (i : ι) (c : Core) : Prop := D.P i c ∧ c.state ≠ .disconnected

/-- The worker has to abort the connection. -/
def Doomed (i : ι) (c : Core) : Prop := D.Q i c ∧ c.state ≠ .disconnected

variable {D}

theorem Live.doomed (h : D.Live i w.core) : D.Doomed i w.core := ⟨D.relax h.1, h.2⟩

theorem Keeps.live (K : D.Keeps H) (h : D.Live i w.core) : D.Live i (H w).core := by
  refine ⟨K.keeps h.1, ?_⟩
  rcases K.state w with hs | ⟨-,hs⟩
  · exact fun he => h.2 (hs.symm.trans he)
  · exact fun he => absurd (hs.symm.trans he) (by decide)

/-! Events, for every predicate that the handler keeps. -/

section Events

variable {S : Core → Prop} (hS : ∀ w : World, S w.core → S (H w).core)
include hS

theorem dispatchEvent_kept (h : S w.core) : S (dispatchEvent H w).core := hS _ h

theorem dispatchEventWithMsgid_kept (h : S w.core) : S (dispatchEventWithMsgid H w).core := by
  unfold dispatchEventWithMsgid
  apply dispatchEvent_kept hS
  exact h

theorem dispatchTransportError_kept (h : S w.core) : S (dispatchTransportError H w).core :=
  dispatchEventWithMsgid_kept hS h

end Events

/-! Writes and aborts. -/

/-- A write that fails. -/
theorem espMqttWrite_fails (K : D.Keeps H) {s : Site} {f : Bool} (h : D.R i s f w.core)
    (hs : w.writeOutcome.1 ≠ .ok) :
    (espMqttWrite H s f w).1 = false ∧ D.Q i (espMqttWrite H s f w).2.core ∧
    (s.ignoresFailure → D.P i (espMqttWrite H s f w).2.core) := by
  unfold espMqttWrite
  cases hw : w.writeOutcome.1 with
  | ok => exact absurd hw hs
  | timeout => exact ⟨rfl, D.timedOut h hw⟩
  | fail =>
    obtain ⟨j,hj,hback⟩ := D.failed h hw
    exact ⟨rfl, hback _ (dispatchTransportError_kept (fun w => K.keeps (j := j)) hj)⟩

theorem espMqttWrite_ok {s : Site} {f : Bool} (hs : w.writeOutcome.1 = .ok) :
    espMqttWrite H s f w = (true, w.recordWrite s f) := by
  unfold espMqttWrite
  rw [hs]

theorem espMqttWrite_rule (K : D.Keeps H) {s : Site} (hs : s ≠ .publish) (h : D.R i s true w.core) :
    ((espMqttWrite H s true w).1 = true → D.P i (espMqttWrite H s true w).2.core) ∧
    ((espMqttWrite H s true w).1 = false → D.Q i (espMqttWrite H s true w).2.core) ∧
    (s.ignoresFailure → D.P i (espMqttWrite H s true w).2.core) := by
  by_cases hw : w.writeOutcome.1 = .ok
  · rw [espMqttWrite_ok hw]
    have hsent := D.sent hs h hw
    exact ⟨fun _ => hsent, fun hf => absurd hf (by simp), fun _ => hsent⟩
  · obtain ⟨hfalse,hq,hp⟩ := espMqttWrite_fails K h hw
    exact ⟨fun htrue => absurd (hfalse.symm.trans htrue) (by simp), fun _ => hq, hp⟩

theorem Keeps.settled (K : D.Keeps H) (s : MqttState) (w : World)
    (h : w.core.state = s ∨ s = .connected ∧ w.core.state = .waitReconnect) :
    (H w).core.state = s ∨ s = .connected ∧ (H w).core.state = .waitReconnect := by
  rcases K.state w with hs | ⟨hc,hs⟩
  · rcases h with h | ⟨h1,h2⟩
    · exact Or.inl (hs.trans h)
    · exact Or.inr ⟨h1, hs.trans h2⟩
  · rcases h with h | ⟨-,h2⟩
    · exact Or.inr ⟨h.symm.trans hc, hs⟩
    · exact absurd (hc.symm.trans h2) (by decide)

/-- A write changes the state only through the event of its failure. -/
theorem espMqttWrite_state (K : D.Keeps H) (s : Site) (f : Bool) (w : World) :
    (espMqttWrite H s f w).2.state = w.state ∨
      w.state = .connected ∧ (espMqttWrite H s f w).2.state = .waitReconnect := by
  unfold espMqttWrite
  split
  · exact Or.inl rfl
  · exact Or.inl rfl
  · exact dispatchTransportError_kept (w := (w.recordWrite s f).inCut (w.isCut f))
      (S := fun c => c.state = w.state ∨ w.state = .connected ∧ c.state = .waitReconnect)
      (K.settled w.state) (Or.inl rfl)

theorem espMqttAbortConnection_rule (K : D.Keeps H) (h : D.Q i w.core) :
    D.P i (espMqttAbortConnection H w).core := by
  unfold espMqttAbortConnection
  extract_lets +onlyGivenNames outbox v t
  apply dispatchEventWithMsgid_kept (fun w => K.keeps (j := i))
  have ht : t.2.core = _ := core_tick _
  change D.P i {t.2.core with state := .waitReconnect}
  rw [ht]
  exact D.aborted h

theorem espMqttAbortConnection_state (K : D.Keeps H) (w : World) :
    (espMqttAbortConnection H w).state = .waitReconnect := by
  unfold espMqttAbortConnection
  refine dispatchEventWithMsgid_kept (S := fun c => c.state = .waitReconnect) (fun w hw => ?_) rfl
  rcases K.settled .waitReconnect w (Or.inl hw) with hs | ⟨hc,-⟩
  · exact hs
  · exact absurd hc (by decide)

theorem espMqttAbortConnection_live (K : D.Keeps H) (h : D.Q i w.core) :
    D.Live i (espMqttAbortConnection H w).core := by
  refine ⟨espMqttAbortConnection_rule K h, fun he => ?_⟩
  have hs : (espMqttAbortConnection H w).core.state = .waitReconnect :=
    espMqttAbortConnection_state K w
  exact absurd (hs.symm.trans he) (by decide)

/-! The calls of the public API. -/

theorem restLoop_rule (K : D.Keeps H) (d : CData) (k : ℕ) (remaining current : ℤ) (w : World)
    (h : D.L i k remaining w.core) (hc : w.state = .connected) :
    D.P i (restLoop H d k remaining current w).2.core := by
  induction k generalizing remaining current w with
  | zero => exact D.lastChunk h (Or.inr rfl)
  | succ k ih =>
    unfold restLoop
    by_cases hpos : 0 < remaining
    · rw [if_pos hpos]
      dsimp only
      obtain ⟨hready,hnext⟩ := D.nextChunk h hc hpos (d.slice_length current _)
      have hcv : (w.refill (d.slice current (min w.connection.bufferLength
        remaining.toNat))).state = .connected := hc
      have hnext := hnext _ rfl
      generalize w.refill _ = v at hready hcv hnext ⊢
      by_cases hok : v.writeOutcome.1 = .ok
      · rw [espMqttWrite_ok hok]
        exact ih _ _ _ (hnext hok) hcv
      · obtain ⟨hfalse,hq,-⟩ := espMqttWrite_fails K hready hok
        generalize espMqttWrite H .publish false v = r at hfalse hq ⊢
        obtain ⟨ok,v'⟩ := r
        subst hfalse
        exact espMqttAbortConnection_rule K hq
    · rw [if_neg hpos]
      exact D.lastChunk h (Or.inl (not_lt.mp hpos))

theorem sendPublish_rule (K : D.Keeps H) (d : CData) (len : ℤ) (h : D.M i len w.core)
    (hc : w.state = .connected) :
    ((sendPublish H d len w).1 = true → D.P i (sendPublish H d len w).2.core) ∧
    D.P i ((sendPublish H d len w).2.setTotalLength 0).core := by
  obtain ⟨j,hready,hok,hfail⟩ := D.firstChunk h hc rfl
  unfold sendPublish
  dsimp only
  have hcv : (w.inChunk (decide (w.connection.outboundMessage.fragmentedMsgTotalLength ≠ 0))).state =
    .connected := hc
  have hok := hok _ rfl
  generalize w.inChunk _ = v at hready hcv hok ⊢
  by_cases hs : v.writeOutcome.1 = .ok
  · rw [espMqttWrite_ok hs]
    have hrest := restLoop_rule K d (len-v.dataSent).toNat (len-v.dataSent) v.dataSent _ (hok hs) hcv
    exact ⟨fun _ => hrest, D.cleared hrest⟩
  · obtain ⟨hfalse,hq,-⟩ := espMqttWrite_fails K hready hs
    generalize espMqttWrite H .publish true v = r at hfalse hq ⊢
    obtain ⟨ok,v'⟩ := r
    subst hfalse
    exact ⟨fun hf => absurd hf (by simp), hfail _ (espMqttAbortConnection_rule K hq)⟩

theorem published_rule (h : D.P i w.core) (id qos : ℕ) : D.P i (w.published id qos).core := by
  unfold published
  split
  · have hv : D.P i (if w.isV5 then {w with sendPublishPacketCount := w.sendPublishPacketCount+1}
        else w).core := by
      split <;> exact h
    dsimp only
    generalize (if w.isV5 then _ else w) = u at hv ⊢
    have hsent : D.P i (u.noteTraffic (.sent u.origin.call id)).core := hv
    generalize u.noteTraffic (.sent u.origin.call id) = v at hsent ⊢
    rw [← core_tick] at hsent
    have hticked := D.touched hsent (Outbox.setTick_touched _ id v.tick.1)
    have hpending := D.touched hticked (Outbox.setPending_touched _ id .transmitted)
    exact hpending
  · exact h

theorem espMqttClientPublish_rule (K : D.Keeps H) {topic : Option (List UInt8)} {d : CData} {len : ℤ}
    {qos retain seen : ℕ} (h : D.P i w.core) :
    D.P i (espMqttClientPublish H topic d len qos retain
      (w.beginCall (.publish topic d len qos retain) seen)).2.core := by
  have hbegin : D.P i (w.beginCall (.publish topic d len qos retain) seen).core := D.begins h
  have hpub : ∀ r, (w.beginCall (.publish topic d len qos retain) seen).mqttClientEnqueuePublish
      topic d (effectiveLen d len) qos retain false = r →
      (r.1 = none → D.P i r.2.core) ∧ (r.1.isSome → D.M i (effectiveLen d len) r.2.core) := D.publish h
  unfold espMqttClientPublish
  generalize w.beginCall _ seen = v at hbegin hpub ⊢
  split
  · exact hbegin
  · dsimp only
    split
    · exact hbegin
    · generalize v.mqttClientEnqueuePublish topic d (effectiveLen d len) qos retain false = r at hpub ⊢
      obtain ⟨hnone,hsome⟩ := hpub r rfl
      obtain ⟨id,u⟩ := r
      cases id with
      | none => exact hnone rfl
      | some id =>
        have hmid := hsome rfl
        dsimp only at hmid ⊢
        split
        · exact D.unsent hmid
        · rename_i hc
          split
          · rename_i hq
            exact D.overQuota hmid hq.1
          · obtain ⟨hok,hany⟩ := sendPublish_rule K d (effectiveLen d len) hmid (by simpa using hc)
            generalize sendPublish H d (effectiveLen d len) u = r at hok hany ⊢
            obtain ⟨ok,u'⟩ := r
            cases ok with
            | true => exact published_rule (hok rfl) id qos
            | false => exact hany

/-- A request that is stored and written; the write may fail without an abort. -/
theorem storeAndSend_rule (K : D.Keeps H) {s : Site} (hs : s.ignoresFailure) (h : D.P i w.core)
    (hready : ∀ o, w.Appended [] o → D.R i s true {w with outbox := o}.core) :
    D.P i (storeAndSend H s w).2.core := by
  unfold storeAndSend
  split
  · exact h
  · obtain ⟨ok,n,t,a,o,l,heq,hno,hyes⟩ :=
      World.mqttEnqueue_eq {w with pendingMsgType := w.outboundType} []
    rw [heq]
    cases ok with
    | false =>
      rw [(hno rfl).1]
      exact h
    | true =>
      obtain ⟨x,rfl,ho,-⟩ := hyes rfl
      have hstored : w.Appended [] o :=
        ⟨w.outbox.nextHandle, w.pendingMsgId, w.pendingPublishQos, n, .queued, congrArg Outbox.list ho⟩
      have hwrite := D.touchedR (hready o hstored) (Outbox.setPending_touched o w.pendingMsgId .transmitted)
      dsimp only
      have hall := (espMqttWrite_rule (w := {w with
        now := n, ticks := t, allocs := a, stored := l, pendingMsgType := w.outboundType
        outbox := o.setPending w.pendingMsgId .transmitted}) K (by rintro rfl; cases hs) hwrite).2.2 hs
      generalize espMqttWrite H s true _ = r at hall ⊢
      obtain ⟨ok,v⟩ := r
      cases ok with
      | true => exact hall
      | false => exact hall

theorem apiBody_rule (K : D.Keeps H) (c : ApiCall) (seen : ℕ) (h : D.P i w.core) :
    D.P i (apiBody H c seen w).2.core := by
  unfold apiBody
  cases c with
  | publish topic d len qos retain => exact espMqttClientPublish_rule K h
  | enqueue topic d len qos retain store => exact D.enqueue h
  | subscribe topics =>
    dsimp only [espMqttClientSubscribe]
    split
    · exact D.reset (D.begins h)
    · obtain ⟨hp,hready⟩ := D.request (.subscribe topics) h _ rfl
      exact storeAndSend_rule K rfl hp hready
  | unsubscribe topic =>
    obtain ⟨hp,hready⟩ := D.request (.unsubscribe topic) h _ rfl
    exact storeAndSend_rule K rfl hp hready
  | disconnect =>
    have hbegin : D.P i (w.beginCall .disconnect seen).core := D.begins h
    exact hbegin
  | reconnect =>
    dsimp only [espMqttClientReconnect]
    split
    · exact D.begins h
    · have hbegin : D.P i (w.beginCall .reconnect seen).core := D.begins h
      exact hbegin
  | setConfig s => exact D.setConfig h

theorem apiCall_rule (K : D.Keeps H) (c : ApiCall) (h : D.P i w.core) :
    D.P i (apiCall H c w).2.core := by
  unfold apiCall
  split
  · exact h
  · exact apiBody_rule K c w.connections h

/-! The state of the connection: a call can only bring about an abort. -/

/-- Connected, or aborted since. -/
def Up (c : Core) : Prop := c.state = .connected ∨ c.state = .waitReconnect

theorem espMqttWrite_up (K : D.Keeps H) (s : Site) (f : Bool) {w : World} (h : Up w.core) :
    Up (espMqttWrite H s f w).2.core := by
  rcases espMqttWrite_state K s f w with hs | ⟨-,hs⟩
  · exact h.imp hs.trans hs.trans
  · exact Or.inr hs

theorem restLoop_up (K : D.Keeps H) (d : CData) (k : ℕ) (remaining current : ℤ) (w : World)
    (h : Up w.core) : Up (restLoop H d k remaining current w).2.core := by
  induction k generalizing remaining current w with
  | zero => exact h
  | succ k ih =>
    unfold restLoop
    split
    · dsimp only
      generalize hv : w.refill _ = v
      have hup : Up v.core := hv ▸ h
      have hwrite := espMqttWrite_up K .publish false hup
      generalize espMqttWrite H .publish false v = r at hwrite ⊢
      obtain ⟨ok,u⟩ := r
      cases ok with
      | true => exact ih _ _ _ hwrite
      | false => exact Or.inr (espMqttAbortConnection_state K u)
    · exact h

theorem sendPublish_up (K : D.Keeps H) (d : CData) (len : ℤ) (w : World) (h : Up w.core) :
    Up (sendPublish H d len w).2.core := by
  unfold sendPublish
  dsimp only
  generalize hv : w.inChunk _ = v
  have hup : Up v.core := hv ▸ h
  have hwrite := espMqttWrite_up K .publish true hup
  generalize espMqttWrite H .publish true v = r at hwrite ⊢
  obtain ⟨ok,u⟩ := r
  cases ok with
  | true => exact restLoop_up K d _ _ _ _ hwrite
  | false => exact Or.inr (espMqttAbortConnection_state K u)

theorem mqttClientEnqueuePublish_state (w : World) (topic : Option (List UInt8)) (d : CData) (len : ℤ)
    (qos retain : ℕ) (store : Bool) :
    (w.mqttClientEnqueuePublish topic d len qos retain store).2.state = w.state := by
  have hmake : (w.makePublish topic d len qos retain).2.state = w.state := by
    rw [makePublish_eq]
    split
    · exact congrArg Core.state w.core_askMqtt5
    · rfl
  rcases enqueuePublish_cases w topic d len qos retain store _ rfl _ rfl with
    ⟨-,-,h⟩ | ⟨-,-,-,-,h⟩ | ⟨-,-,-,-,h⟩ | ⟨-,-,-,-,h⟩ | ⟨-,-,-,rest,o,-,-,h⟩ <;>
  exact (congrArg Core.state h).trans hmake

theorem published_state (w : World) (id qos : ℕ) : (w.published id qos).state = w.state := by
  unfold published
  split
  · dsimp only
    split
    · exact congrArg Core.state (core_tick _)
    · exact congrArg Core.state (core_tick _)
  · rfl

theorem espMqttClientPublish_state (K : D.Keeps H) (topic : Option (List UInt8)) (d : CData) (len : ℤ)
    (qos retain : ℕ) (w : World) :
    (espMqttClientPublish H topic d len qos retain w).2.state = w.state ∨
      w.state = .connected ∧
        (espMqttClientPublish H topic d len qos retain w).2.state = .waitReconnect := by
  unfold espMqttClientPublish
  split
  · exact Or.inl rfl
  · dsimp only
    split
    · exact Or.inl rfl
    · have hs := mqttClientEnqueuePublish_state w topic d (effectiveLen d len) qos retain false
      generalize w.mqttClientEnqueuePublish topic d (effectiveLen d len) qos retain false = r at hs ⊢
      obtain ⟨id,u⟩ := r
      cases id with
      | none => exact Or.inl hs
      | some id =>
        dsimp only at hs ⊢
        split
        · exact Or.inl hs
        · rename_i hc
          have hconn : u.state = .connected := by simpa using hc
          split
          · exact Or.inl hs
          · have hup := sendPublish_up K d (effectiveLen d len) u (Or.inl hconn)
            rw [← hs, hconn]
            generalize sendPublish H d (effectiveLen d len) u = r at hup ⊢
            obtain ⟨ok,u'⟩ := r
            cases ok with
            | true =>
              rcases hup with h | h
              · exact Or.inl ((published_state u' id qos).trans h)
              · exact Or.inr ⟨rfl, (published_state u' id qos).trans h⟩
            | false =>
              rcases hup with h | h
              · exact Or.inl h
              · exact Or.inr ⟨rfl,h⟩

theorem storeAndSend_state (K : D.Keeps H) (s : Site) (w : World) :
    (storeAndSend H s w).2.state = w.state ∨
      w.state = .connected ∧ (storeAndSend H s w).2.state = .waitReconnect := by
  unfold storeAndSend
  split
  · exact Or.inl rfl
  · obtain ⟨ok,n,t,a,o,l,heq,-⟩ := World.mqttEnqueue_eq {w with pendingMsgType := w.outboundType} []
    rw [heq]
    cases ok with
    | false => exact Or.inl rfl
    | true =>
      dsimp only
      have hwrite := espMqttWrite_state K s true {w with
        now := n, ticks := t, allocs := a, stored := l, pendingMsgType := w.outboundType
        outbox := o.setPending w.pendingMsgId .transmitted}
      generalize espMqttWrite H s true _ = r at hwrite ⊢
      obtain ⟨ok,u⟩ := r
      cases ok with
      | true => exact hwrite
      | false => exact hwrite

theorem composeRequest_state (w : World) (type : MsgType) (seen : ℕ)
    (build : Connection → ℕ × Connection) : (w.composeRequest type seen build).state = w.state := by
  unfold composeRequest
  by_cases hv : w.isV5 = true
  · simp only [if_pos hv]
    exact congrArg Core.state w.core_askMqtt5
  · simp only [if_neg hv]
    rfl

theorem apiBody_state (K : D.Keeps H) (c : ApiCall) (seen : ℕ) (w : World) :
    (apiBody H c seen w).2.state = w.state ∨
      w.state = .connected ∧ (apiBody H c seen w).2.state = .waitReconnect := by
  have hrequest (s : Site) (v : World) (hv : v.state = w.state) :
      (storeAndSend H s v).2.state = w.state ∨
        w.state = .connected ∧ (storeAndSend H s v).2.state = .waitReconnect := by
    rw [← hv]
    exact storeAndSend_state K s v
  cases c with
  | publish topic d len qos retain =>
    exact espMqttClientPublish_state K topic d len qos retain (w.beginCall _ seen)
  | enqueue topic d len qos retain store =>
    refine Or.inl ?_
    dsimp only [apiBody, espMqttClientEnqueue]
    split
    · rfl
    · have hs := mqttClientEnqueuePublish_state
        (w.beginCall (.enqueue topic d len qos retain store) seen) topic d
        (effectiveLen d len) qos retain store
      generalize World.mqttClientEnqueuePublish _ topic d (effectiveLen d len) qos retain store = r at hs ⊢
      obtain ⟨id,u⟩ := r
      cases id with
      | none => exact hs
      | some id => exact hs
  | subscribe topics =>
    dsimp only [apiBody, espMqttClientSubscribe]
    split
    · exact Or.inl rfl
    · exact hrequest _ _ (composeRequest_state _ _ _ _)
  | unsubscribe topic => exact hrequest _ _ (composeRequest_state _ _ _ _)
  | disconnect => exact Or.inl rfl
  | reconnect =>
    dsimp only [apiBody, espMqttClientReconnect]
    split <;> exact Or.inl rfl
  | setConfig s => exact Or.inl rfl

theorem apiCall_state (K : D.Keeps H) (c : ApiCall) (w : World) :
    (apiCall H c w).2.state = w.state ∨
      w.state = .connected ∧ (apiCall H c w).2.state = .waitReconnect := by
  unfold apiCall
  split
  · exact Or.inl rfl
  · exact apiBody_state K c w.connections w

/-- The handlers of every depth work under every set of rules. -/
theorem handlerAt_keeps (n : ℕ) : D.Keeps (handlerAt n) := by
  have hboth := handlerAt_induction (R := fun v u => (∀ i, D.P i v.core → D.P i u.core) ∧
    (u.state = v.state ∨ v.state = .connected ∧ u.state = .waitReconnect))
    (fun w => ⟨fun _ h => h, Or.inl rfl⟩) ?_ (fun w l => ⟨fun _ h => h, Or.inl rfl⟩)
    (fun H hH c w => ?_) n
  · exact ⟨fun h => (hboth _).1 _ h, fun v => (hboth v).2⟩
  · rintro u v w ⟨hp,hs⟩ ⟨hp',hs'⟩
    refine ⟨fun i h => hp' i (hp i h), ?_⟩
    rcases hs with hs | ⟨hc,hs⟩
    · rw [hs] at hs'
      exact hs'
    · rw [hs] at hs'
      rcases hs' with hs' | ⟨hc',-⟩
      · exact Or.inr ⟨hc,hs'⟩
      · exact absurd hc' (by decide)
  · have K : D.Keeps H := ⟨fun h => (hH _).1 _ h, fun v => (hH v).2⟩
    exact ⟨fun i h => apiCall_rule K c h, apiCall_state K c w⟩

end ApiRules

end EspMqtt
