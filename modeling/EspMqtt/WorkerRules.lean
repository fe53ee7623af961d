import EspMqtt.ClientRules

/-! The rules carried through the worker task, and from there to every run. -/
namespace EspMqtt

/-- The rules of the worker on top of them; it runs in the indices that are `Top`. -/
structure Rules (ι : Type) extends ApiRules ι where
  Top : ι → Prop
  -- what the worker composes or takes from the outbox
  control {i s type build} {w : World} : s ≠ .publish → Control type build → Top i → P i w.core →
    w.state ≠ .disconnected →
    R i s true ({w with connection := build w.connection}.arising w.connections true).core
  controlMqtt5 {i s type build qos m} {w : World} : s ≠ .publish → Control type build → Top i →
    P i w.core → w.state ≠ .disconnected → w.isV5 →
    (m.data = [] ∨ ∃ rest, m.data = headerByte type 0 qos 0 :: rest) →
    R i s true ({w with connection := {w.connection with outboundMessage := m}}.arising w.connections
      true).core
  load {i x b} {w : World} : Top i → P i w.core → w.state ≠ .disconnected →
    x ∈ w.outbox.list → (b = x.buffer ∨ b = mqttSetDup x.buffer) →
    R i .resend true (w.loadItem {x with buffer := b}).core
  outbox {i o} {w : World} : P i w.core → o.Below w.outbox → P i {w with outbox := o}.core
  outboxR {i s f o} {w : World} : R i s f w.core → o.Below w.outbox →
    R i s f {w with outbox := o}.core
  touched := fun h ho => outbox h ho.below
  touchedR := fun h ho => outboxR h ho.below
  connecting {i t} {w : World} : P i w.core → w.state = .init → t.isOpen = true →
    P i {w with transport := t, connections := w.connections+1}.core
  connected {i} {w : World} : Top i → P i w.core → w.state ≠ .disconnected →
    P i {w with state := .connected}.core
  reinit {i} {w : World} : P i w.core → w.state = .waitReconnect → P i {w with state := .init}.core

/-- The end of a function that reports whether the connection may go on. -/
def Rules.Ends {ι : Type} (D : Rules ι) (i : ι) (r : Bool × World) : Prop :=
  (r.1 = true → D.Live i r.2.core) ∧ D.Doomed i r.2.core

theorem ApiRules.Live.ends {ι : Type} {D : Rules ι} {i : ι} {r : Bool × World}
    (h : D.Live i r.2.core) : D.Ends i r := ⟨fun _ => h, h.doomed⟩

theorem ApiRules.Live.outbox {ι : Type} {D : Rules ι} {i : ι} {w : World} {o : Outbox}
    (h : D.Live i w.core) (ho : o.Below w.outbox) : D.Live i {w with outbox := o}.core :=
  ⟨D.outbox h.1 ho, h.2⟩

namespace Rules
open World ApiRules

variable {ι : Type} {D : Rules ι} {H : Handler} {i : ι} {w : World}

/-! What is received. -/

theorem deliverRest_live (K : D.Keeps H) (totalLen k readLen offset : ℕ) (w : World)
    (h : D.Live i w.core) : D.Live i (deliverRest H totalLen k readLen offset w).2.core := by
  induction k generalizing readLen offset w with
  | zero => exact h
  | succ k ih =>
    unfold deliverRest
    split
    · have hopen := espTransportRead_isOpen w.transport (min w.rx.inBufferLength (totalLen-readLen))
      generalize espTransportRead w.transport (min w.rx.inBufferLength (totalLen-readLen)) = r at hopen ⊢
      obtain ⟨res,t⟩ := r
      -- the transport is open after the read if it was before
      have hread : D.Live i {w with transport := t}.core := by
        have hcore : {w with transport := t}.core = w.core := by
          change {w.core with isOpen := t.isOpen} = w.core
          rw [hopen]
          rfl
        rw [hcore]
        exact h
      cases res with
      | bytes bs =>
        dsimp only
        apply ih
        exact dispatchEvent_kept (fun _ => K.live) hread
      | timeout => exact hread
      | fin => exact dispatchTransportError_kept (fun _ => K.live) hread
      | error => exact dispatchTransportError_kept (fun _ => K.live) hread
    · exact h

theorem deliverPublish_live (K : D.Keeps H) (h : D.Live i w.core) :
    D.Live i (World.deliverPublish H w).2.core := by
  unfold World.deliverPublish
  have hparts := w.core_publishParts
  generalize w.publishParts = p at hparts ⊢
  obtain ⟨parts,v⟩ := p
  dsimp only at hparts ⊢
  rw [← hparts] at h
  cases parts with
  | none => exact h
  | some parts =>
    obtain ⟨topic,offset,len⟩ := parts
    exact deliverRest_live K _ _ _ _ _ (dispatchEvent_kept (fun _ => K.live) h)

theorem dispatchPlain_live (K : D.Keeps H) (id : EventId) (h : D.Live i w.core) :
    D.Live i (dispatchPlain H id w).core :=
  dispatchEventWithMsgid_kept (fun _ => K.live) h

theorem deliverSuback_live (K : D.Keeps H) (h : D.Live i w.core) :
    D.Live i (deliverSuback H w).2.core := by
  unfold deliverSuback
  extract_lets +onlyGivenNames a r
  have hr : r.2.core = w.core := by
    dsimp only [r]
    split
    · exact w.core_askMqtt5
    · rfl
  clear_value r
  rw [← hr] at h
  split
  · exact h
  · exact dispatchEventWithMsgid_kept (fun _ => K.live) h

theorem removeInitiatorMessage_live (type : MsgType) (msgId : ℕ) (h : D.Live i w.core) :
    D.Live i (w.removeInitiatorMessage type msgId).2.core :=
  h.outbox (Outbox.removeFirst_below _ _)

theorem finishPublish_live (K : D.Keeps H) (msgId : ℕ) (h : D.Live i w.core) :
    D.Live i (finishPublish H msgId w).core := by
  unfold finishPublish
  have hv := removeInitiatorMessage_live .publish msgId h
  generalize w.removeInitiatorMessage .publish msgId = r at hv ⊢
  obtain ⟨ok,v⟩ := r
  cases ok with
  | false => exact hv
  | true =>
    dsimp only at hv ⊢
    apply dispatchPlain_live K
    split <;> exact hv

/-! What the worker writes. -/

theorem espMqttWrite_live (K : D.Keeps H) {s : Site} (hsite : s ≠ .publish) (h : D.R i s true w.core)
    (hs : w.state ≠ .disconnected) :
    ((espMqttWrite H s true w).1 = true → D.Live i (espMqttWrite H s true w).2.core) ∧
    ((espMqttWrite H s true w).1 = false → D.Doomed i (espMqttWrite H s true w).2.core) ∧
    (s.ignoresFailure → D.Live i (espMqttWrite H s true w).2.core) := by
  obtain ⟨h1,h2,h3⟩ := espMqttWrite_rule K hsite h
  have hstate : (espMqttWrite H s true w).2.core.state ≠ .disconnected := by
    intro he
    rcases espMqttWrite_state K s true w with hw | ⟨-,hw⟩
    · exact hs (hw.symm.trans he)
    · exact absurd (hw.symm.trans he) (by decide)
  exact ⟨fun hr => ⟨h1 hr, hstate⟩, fun hr => ⟨h2 hr, hstate⟩, fun hi => ⟨h3 hi, hstate⟩⟩

/-- A control packet composed, 3.1.1 or v5. -/
theorem compose_ready {type : MsgType} {build : Connection → Connection} (hb : Control type build)
    (ht : D.Top i) (qos : ℕ) {s : Site} (hsite : s ≠ .publish) (h : D.Live i w.core) :
    D.R i s true (w.compose type qos build).core ∧ (w.compose type qos build).state ≠ .disconnected := by
  unfold World.compose
  by_cases hv : w.isV5 = true
  · rw [if_pos hv]
    obtain ⟨m,hm,hdata⟩ := w.composeMqtt5_core type qos 0
    have hready := D.controlMqtt5 hsite hb ht h.1 h.2 hv hdata
    generalize w.composeMqtt5 type qos 0 = r at hm ⊢
    have hcore : (r.2.arising w.connections true).core = ({w with
        connection := {w.connection with outboundMessage := m}}.arising w.connections true).core := by
      change {r.2.core with origin := ⟨r.2.core.calls, w.connections, true⟩} = _
      rw [hm]
      rfl
    rw [← hcore] at hready
    exact ⟨hready, fun he => h.2 ((congrArg Core.state hcore).symm.trans he)⟩
  · rw [if_neg hv]
    exact ⟨D.control hsite hb ht h.1 h.2, h.2⟩

/-- A reply that is written, or that could not be composed. `before` does no
more than mark a stored packet. -/
theorem reply_rule (K : D.Keeps H) {type : MsgType} {build : Connection → Connection}
    (hb : Control type build) (ht : D.Top i) {s : Site} (hsite : s ≠ .publish) (qos : ℕ)
    (before : World → World)
    (hbefore : ∀ v : World, ∃ o : Outbox, o.Below v.outbox ∧ (before v).core = {v with outbox := o}.core)
    (h : D.Live i w.core) :
    ((reply H s type qos build before w).1 = some true →
      D.Live i (reply H s type qos build before w).2.core) ∧
    D.Doomed i (reply H s type qos build before w).2.core ∧
    (s.ignoresFailure → D.Live i (reply H s type qos build before w).2.core) ∧
    ((reply H s type qos build before w).1 ≠ some false →
      D.Live i (reply H s type qos build before w).2.core) := by
  obtain ⟨hready,hs⟩ := compose_ready hb ht qos hsite h
  unfold reply
  dsimp only
  generalize w.compose type qos build = v at hready hs ⊢
  split
  · have hl : D.Live i v.core := ⟨D.settle hready, hs⟩
    exact ⟨fun _ => hl, hl.doomed, fun _ => hl, fun _ => hl⟩
  · obtain ⟨o,ho,hcore⟩ := hbefore v
    have hready' : D.R i s true (before v).core := by
      rw [hcore]
      exact D.outboxR hready ho
    have hs' : (before v).state ≠ .disconnected := by
      rw [show (before v).state = v.state from congrArg Core.state hcore]
      exact hs
    obtain ⟨h1,h2,h3⟩ := espMqttWrite_live K hsite hready' hs'
    refine ⟨fun hr => h1 (by simpa using hr), ?_, h3, fun hr => h1 (by simpa using hr)⟩
    by_cases hr : (espMqttWrite H s true (before v)).1 = true
    · exact (h1 hr).doomed
    · exact h2 (by simpa using hr)

theorem below_self (v : World) : ∃ o : Outbox, o.Below v.outbox ∧ (id v).core = {v with outbox := o}.core :=
  ⟨v.outbox, Outbox.Below.refl _, rfl⟩

theorem processMessage_rule (K : D.Keeps H) (ht : D.Top i) (h : D.Live i w.core) :
    D.Ends i (processMessage H w) := by
  unfold processMessage
  extract_lets +onlyGivenNames type qos msgId
  have hv : D.Live i w.core := h
  clear_value type qos msgId
  split
  · have hv := removeInitiatorMessage_live .subscribe msgId hv
    generalize w.removeInitiatorMessage .subscribe msgId = r at hv ⊢
    obtain ⟨ok,u⟩ := r
    cases ok with
    | true => exact (deliverSuback_live K hv).ends
    | false => exact Live.ends (r := (true, u)) hv
  · have hv := removeInitiatorMessage_live .unsubscribe msgId hv
    generalize w.removeInitiatorMessage .unsubscribe msgId = r at hv ⊢
    obtain ⟨ok,u⟩ := r
    cases ok with
    | true => exact Live.ends (r := (true, _)) (dispatchPlain_live K .unsubscribed hv)
    | false => exact Live.ends (r := (true, u)) hv
  · have hv := deliverPublish_live K hv
    generalize World.deliverPublish H w = r at hv ⊢
    obtain ⟨ok,u⟩ := r
    cases ok with
    | false => exact hv.ends
    | true =>
      dsimp only at hv ⊢
      split
      · obtain ⟨h1,h2,-⟩ := reply_rule K (.puback msgId) ht (s := .puback) (by decide) 0 id below_self hv
        exact ⟨fun hr => h1 (by simpa using hr), h2⟩
      · split
        · obtain ⟨h1,h2,-⟩ := reply_rule K (.pubrec msgId) ht (s := .pubrec) (by decide) 0 id below_self hv
          exact ⟨fun hr => h1 (by simpa using hr), h2⟩
        · exact hv.ends
  · exact (finishPublish_live K msgId hv).ends
  · -- the result of the write does not count, so the connection must bear a failure
    obtain ⟨-,-,h3,-⟩ := reply_rule K (.pubrel msgId) ht (s := .pubrel) (by decide) 1
      (fun w => {w with outbox := w.outbox.setPending msgId .acknowledged})
      (fun v => ⟨_, (Outbox.setPending_touched v.outbox msgId .acknowledged).below, rfl⟩) hv
    exact (h3 rfl).ends
  · obtain ⟨-,-,h3,-⟩ := reply_rule K (.pubcomp msgId) ht (s := .pubcomp) (by decide) 0 id below_self hv
    exact (h3 rfl).ends
  · exact (finishPublish_live K msgId hv).ends
  · have hv' : D.Live i {w with waitForPingResp := false}.tick.2.core := by
      rw [core_tick]
      exact hv
    exact Live.ends hv'
  · split
    · exact (dispatchPlain_live K .disconnected hv).ends
    · exact hv.ends
  · exact hv.ends

theorem received_core (w : World) (rx : RxState) :
    {w with transport := (mqttMessageReceive w.transport w.rx).2.1, rx := rx}.core = w.core := by
  change {w.core with isOpen := (mqttMessageReceive w.transport w.rx).2.1.isOpen} = w.core
  rw [mqttMessageReceive_isOpen]
  rfl

theorem mqttProcessReceive_rule (K : D.Keeps H) (ht : D.Top i) (h : D.Live i w.core) :
    D.Ends i (mqttProcessReceive H w) := by
  unfold mqttProcessReceive
  extract_lets +onlyGivenNames previous r v
  have hv : D.Live i v.core := by
    rw [← received_core w r.2.2] at h
    exact h
  clear_value v
  split
  · exact hv.ends
  · exact hv.ends
  · exact (dispatchTransportError_kept (fun _ => K.live) hv).ends
  · have hends := processMessage_rule K ht hv
    dsimp only
    generalize processMessage H v = m at hends ⊢
    obtain ⟨ok,u⟩ := m
    cases ok with
    | true => exact hends
    | false => exact hends

/-! What is resent. -/

theorem mqttResendQueued_live (K : D.Keeps H) (ht : D.Top i) {x : OutboxItem}
    (hx : x ∈ w.outbox.list) (h : D.Live i w.core) : D.Live i (mqttResendQueued H x w).2.core := by
  unfold mqttResendQueued
  extract_lets +onlyGivenNames dup v u
  have hu : D.R i .resend true u.core ∧ u.state ≠ .disconnected := by
    dsimp only [u, v]
    cases dup with
    | true => exact ⟨D.outboxR (D.load ht h.1 h.2 hx (Or.inr rfl)) (Outbox.setDup_below _ _), h.2⟩
    | false => exact ⟨D.load ht h.1 h.2 hx (Or.inl rfl), h.2⟩
  clear_value u
  obtain ⟨h1,h2,-⟩ := espMqttWrite_live K (by decide) hu.1 hu.2
  generalize espMqttWrite H .resend true u = r at h1 h2 ⊢
  obtain ⟨ok,u'⟩ := r
  cases ok with
  | true => exact h1 rfl
  | false => exact espMqttAbortConnection_live K (h2 rfl).1

theorem mqttResendPubrel_live (K : D.Keeps H) (ht : D.Top i) {x : OutboxItem}
    (hx : x ∈ w.outbox.list) (h : D.Live i w.core) : D.Live i (mqttResendPubrel H x w).core := by
  have hload : D.Live i (w.loadItem x).core :=
    ⟨D.settle (D.load ht h.1 h.2 hx (Or.inl rfl)), h.2⟩
  unfold mqttResendPubrel
  extract_lets +onlyGivenNames v r
  obtain ⟨-,hdoomed,-,hlive⟩ := reply_rule K (.pubrel v.pendingMsgId) ht (s := .resendPubrel) (by decide) 1 id below_self
    (w := v) hload
  split
  · exact espMqttAbortConnection_live K hdoomed.1
  · rename_i hr
    exact hlive hr

theorem deleteExpiredLoop_rule (K : D.Keeps H) (k : ℕ) (w : World) (h : D.P i w.core) :
    D.P i (deleteExpiredLoop H k w).core := by
  induction k generalizing w with
  | zero => exact h
  | succ k ih =>
    unfold deleteExpiredLoop
    rw [← core_tick] at h
    have hrest := D.outbox h (Outbox.removeFirst_below w.tick.2.outbox fun i =>
      decide ((w.tick.2.config.outboxExpiredTimeoutMs : ℤ) < (w.tick.1 : ℤ)-i.tick))
    dsimp only [Outbox.deleteSingleExpired]
    generalize w.tick.2.outbox.removeFirst _ = r at hrest ⊢
    obtain ⟨item,o⟩ := r
    cases item with
    | none => exact hrest
    | some item => exact ih _ (dispatchEvent_kept (fun _ => K.keeps (j := i)) hrest)

theorem mqttDeleteExpiredMessages_rule (K : D.Keeps H) (h : D.P i w.core) :
    D.P i (mqttDeleteExpiredMessages H w).core := by
  unfold mqttDeleteExpiredMessages
  split
  · exact deleteExpiredLoop_rule K _ w h
  · rw [← core_tick] at h
    exact D.outbox h (Outbox.removeAll_below _ _)

theorem requeueLoop_rule (k : ℕ) (w : World) (h : D.Live i w.core) :
    D.Live i {w with outbox := requeueLoop k w.outbox}.core := by
  induction k generalizing w with
  | zero => exact h
  | succ k ih =>
    unfold requeueLoop
    split
    · exact h
    · rename_i x hx
      extract_lets +onlyGivenNames o
      have ho : D.Live i {w with outbox := o}.core := by
        dsimp only [o]
        split
        · exact h.outbox (Outbox.setDup_below _ _)
        · exact h
      split
      · exact ho
      · exact ih _ (ho.outbox (Outbox.setPending_touched o x.msgId .queued).below)

/-! Connecting. -/

theorem connackLoop_live (started k : ℕ) (w : World) (h : D.Live i w.core) :
    D.Live i (connackLoop started k w).2.core := by
  induction k generalizing w with
  | zero => exact h
  | succ k ih =>
    unfold connackLoop
    extract_lets +onlyGivenNames r v
    have hv : D.Live i v.core := by
      rw [← received_core w r.2.2] at h
      exact h
    clear_value v
    split
    · rw [← core_tick] at hv
      dsimp only
      split
      · exact ih _ hv
      · exact hv
    · exact hv

theorem acceptConnack_live (K : D.Keeps H) (h : D.Live i w.core) :
    D.Live i (acceptConnack H w).2.core := by
  unfold acceptConnack
  split
  · exact h
  · split
    · rw [← core_askMqtt5] at h
      generalize w.askMqtt5 = a at h ⊢
      obtain ⟨a,v⟩ := a
      dsimp only at h ⊢
      split
      · exact requeueLoop_rule _ _ h
      · exact dispatchEventWithMsgid_kept (fun _ => K.live) h
    · dsimp only
      split
      · exact h
      · exact dispatchEventWithMsgid_kept (fun _ => K.live) h

theorem espMqttConnect_rule (K : D.Keeps H) (ht : D.Top i) (h : D.Live i w.core) :
    D.Ends i (espMqttConnect H w) := by
  unfold espMqttConnect
  extract_lets +onlyGivenNames v r
  have hv : D.Live i v.core := ⟨D.reset (w := {w with waitForPingResp := false}) h.1, h.2⟩
  have hreply : _ ∧ _ := reply_rule K (.connect v.information) ht (s := .connect) (by decide) 0
    (fun w => {w with pendingMsgType := some .connect, pendingMsgId := 0}) below_self hv
  have hr : (r.1 = some true → D.Live i r.2.core) ∧ D.Doomed i r.2.core :=
    ⟨hreply.1, hreply.2.1⟩
  split
  · exact ⟨fun hf => absurd hf (by simp), hr.2⟩
  · rename_i hsome
    have hu := hr.1 (by simpa using hsome)
    clear_value r
    dsimp only
    have hu : D.Live i {r.2 with rx := {r.2.rx with inBufferReadLen := 0, messageLength := 0}}.tick.2.core := by
      rw [core_tick]
      exact hu
    generalize World.tick _ = t at hu ⊢
    have hloop := connackLoop_live t.1 (t.2.transport.reads.length+1) t.2 hu
    generalize connackLoop t.1 (t.2.transport.reads.length+1) t.2 = c at hloop ⊢
    obtain ⟨res,u⟩ := c
    cases res with
    | message => exact (acceptConnack_live K hloop).ends
    | failure =>
      exact Live.ends (r := (false, _)) (dispatchTransportError_kept (fun _ => K.live) hloop)
    | nothing => exact Live.ends (r := (false, u)) hloop
    | midMessageTimeout => exact Live.ends (r := (false, u)) hloop

theorem sendDisconnectMsg_doomed (K : D.Keeps H) (ht : D.Top i) (h : D.Live i w.core) :
    D.Doomed i (sendDisconnectMsg H w).core :=
  (reply_rule K .disconnect ht (s := .disconnect) (by decide) 0 id below_self h).2.1

theorem taskInit_live (K : D.Keeps H) (ht : D.Top i) (hs : w.state = .init) (h : D.P i w.core) :
    D.Live i (taskInit H w).core := by
  have hw : D.Live i w.core := ⟨h, fun he => absurd (hs.symm.trans he) (by decide)⟩
  unfold taskInit
  extract_lets +onlyGivenNames v created u
  have hu : D.Live i u.core := hw
  have hus : u.state = .init := hs
  clear_value u created
  split
  · exact dispatchEventWithMsgid_kept (w := {u with event :=
      {u.event with id := .error, errorHandle := some ⟨.tcpTransport, 0, 0, 0⟩}}) (fun _ => K.live) hu
  · extract_lets +onlyGivenNames x
    have hx : D.Live i x.core := dispatchPlain_live K .other hu
    have hxs : x.state = .init :=
      dispatchEventWithMsgid_kept (w := {u with event := {u.event with id := .other}})
        (S := fun c => c.state = .init) (fun v hv => (K.settled .init v (Or.inl hv)).resolve_right
          fun hc => absurd hc.1 (by decide)) hus
    clear_value x
    unfold espTransportConnect
    cases hc : x.transport.connects with
    | nil =>
      have hevent := dispatchTransportError_kept (w := x) (fun _ => K.live) hx
      exact espMqttAbortConnection_live K hevent.doomed.1
    | cons c cs =>
      cases c with
      | none =>
        have hevent := dispatchTransportError_kept (w := {x with transport :=
          {x.transport with connects := cs}}) (fun _ => K.live) hx
        exact espMqttAbortConnection_live K hevent.doomed.1
      | some stream =>
        dsimp only
        have hconn : D.Live i {x with
            transport := {x.transport with isOpen := true, stream := stream, connects := cs}
            connections := x.connections+1}.core := ⟨D.connecting hx.1 hxs rfl, hx.2⟩
        have hends := espMqttConnect_rule K ht hconn
        generalize espMqttConnect H _ = r at hends ⊢
        obtain ⟨ok,y⟩ := r
        cases ok with
        | false => exact espMqttAbortConnection_live K hends.2.1
        | true =>
          have hy := hends.1 rfl
          have hup : D.Live i {y with state := .connected}.core :=
            ⟨D.connected ht hy.1 hy.2, (by decide : MqttState.connected ≠ .disconnected)⟩
          have hdone := dispatchPlain_live K .connected hup
          rw [← core_tick, ← core_tick] at hdone
          exact hdone

theorem processKeepalive_live (K : D.Keeps H) (ht : D.Top i) (h : D.Live i w.core) :
    D.Live i (processKeepalive H w).2.core := by
  unfold processKeepalive
  split
  · exact h
  · extract_lets +onlyGivenNames ms
    split
    · have hv := h
      rw [← core_hasTimedOut w w.keepaliveTick ms] at hv
      generalize w.hasTimedOut w.keepaliveTick ms = r at hv ⊢
      obtain ⟨timedOut,v⟩ := r
      cases timedOut with
      | true => exact espMqttAbortConnection_live K hv.doomed.1
      | false => exact hv
    · have hv := h
      rw [← core_hasTimedOut w w.keepaliveTick (ms/2)] at hv
      generalize w.hasTimedOut w.keepaliveTick (ms/2) = r at hv ⊢
      obtain ⟨timedOut,v⟩ := r
      cases timedOut with
      | false => exact hv
      | true =>
        have hready := D.control (s := .ping) (by decide) .pingreq ht hv.1 hv.2
        dsimp only at hready ⊢
        have hstate : ({v with connection := mqttMsgPingreq v.connection}.arising v.connections
          true).state ≠ .disconnected := hv.2
        generalize World.arising _ v.connections true = u at hready hstate ⊢
        split
        · exact espMqttAbortConnection_live K (D.relax (D.settle hready))
        · obtain ⟨h1,h2,-⟩ := espMqttWrite_live K (by decide) hready hstate
          generalize espMqttWrite H .ping true u = r at h1 h2 ⊢
          obtain ⟨ok,u'⟩ := r
          cases ok with
          | true => exact h1 rfl
          | false => exact espMqttAbortConnection_live K (h2 rfl).1

/-! What the worker has to send. -/

theorem dequeue_mem {o : Outbox} {pending : PendingState} {x : OutboxItem}
    (h : o.dequeue pending = some x) : x ∈ o.list := List.mem_of_find?_eq_some h

theorem nextQueued_mem {x : OutboxItem} (h : w.nextQueued = some x) : x ∈ w.outbox.list := by
  unfold nextQueued at h
  split at h
  · simp at h
  · rename_i y hy
    split at h
    · unfold queuedQos0 at h
      exact List.mem_of_find?_eq_some (Option.eq_some_of_filter_eq_some h)
    · rw [Option.some.injEq] at h
      rw [← h]
      exact dequeue_mem hy

theorem overdue_mem {pending : PendingState} {x : OutboxItem} (h : w.overdue pending = some x) :
    x ∈ w.outbox.list := by
  unfold overdue at h
  exact dequeue_mem (Option.eq_some_of_filter_eq_some h)

theorem sendQueued_live (K : D.Keeps H) (ht : D.Top i) {x : OutboxItem} (hx : x ∈ w.outbox.list)
    (h : D.Live i w.core) : D.Live i (sendQueued H x w).core := by
  have hsent := mqttResendQueued_live K ht hx h
  unfold sendQueued
  generalize mqttResendQueued H x w = r at hsent ⊢
  obtain ⟨ok,v⟩ := r
  cases ok with
  | false => exact hsent
  | true =>
    dsimp only at hsent ⊢
    split
    · exact hsent.outbox (Outbox.removeFirst_below _ _)
    · have hnoted : D.Live i (if v.pendingMsgType = some .publish then
          v.noteTraffic (.sent v.origin.call v.pendingMsgId) else v).core := by
        split <;> exact hsent
      generalize (if v.pendingMsgType = some .publish then _ else v) = u at hnoted ⊢
      rw [← core_tick] at hnoted
      have hticked := hnoted.outbox (Outbox.setTick_touched _ u.tick.2.pendingMsgId u.tick.1).below
      have hpending := hticked.outbox
        (Outbox.setPending_touched _ u.tick.2.pendingMsgId .transmitted).below
      split <;> exact hpending

theorem retransmit_live (K : D.Keeps H) (ht : D.Top i) (h : D.Live i w.core) :
    D.Live i (retransmit H w).core := by
  unfold retransmit
  extract_lets +onlyGivenNames t t' v u
  have hv : D.Live i v.core := by
    rw [← core_tick] at h
    exact h
  clear_value v
  have hu : D.Live i u.core := by
    dsimp only [u]
    split
    · rename_i x hx
      have hresent := mqttResendQueued_live K ht (overdue_mem hx) hv
      split <;> exact hresent
    · exact hv
  clear_value u
  split
  · rename_i x hx
    exact mqttResendPubrel_live K ht (overdue_mem hx) hu
  · exact hu

theorem taskSend_live (K : D.Keeps H) (ht : D.Top i) (h : D.Live i w.core) :
    D.Live i (taskSend H w).core := by
  unfold taskSend
  split
  · rename_i x hx
    exact sendQueued_live K ht (nextQueued_mem hx) h
  · rw [← core_hasTimedOut w w.lastRetransmit w.config.messageRetransmitTimeout] at h
    generalize w.hasTimedOut w.lastRetransmit w.config.messageRetransmitTimeout = r at h ⊢
    obtain ⟨timedOut,v⟩ := r
    cases timedOut with
    | true => exact retransmit_live K ht h
    | false => exact h

theorem taskUpkeep_live (K : D.Keeps H) (ht : D.Top i) (h : D.Live i w.core) :
    D.Live i (taskUpkeep H w).core := by
  have hping := processKeepalive_live K ht h
  unfold taskUpkeep
  generalize processKeepalive H w = r at hping ⊢
  obtain ⟨ok,v⟩ := r
  cases ok with
  | false => exact hping
  | true =>
    dsimp only at hping ⊢
    split
    · exact hping
    · rw [← core_hasTimedOut v v.refreshConnectionTick v.config.refreshConnectionAfterMs] at hping
      generalize v.hasTimedOut v.refreshConnectionTick v.config.refreshConnectionAfterMs = r at hping ⊢
      obtain ⟨timedOut,u⟩ := r
      cases timedOut with
      | true =>
        have habort := espMqttAbortConnection_rule K hping.doomed.1
        exact ⟨D.reinit habort (ApiRules.espMqttAbortConnection_state K u),
          (by decide : MqttState.init ≠ .disconnected)⟩
      | false => exact hping

theorem taskConnected_live (K : D.Keeps H) (ht : D.Top i) (h : D.Live i w.core) :
    D.Live i (taskConnected H w).core := by
  unfold taskConnected
  split
  · exact espMqttAbortConnection_live K
      (sendDisconnectMsg_doomed (w := {w with disconnectBit := false}) K ht h).1
  · have hends := mqttProcessReceive_rule K ht h
    generalize mqttProcessReceive H w = r at hends ⊢
    obtain ⟨ok,v⟩ := r
    cases ok with
    | false => exact espMqttAbortConnection_live K hends.2.1
    | true =>
      have hv := hends.1 rfl
      dsimp only at hv ⊢
      apply taskUpkeep_live K ht
      apply taskSend_live K ht
      split
      · rw [← core_tick] at hv
        exact hv
      · exact hv

theorem taskWaitReconnect_rule (hs : w.state = .waitReconnect) (h : D.P i w.core) :
    D.P i w.taskWaitReconnect.2.core := by
  have hreinit := D.reinit h hs
  unfold taskWaitReconnect
  split
  · exact hreinit
  · split
    · obtain ⟨n,l,ht⟩ := w.tick_eq
      rw [ht]
      dsimp only
      split
      · obtain ⟨n',l',ht'⟩ := {w with now := n, ticks := l}.tick_eq
        rw [ht']
        exact hreinit
      · exact h
    · exact h

/-- What a pass of the worker does before it lets go of the lock. -/
def taskWork (H : Handler) (w : World) : World :=
  let w := mqttDeleteExpiredMessages H (runEventLoop H w)
  match w.state with
  | .disconnected => w
  | .init => taskInit H w
  | .connected => taskConnected H w
  | .waitReconnect => w.taskWaitReconnect.2

theorem taskPass_eq (H : Handler) (w : World) :
    ∃ p, p ≠ TaskPc.none ∧ taskPass H w = {taskWork H w with pc := p} := by
  unfold taskPass taskWork
  generalize mqttDeleteExpiredMessages H (runEventLoop H w) = v
  cases hs : v.state with
  | disconnected => exact ⟨.unlocked, by decide, by simp [hs]⟩
  | init => exact ⟨.unlocked, by decide, by simp [hs]⟩
  | connected => exact ⟨.unlocked, by decide, by simp [hs]⟩
  | waitReconnect =>
    refine ⟨if v.taskWaitReconnect.1 then .head else .unlocked, ?_, by simp [hs]⟩
    split <;> decide

theorem taskWork_rule (K : D.Keeps H) (ht : D.Top i) (h : D.P i w.core) :
    D.P i (taskWork H w).core := by
  have hloop : D.P i (runEventLoop H w).core := by
    unfold runEventLoop
    split
    · exact h
    · exact dispatchEvent_kept (fun _ => K.keeps (j := i)) (w := {w with
        userEvents := w.userEvents-1, event := {w.event with id := .other}}) h
  have hv := mqttDeleteExpiredMessages_rule K hloop
  unfold taskWork
  generalize mqttDeleteExpiredMessages H (runEventLoop H w) = v at hv ⊢
  dsimp only
  split
  · exact hv
  · rename_i hs
    exact (taskInit_live K ht hs hv).1
  · rename_i hs
    exact (taskConnected_live K ht ⟨hv, fun he => absurd (hs.symm.trans he) (by decide)⟩).1
  · rename_i hs
    exact taskWaitReconnect_rule hs hv

end Rules

end EspMqtt
