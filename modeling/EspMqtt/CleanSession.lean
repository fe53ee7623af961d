import EspMqtt.RunRules

/-! Requests and connections: with a clean session a SUBSCRIBE or UNSUBSCRIBE
goes out on the connection it was asked for on, or not at all. -/
namespace EspMqtt
open World

def isRequest (type : Option MsgType) : Bool := type == some .subscribe || type == some .unsubscribe

/-- What a run must not do to its requests: give the lock to one whose tests saw
another connection, or while no connection is up (the time between a stop and
the end of the worker apart), or switch to a persistent session. -/
def Mark.timely : Mark → Bool
  | .body c _ _ seen connection state pc _ _ =>
    match c with
    | .subscribe _ | .unsubscribe _ =>
      seen == connection && (state == .connected || (state == .disconnected && pc != .none))
    | .setConfig s => s.information.cleanSession
    | _ => true
  | _ => true

def Timely (marks : List Mark) : Prop := ∀ m ∈ marks, m.timely = true

theorem Timely.tail {m : Mark} {marks : List Mark} (h : Timely (m :: marks)) : Timely marks :=
  fun k hk => h k (List.mem_cons_of_mem m hk)

theorem Timely.head {m : Mark} {marks : List Mark} (h : Timely (m :: marks)) : m.timely = true :=
  h m List.mem_cons_self

/-- Every request that went out was asked for on that connection. -/
def RequestsInPlace (wire : List Chunk) : Prop :=
  ∀ c ∈ wire, c.first = true → isRequest c.msgType → 0 < c.sent → c.origin.connection = c.connection

instance (wire : List Chunk) : Decidable (RequestsInPlace wire) :=
  inferInstanceAs (Decidable (∀ c ∈ wire, _))

/-- The part of the client that matters to its requests. -/
structure SessionView where
  state : MqttState
  pc : TaskPc
  cleanSession : Bool
  connections : ℕ
  outbox : Outbox
  wire : List Chunk
  marks : List Mark

def Core.session (c : Core) : SessionView :=
  ⟨c.state, c.pc, c.cleanSession, c.connections, c.outbox, c.wire, c.marks⟩

/-- A connection is up, or its worker has still to end. -/
def SessionView.Up (v : SessionView) : Prop :=
  v.state = .connected ∨ v.state = .disconnected ∧ v.pc ≠ .none

/-- The session while it is clean. -/
structure SessionOk (v : SessionView) : Prop where
  clean : v.cleanSession = true
  typed : ∀ x ∈ v.outbox.list, packetType x.buffer = x.msgType
  current : ∀ x ∈ v.outbox.list, isRequest x.msgType → x.origin.connection = v.connections ∧ v.Up
  placed : RequestsInPlace v.wire

def SessionP (v : SessionView) : Prop := Timely v.marks → SessionOk v

/-- The outbound message may go out as the beginning of a packet. -/
def Core.Placed (c : Core) : Prop :=
  isRequest (packetType c.connection.outboundMessage.data) → c.origin.connection = c.connections

theorem SessionP.mark {v : SessionView} {m : Mark} (h : SessionP v) :
    SessionP {v with marks := m :: v.marks} := fun ht =>
  ⟨(h ht.tail).clean, (h ht.tail).typed, (h ht.tail).current, (h ht.tail).placed⟩

/-- Another outbox with packets of the old one only. -/
theorem SessionOk.below {v : SessionView} {o : Outbox} (h : SessionOk v) (ho : o.Below v.outbox) :
    SessionOk {v with outbox := o} where
  clean := h.clean
  typed x hx := by
    obtain ⟨y,hy,-,htype,hbuf⟩ := ho x hx
    rw [htype, ← h.typed y hy]
    rcases hbuf with hb | hb
    · rw [hb]
    · rw [hb, packetType_mqttSetDup]
  current x hx hr := by
    obtain ⟨y,hy,horigin,htype,-⟩ := ho x hx
    rw [htype] at hr
    rw [horigin]
    exact h.current y hy hr
  placed := h.placed

/-- Another state, if no request is stored or a connection is up in it. -/
theorem SessionOk.moved {v v' : SessionView} (h : SessionOk v) (hclean : v'.cleanSession = v.cleanSession)
    (hwire : v'.wire = v.wire) (hbox : v'.outbox = v.outbox)
    (hup : v.Up → v'.connections = v.connections ∧ v'.Up) : SessionOk v' where
  clean := hclean.trans h.clean
  typed := by
    rw [hbox]
    exact h.typed
  current x hx hr := by
    rw [hbox] at hx
    obtain ⟨horigin,hu⟩ := h.current x hx hr
    exact ⟨horigin.trans (hup hu).1.symm, (hup hu).2⟩
  placed := by
    rw [hwire]
    exact h.placed

/-- One more packet at the end of the outbox. -/
theorem SessionOk.append {v : SessionView} {o : Outbox} {x : OutboxItem} (h : SessionOk v)
    (ho : o.list = v.outbox.list ++ [x]) (htype : packetType x.buffer = x.msgType)
    (hx : isRequest x.msgType → x.origin.connection = v.connections ∧ v.Up) :
    SessionOk {v with outbox := o} where
  clean := h.clean
  typed y hy := by
    change y ∈ o.list at hy
    rw [ho, List.mem_append, List.mem_singleton] at hy
    rcases hy with hy | rfl
    · exact h.typed y hy
    · exact htype
  current y hy hr := by
    change y ∈ o.list at hy
    rw [ho, List.mem_append, List.mem_singleton] at hy
    rcases hy with hy | rfl
    · exact h.current y hy hr
    · exact hx hr
  placed := h.placed

theorem sessionOutbox_mem {w : World} {x : OutboxItem} (hc : w.information.cleanSession = true)
    (h : x ∈ w.sessionOutbox.list) : x ∈ w.outbox.list ∧ isRequest x.msgType = false := by
  unfold World.sessionOutbox at h
  rw [if_pos hc] at h
  simp only [Outbox.deleteMessageType, Outbox.removeAll, List.mem_filter] at h
  refine ⟨h.1.1, ?_⟩
  simp only [Bool.not_eq_true'] at h
  simp [isRequest, h.1.2, h.2]

/-- Without a connection, or behind an abort, no request is stored. -/
theorem SessionOk.none_stored {v : SessionView} (h : SessionOk v) (hup : ¬ v.Up) :
    ∀ x ∈ v.outbox.list, isRequest x.msgType = false := by
  intro x hx
  by_contra hr
  exact hup (h.current x hx (by simpa using hr)).2

theorem isRequest_composed {type : MsgType} {c : Connection} (h : Composed type c)
    (htype : isRequest (some type) = false) :
    isRequest (packetType c.outboundMessage.data) = false := by
  rcases h with h | h
  · rw [h]
    rfl
  · rw [h]
    exact htype

theorem Control.isRequest {type : MsgType} {build : Connection → Connection} (h : Control type build) :
    EspMqtt.isRequest (some type) = false := by
  cases h <;> rfl

/-- A write of a packet that may go out. -/
theorem recordWrite_session {w : World} {s : Site} {f : Bool} (h : SessionP w.core.session)
    (hplace : f = true → Timely w.marks → w.core.Placed) :
    SessionP (w.recordWrite s f).core.session := by
  intro ht
  have htimely : Timely w.marks := by
    change Timely (if w.isCut f then .cut s :: w.marks else w.marks) at ht
    split at ht
    · exact ht.tail
    · exact ht
  have hok := h htimely
  refine ⟨hok.clean, hok.typed, hok.current, fun c hc hfirst hr _ => ?_⟩
  rcases List.mem_cons.mp hc with rfl | hc
  · exact hplace hfirst htimely hr
  · exact hok.placed c hc hfirst hr ‹_›

/-- Composing and storing a PUBLISH stores no request. -/
theorem enqueuePublish_session {w : World} (h : SessionP w.core.session) (topic : Option (List UInt8))
    (d : CData) (len : ℤ) (qos retain : ℕ) (store : Bool) (r : Option ℕ × World)
    (hr : w.mqttClientEnqueuePublish topic d len qos retain store = r) :
    SessionP r.2.core.session ∧ r.2.core.origin.connection = r.2.core.connections := by
  obtain ⟨c,hc⟩ := w.makePublish_core topic d len qos retain
  have hcomposed := w.makePublish_composed topic d len qos retain
  have hno := isRequest_composed hcomposed rfl
  have hmake : SessionP (w.makePublish topic d len qos retain).2.core.session := by
    rw [hc]
    exact h
  have hplace : (w.makePublish topic d len qos retain).2.core.origin.connection =
      (w.makePublish topic d len qos retain).2.core.connections := by
    rw [hc]
    rfl
  have hcases := enqueuePublish_cases w topic d len qos retain store r hr _ rfl
  generalize (w.makePublish topic d len qos retain).2 = v at hno hmake hplace hcases
  rcases hcases with
    ⟨-,-,he⟩ | ⟨-,-,-,-,he⟩ | ⟨-,-,-,-,he⟩ | ⟨-,-,-,-,he⟩ | ⟨-,hne,-,rest,o,ho,-,he⟩
  · rw [he]
    exact ⟨hmake,hplace⟩
  · rw [he]
    exact ⟨hmake,hplace⟩
  · rw [he]
    exact ⟨hmake,hplace⟩
  · rw [he]
    exact ⟨hmake.mark,hplace⟩
  · rw [he]
    refine ⟨fun ht => ?_, hplace⟩
    obtain ⟨handle,msgId,msgQos,tick,pending,hlist⟩ := ho
    refine (hmake ht).append hlist ?_ fun hreq => ?_
    · apply packetType_append
      intro hnil
      simp [World.nothingComposed, hnil] at hne
    · exact absurd (hno.symm.trans hreq) (by decide)

def sessionRules : RunRules Unit where
  P _ c := SessionP c.session
  Q _ c := SessionP c.session
  R _ s f c := SessionP c.session ∧ (f = true → Timely c.marks → c.Placed) ∧
    (s = .publish → c.origin.connection = c.connections)
  M _ _ c := SessionP c.session ∧ c.origin.connection = c.connections
  L _ _ _ c := SessionP c.session ∧ c.origin.connection = c.connections
  Top _ := True
  relax h := h
  settle h := h.1
  sent _ h _ := recordWrite_session h.1 h.2.1
  timedOut h _ := ⟨recordWrite_session h.1 h.2.1, fun _ => recordWrite_session h.1 h.2.1⟩
  failed h _ := ⟨(), recordWrite_session h.1 h.2.1, fun _ h' => ⟨h', fun _ => h'⟩⟩
  aborted {_ w} h ht := by
    have hok := h ht
    refine ⟨hok.clean, fun x hx => ?_, fun x hx hr => ?_, hok.placed⟩
    · exact hok.typed x (sessionOutbox_mem hok.clean hx).1
    · exact absurd ((sessionOutbox_mem hok.clean hx).2.symm.trans hr) (by decide)
  control _ hb _ h _ := ⟨h, fun _ _ hr => absurd ((isRequest_composed (hb.composed _)
    hb.isRequest).symm.trans hr) (by decide), fun _ => rfl⟩
  controlMqtt5 {_ _ type _ qos m w} _ hb _ h _ _ hm := by
    refine ⟨h, fun _ _ hr => ?_, fun _ => rfl⟩
    have hc : Composed type {w.connection with outboundMessage := m} := by
      rcases hm with hm | ⟨rest,hm⟩
      · exact Or.inl hm
      · exact Composed.of_headerByte hm
    exact absurd ((isRequest_composed hc hb.isRequest).symm.trans hr) (by decide)
  load {_ x b w} _ h _ hx hb := by
    refine ⟨h, fun _ ht hr => ?_, fun hs => absurd hs (by decide)⟩
    have htype : packetType b = x.msgType := by
      rw [← (h ht).typed x hx]
      rcases hb with rfl | rfl
      · rfl
      · exact packetType_mqttSetDup x.buffer
    change isRequest (packetType b) at hr
    rw [htype] at hr
    exact ((h ht).current x hx hr).1
  outbox h ho := fun ht => (h ht).below ho
  outboxR h ho := ⟨fun ht => (h.1 ht).below ho, h.2⟩
  reset h := h
  connecting {_ _ w} h hs _ := fun ht => (h ht).moved rfl rfl rfl fun hup => by
    rcases hup with hc | hc
    · exact absurd (hs.symm.trans hc) (by decide)
    · exact absurd (hs.symm.trans hc.1) (by decide)
  connected _ h _ := fun ht => (h ht).moved rfl rfl rfl fun _ => ⟨rfl, Or.inl rfl⟩
  reinit h hs := fun ht => (h ht).moved rfl rfl rfl fun hup => by
    rcases hup with hc | hc
    · exact absurd (hs.symm.trans hc) (by decide)
    · exact absurd (hs.symm.trans hc.1) (by decide)
  begins h := h.mark
  setConfig {_ s _ w} h := fun ht =>
    ⟨ht.head, (h ht.tail).typed, (h ht.tail).current, (h ht.tail).placed⟩
  enqueue {_ topic d len qos retain store seen w} h := by
    rcases espMqttClientEnqueue_core (w.beginCall (.enqueue topic d len qos retain store) seen) topic d
      len qos retain store with he | he
    · rw [he]
      exact h.mark
    · rw [he]
      exact (enqueuePublish_session (w := w.beginCall (.enqueue topic d len qos retain store) seen)
        h.mark topic d (effectiveLen d len) qos retain store _ rfl).1
  publish {_ topic d len qos retain seen w} h r hr := by
    have hdone := enqueuePublish_session (w := w.beginCall (.publish topic d len qos retain) seen)
      h.mark topic d (effectiveLen d len) qos retain false r hr
    exact ⟨fun _ => hdone.1, fun _ => hdone⟩
  unsent h := h.1
  cleared h := h
  overQuota h _ := h.1
  firstChunk {_ b _ w} h _ _ := by
    refine ⟨(), ⟨h.1, fun _ _ _ => h.2, fun _ => h.2⟩, fun v hv _ => ?_, fun _ h' => h'⟩
    subst hv
    exact ⟨recordWrite_session (w := w.inChunk b) h.1 fun _ _ _ => h.2, h.2⟩
  nextChunk {_ _ _ piece w} h _ _ _ := by
    refine ⟨⟨h.1, fun hf => absurd hf (by decide), fun _ => h.2⟩, fun v hv _ => ?_⟩
    subst hv
    exact ⟨recordWrite_session (w := w.refill piece) h.1 fun hf => absurd hf (by decide), h.2⟩
  lastChunk h _ := h.1
  request {_ c s type build seen w} hreq h w1 hw1 := by
    obtain ⟨e,he,-⟩ := composeRequest_core (w.beginCall c seen).resetPendingMessage type seen build
    rw [← hw1] at he
    have hp : SessionP w1.core.session := by
      rw [he]
      exact h.mark
    -- the call has the connection its tests saw, and that one is up
    have hplace (ht : Timely w1.marks) : w1.origin.connection = w1.connections ∧ w1.core.session.Up := by
      have hmarks : w1.core.marks = _ :: w.marks := congrArg Core.marks he
      have hhead : (seen == w.connections &&
          (w.state == .connected || (w.state == .disconnected && w.pc != .none))) = true := by
        have hm : Timely w1.core.marks := ht
        rw [hmarks] at hm
        have hm := hm.head
        cases hreq <;> exact hm
      simp only [Bool.and_eq_true, beq_iff_eq, Bool.or_eq_true, bne_iff_ne] at hhead
      have horigin : w1.core.origin = _ := congrArg Core.origin he
      have hconn : w1.core.connections = _ := congrArg Core.connections he
      have hstate : w1.core.state = _ := congrArg Core.state he
      have hpc : w1.core.pc = _ := congrArg Core.pc he
      refine ⟨?_, ?_⟩
      · change w1.core.origin.connection = w1.core.connections
        rw [horigin, hconn]
        exact hhead.1
      · change w1.core.state = _ ∨ w1.core.state = _ ∧ w1.core.pc ≠ _
        rw [hstate, hpc]
        exact hhead.2
    refine ⟨hp, fun o ho => ⟨fun ht => ?_, fun _ ht _ => (hplace ht).1, fun hs => ?_⟩⟩
    · obtain ⟨handle,msgId,msgQos,tick,pending,hlist⟩ := ho
      rw [List.append_nil] at hlist
      exact (hp ht).append hlist rfl fun _ => hplace ht
    · cases hreq <;> exact absurd hs (by decide)
  moves h hw hp := fun ht => (h ht).moved rfl rfl rfl fun hup =>
    ⟨rfl, hup.imp id fun hc => ⟨hc.1, hp⟩⟩
  exits {_ w} h ht := by
    have hnone : (w.taskExit).outbox.list = [] := by
      simp [World.taskExit, World.depart, Outbox.deleteAllItems, Outbox.removeAll]
    refine ⟨(h ht).clean, fun x hx => ?_, fun x hx => ?_, (h ht).placed⟩
    · exact absurd (hnone ▸ hx) List.not_mem_nil
    · exact absurd (hnone ▸ hx) List.not_mem_nil
  starts h hp hs := fun ht => (h ht).moved rfl rfl rfl fun hup => by
    rcases hup with hc | hc
    · exact absurd hc hs
    · exact absurd hp hc.2
  refuses h hs := fun ht => (h ht).moved rfl rfl rfl fun hup => by
    rcases hup with hc | hc
    · exact absurd hc hs
    · exact ⟨rfl, Or.inr ⟨rfl, hc.2⟩⟩
  stops h hp := fun ht => (h ht).moved rfl rfl rfl fun _ => ⟨rfl, Or.inr ⟨rfl, hp⟩⟩
  idles h hs := fun ht => (h ht).moved rfl rfl rfl fun hup => by
    rcases hup with hc | hc
    · exact absurd hc hs
    · exact ⟨rfl, Or.inr ⟨rfl, hc.2⟩⟩
  joins h := h

/-- In every run that meets the conditions a request goes out on the connection
it was asked for on, and none is stored from an abort to the next connection. -/
theorem clean_session_requests (s : Settings) (incremental : Bool) (e : Environment) (n : ℕ)
    (ss : List ClientStep) (hs : s.information.cleanSession = true)
    (ht : Timely (clientRun s incremental e n ss).marks) :
    RequestsInPlace (clientRun s incremental e n ss).wire ∧
    ((clientRun s incremental e n ss).state = .waitReconnect ∨
        (clientRun s incremental e n ss).state = .init →
      ∀ x ∈ (clientRun s incremental e n ss).outbox.list, isRequest x.msgType = false) := by
  have hinit : SessionP (clientInit s incremental e).core.session := fun _ =>
    ⟨hs, fun _ hx => absurd hx List.not_mem_nil, fun _ hx => absurd hx List.not_mem_nil,
      fun _ hc => absurd hc List.not_mem_nil⟩
  have hok := sessionRules.run_rule (i := ()) s incremental e n ss trivial hinit ht
  refine ⟨hok.placed, fun hdown => hok.none_stored fun hup => ?_⟩
  rcases hup with hc | ⟨hc,-⟩ <;> rcases hdown with hd | hd <;>
  exact absurd (hd.symm.trans hc) (by decide)

def subscribeT : ApiCall := .subscribe [([0x74], 1)]

/-- A subscription on the connection it was asked for on. -/
theorem clean_session_requests_same_connection :
    let w := clientRun smallSettings false
      (plainEnvironment [some [0x20, 2, 0, 0]] (List.replicate 4 (.chunk 9)) []) 0
      (connectSteps ++ [.check subscribeT, .body 0])
    RequestsInPlace w.wire ∧ (w.state = .waitReconnect ∨ w.state = .init →
      ∀ x ∈ w.outbox.list, isRequest x.msgType = false) :=
  clean_session_requests smallSettings false _ 0 _ rfl (by unfold Timely; decide +kernel)

/-- A broker that accepts twice; after ten seconds the client connects again. -/
def returningBroker : Environment :=
  {plainEnvironment [some [0x20, 2, 0, 0], some [0x20, 2, 0, 0]] (List.replicate 9 (.chunk 9)) [] with
    ticks := List.replicate 6 0 ++ [10001] ++ List.replicate 7 0 ++ [1001, 1001, 1001]}

/-- The tests of a subscribe pass, the connection is aborted, the subscribe gets
the lock and stores its packet, and the next connection retransmits it. -/
theorem subscribe_replayed_after_abort :
    smallSettings.information.cleanSession = true ∧
    ¬ RequestsInPlace (clientRun smallSettings false returningBroker 0 (connectSteps ++
      [.check subscribeT, .task false, .task true, .body 0] ++ List.replicate 12 (.task false))).wire := by
  refine ⟨rfl, ?_⟩
  decide +kernel

end EspMqtt
