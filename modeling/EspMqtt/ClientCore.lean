import EspMqtt.ClientRun

/-! What the results about runs of the client look at, and what the smaller
operations do to it. -/
namespace EspMqtt
open World

/-- The part of the client that the results about runs speak about. -/
structure Core where
  state : MqttState
  pc : TaskPc
  taskHandle : Bool
  stoppedBit : Bool
  isOpen : Bool
  cleanSession : Bool
  isV5 : Bool
  connection : Connection
  outbox : Outbox
  connections : ℕ
  calls : ℕ
  origin : Provenance
  behind : ℤ
  inCutError : Bool
  inFirstChunk : Bool
  wire : List Chunk
  marks : List Mark

namespace World

def core (w : World) : Core where
  state := w.state
  pc := w.pc
  taskHandle := w.taskHandle
  stoppedBit := w.stoppedBit
  isOpen := w.transport.isOpen
  cleanSession := w.information.cleanSession
  isV5 := w.isV5
  connection := w.connection
  outbox := w.outbox
  connections := w.connections
  calls := w.calls
  origin := w.origin
  behind := w.behind
  inCutError := w.inCutError
  inFirstChunk := w.inFirstChunk
  wire := w.wire
  marks := w.marks

@[simp] theorem core_tick (w : World) : w.tick.2.core = w.core := by
  obtain ⟨n,l,h⟩ := w.tick_eq
  rw [h]
  rfl

@[simp] theorem core_askMqtt5 (w : World) : w.askMqtt5.2.core = w.core := by
  obtain ⟨a,l,h⟩ := w.askMqtt5_eq
  rw [h]
  rfl

@[simp] theorem core_hasTimedOut (w : World) (lastTick timeout : ℕ) :
    (w.hasTimedOut lastTick timeout).2.core = w.core := w.core_tick

@[simp] theorem core_publishParts (w : World) : w.publishParts.2.core = w.core := by
  unfold publishParts
  split
  · exact w.core_askMqtt5
  · split
    · rfl
    · dsimp only
      split <;> rfl

end World

/-- Reads leave the transport open or closed as it was. -/
@[simp] theorem espTransportRead_isOpen (t : Transport) (n : ℕ) :
    (espTransportRead t n).2.isOpen = t.isOpen := by
  unfold espTransportRead
  split
  · split
    · rfl
    · rfl
    · rfl
    · rfl
    · dsimp only
      split <;> rfl
  · rfl

/-! None of the stages of `mqtt_message_receive` opens or closes the transport. -/

theorem receiveFirstByte_isOpen (t : Transport) (s : RxState) :
    (receiveFirstByte t s).2.1.isOpen = t.isOpen := by
  unfold receiveFirstByte
  split
  · have h := espTransportRead_isOpen t 1
    generalize espTransportRead t 1 = r at h ⊢
    obtain ⟨res,t'⟩ := r
    cases res with
    | bytes bs =>
      dsimp only
      split <;> exact h
    | timeout => exact h
    | fin => exact h
    | error => exact h
  · rfl

theorem remainingLengthLoop_isOpen (k : ℕ) (t : Transport) (s : RxState) :
    (remainingLengthLoop k t s).2.1.isOpen = t.isOpen := by
  induction k generalizing t s with
  | zero => rfl
  | succ k ih =>
    unfold remainingLengthLoop
    have h := espTransportRead_isOpen t 1
    generalize espTransportRead t 1 = r at h ⊢
    obtain ⟨res,t'⟩ := r
    cases res with
    | bytes bs =>
      dsimp only
      split
      · exact (ih t' _).trans h
      · exact h
    | timeout => exact h
    | fin => exact h
    | error => exact h

theorem receiveUpTo_isOpen (totalLen : ℕ) (t : Transport) (s : RxState) :
    (receiveUpTo totalLen t s).2.1.isOpen = t.isOpen := by
  unfold receiveUpTo
  split
  · have h := espTransportRead_isOpen t (totalLen-s.inBufferReadLen)
    generalize espTransportRead t (totalLen-s.inBufferReadLen) = r at h ⊢
    obtain ⟨res,t'⟩ := r
    cases res with
    | bytes bs =>
      dsimp only
      split <;> exact h
    | timeout => exact h
    | fin => exact h
    | error => exact h
  · rfl

theorem receiveTopicLength_isOpen (n : ℕ) (t : Transport) (s : RxState) :
    (receiveTopicLength n t s).2.1.isOpen = t.isOpen := by
  unfold receiveTopicLength
  split
  · have h := espTransportRead_isOpen t (s.inBufferReadLen-n+2)
    generalize espTransportRead t (s.inBufferReadLen-n+2) = r at h ⊢
    obtain ⟨res,t'⟩ := r
    cases res with
    | bytes bs =>
      dsimp only
      split <;> exact h
    | timeout => exact h
    | fin => exact h
    | error => exact h
  · rfl

theorem receiveRest_isOpen (t : Transport) (s : RxState) :
    (receiveRest t s).2.1.isOpen = t.isOpen := by
  unfold receiveRest
  dsimp only
  split
  · split
    · unfold receiveOversized
      generalize hr : receiveTopicLength _ t _ = r
      have h := hr ▸ receiveTopicLength_isOpen _ t _
      obtain ⟨res,t',s'⟩ := r
      cases res with
      | some r => exact h
      | none =>
        have hup := (receiveUpTo_isOpen s'.inBufferLength t' s').trans h
        dsimp only
        split_ifs <;> first | exact h | exact hup
    · rfl
  · exact receiveUpTo_isOpen _ t _

@[simp] theorem mqttMessageReceive_isOpen (t : Transport) (s : RxState) :
    (mqttMessageReceive t s).2.1.isOpen = t.isOpen := by
  unfold mqttMessageReceive
  have h := receiveFirstByte_isOpen t {s with messageLength := 0}
  generalize receiveFirstByte t {s with messageLength := 0} = r at h ⊢
  obtain ⟨res,t1,s1⟩ := r
  cases res with
  | some r => exact h
  | none =>
    have h' : (receiveRemainingLength t1 s1).2.1.isOpen = t1.isOpen := by
      unfold receiveRemainingLength
      split
      · exact remainingLengthLoop_isOpen 6 t1 s1
      · rfl
    dsimp only
    generalize receiveRemainingLength t1 s1 = r at h' ⊢
    obtain ⟨res,t2,s2⟩ := r
    cases res with
    | some r => exact h'.trans h
    | none => exact ((receiveRest_isOpen t2 s2).trans h').trans h

/-! Writes: how much of the outbound message the transport takes. -/

theorem espTransportWrite_wrote {t t' : Transport} {len n : ℕ}
    (h : espTransportWrite t len = (.wrote n, t')) (hl : len ≠ 0) : 1 ≤ n ∧ n ≤ len := by
  unfold espTransportWrite at h
  split at h
  · split at h
    · simp only [Prod.mk.injEq, WriteResult.wrote.injEq] at h
      omega
    · simp at h
    · simp at h
    · simp only [Prod.mk.injEq, WriteResult.wrote.injEq] at h
      omega
  · simp at h

theorem writeLoop_ok (k : ℕ) (t : Transport) (len : ℕ) (hk : len ≤ k)
    (h : (writeLoop k t len).1 = .ok) : (writeLoop k t len).2.1 = len := by
  induction k generalizing t len with
  | zero => exact (Nat.le_zero.mp hk).symm
  | succ k ih =>
    unfold writeLoop at h ⊢
    by_cases hz : len = 0
    · rw [if_pos hz, hz]
    · rw [if_neg hz] at h ⊢
      generalize hw : espTransportWrite t len = r at h
      obtain ⟨res,t'⟩ := r
      cases res with
      | timeout => simp at h
      | error => simp at h
      | wrote n =>
        obtain ⟨h1,h2⟩ := espTransportWrite_wrote hw hz
        have := ih t' (len-n) (by omega) h
        dsimp only
        omega

/-- A write that fails leaves part of the message. -/
theorem writeLoop_short (k : ℕ) (t : Transport) (len : ℕ) (h : (writeLoop k t len).1 ≠ .ok) :
    (writeLoop k t len).2.1 < len := by
  induction k generalizing t len with
  | zero => exact absurd rfl h
  | succ k ih =>
    unfold writeLoop at h ⊢
    by_cases hz : len = 0
    · rw [if_pos hz] at h
      exact absurd rfl h
    · rw [if_neg hz] at h ⊢
      generalize hw : espTransportWrite t len = r at h
      obtain ⟨res,t'⟩ := r
      cases res with
      | timeout => exact Nat.pos_of_ne_zero hz
      | error => exact Nat.pos_of_ne_zero hz
      | wrote n =>
        obtain ⟨h1,h2⟩ := espTransportWrite_wrote hw hz
        have := ih t' (len-n) h
        dsimp only
        omega

theorem espTransportWrite_isOpen (t : Transport) (len : ℕ) :
    (espTransportWrite t len).2.isOpen = t.isOpen := by
  unfold espTransportWrite
  split
  · split <;> rfl
  · rfl

theorem writeLoop_isOpen (k : ℕ) (t : Transport) (len : ℕ) :
    (writeLoop k t len).2.2.isOpen = t.isOpen := by
  induction k generalizing t len with
  | zero => rfl
  | succ k ih =>
    unfold writeLoop
    split
    · rfl
    · have h := espTransportWrite_isOpen t len
      generalize espTransportWrite t len = r at h ⊢
      obtain ⟨res,t'⟩ := r
      cases res with
      | timeout => exact h
      | error => exact h
      | wrote n => exact (ih t' (len-n)).trans h

/-- Nothing goes out through a closed transport. -/
theorem writeLoop_closed (k : ℕ) (t : Transport) (len : ℕ) (h : t.isOpen = false) :
    (writeLoop k t len).2.1 = 0 := by
  cases k with
  | zero => rfl
  | succ k =>
    unfold writeLoop
    split
    · rfl
    · simp [espTransportWrite, h]

/-- `o'` holds packets of `o` only, at most marked as duplicates. -/
def Outbox.Below (o' o : Outbox) : Prop :=
  ∀ x ∈ o'.list, ∃ y ∈ o.list, x.origin = y.origin ∧ x.msgType = y.msgType ∧
    (x.buffer = y.buffer ∨ x.buffer = mqttSetDup y.buffer)

namespace Outbox

theorem Below.refl (o : Outbox) : o.Below o := fun x hx => ⟨x, hx, rfl, rfl, Or.inl rfl⟩

theorem below_of_subset {o' o : Outbox} (h : o'.list ⊆ o.list) : o'.Below o :=
  fun x hx => ⟨x, h hx, rfl, rfl, Or.inl rfl⟩

theorem removeFirst_below (o : Outbox) (p : OutboxItem → Bool) : (o.removeFirst p).2.Below o := by
  unfold removeFirst
  split
  · exact below_of_subset (List.eraseP_subset)
  · exact Below.refl o

theorem removeAll_below (o : Outbox) (p : OutboxItem → Bool) : (o.removeAll p).Below o :=
  below_of_subset (fun _ hx => List.mem_of_mem_filter hx)

/-- The items behind a change of the first match. -/
theorem mem_modifyFirst {o : Outbox} {p : OutboxItem → Bool} {f : OutboxItem → OutboxItem}
    {x : OutboxItem} (h : x ∈ (o.modifyFirst p f).list) : x ∈ o.list ∨ ∃ y ∈ o.list, x = f y := by
  have hgo (l : List OutboxItem) (h : x ∈ modifyFirst.go p f l) :
      x ∈ l ∨ ∃ y ∈ l, x = f y := by
    induction l with
    | nil => exact Or.inl h
    | cons y l ih =>
      unfold modifyFirst.go at h
      split at h
      · rcases List.mem_cons.mp h with rfl | hx
        · exact Or.inr ⟨y, List.mem_cons_self, rfl⟩
        · exact Or.inl (List.mem_cons_of_mem _ hx)
      · rcases List.mem_cons.mp h with rfl | hx
        · exact Or.inl List.mem_cons_self
        · rcases ih hx with hx | ⟨z,hz,rfl⟩
          · exact Or.inl (List.mem_cons_of_mem _ hx)
          · exact Or.inr ⟨z, List.mem_cons_of_mem _ hz, rfl⟩
  exact hgo o.list h

/-- A stored packet without its state and time. -/
def stamp (x : OutboxItem) : OutboxItem := {x with tick := 0, pending := .queued}

/-- `o'` is `o` with other states and times. -/
def Touched (o' o : Outbox) : Prop := o'.list.map stamp = o.list.map stamp

theorem Touched.mem {o' o : Outbox} (h : o'.Touched o) {x : OutboxItem} (hx : x ∈ o'.list) :
    ∃ y ∈ o.list, stamp y = stamp x := by
  have hm : stamp x ∈ o.list.map stamp := h ▸ List.mem_map_of_mem hx
  exact List.mem_map.mp hm

theorem Touched.below {o' o : Outbox} (h : o'.Touched o) : o'.Below o := by
  intro x hx
  obtain ⟨y,hy,he⟩ := h.mem hx
  exact ⟨y, hy, (congrArg OutboxItem.origin he).symm, (congrArg OutboxItem.msgType he).symm,
    Or.inl (congrArg OutboxItem.buffer he).symm⟩

theorem modifyFirst_touched (o : Outbox) (p : OutboxItem → Bool) (f : OutboxItem → OutboxItem)
    (hf : ∀ x, stamp (f x) = stamp x) : (o.modifyFirst p f).Touched o := by
  have hgo (l : List OutboxItem) : (modifyFirst.go p f l).map stamp = l.map stamp := by
    induction l with
    | nil => rfl
    | cons x l ih =>
      unfold modifyFirst.go
      split
      · rw [List.map_cons, List.map_cons, hf]
      · rw [List.map_cons, List.map_cons, ih]
  exact hgo o.list

theorem setPending_touched (o : Outbox) (msgId : ℕ) (pending : PendingState) :
    (o.setPending msgId pending).Touched o := modifyFirst_touched o _ _ fun _ => rfl

theorem setTick_touched (o : Outbox) (msgId tick : ℕ) : (o.setTick msgId tick).Touched o :=
  modifyFirst_touched o _ _ fun _ => rfl

theorem setDup_below (o : Outbox) (handle : ℕ) : (o.setDup handle).Below o := by
  intro x hx
  rcases mem_modifyFirst hx with hx | ⟨y,hy,rfl⟩
  · exact ⟨x, hx, rfl, rfl, Or.inl rfl⟩
  · exact ⟨y, hy, rfl, rfl, Or.inr rfl⟩

end Outbox

/-- The packets the client composes without a call that asks for them. -/
inductive Control : MsgType → (Connection → Connection) → Prop where
  | connect (i : ConnectInfo) : Control .connect (mqttMsgConnect · i)
  | puback (id : ℕ) : Control .puback (mqttMsgPuback · id)
  | pubrec (id : ℕ) : Control .pubrec (mqttMsgPubrec · id)
  | pubrel (id : ℕ) : Control .pubrel (mqttMsgPubrel · id)
  | pubcomp (id : ℕ) : Control .pubcomp (mqttMsgPubcomp · id)
  | pingreq : Control .pingreq mqttMsgPingreq
  | disconnect : Control .disconnect mqttMsgDisconnect

/-- The calls that compose a request of their own, with their write and encoder. -/
inductive Request : ApiCall → Site → MsgType → (Connection → ℕ × Connection) → Prop where
  | subscribe (topics : List (List UInt8 × ℕ)) :
      Request (.subscribe topics) .subscribe .subscribe (mqttMsgSubscribe · topics)
  | unsubscribe (topic : Option (List UInt8)) :
      Request (.unsubscribe topic) .unsubscribe .unsubscribe (mqttMsgUnsubscribe · topic)

theorem Control.composed {type : MsgType} {build : Connection → Connection} (h : Control type build)
    (c : Connection) : Composed type (build c) := by
  cases h with
  | connect i => exact composed_mqttMsgConnect c i
  | puback id => exact composed_finiOrFail .puback _ 0 _
  | pubrec id => exact composed_finiOrFail .pubrec _ 0 _
  | pubrel id => exact composed_finiOrFail .pubrel _ 1 _
  | pubcomp id => exact composed_finiOrFail .pubcomp _ 0 _
  | pingreq => exact composed_finiMessage .pingreq c 0 0 0 []
  | disconnect => exact composed_finiMessage .disconnect c 0 0 0 []

theorem Request.composed {c : ApiCall} {s : Site} {type : MsgType}
    {build : Connection → ℕ × Connection} (h : Request c s type build) (k : Connection) :
    Composed type (build k).2 := by
  cases h with
  | subscribe topics => exact composed_finiOrFail .subscribe _ 1 _
  | unsubscribe topic => exact composed_mqttMsgUnsubscribe k topic

/-- The writes whose failure nobody looks at, or that do not abort the connection. -/
def Site.ignoresFailure : Site → Bool
  | .pubrel | .pubcomp | .subscribe | .unsubscribe => true
  | _ => false

namespace World

/-- The outbox behind an abort: a clean session drops its requests. -/
def sessionOutbox (w : World) : Outbox :=
  if w.information.cleanSession then
    (w.outbox.deleteMessageType .subscribe).deleteMessageType .unsubscribe
  else w.outbox

end World

namespace World

/-- What `make_publish` leaves: a composed or failed outbound message. -/
theorem makePublish_eq (w : World) (topic : Option (List UInt8)) (d : CData) (len : ℤ)
    (qos retain : ℕ) :
    (w.makePublish topic d len qos retain).2 =
      if w.isV5 then (w.composeNumbered .publish qos retain).2.publishing d.isNull len
      else {w with connection := (mqttMsgPublish w.connection topic d len qos retain).2}.publishing
        d.isNull len := by
  unfold makePublish
  by_cases hv : w.isV5 = true
  · simp only [if_pos hv]
    split <;> rfl
  · simp only [if_neg hv]
    split <;> rfl

theorem makePublish_core (w : World) (topic : Option (List UInt8)) (d : CData) (len : ℤ)
    (qos retain : ℕ) :
    ∃ c, (w.makePublish topic d len qos retain).2.core =
      {w.core with
        connection := c, origin := ⟨w.calls, w.connections, d.isNull⟩
        behind := len-c.outboundMessage.dataSent} := by
  rw [makePublish_eq]
  split
  · obtain ⟨a,l,h⟩ := w.askMqtt5_eq
    unfold composeNumbered composeMqtt5
    rw [h]
    exact ⟨_, rfl⟩
  · exact ⟨_, rfl⟩

/-- The outbox with the outbound message and `rest` behind it at its end. -/
def Appended (w : World) (rest : List UInt8) (o : Outbox) : Prop :=
  ∃ handle msgId msgQos tick pending, o.list = w.outbox.list ++
    [⟨handle, w.connection.outboundMessage.data ++ rest, msgId, w.outboundType, msgQos, tick, pending,
      w.origin⟩]

/-- `make_publish` reports an error just when it has composed nothing. -/
theorem makePublish_none_iff (w : World) (topic : Option (List UInt8)) (d : CData) (len : ℤ)
    (qos retain : ℕ) : (w.makePublish topic d len qos retain).1 = none ↔
      (w.makePublish topic d len qos retain).2.nothingComposed = true := by
  unfold makePublish
  dsimp only
  generalize World.publishing _ _ _ = u
  split
  · rename_i hnone
    exact ⟨fun _ => hnone, fun _ => rfl⟩
  · rename_i hnone
    exact ⟨fun h => absurd h (by simp), fun h => absurd h hnone⟩

theorem makePublish_behind (w : World) (topic : Option (List UInt8)) (d : CData) (len : ℤ)
    (qos retain : ℕ) : (w.makePublish topic d len qos retain).2.behind =
      len-(w.makePublish topic d len qos retain).2.dataSent := by
  rw [makePublish_eq]
  split <;> rfl

/-- How `mqtt_client_enqueue_publish` ends: nothing composed, composed and not
stored, no memory to store it, or stored. -/
theorem enqueuePublish_cases (w : World) (topic : Option (List UInt8)) (d : CData) (len : ℤ)
    (qos retain : ℕ) (store : Bool) (r : Option ℕ × World)
    (hr : w.mqttClientEnqueuePublish topic d len qos retain store = r) (v : World)
    (hv : (w.makePublish topic d len qos retain).2 = v) :
    (r.1 = none ∧ v.nothingComposed = true ∧ r.2.core = v.core) ∨
    (r.1.isSome ∧ v.nothingComposed = false ∧ qos = 0 ∧ store = false ∧ r.2.core = v.core) ∨
    (r.1 = none ∧ v.nothingComposed = false ∧ (0 < qos ∨ store) ∧
      v.connection.outboundMessage.fragmentedMsgTotalLength = 0 ∧ r.2.core = v.core) ∨
    (r.1 = none ∧ v.nothingComposed = false ∧ (0 < qos ∨ store) ∧
      v.connection.outboundMessage.fragmentedMsgTotalLength ≠ 0 ∧
      r.2.core = {v with marks := .fragmentNotStored :: v.marks}.core) ∨
    (r.1.isSome ∧ v.nothingComposed = false ∧ (0 < qos ∨ store) ∧ ∃ rest o, v.Appended rest o ∧
      rest.length =
        (if v.connection.outboundMessage.fragmentedMsgTotalLength = 0 then 0 else v.behind.toNat) ∧
      r.2.core = ({v with outbox := o}.setTotalLength 0).core) := by
  unfold mqttClientEnqueuePublish at hr
  have hmake := w.makePublish_none_iff topic d len qos retain
  have hbehind := w.makePublish_behind topic d len qos retain
  rw [hv] at hmake
  generalize w.makePublish topic d len qos retain = m at hr hv hmake hbehind
  obtain ⟨id,u⟩ := m
  dsimp only at hv
  subst hv
  cases id with
  | none =>
    subst hr
    exact Or.inl ⟨rfl, hmake.mp rfl, rfl⟩
  | some id =>
    have hne : u.nothingComposed = false := by
      rw [← Bool.not_eq_true]
      exact fun h => absurd (hmake.mpr h) (by simp)
    dsimp only at hr
    -- to be stored: as one piece, or with the rest of a payload too long for the buffer
    split at hr
    · rename_i hstore
      split at hr
      · rename_i hfrag
        obtain ⟨ok,n,t,a,o,l,heq,hno,hyes⟩ := World.mqttEnqueue_eq {u with
          pendingMsgType := u.outboundType, pendingMsgId := id, pendingPublishQos := qos} []
        rw [heq] at hr
        subst hr
        cases ok with
        | false =>
          rw [(hno rfl).1]
          exact Or.inr (Or.inr (Or.inl ⟨rfl, hne, hstore, hfrag, rfl⟩))
        | true =>
          obtain ⟨x,rfl,ho,-⟩ := hyes rfl
          refine Or.inr (Or.inr (Or.inr (Or.inr ⟨rfl, hne, hstore, [], o,
            ⟨_, _, _, _, _, congrArg Outbox.list ho⟩, (if_pos hfrag).symm, ?_⟩)))
          -- the length is reset in both branches; here it was 0 already
          have hzero : (u.setTotalLength 0).connection = u.connection := by
            change {u.connection with outboundMessage := {u.connection.outboundMessage with
              fragmentedMsgTotalLength := 0}} = u.connection
            rw [← hfrag]
          change _ = {u.core with outbox := o, connection := (u.setTotalLength 0).connection}
          rw [hzero]
          rfl
      · rename_i hfrag
        generalize hrest : d.slice _ _ = rest at hr
        have hlength : rest.length = u.behind.toNat := by
          rw [← hrest, CData.slice_length, hbehind]
          rfl
        obtain ⟨ok,n,t,a,o,l,heq,hno,hyes⟩ := World.mqttEnqueue_eq {u with
          pendingMsgType := u.outboundType, pendingMsgId := id, pendingPublishQos := qos} rest
        rw [heq] at hr
        subst hr
        cases ok with
        | false =>
          rw [(hno rfl).1]
          exact Or.inr (Or.inr (Or.inr (Or.inl ⟨rfl, hne, hstore, hfrag, rfl⟩)))
        | true =>
          obtain ⟨x,rfl,ho,-⟩ := hyes rfl
          exact Or.inr (Or.inr (Or.inr (Or.inr ⟨rfl, hne, hstore, rest, o,
            ⟨_, _, _, _, _, congrArg Outbox.list ho⟩, hlength.trans (if_neg hfrag).symm, rfl⟩)))
    · rename_i hstore
      subst hr
      rw [not_or] at hstore
      exact Or.inr (Or.inl ⟨rfl, hne, by omega, by simpa using hstore.2, rfl⟩)

/-- Composing and storing a PUBLISH touches the outbound message, the outbox and
the history, and nothing else. -/
theorem mqttClientEnqueuePublish_core (w : World) (topic : Option (List UInt8)) (d : CData) (len : ℤ)
    (qos retain : ℕ) (store : Bool) :
    ∃ c o ms b, (w.mqttClientEnqueuePublish topic d len qos retain store).2.core =
        {w.core with
          connection := c, outbox := o, marks := ms, behind := b
          origin := ⟨w.calls, w.connections, d.isNull⟩} ∧
      (ms = w.marks ∨ ms = .fragmentNotStored :: w.marks) := by
  obtain ⟨c,hc⟩ := w.makePublish_core topic d len qos retain
  rcases enqueuePublish_cases w topic d len qos retain store _ rfl _ rfl with
    ⟨-,-,h⟩ | ⟨-,-,-,-,h⟩ | ⟨-,-,-,-,h⟩ | ⟨-,-,-,-,h⟩ | ⟨-,-,-,rest,o,-,-,h⟩
  · exact ⟨c, w.outbox, w.marks, _, h.trans hc, Or.inl rfl⟩
  · exact ⟨c, w.outbox, w.marks, _, h.trans hc, Or.inl rfl⟩
  · exact ⟨c, w.outbox, w.marks, _, h.trans hc, Or.inl rfl⟩
  · refine ⟨c, w.outbox, _, len-c.outboundMessage.dataSent, h.trans ?_, Or.inr rfl⟩
    generalize (w.makePublish topic d len qos retain).2 = v at hc
    change {v.core with marks := .fragmentNotStored :: v.core.marks} = _
    rw [hc]
    rfl
  · refine ⟨{c with outboundMessage := {c.outboundMessage with fragmentedMsgTotalLength := 0}}, o,
      w.marks, len-c.outboundMessage.dataSent, h.trans ?_, Or.inl rfl⟩
    generalize (w.makePublish topic d len qos retain).2 = v at hc
    change {v.core with outbox := o, connection := {v.core.connection with outboundMessage :=
      {v.core.connection.outboundMessage with fragmentedMsgTotalLength := 0}}} = _
    rw [hc]
    rfl

/-- A v5 packet in the outbound message: nothing, or something behind its type byte. -/
theorem composeMqtt5_core (w : World) (type : MsgType) (qos retain : ℕ) :
    ∃ m : OutMessage, (w.composeMqtt5 type qos retain).2.core =
        {w.core with connection := {w.connection with outboundMessage := m}} ∧
      (m.data = [] ∨ ∃ rest, m.data = headerByte type 0 qos retain :: rest) := by
  obtain ⟨a,l,h⟩ := w.askMqtt5_eq
  unfold composeMqtt5
  rw [h]
  refine ⟨_, rfl, ?_⟩
  cases a.encoded with
  | none => exact Or.inl rfl
  | some rest => exact Or.inr ⟨rest, rfl⟩

/-- The same packet with an identifier drawn for it. -/
theorem composeNumbered_core (w : World) (type : MsgType) (qos retain : ℕ) :
    ∃ c : Connection, (w.composeNumbered type qos retain).2.core = {w.core with connection := c} ∧
      (c.outboundMessage.data = [] ∨
        ∃ rest, c.outboundMessage.data = headerByte type 0 qos retain :: rest) := by
  obtain ⟨m,hm,hdata⟩ := w.composeMqtt5_core type qos retain
  unfold composeNumbered
  generalize w.composeMqtt5 type qos retain = r at hm ⊢
  have hkept (n : ℕ) : (r.2.connection.messageId n).2.outboundMessage = m := by
    rw [show r.2.connection = {w.connection with outboundMessage := m} from congrArg Core.connection hm]
    unfold Connection.messageId
    split
    · rfl
    · split <;> rfl
  dsimp only
  split
  · refine ⟨(r.2.connection.messageId 0).2, ?_, by rw [hkept]; exact hdata⟩
    change {r.2.core with connection := (r.2.connection.messageId 0).2} = _
    rw [hm]
  · exact ⟨_, hm, hdata⟩

theorem composeRequest_core (w : World) (type : MsgType) (seen : ℕ)
    (build : Connection → ℕ × Connection) :
    ∃ c, (w.composeRequest type seen build).core =
        {w.core with connection := c, origin := ⟨w.calls, seen, true⟩} ∧
      (w.isV5 = false → c = (build w.connection).2) ∧
      (w.isV5 = true → c.outboundMessage.data = [] ∨
        ∃ rest, c.outboundMessage.data = headerByte type 0 1 0 :: rest) := by
  unfold composeRequest
  by_cases hv : w.isV5 = true
  · obtain ⟨c,hm,hdata⟩ := w.composeNumbered_core type 1 0
    simp only [if_pos hv]
    generalize w.composeNumbered type 1 0 = r at hm
    refine ⟨c, ?_, fun hf => absurd (hv.symm.trans hf) (by decide), fun _ => hdata⟩
    change {r.2.core with origin := ⟨r.2.core.calls, seen, true⟩} = _
    rw [hm]
    rfl
  · simp only [if_neg hv]
    exact ⟨_, rfl, fun _ => rfl, fun ht => absurd ht hv⟩

theorem espMqttClientEnqueue_core (w : World) (topic : Option (List UInt8)) (d : CData) (len : ℤ)
    (qos retain : ℕ) (store : Bool) :
    (espMqttClientEnqueue topic d len qos retain store w).2.core = w.core ∨
    (espMqttClientEnqueue topic d len qos retain store w).2 =
      (w.mqttClientEnqueuePublish topic d (effectiveLen d len) qos retain store).2 := by
  unfold espMqttClientEnqueue
  split
  · exact Or.inl rfl
  · right
    generalize w.mqttClientEnqueuePublish topic d (effectiveLen d len) qos retain store = r
    obtain ⟨id,v⟩ := r
    cases id <;> rfl

theorem makePublish_composed (w : World) (topic : Option (List UInt8)) (d : CData) (len : ℤ)
    (qos retain : ℕ) : Composed .publish (w.makePublish topic d len qos retain).2.connection := by
  rw [makePublish_eq]
  split
  · obtain ⟨c,hm,hdata⟩ := w.composeNumbered_core .publish qos retain
    have hc : ((w.composeNumbered .publish qos retain).2.publishing d.isNull len).connection =
        c := congrArg Core.connection hm
    rw [hc]
    rcases hdata with hnil | ⟨rest,hcons⟩
    · exact Or.inl hnil
    · exact Composed.of_headerByte hcons
  · exact composed_mqttMsgPublish w.connection topic d len qos retain

theorem composeRequest_composed {c : ApiCall} {s : Site} {type : MsgType}
    {build : Connection → ℕ × Connection} (h : Request c s type build) (w : World) (seen : ℕ) :
    Composed type (w.composeRequest type seen build).connection := by
  obtain ⟨e,he,hold,hnew⟩ := w.composeRequest_core type seen build
  have hc : (w.composeRequest type seen build).connection = e := congrArg Core.connection he
  rw [hc]
  by_cases hv : w.isV5 = true
  · rcases hnew hv with hnil | ⟨rest,hcons⟩
    · exact Or.inl hnil
    · exact Composed.of_headerByte hcons
  · rw [hold (by simpa using hv)]
    exact h.composed w.connection

end World

end EspMqtt
