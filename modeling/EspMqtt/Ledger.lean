import EspMqtt.ClientCore
import Mathlib.Logic.Relation

/-! The books of the client: what it stores, sends, reports and counts. Every
operation is a sequence of a few kinds of entries, so what every entry preserves
holds along every run. -/
namespace EspMqtt
open Relation

/-- The settings a call brings. -/
def Mark.settings : Mark → Option Settings
  | .body (.setConfig s) .. => some s
  | _ => none

/-- The part of the client that keeps account of its messages. -/
structure Ledger where
  state : MqttState
  isOpen : Bool
  isV5 : Bool
  reportDeleted : Bool
  cleanSession : Bool
  outbox : Outbox
  sendPublishPacketCount : ℕ
  receiveMaximum : ℕ
  calls : ℕ
  origin : Provenance
  wire : List Chunk
  events : List MqttEvent
  stored : List (OutboxItem × List ℕ)
  gone : List Departure
  traffic : List Traffic
  emptySubacks : ℕ
  strayAcks : ℕ
  configured : List Settings

def World.ledger (w : World) : Ledger where
  state := w.state
  isOpen := w.transport.isOpen
  isV5 := w.isV5
  reportDeleted := w.config.reportDeletedMessages
  cleanSession := w.information.cleanSession
  outbox := w.outbox
  sendPublishPacketCount := w.sendPublishPacketCount
  receiveMaximum := w.receiveMaximum
  calls := w.calls
  origin := w.origin
  wire := w.wire
  events := w.events
  stored := w.stored
  gone := w.gone
  traffic := w.traffic
  emptySubacks := w.emptySubacks
  strayAcks := w.strayAcks
  configured := w.marks.filterMap Mark.settings

/-- An item is still there behind a change of the first match, or in its changed form. -/
theorem Outbox.modifyFirst_mem {o : Outbox} {p : OutboxItem → Bool} {f : OutboxItem → OutboxItem}
    {x : OutboxItem} (h : x ∈ o.list) :
    x ∈ (o.modifyFirst p f).list ∨ f x ∈ (o.modifyFirst p f).list := by
  have hgo (l : List OutboxItem) (h : x ∈ l) :
      x ∈ modifyFirst.go p f l ∨ f x ∈ modifyFirst.go p f l := by
    induction l with
    | nil => exact absurd h List.not_mem_nil
    | cons y l ih =>
      unfold modifyFirst.go
      rcases List.mem_cons.mp h with rfl | hx
      · split
        · exact Or.inr List.mem_cons_self
        · exact Or.inl List.mem_cons_self
      · split
        · exact Or.inl (List.mem_cons_of_mem _ hx)
        · exact (ih hx).imp (List.mem_cons_of_mem _) (List.mem_cons_of_mem _)
  exact hgo o.list h

theorem mqttSetDup_twice (bs : List UInt8) : mqttSetDup (mqttSetDup bs) = mqttSetDup bs := by
  cases bs with
  | nil => rfl
  | cons b bs =>
    change (b ||| 8 ||| 8) :: bs = (b ||| 8) :: bs
    rw [UInt8.or_assoc, UInt8.or_self]

/-- A QoS 1 or 2 PUBLISH that was sent before. -/
def OutboxItem.isRepeat (x : OutboxItem) : Bool :=
  x.msgType == some .publish && decide (0 < x.msgQos) && x.pending == .transmitted

namespace Ledger

/-- A smaller outbox: what is missing in it has left. -/
def depart (L : Ledger) (reason : Removal) (o : Outbox) : Ledger :=
  {L with
    outbox := o
    gone := ((L.outbox.list.filter fun x => !o.list.any fun y => y.handle == x.handle).map
      (⟨·, reason, if L.state = .connected then unacked L.traffic else []⟩)) ++ L.gone}

def raise (L : Ledger) (e : MqttEvent) : Ledger := {L with events := e :: L.events}

def note (L : Ledger) (t : Traffic) : Ledger := {L with traffic := t :: L.traffic}

/-- The session behind an abort. -/
def aborted (L : Ledger) : Ledger :=
  {L.depart .cleared (if L.cleanSession then
      (L.outbox.deleteMessageType .subscribe).deleteMessageType .unsubscribe else L.outbox) with
    state := .waitReconnect
    isOpen := false}

/-- One more packet at the end of the outbox. -/
def store (L : Ledger) (x : OutboxItem) : Ledger :=
  {L with
    calls := L.calls+1
    origin := x.origin
    outbox := ⟨L.outbox.size+x.buffer.length, L.outbox.list ++ [x], L.outbox.nextHandle+1⟩
    stored := (x, L.outbox.idsInUse) :: L.stored}

/-- A QoS 1 or 2 PUBLISH is out, for the first time on this connection. -/
def publishSent (L : Ledger) (x : OutboxItem) (tick : ℕ) : Ledger :=
  {L with
    outbox := (L.outbox.setTick x.msgId tick).setPending x.msgId .transmitted
    sendPublishPacketCount :=
      if L.isV5 then L.sendPublishPacketCount+1 else L.sendPublishPacketCount
    traffic := .sent x.origin.call x.msgId :: L.traffic}

/-- A packet that is removed is counted when the event of its acknowledgement names another one. -/
def strayed (L : Ledger) (x : OutboxItem) (e : MqttEvent) : ℕ :=
  if e.msgId = x.msgId then L.strayAcks else L.strayAcks+1

/-- The send quota of a v5 client is not used up. -/
def HasQuota (L : Ledger) : Prop := L.isV5 = true → L.sendPublishPacketCount < L.receiveMaximum

/-- A packet that a call stores: the next address, made by the call that begins. -/
structure Fresh (L : Ledger) (x : OutboxItem) : Prop where
  handle : x.handle = L.outbox.nextHandle
  call : x.origin.call = L.calls+1
  pending : x.pending = .queued
  buffer : x.buffer ≠ []

/-- What the worker gives to `esp_mqtt_write` when it resends: a packet that no PUBREC has
come for, and that is in the outbox with its DUP bit set if it is to be. -/
def Resends (L : Ledger) (c : Chunk) : Prop :=
  ∃ x ∈ L.outbox.list, (x.pending = .queued ∨ x.pending = .transmitted) ∧ c.origin = x.origin ∧
    c.data = if x.isRepeat then mqttSetDup x.buffer else x.buffer

/-- The connection is up, or it has been aborted since. -/
def Up (L : Ledger) : Prop := L.state = .connected ∨ L.state = .waitReconnect

/-- What a call of the API does to the books, from one event to the next. -/
inductive ApiMove : Ledger → Ledger → Prop where
  | event {L} (e : MqttEvent) (he : e.id = .error ∨ e.id = .disconnected) : ApiMove L (L.raise e)
  | write {L} (c : Chunk) (hn : c.notes = L.traffic.length) (hc : c.site = .resend → L.Resends c) :
      ApiMove L {L with wire := c :: L.wire}
  | abort {L} (h : L.Up) : ApiMove L L.aborted
  | call {L} (o : Provenance) : ApiMove L {L with calls := L.calls+1, origin := o}
  | setConfig {L} (s : Settings) : ApiMove L {L with
      calls := L.calls+1
      configured := s :: L.configured
      isV5 := s.information.protocolVer == .v5
      reportDeleted := s.config.reportDeletedMessages
      cleanSession := s.information.cleanSession}
  /-- A PUBLISH is stored. -/
  | publish {L} (x : OutboxItem) (hx : L.Fresh x) (ht : x.msgType = some .publish)
      (hid : x.msgId = 0 ↔ x.msgQos = 0) (hd : mqttGetDup (x.buffer.headD 0) = 0) :
      ApiMove L (L.store x)
  /-- A request is stored and, before it goes out, marked as sent. -/
  | request {L} (x : OutboxItem) (hx : L.Fresh x)
      (ht : x.msgType = some .subscribe ∨ x.msgType = some .unsubscribe) (hq : x.msgQos = 0)
      (hid : x.msgId ≠ 0) :
      ApiMove L {L.store x with outbox := (L.store x).outbox.setPending x.msgId .transmitted}
  | published {L} (x : OutboxItem) (tick : ℕ) (hx : x ∈ L.outbox.list) (hp : x.pending = .queued)
      (ht : x.msgType = some .publish) (hq : 0 < x.msgQos)
      (hs : L.state = .connected ∨ L.Up ∧ (x.buffer = [] ∨ L.isOpen = true))
      (hquota : L.HasQuota) : ApiMove L (L.publishSent x tick)

/-- What the worker does besides while it is connected. -/
inductive TaskMove : Ledger → Ledger → Prop where
  | api {L L'} (h : ApiMove L L') : TaskMove L L'
  | event {L} (e : MqttEvent) (he : e.id = .error ∨ e.id = .disconnected ∨ e.id = .connected ∨
      e.id = .data ∨ e.id = .other) : TaskMove L (L.raise e)
  | origin {L} (o : Provenance) : TaskMove L {L with origin := o}
  /-- A PUBACK or PUBCOMP finds its PUBLISH, and its event. -/
  | finished {L} (x : OutboxItem) (e : MqttEvent) (hs : L.state = .connected)
      (hx : L.outbox.list.find? (fun i => i.msgId == x.msgId && i.msgType == some .publish) = some x)
      (he : e.id = .published) : TaskMove L ({(L.depart (.acked .published)
        (L.outbox.delete x.msgId .publish).2).note (.acked x.msgId) with
        sendPublishPacketCount :=
          if L.isV5 then L.sendPublishPacketCount-1 else L.sendPublishPacketCount
        strayAcks := L.strayed x e}.raise e)
  | unknown {L} (msgId : ℕ) (hs : L.state = .connected)
      (hx : L.outbox.list.find? (fun i => i.msgId == msgId && i.msgType == some .publish) = none) :
      TaskMove L (L.note (.acked msgId))
  /-- A SUBACK or UNSUBACK finds its request, and its event. -/
  | answered {L} (type : MsgType) (x : OutboxItem) (e : MqttEvent)
      (ht : type = .subscribe ∨ type = .unsubscribe)
      (hx : L.outbox.list.find? (fun i => i.msgId == x.msgId && i.msgType == some type) = some x)
      (he : e.id = World.ackEvent type) : TaskMove L ({L.depart (.acked (World.ackEvent type))
        (L.outbox.delete x.msgId type).2 with strayAcks := L.strayed x e}.raise e)
  | unreported {L} (x : OutboxItem) (stray : ℕ)
      (hx : L.outbox.list.find? (fun i => i.msgId == x.msgId && i.msgType == some .subscribe) = some x) :
      TaskMove L {L.depart (.acked .subscribed) (L.outbox.delete x.msgId .subscribe).2 with
        emptySubacks := L.emptySubacks+1
        strayAcks := stray}
  | acknowledged {L} (msgId : ℕ) :
      TaskMove L {L with outbox := L.outbox.setPending msgId .acknowledged}
  | dup {L} (handle : ℕ) (hx : ∃ x ∈ L.outbox.list, x.handle = handle ∧ x.isRepeat = true) :
      TaskMove L {L with outbox := L.outbox.setDup handle}
  | expired {L} (p : OutboxItem → Bool) (x : OutboxItem) (e : MqttEvent)
      (hx : L.outbox.list.find? p = some x) (he : e.id = .deleted) (hid : e.msgId = x.msgId) :
      TaskMove L ((L.depart .expired (L.outbox.removeFirst p).2).raise e)
  | expiredAll {L} (p : OutboxItem → Bool) (hr : L.reportDeleted = false) :
      TaskMove L (L.depart .expired (L.outbox.removeAll p))
  /-- A QoS 0 message is out, and is not kept. -/
  | sentQos0 {L} (x : OutboxItem) (hx : x ∈ L.outbox.list) (ht : x.msgType = some .publish)
      (hq : x.msgQos = 0) (hw : ∃ c ∈ L.wire, c.data = x.buffer ∧ c.sent = c.data.length ∧
        c.origin = x.origin) : TaskMove L (L.depart .sent (L.outbox.deleteItem x.handle))
  | sentRequest {L} (x : OutboxItem) (tick : ℕ) (hx : x ∈ L.outbox.list)
      (ht : x.msgType ≠ some .publish) : TaskMove L {L with
        outbox := (L.outbox.setTick x.msgId tick).setPending x.msgId .transmitted}
  | resent {L} (x : OutboxItem) (hx : x ∈ L.outbox.list) (hp : x.pending = .transmitted)
      (ht : x.msgType = some .publish) (hq : 0 < x.msgQos) :
      TaskMove L (L.note (.sent x.origin.call x.msgId))

/-- What else it does. -/
inductive Move : Ledger → Ledger → Prop where
  | task {L L'} (h : TaskMove L L') : Move L L'
  | abort {L} : Move L L.aborted
  | connecting {L} (hs : L.state = .init) : Move L {L with isOpen := true}
  | opened {L} (receiveMaximum : ℕ) (hr : receiveMaximum < 65536) (hv : L.isV5 = true) :
      Move L {L.note (.opened receiveMaximum) with
        receiveMaximum := receiveMaximum
        sendPublishPacketCount := 0
        outbox := World.requeueLoop L.outbox.list.length L.outbox
        state := .connected}
  | openedV3 {L} (hv : L.isV5 = false) :
      Move L {L.note (.opened 65535) with state := .connected}
  | refused {L} (receiveMaximum : ℕ) (hr : receiveMaximum < 65536) (hs : L.state ≠ .connected) :
      Move L {L with receiveMaximum := receiveMaximum}
  | moved {L} (s : MqttState) (hs : s = .init ∨ s = .disconnected) : Move L {L with state := s}
  | exits {L} : Move L {L.depart .stopped L.outbox.deleteAllItems with
      state := .disconnected
      isOpen := false}

/-- What every entry preserves holds behind any number of them. -/
theorem moves_induction {P : Ledger → Prop} (hP : ∀ L L', Move L L' → P L → P L') {L L' : Ledger}
    (h : ReflTransGen Move L L') (hL : P L) : P L' := by
  induction h with
  | refl => exact hL
  | tail _ hm ih => exact hP _ _ hm ih

theorem task_moves {L L' : Ledger} (h : ReflTransGen TaskMove L L') : ReflTransGen Move L L' := by
  induction h with
  | refl => exact .refl
  | tail _ hm ih => exact ih.tail (.task hm)

theorem api_taskMoves {L L' : Ledger} (h : ReflTransGen ApiMove L L') :
    ReflTransGen TaskMove L L' := by
  induction h with
  | refl => exact .refl
  | tail _ hm ih => exact ih.tail (.api hm)

theorem apiMove_state {L L' : Ledger} (h : ApiMove L L') :
    L'.state = L.state ∨ L.Up ∧ L'.state = .waitReconnect := by
  cases h with
  | abort hs => exact Or.inr ⟨hs,rfl⟩
  | _ => exact Or.inl rfl

theorem taskMove_state {L L' : Ledger} (h : TaskMove L L') :
    L'.state = L.state ∨ L.Up ∧ L'.state = .waitReconnect := by
  cases h with
  | api h => exact apiMove_state h
  | _ => exact Or.inl rfl

/-- The only change of state a connected worker brings about is an abort. -/
theorem taskMoves_state {L L' : Ledger} (h : ReflTransGen TaskMove L L') :
    L'.state = L.state ∨ L.state = .connected ∧ L'.state = .waitReconnect := by
  induction h with
  | refl => exact Or.inl rfl
  | tail _ hm ih =>
    rcases taskMove_state hm with hs | ⟨hup,hs⟩
    · rw [hs]
      exact ih
    · rcases ih with ih | ih
      · rcases hup with hc | hc
        · exact Or.inr ⟨ih.symm.trans hc, hs⟩
        · exact Or.inl (hs.trans (hc.symm.trans ih))
      · exact Or.inr ⟨ih.1, hs⟩

theorem Up.task {L L' : Ledger} (h : L.Up) (hm : ReflTransGen TaskMove L L') : L'.Up := by
  rcases taskMoves_state hm with hs | ⟨-,hs⟩
  · exact h.imp hs.trans hs.trans
  · exact Or.inr hs

end Ledger

end EspMqtt
