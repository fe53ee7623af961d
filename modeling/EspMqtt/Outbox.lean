import EspMqtt.MsgParse

/-! `mqtt_outbox.c`: the stored packets, oldest first. -/
namespace EspMqtt

/-- `pending_state_t`. -/
inductive PendingState where
  | queued | transmitted | acknowledged | confirmed
  deriving DecidableEq, Repr

/-- What the history knows of a stored packet and the code does not: the call
that made it, the connection that call was made for, and whether it came out of
an encoder whose Remaining Length is its own. -/
structure Provenance where
  call : ℕ
  connection : ℕ
  control : Bool
  deriving DecidableEq, Repr

/-- `outbox_item_t`; `handle` stands for the item's address. -/
structure OutboxItem where
  handle : ℕ
  buffer : List UInt8
  msgId : ℕ
  msgType : Option MsgType
  msgQos : ℕ
  tick : ℕ
  pending : PendingState
  origin : Provenance
  deriving DecidableEq, Repr

/-- The packet belongs to a handshake: a request, or a PUBLISH with QoS 1 or 2. -/
def OutboxItem.isHandshake (x : OutboxItem) : Bool :=
  x.msgType == some .subscribe || x.msgType == some .unsubscribe ||
    x.msgType == some .publish && decide (0 < x.msgQos)

structure Outbox where
  size : ℕ
  list : List OutboxItem
  nextHandle : ℕ
  deriving DecidableEq, Repr

namespace Outbox

def init : Outbox := ⟨0, [], 0⟩

/-- `outbox_message_t`. -/
structure Message where
  data : List UInt8
  remainingData : List UInt8
  msgId : ℕ
  msgType : Option MsgType
  msgQos : ℕ
  deriving DecidableEq, Repr

/-- `outbox_enqueue`: two allocations, of the item and of its buffer. -/
def enqueue (o : Outbox) (m : Message) (tick : ℕ) (itemAlloc bufferAlloc : Bool)
    (origin : Provenance) : Option ℕ × Outbox :=
  if itemAlloc && bufferAlloc then
    let buffer := m.data ++ m.remainingData
    (some o.nextHandle,
      { size := o.size+buffer.length
        list := o.list ++ [⟨o.nextHandle, buffer, m.msgId, m.msgType, m.msgQos, tick, .queued,
          origin⟩]
        nextHandle := o.nextHandle+1 })
  else (none, o)

/-- `outbox_get`. -/
def get (o : Outbox) (msgId : ℕ) : Option OutboxItem := o.list.find? fun i => i.msgId == msgId

/-- `outbox_dequeue`, which leaves the item where it is. -/
def dequeue (o : Outbox) (pending : PendingState) : Option OutboxItem :=
  o.list.find? fun i => i.pending == pending

/-- The first match goes, the rest stays. -/
def removeFirst (o : Outbox) (p : OutboxItem → Bool) : Option OutboxItem × Outbox :=
  match o.list.find? p with
  | some i => (some i, {o with size := o.size-i.buffer.length, list := o.list.eraseP p})
  | none => (none, o)

/-- Every match goes. -/
def removeAll (o : Outbox) (p : OutboxItem → Bool) : Outbox :=
  {o with size := o.size-((o.list.filter p).map fun i => i.buffer.length).sum
          list := o.list.filter fun i => !p i}

/-- `outbox_delete_item`. -/
def deleteItem (o : Outbox) (handle : ℕ) : Outbox := (o.removeFirst fun i => i.handle == handle).2

/-- `outbox_delete`; the first component is `ESP_OK`. -/
def delete (o : Outbox) (msgId : ℕ) (msgType : MsgType) : Bool × Outbox :=
  let r := o.removeFirst fun i => i.msgId == msgId && i.msgType == some msgType
  (r.1.isSome, r.2)

/-- `outbox_delete_message_type`. -/
def deleteMessageType (o : Outbox) (msgType : MsgType) : Outbox :=
  o.removeAll fun i => i.msgType == some msgType

/-- `outbox_delete_expired`. -/
def deleteExpired (o : Outbox) (now timeout : ℕ) : Outbox :=
  o.removeAll fun i => decide ((timeout : ℤ) < (now : ℤ)-i.tick)

/-- `outbox_delete_single_expired`; `none` is -1. -/
def deleteSingleExpired (o : Outbox) (now timeout : ℕ) : Option ℕ × Outbox :=
  let r := o.removeFirst fun i => decide ((timeout : ℤ) < (now : ℤ)-i.tick)
  (r.1.map OutboxItem.msgId, r.2)

/-- `outbox_delete_all_items`. -/
def deleteAllItems (o : Outbox) : Outbox := o.removeAll fun _ => true

/-- The first match is changed, the rest stays. -/
def modifyFirst (o : Outbox) (p : OutboxItem → Bool) (f : OutboxItem → OutboxItem) : Outbox :=
  {o with list := go o.list}
where
  go : List OutboxItem → List OutboxItem
    | [] => []
    | i :: is => if p i then f i :: is else i :: go is

/-- `outbox_set_pending`. -/
def setPending (o : Outbox) (msgId : ℕ) (pending : PendingState) : Outbox :=
  o.modifyFirst (fun i => i.msgId == msgId) fun i => {i with pending := pending}

/-- `outbox_set_tick`. -/
def setTick (o : Outbox) (msgId tick : ℕ) : Outbox :=
  o.modifyFirst (fun i => i.msgId == msgId) fun i => {i with tick := tick}

/-- `mqtt_set_dup` on the buffer of a stored packet. -/
def setDup (o : Outbox) (handle : ℕ) : Outbox :=
  o.modifyFirst (fun i => i.handle == handle) fun i => {i with buffer := mqttSetDup i.buffer}

/-- The packet identifiers that stored packets hold. -/
def idsInUse (o : Outbox) : List ℕ := (o.list.filter OutboxItem.isHandshake).map OutboxItem.msgId

end Outbox

end EspMqtt
