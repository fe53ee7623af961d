import EspMqtt.Outbox

/-! `mqtt_outbox.c` with its own integers, loops and return values.  A list holds the items as
the tail queue links them, and an item's address tells it from the others. -/
namespace EspMqtt.MqttOutbox

/-- The value an `int` holds after arithmetic. -/
def int32 (n : ℤ) : ℤ := n.bmod 4294967296

/-- `outbox_item_t` -/
structure Item where
  address : ℕ
  buffer : List UInt8
  len : ℤ
  msgId : ℤ
  msgType : ℤ
  msgQos : ℤ
  tick : ℤ
  pending : PendingState
  deriving DecidableEq, Repr

/-- `struct outbox_t` -/
structure OutboxT where
  size : UInt64
  list : List Item
  deriving DecidableEq

/-- `outbox_message_t`, whose two lengths are `int`. -/
structure Message where
  data : List UInt8
  msgId : ℤ
  msgQos : ℤ
  msgType : ℤ
  remainingData : List UInt8
  data_len : data.length ≤ 2147483647
  remaining_len : remainingData.length ≤ 2147483647

/-- `outbox_init` -/
def outboxInit : OutboxT := ⟨0, []⟩

/-- The addresses of the items that have not been freed. -/
def OutboxT.addresses (outbox : OutboxT) : List ℕ := outbox.list.map Item.address

/-- How many bytes the buffers of the items take. -/
def OutboxT.held (outbox : OutboxT) : ℕ := (outbox.list.map fun item => item.buffer.length).sum

/-- `calloc` of an item: where it succeeds, no item is there yet. -/
def calloc (answer : Option ℕ) (outbox : OutboxT) : Option ℕ :=
  answer.filter fun address => decide (address ∉ outbox.addresses)

/-- `heap_caps_malloc(len)` may fail, and does when `len` is no size or the address space has no
room for it beside the other buffers. -/
def heapCapsMalloc (answer : Bool) (len : ℤ) (outbox : OutboxT) : Bool :=
  answer && decide (0 ≤ len) && decide (outbox.held+len.toNat < 18446744073709551616)

/-- `outbox_enqueue` -/
def outboxEnqueue (outbox : OutboxT) (message : Message) (tick : ℤ) (itemAnswer : Option ℕ)
    (bufferAnswer : Bool) : Option Item × OutboxT :=
  match calloc itemAnswer outbox with
  | none => (none, outbox)
  | some address =>
    let len := int32 (message.data.length+message.remainingData.length)
    -- without a buffer the item is freed again
    if heapCapsMalloc bufferAnswer len outbox = false then (none, outbox)
    else
      let item : Item :=
        { address, buffer := message.data ++ message.remainingData, len, msgId := message.msgId,
          msgType := message.msgType, msgQos := message.msgQos, tick, pending := .queued }
      (some item, ⟨outbox.size+UInt64.ofInt item.len, outbox.list ++ [item]⟩)

/-- `outbox_get` -/
def outboxGet (outbox : OutboxT) (msgId : ℤ) : Option Item :=
  outbox.list.find? fun item => item.msgId == msgId

/-- `outbox_dequeue`, with the tick it stores for its caller. -/
def outboxDequeue (outbox : OutboxT) (pending : PendingState) : Option (Item × ℤ) :=
  (outbox.list.find? fun item => item.pending == pending).map fun item => (item, item.tick)

/-- `STAILQ_REMOVE`, and the size adjusted. -/
def unlink (outbox : OutboxT) (item : Item) : OutboxT :=
  ⟨outbox.size-UInt64.ofInt item.len, outbox.list.eraseP fun other => other.address == item.address⟩

/-- `STAILQ_FOREACH` from an item on; the first one that is `named` goes and is returned. -/
def deleteOne (named : Item → Bool) : List Item → OutboxT → Option Item × OutboxT
  | [], outbox => (none, outbox)
  | item :: next, outbox =>
    if named item then (some item, unlink outbox item) else deleteOne named next outbox

/-- `STAILQ_FOREACH_SAFE` from an item on; each one that is `named` goes and is counted. -/
def deleteEach (named : Item → Bool) : List Item → OutboxT → ℤ → ℤ × OutboxT
  | [], outbox, deleted => (deleted, outbox)
  | item :: tmp, outbox, deleted =>
    if named item then deleteEach named tmp (unlink outbox item) (deleted+1)
    else deleteEach named tmp outbox deleted

/-- `current_tick - item->tick > timeout` -/
def Item.expired (currentTick timeout : ℤ) (item : Item) : Bool := decide (timeout < currentTick-item.tick)

/-- `(0xFF & item->msg_type) == msg_type` -/
def Item.hasType (msgType : ℤ) (item : Item) : Bool := item.msgType % 256 == msgType

/-- `outbox_delete_item`; true is `ESP_OK`. -/
def outboxDeleteItem (outbox : OutboxT) (address : ℕ) : Bool × OutboxT :=
  let r := deleteOne (fun item => item.address == address) outbox.list outbox
  (r.1.isSome, r.2)

/-- `outbox_delete` -/
def outboxDelete (outbox : OutboxT) (msgId msgType : ℤ) : Bool × OutboxT :=
  let r := deleteOne (fun item => item.msgId == msgId && item.hasType msgType) outbox.list outbox
  (r.1.isSome, r.2)

/-- `outbox_delete_message_type` -/
def outboxDeleteMessageType (outbox : OutboxT) (msgType : ℤ) : ℤ × OutboxT :=
  deleteEach (Item.hasType msgType) outbox.list outbox 0

/-- What `outbox_get` finds is changed where it stands. -/
def change (f : Item → Item) (msgId : ℤ) : List Item → List Item
  | [] => []
  | item :: next => if item.msgId == msgId then f item :: next else item :: change f msgId next

/-- `outbox_set_pending` -/
def outboxSetPending (outbox : OutboxT) (msgId : ℤ) (pending : PendingState) : Bool × OutboxT :=
  match outboxGet outbox msgId with
  | none => (false, outbox)
  -- only the first item with the id is found, whatever its type
  | some _ => (true, {outbox with list := change (fun item => {item with pending}) msgId outbox.list})

/-- `outbox_set_tick` -/
def outboxSetTick (outbox : OutboxT) (msgId tick : ℤ) : Bool × OutboxT :=
  match outboxGet outbox msgId with
  | none => (false, outbox)
  | some _ => (true, {outbox with list := change (fun item => {item with tick}) msgId outbox.list})

/-- `outbox_delete_single_expired` -/
def outboxDeleteSingleExpired (outbox : OutboxT) (currentTick timeout : ℤ) : ℤ × OutboxT :=
  let r := deleteOne (Item.expired currentTick timeout) outbox.list outbox
  -- the caller takes an item whose id is below 0 for the end
  ((r.1.map Item.msgId).getD (-1), r.2)

/-- `outbox_delete_expired` -/
def outboxDeleteExpired (outbox : OutboxT) (currentTick timeout : ℤ) : ℤ × OutboxT :=
  deleteEach (Item.expired currentTick timeout) outbox.list outbox 0

/-- `outbox_delete_all_items` -/
def outboxDeleteAllItems (outbox : OutboxT) : OutboxT := (deleteEach (fun _ => true) outbox.list outbox 0).2

/-- `outbox_get_size` -/
def outboxGetSize (outbox : OutboxT) : ℕ := outbox.size.toNat

/-- The calls on an outbox; the two allocations of `outbox_enqueue` come with it. -/
inductive Op where
  | enqueue (message : Message) (tick : ℤ) (itemAnswer : Option ℕ) (bufferAnswer : Bool)
  | get (msgId : ℤ)
  | dequeue (pending : PendingState)
  | setPending (msgId : ℤ) (pending : PendingState)
  | setTick (msgId tick : ℤ)
  | delete (msgId msgType : ℤ)
  | deleteItem (address : ℕ)
  | deleteMessageType (msgType : ℤ)
  | deleteSingleExpired (currentTick timeout : ℤ)
  | deleteExpired (currentTick timeout : ℤ)
  | deleteAllItems

/-- What a call returns. -/
inductive Answer where
  | item (found : Option Item)
  | itemTick (found : Option (Item × ℤ))
  | err (ok : Bool)
  | int (n : ℤ)
  | void

def Op.run : Op → OutboxT → Answer × OutboxT
  | .enqueue message tick itemAnswer bufferAnswer, outbox =>
    let r := outboxEnqueue outbox message tick itemAnswer bufferAnswer
    (.item r.1, r.2)
  | .get msgId, outbox => (.item (outboxGet outbox msgId), outbox)
  | .dequeue pending, outbox => (.itemTick (outboxDequeue outbox pending), outbox)
  | .setPending msgId pending, outbox =>
    let r := outboxSetPending outbox msgId pending
    (.err r.1, r.2)
  | .setTick msgId tick, outbox =>
    let r := outboxSetTick outbox msgId tick
    (.err r.1, r.2)
  | .delete msgId msgType, outbox =>
    let r := outboxDelete outbox msgId msgType
    (.err r.1, r.2)
  | .deleteItem address, outbox =>
    let r := outboxDeleteItem outbox address
    (.err r.1, r.2)
  | .deleteMessageType msgType, outbox =>
    let r := outboxDeleteMessageType outbox msgType
    (.int r.1, r.2)
  | .deleteSingleExpired currentTick timeout, outbox =>
    let r := outboxDeleteSingleExpired outbox currentTick timeout
    (.int r.1, r.2)
  | .deleteExpired currentTick timeout, outbox =>
    let r := outboxDeleteExpired outbox currentTick timeout
    (.int r.1, r.2)
  | .deleteAllItems, outbox => (.void, outboxDeleteAllItems outbox)

/-- The outbox after a sequence of calls on a new one. -/
def after (ops : List Op) : OutboxT := ops.foldl (fun outbox op => (op.run outbox).2) outboxInit

end EspMqtt.MqttOutbox
