import EspMqtt.Receiver
import EspMqtt.Event

/-! The emqtt runtime (`runtime/emqtt.c`), callback side: its state, the notice
queue, the message slots and `on_event`. -/
namespace EspMqtt

def noticeCapacity : ℕ := 16

def emqttSubscriptionsMax : ℕ := 8

/-- A message slot; the source has `MESSAGE_SLOTS` = 3 of them and writes -1
for none. -/
abbrev Slot := Fin 3

/-- `sizeof(emqtt_owned_message_t)` on the 32-bit target. -/
def ownedMessageBytes : ℕ := 272

inductive EmqttError where
  | none | transport | tls | auth | broker | subscription | fragment | queue | expired | sdk
  deriving DecidableEq, Repr

/-- `emqtt_event_kind_t`, and `NOTICE_SUBACK`, which only notices carry. -/
inductive EventKind where
  | connected | ready | disconnected | message | puback | deleted | unsubscribed | error | suback
  deriving DecidableEq, Repr

/-- `notice_t`; `suback` holds the `suback_count` codes copied. -/
structure Notice where
  kind : EventKind
  messageId : ℤ
  slot : Option Slot
  brokerCode : ℤ
  tlsFlags : ℤ
  arrivedUs : ℤ
  error : EmqttError
  suback : List UInt8
  deriving DecidableEq, Repr

inductive EmqttState where
  | stopped | connecting | subscribing | ready | disconnected | failed
  deriving DecidableEq, Repr

/-- `emqtt_subscription_t`, with the topic as a C string. -/
structure Subscription where
  topic : List UInt8
  qos : ℕ
  deriving DecidableEq, Repr

/-- `emqtt_capacity_stats_t`, less the two constants nothing reads back. -/
structure CapacityStats where
  rxPeakUptimeMs : ℕ
  rxPeakObservedUntilUptimeMs : ℕ
  lastOutboxFullUptimeMs : ℕ
  completeOwnerCount : ℕ
  completePayloadBytes : ℕ
  partialDeclaredBytes : ℕ
  partialReceivedBytes : ℕ
  ownedRequestBytes : ℕ
  outboxWireBytesAtRxPeak : ℕ
  outboxFullCount : ℕ
  lastOutboxFullPayloadBytes : ℕ
  noticeCountHighWater : ℕ
  noticeFullCount : ℕ
  rxPeakValid : Bool
  countersValid : Bool
  deriving DecidableEq, Repr

inductive EspErr where
  | ok | fail | noMem | invalidArg | invalidState | outboxFull | timeRequired
  deriving DecidableEq, Repr

/-- What the clock, the allocator and the SDK answer during one call. -/
structure Answers where
  now : ℤ
  partialNow : ℤ
  partialUntil : ℤ
  alloc : Bool
  outboxSize : ℤ
  start : EspErr
  stop : EspErr
  request : ℤ
  deriving DecidableEq, Repr

/-- A subscribe or unsubscribe request the SDK accepted. -/
structure Submission where
  unsubscribe : Bool
  id : ℤ
  filters : List Subscription
  deadlineUs : ℤ
  deriving DecidableEq, Repr

/-- The history of a runtime, newest first; nothing the runtime does depends on
it. -/
inductive Entry where
  | started
  | callback (e : MqttEvent) (arrivedUs : ℤ)
  | took (n : Notice) (m : Option OwnedMessage)
  | submitted (s : Submission)
  deriving DecidableEq, Repr

/-- `struct emqtt_runtime`. The two FreeRTOS queues are lists, oldest first;
`subscriptions` is the array up to `subscription_count`. `refused` and `log` are
kept for statements: the slots that ever found the free queue full, and the
history. -/
structure Runtime where
  tls : Bool
  notices : List Notice
  freeSlots : List Slot
  subscriptions : List Subscription
  receiver : ReceiveState
  receiverMessage : Option OwnedMessage
  receiverSlot : Option Slot
  messages : Slot → Option OwnedMessage
  overflow : Bool
  started : Bool
  faulted : Bool
  state : EmqttState
  pendingSubscribe : ℤ
  pendingUnsubscribe : ℤ
  pendingSubscribeCount : ℕ
  pendingUnsubscribeIndex : ℕ
  pendingSubscription : Subscription
  pendingDynamicSubscribe : Bool
  subscriptionDeadlineUs : ℤ
  capacity : CapacityStats
  refused : List Slot
  log : List Entry
  deriving DecidableEq

namespace Runtime

def note (r : Runtime) (e : Entry) : Runtime := {r with log := e :: r.log}

/-- `xQueueSend(r->free_slots, ..)`: a slot that finds the queue full raises
`overflow`. -/
def sendSlot (r : Runtime) (s : Slot) : Runtime :=
  if r.freeSlots.length < 3 then {r with freeSlots := r.freeSlots ++ [s]}
  else {r with refused := s :: r.refused, overflow := true}

end Runtime

def uint32Max : ℕ := 2^32-1

/-- `capacity_increment` of the counter that stands at `counter`. -/
def capacityIncrement (c : CapacityStats) (counter : ℕ)
    (set : ℕ → CapacityStats → CapacityStats) : CapacityStats :=
  if counter = uint32Max then {c with countersValid := false} else set (counter+1) c

/-- `detach_message_slot`. -/
def detachMessageSlot (r : Runtime) (s : Slot) : Option OwnedMessage × Runtime :=
  (r.messages s, {r with messages := Function.update r.messages s none})

/-- `release_message_slot`; wiping and freeing the detached buffer leaves no
trace in the state. -/
def releaseMessageSlot (r : Runtime) (s : Slot) : Runtime :=
  (detachMessageSlot r s).2.sendSlot s

/-- `post`. -/
def post (r : Runtime) (n : Notice) : Runtime :=
  if r.notices.length < noticeCapacity then
    {r with
      notices := r.notices ++ [n]
      capacity := {r.capacity with
        noticeCountHighWater := max r.capacity.noticeCountHighWater (r.notices.length+1)}}
  else
    let c := {r.capacity with
      noticeCountHighWater := max r.capacity.noticeCountHighWater r.notices.length}
    let r := {r with
      capacity := capacityIncrement c c.noticeFullCount fun k c => {c with noticeFullCount := k}}
    {(match n.slot with
      | some s => releaseMessageSlot r s
      | none => r) with overflow := true}

/-- `release_receiver_slot`. -/
def releaseReceiverSlot (r : Runtime) : Runtime :=
  let q := {r with receiverSlot := none, receiver := ⟨0,false⟩, receiverMessage := none}
  match r.receiverSlot with
  | some s => q.sendSlot s
  | none => q

/-- `capacity_note_partial`: one joint observation of what is held. -/
def capacityNotePartial (r : Runtime) (a : Answers) : Runtime :=
  let held := (List.finRange 3).filterMap r.messages
  let complete := held.length
  let payload := (held.map fun m => m.info.length).sum
  let declared := (r.receiverMessage.map fun m => m.info.length).getD 0
  let bytes := payload+declared+(complete+1)*ownedMessageBytes
  if a.outboxSize < 0 then {r with capacity := {r.capacity with countersValid := false}}
  else if r.capacity.rxPeakValid = false ∨ r.capacity.ownedRequestBytes < bytes ∨
      (bytes = r.capacity.ownedRequestBytes ∧
        (r.capacity.outboxWireBytesAtRxPeak : ℤ) < a.outboxSize) then
    {r with capacity := {r.capacity with
      rxPeakUptimeMs := a.partialNow.toNat/1000
      rxPeakObservedUntilUptimeMs := a.partialUntil.toNat/1000
      completeOwnerCount := complete
      completePayloadBytes := payload
      partialDeclaredBytes := declared
      partialReceivedBytes := r.receiver.received
      ownedRequestBytes := bytes
      outboxWireBytesAtRxPeak := a.outboxSize.toNat
      rxPeakValid := true}}
  else r

/-- The fragment a DATA event carries. -/
def MqttEvent.fragment (e : MqttEvent) : Fragment :=
  { topic := e.topic, topicLength := e.topicLen, data := e.data, dataLength := e.dataLen
    totalLength := e.totalDataLen, offset := e.currentDataOffset, messageId := e.msgId
    qos := e.qos, retain := e.retain, duplicate := e.dup }

/-- `emqtt_storage_calloc(sizeof(*message) + length)` with its length set. -/
def freshMessage (length : ℕ) : OwnedMessage :=
  ⟨⟨[], length, 0, 0, false, false⟩, List.replicate length 0, length⟩

/-- How the first half of the DATA case ends. -/
inductive ReceiverStart where
  | refused | noMemory
  | ready (m : OwnedMessage)
  deriving DecidableEq, Repr

/-- The storage a fragment goes into: what is being received, or a fresh buffer
of the declared length, with a slot if one is free. -/
def ensureReceiver (e : MqttEvent) (a : Answers) (r : Runtime) : ReceiverStart × Runtime :=
  match r.receiverMessage with
  | some m => (.ready m, r)
  | none =>
    if e.totalDataLen < 0 ∨ (emqttPayloadMax : ℤ) < e.totalDataLen then (.refused, r)
    else
      let r := {r with receiverSlot := r.freeSlots.head?, freeSlots := r.freeSlots.tail}
      if a.alloc then
        let m := freshMessage e.totalDataLen.toNat
        (.ready m, {r with receiverMessage := some m})
      else
        let q := match r.receiverSlot with
          | some s => r.sendSlot s
          | none => r
        (.noMemory, {q with receiverSlot := none, overflow := true})

/-- Hand the complete buffer over to slot `s` and announce it. -/
def transferMessage (r : Runtime) (m : OwnedMessage) (s : Slot) (n : Notice) : Runtime :=
  post {r with messages := Function.update r.messages s (some m), receiverSlot := none,
               receiverMessage := none}
    {n with slot := some s, kind := .message}

/-- The complete message needs a slot now, if it did not get one at its start. -/
def completeMessage (r : Runtime) (m : OwnedMessage) (n : Notice) : Runtime :=
  match r.receiverSlot with
  | some s => transferMessage r m s n
  | none =>
    match r.freeSlots with
    | [] => {releaseReceiverSlot r with overflow := true}
    | s :: rest => transferMessage {r with freeSlots := rest} m s n

/-- One fragment into the receiver's storage `m`, and what follows from it. -/
def receiveFragment (e : MqttEvent) (a : Answers) (r : Runtime) (m : OwnedMessage) (n : Notice) :
    Runtime :=
  match emqttReceiveInto r.receiver m.info m.payload m.info.length e.fragment with
  | (.more, rc, info, payload) =>
    capacityNotePartial
      {r with receiver := rc, receiverMessage := some ⟨info,payload,m.allocated⟩} a
  | (.rejected, rc, info, payload) =>
    post (releaseReceiverSlot
        {r with receiver := rc, receiverMessage := some ⟨info,payload,m.allocated⟩})
      {n with kind := .error, error := .fragment}
  | (.complete, rc, info, payload) =>
    completeMessage {r with receiver := rc, receiverMessage := some ⟨info,payload,m.allocated⟩}
      ⟨info,payload,m.allocated⟩ n

/-- The DATA case of `on_event`. -/
def onData (e : MqttEvent) (a : Answers) (r : Runtime) (n : Notice) : Runtime :=
  match ensureReceiver e a r with
  | (.refused, r) => post r {n with kind := .error, error := .fragment}
  | (.noMemory, r) => r
  | (.ready m, r) => receiveFragment e a r m n

/-- The error a notice reports for an ERROR event. -/
def noticeError (h : ErrorCodes) : EmqttError :=
  match h.errorType with
  | .tcpTransport =>
    if h.espTlsCertVerifyFlags ≠ 0 ∨ h.espTlsStackErr ≠ 0 then .tls else .transport
  | .connectionRefused =>
    if h.connectReturnCode = 4 ∨ h.connectReturnCode = 5 then .auth else .broker
  | .subscribeFailed => .subscription
  | .none => .sdk

/-- The SUBSCRIBED case: the codes are copied if there are between one and
eight of them. -/
def subackNotice (e : MqttEvent) (n : Notice) : Notice :=
  if e.dataLen < 1 ∨ (emqttSubscriptionsMax : ℤ) < e.dataLen ∨ e.data = none then
    {n with kind := .suback, error := .subscription}
  else {n with kind := .suback, suback := bytesAt e.data e.dataLen.toNat}

/-- `on_event`. -/
def onEvent (e : MqttEvent) (a : Answers) (r : Runtime) : Runtime :=
  let n : Notice :=
    { kind := .connected, messageId := e.msgId, slot := none, brokerCode := 0, tlsFlags := 0
      arrivedUs := a.now, error := .none, suback := [] }
  match e.id with
  | .connected => post (releaseReceiverSlot r) n
  | .disconnected => post (releaseReceiverSlot r) {n with kind := .disconnected}
  | .subscribed => post r (subackNotice e n)
  | .unsubscribed => post r {n with kind := .unsubscribed}
  | .published => post r {n with kind := .puback}
  | .deleted => post r {n with kind := .deleted, error := .expired}
  | .error =>
    post r (match e.errorHandle with
      | none => {n with kind := .error, error := .sdk}
      | some h => {n with kind := .error, brokerCode := h.connectReturnCode,
                          tlsFlags := h.espTlsCertVerifyFlags, error := noticeError h})
  | .data => onData e a r n
  | .other => r

end EspMqtt
