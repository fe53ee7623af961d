import EspMqtt.Runtime

/-! The emqtt runtime, owner side: start, stop, poll and the requests. All of
these are called by the owner task on the one instance, so the `owned` test of
the source is passed. -/
namespace EspMqtt

/-- `clear_pending`. -/
def clearPending (r : Runtime) : Runtime :=
  {r with
    pendingSubscribe := -1
    pendingUnsubscribe := -1
    pendingSubscribeCount := 0
    pendingUnsubscribeIndex := 0
    pendingDynamicSubscribe := false
    pendingSubscription := ⟨[],0⟩
    subscriptionDeadlineUs := 0}

/-- `drain`. -/
def drain (r : Runtime) : Runtime :=
  let r := releaseReceiverSlot r
  {clearPending {r with notices := [], messages := fun _ => none, freeSlots := [0,1,2],
                        overflow := false} with faulted := false}

/-- `api_result`. -/
def apiResult (id : ℤ) : EspErr := if id = -2 then .outboxFull else if id < 0 then .fail else .ok

/-- The state `emqtt_create` leaves behind on success. -/
def emqttCreated (tls : Bool) (subscriptions : List Subscription) (countersValid : Bool) : Runtime :=
  drain
    { tls := tls, notices := [], freeSlots := [], subscriptions := subscriptions
      receiver := ⟨0,false⟩, receiverMessage := none, receiverSlot := none
      messages := fun _ => none, overflow := false, started := false, faulted := false
      state := .stopped, pendingSubscribe := 0, pendingUnsubscribe := 0
      pendingSubscribeCount := 0, pendingUnsubscribeIndex := 0, pendingSubscription := ⟨[],0⟩
      pendingDynamicSubscribe := false, subscriptionDeadlineUs := 0
      capacity := ⟨0,0,0,0,0,0,0,0,0,0,0,0,0,false,countersValid⟩, refused := [], log := [] }

/-- `emqtt_start`. -/
def emqttStart (r : Runtime) (networkReady trustedTimeReady : Bool) (a : Answers) :
    EspErr × Runtime :=
  if r.started ∨ networkReady = false then (.invalidState, r)
  else if r.tls ∧ trustedTimeReady = false then (.timeRequired, r)
  else
    let r := drain r
    if a.start ≠ .ok then (a.start, {r with state := .failed})
    else (.ok, {r.note .started with started := true, state := .connecting})

/-- `emqtt_stop`. -/
def emqttStop (r : Runtime) (a : Answers) : EspErr × Runtime :=
  if r.started ∧ a.stop ≠ .ok then (a.stop, {r with state := .failed})
  else (.ok, {drain {r with started := false} with state := .stopped})

/-- `fail_closed`. -/
def failClosed (r : Runtime) (a : Answers) : Runtime :=
  {(emqttStop r a).2 with faulted := true, state := .failed}

/-- `submit_subscriptions`. -/
def submitSubscriptions (r : Runtime) (subscriptions : List Subscription) (dynamic : Bool)
    (a : Answers) : EspErr × Runtime :=
  if subscriptions.length = 0 then (.ok, {r with state := .ready})
  else if a.request ≤ 0 then
    (if a.request = 0 then .fail else apiResult a.request, {r with state := .failed})
  else
    (.ok, {r.note (.submitted ⟨false, a.request, subscriptions, a.now+10000000⟩) with
      pendingSubscribe := a.request
      pendingSubscribeCount := subscriptions.length
      pendingDynamicSubscribe := dynamic
      subscriptionDeadlineUs := a.now+10000000
      state := .subscribing})

/-- `emqtt_suback_valid`. -/
def emqttSubackValid (codes : List UInt8) (subscriptions : List Subscription) (expected : ℕ) :
    Bool :=
  !(expected == 0 || decide (emqttSubscriptionsMax < expected) || codes.length != expected) &&
    (List.range codes.length).all fun i =>
      !(decide (1 < (codes.getD i 0).toNat) ||
        decide ((subscriptions.getD i ⟨[],0⟩).qos < (codes.getD i 0).toNat))

/-- `emqtt_message_t`; `payload` is the whole array. -/
structure Message where
  topic : List UInt8
  payload : List UInt8
  length : ℕ
  messageId : ℤ
  qos : ℕ
  retain : Bool
  duplicate : Bool
  deriving DecidableEq, Repr

/-- `emqtt_event_t`. -/
structure EmqttEvent where
  kind : EventKind
  error : EmqttError
  messageId : ℤ
  brokerCode : ℤ
  tlsFlags : ℤ
  message : Message
  deriving DecidableEq, Repr

/-- An event after `memset(out, 0, sizeof(*out))`. -/
def clearedEvent : EmqttEvent :=
  ⟨.connected, .none, 0, 0, 0, ⟨[], List.replicate emqttPayloadMax 0, 0, 0, 0, false, false⟩⟩

def errorEvent (error : EmqttError) : EmqttEvent :=
  {clearedEvent with kind := .error, error := error}

/-- The event with the fields every notice fills in. -/
def Notice.event (n : Notice) : EmqttEvent :=
  {clearedEvent with kind := n.kind, messageId := n.messageId, error := n.error
                     brokerCode := n.brokerCode, tlsFlags := n.tlsFlags}

/-- A message copied into the cleared event. -/
def OwnedMessage.copied (m : OwnedMessage) : Message :=
  { topic := m.info.topic
    payload := ByteBuffer.splice (List.replicate emqttPayloadMax 0) 0 (m.payload.take m.info.length)
    length := m.info.length, messageId := m.info.messageId, qos := m.info.qos
    retain := m.info.retain, duplicate := m.info.duplicate }

/-- A poll up to the point where a message slot goes back to its queue: what it
returns (`none` is `false`), the state, and the slot still to be returned with
the buffer detached from it. -/
structure Polled where
  result : Option EmqttEvent
  rt : Runtime
  returning : Option (Slot × Option OwnedMessage)
  deriving DecidableEq

/-- The exit shared by every SUBACK, UNSUBACK or CONNECTED that is not accepted. -/
def refuseSubscription (r : Runtime) (n : Notice) (a : Answers) : Option EmqttEvent × Runtime :=
  (some {n.event with kind := .error, error := .subscription}, failClosed r a)

def pollConnected (r : Runtime) (n : Notice) (a : Answers) : Option EmqttEvent × Runtime :=
  let r := clearPending r
  match submitSubscriptions r r.subscriptions false a with
  | (.ok, r) =>
    (some (if r.subscriptions.length = 0 then {n.event with kind := .ready} else n.event), r)
  | (_, r) => refuseSubscription r n a

/-- What a SUBACK is checked against. -/
def Runtime.awaited (r : Runtime) : List Subscription :=
  if r.pendingDynamicSubscribe then [r.pendingSubscription] else r.subscriptions

def pollSuback (r : Runtime) (n : Notice) (a : Answers) : Option EmqttEvent × Runtime :=
  let o :=
    if r.pendingSubscribe ≤ 0 ∨ n.messageId ≠ r.pendingSubscribe ∨ r.state ≠ .subscribing ∨
        n.error ≠ .none ∨ emqttSubackValid n.suback r.awaited r.pendingSubscribeCount = false then
      refuseSubscription r n a
    else
      (some {n.event with kind := .ready},
        {r with
          subscriptions := if r.pendingDynamicSubscribe then
            r.subscriptions ++ [r.pendingSubscription] else r.subscriptions
          state := .ready})
  (o.1, clearPending o.2)

def pollUnsubscribed (r : Runtime) (n : Notice) (a : Answers) : Option EmqttEvent × Runtime :=
  let o :=
    if r.pendingUnsubscribe ≤ 0 ∨ n.messageId ≠ r.pendingUnsubscribe ∨ r.state ≠ .subscribing then
      refuseSubscription r n a
    else
      (some n.event,
        {r with subscriptions := r.subscriptions.eraseIdx r.pendingUnsubscribeIndex
                state := .ready})
  (o.1, clearPending o.2)

/-- The MESSAGE case up to the detach. -/
def pollMessage (r : Runtime) (n : Notice) : Polled :=
  match n.slot with
  | none => ⟨some n.event, r, none⟩
  | some s =>
    let d := detachMessageSlot r s
    ⟨some (match d.1 with
      | some m => {n.event with message := m.copied}
      | none => n.event), d.2, some (s, d.1)⟩

def pollError (r : Runtime) (n : Notice) (a : Answers) : Option EmqttEvent × Runtime :=
  (some n.event,
    if n.error = .subscription then failClosed r a
    else if n.error ≠ .fragment then {r with state := .failed} else r)

/-- The switch of `emqtt_poll` over the notice. -/
def pollNotice (r : Runtime) (n : Notice) (a : Answers) : Polled :=
  let plain := fun o : Option EmqttEvent × Runtime => (⟨o.1, o.2, none⟩ : Polled)
  match n.kind with
  | .connected => plain (pollConnected r n a)
  | .suback => plain (pollSuback r n a)
  | .unsubscribed => plain (pollUnsubscribed r n a)
  | .disconnected => plain (some n.event, {clearPending r with state := .disconnected})
  | .message => pollMessage r n
  | .error => plain (pollError r n a)
  | .ready | .puback | .deleted => plain (some n.event, r)

/-- Taking a notice off the queue, with what the history keeps of it. -/
def Runtime.popped (r : Runtime) (n : Notice) (rest : List Notice) : Runtime :=
  {r.note (.took n (n.slot.bind r.messages)) with notices := rest}

/-- `emqtt_poll` up to the return of a message slot. -/
def emqttPollBegin (r : Runtime) (a : Answers) : Polled :=
  if r.faulted then ⟨none, r, none⟩
  else if r.overflow then
    ⟨some (errorEvent .queue), failClosed {r with overflow := false} a, none⟩
  else
    match r.notices with
    | [] =>
      if r.state ≠ .subscribing ∨ a.now < r.subscriptionDeadlineUs then ⟨none, r, none⟩
      else ⟨some (errorEvent .subscription), failClosed r a, none⟩
    | n :: rest =>
      let r := r.popped n rest
      -- what arrived late cannot extend the wait, whatever it is
      if r.state = .subscribing ∧ r.subscriptionDeadlineUs ≤ n.arrivedUs then
        ⟨some (errorEvent .subscription), failClosed r a, none⟩
      else pollNotice r n a

/-- `emqtt_poll`. -/
def emqttPoll (r : Runtime) (a : Answers) : Option EmqttEvent × Runtime :=
  let p := emqttPollBegin r a
  (p.result,
    match p.returning with
    | some (s, _) => p.rt.sendSlot s
    | none => p.rt)

/-- `emqtt_enqueue` with arguments it accepts or not; `length` is the payload's. -/
def emqttEnqueue (r : Runtime) (topic : Option (List UInt8)) (payload : Bool) (length qos : ℕ)
    (a : Answers) : EspErr × Runtime :=
  if r.started = false ∨ r.state = .failed then (.invalidState, r)
  else if emqttTopicValid topic (min ((topic.map List.length).getD 0) (emqttTopicMax+1)) false = false ∨
      5120 < length ∨ (payload = false ∧ length ≠ 0) ∨ 1 < qos then (.invalidArg, r)
  else if apiResult a.request = .outboxFull then
    let c := capacityIncrement r.capacity r.capacity.outboxFullCount
      fun k c => {c with outboxFullCount := k}
    (.outboxFull, {r with capacity := {c with
      lastOutboxFullPayloadBytes := length, lastOutboxFullUptimeMs := a.now.toNat/1000}})
  else (apiResult a.request, r)

/-- The filter test shared by `emqtt_subscribe` and `emqtt_unsubscribe`. -/
def filterOk (filter : Option (List UInt8)) : Bool :=
  emqttTopicValid filter (min ((filter.map List.length).getD 0) (emqttTopicMax+1)) true

/-- `emqtt_subscribe`. -/
def emqttSubscribe (r : Runtime) (filter : Option (List UInt8)) (qos : ℕ) (a : Answers) :
    EspErr × Runtime :=
  if r.state ≠ .ready then (.invalidState, r)
  else if 1 < qos ∨ filterOk filter = false ∨ r.subscriptions.length = emqttSubscriptionsMax then
    (.invalidArg, r)
  else if r.subscriptions.any fun s => some s.topic == filter then (.invalidArg, r)
  else
    let sub : Subscription := ⟨filter.getD [], qos⟩
    match submitSubscriptions {r with pendingSubscription := sub} [sub] true a with
    | (.ok, r) => (.ok, r)
    | (e, r) => (e, failClosed r a)

/-- `emqtt_unsubscribe`. -/
def emqttUnsubscribe (r : Runtime) (filter : Option (List UInt8)) (a : Answers) :
    EspErr × Runtime :=
  if r.state ≠ .ready then (.invalidState, r)
  else if filterOk filter = false then (.invalidArg, r)
  else
    let index := r.subscriptions.findIdx fun s => some s.topic == filter
    if index = r.subscriptions.length then (.invalidArg, r)
    else if a.request ≤ 0 then
      (if a.request = 0 then .fail else apiResult a.request, failClosed r a)
    else
      (.ok, {r.note (.submitted ⟨true, a.request, (r.subscriptions.drop index).take 1,
            a.now+10000000⟩) with
        pendingUnsubscribe := a.request
        pendingUnsubscribeIndex := index
        subscriptionDeadlineUs := a.now+10000000
        state := .subscribing})

end EspMqtt
