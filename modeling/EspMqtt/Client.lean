import EspMqtt.Event
import EspMqtt.Mqtt5Connack
import EspMqtt.MsgBuild
import EspMqtt.Outbox
import EspMqtt.Receive

/-! The client of `mqtt_client.c`: its state, what surrounds it, and the
operations every task and every API call is made of. -/
namespace EspMqtt

inductive MqttState where
  | init | disconnected | connected | waitReconnect
  deriving DecidableEq, Repr

/-- The settings the client reads while it runs, with the build options. -/
structure Config where
  outboxLimit : ℕ
  networkTimeoutMs : ℕ
  reconnectTimeoutMs : ℕ
  refreshConnectionAfterMs : ℕ
  messageRetransmitTimeout : ℕ
  outboxExpiredTimeoutMs : ℕ
  autoReconnect : Bool
  skipPublishIfDisconnected : Bool
  reportDeletedMessages : Bool
  deriving DecidableEq, Repr

/-- What a successful `esp_mqtt_set_config` leaves; `inBuffer` is fresh memory. -/
structure Settings where
  config : Config
  information : ConnectInfo
  bufferLength : ℕ
  inBuffer : List UInt8
  deriving DecidableEq, Repr

/-- A call of the public API with its arguments. -/
inductive ApiCall where
  | publish (topic : Option (List UInt8)) (data : CData) (len : ℤ) (qos retain : ℕ)
  | enqueue (topic : Option (List UInt8)) (data : CData) (len : ℤ) (qos retain : ℕ) (store : Bool)
  | subscribe (topics : List (List UInt8 × ℕ))
  | unsubscribe (topic : Option (List UInt8))
  | disconnect
  | reconnect
  | setConfig (s : Settings)

/-- What `mqtt5_msg.c` answers when a v5 client asks it: bytes behind the type
byte of a packet it composed, a packet it took apart, properties of a CONNACK. -/
structure Mqtt5Answer where
  encoded : Option (List UInt8)
  fragmentedMsgTotalLength : ℕ
  fragmentedMsgDataOffset : ℤ
  msgId : ℕ
  connackParsed : Bool
  connectRspCode : ℤ
  serverKeepalive : Option ℕ
  receiveMaximum : ℕ
  maxQos : ℕ
  retainAvailable : Bool
  publishData : Option (List UInt8 × ℕ × ℕ)
  subackData : List UInt8
  deriving DecidableEq, Repr

/-- The callers of `esp_mqtt_write`. -/
inductive Site where
  | connect | puback | pubrec | pubrel | pubcomp | resend | resendPubrel | ping | publish
  | subscribe | unsubscribe | disconnect
  deriving DecidableEq, Repr

/-- One call of `esp_mqtt_write`: the bytes it was given, how many of them the
transport took, whether they are the beginning of a packet, and the bytes of a
payload still to be sent behind them; before it came that many connections,
events and notes of traffic. -/
structure Chunk where
  connection : ℕ
  events : ℕ
  notes : ℕ
  site : Site
  first : Bool
  data : List UInt8
  sent : ℕ
  behind : ℤ
  msgType : Option MsgType
  origin : Provenance
  deriving DecidableEq, Repr

/-- Where the worker task stands between two atomic steps. -/
inductive TaskPc where
  | none | head | body | unlocked | polling
  deriving DecidableEq, Repr

/-- How a stored packet leaves the outbox; an acknowledgement is reported by an event. -/
inductive Removal where
  | acked (event : EventId)
  | expired | sent | cleared | stopped
  deriving DecidableEq, Repr

/-- QoS 1 and 2 traffic: a connection the broker accepted with its Receive
Maximum, a whole PUBLISH sent for the call `message`, a PUBACK or PUBCOMP received. -/
inductive Traffic where
  | opened (receiveMaximum : ℕ)
  | sent (message msgId : ℕ)
  | acked (msgId : ℕ)
  deriving DecidableEq, Repr

/-- The messages sent on the last connection, with their identifiers, that no
PUBACK or PUBCOMP has answered; the newest traffic comes first. -/
def unacked : List Traffic → List (ℕ × ℕ)
  | [] => []
  | .opened _ :: _ => []
  | .sent message msgId :: l =>
    if (message, msgId) ∈ unacked l then unacked l else (message, msgId) :: unacked l
  | .acked msgId :: l => (unacked l).filter fun m => m.2 != msgId

/-- The Receive Maximum of the last connection. -/
def quota : List Traffic → ℕ
  | [] => 65535
  | .opened receiveMaximum :: _ => receiveMaximum
  | _ :: l => quota l

/-- A stored packet that has left, and what was unacknowledged on the connection then. -/
structure Departure where
  item : OutboxItem
  reason : Removal
  unacked : List (ℕ × ℕ)
  deriving DecidableEq, Repr

/-- What a run notes about the calls made and about what failed. -/
inductive Mark where
  /-- The locked part of a call begins: the output buffer and the data offset in it, the
  connection the call's tests saw, the one there is now, where the worker stands, and the
  events the call is made from. -/
  | body (call : ApiCall) (bufferLength : ℕ) (offset : ℤ) (seen connection : ℕ) (state : MqttState)
    (pc : TaskPc) (inCutError inFirstChunk : Bool)
  /-- A write failed after part of the packet had been sent. -/
  | cut (site : Site)
  /-- There was no memory to store a message that does not fit the buffer. -/
  | fragmentNotStored

/-- The client, its transport and the answers its environment will give, and at
the end the history. -/
structure World where
  config : Config
  information : ConnectInfo
  state : MqttState
  run : Bool
  taskHandle : Bool
  stopping : Bool
  connection : Connection
  pendingMsgId : ℕ
  pendingMsgType : Option MsgType
  pendingPublishQos : ℕ
  outbox : Outbox
  rx : RxState
  event : MqttEvent
  waitForPingResp : Bool
  keepaliveTick : ℕ
  reconnectTick : ℕ
  refreshConnectionTick : ℕ
  waitTimeoutMs : ℕ
  disconnectBit : Bool
  reconnectBit : Bool
  stoppedBit : Bool
  sendPublishPacketCount : ℕ
  receiveMaximum : ℕ
  maxQos : ℕ
  retainAvailable : Bool
  -- the worker task and the calls that have passed their tests before the lock
  pc : TaskPc
  lastRetransmit : ℕ
  userEvents : ℕ
  admitted : List (ApiCall × ℕ)
  -- the environment
  transport : Transport
  allocs : List Bool
  now : ℕ
  ticks : List ℕ
  mqtt5 : List Mqtt5Answer
  creates : List Bool
  scripts : List (List ApiCall)
  -- the history
  connections : ℕ
  calls : ℕ
  origin : Provenance
  /-- The bytes of the payload that a PUBLISH has behind the outbound message. -/
  behind : ℤ
  inCutError : Bool
  inFirstChunk : Bool
  wire : List Chunk
  marks : List Mark
  events : List MqttEvent
  /-- What has been stored, with the identifiers in use at that time. -/
  stored : List (OutboxItem × List ℕ)
  gone : List Departure
  traffic : List Traffic
  /-- How often the SUBACK for a stored SUBSCRIBE came without return codes. -/
  emptySubacks : ℕ
  /-- How often an acknowledgement removed a packet, and its event was to have another identifier. -/
  strayAcks : ℕ
  /-- The aborts of the connection: how many events there had been, and the state of the client. -/
  aborts : List (ℕ × MqttState)

/-- What the event loop runs when the client dispatches `w.event`. -/
abbrev Handler := World → World

namespace World

/-- `platform_tick_get_ms`; time may pass before every call. -/
def tick (w : World) : ℕ × World :=
  match w.ticks with
  | [] => (w.now, w)
  | d :: ds => (w.now+d, {w with now := w.now+d, ticks := ds})

/-- The outcome of the next allocation. -/
def alloc (w : World) : Bool × World :=
  match w.allocs with
  | [] => (true, w)
  | a :: as => (a, {w with allocs := as})

def mqtt5Default : Mqtt5Answer :=
  { encoded := none, fragmentedMsgTotalLength := 0, fragmentedMsgDataOffset := 0, msgId := 0
    connackParsed := false, connectRspCode := 0, serverKeepalive := none, receiveMaximum := 65535
    maxQos := 2, retainAvailable := true, publishData := none, subackData := [] }

/-- The next answer of the v5 codec. -/
def askMqtt5 (w : World) : Mqtt5Answer × World :=
  match w.mqtt5 with
  | [] => (mqtt5Default, w)
  | a :: as => (a, {w with mqtt5 := as})

def isV5 (w : World) : Bool := w.information.protocolVer == .v5

/-- `esp_mqtt_dispatch_event`. -/
def dispatchEvent (H : Handler) (w : World) : World := H {w with events := w.event :: w.events}

/-- `mqtt_get_id` or `mqtt5_get_id` on the first `length` bytes of the input buffer. -/
def receivedId (w : World) (length : ℕ) : ℕ :=
  if w.isV5 then mqtt5GetId w.rx.inBuffer length else mqttGetId w.rx.inBuffer length

/-- `esp_mqtt_dispatch_event_with_msgid`: the identifier is looked for in the
whole input buffer. -/
def dispatchEventWithMsgid (H : Handler) (w : World) : World :=
  dispatchEvent H {w with event := {w.event with msgId := w.receivedId w.rx.inBufferLength}}

/-- `esp_mqtt_client_dispatch_transport_error`. -/
def dispatchTransportError (H : Handler) (w : World) : World :=
  dispatchEventWithMsgid H {w with event :=
    {w.event with id := .error, errorHandle := some ⟨.tcpTransport, 0, 0, 0⟩}}

inductive WriteStatus where
  | ok | fail | timeout
  deriving DecidableEq, Repr

/-- The loop of `esp_mqtt_write`: how it ends and how many bytes went out. Each
round sends at least one byte, so the length is enough fuel. -/
def writeLoop : ℕ → Transport → ℕ → WriteStatus × ℕ × Transport
  | 0, t, _ => (.ok, 0, t)
  | k+1, t, len =>
    if len = 0 then (.ok, 0, t)
    else
      match espTransportWrite t len with
      | (.wrote n, t) =>
        let r := writeLoop k t (len-n)
        (r.1, n+r.2.1, r.2.2)
      | (.error, t) => (.fail, 0, t)
      | (.timeout, t) => (.timeout, 0, t)

/-- How the write of the outbound message ends. -/
def writeOutcome (w : World) : WriteStatus × ℕ × Transport :=
  writeLoop w.connection.outboundMessage.data.length w.transport
    w.connection.outboundMessage.data.length

/-- It fails with part of the packet sent; `first` tells the first chunk of a
packet from the later ones. -/
def isCut (w : World) (first : Bool) : Bool :=
  w.writeOutcome.1 != .ok && (decide (0 < w.writeOutcome.2.1) || !first)

/-- The outbound message as `esp_mqtt_write` gives it to the transport. -/
def chunk (w : World) (site : Site) (first : Bool) : Chunk :=
  { connection := w.connections, events := w.events.length, notes := w.traffic.length
    site := site, first := first
    data := w.connection.outboundMessage.data, sent := w.writeOutcome.2.1
    behind := if site = .publish then w.behind else 0
    msgType := w.connection.outboundMessage.data.head?.bind mqttGetType, origin := w.origin }

/-- The transport and the history behind a write. -/
def recordWrite (w : World) (site : Site) (first : Bool) : World :=
  {w with
    transport := w.writeOutcome.2.2
    wire := w.chunk site first :: w.wire
    marks := if w.isCut first then .cut site :: w.marks else w.marks}

/-- The events raised from here on come from a write that was cut. -/
def inCut (w : World) (b : Bool) : World := {w with inCutError := b}

/-- The events raised from here on come while the outbound message is the first
chunk of a message nobody stored. -/
def inChunk (w : World) (b : Bool) : World := {w with inFirstChunk := b}

/-- `esp_mqtt_write`. A timeout raises no event, an error does. -/
def espMqttWrite (H : Handler) (site : Site) (first : Bool) (w : World) : Bool × World :=
  let w' := w.recordWrite site first
  match w.writeOutcome.1 with
  | .ok => (true, w')
  | .timeout => (false, w')
  | .fail =>
    (false, (dispatchTransportError H (w'.inCut (w.isCut first))).inCut w.inCutError)

/-- `mqtt_reset_pending_message`. -/
def resetPendingMessage (w : World) : World :=
  {w with
    pendingMsgId := 0
    pendingMsgType := none
    pendingPublishQos := 0
    connection := {w.connection with outboundMessage :=
      {w.connection.outboundMessage with fragmentedMsgTotalLength := 0, fragmentedMsgDataOffset := 0}}}

/-- The outbound message as the v5 codec leaves it; the type byte is the one its
`fini_message` writes. -/
def composeMqtt5 (w : World) (type : MsgType) (qos retain : ℕ) : ℕ × World :=
  let a := w.askMqtt5
  let m : OutMessage :=
    { data := (a.1.encoded.map (headerByte type 0 qos retain :: ·)).getD []
      fragmentedMsgTotalLength := a.1.fragmentedMsgTotalLength
      fragmentedMsgDataOffset := a.1.fragmentedMsgDataOffset }
  (a.1.msgId, {a.2 with connection := {a.2.connection with outboundMessage := m}})

/-- A v5 packet with an identifier of its own: both codecs draw it the same way.
One that gives up may do so before it has drawn, and then answers 0. -/
def composeNumbered (w : World) (type : MsgType) (qos retain : ℕ) : ℕ × World :=
  let r := w.composeMqtt5 type qos retain
  let d :=
    if 0 < qos ∧ (r.1 ≠ 0 ∨ r.2.connection.outboundMessage.data ≠ []) then
      r.2.connection.messageId 0
    else (0, r.2.connection)
  (d.1, {r.2 with connection := d.2})

/-- Where the packet in the outbound message comes from. -/
def arising (w : World) (connection : ℕ) (control : Bool) : World :=
  {w with origin := ⟨w.calls, connection, control⟩}

/-- A packet without identifier of its own, 3.1.1 or v5. -/
def compose (w : World) (type : MsgType) (qos : ℕ) (build : Connection → Connection) : World :=
  arising (if w.isV5 then (w.composeMqtt5 type qos 0).2
    else {w with connection := build w.connection}) w.connections true

/-- The message that `esp_mqtt_write` would send is empty. -/
def nothingComposed (w : World) : Bool := w.connection.outboundMessage.data.isEmpty

/-- `mqtt_enqueue`, with the part of the payload that is not in the buffer. -/
def mqttEnqueue (w : World) (remainingData : List UInt8) : Bool × World :=
  let t := w.tick
  let a1 := t.2.alloc
  let a2 := if a1.1 then a1.2.alloc else (false, a1.2)
  let w := a2.2
  let r := w.outbox.enqueue
    ⟨w.connection.outboundMessage.data, remainingData, w.pendingMsgId, w.pendingMsgType,
      w.pendingPublishQos⟩ t.1 a1.1 a2.1 w.origin
  (r.1.isSome, {w with
    outbox := r.2
    stored := (r.2.list.drop w.outbox.list.length).map (·, w.outbox.idsInUse) ++ w.stored})

/-- A smaller outbox: what is missing in it has left. -/
def depart (w : World) (reason : Removal) (o : Outbox) : World :=
  {w with
    outbox := o
    gone := ((w.outbox.list.filter fun x => !o.list.any fun y => y.handle == x.handle).map
      (⟨·, reason, if w.state = .connected then EspMqtt.unacked w.traffic else []⟩)) ++ w.gone}

def noteTraffic (w : World) (t : Traffic) : World := {w with traffic := t :: w.traffic}

/-- `esp_mqtt_abort_connection`. -/
def espMqttAbortConnection (H : Handler) (w : World) : World :=
  let outbox :=
    if w.information.cleanSession then
      (w.outbox.deleteMessageType .subscribe).deleteMessageType .unsubscribe
    else w.outbox
  let t := {w.depart .cleared outbox with
    transport := espTransportClose w.transport
    waitTimeoutMs := w.config.reconnectTimeoutMs}.tick
  dispatchEventWithMsgid H {t.2 with
    reconnectTick := t.1
    state := .waitReconnect
    waitForPingResp := false
    aborts := (w.events.length, w.state) :: t.2.aborts
    event := {t.2.event with id := .disconnected}}

/-! What the small operations leave alone. -/

theorem tick_eq (w : World) : ∃ n l, w.tick = (n, {w with now := n, ticks := l}) := by
  unfold tick
  split
  · exact ⟨_, w.ticks, rfl⟩
  · rename_i d ds _
    exact ⟨_, ds, rfl⟩

theorem alloc_eq (w : World) : ∃ b l, w.alloc = (b, {w with allocs := l}) := by
  unfold alloc
  split
  · exact ⟨_, w.allocs, rfl⟩
  · rename_i a as _
    exact ⟨_, as, rfl⟩

theorem askMqtt5_eq (w : World) : ∃ a l, w.askMqtt5 = (a, {w with mqtt5 := l}) := by
  unfold askMqtt5
  split
  · exact ⟨_, w.mqtt5, rfl⟩
  · rename_i a as _
    exact ⟨_, as, rfl⟩

/-- Storing the outbound message: a new last item, or nothing at all. -/
theorem mqttEnqueue_eq (w : World) (remainingData : List UInt8) :
    ∃ ok n t a o l, w.mqttEnqueue remainingData =
        (ok, {w with now := n, ticks := t, allocs := a, outbox := o, stored := l}) ∧
      (ok = false → o = w.outbox ∧ l = w.stored) ∧
      (ok = true → ∃ x : OutboxItem, x = ⟨w.outbox.nextHandle,
        w.connection.outboundMessage.data ++ remainingData, w.pendingMsgId, w.pendingMsgType,
        w.pendingPublishQos, n, .queued, w.origin⟩ ∧ o = ⟨w.outbox.size+x.buffer.length,
        w.outbox.list ++ [x], w.outbox.nextHandle+1⟩ ∧ l = (x, w.outbox.idsInUse) :: w.stored) := by
  obtain ⟨n,t,ht⟩ := w.tick_eq
  obtain ⟨b1,a1,h1⟩ := {w with now := n, ticks := t}.alloc_eq
  unfold mqttEnqueue
  simp only [ht, h1]
  cases b1 with
  | false =>
    refine ⟨false, n, t, a1, w.outbox, w.stored, ?_, fun _ => ⟨rfl,rfl⟩, fun h => absurd h (by simp)⟩
    simp [Outbox.enqueue]
  | true =>
    obtain ⟨b2,a2,h2⟩ := {w with now := n, ticks := t, allocs := a1}.alloc_eq
    simp only [if_true, h2]
    cases b2 with
    | false =>
      refine ⟨false, n, t, a2, w.outbox, w.stored, ?_, fun _ => ⟨rfl,rfl⟩, fun h => absurd h (by simp)⟩
      simp [Outbox.enqueue]
    | true =>
      refine ⟨true, n, t, a2, _, _, rfl, fun h => absurd h (by simp), fun _ => ⟨_, rfl, rfl, ?_⟩⟩
      simp [Outbox.enqueue]

end World

end EspMqtt
