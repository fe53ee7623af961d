import EspMqtt.ClientTask

/-! Runs of the client: user tasks and the worker task take turns. What a task
does under the API lock is one step; the tests a call makes before it takes the
lock, and the places where the worker has let go of it, are steps of their own. -/
namespace EspMqtt

inductive ClientStep where
  /-- A user task makes the tests in front of the lock. -/
  | check (c : ApiCall)
  /-- The call admitted at this place gets the lock. -/
  | body (i : ℕ)
  /-- `esp_mqtt_client_start`, with the outcome of the task creation. -/
  | start (created : Bool)
  /-- `esp_mqtt_client_stop` up to the wait for the worker. -/
  | stop
  /-- `esp_mqtt_client_stop` behind that wait. -/
  | stopped
  /-- `esp_mqtt_dispatch_custom_event`. -/
  | customEvent
  /-- The worker goes on; a failing `esp_transport_poll_read` is `pollError`. -/
  | task (pollError : Bool)

namespace World

/-- The worker behind its loop. -/
def taskExit (w : World) : World :=
  {w.depart .stopped w.outbox.deleteAllItems with
    transport := espTransportClose w.transport
    state := .disconnected
    stoppedBit := true
    pc := .none}

def taskStep (H : Handler) (pollError : Bool) (w : World) : World :=
  match w.pc with
  | .none => w
  | .head => if w.run then {w with pc := .body} else w.taskExit
  | .body => taskPass H w
  | .unlocked => {w with pc := if w.state = .connected then .polling else .head}
  | .polling =>
    if pollError then {espMqttAbortConnection H w with pc := .head} else {w with pc := .head}

/-- `esp_mqtt_client_start`. -/
def espMqttClientStart (created : Bool) (w : World) : World :=
  if w.taskHandle ∨ (w.state ≠ .init ∧ w.state ≠ .disconnected) then w
  else if created then
    {w with run := true, state := .init, stoppedBit := false, taskHandle := true, pc := .head
            lastRetransmit := 0}
  else {w with run := false, state := .disconnected, stoppedBit := false}

/-- `esp_mqtt_client_stop` from another task than the worker. -/
def espMqttClientStop (H : Handler) (w : World) : World :=
  if w.taskHandle ∧ w.stopping = false then
    let w := if w.state = .connected then sendDisconnectMsg H w else w
    {w with stopping := true, run := false, state := .disconnected}
  else w

def step (H : Handler) (w : World) : ClientStep → World
  | .check c => if (w.apiCheck c).isSome then w else {w with admitted := (c, w.connections) :: w.admitted}
  | .body i =>
    match w.admitted[i]? with
    | none => w
    | some (c, seen) => (apiBody H c seen {w with admitted := w.admitted.eraseIdx i}).2
  | .start created => w.espMqttClientStart created
  | .stop => espMqttClientStop H w
  | .stopped =>
    if w.stopping ∧ w.stoppedBit then {w with taskHandle := false, stopping := false} else w
  | .customEvent => {w with userEvents := w.userEvents+1}
  | .task pollError => taskStep H pollError w

def steps (H : Handler) (w : World) (ss : List ClientStep) : World := ss.foldl (step H) w

/-- What the environment will answer to a new client. -/
structure Environment where
  transport : Transport
  allocs : List Bool
  now : ℕ
  ticks : List ℕ
  mqtt5 : List Mqtt5Answer
  creates : List Bool
  scripts : List (List ApiCall)
  randoms : List ℕ

/-- `esp_mqtt_client_init`, and no call made yet. -/
def clientInit (s : Settings) (msgIdIncremental : Bool) (e : Environment) : World where
  config := s.config
  information := s.information
  state := .init
  run := false
  taskHandle := false
  stopping := false
  connection := ⟨⟨[], 0, 0⟩, 0, s.bufferLength, msgIdIncremental, e.randoms⟩
  pendingMsgId := 0
  pendingMsgType := none
  pendingPublishQos := 0
  outbox := .init
  rx := ⟨s.inBuffer, s.inBuffer.length, 0, 0⟩
  event := ⟨.other, 0, none, 0, none, 0, 0, 0, 0, false, false, none⟩
  waitForPingResp := false
  keepaliveTick := e.now
  reconnectTick := e.now
  refreshConnectionTick := e.now
  waitTimeoutMs := 0
  disconnectBit := false
  reconnectBit := false
  stoppedBit := false
  sendPublishPacketCount := 0
  receiveMaximum := 65535
  maxQos := 2
  retainAvailable := true
  pc := .none
  lastRetransmit := 0
  userEvents := 0
  admitted := []
  transport := e.transport
  allocs := e.allocs
  now := e.now
  ticks := e.ticks
  mqtt5 := e.mqtt5
  creates := e.creates
  scripts := e.scripts
  connections := 0
  calls := 0
  origin := ⟨0, 0, false⟩
  behind := 0
  inCutError := false
  inFirstChunk := false
  wire := []
  marks := []
  events := []
  stored := []
  gone := []
  traffic := []
  emptySubacks := 0
  strayAcks := 0
  aborts := []

/-- A client after the steps `ss`; its handlers make calls that nest up to `depth`. -/
def clientRun (s : Settings) (msgIdIncremental : Bool) (e : Environment) (depth : ℕ)
    (ss : List ClientStep) : World :=
  (clientInit s msgIdIncremental e).steps (handlerAt depth) ss

/-- Preserved by every step is preserved by every run. -/
theorem steps_induction (H : Handler) (P : World → Prop)
    (hstep : ∀ w s, P w → P (w.step H s)) (ss : List ClientStep) (w : World) (h : P w) :
    P (w.steps H ss) := by
  induction ss generalizing w with
  | nil => exact h
  | cons s ss ih => exact ih (w.step H s) (hstep w s h)

end World

/-- A 3.1.1 client with a clean session and a 32-byte output buffer. -/
def smallSettings : Settings where
  config := ⟨0, 10000, 10000, 0, 1000, 30000, true, false, false⟩
  information := ⟨some [0x61], none, none, none, [], 0, false, 120, true, .v311⟩
  bufferLength := 32
  inBuffer := List.replicate 64 0

/-- No allocation fails, no time passes and no handler makes a call. -/
def plainEnvironment (connects : List (Option (List UInt8))) (reads : List ReadChoice)
    (writes : List WriteChoice) : World.Environment where
  transport := ⟨false, [], reads, writes, connects⟩
  allocs := []
  now := 0
  ticks := []
  mqtt5 := []
  creates := []
  scripts := []
  randoms := [7, 8]

/-- A C buffer with these bytes, and junk around it. -/
def cBytes (bs : List UInt8) : CData where
  isNull := false
  mem := fun i => if 0 ≤ i then bs.getD i.toNat 0xee else 0xdd
  strlen := bs.length

/-- A broker that accepts the connection and then sends `bytes`. -/
def brokerSending (bytes : List UInt8) : World.Environment :=
  plainEnvironment [some ([0x20, 2, 0, 0] ++ bytes)] (List.replicate 9 (.chunk 9)) []

/-- The steps that lead to a connection. -/
def connectSteps : List ClientStep := [.start true, .task false, .task false]

/-- A turn of a connected worker that goes once around its loop. -/
def passSteps : List ClientStep := List.replicate 4 (.task false)

/-- What holds between the client before and after each call of the API, under
handlers for which it holds, holds for handlers of every depth. -/
theorem handlerAt_induction {R : World → World → Prop} (hrefl : ∀ w, R w w)
    (htrans : ∀ {u v w}, R u v → R v w → R u w) (hscripts : ∀ w l, R w {w with scripts := l})
    (hcall : ∀ H : Handler, (∀ v, R v (H v)) → ∀ c w, R w (World.apiCall H c w).2)
    (n : ℕ) (w : World) : R w (handlerAt n w) := by
  induction n generalizing w with
  | zero => exact hrefl w
  | succ n ih =>
    -- the calls of one handler, one after the other
    have hcalls (calls : List ApiCall) (w : World) :
        R w (calls.foldl (fun w c => (World.apiCall (handlerAt n) c w).2) w) := by
      induction calls generalizing w with
      | nil => exact hrefl w
      | cons c calls ihc => exact htrans (hcall (handlerAt n) ih c w) (ihc _)
    unfold handlerAt
    split
    · exact hrefl w
    · exact htrans (hscripts w _) (hcalls _ _)

/-- A v5 client that keeps its session and reconnects when it is told to. -/
def v5Settings : Settings :=
  {smallSettings with
    config := {smallSettings.config with autoReconnect := false}
    information := {smallSettings.information with cleanSession := false, protocolVer := .v5}}

/-! What the v5 codec answers: bytes behind a type byte, a CONNECT and the CONNACK for it,
a PUBLISH of `x` to `t`. -/

def answerBytes (bytes : List UInt8) : Mqtt5Answer := {World.mqtt5Default with encoded := some bytes}

def answerConnect (receiveMaximum : ℕ) : List Mqtt5Answer :=
  [answerBytes [14, 0, 4, 0x4d, 0x51, 0x54, 0x54, 5, 0, 0, 120, 0, 0, 1, 0x61],
    {World.mqtt5Default with connackParsed := true, receiveMaximum := receiveMaximum}]

def answerPublish (msgId : UInt8) : Mqtt5Answer := answerBytes [7, 0, 1, 0x74, 0, msgId, 0, 0x78]

end EspMqtt
