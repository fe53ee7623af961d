import EspMqtt.Client

/-! The life of the client: `esp_mqtt_client_start` and `esp_mqtt_client_stop` called
from any number of tasks, against the worker's own steps. Every access to what
they share (`run`, `state`, `stopping`, `task_handle`, the STOPPED bit and the lock)
is a step of its own. -/
namespace EspMqtt

/-- Where a worker stands in `esp_mqtt_task`. -/
inductive WorkerPc where
  /-- Not created yet. -/
  | unborn
  /-- At `while (client->run)`. -/
  | test
  /-- At the `MQTT_API_LOCK` of the loop, or of `esp_mqtt_abort_connection` after a
  failed poll of the transport. -/
  | locking (abort : Bool)
  /-- Behind that lock. -/
  | locked (abort : Bool)
  /-- Behind that lock, in an event handler that makes call `i`. -/
  | calling (abort : Bool) (i : ℕ)
  /-- Behind the `MQTT_API_UNLOCK` of the loop. -/
  | polling
  /-- Out of the loop. -/
  | closing
  | clearing
  | signalling
  /-- The STOPPED bit is set; only `vTaskDelete` is left. -/
  | gone
  deriving DecidableEq, Repr

/-- The worker exists and may still touch the client. -/
def WorkerPc.alive : WorkerPc → Bool
  | .unborn | .gone => false
  | _ => true

/-- Where a call stands. The number a joining stop carries is the worker it joins,
kept for statements; the source has only `task_handle`. -/
inductive CallPc where
  | idle
  | startLock | startCheck | startRun | startState | startClear | startCreate
  | undoRun | undoHandle | undoState
  | stopLock | stopCheck | stopSelf | stopMark
  | stopRun (k : ℕ) | stopState (k : ℕ) | stopUnlock (k : ℕ) | stopWait (k : ℕ)
  | stopRelock (k : ℕ) | stopClear (k : ℕ) | stopDone (k : ℕ) | stopRelease (k : ℕ)
  /-- About to unlock and return `ESP_OK` or `ESP_FAIL`. -/
  | unlock (ok : Bool)
  | returned (ok : Bool)
  /-- A stop that returned `ESP_OK`. -/
  | stopped (k : ℕ)
  deriving DecidableEq, Repr

/-- The task that holds the lock: the one that makes call `i`, or a worker. -/
inductive Holder where
  | call (i : ℕ)
  | worker (k : ℕ)
  deriving DecidableEq, Repr

/-- The shared state, the workers in the order of their creation, and the calls.
`caller i` is the worker whose handler makes call `i`, if one does. -/
structure Life where
  run : Bool
  state : MqttState
  stopping : Bool
  taskHandle : Option ℕ
  stoppedBit : Bool
  lock : Option Holder
  created : ℕ
  workers : ℕ → WorkerPc
  calls : ℕ → CallPc
  caller : ℕ → Option ℕ

/-- A client that was created and never started. -/
def Life.fresh : Life :=
  { run := false, state := .init, stopping := false, taskHandle := none, stoppedBit := false
    lock := none, created := 0, workers := fun _ => .unborn, calls := fun _ => .idle
    caller := fun _ => none }

namespace Life

def goto (s : Life) (i : ℕ) (pc : CallPc) : Life := {s with calls := Function.update s.calls i pc}

def move (s : Life) (k : ℕ) (pc : WorkerPc) : Life :=
  {s with workers := Function.update s.workers k pc}

/-- The task that makes call `i`. -/
def holder (s : Life) (i : ℕ) : Holder :=
  match s.caller i with
  | none => .call i
  | some k => .worker k

/-- `MQTT_API_LOCK` in call `i`; the lock is recursive. -/
def acquire (s : Life) (i : ℕ) : Option Life :=
  match s.caller i, s.lock with
  | none, none => some {s with lock := some (.call i)}
  | some k, some (.worker k') => if k = k' then some s else none
  | _, _ => none

/-- `MQTT_API_UNLOCK` in call `i`. -/
def release (s : Life) (i : ℕ) : Life :=
  match s.caller i with
  | none => {s with lock := none}
  | some _ => s

/-- The next step of call `i`; `created` is what `xTaskCreate` answers. -/
def callStep (s : Life) (i : ℕ) (created : Bool) : Option Life :=
  match s.calls i with
  | .idle => none
  | .startLock => (s.acquire i).map fun s => s.goto i .startCheck
  | .startCheck =>
    if s.taskHandle.isSome || (s.state != .init && s.state != .disconnected) then
      some (s.goto i (.unlock false))
    else some (s.goto i .startRun)
  | .startRun => some ({s with run := true}.goto i .startState)
  | .startState => some ({s with state := .init}.goto i .startClear)
  | .startClear => some ({s with stoppedBit := false}.goto i .startCreate)
  | .startCreate =>
    if created then
      some (({s with taskHandle := some s.created, created := s.created+1}.move s.created
        .test).goto i (.unlock true))
    else some (s.goto i .undoRun)
  | .undoRun => some ({s with run := false}.goto i .undoHandle)
  | .undoHandle => some ({s with taskHandle := none}.goto i .undoState)
  | .undoState => some ({s with state := .disconnected}.goto i (.unlock false))
  | .stopLock => (s.acquire i).map fun s => s.goto i .stopCheck
  | .stopCheck =>
    if s.taskHandle.isSome && !s.stopping then some (s.goto i .stopSelf)
    else some (s.goto i (.unlock false))
  | .stopSelf =>
    -- `running_task == client->task_handle`; the DISCONNECT message touches nothing here
    if (s.caller i).isSome && s.caller i == s.taskHandle then some (s.goto i (.unlock false))
    else some (s.goto i .stopMark)
  | .stopMark => some ({s with stopping := true}.goto i (.stopRun (s.taskHandle.getD 0)))
  | .stopRun k => some ({s with run := false}.goto i (.stopState k))
  | .stopState k => some ({s with state := .disconnected}.goto i (.stopUnlock k))
  | .stopUnlock k => some ((s.release i).goto i (.stopWait k))
  | .stopWait k => if s.stoppedBit then some (s.goto i (.stopRelock k)) else none
  | .stopRelock k => (s.acquire i).map fun s => s.goto i (.stopClear k)
  | .stopClear k => some ({s with taskHandle := none}.goto i (.stopDone k))
  | .stopDone k => some ({s with stopping := false}.goto i (.stopRelease k))
  | .stopRelease k => some ((s.release i).goto i (.stopped k))
  | .unlock ok => some ((s.release i).goto i (.returned ok))
  | .returned _ => none
  | .stopped _ => none

/-- A task that is not the worker makes call `i`. -/
def beginCall (s : Life) (i : ℕ) (stop : Bool) : Option Life :=
  if s.calls i = .idle ∧ s.caller i = none then
    some (s.goto i (if stop then .stopLock else .startLock))
  else none

end Life

/-- The changes of `client->state` in the loop of `esp_mqtt_task`. -/
def taskChange : MqttState → MqttState → Bool
  | .init, .connected => true
  | .init, .waitReconnect => true
  | .connected, .waitReconnect => true
  | .connected, .init => true
  | .waitReconnect, .init => true
  | _, _ => false

/-- What a worker does next, where the source leaves it a choice: go on, change the
state, give up without a transport, find the transport dead, or make a call from a
handler. -/
inductive WorkerAct where
  | next
  | change (state : MqttState)
  | giveUp
  | pollFails
  | handler (i : ℕ) (stop : Bool)
  deriving DecidableEq, Repr

/-- A call that is over. -/
def CallPc.over : CallPc → Bool
  | .returned _ | .stopped _ => true
  | _ => false

namespace Life

def workerNext (s : Life) (k : ℕ) : Option Life :=
  match s.workers k with
  | .unborn => none
  | .test => some (s.move k (if s.run then .locking false else .closing))
  | .locking abort =>
    match s.lock with
    | none => some ({s with lock := some (.worker k)}.move k (.locked abort))
    | some _ => none
  | .locked abort =>
    some ({s with lock := none}.move k (if abort then .test else .polling))
  | .calling abort i => if (s.calls i).over then some (s.move k (.locked abort)) else none
  | .polling => some (s.move k .test)
  | .closing => some (s.move k .clearing)
  | .clearing => some ({s with state := .disconnected}.move k .signalling)
  | .signalling => some ({s with stoppedBit := true}.move k .gone)
  | .gone => none

/-- The next step of worker `k`. -/
def workerStep (s : Life) (k : ℕ) : WorkerAct → Option Life
  | .next => s.workerNext k
  | .change st =>
    match s.workers k with
    | .locked false => if taskChange s.state st then some {s with state := st} else none
    | .locked true => if st = .waitReconnect then some {s with state := st} else none
    | _ => none
  | .giveUp =>
    if s.workers k = .locked false ∧ s.state = .init then some {s with run := false} else none
  | .pollFails =>
    if s.workers k = .polling ∧ s.state = .connected then some (s.move k (.locking true))
    else none
  | .handler i stop =>
    match s.workers k with
    | .locked abort =>
      if s.calls i = .idle ∧ s.caller i = none then
        some (({s with caller := Function.update s.caller i (some k)}.move k
          (.calling abort i)).goto i (if stop then .stopLock else .startLock))
      else none
    | _ => none

end Life

/-- One step of the system. -/
inductive LifeStep where
  | begin (i : ℕ) (stop : Bool)
  | call (i : ℕ) (created : Bool)
  | worker (k : ℕ) (act : WorkerAct)
  deriving DecidableEq, Repr

/-- A step; one that cannot be taken changes nothing. -/
def Life.step (s : Life) : LifeStep → Life
  | .begin i stop => (s.beginCall i stop).getD s
  | .call i created => (s.callStep i created).getD s
  | .worker k act => (s.workerStep k act).getD s

def Life.runs (s : Life) (ss : List LifeStep) : Life := ss.foldl Life.step s

end EspMqtt
