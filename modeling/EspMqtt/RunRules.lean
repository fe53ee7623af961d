import EspMqtt.WorkerRules

/-! The rules carried to every run: what starting, stopping and the turns of the
worker add to them. -/
namespace EspMqtt
open World

/-- What only starting, stopping and the worker's own turns change. -/
def Framed (i : TaskPc × Bool × Bool) (c : Core) : Prop :=
  c.pc = i.1 ∧ c.taskHandle = i.2.1 ∧ c.stoppedBit = i.2.2

def frameRules : Rules (TaskPc × Bool × Bool) where
  P := Framed
  Q := Framed
  R i _ _ := Framed i
  M i _ := Framed i
  L i _ _ := Framed i
  Top _ := True
  relax h := h
  settle h := h
  sent _ h _ := h
  timedOut h _ := ⟨h, fun _ => h⟩
  failed {i} _ _ _ h _ := ⟨i, h, fun _ h' => ⟨h', fun _ => h'⟩⟩
  aborted h := h
  control _ _ _ h _ := h
  controlMqtt5 _ _ _ h _ _ _ := h
  load _ h _ _ _ := h
  outbox h _ := h
  outboxR h _ := h
  reset h := h
  connecting h _ _ := h
  connected _ h _ := h
  reinit h _ := h
  begins h := h
  setConfig h := h
  enqueue {_ topic d len qos retain store seen w} h := by
    rcases espMqttClientEnqueue_core (w.beginCall (.enqueue topic d len qos retain store) seen) topic d
      len qos retain store with he | he
    · rw [he]
      exact h
    · obtain ⟨c,o,ms,_,hc,-⟩ := mqttClientEnqueuePublish_core
        (w.beginCall (.enqueue topic d len qos retain store) seen) topic d (effectiveLen d len) qos
        retain store
      rw [he, hc]
      exact h
  publish {_ topic d len qos retain seen w} h r hr := by
    obtain ⟨c,o,ms,_,hc,-⟩ := mqttClientEnqueuePublish_core
      (w.beginCall (.publish topic d len qos retain) seen) topic d (effectiveLen d len) qos retain false
    rw [hr] at hc
    rw [hc]
    exact ⟨fun _ => h, fun _ => h⟩
  unsent h := h
  cleared h := h
  overQuota h _ := h
  firstChunk {i} _ _ _ h _ _ := ⟨i, h, fun v hv _ => hv ▸ h, fun _ h' => h'⟩
  nextChunk h _ _ _ := ⟨h, fun v hv _ => hv ▸ h⟩
  lastChunk h _ := h
  request {i c _ type build seen w} _ h w1 hw1 := by
    obtain ⟨e,he,-⟩ := composeRequest_core (w.beginCall c seen).resetPendingMessage type seen build
    rw [← hw1] at he
    have h1 : Framed i w1.core := by
      rw [he]
      exact h
    exact ⟨h1, fun _ _ => h1⟩

theorem framed_self (w : World) : frameRules.P (w.pc, w.taskHandle, w.stoppedBit) w.core :=
  ⟨rfl,rfl,rfl⟩

/-- A worker that is not there is not connected, and there is none before the
client is started and after it has been joined. -/
structure Lifecycle (c : Core) : Prop where
  idle : c.taskHandle = false → c.pc = .none
  ended : c.stoppedBit = true → c.pc = .none
  alive : c.state = .connected → c.pc ≠ .none

/-- A turn of the worker: none, the last one, or one that leaves it at `p`. -/
theorem taskStep_cases (H : Handler) (pollError : Bool) (w : World) :
    taskStep H pollError w = w ∨ taskStep H pollError w = w.taskExit ∨
    (w.pc ≠ .none ∧ ∃ p v, p ≠ TaskPc.none ∧ taskStep H pollError w = {v with pc := p} ∧
      (v = w ∨ v = Rules.taskWork H w ∨ v = espMqttAbortConnection H w)) := by
  unfold taskStep
  cases hp : w.pc with
  | none => exact Or.inl rfl
  | head =>
    dsimp only
    split
    · exact Or.inr (Or.inr ⟨by simp, .body, w, by simp, rfl, Or.inl rfl⟩)
    · exact Or.inr (Or.inl rfl)
  | body =>
    obtain ⟨p,hne,heq⟩ := Rules.taskPass_eq H w
    exact Or.inr (Or.inr ⟨by simp, p, Rules.taskWork H w, hne, heq, Or.inr (Or.inl rfl)⟩)
  | unlocked =>
    exact Or.inr (Or.inr ⟨by simp, if w.state = .connected then .polling else .head, w,
      by split <;> simp, rfl, Or.inl rfl⟩)
  | polling =>
    dsimp only
    split
    · exact Or.inr (Or.inr ⟨by simp, .head, _, by simp, rfl, Or.inr (Or.inr rfl)⟩)
    · exact Or.inr (Or.inr ⟨by simp, .head, w, by simp, rfl, Or.inl rfl⟩)

/-- `esp_mqtt_client_stop` on a connected client: a DISCONNECT, then the state. -/
theorem espMqttClientStop_core (H : Handler) (w : World) :
    (espMqttClientStop H w).core = w.core ∨
    (w.state = .connected ∧ (espMqttClientStop H w).core =
      {sendDisconnectMsg H w with state := .disconnected}.core) ∨
    (w.state ≠ .connected ∧ (espMqttClientStop H w).core = {w with state := .disconnected}.core) := by
  unfold espMqttClientStop
  split
  · dsimp only
    by_cases hc : w.state = .connected
    · rw [if_pos hc]
      exact Or.inr (Or.inl ⟨hc,rfl⟩)
    · rw [if_neg hc]
      exact Or.inr (Or.inr ⟨hc,rfl⟩)
  · exact Or.inl rfl

theorem lifecycle_of_framed {w v : World} (h : Lifecycle w.core)
    (hf : Framed (w.pc, w.taskHandle, w.stoppedBit) v.core)
    (hs : v.state = .connected → w.state = .connected) : Lifecycle v.core where
  idle ht := hf.1.trans (h.idle (hf.2.1.symm.trans ht))
  ended ht := hf.1.trans (h.ended (hf.2.2.symm.trans ht))
  alive hc := fun he => h.alive (hs hc) (hf.1.symm.trans he)

/-- Every step keeps the life cycle. -/
theorem step_lifecycle (n : ℕ) (w : World) (s : ClientStep) (h : Lifecycle w.core) :
    Lifecycle (w.step (handlerAt n) s).core := by
  have K := frameRules.toApiRules.handlerAt_keeps n
  -- the calls of the API keep the worker's place; start, stop and the worker itself are the cases
  cases s with
  | check c =>
    dsimp only [World.step]
    split <;> exact h
  | body k =>
    dsimp only [World.step]
    split
    · exact h
    · rename_i c seen _
      apply lifecycle_of_framed h (ApiRules.apiBody_rule K c seen
        (framed_self {w with admitted := w.admitted.eraseIdx k}))
      intro hc
      rcases ApiRules.apiBody_state K c seen {w with admitted := w.admitted.eraseIdx k} with hs | ⟨-,hs⟩
      · exact hs.symm.trans hc
      · exact absurd (hs.symm.trans hc) (by decide)
  | start created =>
    dsimp only [World.step, espMqttClientStart]
    split
    · exact h
    · rename_i hguard
      rw [not_or] at hguard
      have hhandle : w.taskHandle = false := by simpa using hguard.1
      split
      · exact ⟨fun ht => absurd ht (by decide : true ≠ false), fun ht => absurd ht
          (by decide : false ≠ true), fun ht => absurd ht (by decide : MqttState.init ≠ .connected)⟩
      · exact ⟨h.idle, fun _ => h.idle hhandle, fun ht => absurd ht
          (by decide : MqttState.disconnected ≠ .connected)⟩
  | stop =>
    have hdisc (v : World) (hf : Framed (w.pc, w.taskHandle, w.stoppedBit) v.core) :
        Lifecycle {v with state := .disconnected}.core :=
      lifecycle_of_framed h hf fun hc => absurd hc (by decide : MqttState.disconnected ≠ .connected)
    dsimp only [World.step]
    rcases espMqttClientStop_core (handlerAt n) w with he | ⟨hc,he⟩ | ⟨-,he⟩
    · rw [he]
      exact h
    · rw [he]
      exact hdisc _ (Rules.sendDisconnectMsg_doomed K trivial
        ⟨framed_self w, fun hd => absurd (hc.symm.trans hd) (by decide)⟩).1
    · rw [he]
      exact hdisc w (framed_self w)
  | stopped =>
    dsimp only [World.step]
    split
    · rename_i hbit
      exact ⟨fun _ => h.ended hbit.2, h.ended, h.alive⟩
    · exact h
  | customEvent => exact h
  | task pollError =>
    dsimp only [World.step]
    rcases taskStep_cases (handlerAt n) pollError w with he | he | ⟨hpc,p,v,hp,he,hv⟩
    · rw [he]
      exact h
    · rw [he]
      exact ⟨fun _ => rfl, fun _ => rfl, fun ht => absurd ht
        (by decide : MqttState.disconnected ≠ .connected)⟩
    · have hf : Framed (w.pc, w.taskHandle, w.stoppedBit) v.core := by
        rcases hv with hv | hv | hv
        · rw [hv]
          exact framed_self w
        · rw [hv]
          exact Rules.taskWork_rule K trivial (framed_self w)
        · rw [hv]
          exact ApiRules.espMqttAbortConnection_rule K (framed_self w)
      rw [he]
      exact ⟨fun ht => absurd (h.idle (hf.2.1.symm.trans ht)) hpc,
        fun ht => absurd (h.ended (hf.2.2.symm.trans ht)) hpc, fun _ => hp⟩

theorem init_lifecycle (s : Settings) (incremental : Bool) (e : Environment) :
    Lifecycle (clientInit s incremental e).core :=
  ⟨fun _ => rfl, fun _ => rfl, fun hc => absurd hc (by decide : MqttState.init ≠ .connected)⟩

theorem run_lifecycle (s : Settings) (incremental : Bool) (e : Environment) (n : ℕ)
    (ss : List ClientStep) : Lifecycle (clientRun s incremental e n ss).core :=
  steps_induction (handlerAt n) (fun w => Lifecycle w.core) (fun w st h => step_lifecycle n w st h) ss _
    (init_lifecycle s incremental e)

/-- A run goes on where its first part has ended. -/
theorem clientRun_append (s : Settings) (incremental : Bool) (e : Environment) (n : ℕ)
    (ss ss' : List ClientStep) : clientRun s incremental e n (ss ++ ss') =
      (clientRun s incremental e n ss).steps (handlerAt n) ss' := List.foldl_append

/-- The rules of a predicate that holds along every run. -/
structure RunRules (ι : Type) extends Rules ι where
  moves {i p} {w : World} : P i w.core → w.pc ≠ .none → p ≠ .none → P i {w with pc := p}.core
  exits {i} {w : World} : P i w.core → P i w.taskExit.core
  starts {i} {w : World} : P i w.core → w.pc = .none → w.state ≠ .connected → P i {w with
    state := .init, stoppedBit := false, taskHandle := true, pc := .head}.core
  refuses {i} {w : World} : P i w.core → w.state ≠ .connected → P i {w with
    state := .disconnected, stoppedBit := false}.core
  stops {i} {w : World} : Q i w.core → w.pc ≠ .none → P i {w with state := .disconnected}.core
  idles {i} {w : World} : P i w.core → w.state ≠ .connected → P i {w with state := .disconnected}.core
  joins {i} {w : World} : P i w.core → P i {w with taskHandle := false}.core

namespace RunRules

variable {ι : Type} (D : RunRules ι) {i : ι} {n : ℕ} {w : World}

/-- One step of the client. -/
theorem step_rule (ht : D.Top i) (hl : Lifecycle w.core) (h : D.P i w.core) (s : ClientStep) :
    D.P i (w.step (handlerAt n) s).core := by
  have K := D.toApiRules.handlerAt_keeps n
  -- one rule of `D` for each kind of step
  cases s with
  | check c =>
    dsimp only [World.step]
    split <;> exact h
  | body k =>
    dsimp only [World.step]
    split
    · exact h
    · rename_i c seen _
      exact ApiRules.apiBody_rule (w := {w with admitted := w.admitted.eraseIdx k}) K c seen h
  | start created =>
    dsimp only [World.step, espMqttClientStart]
    split
    · exact h
    · rename_i hguard
      rw [not_or] at hguard
      have hs : w.state ≠ .connected := by
        intro hc
        apply hguard.2
        rw [hc]
        decide
      split
      · have hhandle : w.taskHandle = false := by simpa using hguard.1
        exact D.starts h (hl.idle hhandle) hs
      · exact D.refuses h hs
  | stop =>
    rcases espMqttClientStop_core (handlerAt n) w with he | ⟨hc,he⟩ | ⟨hc,he⟩
    · dsimp only [World.step]
      rw [he]
      exact h
    · have hlive : D.Live i w.core := ⟨h, fun hd => absurd (hc.symm.trans hd) (by decide)⟩
      have hpc : (sendDisconnectMsg (handlerAt n) w).pc = w.pc :=
        (Rules.sendDisconnectMsg_doomed (frameRules.toApiRules.handlerAt_keeps n) trivial
          ⟨framed_self w, hlive.2⟩).1.1
      dsimp only [World.step]
      rw [he]
      exact D.stops (Rules.sendDisconnectMsg_doomed K ht hlive).1 (hpc ▸ hl.alive hc)
    · dsimp only [World.step]
      rw [he]
      exact D.idles h hc
  | stopped =>
    dsimp only [World.step]
    split
    · exact D.joins h
    · exact h
  | customEvent => exact h
  | task pollError =>
    dsimp only [World.step]
    rcases taskStep_cases (handlerAt n) pollError w with he | he | ⟨hpc,p,v,hp,he,hv⟩
    · rw [he]
      exact h
    · rw [he]
      exact D.exits h
    · rw [he]
      rcases hv with rfl | rfl | rfl
      · exact D.moves h hpc hp
      · have hframe := Rules.taskWork_rule (frameRules.toApiRules.handlerAt_keeps n) trivial (framed_self w)
        exact D.moves (Rules.taskWork_rule K ht h) (fun he => hpc (hframe.1.symm.trans he)) hp
      · have hframe := ApiRules.espMqttAbortConnection_rule (frameRules.toApiRules.handlerAt_keeps n) (framed_self w)
        exact D.moves (ApiRules.espMqttAbortConnection_rule K (D.relax h))
          (fun he => hpc (hframe.1.symm.trans he)) hp

/-- Any number of them. -/
theorem steps_rule (ht : D.Top i) (hl : Lifecycle w.core) (h : D.P i w.core) (ss : List ClientStep) :
    Lifecycle (w.steps (handlerAt n) ss).core ∧ D.P i (w.steps (handlerAt n) ss).core :=
  steps_induction (handlerAt n) (fun w => Lifecycle w.core ∧ D.P i w.core)
    (fun w s hw => ⟨step_lifecycle n w s hw.1, D.step_rule ht hw.1 hw.2 s⟩) ss w ⟨hl,h⟩

/-- What follows the rules and holds of a new client holds in every run. -/
theorem run_rule (s : Settings) (incremental : Bool) (e : Environment) (n : ℕ)
    (ss : List ClientStep) (ht : D.Top i) (h : D.P i (clientInit s incremental e).core) :
    D.P i (clientRun s incremental e n ss).core :=
  (D.steps_rule ht (init_lifecycle s incremental e) h ss).2

/-- What holds at one point of a run holds from then on. -/
theorem append_rule (s : Settings) (incremental : Bool) (e : Environment) (n : ℕ)
    (ss ss' : List ClientStep) (ht : D.Top i) (h : D.P i (clientRun s incremental e n ss).core) :
    D.P i (clientRun s incremental e n (ss ++ ss')).core := by
  rw [clientRun_append]
  exact (D.steps_rule ht (run_lifecycle s incremental e n ss) h ss').2

end RunRules

end EspMqtt
