import EspMqtt.ConnectionLine
import EspMqtt.RunRules

/-! What the turns of the worker show of a connection, and with them every step of
the client: moves, an abort, or an attempt to connect that fails or is accepted. -/
namespace EspMqtt
open World Line Relation

namespace Line

/-- Connecting: moves, and the CONNECT on a transport that has just been opened. -/
inductive Dial : Line → Line → Prop where
  | move {L L'} (h : Move L L') : Dial L L'
  | connect {L} (c : Chunk) (hs : c.site = .connect) (hn : c.events = L.events.length) :
      Dial L {L with isOpen := true, wire := c :: L.wire}

abbrev Dials (L L' : Line) : Prop := ReflTransGen Dial L L'

theorem Moves.dials {L L' : Line} (h : Moves L L') : Dials L L' :=
  ReflTransGen.mono (fun _ _ => Dial.move) _ _ h

/-- An attempt reports nothing of the connection before it has ended. -/
theorem Dials.reports {L L' : Line} (h : Dials L L') (hs : L.state = .init) :
    L'.state = .init ∧ ∃ l, L'.events = l ++ L.events ∧
      ∀ e ∈ l, e.id ≠ .connected ∧ e.id ≠ .disconnected := by
  induction h with
  | refl => exact ⟨hs, [], rfl, by simp⟩
  | tail _ hm ih =>
    obtain ⟨hinit,l,hl,hnone⟩ := ih
    cases hm with
    | connect c => exact ⟨hinit, l, hl, hnone⟩
    | move hm =>
      obtain ⟨l',hreports⟩ := hm.reports
      have hdown := hreports.down (by simp [Up, hinit])
      refine ⟨hdown.1.trans hinit, l' ++ l, ?_, fun e he => ?_⟩
      · rw [hreports.events, hl, List.append_assoc]
      · rcases List.mem_append.mp he with he | he
        · exact ⟨hreports.unconnected e he, hdown.2 e he⟩
        · exact hnone e he

end Line

/-- What a run notes about its connections. -/
inductive Note where
  /-- `esp_mqtt_client_start` starts the client. -/
  | start
  /-- The client is stopped, or its worker ends. -/
  | stop
  /-- The worker sets out to connect. -/
  | attempt
  | connected
  /-- A DISCONNECTED, with the state of the client that the abort behind it found. -/
  | disconnected (found : Option MqttState)
  deriving DecidableEq, Repr

namespace Line

/-- What one step does to a connection; the note tells the beginning of an attempt
and of a client's life, and its end. -/
inductive Turn (L : Line) : Option Note → Line → Prop where
  | moves {L'} (h : Moves L L') : Turn L none L'
  | again {L'} (h : Moves L L') (hs : L'.state = .waitReconnect) : Turn L none {L' with state := .init}
  /-- An abort at any time. -/
  | polled {L'} (e : MqttEvent) (he : e.id = .disconnected) (h : Moves (L.aborted e) L') :
      Turn L none L'
  | left {L'} (isOpen : Bool) (h : Moves L L') (ho : isOpen = true → L'.isOpen = true) :
      Turn L (some .stop) {L' with state := .disconnected, isOpen := isOpen}
  | started (s : MqttState) (hs : s = .init ∨ s = .disconnected) : Turn L (some .start) {L with state := s}
  | failed {L' L''} (e : MqttEvent) (he : e.id = .disconnected) (hs : L.state = .init)
      (h : Dials L L') (h' : Moves (L'.aborted e) L'') : Turn L (some .attempt) L''
  | accepted {L' L''} (e : MqttEvent) (he : e.id = .connected) (hs : L.state = .init)
      (h : Dials L L') (h' : Moves ({L' with state := .connected}.raise e) L'') :
      Turn L (some .attempt) L''

end Line

variable {H : Handler} {w : World}

/-! What is received. -/

namespace World

/-- What a step begins: the life of the client or its end, or an attempt to connect. -/
def begins (H : Handler) (w : World) : ClientStep → Option Note
  | .start _ =>
    if w.taskHandle ∨ (w.state ≠ .init ∧ w.state ≠ .disconnected) then none else some .start
  | .stop => if w.taskHandle ∧ w.stopping = false then some .stop else none
  | .task _ =>
    let v := mqttDeleteExpiredMessages H (runEventLoop H w)
    if w.pc = .body ∧ v.state = .init ∧ v.creates.head?.getD true then some .attempt
    else if w.pc = .head ∧ w.run = false then some .stop
    else none
  | _ => none

end World

end EspMqtt
