import EspMqtt.Admission

/-! What a connection shows to the outside: the state of the client, whether its
transport is open, what is written to it and which events are dispatched. What the
calls of the API do to it is a sequence of a few kinds of moves. -/
namespace EspMqtt
open World Relation

structure Line where
  state : MqttState
  isOpen : Bool
  isV5 : Bool
  wire : List Chunk
  events : List MqttEvent
  aborts : List (ℕ × MqttState)
  configured : List Settings

def World.line (w : World) : Line where
  state := w.state
  isOpen := w.transport.isOpen
  isV5 := w.isV5
  wire := w.wire
  events := w.events
  aborts := w.aborts
  configured := w.marks.filterMap Mark.settings

namespace Line

def raise (L : Line) (e : MqttEvent) : Line := {L with events := e :: L.events}

/-- The transport closed, and the event that tells it. -/
def aborted (L : Line) (e : MqttEvent) : Line :=
  {L with
    state := .waitReconnect
    isOpen := false
    aborts := (L.events.length, L.state) :: L.aborts}.raise e

/-- The connection is up, or it has been aborted since. -/
def Up (L : Line) : Prop := L.state = .connected ∨ L.state = .waitReconnect

/-- What happens to the connection between two turns of the state machine. -/
inductive Move : Line → Line → Prop where
  /-- Of these events only the report of a received DISCONNECT is a DISCONNECTED. -/
  | event {L} (e : MqttEvent) (he : e.id ≠ .connected)
      (hd : e.id = .disconnected → L.isV5 = true ∧ L.Up) : Move L (L.raise e)
  | write {L} (c : Chunk) (hn : c.events = L.events.length) (hc : L.isOpen = false → c.sent = 0) :
      Move L {L with wire := c :: L.wire}
  | abort {L} (e : MqttEvent) (he : e.id = .disconnected) (hup : L.Up) : Move L (L.aborted e)
  | setConfig {L} (s : Settings) : Move L {L with
      isV5 := s.information.protocolVer == .v5, configured := s :: L.configured}

/-- The events of a stretch of moves, and what they tell of the state: it is left
only by an abort, and then there is a DISCONNECTED among them. -/
structure Reports (L L' : Line) (l : List MqttEvent) : Prop where
  events : L'.events = l ++ L.events
  unconnected : ∀ e ∈ l, e.id ≠ .connected
  up : L.Up → L'.state = L.state ∨ L'.state = .waitReconnect ∧ ∃ e ∈ l, e.id = .disconnected
  down : ¬ L.Up → L'.state = L.state ∧ ∀ e ∈ l, e.id ≠ .disconnected

theorem Reports.refl (L : Line) : Reports L L [] :=
  ⟨rfl, by simp, fun _ => Or.inl rfl, fun _ => ⟨rfl, by simp⟩⟩

theorem Reports.stays_up {L L' : Line} {l : List MqttEvent} (h : Reports L L' l) (hup : L.Up) : L'.Up := by
  rcases h.up hup with hs | ⟨hs,-⟩
  · exact hup.imp hs.trans hs.trans
  · exact Or.inr hs

theorem Reports.trans {L L' L'' : Line} {l l' : List MqttEvent} (h : Reports L L' l)
    (h' : Reports L' L'' l') : Reports L L'' (l' ++ l) where
  events := by rw [h'.events, h.events, List.append_assoc]
  unconnected e he := (List.mem_append.mp he).elim (h'.unconnected e) (h.unconnected e)
  up hup := by
    rcases h'.up (h.stays_up hup) with hs' | ⟨hs',e,he,hd⟩
    · rcases h.up hup with hs | ⟨hs,e,he,hd⟩
      · exact Or.inl (hs'.trans hs)
      · exact Or.inr ⟨hs'.trans hs, e, List.mem_append_right _ he, hd⟩
    · exact Or.inr ⟨hs', e, List.mem_append_left _ he, hd⟩
  down hdown := by
    obtain ⟨hs,hl⟩ := h.down hdown
    have hdown' : ¬ L'.Up := by
      unfold Up
      rw [hs]
      exact hdown
    obtain ⟨hs',hl'⟩ := h'.down hdown'
    exact ⟨hs'.trans hs, fun e he => (List.mem_append.mp he).elim (hl' e) (hl e)⟩

theorem Move.reports {L L' : Line} (h : Move L L') : ∃ l, Reports L L' l := by
  cases h with
  | event e he hd =>
    refine ⟨[e], rfl, ?_, fun _ => Or.inl rfl, fun hdown => ⟨rfl, ?_⟩⟩
    · intro x hx
      rw [List.mem_singleton.mp hx]
      exact he
    · intro x hx hid
      rw [List.mem_singleton.mp hx] at hid
      exact hdown (hd hid).2
  | write c => exact ⟨[], rfl, by simp, fun _ => Or.inl rfl, fun _ => ⟨rfl, by simp⟩⟩
  | abort e he hup =>
    refine ⟨[e], rfl, ?_, fun _ => Or.inr ⟨rfl, e, List.mem_singleton.mpr rfl, he⟩,
      fun hdown => absurd hup hdown⟩
    intro x hx
    rw [List.mem_singleton.mp hx, he]
    decide
  | setConfig s => exact ⟨[], rfl, by simp, fun _ => Or.inl rfl, fun _ => ⟨rfl, by simp⟩⟩

abbrev Moves (L L' : Line) : Prop := ReflTransGen Move L L'

theorem Moves.reports {L L' : Line} (h : Moves L L') : ∃ l, Reports L L' l := by
  induction h with
  | refl => exact ⟨[], .refl L⟩
  | tail _ hm ih =>
    obtain ⟨l,hl⟩ := ih
    obtain ⟨l',hl'⟩ := hm.reports
    exact ⟨l' ++ l, hl.trans hl'⟩

theorem Moves.up {L L' : Line} (h : Moves L L') (hup : L.Up) : L'.Up := by
  obtain ⟨l,hl⟩ := h.reports
  exact hl.stays_up hup

/-- Once aborted the connection stays so. -/
theorem Moves.aborted {L L' : Line} {e : MqttEvent} (h : Moves (L.aborted e) L') :
    L'.state = .waitReconnect := by
  obtain ⟨l,hl⟩ := h.reports
  rcases hl.up (Or.inr rfl) with hs | ⟨hs,-⟩ <;> exact hs

end Line

open Line

namespace World

/-! What the small operations leave alone. -/

end World

variable {H : Handler} {w : World}

end EspMqtt
