import EspMqtt.ConnectionTurns

/-! The DISCONNECTED events of a client. Every abort of the connection reports one, and
a pass of the worker goes on behind an abort and may abort again. Between two CONNECTED
events there is exactly one exactly if every abort has found the client connected, and
nothing goes out from a DISCONNECTED to the next CONNECT. -/
namespace EspMqtt
open World Line Relation

namespace Note

/-- What may stand behind a note. -/
def Follows : Note → Note → Prop
  | .connected, n => n = .disconnected (some .connected) ∨ n = .start ∨ n = .stop
  | .attempt, n => n = .connected ∨ n = .disconnected (some .init)
  | .disconnected _, n => n ≠ .connected ∧ n ≠ .disconnected (some .connected)
  | .start, n | .stop, n => n ≠ .connected

/-- What an event tells of a connection, by the number of events before it. -/
def ofEvent (aborts : List (ℕ × MqttState)) (p : MqttEvent × ℕ) : Option Note :=
  match p.1.id with
  | .connected => some .connected
  | .disconnected => some (.disconnected (aborts.lookup p.2))
  | _ => none

end Note

def Line.reported (L : Line) : List Note := L.events.reverse.zipIdx.filterMap (Note.ofEvent L.aborts)

namespace World

/-- What the events tell of the connections, the earliest first. -/
def reported (w : World) : List Note := w.events.reverse.zipIdx.filterMap (Note.ofEvent w.aborts)

/-- What a step notes: what it begins, and the events that follow. -/
def notes (H : Handler) (w : World) (s : ClientStep) : List Note :=
  (w.begins H s).toList ++ (w.step H s).reported.drop w.reported.length

end World

namespace Note

end Note

namespace Line

/-! What the events of a 3.1.1 client tell. -/

/-- No call has brought the settings of a v5 client. -/
def Never5 (L : Line) : Prop := ∀ s ∈ L.configured, s.information.protocolVer ≠ .v5

theorem reported_raise (L : Line) (e : MqttEvent) : (L.raise e).reported =
    L.reported ++ (Note.ofEvent L.aborts (e, L.events.length)).toList := by
  change (e :: L.events).reverse.zipIdx.filterMap (Note.ofEvent L.aborts) = _
  rw [List.reverse_cons, List.zipIdx_append, List.filterMap_append, List.length_reverse, Nat.zero_add]
  cases hn : Note.ofEvent L.aborts (e, L.events.length) <;> simp [hn, reported]

/-- Most events tell nothing of the connection. -/
theorem reported_silent (L : Line) {e : MqttEvent} (h : e.id ≠ .connected ∧ e.id ≠ .disconnected) :
    (L.raise e).reported = L.reported := by
  have hnone : Note.ofEvent L.aborts (e, L.events.length) = none := by
    unfold Note.ofEvent
    split
    · exact absurd ‹_› h.1
    · exact absurd ‹_› h.2
    · rfl
  rw [reported_raise, hnone, Option.toList_none, List.append_nil]

/-- The abort that is entered now says nothing of the events before. -/
theorem reported_aborted (L : Line) {e : MqttEvent} (h : e.id = .disconnected) :
    (L.aborted e).reported = L.reported ++ [.disconnected (some L.state)] := by
  have hnote : Note.ofEvent ((L.events.length, L.state) :: L.aborts) (e, L.events.length) =
      some (.disconnected (some L.state)) := by
    unfold Note.ofEvent
    rw [h]
    simp
  have hold : L.events.reverse.zipIdx.filterMap (Note.ofEvent ((L.events.length, L.state) :: L.aborts)) =
      L.reported := by
    apply List.filterMap_congr
    rintro ⟨x,i⟩ hmem
    have hlt : i < L.events.length := by
      have hi := (List.mk_mem_zipIdx_iff_getElem?.mp hmem)
      exact List.length_reverse ▸ (List.getElem?_eq_some_iff.mp hi).1
    unfold Note.ofEvent
    have hne : (i == L.events.length) = false := beq_eq_false_iff_ne.mpr hlt.ne
    rw [List.lookup_cons, hne]
  unfold aborted
  rw [reported_raise]
  dsimp only
  rw [hnote]
  exact congrArg (· ++ [Note.disconnected (some L.state)]) hold

/-- The notes of a stretch of moves: from a session that is up the first abort tells the
state it finds, and every other one finds the connection aborted. -/
structure Told (L L' : Line) (ns : List Note) : Prop where
  reported : L'.reported = L.reported ++ ns
  up : L.Up → ns = [] ∧ L'.state = L.state ∨ L'.state = .waitReconnect ∧
    ∃ k, ns = .disconnected (some L.state) :: List.replicate k (.disconnected (some .waitReconnect))
  down : ¬ L.Up → ns = [] ∧ L'.state = L.state

theorem Told.same {L L' : Line} (hr : L'.reported = L.reported) (hs : L'.state = L.state) : Told L L' [] :=
  ⟨by rw [hr, List.append_nil], fun _ => Or.inl ⟨rfl,hs⟩, fun _ => ⟨rfl,hs⟩⟩

theorem Told.trans {L L' L'' : Line} {ns ns' : List Note} (h : Told L L' ns) (h' : Told L' L'' ns') :
    Told L L'' (ns ++ ns') where
  reported := by rw [h'.reported, h.reported, List.append_assoc]
  up hup := by
    rcases h.up hup with ⟨rfl,hs⟩ | ⟨hs,k,rfl⟩
    · have hup' : L'.Up := hup.imp hs.trans hs.trans
      rw [List.nil_append, ← hs]
      exact h'.up hup'
    · rcases h'.up (Or.inr hs) with ⟨rfl,hs'⟩ | ⟨hs',k',rfl⟩
      · rw [List.append_nil]
        exact Or.inr ⟨hs'.trans hs, k, rfl⟩
      · refine Or.inr ⟨hs', k+(k'+1), ?_⟩
        rw [hs, List.cons_append, ← List.replicate_succ, List.replicate_append_replicate]
  down hdown := by
    obtain ⟨rfl,hs⟩ := h.down hdown
    have hdown' : ¬ L'.Up := by
      unfold Up
      rw [hs]
      exact hdown
    obtain ⟨rfl,hs'⟩ := h'.down hdown'
    exact ⟨rfl, hs'.trans hs⟩

theorem told_aborted {L : Line} {e : MqttEvent} (he : e.id = .disconnected) (hup : L.Up) :
    Told L (L.aborted e) [.disconnected (some L.state)] :=
  ⟨reported_aborted L he, fun _ => Or.inr ⟨rfl, 0, rfl⟩, fun hdown => absurd hup hdown⟩

theorem Move.told {L L' : Line} (hm : Move L L') (hall : L'.Never5) :
    L.Never5 ∧ (L.isV5 = false → L'.isV5 = false ∧ ∃ ns, Told L L' ns) := by
  cases hm with
  | event e he hd =>
    refine ⟨hall, fun hv => ⟨hv, [], .same (reported_silent L ⟨he, fun hid => ?_⟩) rfl⟩⟩
    exact absurd ((hd hid).1.symm.trans hv) (by simp)
  | write c => exact ⟨hall, fun hv => ⟨hv, [], .same rfl rfl⟩⟩
  | abort e he hup => exact ⟨hall, fun hv => ⟨hv, _, told_aborted he hup⟩⟩
  | setConfig s =>
    exact ⟨fun t ht => hall t (List.mem_cons_of_mem _ ht), fun _ =>
      ⟨beq_eq_false_iff_ne.mpr (hall s List.mem_cons_self), [], .same rfl rfl⟩⟩

theorem Moves.told {L L' : Line} (h : Moves L L') (hall : L'.Never5) :
    L.Never5 ∧ (L.isV5 = false → L'.isV5 = false ∧ ∃ ns, Told L L' ns) := by
  induction h with
  | refl => exact ⟨hall, fun hv => ⟨hv, [], .same rfl rfl⟩⟩
  | tail _ hm ih =>
    obtain ⟨hmid,hlast⟩ := hm.told hall
    obtain ⟨hfirst,hbefore⟩ := ih hmid
    refine ⟨hfirst, fun hv => ?_⟩
    obtain ⟨hv',ns,hns⟩ := hbefore hv
    obtain ⟨hv'',ns',hns'⟩ := hlast hv'
    exact ⟨hv'', _, hns.trans hns'⟩

/-- An attempt that has not ended tells nothing. -/
theorem Dials.told {L L' : Line} (h : Dials L L') (hs : L.state = .init) (hall : L'.Never5) :
    L.Never5 ∧ (L.isV5 = false → L'.isV5 = false ∧ L'.reported = L.reported) := by
  induction h with
  | refl => exact ⟨hall, fun hv => ⟨hv,rfl⟩⟩
  | tail hbefore hm ih =>
    cases hm with
    | connect c => exact ih hall
    | move hm =>
      obtain ⟨hmid,hlast⟩ := hm.told hall
      obtain ⟨hfirst,htold⟩ := ih hmid
      refine ⟨hfirst, fun hv => ?_⟩
      obtain ⟨hv',hsame⟩ := htold hv
      obtain ⟨hv'',ns,hns⟩ := hlast hv'
      have hinit := (Dials.reports hbefore hs).1
      obtain ⟨rfl,-⟩ := hns.down (by simp [Up, hinit])
      exact ⟨hv'', by rw [hns.reported, hsame, List.append_nil]⟩

end Line

/-! Every step adds notes that may stand behind those before. -/

/-- The notes of a step, and what the last of them says of the state. -/
structure Adds (L : Line) (begun : Option Note) (L' : Line) (ns : List Note) : Prop where
  reported : L'.reported = L.reported ++ ns
  chain : (begun.toList ++ ns).IsChain Note.Follows
  first : ∀ n ∈ (begun.toList ++ ns).head?, n = .attempt ∧ L.state = .init ∨ n = .start ∨ n = .stop ∨
    n = .disconnected (some L.state)
  last : ∀ n ∈ (begun.toList ++ ns).getLast?, n ≠ .attempt ∧ (n = .connected ↔ L'.state = .connected)
  quiet : begun.toList ++ ns = [] → (L'.state = .connected ↔ L.state = .connected)

/-- What holds between the steps of a run: the last note tells whether the client is connected. -/
structure Noted (state : MqttState) (l : List Note) : Prop where
  chain : l.IsChain Note.Follows
  connected : l.getLast? = some .connected ↔ state = .connected
  ended : l.getLast? ≠ some .attempt

theorem Noted.step {L L' : Line} {begun : Option Note} {ns l : List Note} (hn : Noted L.state l)
    (h : Adds L begun L' ns) : Noted L'.state (l ++ (begun.toList ++ ns)) := by
  cases hnew : begun.toList ++ ns with
  | nil =>
    rw [List.append_nil]
    exact ⟨hn.chain, hn.connected.trans (h.quiet hnew).symm, hn.ended⟩
  | cons m ms =>
    rw [← hnew]
    have hne : begun.toList ++ ns ≠ [] := by
      rw [hnew]
      exact List.cons_ne_nil _ _
    have hlast : (l ++ (begun.toList ++ ns)).getLast? = (begun.toList ++ ns).getLast? :=
      List.getLast?_append_of_ne_nil _ hne
    obtain ⟨x,hx⟩ : ∃ x, (begun.toList ++ ns).getLast? = some x :=
      Option.isSome_iff_exists.mp (by rw [List.getLast?_isSome]; exact hne)
    obtain ⟨hx1,hx2⟩ := h.last x hx
    refine ⟨List.isChain_append.mpr ⟨hn.chain, h.chain, fun p hp n hfirst => ?_⟩, ?_, ?_⟩
    · -- the state tells whether the note before is a CONNECTED
      have hstate : p = .connected ↔ L.state = .connected := by
        rw [← hn.connected, show l.getLast? = some p from hp]
        exact (Option.some_inj).symm
      have hp1 : p ≠ .attempt := fun hpa => hn.ended (hpa ▸ hp)
      rcases h.first n hfirst with ⟨rfl,hs⟩ | rfl | rfl | rfl
      · cases p with
        | attempt => exact absurd rfl hp1
        | connected => exact absurd (hs.symm.trans (hstate.mp rfl)) (by decide)
        | _ => simp [Note.Follows]
      · cases p <;> simp [Note.Follows] at hp1 ⊢
      · cases p <;> simp [Note.Follows] at hp1 ⊢
      · cases p with
        | attempt => exact absurd rfl hp1
        | connected =>
          rw [hstate.mp rfl]
          exact Or.inl rfl
        | disconnected found =>
          refine ⟨by simp, fun heq => ?_⟩
          have hc : L.state = .connected := by simpa using heq
          exact absurd (hstate.mpr hc) (by simp)
        | _ => simp [Note.Follows]
    · rw [hlast, hx, ← hx2]
      exact Option.some_inj
    · rw [hlast, hx]
      exact fun heq => hx1 (Option.some_inj.mp heq)

/-- The notes of a step are what it adds. -/
theorem Adds.notes {H : Handler} {w : World} {s : ClientStep} {ns : List Note}
    (h : Adds w.line (w.begins H s) (w.step H s).line ns) :
    w.notes H s = (w.begins H s).toList ++ ns := by
  have hreported : (w.step H s).reported = w.reported ++ ns := h.reported
  unfold World.notes
  rw [hreported, List.drop_left]

/-- How many events had been dispatched when the last CONNECT was written. -/
def lastConnect (wire : List Chunk) : ℕ :=
  ((wire.find? fun c => c.site == .connect).map Chunk.events).getD 0

/-- A write of which the transport takes something comes after no DISCONNECTED that
is later than the last CONNECT. -/
def SilentBetween (wire : List Chunk) (events : List MqttEvent) : Prop :=
  ∀ later c before, wire = later ++ c :: before → 0 < c.sent →
    ∀ e ∈ (events.reverse.take c.events).drop (lastConnect (c :: before)), e.id ≠ .disconnected

/-- While the transport is open there has been no DISCONNECTED since the last CONNECT. -/
structure Quiet (L : Line) : Prop where
  bound : ∀ c ∈ L.wire, c.events ≤ L.events.length
  silent : SilentBetween L.wire L.events
  fresh : L.isOpen = true → ∀ e ∈ L.events.reverse.drop (lastConnect L.wire), e.id ≠ .disconnected

theorem lastConnect_le {L : Line} (h : Quiet L) : lastConnect L.wire ≤ L.events.length := by
  unfold lastConnect
  cases hf : L.wire.find? fun c => c.site == .connect with
  | none => exact Nat.zero_le _
  | some c => exact h.bound c (List.mem_of_find?_eq_some hf)

/-- One more event: the writes so far came before it. -/
theorem Quiet.raise {L : Line} (h : Quiet L) (e : MqttEvent)
    (he : L.isOpen = true → e.id ≠ .disconnected) : Quiet (L.raise e) where
  bound c hc := Nat.le_succ_of_le (h.bound c hc)
  silent later c before hw hc := by
    have hle : c.events ≤ L.events.reverse.length := by
      rw [List.length_reverse]
      exact h.bound c (hw ▸ List.mem_append_right _ List.mem_cons_self)
    have htake : (L.raise e).events.reverse.take c.events = L.events.reverse.take c.events := by
      change (e :: L.events).reverse.take c.events = _
      rw [List.reverse_cons, List.take_append_of_le_length hle]
    rw [htake]
    exact h.silent later c before hw hc
  fresh ho x hx := by
    have hle : lastConnect L.wire ≤ L.events.reverse.length := by
      rw [List.length_reverse]
      exact lastConnect_le h
    change x ∈ (e :: L.events).reverse.drop (lastConnect L.wire) at hx
    rw [List.reverse_cons, List.drop_append_of_le_length hle] at hx
    rcases List.mem_append.mp hx with hx | hx
    · exact h.fresh ho x hx
    · rw [List.mem_singleton.mp hx]
      exact he ho

/-- One more write: it is a CONNECT, or it sends nothing, or the transport is open. -/
theorem Quiet.wrote {L : Line} (h : Quiet L) (c : Chunk) (isOpen : Bool)
    (hn : c.events = L.events.length)
    (hc : c.site = .connect ∨ isOpen = L.isOpen ∧ (L.isOpen = false → c.sent = 0)) :
    Quiet {L with isOpen := isOpen, wire := c :: L.wire} := by
  have hlast : lastConnect (c :: L.wire) =
      if c.site = .connect then L.events.length else lastConnect L.wire := by
    unfold lastConnect
    by_cases hs : c.site = .connect
    · rw [List.find?_cons_of_pos (by simp [hs]), if_pos hs]
      exact hn
    · rw [List.find?_cons_of_neg (by simp [hs]), if_neg hs]
  -- a CONNECT has no event behind it yet
  have hnone : L.events.reverse.drop L.events.length = [] := by
    rw [← List.length_reverse, List.drop_length]
  have htake : L.events.reverse.take c.events = L.events.reverse := by
    rw [hn, ← List.length_reverse, List.take_length]
  -- `bound` and `silent` look at the writes one by one, `fresh` at the last CONNECT
  constructor
  · intro d hd
    rcases List.mem_cons.mp hd with rfl | hd
    · exact hn.le
    · exact h.bound d hd
  · intro later d before hw hd
    cases later with
    | nil =>
      obtain ⟨rfl,rfl⟩ := List.cons.inj hw
      rw [hlast, htake]
      split
      · rw [hnone]
        exact fun e he => absurd he List.not_mem_nil
      · rename_i hs
        refine h.fresh ?_
        obtain ⟨-,hclosed⟩ := hc.resolve_left hs
        by_contra hno
        exact absurd (hclosed (eq_false_of_ne_true hno)) (by omega)
    | cons x later => exact h.silent later d before (List.cons.inj hw).2 hd
  · intro ho
    change ∀ e ∈ L.events.reverse.drop (lastConnect (c :: L.wire)), _
    rw [hlast]
    split
    · rw [hnone]
      exact fun e he => absurd he List.not_mem_nil
    · rename_i hs
      exact h.fresh ((hc.resolve_left hs).1.symm.trans ho)

/-- Another state, and a transport that is not opened. -/
theorem Quiet.moved {L : Line} (h : Quiet L) (s : MqttState) (isOpen : Bool)
    (ho : isOpen = true → L.isOpen = true) : Quiet {L with state := s, isOpen := isOpen} :=
  ⟨h.bound, h.silent, fun hopen => h.fresh (ho hopen)⟩

theorem Quiet.aborted {L : Line} (h : Quiet L) (e : MqttEvent) : Quiet (L.aborted e) := by
  have haborted := (h.moved .waitReconnect false (by simp)).raise e (by simp)
  exact ⟨haborted.bound, haborted.silent, haborted.fresh⟩

/-- A 3.1.1 client, and what it keeps. -/
def Legacy (L : Line) : Prop := L.Never5 → L.isV5 = false ∧ Quiet L

theorem Legacy.move {L L' : Line} (h : Legacy L) (hm : Line.Move L L') : Legacy L' := by
  cases hm with
  | event e he hd =>
    intro hall
    obtain ⟨hv,hq⟩ := h hall
    refine ⟨hv, hq.raise e fun _ hid => ?_⟩
    exact absurd ((hd hid).1.symm.trans hv) (by simp)
  | write c hn hc =>
    intro hall
    obtain ⟨hv,hq⟩ := h hall
    exact ⟨hv, hq.wrote c L.isOpen hn (Or.inr ⟨rfl,hc⟩)⟩
  | abort e he hup =>
    intro hall
    obtain ⟨hv,hq⟩ := h hall
    exact ⟨hv, hq.aborted e⟩
  | setConfig s =>
    intro hall
    obtain ⟨-,hq⟩ := h fun t ht => hall t (List.mem_cons_of_mem _ ht)
    exact ⟨beq_eq_false_iff_ne.mpr (hall s List.mem_cons_self), hq.bound, hq.silent, hq.fresh⟩

theorem Legacy.moves {L L' : Line} (h : Legacy L) (hm : Moves L L') : Legacy L' := by
  induction hm with
  | refl => exact h
  | tail _ hm ih => exact ih.move hm

theorem Legacy.dials {L L' : Line} (h : Legacy L) (hm : Dials L L') : Legacy L' := by
  induction hm with
  | refl => exact h
  | tail _ hm ih =>
    cases hm with
    | move hm => exact ih.move hm
    | connect c hs hn =>
      intro hall
      obtain ⟨hv,hq⟩ := ih hall
      exact ⟨hv, hq.wrote c true hn (Or.inl hs)⟩

theorem Legacy.turn {L L' : Line} {begun : Option Note} (h : Legacy L) (ht : Turn L begun L') :
    Legacy L' := by
  cases ht with
  | moves hm => exact h.moves hm
  | again hm hs => exact fun hall => ⟨(h.moves hm hall).1, (h.moves hm hall).2.moved .init _ id⟩
  | polled e he hm =>
    have haborted : Legacy (L.aborted e) := fun hall => ⟨(h hall).1, (h hall).2.aborted e⟩
    exact haborted.moves hm
  | left isOpen hm ho =>
    exact fun hall => ⟨(h.moves hm hall).1, (h.moves hm hall).2.moved .disconnected isOpen ho⟩
  | started s hs => exact fun hall => ⟨(h hall).1, (h hall).2.moved s _ id⟩
  | @failed L1 _ e he hs hd hm =>
    have haborted : Legacy (L1.aborted e) := fun hall =>
      ⟨(h.dials hd hall).1, (h.dials hd hall).2.aborted e⟩
    exact haborted.moves hm
  | @accepted L1 _ e he hs hd hm =>
    have hraised : Legacy ({L1 with state := .connected}.raise e) := fun hall =>
      ⟨(h.dials hd hall).1, ((h.dials hd hall).2.moved .connected _ id).raise e fun _ => by
        rw [he]
        decide⟩
    exact hraised.moves hm

end EspMqtt
