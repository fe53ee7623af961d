import EspMqtt.ControlPackets

/-! The bytes of one connection: whole packets, and behind a packet that was cut
nothing but a DISCONNECT. -/
namespace EspMqtt
open World

/-- The part of the client that matters to its stream. -/
structure StreamView where
  state : MqttState
  pc : TaskPc
  isOpen : Bool
  connections : ℕ
  inCutError : Bool
  wire : List Chunk
  marks : List Mark

def Core.stream (c : Core) : StreamView :=
  ⟨c.state, c.pc, c.isOpen, c.connections, c.inCutError, c.wire, c.marks⟩

/-- The current connection has a torn packet. -/
def StreamView.Torn (v : StreamView) : Prop := ∃ e ∈ v.wire, e.connection = v.connections ∧ e.torn

/-- What a run must not do to its stream: cut a write whose failure is ignored,
publish on a connection from the event that reports it cut or through a buffer of
no bytes, send a request from there, or send one between a stop and the end of the
worker. -/
def Mark.careful : Mark → Bool
  | .cut site => !site.ignoresFailure
  | .body c bufferLength _ _ _ state pc inCutError _ =>
    match c with
    | .publish .. => !(inCutError && state == .connected) && decide (0 < bufferLength)
    | .subscribe _ | .unsubscribe _ => !inCutError && !(state == .disconnected && pc != .none)
    | _ => true
  | .fragmentNotStored => true

def Careful (marks : List Mark) : Prop := ∀ m ∈ marks, m.careful = true

theorem Careful.tail {m : Mark} {marks : List Mark} (h : Careful (m :: marks)) : Careful marks :=
  fun k hk => h k (List.mem_cons_of_mem m hk)

theorem Careful.head {m : Mark} {marks : List Mark} (h : Careful (m :: marks)) :
    m.careful = true := h m List.mem_cons_self

/-! A write and the stream. -/

section Writes

variable {w : World} {s : Site} {f : Bool}

theorem isCut_iff : w.isCut f = true ↔ (w.chunk s f).torn := by
  have hok := writeLoop_ok w.connection.outboundMessage.data.length w.transport
    w.connection.outboundMessage.data.length (Nat.le_refl _)
  have hshort := writeLoop_short w.connection.outboundMessage.data.length w.transport
    w.connection.outboundMessage.data.length
  change (w.writeOutcome.1 = .ok → w.writeOutcome.2.1 = _) at hok
  change (w.writeOutcome.1 ≠ .ok → w.writeOutcome.2.1 < _) at hshort
  unfold World.isCut Chunk.torn World.chunk
  by_cases hs : w.writeOutcome.1 = .ok
  · simp [hs, hok hs]
  · simp [hs, hshort hs]

/-- A write keeps the stream intact if a torn packet has closed the transport. -/
theorem recordWrite_intact (h : StreamIntact w.wire) (hshut : w.core.stream.Torn → w.transport.isOpen = false) :
    StreamIntact (w.recordWrite s f).wire := by
  refine List.pairwise_cons.mpr ⟨fun e he htorn hconn => ?_, h⟩
  have hclosed := hshut ⟨e, he, hconn.symm, htorn⟩
  exact Or.inl (writeLoop_closed _ _ _ hclosed)

/-- What is torn after a write was torn before, or is what the write was cut at. -/
theorem recordWrite_torn (h : (w.recordWrite s f).core.stream.Torn) : w.core.stream.Torn ∨ w.isCut f = true := by
  obtain ⟨e,he,hconn,htorn⟩ := h
  rcases List.mem_cons.mp he with rfl | he
  · exact Or.inr (isCut_iff.mpr htorn)
  · exact Or.inl ⟨e, he, hconn, htorn⟩

theorem recordWrite_isOpen : (w.recordWrite s f).transport.isOpen = w.transport.isOpen :=
  writeLoop_isOpen _ _ _

theorem recordWrite_marks (h : Careful (w.recordWrite s f).marks) :
    Careful w.marks ∧ (s.ignoresFailure → w.isCut f = false) := by
  dsimp only [World.recordWrite] at h
  split at h
  · have hsite := h.head
    simp only [Mark.careful, Bool.not_eq_true'] at hsite
    exact ⟨h.tail, fun hi => absurd (hsite.symm.trans hi) (by decide)⟩
  · rename_i hcut
    exact ⟨h, fun _ => by simpa using hcut⟩

end Writes

/-- Between operations: a torn packet has closed the transport, or the handler is
still inside the event that reports it, or the client is being stopped. The
index tells whether events come from a cut and whether the run is spoilt. -/
structure StreamP (i : Bool × Bool) (v : StreamView) : Prop where
  inError : v.inCutError = i.1
  spoilt : i.2 = true → ¬ Careful v.marks
  past : ∀ e ∈ v.wire, e.connection ≤ v.connections
  intact : Careful v.marks → StreamIntact v.wire
  shut : Careful v.marks → v.Torn →
    v.isOpen = false ∨ i.1 = true ∨ v.state = .disconnected ∧ v.pc ≠ .none

/-- A write has failed. -/
structure StreamQ (i : Bool × Bool) (v : StreamView) : Prop where
  inError : v.inCutError = i.1
  spoilt : i.2 = true → ¬ Careful v.marks
  past : ∀ e ∈ v.wire, e.connection ≤ v.connections
  intact : Careful v.marks → StreamIntact v.wire

/-- The next write cannot do harm. -/
structure StreamR (i : Bool × Bool) (v : StreamView) : Prop extends StreamP i v where
  closed : Careful v.marks → v.Torn → v.isOpen = false

/-- Inside a publish. -/
structure StreamM (i : Bool × Bool) (v : StreamView) : Prop extends StreamP i v where
  idle : Careful v.marks → v.Torn → v.isOpen = false ∨ v.state ≠ .connected

section Steps

variable {i : Bool × Bool} {w : World} {s : Site} {f : Bool}

theorem StreamP.relax {v : StreamView} (h : StreamP i v) : StreamQ i v :=
  ⟨h.inError, h.spoilt, h.past, h.intact⟩

/-- Further notes in the history change nothing. -/
theorem StreamP.mark {v : StreamView} {m : Mark} (h : StreamP i v) :
    StreamP i {v with marks := m :: v.marks} where
  inError := h.inError
  spoilt hs ho := h.spoilt hs ho.tail
  past := h.past
  intact ho := h.intact ho.tail
  shut ho := h.shut ho.tail

/-- A write that fails, before its event. -/
theorem StreamR.writes (h : StreamR i w.core.stream) :
    StreamQ i (w.recordWrite s f).core.stream where
  inError := h.inError
  spoilt hs ho := h.spoilt hs (recordWrite_marks ho).1
  past e he := by
    rcases List.mem_cons.mp he with rfl | he
    · exact Nat.le_refl _
    · exact h.past e he
  intact ho := recordWrite_intact (h.intact (recordWrite_marks ho).1)
    (h.closed (recordWrite_marks ho).1)

/-- A write that tears nothing leaves the stream as ready as it was. -/
theorem StreamR.recordWrite (h : StreamR i w.core.stream)
    (hcut : Careful (w.recordWrite s f).marks → w.isCut f = false) :
    StreamR i (w.recordWrite s f).core.stream := by
  have hclosed (ho : Careful (w.recordWrite s f).marks)
      (htorn : (w.recordWrite s f).core.stream.Torn) :
      (w.recordWrite s f).core.stream.isOpen = false := by
    rcases recordWrite_torn htorn with ht | hc
    · exact recordWrite_isOpen.trans (h.closed (recordWrite_marks ho).1 ht)
    · exact absurd ((hcut ho).symm.trans hc) (by decide)
  have hq : StreamQ i (w.recordWrite s f).core.stream := h.writes
  exact ⟨⟨hq.inError, hq.spoilt, hq.past, hq.intact, fun ho ht => Or.inl (hclosed ho ht)⟩, hclosed⟩

theorem StreamR.sent (h : StreamR i w.core.stream) (hok : w.writeOutcome.1 = .ok) :
    StreamR i (w.recordWrite s f).core.stream :=
  h.recordWrite fun _ => by simp [World.isCut, hok]

/-- The handler of a failed write runs inside the event of a cut, and what it
leaves is fit for an abort; where nobody aborts, the run is spoilt. -/
theorem StreamR.failed (h : StreamR i w.core.stream) :
    StreamP (w.isCut f, i.2 || (s.ignoresFailure && w.isCut f))
      ((w.recordWrite s f).inCut (w.isCut f)).core.stream where
  inError := rfl
  spoilt hs ho := by
    obtain ⟨ho',hcut⟩ := recordWrite_marks ho
    rcases Bool.or_eq_true_iff.mp hs with hs | hs
    · exact h.spoilt hs ho'
    · obtain ⟨h1,h2⟩ := Bool.and_eq_true_iff.mp hs
      exact absurd ((hcut h1).symm.trans h2) (by decide)
  past := (h.writes (s := s) (f := f)).past
  intact ho := (h.writes (s := s) (f := f)).intact ho
  shut ho ht := by
    rcases recordWrite_torn ht with ht | hc
    · exact Or.inl ((recordWrite_isOpen (s := s) (f := f)).trans
        (h.closed (recordWrite_marks ho).1 ht))
    · exact Or.inr (Or.inl hc)

end Steps

/-- Composing and storing a PUBLISH adds a note at most. -/
theorem StreamP.enqueuePublish {i : Bool × Bool} {w : World} (h : StreamP i w.core.stream)
    (topic : Option (List UInt8)) (d : CData) (len : ℤ) (qos retain : ℕ) (store : Bool) :
    StreamP i (w.mqttClientEnqueuePublish topic d len qos retain store).2.core.stream := by
  obtain ⟨c,o,ms,_,hc,hms⟩ := mqttClientEnqueuePublish_core w topic d len qos retain store
  rw [hc]
  rcases hms with rfl | rfl
  · exact h
  · exact h.mark

theorem StreamM.enqueuePublish {i : Bool × Bool} {w : World} (h : StreamM i w.core.stream)
    (topic : Option (List UInt8)) (d : CData) (len : ℤ) (qos retain : ℕ) (store : Bool) :
    StreamM i (w.mqttClientEnqueuePublish topic d len qos retain store).2.core.stream := by
  refine ⟨h.toStreamP.enqueuePublish topic d len qos retain store, ?_⟩
  obtain ⟨c,o,ms,_,hc,hms⟩ := mqttClientEnqueuePublish_core w topic d len qos retain store
  rw [hc]
  rcases hms with rfl | rfl
  · exact h.idle
  · exact fun ho => h.idle ho.tail

/-- A connected client may write what it publishes. -/
theorem StreamM.ready {i : Bool × Bool} {v : StreamView} (h : StreamM i v) (hc : v.state = .connected) :
    StreamR i v where
  toStreamP := h.toStreamP
  closed ho ht := (h.idle ho ht).resolve_right fun hn => hn hc

/-- What has been written whole leaves the stream as it was. -/
theorem StreamR.idle {i : Bool × Bool} {v : StreamView} (h : StreamR i v) : StreamM i v where
  toStreamP := h.toStreamP
  idle ho ht := Or.inl (h.closed ho ht)

/-- The worker composes or loads a packet outside every cut. -/
theorem StreamP.ready {i : Bool × Bool} {v : StreamView} (h : StreamP i v) (ht : i.1 = false)
    (hs : v.state ≠ .disconnected) : StreamR i v where
  toStreamP := h
  closed ho htorn := by
    rcases h.shut ho htorn with hc | hc | hc
    · exact hc
    · exact absurd (ht.symm.trans hc) (by decide)
    · exact absurd hc.1 hs

/-- If every packet announces the bytes it has, every packet is good. -/
def FrameP (c : Core) : Prop := Careful c.marks → Announced c.wire → AllGood c.wire

/-- The outbound message goes on with a packet that is partly out. -/
def NextFits (c : Core) : Prop :=
  Careful c.marks → Announced c.wire →
    ∃ bytes, Unfinished c.connections c.wire bytes ∧ Truncated (bytes ++ c.connection.outboundMessage.data)

/-- In front of the first chunk. -/
structure FrameM (len : ℤ) (c : Core) : Prop where
  frames : FrameP c
  behind : c.behind = len-c.connection.outboundMessage.dataSent
  full : c.connection.outboundMessage.data ≠ []
  room : Careful c.marks → 0 < c.connection.bufferLength

/-- In the loop: what is still to be sent is what the packet awaits. -/
structure FrameL (k : ℕ) (r : ℤ) (c : Core) : Prop where
  offset : c.connection.outboundMessage.fragmentedMsgDataOffset = 0
  room : Careful c.marks → 0 < c.connection.bufferLength
  awaits : Careful c.marks → Announced c.wire →
    r.toNat ≤ k ∧ ∃ bytes, Unfinished c.connections c.wire bytes ∧ Awaits r.toNat bytes

section Frames

variable {w : World} {s : Site} {f : Bool}

theorem FrameP.mark {c : Core} {m : Mark} {n : ℕ} (h : FrameP c) :
    FrameP {c with calls := n, marks := m :: c.marks} :=
  fun ho ha => h ho.tail ha

theorem Announced.tail {c : Chunk} {wire : List Chunk} (h : Announced (c :: wire)) : Announced wire :=
  fun e he => h e (List.mem_cons_of_mem c he)

theorem Announced.head {c : Chunk} {wire : List Chunk} (h : Announced (c :: wire)) (hc : c.first = true) :
    Announces c.behind c.data := h c List.mem_cons_self hc

/-- A write that succeeds takes everything. -/
theorem chunk_whole (hok : w.writeOutcome.1 = .ok) :
    (w.chunk s f).out = w.connection.outboundMessage.data ∧ ¬ (w.chunk s f).torn := by
  have hsent : w.writeOutcome.2.1 = w.connection.outboundMessage.data.length :=
    writeLoop_ok _ w.transport _ (Nat.le_refl _) hok
  refine ⟨List.take_of_length_le hsent.ge, fun ht => ?_⟩
  have hlt : w.writeOutcome.2.1 < w.connection.outboundMessage.data.length := ht.1
  omega

/-- One that does not takes less. -/
theorem chunk_short (hok : w.writeOutcome.1 ≠ .ok) : (w.chunk s f).sent < (w.chunk s f).data.length :=
  writeLoop_short _ w.transport _ hok

/-- The first write of a packet, unless it succeeds and more is to follow. -/
theorem FrameP.first (h : FrameP w.core) (hs : s ≠ .publish ∨ w.writeOutcome.1 ≠ .ok) :
    FrameP (w.recordWrite s true).core := by
  intro ho ha
  have hannounces : Announces (w.chunk s true).behind (w.chunk s true).data := Announced.head ha rfl
  apply AllGood.first (h (recordWrite_marks ho).1 (Announced.tail ha)) rfl
  refine ⟨?_, fun hnot => ?_⟩
  · rw [outgoing_single]
    by_cases hne : (w.chunk s true).data = []
    · unfold Chunk.out
      rw [hne, List.take_nil]
      exact truncated_nil
    · exact (hannounces hne).truncated.of_prefix (List.take_prefix _ _)
  · rw [outgoing_single]
    by_cases hok : w.writeOutcome.1 = .ok
    · -- nothing is to follow, so what is announced is out
      have hbehind : (w.chunk s true).behind = 0 := if_neg (hs.resolve_right fun hn => hn hok)
      rw [hbehind] at hannounces
      rw [(chunk_whole hok).1]
      exact or_iff_not_imp_left.mpr hannounces
    · -- nothing of it is out, for it would be torn
      have hnone : ¬ (w.chunk s true).torn := hnot _ List.mem_cons_self
      have hsent : (w.chunk s true).sent = 0 := by
        by_contra hpos
        exact hnone ⟨chunk_short hok, Or.inl (Nat.pos_of_ne_zero hpos)⟩
      left
      unfold Chunk.out
      rw [hsent, List.take_zero]

/-- Any note of a PUBLISH composed keeps the packets. -/
theorem FrameP.enqueuePublish (h : FrameP w.core) (topic : Option (List UInt8)) (d : CData) (len : ℤ)
    (qos retain : ℕ) (store : Bool) :
    FrameP (w.mqttClientEnqueuePublish topic d len qos retain store).2.core := by
  obtain ⟨c,o,ms,_,hc,hms⟩ := mqttClientEnqueuePublish_core w topic d len qos retain store
  rw [hc]
  rcases hms with rfl | rfl
  · exact h
  · exact fun ho => h ho.tail

theorem makePublish_bufferLength (w : World) (topic : Option (List UInt8)) (d : CData) (len : ℤ)
    (qos retain : ℕ) :
    (w.makePublish topic d len qos retain).2.connection.bufferLength = w.connection.bufferLength := by
  rw [makePublish_eq]
  split
  · obtain ⟨a,l,h⟩ := w.askMqtt5_eq
    unfold composeNumbered composeMqtt5
    rw [h]
    dsimp only
    split
    · exact (messageId_frame _ 0).2
    · rfl
  · exact mqttMsgPublish_bufferLength w.connection topic d len qos retain

/-- A PUBLISH that is to be sent now. -/
theorem FrameP.composed (h : FrameP w.core) (topic : Option (List UInt8)) (d : CData) (len : ℤ)
    (qos retain : ℕ) (store : Bool) (hroom : Careful w.marks → 0 < w.connection.bufferLength)
    (r : Option ℕ × World) (hr : w.mqttClientEnqueuePublish topic d len qos retain store = r)
    (hsome : r.1.isSome) : FrameM len r.2.core := by
  have hframes : FrameP r.2.core := by
    rw [← hr]
    exact h.enqueuePublish topic d len qos retain store
  have hbehind := w.makePublish_behind topic d len qos retain
  have hbuffer := makePublish_bufferLength w topic d len qos retain
  have hmarks : (w.makePublish topic d len qos retain).2.marks = w.marks := by
    obtain ⟨c,hc⟩ := w.makePublish_core topic d len qos retain
    exact congrArg Core.marks hc
  have hcases := enqueuePublish_cases w topic d len qos retain store r hr _ rfl
  generalize (w.makePublish topic d len qos retain).2 = v at hbehind hbuffer hmarks hcases
  have hfull (hnothing : v.nothingComposed = false) : v.connection.outboundMessage.data ≠ [] := by
    intro hnil
    simp [World.nothingComposed, hnil] at hnothing
  have hroom' (ho : Careful v.marks) : 0 < v.connection.bufferLength := by
    rw [hbuffer]
    exact hroom (hmarks ▸ ho)
  -- a message that is reported is in the outbound message, stored or not
  rcases hcases with
    ⟨hn,-⟩ | ⟨-,hnothing,-,-,he⟩ | ⟨hn,-⟩ | ⟨hn,-⟩ | ⟨-,hnothing,-,rest,o,-,-,he⟩
  · rw [hn] at hsome
    exact absurd hsome (by decide)
  · rw [he] at hframes ⊢
    exact ⟨hframes, hbehind, hfull hnothing, hroom'⟩
  · rw [hn] at hsome
    exact absurd hsome (by decide)
  · rw [hn] at hsome
    exact absurd hsome (by decide)
  · rw [he] at hframes ⊢
    exact ⟨hframes, hbehind, hfull hnothing, hroom'⟩

/-- The first chunk is out; the packet awaits what is behind it. -/
theorem FrameM.sent {len : ℤ} (h : FrameM len w.core) (hok : w.writeOutcome.1 = .ok) (b : Bool) :
    FrameL (len-w.dataSent).toNat (len-w.dataSent)
      ((w.recordWrite .publish true).clearFragments.inChunk b).core where
  offset := rfl
  room ho := h.room (recordWrite_marks ho).1
  awaits ho ha := by
    obtain ⟨hout,hnot⟩ := chunk_whole (s := .publish) (f := true) hok
    -- what the loop has still to send is what was noted of the message when it was composed
    have hbehind : (w.chunk .publish true).behind = len-w.dataSent := h.behind
    have hmid := (h.frames (recordWrite_marks ho).1 (Announced.tail ha)).begins rfl hnot
    have hannounces : Announces (w.chunk .publish true).behind w.connection.outboundMessage.data :=
      Announced.head ha rfl
    rw [hbehind] at hannounces
    rw [hout] at hmid
    exact ⟨Nat.le_refl _, _, hmid, hannounces h.full⟩

/-- A piece that is not more than the packet awaits. -/
theorem FrameL.fits {k : ℕ} {r : ℤ} {piece : List UInt8} (h : FrameL k r w.core)
    (hpiece : piece.length = min w.connection.bufferLength r.toNat) : NextFits (w.refill piece).core := by
  intro ho ha
  obtain ⟨-,bytes,hmid,hawaits⟩ := h.awaits ho ha
  have hawaits' : Awaits (piece.length+(r.toNat-piece.length)) bytes := by
    rwa [show piece.length+(r.toNat-piece.length) = r.toNat by omega]
  exact ⟨bytes, hmid, hawaits'.append.truncated⟩

/-- It is out, and the packet awaits the less. -/
theorem FrameL.sent {k : ℕ} {r : ℤ} {piece : List UInt8} (h : FrameL (k+1) r w.core) (hr : 0 < r)
    (hpiece : piece.length = min w.connection.bufferLength r.toNat) {v : World} (hv : v = w.refill piece)
    (hok : v.writeOutcome.1 = .ok) :
    FrameL k (r-v.dataSent) (v.recordWrite .publish false).clearFragments.core where
  offset := rfl
  room ho := by
    have hroom := h.room
    rw [hv] at ho ⊢
    exact hroom (recordWrite_marks ho).1
  awaits ho ha := by
    have hmarks : v.marks = w.marks := by rw [hv]; rfl
    have hwire : v.wire = w.wire := by rw [hv]; rfl
    have hdata : v.connection.outboundMessage.data = piece := by rw [hv]; rfl
    have ho' : Careful w.marks := by
      rw [← hmarks]
      exact (recordWrite_marks ho).1
    have ha' : Announced w.wire := by
      rw [← hwire]
      exact Announced.tail ha
    obtain ⟨hk,bytes,hmid,hawaits⟩ := h.awaits ho' ha'
    have hroom : 0 < w.connection.bufferLength := h.room ho'
    have hsmall := hawaits.lt
    -- the refilled message has no offset, and the piece is short enough for the 32 bits
    have hsent : v.dataSent = piece.length := by
      have hoffset : w.connection.outboundMessage.fragmentedMsgDataOffset = 0 := h.offset
      have hbmod : v.dataSent = Int.bmod ((piece.length : ℤ)-0) (2^32) := by
        rw [hv, ← hoffset]
        rfl
      rw [hbmod, Int.sub_zero]
      exact Int.bmod_eq_of_le (by omega) (by omega)
    rw [hsent]
    refine ⟨by omega, bytes ++ piece, ?_, ?_⟩
    · obtain ⟨hout,hnot⟩ := chunk_whole (s := .publish) (f := false) hok
      rw [hdata] at hout
      have hconn : v.connections = w.connections := by rw [hv]; rfl
      change Unfinished v.connections (v.chunk .publish false :: v.wire) (bytes ++ piece)
      rw [hconn, hwire, ← hout]
      exact hmid.next hconn rfl hnot
    · apply Awaits.append
      rwa [show piece.length+(r-piece.length).toNat = r.toNat by omega]

end Frames

end EspMqtt
