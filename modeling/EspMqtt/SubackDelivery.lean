import EspMqtt.ClientRun
import EspMqtt.RemainingLength

/-! A SUBACK and the SUBSCRIBE it answers: what `mqtt_process_receive` makes of it, for any
number of filters. -/
namespace EspMqtt
open Wire

/-- A 3.1.1 SUBACK with these return codes. -/
structure IsSuback (f : Frame) (id : ℕ) (codes : List UInt8) : Prop where
  first : f.first = 0x90
  body : f.body = u16 id ++ codes
  range : 1 ≤ id ∧ id < 65536
  codes : ∀ c ∈ codes, c = 0 ∨ c = 1 ∨ c = 2 ∨ c = 0x80

/-- What `outbox_delete` looks for when a SUBACK comes. -/
def isSubscribe (id : ℕ) (i : OutboxItem) : Bool := i.msgId == id && i.msgType == some .subscribe

namespace World

/-- Calls of `mqtt_process_receive` up to the one that has a packet to handle. -/
inductive Handles (H : Handler) : World → Bool × World → Prop
  | now (w : World) (h : (mqttMessageReceive w.transport w.rx).1 = .message) :
    Handles H w (mqttProcessReceive H w)
  | later (w : World) (o : Bool × World) (h : (mqttMessageReceive w.transport w.rx).1 ≠ .message)
    (hok : (mqttProcessReceive H w).1 = true) (hn : Handles H (mqttProcessReceive H w).2 o) :
    Handles H w o

/-- The handler is called with SUBSCRIBED, this identifier and these codes, and finds the
SUBSCRIBE gone; then the next packet can come. -/
def TakesSuback (H : Handler) (w : World) (id : ℕ) (codes : List UInt8) (o : Bool × World) : Prop :=
  ∃ v e, o = (true, {H v with rx := {(H v).rx with inBufferReadLen := 0}}) ∧
    v.events = e :: w.events ∧ e.id = .subscribed ∧ e.msgId = id ∧ e.data = some codes ∧
    e.dataLen = codes.length ∧ v.outbox.list = w.outbox.list.eraseP (isSubscribe id)

/-- Whatever a 3.1.1 client does otherwise, with the SUBSCRIBE for these filters stored the SUBACK
`f` is taken, however its bytes arrive. -/
def Acknowledges (c : Connection) (topics : List (List UInt8 × ℕ)) (f : Frame)
    (codes : List UInt8) : Prop :=
  ∀ (H : Handler) rest w i o, w.isV5 = false → w.rx.inBufferReadLen = 0 →
    Partway f.bytes rest w.transport w.rx → f.bytes.length ≤ w.rx.inBufferLength →
    w.outbox.list.find? (isSubscribe (mqttMsgSubscribe c topics).1) = some i →
    i.buffer = (mqttMsgSubscribe c topics).2.outboundMessage.data → Handles H w o →
    TakesSuback H w (mqttMsgSubscribe c topics).1 codes o

/-- What a SUBACK with a length field of one byte makes of the client, `n` bytes being counted. -/
theorem processMessage_suback (H : Handler) {w : World} {id n : ℕ} {i : OutboxItem}
    (h5 : w.isV5 = false) (htype : w.rx.inBuffer.getD 0 0 = 0x90)
    (hone : w.rx.inBuffer.getD 1 0 &&& 0x80 = 0) (hid : be16 w.rx.inBuffer 2 = id)
    (hn : w.rx.inBufferReadLen = n) (hdata : (w.rx.inBuffer.take n).drop 4 ≠ []) (h4 : 4 < n)
    (hml : 4 ≤ w.rx.messageLength) (hbl : 4 ≤ w.rx.inBufferLength)
    (hfind : w.outbox.list.find? (isSubscribe id) = some i) :
    ∃ v e, processMessage H w = (true, H v) ∧ v.events = e :: w.events ∧ e.id = .subscribed ∧
      e.msgId = id ∧ e.data = some ((w.rx.inBuffer.take n).drop 4) ∧
      e.dataLen = ((w.rx.inBuffer.take n).drop 4).length ∧
      v.outbox.list = w.outbox.list.eraseP (isSubscribe id) := by
  have hget {m : ℕ} (hm : 4 ≤ m) : mqttGetId w.rx.inBuffer m = id := by
    have hack : mqttGetType 0x90 = some .suback := by decide
    unfold mqttGetId
    rw [if_neg (by omega), htype, hack]
    dsimp only
    rw [if_pos ⟨hm, hone⟩, hid]
  -- both times the identifier is taken from the buffer, once by the message's length, once by the
  -- buffer's
  have hreceived {u : World} {m : ℕ} (hu : u.isV5 = false) (hrx : u.rx = w.rx) (hm : 4 ≤ m) :
      u.receivedId m = id := by
    unfold receivedId
    rw [if_neg (by rw [hu]; simp), hrx, hget hm]
  have hdelete : w.outbox.delete id .subscribe = (true, {w.outbox with
      size := w.outbox.size-i.buffer.length, list := w.outbox.list.eraseP (isSubscribe id)}) := by
    have hfind' : w.outbox.list.find? (fun i => i.msgId == id && i.msgType == some .subscribe) =
      some i := hfind
    unfold Outbox.delete Outbox.removeFirst
    rw [hfind']
    rfl
  have hcodes : mqttGetSubackData w.rx.inBuffer n = (w.rx.inBuffer.take n).drop 4 := if_pos h4
  have hsuback : mqttGetType 0x90 = some .suback := by decide
  unfold processMessage
  rw [htype, hsuback, hreceived h5 rfl hml]
  dsimp only
  -- the world without the SUBSCRIBE
  have hremoved : (w.removeInitiatorMessage .subscribe id).1 = true ∧
      (w.removeInitiatorMessage .subscribe id).2.outbox.list = w.outbox.list.eraseP (isSubscribe id) := by
    unfold removeInitiatorMessage
    rw [hdelete]
    exact ⟨rfl,rfl⟩
  have hrx1 : (w.removeInitiatorMessage .subscribe id).2.rx = w.rx := rfl
  have h51 : (w.removeInitiatorMessage .subscribe id).2.isV5 = false := h5
  have hevents1 : (w.removeInitiatorMessage .subscribe id).2.events = w.events := rfl
  generalize w.removeInitiatorMessage .subscribe id = r at hremoved hrx1 h51 hevents1 ⊢
  obtain ⟨ok,w1⟩ := r
  obtain ⟨rfl,hlist1⟩ := hremoved
  dsimp only at hrx1 h51 hevents1 hlist1 ⊢
  unfold deliverSuback
  rw [h51, hrx1, hn, hcodes, if_neg Bool.false_ne_true]
  dsimp only
  rw [if_neg hdata]
  unfold dispatchEventWithMsgid dispatchEvent
  rw [hreceived (by exact h51) (by exact hrx1) (by dsimp only; rw [hrx1]; exact hbl)]
  exact ⟨_, _, rfl, by rw [← hevents1], rfl, rfl, rfl, rfl, hlist1⟩

end World

/-! The bytes of a SUBACK whose length field has one byte. -/

namespace IsSuback

variable {f : Frame} {id : ℕ} {codes : List UInt8}

theorem length (h : IsSuback f id codes) : f.bytes.length = f.headerLength+(2+codes.length) := by
  rw [f.bytes_length, h.body, List.length_append, u16_length]

theorem headerLength_eq (h1 : f.lens.length = 1) : f.headerLength = 2 := by
  unfold Frame.headerLength
  omega

theorem drop_four (h : IsSuback f id codes) (h1 : f.lens.length = 1) : f.bytes.drop 4 = codes := by
  obtain ⟨b,hb⟩ := List.length_eq_one_iff.mp h1
  unfold Frame.bytes
  rw [h.body, hb]
  rfl

/-- What the accessors see of it in a buffer that begins with it. -/
theorem fields (h : IsSuback f id codes) (h1 : f.lens.length = 1) {buffer : List UInt8} {n : ℕ}
    (hn : 4 ≤ n) (hb : ∀ j < n, buffer.getD j 0 = f.bytes.getD j 0) :
    buffer.getD 0 0 = 0x90 ∧ buffer.getD 1 0 &&& 0x80 = 0 ∧ be16 buffer 2 = id := by
  have htwo := headerLength_eq h1
  refine ⟨?_, ?_, ?_⟩
  · rw [hb 0 (by omega), ← h.first]
    rfl
  · have hstop := f.header_stops
    rw [htwo] at hstop
    rw [hb 1 (by omega)]
    exact (Base128.high_bit_clear_iff _).mpr hstop
  · have hbody (j : ℕ) (hj : j < 2) : buffer.getD (2+j) 0 = (u16 id).getD j 0 := by
      rw [hb (2+j) (by omega), ← htwo, f.getD_body, h.body, List.getD_append _ _ _ _ (by simpa using hj)]
    exact be16_u16 h.range.2 (hbody 0 (by omega)) (hbody 1 (by omega))

/-- With more bytes in its length field the second byte has the high bit. -/
theorem second_continues (h1 : f.lens.length ≠ 1) : f.bytes.getD 1 0 &&& 0x80 ≠ 0 := by
  have htwo := f.two_le_headerLength
  have hlong : 1+1 < f.headerLength := by
    unfold Frame.headerLength at htwo ⊢
    omega
  intro hlow
  have hcont := f.header_continues 1 le_rfl hlong
  have hstop := (Base128.high_bit_clear_iff _).mp hlow
  omega

end IsSuback

namespace World

/-- A call that has no packet to handle changes what has been read, and nothing else. -/
theorem mqttProcessReceive_waits (H : Handler) (w : World)
    (h : (mqttMessageReceive w.transport w.rx).1 = .nothing ∨
      (mqttMessageReceive w.transport w.rx).1 = .midMessageTimeout) :
    (mqttProcessReceive H w).2 = {w with
      transport := (mqttMessageReceive w.transport w.rx).2.1
      rx := (mqttMessageReceive w.transport w.rx).2.2} := by
  unfold mqttProcessReceive
  dsimp only
  rcases h with h | h
  · rw [h]
  · rw [h]

/-- A packet that is handled without error. -/
theorem mqttProcessReceive_message (H : Handler) (w : World)
    (h : (mqttMessageReceive w.transport w.rx).1 = .message) {u : World}
    (hu : processMessage H {w with
      transport := (mqttMessageReceive w.transport w.rx).2.1
      rx := (mqttMessageReceive w.transport w.rx).2.2} = (true, u)) :
    mqttProcessReceive H w = (true, {u with rx := {u.rx with inBufferReadLen := 0}}) := by
  unfold mqttProcessReceive
  dsimp only
  rw [h]
  dsimp only
  rw [hu, if_pos rfl]

/-- A SUBACK with a length field of one byte that does not run on is taken. -/
theorem Handles.takes {H : Handler} {f : Frame} {id : ℕ} {codes : List UInt8} (hs : IsSuback f id codes)
    (h1 : f.lens.length = 1) (hruns : ¬ RunsOn f) (hne : codes ≠ []) {rest : List UInt8} {w : World}
    {o : Bool × World} (h : Handles H w o) (h5 : w.isV5 = false)
    (hp : Partway f.bytes rest w.transport w.rx) (hlt : w.rx.inBufferReadLen < f.bytes.length)
    (hfit : f.bytes.length ≤ w.rx.inBufferLength) {i : OutboxItem}
    (hfind : w.outbox.list.find? (isSubscribe id) = some i) : TakesSuback H w id codes o := by
  have hlen := hs.length
  have htwo := IsSuback.headerLength_eq h1
  have hcount := List.length_pos_of_ne_nil hne
  -- along the calls before the packet is whole
  induction h with
  | now w hmsg =>
    obtain ⟨g1,g2,g3⟩ := mqttMessageReceive_fits f hruns rest w.transport w.rx hp hlt hfit
    rcases g3 with ⟨g3 | g3,-⟩ | ⟨-,g4,g5⟩
    · rw [hmsg] at g3
      cases g3
    · rw [hmsg] at g3
      cases g3
    · -- the buffer holds the packet and nothing else is counted
      have hb : ∀ j < f.bytes.length, (mqttMessageReceive w.transport w.rx).2.2.inBuffer.getD j 0 =
          f.bytes.getD j 0 := fun j hj =>
        ByteBuffer.getD_of_take_eq _ _ _ j 0 (by rw [g4]; exact hj) g1.seen
      obtain ⟨f1,f2,f3⟩ := hs.fields h1 (by omega) hb
      have hdata : ((mqttMessageReceive w.transport w.rx).2.2.inBuffer.take f.bytes.length).drop 4 =
          codes := by
        have hseen := g1.seen
        rw [g4, List.take_length] at hseen
        rw [hseen, hs.drop_four h1]
      obtain ⟨v,e,hv,e1,e2,e3,e4,e5,e6⟩ := processMessage_suback H (n := f.bytes.length)
        (w := {w with
          transport := (mqttMessageReceive w.transport w.rx).2.1
          rx := (mqttMessageReceive w.transport w.rx).2.2})
        h5 f1 f2 f3 g4 (by rw [hdata]; exact hne) (by omega) (by dsimp only; omega)
        (by dsimp only; omega) hfind
      dsimp only at e4 e5
      rw [hdata] at e4 e5
      exact ⟨v, e, mqttProcessReceive_message H w hmsg hv, e1, e2, e3, e4, e5, e6⟩
  | later w o hmsg hok hn ih =>
    obtain ⟨g1,g2,g3⟩ := mqttMessageReceive_fits f hruns rest w.transport w.rx hp hlt hfit
    rcases g3 with ⟨g3,g4⟩ | ⟨g3,-⟩
    · have hwait := mqttProcessReceive_waits H w g3
      rw [hwait] at ih
      obtain ⟨v,e,hv⟩ := ih h5 g1 g4 (by dsimp only; omega) hfind
      exact ⟨v, e, hv⟩
    · exact absurd g3 hmsg

/-- A SUBACK for which no SUBSCRIBE is stored raises no event. -/
theorem processMessage_suback_unknown (H : Handler) {w : World} {id : ℕ} (h5 : w.isV5 = false)
    (htype : w.rx.inBuffer.getD 0 0 = 0x90)
    (hid : mqttGetId w.rx.inBuffer w.rx.messageLength = id)
    (hfind : w.outbox.list.find? (isSubscribe id) = none) :
    ∃ u : World, processMessage H w = (true, u) ∧ u.events = w.events := by
  have hdelete : w.outbox.delete id .subscribe = (false, w.outbox) := by
    have hfind' : w.outbox.list.find? (fun i => i.msgId == id && i.msgType == some .subscribe) =
      none := hfind
    unfold Outbox.delete Outbox.removeFirst
    rw [hfind']
    rfl
  have hreceived : w.receivedId w.rx.messageLength = id := by
    unfold receivedId
    rw [if_neg (by rw [h5]; simp), hid]
  have hsuback : mqttGetType 0x90 = some .suback := by decide
  unfold processMessage
  rw [htype, hsuback, hreceived]
  dsimp only
  unfold removeInitiatorMessage
  rw [hdelete]
  exact ⟨_, rfl, rfl⟩

/-- A 3.1.1 client with one stored SUBSCRIBE, to which `stream` arrives by these reads. -/
def subscriber (i : OutboxItem) (stream : List UInt8) (reads : List ReadChoice) (bufferLength : ℕ) :
    World :=
  {clientInit smallSettings true (plainEnvironment [] [] []) with
    outbox := ⟨i.buffer.length, [i], 1⟩
    transport := ⟨true, stream, reads, [], []⟩
    rx := ⟨[], bufferLength, 0, 0⟩}

/-- It finds the SUBSCRIBE, and nothing under another identifier. -/
theorem find_singleton {i : OutboxItem} {id : ℕ} (hid : i.msgId = id)
    (htype : i.msgType = some .subscribe) (n : ℕ) :
    [i].find? (isSubscribe n) = if n = id then some i else none := by
  by_cases hn : n = id
  · rw [if_pos hn]
    apply List.find?_cons_of_pos
    simp [isSubscribe, hid, htype, hn]
  · rw [if_neg hn]
    have hneg : ¬ isSubscribe n i = true := by
      simp only [isSubscribe, hid, Bool.and_eq_true, beq_iff_eq]
      exact fun h => hn h.1.symm
    rw [List.find?_cons_of_neg hneg]
    rfl

/-- A schedule of reads without errors, from the first byte on. -/
theorem partway_start {p rest : List UInt8} {reads : List ReadChoice} {bufferLength : ℕ}
    (hreads : ∀ c ∈ reads, c = .timeout ∨ ∃ k, c = .chunk k) :
    Partway p rest ⟨true, p ++ rest, reads, [], []⟩ ⟨[], bufferLength, 0, 0⟩ :=
  ⟨⟨rfl, hreads⟩, by simp, by simp, rfl, rfl⟩

/-- With a longer length field `mqtt_get_id` answers 0, and the SUBACK is dropped. -/
theorem suback_dropped {f : Frame} {id : ℕ} {codes : List UInt8} (hs : IsSuback f id codes)
    (h1 : f.lens.length ≠ 1) {i : OutboxItem} (hid : i.msgId = id)
    (htype : i.msgType = some .subscribe) :
    ∃ w o, w.isV5 = false ∧ w.rx.inBufferReadLen = 0 ∧ Partway f.bytes [] w.transport w.rx ∧
      f.bytes.length ≤ w.rx.inBufferLength ∧ w.outbox.list = [i] ∧ Handles (fun w => w) w o ∧
      o.2.events = w.events := by
  let w := subscriber i (f.bytes ++ []) (wholeReads f ++ []) f.bytes.length
  have hreads : ∀ c ∈ wholeReads f ++ [], c = ReadChoice.timeout ∨ ∃ k, c = .chunk k := by
    intro c hc
    rw [List.append_nil, wholeReads] at hc
    rcases List.mem_append.mp hc with hc | hc
    · exact Or.inr ⟨0, (List.mem_replicate.mp hc).2⟩
    · split at hc
      · simp at hc
      · exact Or.inr ⟨_, List.mem_singleton.mp hc⟩
  have hp : Partway f.bytes [] w.transport w.rx := partway_start hreads
  obtain ⟨g1,-,g3,g4,-,g6⟩ := mqttMessageReceive_whole f [] w.transport w.rx [] hp rfl le_rfl rfl
  have htwo := f.two_le_headerLength
  have hlen := hs.length
  have hb : ∀ j < f.bytes.length, (mqttMessageReceive w.transport w.rx).2.2.inBuffer.getD j 0 =
      f.bytes.getD j 0 := fun j hj =>
    ByteBuffer.getD_of_take_eq _ _ _ j 0 (by rw [g3]; exact hj) g6.seen
  have hfirst : (mqttMessageReceive w.transport w.rx).2.2.inBuffer.getD 0 0 = 0x90 := by
    rw [hb 0 (by omega), ← hs.first]
    rfl
  have hsuback : mqttGetType 0x90 = some .suback := by decide
  -- the first length byte continues, and the accessor takes fields of one byte only
  have hzero : mqttGetId (mqttMessageReceive w.transport w.rx).2.2.inBuffer
      (mqttMessageReceive w.transport w.rx).2.2.messageLength = 0 := by
    unfold mqttGetId
    rw [g4, if_neg (by omega), hfirst, hsuback]
    dsimp only
    rw [if_neg]
    rintro ⟨-,hlow⟩
    rw [hb 1 (by omega)] at hlow
    exact IsSuback.second_continues h1 hlow
  have hnone : [i].find? (isSubscribe 0) = none := by
    rw [find_singleton hid htype, if_neg]
    have hrange := hs.range.1
    omega
  have hprocess := processMessage_suback_unknown (fun w => w) (w := {w with
      transport := (mqttMessageReceive w.transport w.rx).2.1
      rx := (mqttMessageReceive w.transport w.rx).2.2}) rfl hfirst hzero hnone
  obtain ⟨u,hu,hevents⟩ := hprocess
  have hcall := mqttProcessReceive_message (fun w => w) w g1 hu
  refine ⟨w, mqttProcessReceive (fun w => w) w, rfl, rfl, hp, le_rfl, rfl, .now w g1, ?_⟩
  rw [hcall]
  exact hevents

end World

theorem Partway.tracks {p rest : List UInt8} {l : ℕ} {t : Transport} {s : RxState}
    (h : Partway p rest t s) (hl : s.inBufferLength = l)
    (hv : mqttHasValidMsgHdr ((p ++ rest).getD 0 0) = true) : Tracks (p ++ rest) l t s := by
  have hle := h.le
  refine ⟨by rw [List.length_append]; omega, h.room, ?_, ?_, hl, fun _ => hv⟩
  · rw [h.seen, List.take_append_of_le_length hle]
  · rw [h.ahead, List.drop_append_of_le_length hle]

/-- Resumed before its last byte, a SUBACK that runs on is handed out with the byte behind it. -/
theorem mqttMessageReceive_overrun {f : Frame} {b : UInt8} (hfive : f.bytes.length = 5)
    (h2 : f.headerLength = 2) (hruns : RunsOn f) (hv : mqttHasValidMsgHdr f.first = true) {l : ℕ}
    (hl : 5 ≤ l) {t : Transport} {s : RxState} (hp : Partway f.bytes [b] t s)
    (hbl : s.inBufferLength = l) (hread : s.inBufferReadLen = 4)
    (ht : t.reads = [.chunk 0, .chunk 0]) :
    (mqttMessageReceive t s).1 = .message ∧
    (mqttMessageReceive t s).2.2.inBufferReadLen = 6 ∧
    (mqttMessageReceive t s).2.2.messageLength = 5 ∧
    Tracks (f.bytes ++ [b]) l (mqttMessageReceive t s).2.1 (mqttMessageReceive t s).2.2 := by
  have hlen : (f.bytes ++ [b]).length = 6 := by
    rw [List.length_append, hfive]
    rfl
  have hget (j : ℕ) (hj : j < 5) : (f.bytes ++ [b]).getD j 0 = f.bytes.getD j 0 :=
    List.getD_append _ _ _ _ (by omega)
  have hv' : mqttHasValidMsgHdr ((f.bytes ++ [b]).getD 0 0) = true := by
    rw [hget 0 (by omega)]
    exact hv
  have hgoes (j : ℕ) (hj : j = 3 ∨ j = 4) : Goes (f.bytes ++ [b]) j := by
    obtain ⟨-,-,hprev,hlast⟩ := hruns
    rw [hfive] at hprev hlast
    intro hlow
    have hclear := (Base128.high_bit_clear_iff _).mp hlow
    rw [hget j (by omega)] at hclear
    rcases hj with rfl | rfl
    · exact absurd hprev (Nat.not_le.mpr hclear)
    · exact absurd hlast (Nat.not_le.mpr hclear)
  have htr := (hp.tracks hbl hv').withMessageLength 0
  have hopen : t.isOpen = true := hp.calm.isOpen
  -- the last byte of the packet
  obtain ⟨bs,hres,hcount,hreads,hopen1,-,htr1⟩ := htr.read_chunk hopen ht (n := 1) (by omega)
    (by dsimp only; omega) hv'
  have hr1 : ({s with messageLength := 0}.store bs : RxState).inBufferReadLen = 5 := by
    rw [RxState.store_readLen, hcount]
    dsimp only
    omega
  -- and the one behind it
  obtain ⟨cs,hres2,hcount2,hreads2,hopen2,-,htr2⟩ := htr1.read_chunk hopen1 hreads (n := 1) (by omega)
    (by omega) hv'
  have hr2 : (({s with messageLength := 0}.store bs : RxState).store cs).inBufferReadLen = 6 := by
    rw [RxState.store_readLen, hcount2, hr1]
    omega
  have hc0 : ({s with messageLength := 0} : RxState).lastContinues = true := by
    rw [htr.lastContinues_iff (by dsimp only; omega)]
    exact hgoes _ (by dsimp only; omega)
  have hc1 : ({s with messageLength := 0}.store bs : RxState).lastContinues = true := by
    rw [htr1.lastContinues_iff (by omega)]
    exact hgoes _ (by omega)
  have hloop : remainingLengthLoop 6 t {s with messageLength := 0} =
      (none, (espTransportRead (espTransportRead t 1).2 1).2,
        ({s with messageLength := 0}.store bs : RxState).store cs) := by
    rw [remainingLengthLoop, ← Prod.eta (espTransportRead t 1), hres]
    dsimp only
    rw [if_pos ⟨by omega,hc1⟩, remainingLengthLoop,
      ← Prod.eta (espTransportRead (espTransportRead t 1).2 1), hres2]
    dsimp only
    rw [if_neg (by omega)]
  have hlength : totalLengthLoop (f.bytes ++ [b]) 5 4 1 0 = (3, 2) := by
    have hframe := mqttGetTotalLength_frame f (f.bytes ++ [b]) 5 (by omega)
      (List.take_append_of_le_length (by omega))
    unfold mqttGetTotalLength at hframe
    have hfst := congrArg Prod.fst hframe
    have hsnd := congrArg Prod.snd hframe
    dsimp only at hfst hsnd
    exact Prod.ext (by dsimp only; omega) (by dsimp only; omega)
  have hend : fieldEnd (f.bytes ++ [b]) = 2 := congrArg Prod.snd hlength
  have htotal := htr2.totalLength (n := 6) (by omega) (by omega)
  have hx : mqttMessageReceive t s = (.message, (espTransportRead (espTransportRead t 1).2 1).2,
      {({s with messageLength := 0}.store bs : RxState).store cs with messageLength := 5}) := by
    rw [mqttMessageReceive, receiveFirstByte, if_neg (by dsimp only; omega)]
    dsimp only
    rw [receiveRemainingLength, if_pos (Or.inr ⟨by dsimp only; omega, hc0⟩), hloop]
    dsimp only [receiveRest]
    unfold mqttGetTotalLength
    rw [hr2, htotal, hlength]
    dsimp only
    rw [if_neg (by rw [htr2.length]; omega)]
    unfold receiveUpTo
    rw [if_neg (by dsimp only; omega)]
  rw [hx]
  exact ⟨rfl, hr2, rfl, htr2.withMessageLength 5⟩

namespace World

/-- So the return codes reported are one too many. -/
theorem suback_overrun {f : Frame} {id : ℕ} {codes : List UInt8} (hs : IsSuback f id codes)
    (h1 : f.lens.length = 1) (hruns : RunsOn f) (hne : codes ≠ []) {i : OutboxItem}
    (hid : i.msgId = id) (htype : i.msgType = some .subscribe) :
    ∃ w o e, w.isV5 = false ∧ w.rx.inBufferReadLen = 0 ∧ Partway f.bytes [0xd0] w.transport w.rx ∧
      f.bytes.length ≤ w.rx.inBufferLength ∧ w.outbox.list = [i] ∧ Handles (fun w => w) w o ∧
      o.2.events = e :: w.events ∧ e.data = some (codes ++ [0xd0]) := by
  have htwo := IsSuback.headerLength_eq h1
  have hcount := List.length_pos_of_ne_nil hne
  have hlen := hs.length
  have hshort := hruns.1
  have hfive : f.bytes.length = 5 := by omega
  have hbody := f.bytes_length
  let w := subscriber i (f.bytes ++ [0xd0])
    (List.replicate f.headerLength (.chunk 0) ++ [.chunk 1, .chunk 0, .chunk 0]) 64
  have hreads : ∀ c ∈ List.replicate f.headerLength (ReadChoice.chunk 0) ++
      [.chunk 1, .chunk 0, .chunk 0], c = ReadChoice.timeout ∨ ∃ k, c = .chunk k := by
    intro c hc
    rcases List.mem_append.mp hc with hc | hc
    · exact Or.inr ⟨0, (List.mem_replicate.mp hc).2⟩
    · simp only [List.mem_cons, List.not_mem_nil, or_false] at hc
      rcases hc with rfl | rfl | rfl
      · exact Or.inr ⟨1, rfl⟩
      · exact Or.inr ⟨0, rfl⟩
      · exact Or.inr ⟨0, rfl⟩
  have hp : Partway f.bytes [0xd0] w.transport w.rx := partway_start hreads
  -- the header is read, then two of the three bytes behind it: the call ends with nothing
  obtain ⟨t1,s1,hx,hrs1,hr1,hbl1,hp1⟩ := mqttMessageReceive_header f _ w.transport w.rx _ hp rfl rfl
  have hbuf : s1.inBufferLength = 64 := hbl1
  obtain ⟨g1,g2,g3,-,g5,g6⟩ := receiveRest_chunk f _ t1 s1 1 _ hp1 hr1 (by omega) (by omega) hrs1
  rw [if_pos (by omega)] at g1
  rw [← hx] at g1 g2 g3 g5 g6
  have hwait := mqttProcessReceive_waits (fun w => w) w (Or.inl g1)
  have hv : mqttHasValidMsgHdr f.first = true := mqttHasValidMsgHdr_of_firstByteOk _ f.first_ok
  -- the last byte counted looks like a continuing length byte, so the next call reads on bytewise
  obtain ⟨k1,k2,k3,k4⟩ := mqttMessageReceive_overrun hfive htwo hruns hv (by omega : 5 ≤ 64) g6
    (g5.trans hbuf) (by omega) g2
  -- what the accessors find in the six bytes counted
  have hb : ∀ j < 5, (mqttMessageReceive (mqttMessageReceive w.transport w.rx).2.1
      (mqttMessageReceive w.transport w.rx).2.2).2.2.inBuffer.getD j 0 = f.bytes.getD j 0 := by
    intro j hj
    rw [k4.getD (by omega), List.getD_append _ _ _ _ (by omega)]
  obtain ⟨f1,f2,f3⟩ := hs.fields h1 (by omega) hb
  have hdata : ((mqttMessageReceive (mqttMessageReceive w.transport w.rx).2.1
      (mqttMessageReceive w.transport w.rx).2.2).2.2.inBuffer.take 6).drop 4 = codes ++ [0xd0] := by
    have hseen := k4.seen
    rw [k2] at hseen
    rw [hseen, List.take_of_length_le (by rw [List.length_append, hfive]; simp),
      List.drop_append_of_le_length (by omega), hs.drop_four h1]
  obtain ⟨v,e,hv2,e1,-,-,e4,-⟩ := processMessage_suback (fun w => w) (n := 6)
    (w := {w with
      transport := (mqttMessageReceive (mqttMessageReceive w.transport w.rx).2.1
        (mqttMessageReceive w.transport w.rx).2.2).2.1
      rx := (mqttMessageReceive (mqttMessageReceive w.transport w.rx).2.1
        (mqttMessageReceive w.transport w.rx).2.2).2.2}) rfl f1 f2 f3 k2 (by rw [hdata]; simp)
    (by omega) (by dsimp only; omega) (by dsimp only; rw [k4.length]; omega)
    (by
      have hfind := find_singleton hid htype id
      rwa [if_pos rfl] at hfind)
  have hcall := mqttProcessReceive_message (fun w => w) {w with
    transport := (mqttMessageReceive w.transport w.rx).2.1
    rx := (mqttMessageReceive w.transport w.rx).2.2} k1 hv2
  have hfirst : (mqttProcessReceive (fun w => w) w).1 = true := by
    unfold mqttProcessReceive
    dsimp only
    rw [g1]
  refine ⟨w, mqttProcessReceive (fun w => w) {w with
    transport := (mqttMessageReceive w.transport w.rx).2.1
    rx := (mqttMessageReceive w.transport w.rx).2.2}, e, rfl, rfl, hp, ?_, rfl, ?_, ?_, ?_⟩
  · rw [hfive]
    exact (by omega : 5 ≤ 64)
  · apply Handles.later w _ (by rw [g1]; simp) hfirst
    rw [hwait]
    exact .now _ k1
  · rw [hcall]
    exact e1
  · rw [e4]
    exact congrArg some hdata

/-- A SUBACK is taken exactly when its length field has one byte and it does not run on. -/
theorem suback_acknowledged_iff {c : Connection} {topics : List (List UInt8 × ℕ)}
    (h1 : 1 ≤ topics.length)
    {f : Frame} {codes : List UInt8} (hs : IsSuback f (mqttMsgSubscribe c topics).1 codes)
    (hn : codes.length = topics.length) :
    Acknowledges c topics f codes ↔ f.lens.length = 1 ∧ ¬ RunsOn f := by
  have hne : codes ≠ [] := List.ne_nil_of_length_pos (by omega)
  let i : OutboxItem := ⟨0, (mqttMsgSubscribe c topics).2.outboundMessage.data,
    (mqttMsgSubscribe c topics).1, some .subscribe, 0, 0, .transmitted, ⟨1, 1, true⟩⟩
  have hfind : [i].find? (isSubscribe (mqttMsgSubscribe c topics).1) = some i := by
    have hsame := @find_singleton i (mqttMsgSubscribe c topics).1 rfl rfl (mqttMsgSubscribe c topics).1
    rwa [if_pos rfl] at hsame
  constructor
  · intro h
    have hone : f.lens.length = 1 := by
      by_contra hlong
      obtain ⟨w,o,h5,hz,hp,hfit,hlist,hh,hevents⟩ := @suback_dropped f _ codes hs hlong i rfl rfl
      obtain ⟨v,e,hv,he,-⟩ := h _ [] w i o h5 hz hp hfit (by rw [hlist]; exact hfind) rfl hh
      rw [hv] at hevents
      have hgrown := he.symm.trans hevents
      exact absurd (congrArg List.length hgrown) (by simp)
    refine ⟨hone, fun hruns => ?_⟩
    obtain ⟨w,o,e',h5,hz,hp,hfit,hlist,hh,hevents,hdata⟩ :=
      @suback_overrun f _ codes hs hone hruns hne i rfl rfl
    obtain ⟨v,e,hv,he,-,-,hcodes,-⟩ := h _ [0xd0] w i o h5 hz hp hfit (by rw [hlist]; exact hfind) rfl hh
    rw [hv] at hevents
    have hsame : e = e' := (List.cons.inj (he.symm.trans hevents)).1
    rw [hsame, hdata] at hcodes
    exact absurd (congrArg List.length (Option.some.inj hcodes)) (by simp)
  · rintro ⟨hone,hruns⟩ H rest w j o h5 hz hp hfit hstored - hh
    have hlen := f.two_le_headerLength
    have hbytes := f.bytes_length
    exact hh.takes hs hone hruns hne h5 hp (by omega) hfit hstored

/-- A SUBSCRIBE with 126 filters of one byte each fits an output buffer of 1024 bytes. -/
def manyFilters : List (List UInt8 × ℕ) := List.replicate 126 ([0x61], 0)

def manyConnection : Connection := ⟨⟨[], 0, 0⟩, 6, 1024, true, []⟩

end World

/-- Its SUBACK has a length field of two bytes. -/
def longSuback : Frame where
  first := 0x90
  lens := [0x80, 0x01]
  body := u16 7 ++ List.replicate 126 0
  first_ok := by decide
  lens_ok := by decide
  lens_le := by decide
  body_length := by decide +kernel

theorem longSuback_isSuback : IsSuback longSuback 7 (List.replicate 126 0) where
  first := rfl
  body := rfl
  range := by decide
  codes := fun c hc => Or.inl (List.eq_of_mem_replicate hc)

/-- One filter and its SUBACK. -/
def shortSuback : Frame where
  first := 0x90
  lens := [3]
  body := u16 7 ++ [1]
  first_ok := by decide
  lens_ok := by decide
  lens_le := by decide
  body_length := by decide

theorem shortSuback_isSuback : IsSuback shortSuback 7 [1] where
  first := rfl
  body := rfl
  range := by decide
  codes := fun c hc => Or.inr (Or.inl (List.mem_singleton.mp hc))

namespace World

/-- The SUBACK for one filter is taken. -/
theorem suback_acknowledged_one : Acknowledges manyConnection [([0x61], 1)] shortSuback [1] :=
  (@suback_acknowledged_iff manyConnection [([0x61], 1)] (by decide) shortSuback
    [1] (by
      have hid : (mqttMsgSubscribe manyConnection [([0x61], 1)]).1 = 7 := by decide +kernel
      rw [hid]
      exact shortSuback_isSuback) rfl).mpr ⟨rfl, by decide⟩

/-- The SUBACK for 126 filters is not. -/
theorem suback_126_not_acknowledged :
    (mqttMsgSubscribe manyConnection manyFilters).2.outboundMessage.data ≠ [] ∧
    IsSuback longSuback (mqttMsgSubscribe manyConnection manyFilters).1 (List.replicate 126 0) ∧
    ¬ Acknowledges manyConnection manyFilters longSuback (List.replicate 126 0) := by
  have hid : (mqttMsgSubscribe manyConnection manyFilters).1 = 7 := by decide +kernel
  refine ⟨by decide +kernel, by rw [hid]; exact longSuback_isSuback, fun h => ?_⟩
  let i : OutboxItem := ⟨0, (mqttMsgSubscribe manyConnection manyFilters).2.outboundMessage.data, 7,
    some .subscribe, 0, 0, .transmitted, ⟨1, 1, true⟩⟩
  obtain ⟨w,o,h5,hz,hp,hfit,hlist,hh,hevents⟩ := @suback_dropped longSuback 7 _ longSuback_isSuback
    (by decide) i rfl rfl
  have hfind : w.outbox.list.find? (isSubscribe (mqttMsgSubscribe manyConnection manyFilters).1) =
      some i := by
    have hsame := @find_singleton i 7 rfl rfl 7
    rwa [if_pos rfl, ← hlist, ← hid] at hsame
  obtain ⟨v,e,hv,he,-⟩ := h _ [] w i o h5 hz hp hfit hfind rfl hh
  rw [hv] at hevents
  have hgrown := he.symm.trans hevents
  exact absurd (congrArg List.length hgrown) (by simp)

end World

end EspMqtt
