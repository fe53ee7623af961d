import EspMqtt.Framing

/-! Successive calls of `mqtt_message_receive` over one connection, as
`mqtt_process_receive` makes them, against the packets that are on the wire. -/
namespace EspMqtt
open Wire

/-- Why `mqtt_process_receive` gave a connection up. -/
inductive RxAbort where
  | noProgress | failure
  deriving DecidableEq, Repr

/-- The reader's side of a connection: what it has handed out so far, and
whether the connection has been given up. -/
structure RxSession where
  transport : Transport
  rx : RxState
  delivered : List (List UInt8)
  aborted : Option RxAbort
  deriving DecidableEq, Repr

/-- One receive of `mqtt_process_receive`: after a message the read count
starts again at 0; a timeout inside a packet is an error only when the call did
not read anything. -/
def receiveCall (c : RxSession) : RxSession :=
  if c.aborted ≠ none then c
  else
    match mqttMessageReceive c.transport c.rx with
    | (.message, t, s) =>
      {c with transport := t, rx := {s with inBufferReadLen := 0},
              delivered := c.delivered ++ [s.inBuffer.take s.messageLength]}
    | (.nothing, t, s) => {c with transport := t, rx := s}
    | (.midMessageTimeout, t, s) =>
      {c with transport := t, rx := s, aborted :=
        if c.rx.inBufferReadLen = s.inBufferReadLen then some .noProgress else none}
    | (.failure, t, s) => {c with transport := t, rx := s, aborted := some .failure}

/-- A fresh connection on which the peer sends `fs`. -/
def rxStart (fs : List Frame) (buffer : List UInt8) (reads : List ReadChoice) : RxSession :=
  { transport := ⟨true, stream fs, reads, [], []⟩
    rx := ⟨buffer, buffer.length, 0, 0⟩
    delivered := []
    aborted := none }

/-- What has been handed out is the beginning of the packet sequence, every
byte of it and no other byte has left the stream, apart from a proper prefix of
the next packet; with the stream used up every packet has been handed out. -/
structure Exact (fs : List Frame) (c : RxSession) : Prop where
  split : ∃ done rest, fs = done ++ rest ∧ c.delivered = done.map Frame.bytes ∧
    c.rx.inBuffer.take c.rx.inBufferReadLen ++ c.transport.stream = stream rest ∧
    (∀ f ∈ rest.head?, c.rx.inBufferReadLen < f.bytes.length) ∧
    (rest = [] → c.rx.inBufferReadLen = 0)
  complete : c.transport.stream = [] → c.delivered = fs.map Frame.bytes
  up : c.aborted = none

/-- Framing of `fs` does not depend on how the transport cuts the stream: after
any number of calls, under any schedule of timeouts and partial reads that lets
the reader make progress. -/
def SplitIndependent (fs : List Frame) (bufferLength : ℕ) : Prop :=
  ∀ (buffer : List UInt8) (reads : List ReadChoice) (n : ℕ), buffer.length = bufferLength →
    (∀ c ∈ reads, c = .timeout ∨ ∃ k, c = .chunk k) →
    (receiveCall^[n] (rxStart fs buffer reads)).aborted ≠ some .noProgress →
    Exact fs (receiveCall^[n] (rxStart fs buffer reads))

/-- Between two calls the reader is inside the first packet not handed out. -/
structure Reading (fs : List Frame) (bufferLength : ℕ) (c : RxSession) : Prop where
  bufferLength : c.rx.inBufferLength = bufferLength
  notFailed : c.aborted ≠ some .failure
  inside : ∃ done rest, fs = done ++ rest ∧ c.delivered = done.map Frame.bytes ∧
    ((rest = [] ∧ Partway [] [] c.transport c.rx) ∨
      ∃ f fs', rest = f :: fs' ∧ Partway f.bytes (stream fs') c.transport c.rx ∧
        c.rx.inBufferReadLen < f.bytes.length)

theorem partway_fresh (fs : List Frame) (t : Transport) (s : RxState) (hc : Calm t)
    (hr : s.inBufferReadLen = 0) (hs : t.stream = stream fs) :
    (fs = [] ∧ Partway [] [] t s) ∨
      ∃ f fs', fs = f :: fs' ∧ Partway f.bytes (stream fs') t s ∧
        s.inBufferReadLen < f.bytes.length := by
  cases fs with
  | nil =>
    refine Or.inl ⟨rfl, hc, by omega, by omega, by simp [hr], ?_⟩
    rw [hs]
    simp
  | cons f fs =>
    refine Or.inr ⟨f, fs, rfl, ⟨hc, by omega, by omega, by simp [hr], ?_⟩, ?_⟩
    · rw [hs, hr]; rfl
    · have := List.length_pos_of_ne_nil f.bytes_ne_nil
      omega

theorem reading_start (fs : List Frame) (buffer : List UInt8) (reads : List ReadChoice)
    (hr : ∀ c ∈ reads, c = .timeout ∨ ∃ k, c = .chunk k) :
    Reading fs buffer.length (rxStart fs buffer reads) :=
  ⟨rfl, by simp [rxStart], [], fs, rfl, rfl, partway_fresh fs _ _ ⟨rfl,hr⟩ rfl rfl⟩

/-- With nothing left on the wire a call times out. -/
theorem mqttMessageReceive_empty (t : Transport) (s : RxState) (h : Partway [] [] t s) :
    ∃ t', mqttMessageReceive t s = (.nothing, t', {s with messageLength := 0}) ∧
      Partway [] [] t' {s with messageLength := 0} := by
  have hr : s.inBufferReadLen = 0 := by have := h.le; simpa using this
  have hst : t.stream = [] := by simpa using h.ahead
  obtain ⟨hc,ht⟩ := h.calm.read 1
  have hno : (espTransportRead t 1).1 = .timeout ∧ (espTransportRead t 1).2.stream = t.stream := by
    rcases espTransportRead_cases t 1 with ⟨bs,he,hne,-,heq⟩ | ⟨hno,heq⟩
    · rw [hst] at heq
      exact absurd (List.append_eq_nil_iff.mp heq.symm).1 hne
    · rcases ht with ht | ⟨bs,hb⟩
      · exact ⟨ht,heq⟩
      · exact absurd hb (hno bs)
  refine ⟨(espTransportRead t 1).2, ?_, hc, h.le, h.room, h.seen, ?_⟩
  · simp only [mqttMessageReceive, receiveFirstByte, if_pos hr]
    rw [← Prod.eta (espTransportRead t 1), hno.1]
    rfl
  · rw [hno.2, hst]
    simp

/-- One call keeps the reader where it should be. -/
theorem receiveCall_reading (fs : List Frame) (bufferLength : ℕ)
    (hfit : ∀ f ∈ fs, f.bytes.length ≤ bufferLength) (hf : ∀ f ∈ fs, ¬ RunsOn f)
    (c : RxSession) (h : Reading fs bufferLength c) : Reading fs bufferLength (receiveCall c) := by
  obtain ⟨hbl,hnf,done,rest,rfl,hdel,hin⟩ := h
  unfold receiveCall
  split
  · exact ⟨hbl, hnf, done, rest, rfl, hdel, hin⟩
  rcases hin with ⟨rfl,hp⟩ | ⟨f,fs',rfl,hp,hlt⟩
  · obtain ⟨t',he,hp'⟩ := mqttMessageReceive_empty c.transport c.rx hp
    rw [he]
    exact ⟨hbl, hnf, done, [], rfl, hdel, Or.inl ⟨rfl,hp'⟩⟩
  · have hmem : f ∈ done ++ f :: fs' := by simp
    obtain ⟨g1,g2,g3⟩ := mqttMessageReceive_fits f (hf f hmem) (stream fs') c.transport c.rx hp hlt
      (by rw [hbl]; exact hfit f hmem)
    generalize mqttMessageReceive c.transport c.rx = o at g1 g2 g3
    obtain ⟨r,t,s⟩ := o
    dsimp only at g1 g2 g3
    have hbl' := g2.trans hbl
    rcases g3 with ⟨hres,hend⟩ | ⟨rfl,hend,hml⟩
    · rcases hres with rfl | rfl
      · exact ⟨hbl', hnf, done, f :: fs', rfl, hdel, Or.inr ⟨f,fs',rfl,g1,hend⟩⟩
      · have hnf' : (if c.rx.inBufferReadLen = s.inBufferReadLen then some RxAbort.noProgress
            else none) ≠ some .failure := by split <;> simp
        exact ⟨hbl', hnf', done, f :: fs', rfl, hdel, Or.inr ⟨f,fs',rfl,g1,hend⟩⟩
    · have hst : t.stream = stream fs' := by
        have := g1.ahead
        rwa [hend, List.drop_length, List.nil_append] at this
      have hpk : s.inBuffer.take s.messageLength = f.bytes := by
        have := g1.seen
        rwa [hend, List.take_length, ← hml] at this
      refine ⟨hbl', hnf, done ++ [f], fs', by simp, ?_, partway_fresh fs' t _ g1.calm rfl hst⟩
      simp only [hdel, hpk, List.map_append, List.map_cons, List.map_nil]

theorem reading_exact (fs : List Frame) (bufferLength : ℕ) (c : RxSession)
    (h : Reading fs bufferLength c) (hprog : c.aborted ≠ some .noProgress) : Exact fs c := by
  obtain ⟨-,hnf,done,rest,rfl,hdel,hin⟩ := h
  have hup : c.aborted = none := by
    rcases ha : c.aborted with _ | _ | _
    · rfl
    · exact absurd ha hprog
    · exact absurd ha hnf
  rcases hin with ⟨rfl,hp⟩ | ⟨f,fs',rfl,hp,hlt⟩
  · have hr : c.rx.inBufferReadLen = 0 := by have := hp.le; simpa using this
    have hst : c.transport.stream = [] := by simpa using hp.ahead
    refine ⟨⟨done, [], rfl, hdel, by simp [hr,hst], by simp, fun _ => hr⟩, fun _ => ?_, hup⟩
    simpa using hdel
  · refine ⟨⟨done, f :: fs', rfl, hdel, ?_, ?_, by simp⟩, fun hst => ?_, hup⟩
    · rw [hp.ahead, hp.seen, ← List.append_assoc, List.take_append_drop]
      rfl
    · simpa using hlt
    · have hd := hp.ahead
      rw [hst] at hd
      have := congrArg List.length (List.append_eq_nil_iff.mp hd.symm).1
      simp only [List.length_drop, List.length_nil] at this
      omega

theorem receiveCall_iterate_reading (fs : List Frame) (bufferLength : ℕ)
    (hfit : ∀ f ∈ fs, f.bytes.length ≤ bufferLength) (hf : ∀ f ∈ fs, ¬ RunsOn f)
    (n : ℕ) (c : RxSession) (h : Reading fs bufferLength c) :
    Reading fs bufferLength (receiveCall^[n] c) := by
  induction n generalizing c with
  | zero => exact h
  | succ n ih => exact ih _ (receiveCall_reading fs bufferLength hfit hf c h)

/-! The other direction: a schedule that makes the reader run on. -/

/-- A read the environment serves with data gets as much as was asked for and
allowed. -/
theorem Partway.read_chunk {p rest : List UInt8} {t : Transport} {s : RxState}
    (h : Partway p rest t s) (n k : ℕ) (rs : List ReadChoice) (ht : t.reads = .chunk k :: rs)
    (h0 : 0 < n) (hn : s.inBufferReadLen+n ≤ p.length) :
    ∃ bs, (espTransportRead t n).1 = .bytes bs ∧ bs.length = min (k+1) n ∧
      (espTransportRead t n).2.reads = rs ∧ Partway p rest (espTransportRead t n).2 (s.store bs) := by
  have hlen : n ≤ t.stream.length := by
    rw [h.ahead, List.length_append, List.length_drop]
    omega
  have hx : espTransportRead t n = (.bytes (t.stream.take (min (k+1) n)),
      {t with reads := rs, stream := t.stream.drop (min (k+1) n)}) := by
    simp only [espTransportRead, h.calm.isOpen, ht, if_true, Nat.min_eq_left hlen]
    rw [if_neg (by omega)]
  rcases h.read n hn with ⟨he,-⟩ | ⟨bs,he,-,-,hp⟩
  · rw [hx] at he
    cases he
  · refine ⟨bs, he, ?_, by rw [hx], hp⟩
    rw [hx] at he
    cases he
    rw [List.length_take]
    omega

/-- One byte per read takes the loop exactly to the end of the fixed header. -/
theorem remainingLengthLoop_whole (f : Frame) (rest : List UInt8) (m k : ℕ) (t : Transport)
    (s : RxState) (rs : List ReadChoice) (h : Partway f.bytes rest t s)
    (h1 : 1 ≤ s.inBufferReadLen) (hm : s.inBufferReadLen+m+1 = f.headerLength)
    (hk : m < k) (ht : t.reads = List.replicate (m+1) (.chunk 0) ++ rs) :
    (remainingLengthLoop k t s).1 = none ∧
    (remainingLengthLoop k t s).2.1.reads = rs ∧
    (remainingLengthLoop k t s).2.2.inBufferReadLen = f.headerLength ∧
    (remainingLengthLoop k t s).2.2.inBufferLength = s.inBufferLength ∧
    Partway f.bytes rest (remainingLengthLoop k t s).2.1 (remainingLengthLoop k t s).2.2 := by
  have hlen := f.bytes_length
  have hh := f.headerLength_le
  induction m generalizing k t s with
  | zero =>
    obtain ⟨k,rfl⟩ : ∃ j, k = j+1 := ⟨k-1, by omega⟩
    obtain ⟨bs,he,hl,hrs,hp⟩ := h.read_chunk 1 0 rs ht (by omega) (by omega)
    have hr : (s.store bs).inBufferReadLen = f.headerLength := by
      rw [RxState.store_readLen, hl]; omega
    have hstop : ¬ (s.store bs).lastContinues = true := by
      rw [hp.lastContinues_iff (by omega), hr]
      have := f.header_stops
      omega
    have hx : remainingLengthLoop (k+1) t s = (none, (espTransportRead t 1).2, s.store bs) := by
      rw [remainingLengthLoop, ← Prod.eta (espTransportRead t 1), he]
      exact if_neg (fun hh => hstop hh.2)
    rw [hx]
    exact ⟨rfl, hrs, hr, rfl, hp⟩
  | succ m ih =>
    obtain ⟨k,rfl⟩ : ∃ j, k = j+1 := ⟨k-1, by omega⟩
    obtain ⟨bs,he,hl,hrs,hp⟩ := h.read_chunk 1 0 _ ht (by omega) (by omega)
    have hr : (s.store bs).inBufferReadLen = s.inBufferReadLen+1 := by
      rw [RxState.store_readLen, hl]; omega
    have hgo : (s.store bs).inBufferReadLen < 6 ∧ (s.store bs).lastContinues = true := by
      refine ⟨by omega, ?_⟩
      rw [hp.lastContinues_iff (by omega), hr, Nat.add_sub_cancel]
      exact f.header_continues s.inBufferReadLen h1 (by omega)
    have hx : remainingLengthLoop (k+1) t s =
        remainingLengthLoop k (espTransportRead t 1).2 (s.store bs) := by
      rw [remainingLengthLoop, ← Prod.eta (espTransportRead t 1), he]
      exact if_pos hgo
    rw [hx]
    exact ih k (espTransportRead t 1).2 (s.store bs) hp (by omega) (by omega) (by omega)
      (by rw [hrs]; rfl)

/-- Byte by byte up to the end of the fixed header, in one call. -/
theorem mqttMessageReceive_header (f : Frame) (rest : List UInt8) (t : Transport) (s : RxState)
    (rs : List ReadChoice) (h : Partway f.bytes rest t s) (h0 : s.inBufferReadLen = 0)
    (ht : t.reads = List.replicate f.headerLength (.chunk 0) ++ rs) :
    ∃ t' s', mqttMessageReceive t s = receiveRest t' s' ∧ t'.reads = rs ∧
      s'.inBufferReadLen = f.headerLength ∧ s'.inBufferLength = s.inBufferLength ∧
      Partway f.bytes rest t' s' := by
  have hlen := f.bytes_length
  have htwo := f.two_le_headerLength
  have hh := f.headerLength_le
  have hrep : List.replicate f.headerLength (ReadChoice.chunk 0) =
      .chunk 0 :: List.replicate (f.headerLength-2+1) (.chunk 0) := by
    rw [← List.replicate_succ]
    congr 1
    omega
  rw [hrep] at ht
  have h' := h.withMessageLength 0
  obtain ⟨bs,he,hl,hrs,hp⟩ := h'.read_chunk 1 0 _ ht (by omega) (by dsimp only; omega)
  obtain ⟨b,rfl⟩ := List.length_eq_one_iff.mp (by omega : bs.length = 1)
  have hb : b = f.first := by
    have hs := hp.seen
    simp only [RxState.store, h0, ByteBuffer.splice, Frame.bytes] at hs
    simpa using hs
  have hv : mqttHasValidMsgHdr ([b].getD 0 0) = true := by
    rw [hb]; exact mqttHasValidMsgHdr_of_firstByteOk _ f.first_ok
  have hr1 : ({s with messageLength := 0}.store [b] : RxState).inBufferReadLen = 1 := by
    simp [h0]
  obtain ⟨g1,g2,g3,g4,g5⟩ := remainingLengthLoop_whole f rest (f.headerLength-2) 6
    (espTransportRead t 1).2 _ rs hp (by omega) (by omega) (by omega) hrs
  refine ⟨_, _, ?_, g2, g3, g4, g5⟩
  have hfirst : receiveFirstByte t {s with messageLength := 0} =
      (none, (espTransportRead t 1).2, {s with messageLength := 0}.store [b]) := by
    simp only [receiveFirstByte, if_pos h0]
    rw [← Prod.eta (espTransportRead t 1), he]
    simp only [hv, if_true]
  have hsecond : receiveRemainingLength (espTransportRead t 1).2
      ({s with messageLength := 0}.store [b]) =
      remainingLengthLoop 6 (espTransportRead t 1).2 ({s with messageLength := 0}.store [b]) := by
    rw [receiveRemainingLength]
    exact if_pos (Or.inl hr1)
  rw [mqttMessageReceive, hfirst]
  dsimp only
  rw [hsecond, ← Prod.eta (remainingLengthLoop 6 _ _), g1]

/-- Behind the header of a packet that fits, one read of `k+1` bytes. -/
theorem receiveRest_chunk (f : Frame) (rest : List UInt8) (t : Transport) (s : RxState) (k : ℕ)
    (rs : List ReadChoice) (h : Partway f.bytes rest t s)
    (hr : s.inBufferReadLen = f.headerLength) (hfit : f.bytes.length ≤ s.inBufferLength)
    (hk : k < f.body.length) (ht : t.reads = .chunk k :: rs) :
    (receiveRest t s).1 = (if k+1 < f.body.length then .nothing else .message) ∧
    (receiveRest t s).2.1.reads = rs ∧
    (receiveRest t s).2.2.inBufferReadLen = f.headerLength+(k+1) ∧
    (receiveRest t s).2.2.messageLength = f.bytes.length ∧
    (receiveRest t s).2.2.inBufferLength = s.inBufferLength ∧
    Partway f.bytes rest (receiveRest t s).2.1 (receiveRest t s).2.2 := by
  have hlen := f.bytes_length
  have htot := mqttGetTotalLength_frame f s.inBuffer s.inBufferReadLen (by omega) h.seen
  have h' := h.withMessageLength f.bytes.length
  obtain ⟨bs,he,hl,hrs,hp⟩ := h'.read_chunk (f.bytes.length-s.inBufferReadLen) k rs ht
    (by omega) (by dsimp only; omega)
  have hr' : ({s with messageLength := f.bytes.length}.store bs : RxState).inBufferReadLen =
      f.headerLength+(k+1) := by
    rw [RxState.store_readLen, hl]
    dsimp only
    omega
  have hx : receiveRest t s =
      if f.headerLength+(k+1) < f.bytes.length then
        (.nothing, (espTransportRead t (f.bytes.length-s.inBufferReadLen)).2,
          {s with messageLength := f.bytes.length}.store bs)
      else (.message, (espTransportRead t (f.bytes.length-s.inBufferReadLen)).2,
          {s with messageLength := f.bytes.length}.store bs) := by
    simp only [receiveRest, htot, if_neg (show ¬ s.inBufferLength < f.bytes.length by omega),
      receiveUpTo, if_pos (show s.inBufferReadLen < f.bytes.length by omega)]
    rw [← Prod.eta (espTransportRead t (f.bytes.length-s.inBufferReadLen)), he]
    simp only [hr']
  rw [hx]
  by_cases hc : k+1 < f.body.length
  · rw [if_pos (by omega), if_pos hc]
    exact ⟨rfl, hrs, hr', rfl, rfl, hp⟩
  · rw [if_neg (by omega), if_neg hc]
    exact ⟨rfl, hrs, hr', rfl, rfl, hp⟩

/-- The reads that take a packet in one call. -/
def wholeReads (f : Frame) : List ReadChoice :=
  List.replicate f.headerLength (.chunk 0) ++
    (if f.body = [] then [] else [.chunk (f.body.length-1)])

theorem mqttMessageReceive_whole (f : Frame) (rest : List UInt8) (t : Transport) (s : RxState)
    (rs : List ReadChoice) (h : Partway f.bytes rest t s) (h0 : s.inBufferReadLen = 0)
    (hfit : f.bytes.length ≤ s.inBufferLength) (ht : t.reads = wholeReads f ++ rs) :
    (mqttMessageReceive t s).1 = .message ∧
    (mqttMessageReceive t s).2.1.reads = rs ∧
    (mqttMessageReceive t s).2.2.inBufferReadLen = f.bytes.length ∧
    (mqttMessageReceive t s).2.2.messageLength = f.bytes.length ∧
    (mqttMessageReceive t s).2.2.inBufferLength = s.inBufferLength ∧
    Partway f.bytes rest (mqttMessageReceive t s).2.1 (mqttMessageReceive t s).2.2 := by
  have hlen := f.bytes_length
  rw [wholeReads, List.append_assoc] at ht
  obtain ⟨t',s',hx,hrs,hr,hbl,hp⟩ := mqttMessageReceive_header f rest t s _ h h0 ht
  rw [hx]
  by_cases hb : f.body = []
  · have hz : f.body.length = 0 := by rw [hb]; rfl
    have htot := mqttGetTotalLength_frame f s'.inBuffer s'.inBufferReadLen (by omega) hp.seen
    have hx' : receiveRest t' s' = (.message, t', {s' with messageLength := f.bytes.length}) := by
      simp only [receiveRest, htot, if_neg (show ¬ s'.inBufferLength < f.bytes.length by omega),
        receiveUpTo, if_neg (show ¬ s'.inBufferReadLen < f.bytes.length by omega)]
    rw [hx', if_pos hb] at *
    exact ⟨rfl, hrs, by dsimp only; omega, rfl, hbl, hp.withMessageLength _⟩
  · rw [if_neg hb] at hrs
    have hpos := List.length_pos_of_ne_nil hb
    obtain ⟨g1,g2,g3,g4,g5,g6⟩ := receiveRest_chunk f rest t' s' (f.body.length-1) rs hp hr
      (by omega) (by omega) hrs
    rw [if_neg (by omega)] at g1
    exact ⟨g1, g2, by omega, g4, by omega, g6⟩

theorem receiveCall_message (c : RxSession) (ha : c.aborted = none)
    (hm : (mqttMessageReceive c.transport c.rx).1 = .message) :
    receiveCall c = {c with
      transport := (mqttMessageReceive c.transport c.rx).2.1
      rx := {(mqttMessageReceive c.transport c.rx).2.2 with inBufferReadLen := 0}
      delivered := c.delivered ++ [(mqttMessageReceive c.transport c.rx).2.2.inBuffer.take
        (mqttMessageReceive c.transport c.rx).2.2.messageLength]} := by
  unfold receiveCall
  rw [if_neg (by simp [ha])]
  generalize mqttMessageReceive c.transport c.rx = o at hm
  obtain ⟨r,t,s⟩ := o
  dsimp only at hm
  subst hm
  rfl

/-- A whole-packet schedule brings the reader to the start of what follows. -/
theorem receiveCall_iterate_whole (pre tail : List Frame) (rs : List ReadChoice) (c : RxSession)
    (ha : c.aborted = none) (h0 : c.rx.inBufferReadLen = 0) (hc : Calm c.transport)
    (hs : c.transport.stream = stream (pre ++ tail))
    (ht : c.transport.reads = pre.flatMap wholeReads ++ rs)
    (hfit : ∀ f ∈ pre, f.bytes.length ≤ c.rx.inBufferLength) :
    ∃ c', receiveCall^[pre.length] c = c' ∧ c'.aborted = none ∧ c'.rx.inBufferReadLen = 0 ∧
      Calm c'.transport ∧ c'.transport.stream = stream tail ∧ c'.transport.reads = rs ∧
      c'.delivered = c.delivered ++ pre.map Frame.bytes ∧
      c'.rx.inBufferLength = c.rx.inBufferLength := by
  induction pre generalizing c with
  | nil => exact ⟨c, rfl, ha, h0, hc, hs, ht, by simp, rfl⟩
  | cons f pre ih =>
    have hp : Partway f.bytes (stream (pre ++ tail)) c.transport c.rx :=
      ⟨hc, by omega, by omega, by simp [h0], by rw [hs, h0]; rfl⟩
    rw [List.flatMap_cons, List.append_assoc] at ht
    obtain ⟨g1,g2,g3,g4,g5,g6⟩ := mqttMessageReceive_whole f _ c.transport c.rx _ hp h0
      (hfit f List.mem_cons_self) ht
    have hx := receiveCall_message c ha g1
    have hst : (mqttMessageReceive c.transport c.rx).2.1.stream = stream (pre ++ tail) := by
      have := g6.ahead
      rwa [g3, List.drop_length, List.nil_append] at this
    have hpk := g6.seen
    rw [g3, List.take_length] at hpk
    obtain ⟨c',he,h1,h2,h3,h4,h5,h6,h7⟩ := ih (receiveCall c) (by rw [hx]; exact ha)
      (by rw [hx]) (by rw [hx]; exact g6.calm) (by rw [hx]; exact hst) (by rw [hx]; exact g2)
      (fun g hg => by rw [hx]; dsimp only; rw [g5]; exact hfit g (List.mem_cons_of_mem _ hg))
    refine ⟨c', he, h1, h2, h3, h4, h5, ?_, ?_⟩
    · rw [h6, hx]
      dsimp only
      rw [g4, hpk]
      simp only [List.map_cons, List.append_assoc, List.singleton_append]
    · rw [h7, hx]
      exact g5

theorem espTransportRead_timeout (t : Transport) (n : ℕ) (rs : List ReadChoice)
    (ho : t.isOpen = true) (ht : t.reads = .timeout :: rs) :
    (espTransportRead t n).1 = .timeout := by
  simp only [espTransportRead, ho, ht, if_true]

/-- Resumed before its last byte, a packet that runs on is read to its end and
then waited beyond. -/
theorem mqttMessageReceive_runs_on (f : Frame) (hf : RunsOn f) (rest : List UInt8)
    (t : Transport) (s : RxState) (h : Partway f.bytes rest t s)
    (hr : s.inBufferReadLen+1 = f.bytes.length) (ht : t.reads = [.chunk 0, .timeout]) :
    (mqttMessageReceive t s).1 = .midMessageTimeout ∧
    (mqttMessageReceive t s).2.2.inBufferReadLen = f.bytes.length := by
  obtain ⟨hshort,hbody,hprev,hlast⟩ := hf
  have hlen := f.bytes_length
  have htwo := f.two_le_headerLength
  have h' := h.withMessageLength 0
  obtain ⟨bs,he,hl,hrs,hp⟩ := h'.read_chunk 1 0 _ ht (by omega) (by dsimp only; omega)
  have hr' : ({s with messageLength := 0}.store bs : RxState).inBufferReadLen = f.bytes.length := by
    rw [RxState.store_readLen, hl]
    dsimp only
    omega
  have hc0 : ({s with messageLength := 0} : RxState).lastContinues = true := by
    rw [h'.lastContinues_iff (by dsimp only; omega)]
    dsimp only
    rwa [show s.inBufferReadLen-1 = f.bytes.length-2 by omega]
  have hc1 : ({s with messageLength := 0}.store bs : RxState).lastContinues = true := by
    rw [hp.lastContinues_iff (by omega), hr']
    exact hlast
  have hwait : (espTransportRead (espTransportRead t 1).2 1).1 = .timeout :=
    espTransportRead_timeout _ 1 [] hp.calm.isOpen hrs
  have hloop : remainingLengthLoop 6 t {s with messageLength := 0} =
      (some .midMessageTimeout, (espTransportRead (espTransportRead t 1).2 1).2,
        {s with messageLength := 0}.store bs) := by
    rw [remainingLengthLoop, ← Prod.eta (espTransportRead t 1), he]
    dsimp only
    rw [if_pos ⟨by omega,hc1⟩, remainingLengthLoop,
      ← Prod.eta (espTransportRead (espTransportRead t 1).2 1), hwait]
    rfl
  have hx : mqttMessageReceive t s = (.midMessageTimeout,
      (espTransportRead (espTransportRead t 1).2 1).2, {s with messageLength := 0}.store bs) := by
    rw [mqttMessageReceive, receiveFirstByte, if_neg (by dsimp only; omega)]
    dsimp only
    rw [receiveRemainingLength, if_pos (Or.inr ⟨by dsimp only; omega, hc0⟩), hloop]
  rw [hx]
  exact ⟨rfl,hr'⟩

/-- The schedule that splits `f` before its last byte. -/
def splitReads (f : Frame) : List ReadChoice :=
  List.replicate f.headerLength (.chunk 0) ++ [.chunk (f.body.length-2), .chunk 0, .timeout]

theorem receiveCall_iterate_split (f : Frame) (hf : RunsOn f) (fs : List Frame) (c : RxSession)
    (ha : c.aborted = none) (h0 : c.rx.inBufferReadLen = 0) (hc : Calm c.transport)
    (hs : c.transport.stream = stream (f :: fs)) (ht : c.transport.reads = splitReads f)
    (hfit : f.bytes.length ≤ c.rx.inBufferLength) :
    (receiveCall^[2] c).aborted = none ∧ (receiveCall^[2] c).delivered = c.delivered ∧
    (receiveCall^[2] c).rx.inBufferReadLen = f.bytes.length := by
  obtain ⟨hshort,hbody,-,-⟩ := id hf
  have hlen := f.bytes_length
  have hp : Partway f.bytes (stream fs) c.transport c.rx :=
    ⟨hc, by omega, by omega, by simp [h0], by rw [hs, h0]; rfl⟩
  obtain ⟨t1,s1,hx1,hrs1,hr1,hbl1,hp1⟩ := mqttMessageReceive_header f _ c.transport c.rx _ hp h0 ht
  obtain ⟨g1,g2,g3,-,-,g6⟩ := receiveRest_chunk f _ t1 s1 (f.body.length-2) _ hp1 hr1
    (by omega) (by omega) hrs1
  rw [if_pos (by omega)] at g1
  have hcall1 : receiveCall c =
      {c with transport := (receiveRest t1 s1).2.1, rx := (receiveRest t1 s1).2.2} := by
    unfold receiveCall
    rw [if_neg (by simp [ha]), hx1]
    generalize receiveRest t1 s1 = o at g1
    obtain ⟨r,t,s⟩ := o
    dsimp only at g1
    subst g1
    rfl
  obtain ⟨k1,k2⟩ := mqttMessageReceive_runs_on f hf _ _ _ g6 (by omega) g2
  have hcall2 : receiveCall (receiveCall c) = {c with
      transport := (mqttMessageReceive (receiveRest t1 s1).2.1 (receiveRest t1 s1).2.2).2.1
      rx := (mqttMessageReceive (receiveRest t1 s1).2.1 (receiveRest t1 s1).2.2).2.2
      aborted := none} := by
    rw [hcall1]
    unfold receiveCall
    rw [if_neg (by simp [ha])]
    have hne : (receiveRest t1 s1).2.2.inBufferReadLen ≠
        (mqttMessageReceive (receiveRest t1 s1).2.1
          (receiveRest t1 s1).2.2).2.2.inBufferReadLen := by
      rw [k2, g3]
      omega
    revert hne
    dsimp only
    generalize mqttMessageReceive (receiveRest t1 s1).2.1 (receiveRest t1 s1).2.2 = o at k1
    obtain ⟨r,t,s⟩ := o
    dsimp only at k1
    subst k1
    intro hne
    dsimp only at hne ⊢
    rw [if_neg hne]
  have h2 : receiveCall^[2] c = receiveCall (receiveCall c) := rfl
  rw [h2, hcall2]
  exact ⟨rfl, rfl, k2⟩

/-- Inbound framing is independent of the way the stream is cut exactly when no
packet on the wire runs on. -/
theorem framing_split_independent_iff (fs : List Frame) (bufferLength : ℕ)
    (hfit : ∀ f ∈ fs, f.bytes.length ≤ bufferLength) :
    SplitIndependent fs bufferLength ↔ ∀ f ∈ fs, ¬ RunsOn f := by
  constructor
  · intro h f hf hrun
    obtain ⟨pre,post,rfl⟩ := List.append_of_mem hf
    let reads := pre.flatMap wholeReads ++ splitReads f
    have hcalm : ∀ c ∈ reads, c = ReadChoice.timeout ∨ ∃ k, c = .chunk k := by
      intro c hc
      simp only [reads, wholeReads, splitReads, List.mem_append, List.mem_flatMap,
        List.mem_replicate, List.mem_cons, List.not_mem_nil, or_false] at hc
      rcases hc with ⟨g,-,⟨-,rfl⟩ | hc⟩ | ⟨-,rfl⟩ | rfl | rfl | rfl
      · exact Or.inr ⟨_,rfl⟩
      · split at hc
        · simp at hc
        · exact Or.inr ⟨_, by simpa using hc⟩
      · exact Or.inr ⟨_,rfl⟩
      · exact Or.inr ⟨_,rfl⟩
      · exact Or.inr ⟨_,rfl⟩
      · exact Or.inl rfl
    let c0 := rxStart (pre ++ f :: post) (List.replicate bufferLength 0) reads
    have hbl : c0.rx.inBufferLength = bufferLength := by simp [c0, rxStart]
    obtain ⟨c1,he1,a1,a2,a3,a4,a5,a6,a7⟩ := receiveCall_iterate_whole pre (f :: post)
      (splitReads f) c0 rfl rfl ⟨rfl,hcalm⟩ rfl rfl
      (fun g hg => by rw [hbl]; exact hfit g (List.mem_append_left _ hg))
    obtain ⟨b1,b2,b3⟩ := receiveCall_iterate_split f hrun post c1 a1 a2 a3 a4 a5
      (by rw [a7, hbl]; exact hfit f hf)
    have hit : receiveCall^[2+pre.length] c0 = receiveCall^[2] c1 := by
      rw [Function.iterate_add_apply, he1]
    have hex := h (List.replicate bufferLength 0) reads (2+pre.length) (by simp) hcalm
      (by rw [hit, b1]; simp)
    rw [hit] at hex
    obtain ⟨done,rest,hsplit,hdel,-,hhead,-⟩ := hex.split
    -- nothing of `f` was handed out, so `f` is the next packet, and all of it is consumed
    have hlen : done.length = pre.length := by
      have := congrArg List.length (hdel.symm.trans (b2.trans a6))
      simpa [c0, rxStart] using this
    have hrest : rest = f :: post := by
      have := List.append_inj hsplit hlen.symm
      exact this.2.symm
    have := hhead f (by rw [hrest]; rfl)
    omega
  · intro h buffer reads n hb hr hprog
    subst hb
    exact reading_exact fs _ _
      (receiveCall_iterate_reading fs _ hfit h n _ (reading_start fs buffer reads hr)) hprog

/-- PUBACK of a message identifier. -/
def pubackFrame (msb lsb : UInt8) : Frame where
  first := 0x40
  lens := [2]
  body := [msb, lsb]
  first_ok := by decide
  lens_ok := by decide
  lens_le := by decide
  body_length := rfl

/-- A PUBACK of 0x1234 followed by one of 0x8001 is framed right under every
schedule. -/
theorem framing_split_independent_pubacks :
    SplitIndependent [pubackFrame 0x12 0x34, pubackFrame 0x80 0x01] 1024 :=
  (framing_split_independent_iff _ _ (by decide)).mpr (by decide)

/-- A PUBACK of 0x8081, cut before its last byte: the whole packet is consumed
and never handed out. -/
theorem puback_8081_not_split_independent :
    (∀ f ∈ [pubackFrame 0x80 0x81], f.bytes.length ≤ 1024) ∧
    ¬ SplitIndependent [pubackFrame 0x80 0x81] 1024 := by
  refine ⟨by decide, fun h => ?_⟩
  have hex := h (List.replicate 1024 0) [.chunk 0, .chunk 0, .chunk 0, .chunk 0, .timeout] 2
    List.length_replicate (by simp) (by decide +kernel)
  have hdel := hex.complete (by decide +kernel)
  revert hdel
  decide +kernel

end EspMqtt
