import EspMqtt.PublishParse
import EspMqtt.Event

/-! `deliver_publish`: the DATA events of one inbound PUBLISH, which may be
larger than the input buffer. -/
namespace EspMqtt
open Wire

/-- The event fields that are the same for every piece of a message. -/
structure DataHeader where
  msgId : ℕ
  qos : ℕ
  retain : Bool
  dup : Bool
  totalDataLen : ℕ
  deriving DecidableEq, Repr

def DataHeader.event (h : DataHeader) (topic : Option (List UInt8)) (topicLen : ℕ)
    (data : List UInt8) (offset : ℕ) : MqttEvent :=
  { id := .data, msgId := h.msgId, topic := topic, topicLen := topicLen
    data := if 0 < data.length then some data else none, dataLen := data.length
    totalDataLen := h.totalDataLen, currentDataOffset := offset, qos := h.qos
    retain := h.retain, dup := h.dup, errorHandle := none }

/-- The pieces of a message that are still on the wire: read as much as fits
the buffer, hand it out, go on. Each round reads at least one byte, so the
bytes missing are enough fuel. The topic comes with the first piece only. -/
def deliverLoop (h : DataHeader) (msgTotalLen : ℕ) :
    ℕ → Transport → RxState → ℕ → ℕ → List MqttEvent × Bool × Transport × RxState
  | 0, t, s, _, _ => ([], true, t, s)
  | k+1, t, s, msgReadLen, offset =>
    if msgReadLen < msgTotalLen then
      match espTransportRead t (min s.inBufferLength (msgTotalLen-msgReadLen)) with
      | (.bytes bs, t) =>
        let s := {s with inBuffer := ByteBuffer.splice s.inBuffer 0 bs}
        let r := deliverLoop h msgTotalLen k t s (msgReadLen+bs.length) (offset+bs.length)
        (h.event none 0 bs offset :: r.1, r.2)
      | (r, t) => ([], handleTransportReadError false r == .nothing, t, s)
    else ([], true, t, s)

/-- `deliver_publish` for a 3.1.1 client: the events dispatched, and whether it
returns `ESP_OK`. -/
def deliverPublish (t : Transport) (s : RxState) : List MqttEvent × Bool × Transport × RxState :=
  match mqttGetPublishTopic s.inBuffer s.inBufferReadLen with
  | none => ([], false, t, s)
  | some (topicOffset, topicLen) =>
    let d := mqttGetPublishData s.inBuffer s.inBufferReadLen
    if 0 < d.2 ∧ d.1 = none then ([], false, t, s)
    else
      let b := s.inBuffer.getD 0 0
      let h : DataHeader :=
        { msgId := mqttGetId s.inBuffer s.inBufferReadLen, qos := mqttGetQos b
          retain := mqttGetRetain b != 0, dup := mqttGetDup b != 0
          totalDataLen := d.2+s.messageLength-s.inBufferReadLen }
      let first := h.event (some ((s.inBuffer.drop topicOffset).take topicLen)) topicLen
        ((s.inBuffer.drop (d.1.getD 0)).take d.2) 0
      let r := deliverLoop h s.messageLength (s.messageLength-s.inBufferReadLen) t s
        s.inBufferReadLen d.2
      (first :: r.1, r.2)

/-- The next reads bring all of `need` bytes, each of them at least one. -/
def ReadsThrough (bufferLength : ℕ) : List ReadChoice → ℕ → Prop
  | [], need => need = 0
  | .chunk k :: rs, need =>
    need = 0 ∨ ReadsThrough bufferLength rs (need-min (k+1) (min bufferLength need))
  | .timeout :: _, need | .fin :: _, need | .error :: _, need => need = 0

instance instDecidableReadsThrough (bufferLength : ℕ) :
    (rs : List ReadChoice) → (need : ℕ) → Decidable (ReadsThrough bufferLength rs need)
  | [], need => inferInstanceAs (Decidable (need = 0))
  | .chunk k :: rs, need =>
    have := instDecidableReadsThrough bufferLength rs (need-min (k+1) (min bufferLength need))
    inferInstanceAs (Decidable (need = 0 ∨ _))
  | .timeout :: _, need => inferInstanceAs (Decidable (need = 0))
  | .fin :: _, need => inferInstanceAs (Decidable (need = 0))
  | .error :: _, need => inferInstanceAs (Decidable (need = 0))

/-- The events of later pieces, from `offset` on. -/
def DataHeader.pieces (h : DataHeader) : ℕ → List (List UInt8) → List MqttEvent
  | _, [] => []
  | offset, c :: cs => h.event none 0 c offset :: h.pieces (offset+c.length) cs

def publishHeader (p : Publish) : DataHeader :=
  ⟨p.id, p.qos, p.retain, p.dup, p.payload.length⟩

/-- The DATA events of `p` cut into a first piece and the later ones. -/
def publishEvents (p : Publish) (first : List UInt8) (later : List (List UInt8)) :
    List MqttEvent :=
  (publishHeader p).event (some p.topic) p.topic.length first 0 ::
    (publishHeader p).pieces first.length later

/-- A read that the schedule serves with data. -/
theorem espTransportRead_chunk (t : Transport) (n k : ℕ) (rs : List ReadChoice)
    (ho : t.isOpen = true) (ht : t.reads = .chunk k :: rs) (hn : 0 < n)
    (hl : n ≤ t.stream.length) :
    espTransportRead t n = (.bytes (t.stream.take (min (k+1) n)),
      {t with reads := rs, stream := t.stream.drop (min (k+1) n)}) := by
  simp only [espTransportRead, ho, ht, if_true, Nat.min_eq_left hl]
  rw [if_neg (by omega)]

/-- The loop hands out exactly what is missing. -/
theorem deliverLoop_spec (h : DataHeader) (total k : ℕ) (t : Transport) (s : RxState)
    (readLen offset : ℕ) (missing rest : List UInt8) (ho : t.isOpen = true)
    (hst : t.stream = missing ++ rest) (hm : missing.length = total-readLen)
    (hk : missing.length ≤ k) (hb : 0 < s.inBufferLength)
    (hr : ReadsThrough s.inBufferLength t.reads missing.length) :
    ∃ cs, (deliverLoop h total k t s readLen offset).1 = h.pieces offset cs ∧
      cs.flatten = missing ∧ (∀ c ∈ cs, c ≠ []) ∧
      (deliverLoop h total k t s readLen offset).2.1 = true ∧
      (deliverLoop h total k t s readLen offset).2.2.1.stream = rest := by
  induction k generalizing t s readLen offset missing with
  | zero =>
    have hnil : missing = [] := List.length_eq_zero_iff.mp (by omega)
    subst hnil
    exact ⟨[], rfl, rfl, by simp, rfl, hst⟩
  | succ k ih =>
    unfold deliverLoop
    by_cases hz : missing.length = 0
    · have hnil : missing = [] := List.length_eq_zero_iff.mp hz
      subst hnil
      rw [if_neg (by simp only [List.length_nil] at hm; omega)]
      exact ⟨[], rfl, rfl, by simp, rfl, by simpa using hst⟩
    · rw [if_pos (by omega)]
      obtain ⟨j,rs,hj,hrs⟩ : ∃ j rs, t.reads = .chunk j :: rs ∧ ReadsThrough s.inBufferLength rs
          (missing.length-min (j+1) (min s.inBufferLength missing.length)) := by
        rcases hreads : t.reads with _ | ⟨c,rs⟩
        · rw [hreads] at hr
          exact absurd hr hz
        · rw [hreads] at hr
          cases c with
          | chunk j => exact ⟨j, rs, rfl, hr.resolve_left hz⟩
          | timeout => exact absurd hr hz
          | fin => exact absurd hr hz
          | error => exact absurd hr hz
      rw [← hm]
      have hread := espTransportRead_chunk t (min s.inBufferLength missing.length) j rs ho hj
        (by omega) (by rw [hst, List.length_append]; omega)
      rw [hread]
      dsimp only
      generalize hg : min (j+1) (min s.inBufferLength missing.length) = g at *
      have hgl : g ≤ missing.length := by omega
      have htake : t.stream.take g = missing.take g := by
        rw [hst, List.take_append_of_le_length hgl]
      have hdrop : t.stream.drop g = missing.drop g ++ rest := by
        rw [hst, List.drop_append_of_le_length hgl]
      have hlen : (missing.take g).length = g := by rw [List.length_take]; omega
      rw [htake, hdrop]
      obtain ⟨cs,h1,h2,h3,h4,h5⟩ := ih
        {t with reads := rs, stream := missing.drop g ++ rest}
        {s with inBuffer := ByteBuffer.splice s.inBuffer 0 (missing.take g)}
        (readLen+(missing.take g).length) (offset+(missing.take g).length) (missing.drop g)
        ho rfl (by rw [List.length_drop, hlen]; omega) (by rw [List.length_drop]; omega) hb
        (by rw [List.length_drop]; exact hrs)
      refine ⟨missing.take g :: cs, ?_, ?_, ?_, h4, h5⟩
      · rw [h1]
        rfl
      · rw [List.flatten_cons, h2, List.take_append_drop]
      · intro c hc
        rcases List.mem_cons.mp hc with rfl | hc
        · intro hnil
          have := congrArg List.length hnil
          rw [hlen, List.length_nil] at this
          omega
        · exact h3 c hc

/-- The events of a PUBLISH whose variable header is in the buffer, when the
rest of it arrives. -/
theorem deliverPublish_spec {f : Frame} {p : Publish} {rest : List UInt8} {t : Transport}
    {s : RxState} (h : HoldsPublish f p s.inBuffer s.inBufferReadLen)
    (hbeyond : f.headerLength+2 < s.inBufferReadLen) (ho : t.isOpen = true)
    (hst : t.stream = f.bytes.drop s.inBufferReadLen ++ rest)
    (hml : s.messageLength = f.bytes.length) (hb : 0 < s.inBufferLength)
    (hr : ReadsThrough s.inBufferLength t.reads (f.bytes.length-s.inBufferReadLen)) :
    ∃ first later, (deliverPublish t s).1 = publishEvents p first later ∧
      p.payload = first ++ later.flatten ∧ (∀ c ∈ later, c ≠ []) ∧
      (deliverPublish t s).2.1 = true ∧ (deliverPublish t s).2.2.1.stream = rest := by
  have hl := h.header
  have hle := h.le
  have hbl : f.bytes.length = f.headerLength+(p.variableHeader.length+p.payload.length) := by
    rw [f.bytes_length, h.publish.body, Publish.body, List.length_append]
  obtain ⟨-,f2,f3,f4⟩ := firstByte_fields p h.publish.wellFormed.qos_le
  generalize hoff : f.headerLength+p.variableHeader.length = off at *
  have hpre : f.bytes.drop s.inBufferReadLen = p.payload.drop (s.inBufferReadLen-off) := by
    have : f.bytes = f.first :: (f.lens ++ p.variableHeader) ++ p.payload := by
      simp [Frame.bytes, h.publish.body, Publish.body]
    have hlen : (f.first :: (f.lens ++ p.variableHeader)).length = off := by
      simp only [List.length_cons, List.length_append]
      unfold Frame.headerLength at hoff
      omega
    rw [this, List.drop_append, hlen, List.drop_eq_nil_of_le (by omega), List.nil_append]
  have hlenm : (p.payload.drop (s.inBufferReadLen-off)).length =
      f.bytes.length-s.inBufferReadLen := by
    rw [List.length_drop]
    omega
  unfold deliverPublish
  rw [h.getPublishTopic hbeyond, h.getPublishData hbeyond, hoff]
  dsimp only
  have hfirst : (s.inBuffer.drop ((if s.inBufferReadLen = off then none else some off).getD 0)).take
      (s.inBufferReadLen-off) = p.payload.take (s.inBufferReadLen-off) := by
    split
    · rename_i hz
      rw [hz, Nat.sub_self, List.take_zero, List.take_zero]
    · have := h.payload_slice
      rwa [hoff] at this
  rw [if_neg (by split <;> simp; omega), h.topic_slice, hfirst, h.getId le_rfl hbeyond, h.getD_first, f2,
    f3, f4, hml]
  have hhead : (⟨p.id, p.qos, (if p.retain = true then 1 else 0) != 0,
      (if p.dup = true then 1 else 0) != 0,
      s.inBufferReadLen-off+f.bytes.length-s.inBufferReadLen⟩ : DataHeader) = publishHeader p := by
    unfold publishHeader
    have e1 : ((if p.retain = true then 1 else 0) != 0) = p.retain := by cases p.retain <;> rfl
    have e2 : ((if p.dup = true then 1 else 0) != 0) = p.dup := by cases p.dup <;> rfl
    rw [e1, e2]
    congr 1
    omega
  rw [hhead]
  rw [hpre] at hst
  have htake : (p.payload.take (s.inBufferReadLen-off)).length = s.inBufferReadLen-off := by
    rw [List.length_take]
    omega
  obtain ⟨cs,g1,g2,g3,g4,g5⟩ := deliverLoop_spec (publishHeader p) f.bytes.length
    (f.bytes.length-s.inBufferReadLen) t s s.inBufferReadLen (s.inBufferReadLen-off)
    (p.payload.drop (s.inBufferReadLen-off)) rest ho hst hlenm (by omega) hb
    (by rw [hlenm]; exact hr)
  refine ⟨p.payload.take (s.inBufferReadLen-off), cs, ?_, ?_, g3, g4, g5⟩
  · rw [g1, publishEvents, htake]
  · rw [g2, List.take_append_drop]

/-! The events as a handler sees them. -/

/-- The bytes that these events bring, one after the other. -/
def dataOf (es : List MqttEvent) : List UInt8 := es.flatMap fun e => e.data.getD []

/-- Events that carry one message of `total` bytes, from `offset` on. -/
def Streams (total : ℕ) : ℕ → List MqttEvent → Prop
  | _, [] => True
  | offset, e :: es =>
    e.id = .data ∧ e.totalDataLen = total ∧ e.currentDataOffset = offset ∧
      e.dataLen = (e.data.getD []).length ∧ Streams total (offset+(e.data.getD []).length) es

instance instDecidableStreams (total : ℕ) :
    (offset : ℕ) → (es : List MqttEvent) → Decidable (Streams total offset es)
  | _, [] => isTrue trivial
  | offset, e :: es =>
    have := instDecidableStreams total (offset+(e.data.getD []).length) es
    inferInstanceAs (Decidable (_ ∧ _ ∧ _ ∧ _ ∧ _))

/-- NULL stands for no data, and an event with data points at it. -/
theorem DataHeader.event_data (h : DataHeader) (topic : Option (List UInt8)) (topicLen : ℕ)
    (data : List UInt8) (offset : ℕ) : (h.event topic topicLen data offset).data.getD [] = data := by
  unfold DataHeader.event
  dsimp only
  split
  · rfl
  · rename_i hempty
    exact (List.eq_nil_of_length_eq_zero (by omega)).symm

theorem DataHeader.pieces_streams (h : DataHeader) (offset : ℕ) (cs : List (List UInt8)) :
    Streams h.totalDataLen offset (h.pieces offset cs) ∧ dataOf (h.pieces offset cs) = cs.flatten := by
  induction cs generalizing offset with
  | nil => exact ⟨trivial, rfl⟩
  | cons c cs ih =>
    have hdata := h.event_data none 0 c offset
    obtain ⟨hstreams,hbytes⟩ := ih (offset+c.length)
    constructor
    · refine ⟨rfl, rfl, rfl, ?_, ?_⟩
      · rw [hdata]
        rfl
      · rw [hdata]
        exact hstreams
    · calc dataOf (h.pieces offset (c :: cs))
          = (h.event none 0 c offset).data.getD [] ++ dataOf (h.pieces (offset+c.length) cs) := rfl
        _ = c ++ cs.flatten := by rw [hdata, hbytes]

theorem publishEvents_streams (p : Publish) (first : List UInt8) (later : List (List UInt8)) :
    Streams p.payload.length 0 (publishEvents p first later) ∧
    dataOf (publishEvents p first later) = first ++ later.flatten := by
  have hdata := (publishHeader p).event_data (some p.topic) p.topic.length first 0
  obtain ⟨hstreams,hbytes⟩ := (publishHeader p).pieces_streams first.length later
  constructor
  · refine ⟨rfl, rfl, rfl, ?_, ?_⟩
    · rw [hdata]
      rfl
    · rw [hdata, Nat.zero_add]
      exact hstreams
  · calc dataOf (publishEvents p first later)
        = ((publishHeader p).event (some p.topic) p.topic.length first 0).data.getD [] ++
          dataOf ((publishHeader p).pieces first.length later) := rfl
      _ = first ++ later.flatten := by rw [hdata, hbytes]

/-- A PUBLISH of any size is streamed: its variable header is among the bytes read, and every
further read brings something. An empty topic, which 3.1.1 has not, needs a byte behind it. -/
theorem deliverPublish_streams {f : Frame} {p : Publish} {rest : List UInt8} {t : Transport}
    {s : RxState} (h : HoldsPublish f p s.inBuffer s.inBufferReadLen)
    (ht : p.topic = [] → f.headerLength+2 < s.inBufferReadLen) (ho : t.isOpen = true)
    (hst : t.stream = f.bytes.drop s.inBufferReadLen ++ rest)
    (hml : s.messageLength = f.bytes.length) (hbuf : s.inBufferReadLen ≤ s.inBufferLength)
    (hr : ReadsThrough s.inBufferLength t.reads (f.bytes.length-s.inBufferReadLen)) :
    Streams p.payload.length 0 (deliverPublish t s).1 ∧
    dataOf (deliverPublish t s).1 = p.payload ∧
    (∃ e es, (deliverPublish t s).1 = e :: es ∧ e.topic = some p.topic ∧
      e.topicLen = p.topic.length) ∧
    (deliverPublish t s).2.1 = true ∧ (deliverPublish t s).2.2.1.stream = rest := by
  have hb : 0 < s.inBufferLength := by
    have h1 := h.header
    have h2 := f.two_le_headerLength
    omega
  have hbeyond : f.headerLength+2 < s.inBufferReadLen := by
    by_cases hempty : p.topic = []
    · exact ht hempty
    · exact h.beyond (List.length_pos_of_ne_nil hempty)
  obtain ⟨first,later,hev,hpay,-,hok,hrest⟩ := deliverPublish_spec h hbeyond ho hst hml hb hr
  obtain ⟨hstreams,hbytes⟩ := publishEvents_streams p first later
  rw [← hpay] at hbytes
  rw [hev]
  exact ⟨hstreams, hbytes, ⟨_, _, rfl, rfl, rfl⟩, hok, hrest⟩

/-- A QoS 1 PUBLISH whose header takes eight bytes, with four bytes of payload. -/
def streamedPublish : Publish := ⟨[0x61, 0x62], [1, 2, 3, 4], 1, false, false, 7⟩

def streamedFrame : Frame where
  first := 0x32
  lens := [10]
  body := streamedPublish.body
  first_ok := by decide
  lens_ok := by decide
  lens_le := by decide
  body_length := by decide

theorem streamedPublish_wellFormed : streamedPublish.WellFormed where
  qos_le := by decide
  topic_length := by decide
  qos_zero := fun h => absurd h (by decide)
  id_range := fun _ => by decide

/-- The header fills the buffer exactly, and the payload comes in pieces of three bytes and one:
the first event has no data. -/
theorem deliverPublish_streams_header_only :
    Streams 4 0 (deliverPublish ⟨true, [1, 2, 3, 4, 0xc0, 0], [.chunk 2, .chunk 7], [], []⟩
      ⟨streamedFrame.bytes.take 8, 8, 12, 8⟩).1 ∧
    dataOf (deliverPublish ⟨true, [1, 2, 3, 4, 0xc0, 0], [.chunk 2, .chunk 7], [], []⟩
      ⟨streamedFrame.bytes.take 8, 8, 12, 8⟩).1 = [1, 2, 3, 4] ∧
    (deliverPublish ⟨true, [1, 2, 3, 4, 0xc0, 0], [.chunk 2, .chunk 7], [], []⟩
      ⟨streamedFrame.bytes.take 8, 8, 12, 8⟩).2.2.1.stream = [0xc0, 0] := by
  have hholds : HoldsPublish streamedFrame streamedPublish (streamedFrame.bytes.take 8) 8 :=
    ⟨⟨streamedPublish_wellFormed, by decide, rfl⟩, by decide, by decide, by decide⟩
  have h := @deliverPublish_streams streamedFrame streamedPublish [0xc0, 0]
    ⟨true, [1, 2, 3, 4, 0xc0, 0], [.chunk 2, .chunk 7], [], []⟩
    ⟨streamedFrame.bytes.take 8, 8, 12, 8⟩ hholds (by simp [streamedPublish]) rfl rfl rfl
    (by decide) (by decide)
  exact ⟨h.1, h.2.1, h.2.2.2.2⟩

end EspMqtt
