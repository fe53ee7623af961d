import EspMqtt.PublishLoop

/-! The bytes that `mqtt5_get_publish_property_payload` reads and those it hands out pointers to:
when all of them lie in the packet. -/
namespace EspMqtt

/-! The reads, written next to the code that makes them. -/

/-- The indices at which `get_variable_len` reads, from `i` on. -/
def variableLenReads (buffer : List UInt8) (bufferLength : ℕ) : ℕ → ℕ → List ℕ
  | 0, _ => []
  | k+1, i =>
    if i < bufferLength then
      i :: (if buffer.getD i 0 &&& 0x80 = 0 then [] else variableLenReads buffer bufferLength k (i+1))
    else []

namespace PropertySection

/-- The `property[property_offset ++]` of a number. -/
def numberReads : ℕ → ℕ → List ℕ
  | 0, _ => []
  | k+1, o => o :: numberReads k (advance o 1)

/-- A number behind its check. -/
def checkedReads (p : PropertySection) (k o : ℕ) : List ℕ := if p.hasBytes o k then numberReads k o else []

/-- What a case of the switch reads, with `property_offset` behind the identifier. Of the strings
only the length is read. -/
def valueReads (p : PropertySection) (o : ℕ) : PublishId → List ℕ
  | .payloadFormatIndicator => p.checkedReads 1 o
  | .messageExpiryInterval => p.checkedReads 4 o
  | .topicAlias => p.checkedReads 2 o
  | .responseTopic | .reasonString => p.checkedReads 2 o
  | .correlationData | .contentType => numberReads 2 o
  | .subscribeIdentifier => variableLenReads (p.buffer.drop p.start) p.length 4 o
  | .userProperty =>
    p.checkedReads 2 o ++
      match p.readString o with
      | none => []
      | some key => p.checkedReads 2 key.2

/-- What `mqtt5_msg_set_user_property` copies: the key once there is memory for it, then the value. -/
def copyReads (p : PropertySection) (o : ℕ) (t : PublishResp) : PublishId → List ℕ
  | .userProperty =>
    match p.readString o with
    | none => []
    | some key =>
      match p.readString key.2 with
      | none => []
      | some _ =>
        let n := if t.userProperty.isNone then 3 else 2
        (if t.hasMemory n then List.range' (advance o 2) (p.number 2 o 0) else []) ++
          if t.hasMemory (n+1) then List.range' (advance key.2 2) (p.number 2 key.2 0) else []
  | _ => []

/-- The iteration that begins at `o`. -/
def iterationReads (p : PropertySection) (o : ℕ) (t : PublishResp) : List ℕ :=
  o ::
    match PublishId.ofCode (p.byteAt o).toNat with
    | none => []
    | some id => p.valueReads (advance o 1) id ++ p.copyReads (advance o 1) t id

end PropertySection

/-- Where the topic length stands. -/
def topicLengthOffset (buffer : List UInt8) (bufferLength : ℕ) : ℕ :=
  1+(getVariableLen buffer 1 bufferLength).2

/-- The end of the topic. -/
def topicEnd (buffer : List UInt8) (bufferLength : ℕ) : ℕ :=
  topicLengthOffset buffer bufferLength+2+be16 buffer (topicLengthOffset buffer bufferLength)

/-- Where the property length stands. -/
def propertyLengthOffset (buffer : List UInt8) (bufferLength : ℕ) : ℕ :=
  if 0 < mqttGetQos (buffer.getD 0 0) then topicEnd buffer bufferLength+2 else topicEnd buffer bufferLength

/-- The end of the packet, or of the bytes of it that are there. -/
def payloadEnd (buffer : List UInt8) (bufferLength : ℕ) : ℕ :=
  min ((getVariableLen buffer 1 bufferLength).1+topicLengthOffset buffer bufferLength) bufferLength

/-- Index `i` of the buffer is read. -/
inductive ReadsIndex (buffer : List UInt8) (bufferLength : ℕ) (allocs : List Bool) : ℕ → Prop
  | remainingLength {i : ℕ} (h : i ∈ variableLenReads buffer bufferLength 4 1) :
    ReadsIndex buffer bufferLength allocs i
  | topicLength {i : ℕ} (h : i ∈ [topicLengthOffset buffer bufferLength,
      topicLengthOffset buffer bufferLength+1]) : ReadsIndex buffer bufferLength allocs i
  | qos (h : topicEnd buffer bufferLength < bufferLength) : ReadsIndex buffer bufferLength allocs 0
  | propertyLength {i : ℕ} (hp : publishSection buffer bufferLength ≠ none)
    (h : i ∈ variableLenReads buffer bufferLength 4 (propertyLengthOffset buffer bufferLength)) :
    ReadsIndex buffer bufferLength allocs i
  | property {p : PropertySection} {o j : ℕ} {t : PublishResp}
    (hp : publishSection buffer bufferLength = some p)
    (hreach : p.Reaches (PublishResp.zero allocs) o t) (hin : o < p.length)
    (h : j ∈ p.iterationReads o t) : ReadsIndex buffer bufferLength allocs (p.start+j)

/-- The strings that the response points to: where they begin in the buffer, and their lengths. -/
structure Spans where
  responseTopic : Option (ℕ × ℕ)
  correlationData : Option (ℕ × ℕ)
  contentType : Option (ℕ × ℕ)

/-- All of them end at `m` or before. -/
def Spans.Within (r : Spans) (m : ℕ) : Prop :=
  ∀ x ∈ [r.responseTopic, r.correlationData, r.contentType], ∀ y, x = some y → y.1+y.2 ≤ m

namespace PropertySection

/-- A string behind its length, with `property_offset` behind the identifier. -/
def span (p : PropertySection) (o : ℕ) : ℕ × ℕ := (p.start+advance o 2, p.number 2 o 0)

/-- The pointer that the iteration at `o` sets. -/
def point (p : PropertySection) (o : ℕ) (r : Spans) : Spans :=
  match PublishId.ofCode (p.byteAt o).toNat with
  | some .responseTopic => {r with responseTopic := some (p.span (advance o 1))}
  | some .correlationData => {r with correlationData := some (p.span (advance o 1))}
  | some .contentType => {r with contentType := some (p.span (advance o 1))}
  | _ => r

/-- The iterations of a run, with the pointers set so far. -/
inductive Points (p : PropertySection) (t₀ : PublishResp) : ℕ → PublishResp → Spans → Prop
  | start : Points p t₀ 0 t₀ ⟨none, none, none⟩
  | next {o o' : ℕ} {t t' : PublishResp} {r : Spans} (h : Points p t₀ o t r)
    (hnext : p.Continues o t o' t') : Points p t₀ o' t' (p.point o r)

end PropertySection

/-- No byte behind the end is read, and where something is returned the topic, the strings and the
payload end inside, and the payload does not end before it begins. -/
structure StaysInside (buffer : List UInt8) (bufferLength : ℕ) : Prop where
  reads : ∀ allocs i, ReadsIndex buffer bufferLength allocs i → i < bufferLength
  topic : ∀ allocs fuel x,
    mqtt5GetPublishPropertyPayload fuel buffer bufferLength allocs = some (some x) →
      topicEnd buffer bufferLength ≤ bufferLength
  strings : ∀ allocs fuel x,
    mqtt5GetPublishPropertyPayload fuel buffer bufferLength allocs = some (some x) →
      ∀ p, publishSection buffer bufferLength = some p → ∀ o t r,
        p.Points (PublishResp.zero allocs) o t r → p.length ≤ o → r.Within bufferLength
  payload : ∀ allocs fuel x,
    mqtt5GetPublishPropertyPayload fuel buffer bufferLength allocs = some (some x) →
      x.dataOffset ≤ payloadEnd buffer bufferLength ∧ x.dataOffset+x.dataLen ≤ bufferLength

/-! The layout that keeps the code inside. -/

namespace PropertySection

/-- The end of a length of two bytes at `o`, which is looked at only if the section has it. -/
def lengthEnd (p : PropertySection) (o : ℕ) : ℕ := if p.hasBytes o 2 then o+2 else o

/-- The end of what the property at `o` has the code look at: its identifier, its number, the
lengths of its strings, and a user property that is complete. -/
def fieldsEnd (p : PropertySection) (o : ℕ) : ℕ :=
  match PublishId.ofCode (p.byteAt o).toNat with
  | none => o+1
  | some .payloadFormatIndicator => if p.hasBytes (o+1) 1 then o+2 else o+1
  | some .messageExpiryInterval => if p.hasBytes (o+1) 4 then o+5 else o+1
  | some .topicAlias | some .responseTopic | some .reasonString => p.lengthEnd (o+1)
  | some .correlationData | some .contentType => min (o+3) 65536
  | some .subscribeIdentifier =>
    o+1+(variableLenReads (p.buffer.drop p.start) p.length 4 (o+1)).length
  | some .userProperty =>
    match p.readString (o+1) with
    | none => p.lengthEnd (o+1)
    | some key =>
      match p.readString key.2 with
      | none => if p.hasBytes key.2 2 then key.2+2 else o+3
      | some value => value.2

/-- Where the properties begin, with the strings before them. -/
inductive Walks (p : PropertySection) : ℕ → Spans → Prop
  | first : Walks p 0 ⟨none, none, none⟩
  | next {o o' : ℕ} {r : Spans} {id : PublishId} {value : PropertyValue} (h : Walks p o r)
    (hin : o < p.length) (hid : PublishId.ofCode (p.byteAt o).toNat = some id)
    (hread : p.readPublishValue (advance o 1) id = some (value, o')) : Walks p o' (p.point o r)

end PropertySection

/-- The topic length lies inside; so do the fields of every property; and if none is refused, the
strings end inside and the last property in the packet. -/
structure LaidOutInside (buffer : List UInt8) (bufferLength : ℕ) : Prop where
  topicLength : topicLengthOffset buffer bufferLength+2 ≤ bufferLength
  fields : ∀ p, publishSection buffer bufferLength = some p → ∀ o, p.Found o → o < p.length →
    p.start+p.fieldsEnd o ≤ bufferLength
  strings : ∀ p, publishSection buffer bufferLength = some p → ∀ o r, p.Walks o r → p.length ≤ o →
    r.Within bufferLength
  lastEnd : ∀ p, publishSection buffer bufferLength = some p → ∀ o, p.Found o → p.length ≤ o →
    p.start+o ≤ payloadEnd buffer bufferLength

/-! What an iteration reads ends where its fields do. -/

theorem variableLenReads_range (buffer : List UInt8) (n k i : ℕ) :
    variableLenReads buffer n k i = List.range' i (variableLenReads buffer n k i).length := by
  induction k generalizing i with
  | zero => rfl
  | succ k ih =>
    unfold variableLenReads
    split
    · split
      · rfl
      · rw [List.length_cons, List.range'_succ, ← ih (i+1)]
    · rfl

theorem variableLenReads_lt {buffer : List UInt8} {n k i j : ℕ} (h : j ∈ variableLenReads buffer n k i) :
    j < n := by
  induction k generalizing i with
  | zero => exact absurd h List.not_mem_nil
  | succ k ih =>
    unfold variableLenReads at h
    split at h
    · rcases List.mem_cons.mp h with rfl | h
      · assumption
      · split at h
        · exact absurd h List.not_mem_nil
        · exact ih h
    · exact absurd h List.not_mem_nil

namespace PropertySection

variable {p : PropertySection} {o o' j k : ℕ} {t t₀ : PublishResp}

theorem numberReads_range (h : o+k ≤ 65536) : numberReads k o = List.range' o k := by
  induction k generalizing o with
  | zero => rfl
  | succ k ih =>
    unfold numberReads
    rw [List.range'_succ]
    cases k with
    | zero => rfl
    | succ k => rw [advance_of_lt (by omega), ih (by omega)]

theorem checkedReads_range (hlen : p.length < 65536) :
    p.checkedReads k o = List.range' o (if p.hasBytes o k then k else 0) := by
  unfold checkedReads
  split
  · rename_i hhas
    have hin := hasBytes_iff.mp hhas
    exact numberReads_range (by omega)
  · rfl

/-- The indices read are the first ones from the property on, with nothing left out. -/
theorem range_ends {l : List ℕ} {n : ℕ} (hl : l = List.range' (o+1) n) :
    (∀ j ∈ o :: l, j < o+1+n) ∧ ∃ j ∈ o :: l, o+1+n ≤ j+1 := by
  subst hl
  constructor
  · intro j hj
    rcases List.mem_cons.mp hj with rfl | hj
    · omega
    · have hr := List.mem_range'_1.mp hj
      omega
  · cases n with
    | zero => exact ⟨o, List.mem_cons_self, by omega⟩
    | succ n =>
      exact ⟨o+1+n, List.mem_cons_of_mem _ (List.mem_range'_1.mpr (by omega)), by omega⟩

theorem lengthEnd_eq (o : ℕ) : p.lengthEnd o = o+if p.hasBytes o 2 then 2 else 0 :=
  (add_ite _ o 2 0).symm

/-- The reads of a user property. -/
theorem userReads (hlen : p.length < 65536) (hin : o < p.length)
    (hid : PublishId.ofCode (p.byteAt o).toNat = some .userProperty) (t : PublishResp) :
    (∀ j ∈ p.iterationReads o t, j < p.fieldsEnd o) ∧
    (t.allocs = [] → ∃ j ∈ p.iterationReads o t, p.fieldsEnd o ≤ j+1) := by
  unfold iterationReads fieldsEnd
  rw [hid]
  dsimp only [valueReads, copyReads]
  rw [advance_of_lt (by omega), checkedReads_range hlen]
  cases hkey : p.readString (o+1) with
  | none =>
    dsimp only
    rw [List.append_nil, List.append_nil]
    have hends := range_ends (l := List.range' (o+1) (if p.hasBytes (o+1) 2 then 2 else 0)) rfl
    rw [lengthEnd_eq]
    exact ⟨hends.1, fun _ => hends.2⟩
  | some key =>
    obtain ⟨text,o₁⟩ := key
    obtain ⟨htwo,hadv,hend,hle⟩ := readString_span hlen hkey
    dsimp only
    rw [checkedReads_range hlen, if_pos htwo]
    cases hvalue : p.readString o₁ with
    | none =>
      dsimp only
      rw [List.append_nil]
      by_cases hsecond : p.hasBytes o₁ 2 = true
      · rw [if_pos hsecond, if_pos hsecond]
        simp only [List.mem_cons, List.mem_append, List.mem_range'_1]
        exact ⟨fun j hj => by omega, fun _ => ⟨o₁+1, by omega, by omega⟩⟩
      · rw [if_neg hsecond, if_neg hsecond]
        simp only [List.mem_cons, List.mem_append, List.mem_range'_1]
        exact ⟨fun j hj => by omega, fun _ => ⟨o+2, by omega, by omega⟩⟩
    | some value =>
      obtain ⟨text',o₂⟩ := value
      obtain ⟨htwo',hadv',hend',hle'⟩ := readString_span hlen hvalue
      dsimp only
      rw [if_pos htwo', hadv, hadv']
      constructor
      · intro j hj
        have hbound (b : Bool) (a m : ℕ) (h : j ∈ if b then List.range' a m else []) : a ≤ j ∧ j < a+m := by
          cases b with
          | true => exact List.mem_range'_1.mp h
          | false => exact absurd h List.not_mem_nil
        simp only [List.mem_cons, List.mem_append, List.mem_range'_1] at hj
        rcases hj with rfl | (hj | hj) | hj | hj
        · omega
        · omega
        · omega
        · have hr := hbound _ _ _ hj
          omega
        · have hr := hbound _ _ _ hj
          omega
      · intro ht
        rw [hasMemory_all ht, hasMemory_all ht, if_pos rfl, if_pos rfl]
        simp only [List.mem_cons, List.mem_append, List.mem_range'_1]
        exact ⟨o₂-1, by omega, by omega⟩

/-- The reads of a length that is not checked, which may wrap around. -/
theorem uncheckedReads (hlen : p.length < 65536) (hin : o < p.length) {id : PublishId}
    (hid : PublishId.ofCode (p.byteAt o).toNat = some id) (hu : id = .correlationData ∨ id = .contentType)
    (hreads : p.iterationReads o t = o :: p.valueReads (o+1) id) :
    (∀ j ∈ p.iterationReads o t, j < p.fieldsEnd o) ∧
    (t.allocs = [] → ∃ j ∈ p.iterationReads o t, p.fieldsEnd o ≤ j+1) := by
  have hend : p.fieldsEnd o = min (o+3) 65536 := by
    unfold fieldsEnd
    rw [hid]
    rcases hu with rfl | rfl <;> rfl
  have hvalue : p.valueReads (o+1) id = [o+1, (o+1+1) % 65536] := by
    rcases hu with rfl | rfl <;> rfl
  rw [hreads, hend, hvalue]
  simp only [List.mem_cons, List.not_mem_nil, or_false]
  constructor
  · intro j hj
    omega
  · intro _
    by_cases hwrap : o+2 < 65536
    · exact ⟨(o+1+1) % 65536, Or.inr (Or.inr rfl), by omega⟩
    · exact ⟨o+1, Or.inr (Or.inl rfl), by omega⟩

/-- An iteration reads up to where the fields of its property end, and with enough memory it gets
there. -/
theorem iterationReads_ends (hlen : p.length < 65536) (hin : o < p.length) (t : PublishResp) :
    (∀ j ∈ p.iterationReads o t, j < p.fieldsEnd o) ∧
    (t.allocs = [] → ∃ j ∈ p.iterationReads o t, p.fieldsEnd o ≤ j+1) := by
  cases hid : PublishId.ofCode (p.byteAt o).toNat with
  | none =>
    unfold iterationReads fieldsEnd
    rw [hid]
    exact ⟨fun j hj => by rw [List.mem_singleton.mp hj]; exact Nat.lt_succ_self o,
      fun _ => ⟨o, List.mem_singleton_self o, le_rfl⟩⟩
  | some id =>
    have hnumber (k : ℕ) : p.checkedReads k (o+1) =
        List.range' (o+1) (if p.hasBytes (o+1) k then k else 0) := checkedReads_range hlen
    -- the reads of the value run on from the identifier
    have hrange {l : List ℕ} {n : ℕ} (hl : l = List.range' (o+1) n)
        (hreads : p.iterationReads o t = o :: l) (hend : p.fieldsEnd o = o+1+n) :
        (∀ j ∈ p.iterationReads o t, j < p.fieldsEnd o) ∧
          (t.allocs = [] → ∃ j ∈ p.iterationReads o t, p.fieldsEnd o ≤ j+1) := by
      obtain ⟨hlt,hlast⟩ := range_ends hl
      rw [hreads, hend]
      exact ⟨hlt, fun _ => hlast⟩
    have hreads (hu : id ≠ .userProperty) : p.iterationReads o t = o :: p.valueReads (o+1) id := by
      unfold iterationReads
      rw [hid, advance_of_lt (by omega)]
      cases id <;> first | exact absurd rfl hu | exact congrArg (o :: ·) (List.append_nil _)
    -- a length of two bytes is looked at only if the section has it
    have hlength (hu : id ≠ .userProperty) (hvalue : p.valueReads (o+1) id = p.checkedReads 2 (o+1))
        (hend : p.fieldsEnd o = p.lengthEnd (o+1)) :
        (∀ j ∈ p.iterationReads o t, j < p.fieldsEnd o) ∧
          (t.allocs = [] → ∃ j ∈ p.iterationReads o t, p.fieldsEnd o ≤ j+1) :=
      hrange (hvalue.trans (hnumber 2)) (hreads hu) (hend.trans (lengthEnd_eq _))
    cases id with
    | userProperty => exact userReads hlen hin hid t
    | payloadFormatIndicator =>
      refine hrange (hnumber 1) (hreads (by simp)) ?_
      unfold fieldsEnd
      rw [hid]
      exact (add_ite _ (o+1) 1 0).symm
    | messageExpiryInterval =>
      refine hrange (hnumber 4) (hreads (by simp)) ?_
      unfold fieldsEnd
      rw [hid]
      exact (add_ite _ (o+1) 4 0).symm
    | topicAlias =>
      apply hlength (by simp) rfl
      unfold fieldsEnd
      rw [hid]
    | responseTopic =>
      apply hlength (by simp) rfl
      unfold fieldsEnd
      rw [hid]
    | reasonString =>
      apply hlength (by simp) rfl
      unfold fieldsEnd
      rw [hid]
    | subscribeIdentifier =>
      refine hrange (variableLenReads_range _ _ _ _) (hreads (by simp)) ?_
      unfold fieldsEnd
      rw [hid]
    | correlationData => exact uncheckedReads hlen hin hid (Or.inl rfl) (hreads (by simp))
    | contentType => exact uncheckedReads hlen hin hid (Or.inr rfl) (hreads (by simp))

/-! The run, its pointers and its result. -/

theorem Points.reaches {r : Spans} (h : p.Points t₀ o t r) : p.Reaches t₀ o t := by
  induction h with
  | start => exact .start
  | next _ hnext ih => exact .next ih hnext

theorem Points.walks {r : Spans} (h : p.Points t₀ o t r) : p.Walks o r := by
  induction h with
  | start => exact .first
  | next _ hnext ih =>
    obtain ⟨hin,id,value,hid,hread,-⟩ := hnext
    exact .next ih hin hid hread

theorem Walks.points {r : Spans} (h : p.Walks o r) :
    ∃ t, t.allocs = [] ∧ p.Points (PublishResp.zero []) o t r := by
  induction h with
  | first => exact ⟨_, rfl, .start⟩
  | next _ hin hid hread ih =>
    obtain ⟨t,ht,hpoints⟩ := ih
    obtain ⟨t',hstore,ht'⟩ := store_ok t ht _ _
    exact ⟨t', ht', .next hpoints ⟨hin, _, _, hid, hread, hstore⟩⟩

/-- The loop gets to an iteration that is reached. -/
theorem Reaches.loop (h : p.Reaches t₀ o t) :
    ∃ m, ∀ k, publishPropertyLoop p (m+k) 0 t₀ = publishPropertyLoop p k o t := by
  induction h with
  | start => exact ⟨0, fun k => by rw [Nat.zero_add]⟩
  | next _ hnext ih =>
    obtain ⟨m,hm⟩ := ih
    refine ⟨m+1, fun k => ?_⟩
    rw [← hnext.loop k, ← hm (k+1)]
    congr 1
    omega

/-- The loop is left at an iteration that is reached. -/
theorem loop_reaches (h : p.Reaches t₀ o t) {t' : PublishResp}
    (hend : publishPropertyLoop p k o t = some (true, o', t')) :
    p.Reaches t₀ o' t' ∧ p.length ≤ o' := by
  induction k generalizing o t with
  | zero => simp [publishPropertyLoop] at hend
  | succ k ih =>
    rcases loop_cases p o t with ⟨o₁,t₁,hnext⟩ | ⟨r,hr,hlast⟩
    · rw [hnext.loop] at hend
      exact ih (.next h hnext) hend
    · rw [hr] at hend
      obtain rfl := Option.some.inj hend
      obtain ⟨hout,hsame⟩ := hlast rfl
      obtain ⟨-,hsame⟩ := Prod.mk.inj hsame
      obtain ⟨rfl,rfl⟩ := Prod.mk.inj hsame
      exact ⟨h,hout⟩

end PropertySection

section

variable {buffer : List UInt8} {bufferLength : ℕ} {p : PropertySection}

theorem publishSection_some (hp : publishSection buffer bufferLength = some p) :
    topicEnd buffer bufferLength < bufferLength := by
  unfold publishSection at hp
  dsimp only at hp
  split at hp
  · simp at hp
  · exact not_le.mp ‹_›

/-- What is returned is made of the section and the end of its loop. -/
theorem payload_of_loop (hp : publishSection buffer bufferLength = some p) (fuel : ℕ)
    (allocs : List Bool) {o : ℕ} {t : PublishResp}
    (hloop : publishPropertyLoop p fuel 0 (PublishResp.zero allocs) = some (true, o, t)) :
    ∃ x, mqtt5GetPublishPropertyPayload fuel buffer bufferLength allocs = some (some x) ∧
      x.dataOffset = p.start+o ∧
      x.dataLen = (((payloadEnd buffer bufferLength : ℕ)-(p.start+o : ℕ) : ℤ) % 2^32).toNat := by
  have hmin (a b : ℕ) : (if a ≤ b then a else b) = min a b := (min_def a b).symm
  unfold publishSection at hp
  unfold mqtt5GetPublishPropertyPayload
  dsimp only at hp ⊢
  split at hp
  · simp at hp
  · rw [if_neg ‹_›]
    split at hp
    · simp at hp
    · rw [if_neg ‹_›]
      obtain rfl := Option.some.inj hp
      rw [hloop]
      refine ⟨_, rfl, rfl, ?_⟩
      dsimp only
      rw [hmin]
      rfl

theorem loop_of_payload {fuel : ℕ} {allocs : List Bool} {x : PublishPayload}
    (h : mqtt5GetPublishPropertyPayload fuel buffer bufferLength allocs = some (some x)) :
    ∃ p o t, publishSection buffer bufferLength = some p ∧
      publishPropertyLoop p fuel 0 (PublishResp.zero allocs) = some (true, o, t) := by
  unfold mqtt5GetPublishPropertyPayload at h
  unfold publishSection
  dsimp only at h ⊢
  split at h
  · simp at h
  · rw [if_neg ‹_›]
    split at h
    · simp at h
    · rw [if_neg ‹_›]
      split at h
      · simp at h
      · simp at h
      · exact ⟨_, _, _, rfl, ‹_›⟩

/-- `NULL` is not returned where all properties are accepted. -/
theorem payload_of_reaches (hp : publishSection buffer bufferLength = some p) {allocs : List Bool}
    {o : ℕ} {t : PublishResp} (hreach : p.Reaches (PublishResp.zero allocs) o t) (hout : p.length ≤ o) :
    ∃ fuel x, mqtt5GetPublishPropertyPayload fuel buffer bufferLength allocs = some (some x) ∧
      x.dataOffset = p.start+o := by
  obtain ⟨m,hm⟩ := hreach.loop
  have hend : publishPropertyLoop p (m+1) 0 (PublishResp.zero allocs) = some (true, o, t) := by
    rw [hm]
    unfold publishPropertyLoop
    rw [if_neg (not_lt.mpr hout)]
  obtain ⟨x,hx,hoffset,-⟩ := payload_of_loop hp _ _ hend
  exact ⟨m+1, x, hx, hoffset⟩

/-- The function stays inside if and only if the packet is laid out inside. -/
theorem publish_stays_inside_iff (buffer : List UInt8) (bufferLength : ℕ) :
    StaysInside buffer bufferLength ↔ LaidOutInside buffer bufferLength := by
  constructor
  · intro h
    refine ⟨?_, fun p hp o hfound hin => ?_, fun p hp o r hwalks hout => ?_,
      fun p hp o hfound hout => ?_⟩
    · have hlast := h.reads [] _ (.topicLength (List.mem_cons_of_mem _ (List.mem_singleton_self _)))
      omega
    · obtain ⟨t,ht,hreach⟩ := hfound.reaches
      obtain ⟨j,hj,hend⟩ := (PropertySection.iterationReads_ends (publishSection_length hp) hin t).2 ht
      have hlast := h.reads [] _ (.property hp hreach hin hj)
      omega
    · obtain ⟨t,-,hpoints⟩ := hwalks.points
      obtain ⟨fuel,x,hx,-⟩ := payload_of_reaches hp hpoints.reaches hout
      exact h.strings [] fuel x hx p hp o t r hpoints hout
    · obtain ⟨t,-,hreach⟩ := hfound.reaches
      obtain ⟨fuel,x,hx,hoffset⟩ := payload_of_reaches hp hreach hout
      rw [← hoffset]
      exact (h.payload [] fuel x hx).1
  · intro h
    refine ⟨fun allocs i hi => ?_, fun allocs fuel x hx => ?_, fun allocs fuel x hx p hp o t r hpoints hout => ?_,
      fun allocs fuel x hx => ?_⟩
    · cases hi with
      | remainingLength hi => exact variableLenReads_lt hi
      | topicLength hi =>
        have hroom := h.topicLength
        rcases List.mem_cons.mp hi with rfl | hi
        · omega
        · rw [List.mem_singleton.mp hi]
          omega
      | qos hi => omega
      | propertyLength _ hi => exact variableLenReads_lt hi
      | property hp hreach hin hi =>
        have hfields := h.fields _ hp _ hreach.found hin
        have hlt := (PropertySection.iterationReads_ends (publishSection_length hp) hin _).1 _ hi
        omega
    · obtain ⟨p,o,t,hp,-⟩ := loop_of_payload hx
      exact (publishSection_some hp).le
    · exact h.strings p hp o r hpoints.walks hout
    · obtain ⟨p,o,t,hp,hloop⟩ := loop_of_payload hx
      obtain ⟨hreach,hout⟩ := PropertySection.loop_reaches .start hloop
      obtain ⟨x',hx',hoffset,hlen⟩ := payload_of_loop hp fuel allocs hloop
      obtain rfl := Option.some.inj (Option.some.inj (hx.symm.trans hx'))
      have hlast := h.lastEnd p hp o hreach.found hout
      have hle : payloadEnd buffer bufferLength ≤ bufferLength := min_le_right _ _
      rw [hoffset, hlen]
      exact ⟨hlast, by omega⟩

end

/-- A property length of 127 with nothing behind it makes the code read on behind the packet. -/
theorem publish_reads_outside : ¬ ∀ buffer bufferLength, StaysInside buffer bufferLength := by
  intro h
  let buffer : List UInt8 := [0x30, 0x04, 0x00, 0x01, 0x61, 0x7f]
  have hsection : publishSection buffer 6 = some ⟨buffer, 6, 127⟩ :=
    @publishSection_topic buffer 6 4 127 (by decide +kernel) (by decide +kernel) (by decide +kernel) (by decide)
      (by decide +kernel)
  have hread := (h buffer 6).reads [] _
    (.property hsection .start (by decide) (List.mem_cons_self : 0 ∈ _))
  exact absurd hread (by decide)

end EspMqtt
