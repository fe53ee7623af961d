import EspMqtt.Mqtt5Publish
import EspMqtt.ServerCapabilities

/-! The loop of `mqtt5_get_publish_property_payload` on whatever bytes come in: when its 16-bit
offset moves on in every iteration, so that it reaches an end. -/
namespace EspMqtt

namespace PropertySection

/-- An iteration that begins at `o` and goes on at `o'`. -/
def Continues (p : PropertySection) (o : ℕ) (t : PublishResp) (o' : ℕ) (t' : PublishResp) : Prop :=
  o < p.length ∧ ∃ id value, PublishId.ofCode (p.byteAt o).toNat = some id ∧
    p.readPublishValue (advance o 1) id = some (value, o') ∧ t.store id value = (true, t')

/-- The iterations of a run that begins with `t₀`. -/
inductive Reaches (p : PropertySection) (t₀ : PublishResp) : ℕ → PublishResp → Prop
  | start : Reaches p t₀ 0 t₀
  | next {o o' : ℕ} {t t' : PublishResp} (h : Reaches p t₀ o t) (hnext : p.Continues o t o' t') :
    Reaches p t₀ o' t'

/-- Where a property of the section begins: each one where the one before it ends, by offsets of
16 bits, up to the first that is refused. -/
inductive Found (p : PropertySection) : ℕ → Prop
  | first : Found p 0
  | next {o o' : ℕ} {id : PublishId} {value : PropertyValue} (h : Found p o) (hin : o < p.length)
    (hid : PublishId.ofCode (p.byteAt o).toNat = some id)
    (hread : p.readPublishValue (advance o 1) id = some (value, o')) : Found p o'

/-- The end of a Correlation Data or Content Type property at `o`, by an offset of 16 bits. -/
def uncheckedEnd (p : PropertySection) (o : ℕ) : ℕ := (o+3+p.number 2 (advance o 1) 0) % 65536

/-- The properties whose length is not checked all end behind their beginning. -/
def UncheckedMoveOn (p : PropertySection) : Prop :=
  ∀ o, p.Found o → o < p.length →
    (PublishId.ofCode (p.byteAt o).toNat = some .correlationData ∨
      PublishId.ofCode (p.byteAt o).toNat = some .contentType) → o < p.uncheckedEnd o

end PropertySection

/-- The section of properties that the loop runs over; none if `NULL` is returned before. -/
def publishSection (buffer : List UInt8) (bufferLength : ℕ) : Option PropertySection :=
  let offset := 1+(getVariableLen buffer 1 bufferLength).2
  let offset := offset+2+be16 buffer offset
  if bufferLength ≤ offset then none
  else
    let qos := mqttGetQos (buffer.getD 0 0)
    if 0 < qos ∧ bufferLength ≤ offset+2 then none
    else
      let offset := if 0 < qos then offset+2 else offset
      let l := getVariableLen buffer offset bufferLength
      some ⟨buffer, offset+l.2, l.1 % 65536⟩

/-- Whatever `calloc` answers, the function returns, and the offset increases in every iteration. -/
def EndsByIncreasing (buffer : List UInt8) (bufferLength : ℕ) : Prop :=
  ∀ allocs, (∃ fuel, mqtt5GetPublishPropertyPayload fuel buffer bufferLength allocs ≠ none) ∧
    ∀ p, publishSection buffer bufferLength = some p → ∀ o t o' t',
      p.Reaches (PublishResp.zero allocs) o t → p.Continues o t o' t' → o < o'

/-! One iteration. -/

namespace PropertySection

variable {p : PropertySection} {o o' k : ℕ} {t t' : PublishResp}

theorem hasBytes_iff {n : ℕ} : p.hasBytes o n = true ↔ o+n ≤ p.length := by
  unfold hasBytes
  rw [Bool.and_eq_true, decide_eq_true_eq, decide_eq_true_eq]
  omega

theorem Continues.loop (h : p.Continues o t o' t') (k : ℕ) :
    publishPropertyLoop p (k+1) o t = publishPropertyLoop p k o' t' := by
  obtain ⟨hin,id,value,hid,hread,hstore⟩ := h
  conv_lhs => unfold publishPropertyLoop
  rw [if_pos hin, hid]
  dsimp only
  rw [hread]
  dsimp only
  rw [hstore]

/-- An iteration goes on, or the loop is left. -/
theorem loop_cases (p : PropertySection) (o : ℕ) (t : PublishResp) :
    (∃ o' t', p.Continues o t o' t') ∨
      ∃ r, (∀ k, publishPropertyLoop p (k+1) o t = some r) ∧
        (r.1 = true → p.length ≤ o ∧ r = (true, o, t)) := by
  unfold Continues
  by_cases hin : o < p.length
  · cases hid : PublishId.ofCode (p.byteAt o).toNat with
    | none =>
      right
      refine ⟨(false, o, t), fun k => ?_, fun h => absurd h (by simp)⟩
      unfold publishPropertyLoop
      rw [if_pos hin, hid]
    | some id =>
      cases hread : p.readPublishValue (advance o 1) id with
      | none =>
        right
        refine ⟨(false, o, t), fun k => ?_, fun h => absurd h (by simp)⟩
        unfold publishPropertyLoop
        rw [if_pos hin, hid]
        dsimp only
        rw [hread]
      | some r =>
        obtain ⟨value,o'⟩ := r
        cases hstore : t.store id value with
        | mk ok t' =>
          cases ok with
          | true => exact Or.inl ⟨o', t', hin, id, value, rfl, hread, hstore⟩
          | false =>
            right
            refine ⟨(false, o', t'), fun k => ?_, fun h => absurd h (by simp)⟩
            unfold publishPropertyLoop
            rw [if_pos hin, hid]
            dsimp only
            rw [hread]
            dsimp only
            rw [hstore]
  · right
    refine ⟨(true, o, t), fun k => ?_, fun _ => ⟨by omega,rfl⟩⟩
    unfold publishPropertyLoop
    rw [if_neg hin]

/-- A string that passes its checks: where it begins and where it ends. -/
theorem readString_span (hlen : p.length < 65536) {text : List UInt8}
    (h : p.readString o = some (text, o')) :
    p.hasBytes o 2 = true ∧ advance o 2 = o+2 ∧ o' = o+2+p.number 2 o 0 ∧ o' ≤ p.length := by
  unfold readString at h
  by_cases htwo : p.hasBytes o 2 = true
  · have hin := hasBytes_iff.mp htwo
    rw [if_pos htwo] at h
    dsimp only at h
    rw [advance_of_lt (by omega)] at h
    split at h
    · simp at h
    · rename_i hok
      rw [not_or, Bool.not_eq_false, hasBytes_iff] at hok
      obtain ⟨-,hend⟩ := Prod.mk.inj (Option.some.inj h)
      rw [advance_of_lt (by omega)] at hend
      exact ⟨htwo, advance_of_lt (by omega), hend.symm, by omega⟩
  · rw [if_neg htwo] at h
    simp at h

/-- Every value but those that are not checked ends behind the identifier, inside the section. -/
theorem readPublishValue_end (hlen : p.length < 65536) (hin : o < p.length) {id : PublishId}
    (hc : id ≠ .correlationData) (ht : id ≠ .contentType) {value : PropertyValue}
    (h : p.readPublishValue (advance o 1) id = some (value, o')) : o < o' ∧ o' ≤ p.length := by
  rw [advance_of_lt (by omega)] at h
  have hnumber {n : ℕ} {value : PropertyValue}
      (h : p.readValue (o+1) (.number n true) = some (value, o')) : o < o' ∧ o' ≤ p.length := by
    unfold readValue at h
    dsimp only at h
    by_cases hhas : p.hasBytes (o+1) n = true
    · have hle := hasBytes_iff.mp hhas
      rw [if_neg (by simp [hhas])] at h
      obtain ⟨-,rfl⟩ := Prod.mk.inj (Option.some.inj h)
      rw [advance_of_lt (by omega)]
      omega
    · rw [if_pos ⟨rfl, by simpa using hhas⟩] at h
      simp at h
  have hstring {value : PropertyValue} (h : p.readValue (o+1) .string = some (value, o')) :
      o < o' ∧ o' ≤ p.length := by
    obtain ⟨⟨text,o₁⟩,hr,he⟩ := Option.map_eq_some_iff.mp h
    obtain ⟨-,rfl⟩ := Prod.mk.inj he
    obtain ⟨-,-,hend,hle⟩ := readString_span hlen hr
    dsimp only
    omega
  cases id with
  | payloadFormatIndicator => exact hnumber h
  | messageExpiryInterval => exact hnumber h
  | topicAlias => exact hnumber h
  | responseTopic => exact hstring h
  | reasonString => exact hstring h
  | correlationData => exact absurd rfl hc
  | contentType => exact absurd rfl ht
  | subscribeIdentifier =>
    unfold readPublishValue readVariable at h
    dsimp only at h
    by_cases hhas : p.hasBytes (o+1) (getVariableLen (p.buffer.drop p.start) (o+1) p.length).2 = true
    · have hle := hasBytes_iff.mp hhas
      rw [if_neg (by simp [hhas])] at h
      obtain ⟨-,rfl⟩ := Prod.mk.inj (Option.some.inj h)
      rw [advance_of_lt (by omega)]
      omega
    · rw [if_pos (by simpa using hhas)] at h
      simp at h
  | userProperty =>
    unfold readPublishValue readValue at h
    dsimp only at h
    cases hkey : p.readString (o+1) with
    | none => simp [hkey] at h
    | some key =>
      rw [hkey] at h
      dsimp only at h
      obtain ⟨⟨text,o₁⟩,hr,he⟩ := Option.map_eq_some_iff.mp h
      obtain ⟨-,rfl⟩ := Prod.mk.inj he
      obtain ⟨-,-,hfirst,-⟩ := readString_span hlen hkey
      obtain ⟨-,-,hsecond,hle⟩ := readString_span hlen hr
      dsimp only
      omega

theorem readUnchecked_end (p : PropertySection) (o : ℕ) :
    (p.readUnchecked (advance o 1)).2 = p.uncheckedEnd o := by
  unfold readUnchecked uncheckedEnd advance
  dsimp only
  omega

end PropertySection

/-! The run. -/

/-- The function is still running exactly where its loop is. -/
theorem mqtt5GetPublishPropertyPayload_running (fuel : ℕ) (buffer : List UInt8) (bufferLength : ℕ)
    (allocs : List Bool) :
    mqtt5GetPublishPropertyPayload fuel buffer bufferLength allocs = none ↔
      ∃ p, publishSection buffer bufferLength = some p ∧
        publishPropertyLoop p fuel 0 (PublishResp.zero allocs) = none := by
  unfold mqtt5GetPublishPropertyPayload publishSection
  dsimp only
  split
  · simp
  · split
    · simp
    · constructor
      · intro h
        refine ⟨_, rfl, ?_⟩
        split at h
        · assumption
        · simp at h
        · simp at h
      · rintro ⟨p,hp,hloop⟩
        rw [← Option.some.inj hp] at hloop
        rw [hloop]

theorem publishSection_length {buffer : List UInt8} {bufferLength : ℕ} {p : PropertySection}
    (h : publishSection buffer bufferLength = some p) : p.length < 65536 := by
  unfold publishSection at h
  dsimp only at h
  split at h
  · simp at h
  · split at h
    · simp at h
    · rw [← Option.some.inj h]
      exact Nat.mod_lt _ (by decide)

namespace PropertySection

variable {p : PropertySection} {o o' : ℕ} {t t' t₀ : PublishResp}

theorem Reaches.found (h : p.Reaches t₀ o t) : p.Found o := by
  induction h with
  | start => exact .first
  | next _ hnext ih =>
    obtain ⟨hin,id,value,hid,hread,-⟩ := hnext
    exact .next ih hin hid hread

theorem hasMemory_all {t : PublishResp} (ht : t.allocs = []) (n : ℕ) : t.hasMemory n = true := by
  unfold PublishResp.hasMemory
  rw [ht, List.take_nil]
  rfl

/-- With all the memory it asks for, nothing that is read fails to be stored. -/
theorem store_ok (t : PublishResp) (ht : t.allocs = []) (id : PublishId) (value : PropertyValue) :
    ∃ t', t.store id value = (true, t') ∧ t'.allocs = [] := by
  have huser (key value : List UInt8) : ∃ t', t.setUserProperty key value = (true, t') ∧ t'.allocs = [] := by
    unfold PublishResp.setUserProperty
    dsimp only
    rw [hasMemory_all ht, if_pos rfl, ht, List.drop_nil]
    exact ⟨_,rfl,rfl⟩
  cases id <;> cases value <;> first | exact huser _ _ | exact ⟨_, rfl, ht⟩

/-- So whatever is found is reached. -/
theorem Found.reaches (h : p.Found o) : ∃ t, t.allocs = [] ∧ p.Reaches (PublishResp.zero []) o t := by
  induction h with
  | first => exact ⟨_, rfl, .start⟩
  | next _ hin hid hread ih =>
    obtain ⟨t,ht,hreach⟩ := ih
    obtain ⟨t',hstore,ht'⟩ := store_ok t ht _ _
    exact ⟨t', ht', .next hreach ⟨hin, _, _, hid, hread, hstore⟩⟩

/-- Where the properties that are not checked move on, all do. -/
theorem Continues.increases (hlen : p.length < 65536) (hmove : p.UncheckedMoveOn) (hfound : p.Found o)
    (h : p.Continues o t o' t') : o < o' := by
  obtain ⟨hin,id,value,hid,hread,-⟩ := h
  by_cases hu : id = .correlationData ∨ id = .contentType
  · have hend : o' = p.uncheckedEnd o := by
      have hvalue : some (p.readUnchecked (advance o 1)) = some (value, o') := by
        rcases hu with rfl | rfl <;> exact hread
      rw [← readUnchecked_end, Option.some.inj hvalue]
    rw [hend]
    apply hmove o hfound hin
    rcases hu with rfl | rfl
    · exact Or.inl hid
    · exact Or.inr hid
  · rw [not_or] at hu
    exact (readPublishValue_end hlen hin hu.1 hu.2 hread).1

/-- A loop whose offset increases has an end. -/
theorem loop_ends (hinc : ∀ o t o' t', p.Reaches t₀ o t → p.Continues o t o' t' → o < o')
    (h : p.Reaches t₀ o t) {k : ℕ} (hk : p.length ≤ o+k) : publishPropertyLoop p (k+1) o t ≠ none := by
  induction k generalizing o t with
  | zero =>
    rcases loop_cases p o t with ⟨o',t',hnext⟩ | ⟨r,hr,-⟩
    · have hin := hnext.1
      omega
    · rw [hr]
      simp
  | succ k ih =>
    rcases loop_cases p o t with ⟨o',t',hnext⟩ | ⟨r,hr,-⟩
    · have hlt := hinc o t o' t' h hnext
      rw [hnext.loop]
      exact ih (.next h hnext) (by omega)
    · rw [hr]
      simp

end PropertySection

/-- The function returns, with an offset that increases in every iteration, if and only if every
Correlation Data and Content Type property it comes to ends behind its beginning. -/
theorem publish_properties_end_iff (buffer : List UInt8) (bufferLength : ℕ) :
    EndsByIncreasing buffer bufferLength ↔
      ∀ p, publishSection buffer bufferLength = some p → p.UncheckedMoveOn := by
  constructor
  · intro h p hp o hfound hin hid
    obtain ⟨t,ht,hreach⟩ := hfound.reaches
    obtain ⟨-,hinc⟩ := h []
    obtain ⟨id,hu,hid⟩ : ∃ id, (id = .correlationData ∨ id = .contentType) ∧
        PublishId.ofCode (p.byteAt o).toNat = some id := by
      rcases hid with hid | hid
      · exact ⟨_, Or.inl rfl, hid⟩
      · exact ⟨_, Or.inr rfl, hid⟩
    have hread : p.readPublishValue (PropertySection.advance o 1) id =
        some ((p.readUnchecked (PropertySection.advance o 1)).1, p.uncheckedEnd o) := by
      rw [← PropertySection.readUnchecked_end]
      rcases hu with rfl | rfl <;> rfl
    obtain ⟨t',hstore,-⟩ := PropertySection.store_ok t ht id _
    exact hinc p hp o t _ t' hreach ⟨hin, id, _, hid, hread, hstore⟩
  · intro h allocs
    have hinc (p : PropertySection) (hp : publishSection buffer bufferLength = some p) (o : ℕ)
        (t : PublishResp) (o' : ℕ) (t' : PublishResp) (hreach : p.Reaches (PublishResp.zero allocs) o t)
        (hnext : p.Continues o t o' t') : o < o' :=
      hnext.increases (publishSection_length hp) (h p hp) hreach.found
    refine ⟨?_, hinc⟩
    cases hp : publishSection buffer bufferLength with
    | none =>
      refine ⟨0, fun hrun => ?_⟩
      obtain ⟨p,hp',-⟩ := (mqtt5GetPublishPropertyPayload_running _ _ _ _).mp hrun
      rw [hp] at hp'
      simp at hp'
    | some p =>
      refine ⟨p.length+1, fun hrun => ?_⟩
      obtain ⟨p',hp',hloop⟩ := (mqtt5GetPublishPropertyPayload_running _ _ _ _).mp hrun
      obtain rfl := Option.some.inj (hp.symm.trans hp')
      exact PropertySection.loop_ends (hinc p hp) .start (by omega) hloop

/-- The section of a QoS 0 PUBLISH with a topic of one byte and length fields of one byte. -/
theorem publishSection_topic {buffer : List UInt8} {n a l : ℕ} (hfixed : getVariableLen buffer 1 n = (a, 1))
    (htopic : be16 buffer 2 = 1) (hqos : mqttGetQos (buffer.getD 0 0) = 0) (hn : 5 < n)
    (hlength : getVariableLen buffer 5 n = (l, 1)) :
    publishSection buffer n = some ⟨buffer, 6, l % 65536⟩ := by
  unfold publishSection
  simp only [hfixed, htopic, hqos, Nat.reduceAdd, lt_irrefl, false_and, if_false]
  rw [if_neg (by omega), hlength]
  rfl

/-- A PUBLISH whose Correlation Data claims 65533 bytes keeps the loop at its first property. -/
theorem publish_properties_run_forever :
    ¬ ∀ buffer bufferLength, 4 ≤ bufferLength → EndsByIncreasing buffer bufferLength := by
  intro h
  let buffer : List UInt8 := [0x30, 0x08, 0x00, 0x01, 0x61, 0x03, 0x09, 0xff, 0xfd, 0x00]
  have hsection : publishSection buffer 10 = some ⟨buffer, 6, 3⟩ :=
    @publishSection_topic buffer 10 8 3 (by decide +kernel) (by decide +kernel) (by decide +kernel) (by decide)
      (by decide +kernel)
  obtain ⟨⟨fuel,hends⟩,-⟩ := h buffer 10 (by decide) []
  apply hends
  have hback (t : PublishResp) : ∃ t', (⟨buffer, 6, 3⟩ : PropertySection).Continues 0 t 0 t' := by
    refine ⟨_, by decide, .correlationData, .string ((buffer.drop 9).take 65533), by decide +kernel, ?_, rfl⟩
    decide +kernel
  have hforever (k : ℕ) (t : PublishResp) : publishPropertyLoop ⟨buffer, 6, 3⟩ k 0 t = none := by
    induction k generalizing t with
    | zero => rfl
    | succ k ih =>
      obtain ⟨t',hnext⟩ := hback t
      rw [hnext.loop]
      exact ih t'
  exact (mqtt5GetPublishPropertyPayload_running _ _ _ _).mpr ⟨_, hsection, hforever fuel _⟩

end EspMqtt
