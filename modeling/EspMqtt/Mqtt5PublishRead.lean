import EspMqtt.Mqtt5Publish
import EspMqtt.Mqtt5RoundTrip
import EspMqtt.ServerCapabilities

/-! `mqtt5_get_publish_property_payload` reads back the PUBLISH that `mqtt5_msg_publish`
composes. -/
namespace EspMqtt
open Wire (u16 u16_length)
open Wire5

/-! Reading inside a block of properties. -/

namespace PropertySection

/-- At offset `o` the block goes on with `bs`. -/
structure At (p : PropertySection) (o : ℕ) (bs : List UInt8) : Prop where
  fits : p.Fits
  le : o ≤ p.length
  bytes : p.bytes.drop o = bs

variable {p : PropertySection} {o : ℕ} {w rest : List UInt8}

theorem At.length (h : At p o rest) : o+rest.length = p.length := by
  have hl := congrArg List.length h.bytes
  rw [List.length_drop, h.fits.bytes_length] at hl
  have := h.le
  omega

theorem At.skip (h : At p o (w ++ rest)) : At p (o+w.length) rest := by
  have hl := h.length
  rw [List.length_append] at hl
  refine ⟨h.fits, by omega, ?_⟩
  rw [← List.drop_drop, h.bytes, List.drop_left]

theorem At.hasBytes (h : At p o (w ++ rest)) : p.hasBytes o w.length = true := by
  rw [h.fits.hasBytes h.le, h.bytes]
  simp

theorem At.advance (h : At p o (w ++ rest)) : advance o w.length = o+w.length := by
  have hl := h.length
  have hs := h.fits.short
  rw [List.length_append] at hl
  exact advance_of_lt (by omega)

theorem foldl_bigEndian (k n v : ℕ) :
    (ByteReader.bigEndian k n).foldl (fun n b => n*256+b.toNat) v = v*256^k+n % 256^k := by
  induction k generalizing v with
  | zero => rw [pow_zero, Nat.mod_one]; simp [ByteReader.bigEndian]
  | succ k ih =>
    rw [ByteReader.bigEndian, List.foldl_cons, ih, UInt8.toNat_ofNat', ← ByteReader.leading_digit]
    ring

theorem At.number {k n : ℕ} (h : At p o (ByteReader.bigEndian k n ++ rest)) (hn : n < 256^k) :
    p.number k o 0 = n := by
  have hl := h.length
  rw [List.length_append, ByteReader.bigEndian_length] at hl
  rw [h.fits.number k o 0 (by omega), h.bytes]
  have htake : (ByteReader.bigEndian k n ++ rest).take k = ByteReader.bigEndian k n :=
    List.take_left' (ByteReader.bigEndian_length k n)
  rw [htake, foldl_bigEndian, Nat.mod_eq_of_lt hn, Nat.zero_mul, Nat.zero_add]

/-- The bytes in the buffer are the bytes of the block. -/
theorem At.take (h : At p o (w ++ rest)) : (p.buffer.drop (p.start+o)).take w.length = w := by
  have hl := h.length
  rw [List.length_append] at hl
  have htake : ((p.buffer.drop (p.start+o)).take (p.length-o)) = w ++ rest := by
    have hb := h.bytes
    unfold PropertySection.bytes at hb
    rwa [List.drop_take, List.drop_drop] at hb
  have hshort := congrArg (List.take w.length) htake
  rw [List.take_take, List.take_left, Nat.min_eq_left (by omega)] at hshort
  exact hshort

theorem At.readNumber {k n : ℕ} (h : At p o (ByteReader.bigEndian k n ++ rest)) (hn : n < 256^k) :
    p.readValue o (.number k true) = some (.number n, o+k) := by
  have hhas := h.hasBytes
  have hadv := h.advance
  rw [ByteReader.bigEndian_length] at hhas hadv
  unfold PropertySection.readValue
  dsimp only
  rw [if_neg (by simp [hhas]), h.number hn, hadv]

theorem At.counted {t : List UInt8} (h : At p o (u16 t.length ++ t ++ rest)) (ht : t.length < 65536) :
    p.hasBytes o 2 = true ∧ p.number 2 o 0 = t.length ∧ PropertySection.advance o 2 = o+2 ∧
      At p (o+2) (t ++ rest) := by
  rw [List.append_assoc] at h
  have hskip := h.skip
  have hhas := h.hasBytes
  have hadv := h.advance
  rw [← Composer.bigEndian_two] at h
  rw [u16_length] at hskip hhas hadv
  exact ⟨hhas, h.number (by omega), hadv, hskip⟩

theorem At.readString {t : List UInt8} (h : At p o (u16 t.length ++ t ++ rest))
    (ht : t.length ≤ 16*1024) : p.readString o = some (t, o+(u16 t.length ++ t).length) := by
  obtain ⟨hhas,hnum,hadv,hat⟩ := h.counted (by omega)
  have hlen : o+(u16 t.length ++ t).length = o+2+t.length := by
    rw [List.length_append, u16_length]
    omega
  unfold PropertySection.readString
  rw [if_pos hhas, hnum, hadv, hlen]
  dsimp only
  have hok : ¬ (maxStringLen < t.length ∨ p.hasBytes (o+2) t.length = false) := by
    rw [hat.hasBytes]
    simpa [maxStringLen] using ht
  rw [if_neg hok, hat.take, hat.advance]

theorem At.readUnchecked {t : List UInt8} (h : At p o (u16 t.length ++ t ++ rest))
    (ht : t.length < 65536) :
    p.readUnchecked o = (.string t, o+(u16 t.length ++ t).length) := by
  obtain ⟨hhas,hnum,hadv,hat⟩ := h.counted ht
  have hlen : o+(u16 t.length ++ t).length = o+2+t.length := by
    rw [List.length_append, u16_length]
    omega
  unfold PropertySection.readUnchecked
  rw [hnum, hadv, hlen]
  dsimp only
  rw [hat.take, hat.advance]

theorem At.readPair {key value : List UInt8}
    (h : At p o (u16 key.length ++ key ++ (u16 value.length ++ value) ++ rest))
    (hk : key.length ≤ 16*1024) (hv : value.length ≤ 16*1024) :
    p.readValue o .stringPair = some (.stringPair key value,
      o+(u16 key.length ++ key ++ (u16 value.length ++ value)).length) := by
  rw [List.append_assoc] at h
  have hkey := h.readString hk
  have hvalue := h.skip.readString hv
  have hlen : o+(u16 key.length ++ key).length+(u16 value.length ++ value).length =
      o+(u16 key.length ++ key ++ (u16 value.length ++ value)).length := by
    simp only [List.length_append]
    omega
  unfold PropertySection.readValue
  dsimp only
  rw [hkey]
  dsimp only
  rw [hvalue, Option.map_some, hlen]

end PropertySection

/-! One property after the other. -/

/-- A value as the parser hands it on. -/
def readAs : Value → PropertyValue
  | .number n => .number n
  | .text t => .string t
  | .pair key value => .stringPair key value

/-- Strings that the parser does not refuse. -/
def ShortStrings : Property → Prop
  | (.responseTopic, .text t) => t.length ≤ 16*1024
  | (.userProperty, .pair key value) => key.length ≤ 16*1024 ∧ value.length ≤ 16*1024
  | _ => True

instance : DecidablePred ShortStrings := fun p => by
  unfold ShortStrings
  split <;> infer_instance

/-- Every property of a PUBLISH is one that the parser knows, and it reads its value. -/
theorem readPublishValue_property {q : PropertySection} {o : ℕ} {rest : List UInt8} {p : Property}
    (hsend : p.Sendable) (hid : p.1 ∈ publishIds ∨ p.1 = .userProperty) (hshort : ShortStrings p)
    (h : q.At o (p.bytes ++ rest)) :
    ∃ id, PublishId.ofCode p.1.code = some id ∧
      q.readPublishValue (PropertySection.advance o 1) id = some (readAs p.2, o+p.bytes.length) := by
  obtain ⟨pid,v⟩ := p
  have hfits := hsend.fits
  have hvalue : q.At (o+1) (v.bytes pid.format ++ rest) := by
    have hone : Property.bytes (pid, v) ++ rest = [UInt8.ofNat pid.code] ++ (v.bytes pid.format ++ rest) :=
      rfl
    rw [hone] at h
    exact h.skip
  have hadv : PropertySection.advance o 1 = o+1 := by
    have hl := h.length
    have hs := h.fits.short
    have hpos : 1 ≤ (Property.bytes (pid, v)).length := by simp [Property.bytes]
    rw [List.length_append] at hl
    exact PropertySection.advance_of_lt (by omega)
  have hlen : o+(Property.bytes (pid, v)).length = o+1+(v.bytes pid.format).length := by
    simp only [Property.bytes, List.length_cons]
    omega
  rw [hadv, hlen]
  have hnumber {k n : ℕ} (hb : q.At (o+1) (ByteReader.bigEndian k n ++ rest)) (hn : n < 256^k) :
      q.readValue (o+1) (.number k true) =
        some (.number n, o+1+(ByteReader.bigEndian k n).length) := by
    rw [ByteReader.bigEndian_length]
    exact hb.readNumber hn
  have hpid : pid = .payloadFormatIndicator ∨ pid = .messageExpiryInterval ∨ pid = .topicAlias ∨
      pid = .responseTopic ∨ pid = .correlationData ∨ pid = .contentType ∨ pid = .userProperty := by
    simpa [publishIds, or_assoc] using hid
  -- one case for each identifier, with a value of its format
  rcases hpid with rfl | rfl | rfl | rfl | rfl | rfl | rfl
  · cases v with
    | number n => exact ⟨_, rfl, hnumber hvalue hfits⟩
    | _ => exact hfits.elim
  · cases v with
    | number n => exact ⟨_, rfl, hnumber hvalue hfits⟩
    | _ => exact hfits.elim
  · cases v with
    | number n => exact ⟨_, rfl, hnumber hvalue hfits⟩
    | _ => exact hfits.elim
  · cases v with
    | text t =>
      refine ⟨_, rfl, ?_⟩
      change (q.readString (o+1)).map _ = _
      rw [hvalue.readString hshort]
      rfl
    | _ => exact hfits.elim
  · cases v with
    | text t => exact ⟨_, rfl, congrArg some (hvalue.readUnchecked hfits)⟩
    | _ => exact hfits.elim
  · cases v with
    | text t => exact ⟨_, rfl, congrArg some (hvalue.readUnchecked hfits)⟩
    | _ => exact hfits.elim
  · cases v with
    | pair key value => exact ⟨_, rfl, hvalue.readPair hshort.1 hshort.2⟩
    | _ => exact hfits.elim

/-- The properties stored one after the other; `none` if an allocation fails. -/
def storeAll : List Property → PublishResp → Option PublishResp
  | [], t => some t
  | p :: ps, t =>
    match PublishId.ofCode p.1.code with
    | none => none
    | some id =>
      match t.store id (readAs p.2) with
      | (true, t) => storeAll ps t
      | (false, _) => none

theorem publishPropertyLoop_block {q : PropertySection} {o : ℕ} {ps : List Property}
    (hps : ∀ p ∈ ps, Property.Sendable p ∧ (p.1 ∈ publishIds ∨ p.1 = .userProperty) ∧ ShortStrings p)
    (h : q.At o (blockBytes ps)) {k : ℕ} (hk : ps.length < k) (t : PublishResp) :
    (∀ t', storeAll ps t = some t' →
      publishPropertyLoop q k o t = some (true, q.length, t')) ∧
    (storeAll ps t = none → ∃ o' t', publishPropertyLoop q k o t = some (false, o', t')) := by
  induction ps generalizing o k t with
  | nil =>
    obtain ⟨k,rfl⟩ := Nat.exists_eq_add_of_lt hk
    have ho : o = q.length := by
      have := h.length
      simpa [blockBytes] using this
    rw [show ([] : List Property).length+k+1 = k+1 by simp, publishPropertyLoop, if_neg (by omega), ho]
    refine ⟨fun t' ht => ?_, fun ht => absurd ht (by simp [storeAll])⟩
    rw [storeAll, Option.some.injEq] at ht
    rw [ht]
  | cons p ps ih =>
    obtain ⟨k,rfl⟩ : ∃ k', k = k'+1 := ⟨k-1, by simp at hk; omega⟩
    have hbytes : blockBytes (p :: ps) = p.bytes ++ blockBytes ps := rfl
    rw [hbytes] at h
    obtain ⟨h1,h2,h3⟩ := hps p List.mem_cons_self
    obtain ⟨id,hid,hread⟩ := readPublishValue_property h1 h2 h3 h
    have hskip := h.skip
    have hpos : 1 ≤ p.bytes.length := by simp [Property.bytes]
    have hlt : o < q.length := by
      have := h.length
      rw [List.length_append] at this
      omega
    have hbyte : q.byteAt o = UInt8.ofNat p.1.code :=
      PropertySection.byteAt_of_drop hlt (p.2.bytes p.1.format ++ blockBytes ps) _ h.bytes
    have hcode : (UInt8.ofNat p.1.code).toNat = p.1.code := by
      cases p.1 <;> rfl
    rw [publishPropertyLoop, if_pos hlt, hbyte, hcode, hid]
    dsimp only
    rw [hread]
    unfold storeAll
    rw [hid]
    dsimp only
    cases hstore : t.store id (readAs p.2) with
    | mk ok t1 =>
      cases ok with
      | true =>
        exact ih (fun x hx => hps x (List.mem_cons_of_mem _ hx)) hskip
          (by simp at hk; omega) t1
      | false => exact ⟨fun t' ht => absurd ht (by simp), fun _ => ⟨_, _, rfl⟩⟩

theorem storeAll_append (ps qs : List Property) (t : PublishResp) :
    storeAll (ps ++ qs) t = (storeAll ps t).bind (storeAll qs) := by
  induction ps generalizing t with
  | nil => rfl
  | cons p ps ih =>
    simp only [List.cons_append, storeAll]
    cases PublishId.ofCode p.1.code with
    | none => rfl
    | some id =>
      dsimp only
      cases t.store id (readAs p.2) with
      | mk ok t1 =>
        cases ok with
        | true => exact ih t1
        | false => rfl

theorem storeAll_single {id : PropertyId} {pid : PublishId} {v : Value} {t t' : PublishResp}
    (hid : PublishId.ofCode id.code = some pid) (h : t.store pid (readAs v) = (true, t')) :
    storeAll [(id, v)] t = some t' := by
  simp only [storeAll, hid, h]

theorem storeAll_number {id : PropertyId} {pid : PublishId} {n : ℕ} {t t' : PublishResp}
    (hid : PublishId.ofCode id.code = some pid) (h : t.store pid (.number n) = (true, t'))
    (hzero : n = 0 → t' = t) : storeAll (numberProperty id n) t = some t' := by
  unfold numberProperty
  by_cases hn : n ≠ 0
  · rw [if_pos hn]
    exact storeAll_single hid h
  · rw [if_neg hn, hzero (not_not.mp hn)]
    rfl

theorem storeAll_text {id : PropertyId} {pid : PublishId} {text : Option (List UInt8)}
    {t t' : PublishResp} (hid : PublishId.ofCode id.code = some pid)
    (h : ∀ x, text = some x → t.store pid (.string x) = (true, t')) (hnone : text = none → t' = t) :
    storeAll (textProperty id text) t = some t' := by
  cases text with
  | none =>
    rw [hnone rfl]
    rfl
  | some x => exact storeAll_single hid (h x rfl)

/-- The properties in front of the user properties, on a structure without any. -/
theorem storeAll_fields (p : PublishProperty) (allocs : List Bool) :
    storeAll (flagProperty .payloadFormatIndicator p.payloadFormatIndicator ++
      (numberProperty .messageExpiryInterval p.messageExpiryInterval ++
      (numberProperty .topicAlias p.topicAlias ++
      (textProperty .responseTopic p.responseTopic ++
      textProperty .correlationData (given p.correlationData))))) (PublishResp.zero allocs) =
        some ⟨p.payloadFormatIndicator, p.messageExpiryInterval, p.topicAlias, p.responseTopic,
          given p.correlationData, none, 0, none, allocs⟩ := by
  have h1 : storeAll (flagProperty .payloadFormatIndicator p.payloadFormatIndicator)
      (PublishResp.zero allocs) =
        some ⟨p.payloadFormatIndicator, 0, 0, none, none, none, 0, none, allocs⟩ := by
    cases p.payloadFormatIndicator <;> rfl
  have h2 : storeAll (numberProperty .messageExpiryInterval p.messageExpiryInterval)
      ⟨p.payloadFormatIndicator, 0, 0, none, none, none, 0, none, allocs⟩ =
        some ⟨p.payloadFormatIndicator, p.messageExpiryInterval, 0, none, none, none, 0, none,
          allocs⟩ := storeAll_number rfl rfl fun hn => by rw [hn]
  have h3 : storeAll (numberProperty .topicAlias p.topicAlias)
      ⟨p.payloadFormatIndicator, p.messageExpiryInterval, 0, none, none, none, 0, none, allocs⟩ =
        some ⟨p.payloadFormatIndicator, p.messageExpiryInterval, p.topicAlias, none, none, none, 0,
          none, allocs⟩ := storeAll_number rfl rfl fun hn => by rw [hn]
  have h4 : storeAll (textProperty .responseTopic p.responseTopic)
      ⟨p.payloadFormatIndicator, p.messageExpiryInterval, p.topicAlias, none, none, none, 0, none,
        allocs⟩ = some ⟨p.payloadFormatIndicator, p.messageExpiryInterval, p.topicAlias,
          p.responseTopic, none, none, 0, none, allocs⟩ :=
    storeAll_text rfl (fun x hx => by rw [hx]; rfl) fun hx => by rw [hx]
  have h5 : storeAll (textProperty .correlationData (given p.correlationData))
      ⟨p.payloadFormatIndicator, p.messageExpiryInterval, p.topicAlias, p.responseTopic, none, none,
        0, none, allocs⟩ = some ⟨p.payloadFormatIndicator, p.messageExpiryInterval, p.topicAlias,
          p.responseTopic, given p.correlationData, none, 0, none, allocs⟩ :=
    storeAll_text rfl (fun x hx => by rw [hx]; rfl) fun hx => by rw [hx]
  rw [storeAll_append, h1, Option.bind_some, storeAll_append, h2, Option.bind_some, storeAll_append,
    h3, Option.bind_some, storeAll_append, h4, Option.bind_some, h5]

/-- User properties are appended to those there are, unless an allocation fails. -/
theorem storeAll_userProperties (l : List (List UInt8 × List UInt8)) (t : PublishResp) :
    (∃ as, storeAll (userProperties (some l)) t = some {t with
      userProperty := if l = [] then t.userProperty else some (t.userProperty.getD [] ++ l)
      allocs := as}) ∨
    (storeAll (userProperties (some l)) t = none ∧ false ∈ t.allocs) := by
  induction l generalizing t with
  | nil => exact Or.inl ⟨t.allocs, rfl⟩
  | cons p l ih =>
    obtain ⟨key,value⟩ := p
    have hstep : storeAll (userProperties (some ((key, value) :: l))) t =
        match t.setUserProperty key value with
        | (true, t) => storeAll (userProperties (some l)) t
        | (false, _) => none := rfl
    rw [hstep]
    unfold PublishResp.setUserProperty
    dsimp only
    generalize (if t.userProperty.isNone = true then 4 else 3) = n
    by_cases hmem : t.hasMemory n = true
    · rw [if_pos hmem]
      dsimp only
      rcases ih {t with userProperty := some (t.userProperty.getD [] ++ [(key, value)])
                        allocs := t.allocs.drop n} with ⟨as,has⟩ | ⟨hnone,hfalse⟩
      · left
        refine ⟨as, ?_⟩
        rw [has]
        by_cases hl : l = []
        · simp [hl]
        · simp [hl]
      · exact Or.inr ⟨hnone, List.mem_of_mem_drop hfalse⟩
    · right
      rw [if_neg hmem]
      refine ⟨rfl, ?_⟩
      unfold PublishResp.hasMemory at hmem
      rw [List.all_eq_true] at hmem
      push Not at hmem
      obtain ⟨b,hb,hfalse⟩ := hmem
      have hbf : b = false := by simpa using hfalse
      rw [← hbf]
      exact List.mem_of_mem_take hb

/-- What the parser hands out is what was asked for; an empty list of user properties
is NULL. -/
structure ReadBack (property : Option PublishProperty) (t : PublishResp) : Prop where
  payloadFormatIndicator :
    t.payloadFormatIndicator = (property.map PublishProperty.payloadFormatIndicator).getD false
  messageExpiryInterval :
    t.messageExpiryInterval = (property.map PublishProperty.messageExpiryInterval).getD 0
  topicAlias : t.topicAlias = (property.map PublishProperty.topicAlias).getD 0
  responseTopic : t.responseTopic = property.bind PublishProperty.responseTopic
  correlationData : t.correlationData = property.bind fun p => given p.correlationData
  contentType : t.contentType = property.bind PublishProperty.contentType
  subscribeId : t.subscribeId = 0
  userProperty : t.userProperty.getD [] = (property.bind PublishProperty.userProperty).getD []

theorem storeAll_publish (property : Option PublishProperty) {respInfo : Option (List UInt8)}
    (hresp : given respInfo = none) (allocs : List Bool) :
    (∃ t, storeAll (PublishProperty.list property respInfo) (PublishResp.zero allocs) = some t ∧
      ReadBack property t) ∨
    (storeAll (PublishProperty.list property respInfo) (PublishResp.zero allocs) = none ∧
      false ∈ allocs) := by
  cases property with
  | none => exact Or.inl ⟨_, rfl, by constructor <;> rfl⟩
  | some p =>
    have hlist : PublishProperty.list (some p) respInfo =
        (flagProperty .payloadFormatIndicator p.payloadFormatIndicator ++
        (numberProperty .messageExpiryInterval p.messageExpiryInterval ++
        (numberProperty .topicAlias p.topicAlias ++
        (textProperty .responseTopic p.responseTopic ++
        textProperty .correlationData (given p.correlationData))))) ++
        (userProperties p.userProperty ++ textProperty .contentType p.contentType) := by
      unfold PublishProperty.list
      dsimp only
      rw [sentResponseTopic_plain hresp]
      simp only [List.append_assoc]
    have huser : userProperties p.userProperty = userProperties (some (p.userProperty.getD [])) := rfl
    rw [hlist, storeAll_append, storeAll_fields, Option.bind_some, storeAll_append, huser]
    rcases storeAll_userProperties (p.userProperty.getD []) ⟨p.payloadFormatIndicator,
      p.messageExpiryInterval, p.topicAlias, p.responseTopic, given p.correlationData, none, 0, none,
      allocs⟩ with ⟨as,hsome⟩ | ⟨hnone,hfalse⟩
    · left
      have hcontent (u : UserProperty) : storeAll (textProperty .contentType p.contentType)
          ⟨p.payloadFormatIndicator, p.messageExpiryInterval, p.topicAlias, p.responseTopic,
            given p.correlationData, none, 0, u, as⟩ =
          some ⟨p.payloadFormatIndicator, p.messageExpiryInterval, p.topicAlias, p.responseTopic,
            given p.correlationData, p.contentType, 0, u, as⟩ :=
        storeAll_text rfl (fun x hx => by rw [hx]; rfl) fun hx => by rw [hx]
      rw [hsome, Option.bind_some]
      refine ⟨_, hcontent _, ?_⟩
      constructor
      any_goals rfl
      dsimp only [Option.bind_some]
      split <;> simp_all
    · right
      rw [hnone]
      exact ⟨rfl,hfalse⟩

/-! The whole packet. -/

/-- The loop of `get_variable_len` over a complete field. -/
theorem variableLenLoop_field {buffer bs rest : List UInt8} {bufferLength k shift i len : ℕ}
    (hf : Base128.IsField bs) (hk : bs.length ≤ k) (h : buffer.drop i = bs ++ rest)
    (hi : i+bs.length ≤ bufferLength) :
    variableLenLoop buffer bufferLength k shift i len =
      (len+Base128.value bs*2^(7*shift), i+bs.length) := by
  induction bs generalizing k shift i len with
  | nil => exact False.elim hf
  | cons b bs ih =>
    obtain ⟨k,rfl⟩ : ∃ k', k = k'+1 := ⟨k-1, by simp at hk; omega⟩
    rw [List.length_cons] at hk hi
    have hb : buffer.getD i 0 = b := by
      have hhead := congrArg List.head? h
      rw [List.head?_drop, List.cons_append, List.head?_cons] at hhead
      rw [List.getD_eq_getElem?_getD, hhead]
      rfl
    have hnext : buffer.drop (i+1) = bs ++ rest := by
      rw [← List.drop_drop, h]
      rfl
    rw [variableLenLoop, if_pos (by omega), hb]
    dsimp only
    rw [Base128.low_bits]
    cases bs with
    | nil =>
      have hlast : b.toNat < 128 := hf
      rw [if_pos ((Base128.high_bit_clear_iff b).mpr hlast)]
      simp [Base128.value]
    | cons c bs =>
      have hgo : ¬ b &&& 0x80 = 0 := fun hz => by
        have h1 := (Base128.high_bit_clear_iff b).mp hz
        have h2 := hf.1
        omega
      rw [if_neg hgo, ih hf.2 (by omega) hnext (by omega), List.length_cons, List.length_cons]
      simp only [Base128.value, Prod.mk.injEq]
      refine ⟨?_, by simp only [List.length_cons]; omega⟩
      rw [show 7*(shift+1) = 7*shift+7 by omega, pow_add]
      ring

/-- A complete field of at most four bytes is read whole. -/
theorem getVariableLen_field {buffer bs rest : List UInt8} {offset bufferLength : ℕ}
    (hf : Base128.IsField bs) (hfour : bs.length ≤ 4) (h : buffer.drop offset = bs ++ rest)
    (hlen : offset+bs.length ≤ bufferLength) :
    getVariableLen buffer offset bufferLength = (Base128.value bs, bs.length) := by
  have hpos := hf.length_pos
  have hstop : (buffer.getD (offset+bs.length-1) 0).toNat < 128 := by
    have hlast := hf.stops
    have hget := congrArg (List.getD · (bs.length-1) 0) h
    rw [List.getD_append _ _ _ _ (by omega)] at hget
    rw [← hget, List.getD_eq_getElem?_getD, List.getElem?_drop, ← List.getD_eq_getElem?_getD] at hlast
    rwa [show offset+bs.length-1 = offset+(bs.length-1) by omega]
  unfold getVariableLen
  rw [variableLenLoop_field hf hfour h hlen]
  dsimp only
  rw [if_neg fun hh => hh.2.2 ((Base128.high_bit_clear_iff _).mpr hstop)]
  simp

theorem getVariableLen_encode {buffer rest : List UInt8} {offset bufferLength n : ℕ} (hn : n < 128^4)
    (h : buffer.drop offset = Base128.encode 3 n ++ rest)
    (hlen : offset+(Base128.encode 3 n).length ≤ bufferLength) :
    getVariableLen buffer offset bufferLength = (n, (Base128.encode 3 n).length) := by
  rw [getVariableLen_field (Base128.isField_encode 3 n hn) (Base128.encode_length_le 3 n) h hlen,
    Base128.value_encode 3 n hn]

theorem be16_of_drop {buffer rest : List UInt8} {o n : ℕ} (hn : n < 65536)
    (h : buffer.drop o = u16 n ++ rest) : be16 buffer o = n := by
  have h0 := congrArg (fun l : List UInt8 => l.getD 0 0) h
  have h1 := congrArg (fun l : List UInt8 => l.getD 1 0) h
  simp only [List.getD_eq_getElem?_getD, List.getElem?_drop] at h0 h1
  unfold be16
  rw [List.getD_eq_getElem?_getD, List.getD_eq_getElem?_getD, h1, ← Nat.add_zero o, h0]
  simp only [u16, List.cons_append, List.getElem?_cons_zero, List.getElem?_cons_succ,
    Option.getD_some, UInt8.toNat_ofNat']
  omega

theorem drop_skip {buffer w rest : List UInt8} {o : ℕ} (h : buffer.drop o = w ++ rest) :
    buffer.drop (o+w.length) = rest := by
  rw [← List.drop_drop, h, List.drop_left]

theorem mqttGetQos_headerByte {qos : ℕ} (hqos : qos ≤ 2) (retain : ℕ) :
    mqttGetQos (headerByte .publish 0 qos retain) = qos := by
  have hall : ∀ n : Fin 256, ((UInt8.ofNat n.val &&& 0x06) >>> 1).toNat = n.val/2 % 4 := by
    decide +kernel
  have hbyte : (headerByte .publish 0 qos retain).toNat = 48+qos*2+retain % 2 := by
    unfold headerByte
    rw [UInt8.toNat_ofNat']
    change (3 % 16*16+0 % 2*8+qos % 4*2+retain % 2) % 256 = _
    omega
  have hb := hall ⟨(headerByte .publish 0 qos retain).toNat, UInt8.toNat_lt _⟩
  rw [UInt8.ofNat_toNat] at hb
  unfold mqttGetQos
  rw [hb]
  dsimp only
  omega

/-- The parser on the packet of a PUBLISH: what was asked for comes back, unless an
allocation fails. -/
theorem publish_read_back {topic : Option (List UInt8)} {d : CData} {len : ℤ} {qos retain id : ℕ}
    {property : Option PublishProperty} {respInfo : Option (List UInt8)}
    (h : (Outgoing5.publish topic d len qos retain property respInfo).InRange)
    (hlen : ((Outgoing5.publish topic d len qos retain property respInfo).body id).length < 128^4)
    (hblock : (blockBytes (PublishProperty.list property respInfo)).length ≤ 65535)
    (hshort : ∀ p ∈ PublishProperty.list property respInfo, ShortStrings p)
    (allocs : List Bool) {fuel : ℕ}
    (hfuel : (blockBytes (PublishProperty.list property respInfo)).length < fuel) :
    let packet := (Outgoing5.publish topic d len qos retain property respInfo).bytes id
    let result := mqtt5GetPublishPropertyPayload fuel packet packet.length allocs
    (∃ r, result = some (some r) ∧ r.topic = (given topic).getD [] ∧ ReadBack property r.resp ∧
      (packet.drop r.dataOffset).take r.dataLen = d.slice 0 len.toNat) ∨
    (result = some none ∧ false ∈ allocs) := by
  intro packet result
  obtain ⟨-,htopic,-,-,hqos,-,hp,hresp,-⟩ := h
  have hok : BlockOk (PublishProperty.list property respInfo) publishIds :=
    publishList_blockOk_plain hp hresp
  -- the packet, part by part
  generalize hT : (given topic).getD [] = T
  generalize hI : (if 0 < qos then u16 id else []) = I
  generalize hP : d.slice 0 len.toNat = P
  generalize hB : blockBytes (PublishProperty.list property respInfo) = B at hblock hfuel
  generalize hn : ((Outgoing5.publish topic d len qos retain property respInfo).body id).length = n
    at hlen
  have hB4 : B.length < 128^4 := by omega
  have hbody : (Outgoing5.publish topic d len qos retain property respInfo).body id =
      u16 T.length ++ (T ++ (I ++ (Base128.encode 3 B.length ++ (B ++ P)))) := by
    simp only [Outgoing5.body, publishHead5, publishHead, block, hT, hI, hP, hB,
      generateVariableLen_encode hB4, List.append_assoc]
  have hpacket : packet = headerByte .publish 0 qos retain :: (Base128.encode 3 n ++
      (u16 T.length ++ (T ++ (I ++ (Base128.encode 3 B.length ++ (B ++ P)))))) := by
    change _ :: (Base128.encode 3 _ ++ _) = _
    rw [hn, hbody]
    rfl
  have hTlen : T.length < 65536 := by
    rw [← hT]
    cases hg : given topic with
    | none => simp
    | some t => exact given_carried htopic hg
  have hI2 : I.length = if 0 < qos then 2 else 0 := by
    rw [← hI]
    split <;> rfl
  have hBpos := (Base128.isField_encode 3 B.length hB4).length_pos
  -- where each part begins
  have hd1 : packet.drop 1 = Base128.encode 3 n ++ (u16 T.length ++ (T ++ (I ++
      (Base128.encode 3 B.length ++ (B ++ P))))) := by rw [hpacket]; rfl
  have hd2 := drop_skip hd1
  have hd3 := drop_skip hd2
  have hd4 := drop_skip hd3
  have hd5 := drop_skip hd4
  have hd6 := drop_skip hd5
  have hd7 := drop_skip hd6
  have hsize : packet.length = 1+(Base128.encode 3 n).length+2+T.length+I.length+
      (Base128.encode 3 B.length).length+B.length+P.length := by
    rw [hpacket]
    simp only [List.length_cons, List.length_append, u16_length]
    omega
  have hn' : n = 2+T.length+I.length+(Base128.encode 3 B.length).length+B.length+P.length := by
    rw [← hn, hbody]
    simp only [List.length_append, u16_length]
    omega
  rw [u16_length] at hd3 hd4 hd5 hd6 hd7
  have hqosByte : mqttGetQos (packet.getD 0 0) = qos := by
    rw [hpacket]
    exact mqttGetQos_headerByte hqos retain
  have htopicRead : (packet.drop (1+(Base128.encode 3 n).length+2)).take T.length = T := by
    rw [hd3, List.take_left]
  have hmod : B.length % 65536 = B.length := Nat.mod_eq_of_lt (by omega)
  -- the block of properties
  have hat : PropertySection.At ⟨packet, 1+(Base128.encode 3 n).length+2+T.length+I.length+
      (Base128.encode 3 B.length).length, B.length⟩ 0 B := by
    have hfits : PropertySection.Fits ⟨packet, 1+(Base128.encode 3 n).length+2+T.length+I.length+
        (Base128.encode 3 B.length).length, B.length⟩ :=
      ⟨Or.inr (by dsimp only; omega), by dsimp only; omega⟩
    refine ⟨hfits, Nat.zero_le _, ?_⟩
    rw [List.drop_zero]
    change (packet.drop _).take B.length = B
    rw [hd6, List.take_left]
  -- each property takes at least its identifier
  have hcount : (PublishProperty.list property respInfo).length < fuel := by
    have hge : (PublishProperty.list property respInfo).length ≤
        (blockBytes (PublishProperty.list property respInfo)).length :=
      flatMap_length_ge fun p _ => List.cons_ne_nil _ _
    rw [hB] at hge
    omega
  rw [← hB] at hat
  have hids : ∀ p ∈ PublishProperty.list property respInfo,
      Property.Sendable p ∧ (p.1 ∈ publishIds ∨ p.1 = .userProperty) ∧ ShortStrings p := by
    intro p hpl
    refine ⟨hok.sendable p hpl, ?_, hshort p hpl⟩
    by_cases hu : p.1 = .userProperty
    · exact Or.inr hu
    · left
      apply hok.allowed
      exact List.mem_filter.mpr ⟨List.mem_map_of_mem hpl, by simpa using hu⟩
  obtain ⟨hsome,hnone⟩ := publishPropertyLoop_block hids hat hcount (PublishResp.zero allocs)
  rw [hB] at hsome hnone
  -- the parser, step by step over the parts
  have hresult : result = mqtt5GetPublishPropertyPayload fuel packet packet.length allocs := rfl
  unfold mqtt5GetPublishPropertyPayload at hresult
  rw [getVariableLen_encode hlen hd1 (by omega)] at hresult
  dsimp only at hresult
  rw [be16_of_drop hTlen hd2, if_neg (by omega), hqosByte, htopicRead] at hresult
  have hroom : ¬ (0 < qos ∧ packet.length ≤ 1+(Base128.encode 3 n).length+2+T.length+2) := by
    rintro ⟨hpos,hle⟩
    rw [if_pos hpos] at hI2
    omega
  have hskip : (if 0 < qos then 1+(Base128.encode 3 n).length+2+T.length+2
      else 1+(Base128.encode 3 n).length+2+T.length) =
      1+(Base128.encode 3 n).length+2+T.length+I.length := by
    rw [hI2]
    split <;> rfl
  rw [if_neg hroom, hskip, getVariableLen_encode hB4 hd5 (by omega)] at hresult
  dsimp only at hresult
  rw [hmod] at hresult
  -- what the loop stores is what was asked for, if the allocations succeed
  rcases storeAll_publish property hresp allocs with ⟨t,hstore,hback⟩ | ⟨hstore,hfalse⟩
  · left
    rw [hsome t hstore] at hresult
    dsimp only at hresult
    refine ⟨_, hresult, rfl, hback, ?_⟩
    dsimp only
    have hdata : ((((if n+(1+(Base128.encode 3 n).length) ≤ packet.length then
        n+(1+(Base128.encode 3 n).length) else packet.length : ℕ) : ℤ)-
        ((1+(Base128.encode 3 n).length+2+T.length+I.length+(Base128.encode 3 B.length).length+
          B.length : ℕ) : ℤ)) % 2^32).toNat = P.length := by
      rw [if_pos (by omega)]
      omega
    rw [hdata, hd7, List.take_length]
  · right
    obtain ⟨o,t,hloop⟩ := hnone hstore
    rw [hloop] at hresult
    exact ⟨hresult, hfalse⟩

/-- A call of `mqtt5_msg.c`: a packet that fits is read back by the reference decoder, each
of its blocks of properties behind its own length; a PUBLISH whose header and properties
fit and whose payload does not is left as its beginning; else nothing is returned. The
client's own parser reads every PUBLISH back. -/
theorem mqtt5_round_trip (q : Outgoing5) (s : Composer)
    (hbuf : s.buffer.length = s.connection.bufferLength) (hw : s.written = [])
    (h16 : 16 ≤ s.connection.bufferLength)
    (hfrag : s.connection.outboundMessage.fragmentedMsgTotalLength = 0) (hrange : q.InRange) :
    let n := s.connection.bufferLength
    let r := q.composeIn s
    let m := r.2.connection.outboundMessage
    (q.Fits n r.1 → m.data = q.bytes r.1 ∧ decode m.data = some (q.packet r.1) ∧
      ∀ ps ∈ q.blocks, block ps <:+: m.data ∧ ∀ bs, ByteReader.base128 4 (block ps ++ bs) =
        some ((blockBytes ps).length, blockBytes ps ++ bs)) ∧
    (q.Fragmented n r.1 → m.data = q.cut n r.1 ∧
      m.fragmentedMsgTotalLength = 5+(q.body r.1).length ∧
      decode (q.bytes r.1) = some (q.packet r.1)) ∧
    (¬ q.Fits n r.1 → ¬ q.Fragmented n r.1 → m.data = []) ∧
    (∀ topic d len qos retain property respInfo,
      q = .publish topic d len qos retain property respInfo → (q.body r.1).length < 128^4 →
      (blockBytes (PublishProperty.list property respInfo)).length ≤ 65535 →
      (∀ p ∈ PublishProperty.list property respInfo, ShortStrings p) → ∀ allocs fuel,
      (blockBytes (PublishProperty.list property respInfo)).length < fuel →
      let result := mqtt5GetPublishPropertyPayload fuel (q.bytes r.1) (q.bytes r.1).length allocs
      (∃ p, result = some (some p) ∧ p.topic = (given topic).getD [] ∧ ReadBack property p.resp ∧
        ((q.bytes r.1).drop p.dataOffset).take p.dataLen = d.slice 0 len.toNat) ∨
      (result = some none ∧ false ∈ allocs)) := by
  intro n r m
  have hs : s.Sound s.connection := ⟨rfl, hbuf, by simp [hw]⟩
  obtain ⟨hfits,hcut,hnone⟩ := compose5_spec hs h16 hfrag hrange
  have hdecode (hid : q.Identified r.1) (hlen : (q.body r.1).length < 128^4) :
      decode (q.bytes r.1) = some (q.packet r.1) := by
    unfold Outgoing5.bytes
    rw [decode_framed _ _ hlen]
    exact decodeBody_outgoing5 hrange hid hlen
  refine ⟨fun hf => ?_, fun hc => ?_, hnone, ?_⟩
  · obtain ⟨hid,hdata⟩ := hfits hf
    have hall : m.data = q.bytes r.1 := hdata
    refine ⟨hall, by rw [hall]; exact hdecode hid hf.2, fun ps hps => ?_⟩
    have hbody := block_infix_body hps r.1
    have hbytes : q.body r.1 <:+: q.bytes r.1 :=
      ⟨q.first :: Base128.encode 3 (q.body r.1).length, [], by simp [Outgoing5.bytes]⟩
    refine ⟨by rw [hall]; exact hbody.trans hbytes, fun bs => ?_⟩
    have hle := hbody.length_le
    have hshort := blockBytes_le ps
    have hlen := hf.2
    exact block_length_field (by omega) bs
  · obtain ⟨hid,hdata,htotal⟩ := hcut hc
    refine ⟨hdata, htotal, hdecode hid ?_⟩
    cases q with
    | publish topic d len qos retain property respInfo => exact hc.2.2
    | _ => exact hc.elim
  · intro topic d len qos retain property respInfo hq hlen hblock hshort allocs fuel hfuel
    subst hq
    exact publish_read_back hrange hlen hblock hshort allocs hfuel

/-- A message expiry and a response topic, on a topic of one byte. -/
def sampleProperty : PublishProperty where
  payloadFormatIndicator := true
  messageExpiryInterval := 3600
  topicAlias := 0
  responseTopic := some [0x72]
  correlationData := none
  contentType := none
  userProperty := some [([0x6b], [0x76]), ([0x6b], [])]

theorem mqtt5_round_trip_publish :
    let q := Outgoing5.publish (some [0x74]) zeroData 5 1 1 (some sampleProperty) none
    let r := q.composeIn (freshComposer 64)
    decode r.2.connection.outboundMessage.data = some (q.packet r.1) ∧
      ∃ p, mqtt5GetPublishPropertyPayload 64 (q.bytes r.1) (q.bytes r.1).length [] = some (some p) ∧
        p.topic = [0x74] ∧ ReadBack (some sampleProperty) p.resp := by
  have hproperty : sampleProperty.InRange := by
    constructor <;> decide
  have hrange :
      (Outgoing5.publish (some [0x74]) zeroData 5 1 1 (some sampleProperty) none).InRange := by
    refine ⟨by decide, by decide, by decide, by decide, by decide, by decide, ?_, rfl,
      by decide +kernel⟩
    rintro p hp
    obtain rfl := Option.some.inj hp
    exact hproperty
  have hall := mqtt5_round_trip (.publish (some [0x74]) zeroData 5 1 1 (some sampleProperty) none)
    (freshComposer 64) rfl rfl (by decide) rfl hrange
  intro q r
  refine ⟨(hall.1 (by decide +kernel)).2.1, ?_⟩
  have hread := hall.2.2.2 _ _ _ _ _ _ _ rfl (by decide +kernel) (by decide +kernel)
    (by decide +kernel) [] 64 (by decide +kernel)
  rcases hread with ⟨p,h1,h2,h3,-⟩ | ⟨-,hfalse⟩
  · exact ⟨p, h1, h2, h3⟩
  · exact absurd hfalse (by simp)

/-- A PUBLISH whose header and properties fit a buffer of sixteen bytes and whose payload
does not: some bytes are returned, and they are not a packet. -/
theorem publish5_cut_short :
    let q := Outgoing5.publish (some [0x74]) zeroData 20 0 0 none none
    let r := q.composeIn (freshComposer 16)
    q.InRange ∧ r.2.connection.outboundMessage.data ≠ [] ∧
      decode r.2.connection.outboundMessage.data = none := by
  refine ⟨⟨by decide, by decide, by decide, by decide, by decide, by decide, by simp, rfl,
    by decide +kernel⟩, ?_⟩
  decide +kernel

end EspMqtt
