import EspMqtt.ClientTask
import EspMqtt.ReceivePrefix
import EspMqtt.ServerCapabilities

/-! What decides about a connection: the CONNACK, or what an earlier packet left
behind it in `in_buffer`. -/
namespace EspMqtt
open RxState (holding)

/-! The v5 parser on two buffers that begin with the same `n` bytes. -/

theorem variableLenLoop_agree {b b' : List UInt8} {n : ℕ} (h : ∀ j < n, b.getD j 0 = b'.getD j 0)
    (k shift i len : ℕ) : variableLenLoop b n k shift i len = variableLenLoop b' n k shift i len := by
  induction k generalizing shift i len with
  | zero => rfl
  | succ k ih =>
    unfold variableLenLoop
    by_cases hi : i < n
    · rw [if_pos hi, if_pos hi, h i hi]
      dsimp only
      rw [ih]
    · rw [if_neg hi, if_neg hi]

theorem getVariableLen_agree {b b' : List UInt8} {n : ℕ} (h : ∀ j < n, b.getD j 0 = b'.getD j 0) (o : ℕ) :
    getVariableLen b o n = getVariableLen b' o n := by
  obtain ⟨hlo,-⟩ := variableLenLoop_range b' n 4 0 o 0
  unfold getVariableLen
  rw [variableLenLoop_agree h]
  dsimp only
  by_cases hfull : (variableLenLoop b' n 4 0 o 0).2-o = 4 ∧ (variableLenLoop b' n 4 0 o 0).2 ≤ n
  · rw [h _ (by omega)]
  · rw [if_neg (by tauto), if_neg (by tauto)]

namespace PropertySection

/-- Two sections at the same place that hold the same bytes. -/
structure Same (p p' : PropertySection) : Prop where
  start : p.start = p'.start
  length : p.length = p'.length
  bytes : ∀ o < p.length, p.byteAt o = p'.byteAt o
  slices : ∀ o n, o+n ≤ p.length → (p.buffer.drop (p.start+o)).take n = (p'.buffer.drop (p'.start+o)).take n

variable {p p' : PropertySection}

theorem Same.hasBytes (h : Same p p') (o n : ℕ) : p.hasBytes o n = p'.hasBytes o n := by
  unfold PropertySection.hasBytes
  rw [h.length]

theorem Same.two (h : Same p p') {o : ℕ} (ho : p.hasBytes o 2 = true) : p.number 2 o 0 = p'.number 2 o 0 := by
  unfold PropertySection.hasBytes at ho
  rw [Bool.and_eq_true, decide_eq_true_eq, decide_eq_true_eq] at ho
  -- the second offset may have run over, and is 0 then
  have hsecond : advance o 1 < p.length := by
    have hmod : (o+1) % 65536 ≤ o+1 := Nat.mod_le _ _
    unfold advance
    omega
  simp only [PropertySection.number, h.bytes o (by omega), h.bytes _ hsecond]

theorem Same.readString (h : Same p p') (o : ℕ) : p.readString o = p'.readString o := by
  unfold PropertySection.readString
  simp only [← h.hasBytes]
  by_cases hlong : p.hasBytes o 2 = true
  · rw [if_pos hlong, if_pos hlong, ← h.two hlong]
    by_cases hbad : maxStringLen < p.number 2 o 0 ∨ p.hasBytes (advance o 2) (p.number 2 o 0) = false
    · rw [if_pos hbad, if_pos hbad]
    · rw [if_neg hbad, if_neg hbad, h.slices]
      rw [not_or, Bool.not_eq_false] at hbad
      unfold PropertySection.hasBytes at hbad
      rw [Bool.and_eq_true, decide_eq_true_eq, decide_eq_true_eq] at hbad
      omega
  · rw [if_neg hlong, if_neg hlong]

/-- Values that take the same way through the switch. A number need not be the same: for
three of them the code does not look whether their bytes are there. -/
def Similar (v v' : PropertyValue) : Prop := v = v' ∨ ∃ a b, v = .number a ∧ v' = .number b

theorem Same.readValue (h : Same p p') (o : ℕ) (f : PropertyFormat) :
    (p.readValue o f = none ∧ p'.readValue o f = none) ∨
    ∃ v v' o', p.readValue o f = some (v, o') ∧ p'.readValue o f = some (v', o') ∧ Similar v v' := by
  cases f with
  | number bytes checked =>
    unfold PropertySection.readValue
    dsimp only
    rw [← h.hasBytes]
    by_cases hbad : checked = true ∧ p.hasBytes o bytes = false
    · left
      rw [if_pos hbad, if_pos hbad]
      exact ⟨rfl, rfl⟩
    · right
      rw [if_neg hbad, if_neg hbad]
      exact ⟨_, _, _, rfl, rfl, Or.inr ⟨_, _, rfl, rfl⟩⟩
  | string =>
    unfold PropertySection.readValue
    rw [← h.readString]
    cases p.readString o with
    | none => exact Or.inl ⟨rfl, rfl⟩
    | some r => exact Or.inr ⟨_, _, _, rfl, rfl, Or.inl rfl⟩
  | stringPair =>
    unfold PropertySection.readValue
    rw [← h.readString]
    cases p.readString o with
    | none => exact Or.inl ⟨rfl, rfl⟩
    | some key =>
      dsimp only
      rw [← h.readString]
      cases p.readString key.2 with
      | none => exact Or.inl ⟨rfl, rfl⟩
      | some r => exact Or.inr ⟨_, _, _, rfl, rfl, Or.inl rfl⟩

end PropertySection

namespace ConnackInfo

/-- Two clients that come to the same verdict: only memory can make them differ. -/
structure Alike (t t' : ConnackInfo) : Prop where
  allocs : t.allocs = t'.allocs
  listed : t.userProperty.isNone = t'.userProperty.isNone

variable {t t' : ConnackInfo}

theorem Alike.alloc (h : Alike t t') : t.alloc.1 = t'.alloc.1 ∧ Alike t.alloc.2 t'.alloc.2 := by
  unfold ConnackInfo.alloc
  rw [h.allocs]
  exact ⟨rfl, rfl, h.listed⟩

theorem Alike.allocAll (h : Alike t t') (n : ℕ) :
    (t.allocAll n).1 = (t'.allocAll n).1 ∧ Alike (t.allocAll n).2 (t'.allocAll n).2 := by
  induction n generalizing t t' with
  | zero => exact ⟨rfl, h⟩
  | succ n ih =>
    obtain ⟨hok,hnext⟩ := h.alloc
    unfold ConnackInfo.allocAll
    generalize t.alloc = r at hok hnext
    generalize t'.alloc = r' at hok hnext
    obtain ⟨ok,u⟩ := r
    obtain ⟨ok',u'⟩ := r'
    dsimp only at hok hnext
    subst hok
    cases ok with
    | true => exact ih hnext
    | false => exact ⟨rfl, hnext⟩

theorem Alike.setUserProperty (h : Alike t t') (key value : List UInt8) :
    (t.setUserProperty key value).1 = (t'.setUserProperty key value).1 ∧
    Alike (t.setUserProperty key value).2 (t'.setUserProperty key value).2 := by
  unfold ConnackInfo.setUserProperty
  rw [← h.listed]
  obtain ⟨hok,hnext⟩ := h.allocAll (if t.userProperty.isNone = true then 4 else 3)
  generalize t.allocAll (if t.userProperty.isNone = true then 4 else 3) = r at hok hnext
  generalize t'.allocAll (if t.userProperty.isNone = true then 4 else 3) = r' at hok hnext
  obtain ⟨ok,u⟩ := r
  obtain ⟨ok',u'⟩ := r'
  dsimp only at hok hnext
  subst hok
  cases ok with
  | true => exact ⟨rfl, hnext.allocs, rfl⟩
  | false => exact ⟨rfl, hnext.allocs, rfl⟩

theorem Alike.release (h : Alike t t') (id : ConnackId) : Alike (t.release id) (t'.release id) := by
  cases id <;> exact ⟨h.allocs, h.listed⟩

theorem Alike.store (h : Alike t t') (id : ConnackId) {v v' : PropertyValue}
    (hv : PropertySection.Similar v v') :
    (t.store id v).1 = (t'.store id v').1 ∧ Alike (t.store id v).2 (t'.store id v').2 := by
  have hsame : Alike t t' := ⟨h.allocs, h.listed⟩
  have halloc : t.alloc.1 = t'.alloc.1 ∧ Alike t.alloc.2 t'.alloc.2 := h.alloc
  rcases hv with rfl | ⟨a,b,rfl,rfl⟩
  · generalize ha : t.alloc = r at halloc
    generalize hb : t'.alloc = r' at halloc
    obtain ⟨ok,u⟩ := r
    obtain ⟨ok',u'⟩ := r'
    obtain ⟨hok,hnext⟩ := halloc
    dsimp only at hok hnext
    subst hok
    cases id <;> cases v <;>
      first
        | exact ⟨rfl, hsame.allocs, hsame.listed⟩
        | exact h.setUserProperty _ _
        | (simp only [ConnackInfo.store, ha, hb]
           cases ok <;> exact ⟨rfl, hnext.allocs, hnext.listed⟩)
  · cases id <;> exact ⟨rfl, hsame.allocs, hsame.listed⟩

end ConnackInfo

/-- The loop comes to the same end on both. -/
theorem connackPropertyLoop_same {p p' : PropertySection} (h : p.Same p') (k o : ℕ) {t t' : ConnackInfo}
    (ht : t.Alike t') : (connackPropertyLoop p k o t).map Prod.fst = (connackPropertyLoop p' k o t').map Prod.fst := by
  induction k generalizing o t t' with
  | zero => rfl
  | succ k ih =>
    unfold connackPropertyLoop
    by_cases ho : o < p.length
    · rw [if_pos ho, if_pos (by rw [← h.length]; exact ho), ← h.bytes o ho]
      cases ConnackId.ofCode (p.byteAt o).toNat with
      | none => rfl
      | some id =>
        dsimp only
        rcases h.readValue (PropertySection.advance o 1) id.format with ⟨hn,hn'⟩ | ⟨v,v',o',hv,hv',hsim⟩
        · rw [hn, hn']
          rfl
        · rw [hv, hv']
          dsimp only
          obtain ⟨hok,hnext⟩ := (ht.release id).store id hsim
          generalize (t.release id).store id v = r at hok hnext
          generalize (t'.release id).store id v' = r' at hok hnext
          obtain ⟨ok,u⟩ := r
          obtain ⟨ok',u'⟩ := r'
          dsimp only at hok hnext
          subst hok
          cases ok with
          | true => exact ih o' hnext
          | false => rfl
    · rw [if_neg ho, if_neg (by rw [← h.length]; exact ho)]
      rfl

/-! It comes to an end on every section that leaves room for its 16-bit offset. -/

namespace PropertySection

variable {p : PropertySection}

theorem readString_advances (hp : p.length+5 ≤ 65536) {o o' : ℕ} {bs : List UInt8}
    (h : p.readString o = some (bs, o')) : o < o' ∧ o' ≤ p.length := by
  unfold PropertySection.readString at h
  split at h
  · rename_i hlong
    dsimp only at h
    split at h
    · exact absurd h (by simp)
    · rename_i hgood
      rw [not_or, Bool.not_eq_false] at hgood
      unfold PropertySection.hasBytes at hlong hgood
      rw [Bool.and_eq_true, decide_eq_true_eq, decide_eq_true_eq] at hlong hgood
      have htwo : advance o 2 = o+2 := Nat.mod_eq_of_lt (by omega)
      rw [htwo] at hgood h
      have hend : advance (o+2) (p.number 2 o 0) = o+2+p.number 2 o 0 := Nat.mod_eq_of_lt (by omega)
      rw [hend, Option.some.injEq, Prod.mk.injEq] at h
      omega
  · exact absurd h (by simp)

theorem readValue_advances (hp : p.length+5 ≤ 65536) {o o' : ℕ} {id : ConnackId} {v : PropertyValue}
    (ho : o ≤ p.length) (h : p.readValue o id.format = some (v, o')) : o < o' := by
  generalize hf : id.format = f at h
  cases f with
  | number bytes checked =>
    unfold PropertySection.readValue at h
    dsimp only at h
    split at h
    · exact absurd h (by simp)
    · have hbytes : 1 ≤ bytes ∧ bytes ≤ 4 := by
        cases id <;> simp only [ConnackId.format, PropertyFormat.number.injEq, reduceCtorEq] at hf <;> omega
      rw [Option.some.injEq, Prod.mk.injEq] at h
      have hend : advance o bytes = o+bytes := Nat.mod_eq_of_lt (by omega)
      omega
  | string =>
    unfold PropertySection.readValue at h
    obtain ⟨r,hr,heq⟩ := Option.map_eq_some_iff.mp h
    rw [Prod.mk.injEq] at heq
    exact heq.2 ▸ (readString_advances hp hr).1
  | stringPair =>
    unfold PropertySection.readValue at h
    dsimp only at h
    split at h
    · exact absurd h (by simp)
    · rename_i key hkey
      obtain ⟨r,hr,heq⟩ := Option.map_eq_some_iff.mp h
      rw [Prod.mk.injEq] at heq
      have hfirst := readString_advances hp hkey
      have hsecond := readString_advances hp hr
      omega

end PropertySection

theorem connackPropertyLoop_returns {p : PropertySection} (hp : p.length+5 ≤ 65536) (k o : ℕ) (hk : 0 < k)
    (hfuel : p.length < o+k) (t : ConnackInfo) : (connackPropertyLoop p k o t).isSome := by
  induction k generalizing o t with
  | zero => omega
  | succ k ih =>
    unfold connackPropertyLoop
    split
    · rename_i ho
      split
      · rfl
      · rename_i id hid
        dsimp only
        split
        · rfl
        · rename_i value o' hvalue
          have hone : PropertySection.advance o 1 = o+1 := Nat.mod_eq_of_lt (by omega)
          rw [hone] at hvalue
          have hnext := PropertySection.readValue_advances hp ho hvalue
          split
          · exact ih o' (by omega) (by omega) _
          · rfl
    · rfl

/-! What a client makes of the CONNACK. -/

inductive ConnackVerdict where
  | refused (code : ℕ)
  | accepted (sessionPresent : Bool)
  deriving DecidableEq, Repr

/-- A 3.1.1 client: the return code in `esp_mqtt_connect`, the session flag in the task. -/
def mqttVerdict (buffer : List UInt8) : ConnackVerdict :=
  let code := mqttGetConnectReturnCode buffer
  if code = 0 then .accepted (mqttGetConnectSessionPresent buffer) else .refused code

/-- A v5 client; `none` while the parser is still running. -/
def mqtt5Verdict (fuel : ℕ) (buffer : List UInt8) (readLen : ℕ) (info : ConnackInfo) : Option ConnackVerdict :=
  (espMqtt5ParseConnack fuel buffer readLen info).map fun r =>
    if r.ok then .accepted r.info.sessionPresent else .refused r.reasonCode

/-- The two bytes a verdict is read from, given what the loop over the properties returns. -/
def verdictOf (flags code : UInt8) (ok : Bool) : ConnackVerdict :=
  if ok ∧ code.toNat = 0 then .accepted (flags &&& 0x01 != 0) else .refused code.toNat

theorem connackSection_start (b : List UInt8) (n : ℕ) :
    connackFlagsOffset b n+2 ≤ (connackSection b n).start ∧
    (connackFlagsOffset b n+2 ≤ n → (connackSection b n).start ≤ n) ∧
    (n ≤ connackFlagsOffset b n+2 → (connackSection b n).length = 0) := by
  obtain ⟨hlo,-,hin,hout⟩ := variableLenLoop_range b n 4 0 (connackFlagsOffset b n+2) 0
  unfold connackSection getVariableLen
  dsimp only
  split
  · exact ⟨by omega, fun h => by omega, fun _ => rfl⟩
  · exact ⟨by omega, fun h => by have := hin h; omega, fun h => by rw [hout h]⟩

/-- Behind the check of the length the verdict comes from two bytes and from the loop. -/
theorem mqtt5Verdict_eq (fuel : ℕ) (b : List UInt8) (n : ℕ) (info : ConnackInfo)
    (hlen : (getVariableLen b 1 n).1+connackFlagsOffset b n ≤ n) :
    mqtt5Verdict fuel b n info =
      if ((n : ℤ)-(connackSection b n).start) % 2^32 < (connackSection b n).length then
        some (.refused (b.getD (connackFlagsOffset b n+1) 0).toNat)
      else (connackPropertyLoop (connackSection b n) fuel 0 {info with
          server := {info.server with receiveMaximum := mqtt5DefaultReceiveMaximum}
          userProperty := none}).map fun r =>
        verdictOf (b.getD (connackFlagsOffset b n) 0) (b.getD (connackFlagsOffset b n+1) 0) r.1 := by
  unfold mqtt5Verdict espMqtt5ParseConnack mqtt5MsgParseConnackProperty
  dsimp only
  rw [if_neg (by omega)]
  split
  · rfl
  · rw [Option.map_map, Option.map_map]
    apply congrArg (fun f => Option.map f _)
    funext r
    unfold verdictOf
    dsimp only [Function.comp]
    by_cases hok : r.1 = true ∧ (b.getD (connackFlagsOffset b n+1) 0).toNat = 0
    · simp only [hok, and_self, ↓reduceIte]
    · simp only [hok, ↓reduceIte, Bool.false_eq_true]

theorem getD_eq_of_take {b b' : List UInt8} {n : ℕ} (h : b.take n = b'.take n) :
    ∀ j < n, b.getD j 0 = b'.getD j 0 := fun j hj => ByteBuffer.getD_of_take_eq b b' n j 0 hj h

/-- A verdict whose two bytes have been read does not depend on those that have not. -/
theorem mqtt5Verdict_same {b b' : List UInt8} {n : ℕ} (h : b.take n = b'.take n)
    (hoff : connackFlagsOffset b n+2 ≤ n) (fuel : ℕ) (info : ConnackInfo) :
    mqtt5Verdict fuel b n info = mqtt5Verdict fuel b' n info := by
  have hget := getD_eq_of_take h
  have hflags : connackFlagsOffset b n = connackFlagsOffset b' n := by
    unfold connackFlagsOffset
    rw [getVariableLen_agree hget]
  have hstart : (connackSection b n).start = (connackSection b' n).start := by
    unfold connackSection
    dsimp only
    rw [hflags, getVariableLen_agree hget]
  have hlength : (connackSection b n).length = (connackSection b' n).length := by
    unfold connackSection
    dsimp only
    rw [hflags, getVariableLen_agree hget]
  by_cases hlen : (getVariableLen b 1 n).1+connackFlagsOffset b n ≤ n
  · have hlen' : (getVariableLen b' 1 n).1+connackFlagsOffset b' n ≤ n := by
      rwa [← hflags, ← getVariableLen_agree hget]
    rw [mqtt5Verdict_eq fuel b n info hlen, mqtt5Verdict_eq fuel b' n info hlen', ← hstart, ← hlength, ← hflags,
      hget (connackFlagsOffset b n) (by omega), hget (connackFlagsOffset b n+1) (by omega)]
    by_cases hcheck : ((n : ℤ)-(connackSection b n).start) % 2^32 < (connackSection b n).length
    · rw [if_pos hcheck, if_pos hcheck]
    · rw [if_neg hcheck, if_neg hcheck]
      have hin : (connackSection b n).start+(connackSection b n).length ≤ n := by
        have hle := (connackSection_start b n).2.1 hoff
        have hmod : ((n : ℤ)-(connackSection b n).start) % 2^32 ≤ (n : ℤ)-(connackSection b n).start := by omega
        omega
      have hsame : (connackSection b n).Same (connackSection b' n) := by
        refine ⟨hstart, hlength, fun o ho => ?_, fun o k hk => ?_⟩
        · unfold PropertySection.byteAt
          rw [← hstart]
          exact hget _ (by omega)
        · have hcut (c : List UInt8) (i : ℕ) (hi : i+k ≤ n) : (c.drop i).take k = ((c.take n).drop i).take k := by
            rw [List.drop_take, List.take_take, Nat.min_eq_left (by omega)]
          have hbuffer : (connackSection b n).buffer = b := rfl
          have hbuffer' : (connackSection b' n).buffer = b' := rfl
          rw [hbuffer, hbuffer', ← hstart, hcut b _ (by omega), hcut b' _ (by omega), h]
      have hloop := connackPropertyLoop_same hsame fuel 0 (⟨rfl, rfl⟩ : ConnackInfo.Alike
        {info with
          server := {info.server with receiveMaximum := mqtt5DefaultReceiveMaximum}
          userProperty := none} _)
      have hmap (x : Option (Bool × ConnackInfo)) (f : Bool → ConnackVerdict) :
          x.map (fun r => f r.1) = (x.map Prod.fst).map f := by
        rw [Option.map_map]
        rfl
      rw [hmap, hmap, hloop]
  · have hlen' : ¬ (getVariableLen b' 1 n).1+connackFlagsOffset b' n ≤ n := by
      rwa [← hflags, ← getVariableLen_agree hget]
    unfold mqtt5Verdict espMqtt5ParseConnack mqtt5MsgParseConnackProperty
    dsimp only
    rw [if_pos (by omega), if_pos (by omega)]

/-- A reason code other than 0 refuses, whatever the properties are. -/
theorem mqtt5Verdict_refuses {b : List UInt8} {n : ℕ} (hlen : (getVariableLen b 1 n).1+connackFlagsOffset b n ≤ n)
    (hoff : connackFlagsOffset b n+2 ≤ n) (hcode : b.getD (connackFlagsOffset b n+1) 0 ≠ 0)
    (hn : n+5 ≤ 65536) (fuel : ℕ) (hfuel : n < fuel) (info : ConnackInfo) :
    mqtt5Verdict fuel b n info = some (.refused (b.getD (connackFlagsOffset b n+1) 0).toNat) := by
  rw [mqtt5Verdict_eq fuel b n info hlen]
  split
  · rfl
  · rename_i hcheck
    have hle := (connackSection_start b n).2.1 hoff
    have hmod : ((n : ℤ)-(connackSection b n).start) % 2^32 ≤ (n : ℤ)-(connackSection b n).start := by omega
    obtain ⟨r,hr⟩ := Option.isSome_iff_exists.mp (connackPropertyLoop_returns (p := connackSection b n) (by omega)
      fuel 0 (by omega) (by omega) {info with
        server := {info.server with receiveMaximum := mqtt5DefaultReceiveMaximum}
        userProperty := none})
    rw [hr]
    have hzero : (b.getD (connackFlagsOffset b n+1) 0).toNat ≠ 0 := fun h => hcode (UInt8.toNat_inj.mp h)
    unfold verdictOf
    rw [Option.map_some, if_neg (fun h => hzero h.2)]

/-! The packet that a run has received. -/

theorem totalLengthLoop_eq_variable (b : List UInt8) (n k i len : ℕ) (hi : 1 ≤ i) :
    totalLengthLoop b n k i len = variableLenLoop b n k (i-1) i len := by
  induction k generalizing i len with
  | zero => rfl
  | succ k ih =>
    unfold totalLengthLoop variableLenLoop
    dsimp only
    rw [ih (i+1) _ (by omega), Nat.add_sub_cancel, Nat.sub_add_cancel hi]

/-- Both ways of reading the length field agree, but on one that does not end. -/
theorem HeaderRead.variableLen {seen b : List UInt8} {n : ℕ} (h : HeaderRead seen)
    (hb : ∀ j < fixedHeaderLength seen, b.getD j 0 = seen.getD j 0) (hn : fixedHeaderLength seen ≤ n) :
    (Unterminated seen → getVariableLen b 1 n = (0, 0)) ∧
    (¬ Unterminated seen →
      getVariableLen b 1 n = (totalLength seen-fixedHeaderLength seen, fixedHeaderLength seen-1)) := by
  have hloop : variableLenLoop b n 4 0 1 0 = totalLengthLoop seen seen.length 4 1 0 :=
    (totalLengthLoop_eq_variable b n 4 1 0 le_rfl).symm.trans (totalLengthLoop_extend 4 1 0 hb hn h)
  have hfixed : (totalLengthLoop seen seen.length 4 1 0).2 = fixedHeaderLength seen := rfl
  have htotal : totalLength seen = (totalLengthLoop seen seen.length 4 1 0).1+fixedHeaderLength seen := rfl
  have htwo := h.length.1
  unfold getVariableLen
  rw [hloop]
  dsimp only
  rw [hfixed]
  refine ⟨fun hun => ?_, fun hun => ?_⟩
  · have hhigh : b.getD (fixedHeaderLength seen-1) 0 &&& 0x80 ≠ 0 := by
      rw [hb (fixedHeaderLength seen-1) (by omega), hun.1]
      exact hun.2
    have hfour : fixedHeaderLength seen-1 = 4 := by rw [hun.1]
    exact if_pos ⟨hfour, hn, hhigh⟩
  · rw [if_neg, htotal, Nat.add_sub_cancel]
    rintro ⟨hfour,-,hhigh⟩
    have hfive : fixedHeaderLength seen = 5 := by omega
    rw [hb _ (by omega), hfive] at hhigh
    exact hun ⟨hfive, hhigh⟩

/-- The packet at the front of what has been counted. -/
def packetOf (seen : List UInt8) : List UInt8 := seen.take (totalLength seen)

section Packet

variable {seen : List UInt8}

theorem Whole.packet_length (h : Whole seen) : (packetOf seen).length = totalLength seen := by
  unfold packetOf
  rw [List.length_take, Nat.min_eq_left h.covers]

theorem packetOf_getD {j : ℕ} (hj : j < totalLength seen) : (packetOf seen).getD j 0 = seen.getD j 0 := by
  unfold packetOf
  rw [List.getD_eq_getElem?_getD, List.getElem?_take, if_pos hj, List.getD_eq_getElem?_getD]

theorem Whole.packet_header (h : Whole seen) : totalLength (packetOf seen) = totalLength seen ∧
    fixedHeaderLength (packetOf seen) = fixedHeaderLength seen ∧
    (Unterminated (packetOf seen) ↔ Unterminated seen) := by
  obtain ⟨-,-,htotal,-⟩ := fixedHeaderLength_range seen
  have hsame : mqttGetTotalLength (packetOf seen) (packetOf seen).length = mqttGetTotalLength seen seen.length :=
    h.ready.header.agree (fun j hj => packetOf_getD (by omega)) (by rw [h.packet_length]; exact htotal)
  have hfixed : fixedHeaderLength (packetOf seen) = fixedHeaderLength seen := congrArg Prod.snd hsame
  refine ⟨congrArg Prod.fst hsame, hfixed, ?_⟩
  unfold Unterminated
  rw [hfixed]
  constructor
  · rintro ⟨hfive,hhigh⟩
    exact ⟨hfive, by rwa [packetOf_getD (by omega)] at hhigh⟩
  · rintro ⟨hfive,hhigh⟩
    exact ⟨hfive, by rwa [packetOf_getD (by omega)]⟩

/-- Where a v5 client looks for the flags: behind the header, if that has an end. -/
theorem Whole.flags_at (h : Whole seen) {b : List UInt8} {n : ℕ}
    (hb : ∀ j < totalLength seen, b.getD j 0 = seen.getD j 0) (hn : totalLength seen ≤ n) :
    (Unterminated seen → connackFlagsOffset b n = 1 ∧ (getVariableLen b 1 n).1 = 0) ∧
    (¬ Unterminated seen → connackFlagsOffset b n = fixedHeaderLength seen ∧
      (getVariableLen b 1 n).1+connackFlagsOffset b n = totalLength seen) := by
  obtain ⟨-,-,htotal,-⟩ := fixedHeaderLength_range seen
  have htwo := h.ready.header.length.1
  obtain ⟨hun,hend⟩ := h.ready.header.variableLen (b := b) (n := n) (fun j hj => hb j (by omega)) (by omega)
  unfold connackFlagsOffset
  refine ⟨fun hu => ?_, fun hu => ?_⟩
  · rw [hun hu]
    exact ⟨rfl, rfl⟩
  · rw [hend hu]
    dsimp only
    omega

/-- A header without end has four bytes with the high bit. -/
theorem Unterminated.high (h : Unterminated seen) {j : ℕ} (hj : 1 ≤ j) (hle : j ≤ 4) :
    seen.getD j 0 &&& 0x80 ≠ 0 := by
  rcases Nat.eq_or_lt_of_le hle with rfl | hlt
  · exact h.2
  · have hfive : (totalLengthLoop seen seen.length 4 1 0).2 = 5 := h.1
    exact totalLengthLoop_before seen seen.length 4 1 0 hj (by omega)

theorem ne_zero_of_high {b : UInt8} (h : b &&& 0x80 ≠ 0) : b ≠ 0 := by
  rintro rfl
  exact h (by decide)

/-- The verdict of a v5 client is that of the packet alone once the packet holds the two
bytes it is read from. -/
theorem Whole.verdict_of_packet (h : Whole seen) (stale : List UInt8) (l m fuel : ℕ) (hfuel : seen.length < fuel)
    (info : ConnackInfo)
    (hoff : connackFlagsOffset (packetOf seen) (packetOf seen).length+2 ≤ (packetOf seen).length) :
    mqtt5Verdict fuel (holding seen stale l m).inBuffer seen.length info =
      mqtt5Verdict fuel (packetOf seen) (packetOf seen).length info := by
  have hplen := h.packet_length
  by_cases hexact : seen.length = totalLength seen
  · have hp : packetOf seen = seen := by
      unfold packetOf
      rw [← hexact, List.take_length]
    rw [hp] at hoff ⊢
    refine (mqtt5Verdict_same ?_ hoff fuel info).symm
    unfold RxState.holding
    dsimp only
    rw [List.take_length, List.take_left]
  · -- read past its end, it is refused either way
    obtain ⟨hshort,hhigh⟩ := h.ready.inside.resolve_left (by have := h.covers; omega)
    have hcovers := h.covers
    have hb : ∀ j < totalLength seen, (holding seen stale l m).inBuffer.getD j 0 = seen.getD j 0 :=
      fun j hj => RxState.holding_getD seen stale l m (by omega)
    have hp : ∀ j < totalLength seen, (packetOf seen).getD j 0 = seen.getD j 0 := fun j hj => packetOf_getD hj
    obtain ⟨hun,hend⟩ := h.flags_at hb hcovers
    obtain ⟨hunp,hendp⟩ := h.flags_at hp (le_of_eq hplen.symm)
    have hmatch : connackFlagsOffset (holding seen stale l m).inBuffer seen.length =
          connackFlagsOffset (packetOf seen) (packetOf seen).length ∧
        (getVariableLen (holding seen stale l m).inBuffer 1 seen.length).1+
          connackFlagsOffset (packetOf seen) (packetOf seen).length ≤ totalLength seen ∧
        (getVariableLen (packetOf seen) 1 (packetOf seen).length).1+
          connackFlagsOffset (packetOf seen) (packetOf seen).length ≤ totalLength seen ∧
        seen.getD (connackFlagsOffset (packetOf seen) (packetOf seen).length+1) 0 ≠ 0 := by
      by_cases hu : Unterminated seen
      · have h1 := hun hu
        have h2 := hunp hu
        have hfive := hu.1
        have htotal := (fixedHeaderLength_range seen).2.2.1
        refine ⟨by omega, by omega, by omega, ?_⟩
        rw [h2.1]
        exact ne_zero_of_high (hu.high (by omega) (by omega))
      · have h1 := hend hu
        have h2 := hendp hu
        refine ⟨by omega, by omega, by omega, ?_⟩
        rw [h2.1]
        exact ne_zero_of_high (hhigh.resolve_left hu).2
    obtain ⟨hsame,hlen,hlenp,hcode⟩ := hmatch
    rw [mqtt5Verdict_refuses (by omega) (by omega) (by rw [hsame, hb _ (by omega)]; exact hcode) (by omega) fuel hfuel,
      mqtt5Verdict_refuses (by omega) hoff (by rw [hp _ (by omega)]; exact hcode) (by omega) fuel (by omega), hsame,
      hb _ (by omega), hp _ (by omega)]

end Packet

/-! Waiting for it. -/

/-- The loop of `esp_mqtt_connect` on the fields it works with. -/
def awaitConnack : ℕ → Transport → RxState → Recv × Transport × RxState
  | 0, t, s => (.nothing, t, s)
  | k+1, t, s =>
    let r := mqttMessageReceive t s
    if r.1 = .nothing then awaitConnack k r.2.1 r.2.2 else r

namespace World

/-- It is the loop of the client, which the network timeout may end earlier. -/
theorem connackLoop_eq (started k : ℕ) (w : World) : ∃ k' n l, connackLoop started k w =
    ((awaitConnack k' w.transport w.rx).1, {w with
      transport := (awaitConnack k' w.transport w.rx).2.1
      rx := (awaitConnack k' w.transport w.rx).2.2
      now := n, ticks := l}) := by
  induction k generalizing w with
  | zero => exact ⟨0, w.now, w.ticks, rfl⟩
  | succ k ih =>
    unfold connackLoop
    extract_lets +onlyGivenNames r v
    have hstep (k' : ℕ) : awaitConnack (k'+1) w.transport w.rx =
      if r.1 = .nothing then awaitConnack k' r.2.1 r.2.2 else r := rfl
    by_cases hnothing : r.1 = .nothing
    · rw [if_pos hnothing]
      obtain ⟨n,l,htick⟩ := v.tick_eq
      rw [htick]
      dsimp only
      split
      · obtain ⟨k',n',l',hloop⟩ := ih {v with now := n, ticks := l}
        refine ⟨k'+1, n', l', ?_⟩
        rw [hloop, hstep, if_pos hnothing]
      · refine ⟨1, n, l, ?_⟩
        rw [hstep, if_pos hnothing, hnothing]
        rfl
    · rw [if_neg hnothing]
      refine ⟨1, w.now, w.ticks, ?_⟩
      rw [hstep, if_neg hnothing]

/-- A 3.1.1 client connects exactly when the verdict on its buffer says so. -/
theorem acceptConnack_verdict (H : Handler) (w : World) (hv : w.isV5 = false)
    (htype : mqttGetType (w.rx.inBuffer.getD 0 0) = some .connack) :
    (acceptConnack H w).1 = true ↔ ∃ b, mqttVerdict w.rx.inBuffer = .accepted b := by
  unfold acceptConnack mqttVerdict
  rw [if_neg (by rw [htype]; simp), if_neg (by rw [hv]; simp)]
  dsimp only
  split
  · exact ⟨fun _ => ⟨_, rfl⟩, fun _ => rfl⟩
  · exact ⟨fun h => absurd h (by simp), fun ⟨_,h⟩ => absurd h (by simp)⟩

end World

theorem awaitConnack_holding (k : ℕ) (t : Transport) (seen : List UInt8) (l m : ℕ) (hseen : Between seen) :
    (∀ stale, (awaitConnack k t (holding seen stale l m)).1 ≠ .message) ∨
    ∃ t' seen' m', (∀ stale, awaitConnack k t (holding seen stale l m) = (.message, t', holding seen' stale l m')) ∧
      (IsPublishPacket seen' ∨ (Whole seen' ∧ m' = totalLength seen')) := by
  induction k generalizing t seen m with
  | zero => exact Or.inl fun stale h => absurd (show Recv.nothing = .message from h) (by decide)
  | succ k ih =>
    rcases mqttMessageReceive_holding t seen l hseen with hfail | ⟨r,t',seen',m',hrun,hmessage,hnothing⟩
    · left
      intro stale
      have hf := hfail stale m
      unfold awaitConnack
      dsimp only
      rw [if_neg (by rw [hf]; decide), hf]
      decide
    · have hopen (stale : List UInt8) : awaitConnack (k+1) t (holding seen stale l m) =
          if r = .nothing then awaitConnack k t' (holding seen' stale l m')
          else (r, t', holding seen' stale l m') := by
        rw [awaitConnack, hrun]
      cases r with
      | nothing =>
        simp only [hopen]
        exact ih t' seen' m' (hnothing rfl)
      | message => exact Or.inr ⟨t', seen', m', fun stale => hopen stale, hmessage rfl⟩
      | failure =>
        left
        intro stale
        rw [hopen]
        exact (by decide : Recv.failure ≠ .message)
      | midMessageTimeout =>
        left
        intro stale
        rw [hopen]
        exact (by decide : Recv.midMessageTimeout ≠ .message)

/-- A run of `esp_mqtt_connect`, from where the CONNECT has been written up to a CONNACK:
what the transport does, and what happens to be in `in_buffer`. -/
structure ConnackRun where
  transport : Transport
  buffer : List UInt8
  length : ℕ
  rounds : ℕ
  got : (awaitConnack rounds transport ⟨buffer, length, 0, 0⟩).1 = .message
  connack : mqttGetType ((awaitConnack rounds transport ⟨buffer, length, 0, 0⟩).2.2.inBuffer.getD 0 0) = some .connack

namespace ConnackRun

/-- The receive fields when the CONNACK is in. -/
def rx (r : ConnackRun) : RxState := (awaitConnack r.rounds r.transport ⟨r.buffer, r.length, 0, 0⟩).2.2

/-- The CONNACK. -/
def packet (r : ConnackRun) : List UInt8 := r.rx.inBuffer.take r.rx.messageLength

/-- What the client makes of it. -/
def verdict (r : ConnackRun) (isV5 : Bool) (fuel : ℕ) (info : ConnackInfo) : Option ConnackVerdict :=
  if isV5 then mqtt5Verdict fuel r.rx.inBuffer r.rx.inBufferReadLen info else some (mqttVerdict r.rx.inBuffer)

/-- A run is the bytes it has counted; with another `in_buffer` there is a run that has
counted the same. -/
theorem counted (r : ConnackRun) : ∃ seen, Whole seen ∧ r.packet = packetOf seen ∧
    r.rx = holding seen r.buffer r.length (totalLength seen) ∧
    ∀ stale, ∃ r' : ConnackRun, r'.rx = holding seen stale r.length (totalLength seen) ∧
      r'.packet = packetOf seen := by
  have hstart (stale : List UInt8) : (⟨stale, r.length, 0, 0⟩ : RxState) = holding [] stale r.length 0 := rfl
  rcases awaitConnack_holding r.rounds r.transport [] r.length 0 (Or.inl rfl) with hno | ⟨t,seen,m,hrun,hseen⟩
  · exact absurd r.got (hno r.buffer)
  · have hpacket (stale : List UInt8) (hw : Whole seen) :
        (holding seen stale r.length (totalLength seen)).inBuffer.take (totalLength seen) = packetOf seen :=
      List.take_append_of_le_length hw.covers
    have hconnack := r.connack
    rw [hstart, hrun] at hconnack
    dsimp only at hconnack
    have hwhole : Whole seen ∧ m = totalLength seen := by
      rcases hseen with hpub | hwhole
      · exfalso
        by_cases hne : seen = []
        · rw [hne] at hpub
          exact absurd hpub (by decide)
        · rw [RxState.holding_getD _ _ _ _ (List.length_pos_of_ne_nil hne), hpub] at hconnack
          exact absurd hconnack (by decide)
      · exact hwhole
    obtain ⟨hw,rfl⟩ := hwhole
    have hpos : 0 < seen.length := by
      have hlen := hw.ready.header.length
      omega
    rw [RxState.holding_getD _ _ _ _ hpos] at hconnack
    have hrx : r.rx = holding seen r.buffer r.length (totalLength seen) := by
      unfold rx
      rw [hstart, hrun]
    refine ⟨seen, hw, ?_, hrx, fun stale => ?_⟩
    · unfold packet
      rw [hrx]
      exact hpacket r.buffer hw
    · let r' : ConnackRun := ⟨r.transport, stale, r.length, r.rounds, by rw [hstart, hrun], by
        rw [hstart, hrun]
        dsimp only
        rw [RxState.holding_getD _ _ _ _ hpos]
        exact hconnack⟩
      have hrx' : r'.rx = holding seen stale r.length (totalLength seen) := by
        unfold rx
        rw [hstart, hrun]
      refine ⟨r', hrx', ?_⟩
      unfold packet
      rw [hrx']
      exact hpacket stale hw

end ConnackRun

/-! What the verdict depends on. -/

/-- Where the acknowledge flags are looked for; the return code is behind them. -/
def flagsOffset (isV5 : Bool) (p : List UInt8) : ℕ := if isV5 then connackFlagsOffset p p.length else 2

/-- The Remaining Length of a packet. -/
def remainingLength (p : List UInt8) : ℕ := totalLength p-fixedHeaderLength p

/-- The packet holds the two bytes, and unless it has a body of two bytes the second of
them refuses. -/
def Decisive (isV5 : Bool) (p : List UInt8) : Prop :=
  flagsOffset isV5 p+2 ≤ p.length ∧ (2 ≤ remainingLength p ∨ p.getD (flagsOffset isV5 p+1) 0 ≠ 0)

theorem mqttVerdict_of_getD {b b' : List UInt8} (h : ∀ j < 4, b.getD j 0 = b'.getD j 0) :
    mqttVerdict b = mqttVerdict b' := by
  unfold mqttVerdict mqttGetConnectReturnCode mqttGetConnectSessionPresent
  rw [h 2 (by omega), h 3 (by omega)]

/-- A client that has connected has read the code 0. -/
theorem mqtt5Verdict_accepted {fuel : ℕ} {b : List UInt8} {n : ℕ} {info : ConnackInfo} {present : Bool}
    (h : mqtt5Verdict fuel b n info = some (.accepted present)) : b.getD (connackFlagsOffset b n+1) 0 = 0 := by
  by_cases hlen : (getVariableLen b 1 n).1+connackFlagsOffset b n ≤ n
  · rw [mqtt5Verdict_eq fuel b n info hlen] at h
    split at h
    · exact absurd h (by simp)
    · obtain ⟨r,-,hr⟩ := Option.map_eq_some_iff.mp h
      unfold verdictOf at hr
      split at hr
      · rename_i hok
        exact UInt8.toNat_inj.mp hok.2
      · exact absurd hr (by simp)
  · unfold mqtt5Verdict espMqtt5ParseConnack mqtt5MsgParseConnackProperty at h
    dsimp only at h
    rw [if_pos (by omega)] at h
    exact absurd h (by simp)

section Decision

variable {seen : List UInt8}

theorem Whole.packet_remaining (h : Whole seen) :
    remainingLength (packetOf seen) = totalLength seen-fixedHeaderLength seen := by
  obtain ⟨htotal,hfixed,-⟩ := h.packet_header
  unfold remainingLength
  rw [htotal, hfixed]

/-- A body too short for a verdict, and a header that ends: the packet is all that has
been counted. -/
theorem Whole.exact_of_short (h : Whole seen) (hun : ¬ Unterminated seen)
    (hshort : totalLength seen < fixedHeaderLength seen+2) : seen.length = totalLength seen := by
  have hcovers := h.covers
  rcases h.ready.inside with hle | ⟨-,hu | hlong⟩
  · omega
  · exact absurd hu hun
  · omega

/-- A packet that is not decisive connects a client whose `in_buffer` held zeroes. -/
theorem Whole.accepted_over_zeroes (h : Whole seen) (isV5 : Bool) (hnot : ¬ Decisive isV5 (packetOf seen))
    (l m : ℕ) (info : ConnackInfo) :
    remainingLength (packetOf seen) < 2 ∧ ∃ present,
      (if isV5 then mqtt5Verdict (seen.length+1) (holding seen (List.replicate l 0) l m).inBuffer seen.length info
        else some (mqttVerdict (holding seen (List.replicate l 0) l m).inBuffer)) = some (.accepted present) := by
  have hplen := h.packet_length
  have hcovers := h.covers
  have htwo := h.ready.header.length.1
  have htotal := (fixedHeaderLength_range seen).2.2.1
  rw [h.packet_remaining]
  have hzero (j : ℕ) (hj : seen.length ≤ j) : (holding seen (List.replicate l 0) l m).inBuffer.getD j 0 = 0 := by
    unfold RxState.holding
    dsimp only
    rw [List.getD_append_right _ _ _ _ hj, List.drop_replicate, List.getD_eq_getElem?_getD, List.getElem?_replicate]
    split <;> rfl
  have hseen (j : ℕ) (hj : j < totalLength seen) :
      (holding seen (List.replicate l 0) l m).inBuffer.getD j 0 = (packetOf seen).getD j 0 := by
    rw [RxState.holding_getD _ _ _ _ (by omega), packetOf_getD hj]
  unfold Decisive at hnot
  rw [h.packet_remaining, hplen, not_and_or, not_le, not_or, not_le, not_not] at hnot
  cases isV5 with
  | false =>
    unfold flagsOffset at hnot
    rw [if_neg (by decide)] at hnot
    -- the fourth byte is 0: beyond the packet, or in it
    have hcode : totalLength seen-fixedHeaderLength seen < 2 ∧
        (holding seen (List.replicate l 0) l m).inBuffer.getD 3 0 = 0 := by
      rcases hnot with hshort | ⟨hrem,hcode⟩
      · refine ⟨by omega, hzero 3 ?_⟩
        have hun : ¬ Unterminated seen := fun hu => by
          have hfive := hu.1
          omega
        have hexact := h.exact_of_short hun (by omega)
        omega
      · refine ⟨hrem, ?_⟩
        by_cases hin : 3 < totalLength seen
        · rw [hseen 3 hin]
          exact hcode
        · have hun : ¬ Unterminated seen := fun hu => by
            have hfive := hu.1
            omega
          have hexact := h.exact_of_short hun (by omega)
          exact hzero 3 (by omega)
    refine ⟨hcode.1, mqttGetConnectSessionPresent (holding seen (List.replicate l 0) l m).inBuffer, ?_⟩
    unfold mqttVerdict mqttGetConnectReturnCode
    rw [hcode.2]
    rfl
  | true =>
    unfold flagsOffset at hnot
    rw [if_pos rfl] at hnot
    have hp : ∀ j < totalLength seen, (packetOf seen).getD j 0 = seen.getD j 0 := fun j hj => packetOf_getD hj
    obtain ⟨hunp,hendp⟩ := h.flags_at hp (le_of_eq hplen.symm)
    have hun : ¬ Unterminated seen := fun hu => by
      have hoff := (hunp hu).1
      have hfive := hu.1
      rw [hoff] at hnot
      rcases hnot with hshort | ⟨-,hcode⟩
      · omega
      · rw [packetOf_getD (by omega)] at hcode
        exact ne_zero_of_high (hu.high (by omega) (by omega)) hcode
    have hoff := (hendp hun).1
    rw [hoff] at hnot
    have hrem : totalLength seen-fixedHeaderLength seen < 2 := by omega
    have hexact := h.exact_of_short hun (by omega)
    refine ⟨hrem, ?_⟩
    obtain ⟨hflags,hlen⟩ := (h.flags_at (b := (holding seen (List.replicate l 0) l m).inBuffer) (n := seen.length)
      (fun j hj => RxState.holding_getD _ _ _ _ (by omega)) hcovers).2 hun
    rw [if_pos rfl, mqtt5Verdict_eq _ _ _ _ (by omega)]
    obtain ⟨hstart,-,hempty⟩ := connackSection_start (holding seen (List.replicate l 0) l m).inBuffer seen.length
    have hnone := hempty (by omega)
    rw [hnone, if_neg (by have := Int.emod_nonneg ((seen.length : ℤ)-(connackSection
      (holding seen (List.replicate l 0) l m).inBuffer seen.length).start) (by decide : (2 : ℤ)^32 ≠ 0); omega)]
    have hloop : ∀ t, connackPropertyLoop (connackSection (holding seen (List.replicate l 0) l m).inBuffer seen.length)
        (seen.length+1) 0 t = some (true, t) := fun t => by
      unfold connackPropertyLoop
      rw [hnone, if_neg (by omega)]
    rw [hloop, Option.map_some, hflags, hzero (fixedHeaderLength seen+1) (by omega)]
    exact ⟨_, rfl⟩

/-- Over a decisive packet the rest of `in_buffer` makes no difference. -/
theorem Whole.verdict_of_decisive (h : Whole seen) (isV5 : Bool) (hd : Decisive isV5 (packetOf seen))
    (stale : List UInt8) (l m fuel : ℕ) (hfuel : seen.length < fuel) (info : ConnackInfo) :
    (if isV5 then mqtt5Verdict fuel (holding seen stale l m).inBuffer seen.length info
      else some (mqttVerdict (holding seen stale l m).inBuffer)) =
    if isV5 then mqtt5Verdict fuel (packetOf seen) (packetOf seen).length info
      else some (mqttVerdict (packetOf seen)) := by
  have hoff := hd.1
  have hplen := h.packet_length
  have hcovers := h.covers
  unfold flagsOffset at hoff
  cases isV5 with
  | true => exact h.verdict_of_packet stale l m fuel hfuel info hoff
  | false =>
    rw [if_neg (by decide)] at hoff
    rw [if_neg (by decide), if_neg (by decide), mqttVerdict_of_getD]
    intro j hj
    rw [RxState.holding_getD _ _ _ _ (by omega), packetOf_getD (by omega)]

/-- A decisive packet with a body of less than two bytes connects nobody. -/
theorem Whole.refused_of_decisive (h : Whole seen) (isV5 : Bool) (hd : Decisive isV5 (packetOf seen))
    (hshort : remainingLength (packetOf seen) < 2) (stale : List UInt8) (l m fuel : ℕ) (info : ConnackInfo)
    (present : Bool) :
    (if isV5 then mqtt5Verdict fuel (holding seen stale l m).inBuffer seen.length info
      else some (mqttVerdict (holding seen stale l m).inBuffer)) ≠ some (.accepted present) := by
  obtain ⟨hoff,hcode⟩ := hd
  have hcode := hcode.resolve_left (by omega)
  have hplen := h.packet_length
  have hcovers := h.covers
  have hget (j : ℕ) (hj : j < totalLength seen) : (holding seen stale l m).inBuffer.getD j 0 = seen.getD j 0 :=
    RxState.holding_getD _ _ _ _ (by omega)
  intro haccepted
  unfold flagsOffset at hoff hcode
  cases isV5 with
  | true =>
    rw [if_pos rfl] at hoff hcode haccepted
    have hzero := mqtt5Verdict_accepted haccepted
    have hp : ∀ j < totalLength seen, (packetOf seen).getD j 0 = seen.getD j 0 := fun j hj => packetOf_getD hj
    have hsame : connackFlagsOffset (holding seen stale l m).inBuffer seen.length =
        connackFlagsOffset (packetOf seen) (packetOf seen).length := by
      obtain ⟨hun,hend⟩ := h.flags_at hget hcovers
      obtain ⟨hunp,hendp⟩ := h.flags_at hp (le_of_eq hplen.symm)
      by_cases hu : Unterminated seen
      · rw [(hun hu).1, (hunp hu).1]
      · rw [(hend hu).1, (hendp hu).1]
    rw [hsame, hget _ (by omega)] at hzero
    rw [hp _ (by omega)] at hcode
    exact hcode hzero
  | false =>
    rw [if_neg (by decide)] at hoff hcode
    rw [if_neg (by decide), Option.some.injEq] at haccepted
    unfold mqttVerdict mqttGetConnectReturnCode at haccepted
    dsimp only at haccepted
    split at haccepted
    · rename_i hzero
      rw [packetOf_getD (by omega)] at hcode
      rw [hget 3 (by omega)] at hzero
      exact hcode (UInt8.toNat_inj.mp hzero)
    · exact absurd haccepted (by simp)

end Decision

/-- Whatever its CONNACK was: all runs that receive it come to the same verdict, and none
connects on a body of less than two bytes, exactly when it is decisive. -/
theorem connack_alone_decides_iff (isV5 : Bool) (info : ConnackInfo) (r : ConnackRun) :
    ((∀ r' : ConnackRun, r'.packet = r.packet → ∀ fuel, r.rx.inBufferReadLen < fuel →
        r'.rx.inBufferReadLen < fuel → r'.verdict isV5 fuel info = r.verdict isV5 fuel info) ∧
      (remainingLength r.packet < 2 → ∀ r' : ConnackRun, r'.packet = r.packet → ∀ fuel present,
        r'.verdict isV5 fuel info ≠ some (.accepted present))) ↔
    Decisive isV5 r.packet := by
  obtain ⟨seen,hwhole,hpacket,hrx,hothers⟩ := r.counted
  constructor
  · rintro ⟨-,hrefused⟩
    by_contra hnot
    rw [hpacket] at hnot
    obtain ⟨hrem,present,hverdict⟩ := hwhole.accepted_over_zeroes isV5 hnot r.length (totalLength seen) info
    obtain ⟨r',hrx',hpacket'⟩ := hothers (List.replicate r.length 0)
    apply hrefused (by rw [hpacket]; exact hrem) r' (hpacket'.trans hpacket.symm) (seen.length+1) present
    unfold ConnackRun.verdict
    rw [hrx']
    exact hverdict
  · intro hd
    refine ⟨fun r' hsame fuel hfuel hfuel' => ?_, fun hshort r' hsame fuel present => ?_⟩
    · obtain ⟨seen',hwhole',hpacket',hrx',-⟩ := r'.counted
      rw [hrx] at hfuel
      rw [hrx'] at hfuel'
      have hd' : Decisive isV5 (packetOf seen') := by rw [← hpacket', hsame]; exact hd
      rw [hpacket] at hd
      unfold ConnackRun.verdict
      rw [hrx, hrx', RxState.holding_readLen, RxState.holding_readLen,
        hwhole.verdict_of_decisive isV5 hd _ _ _ fuel hfuel info,
        hwhole'.verdict_of_decisive isV5 hd' _ _ _ fuel hfuel' info, ← hpacket, ← hpacket', hsame]
    · obtain ⟨seen',hwhole',hpacket',hrx',-⟩ := r'.counted
      rw [← hsame, hpacket'] at hd hshort
      unfold ConnackRun.verdict
      rw [hrx', RxState.holding_readLen]
      exact hwhole'.refused_of_decisive isV5 hd hshort _ _ _ fuel info present

/-- A CONNACK without a body, in front of a buffer that holds these bytes. -/
def bodilessRun (buffer : List UInt8)
    (hgot : (awaitConnack 1 ⟨true, [0x20, 0], [.chunk 0, .chunk 0], [], []⟩ ⟨buffer, 16, 0, 0⟩).1 = .message)
    (hconnack : mqttGetType ((awaitConnack 1 ⟨true, [0x20, 0], [.chunk 0, .chunk 0], [], []⟩
      ⟨buffer, 16, 0, 0⟩).2.2.inBuffer.getD 0 0) = some .connack) : ConnackRun where
  transport := ⟨true, [0x20, 0], [.chunk 0, .chunk 0], [], []⟩
  buffer := buffer
  length := 16
  rounds := 1
  got := hgot
  connack := hconnack

/-- Zeroes left in the buffer. -/
def zeroesRun : ConnackRun := bodilessRun (List.replicate 16 0) (by decide) (by decide)

/-- An earlier packet left in it. -/
def staleRun : ConnackRun := bodilessRun (List.replicate 16 5) (by decide) (by decide)

/-- The same two bytes connect one client and are refused with code 5 by another. -/
theorem bodiless_connack_accepted :
    zeroesRun.packet = [0x20, 0] ∧ staleRun.packet = [0x20, 0] ∧ remainingLength [0x20, 0] = 0 ∧
    zeroesRun.verdict false 3 createdInfo = some (.accepted false) ∧
    staleRun.verdict false 3 createdInfo = some (.refused 5) ∧
    zeroesRun.verdict true 3 createdInfo = some (.accepted false) ∧
    staleRun.verdict true 3 createdInfo = some (.refused 5) := by
  decide +kernel

end EspMqtt
