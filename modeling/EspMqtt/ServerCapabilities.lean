import EspMqtt.Mqtt5Connack

/-! The capabilities of the server that a v5 client works with. The structure that
holds them outlives a connection, and a CONNACK overwrites what it carries. -/
namespace EspMqtt

/-! The property section of a CONNACK, as the protocol defines it. -/

namespace Mqtt5

def bigEndian (bs : List UInt8) : ℕ := bs.foldl (fun n b => n*256+b.toNat) 0

def decodeString (bs : List UInt8) : Option (List UInt8 × List UInt8) :=
  if 2 ≤ bs.length ∧ bigEndian (bs.take 2) ≤ bs.length-2 then
    some ((bs.drop 2).take (bigEndian (bs.take 2)), (bs.drop 2).drop (bigEndian (bs.take 2)))
  else none

/-- A value of this format at the front of `bs`, and what follows it. -/
def decodeValue (bs : List UInt8) : PropertyFormat → Option (PropertyValue × List UInt8)
  | .number bytes _ =>
    if bytes ≤ bs.length then some (.number (bigEndian (bs.take bytes)), bs.drop bytes) else none
  | .string => (decodeString bs).map fun r => (.string r.1, r.2)
  | .stringPair =>
    match decodeString bs with
    | none => none
    | some key => (decodeString key.2).map fun r => (.stringPair key.1 r.1, r.2)

/-- A property section is made of these properties. -/
inductive Carries : List UInt8 → List (ConnackId × PropertyValue) → Prop
  | nil : Carries [] []
  | cons {b : UInt8} {bs rest : List UInt8} {id : ConnackId} {value : PropertyValue}
      {ps : List (ConnackId × PropertyValue)} (hid : ConnackId.ofCode b.toNat = some id)
      (hvalue : decodeValue bs id.format = some (value, rest)) (hrest : Carries rest ps) :
      Carries (b :: bs) ((id, value) :: ps)

end Mqtt5

/-! What the code reads of it. -/

namespace PropertySection
open Mqtt5

/-- The section as a list of bytes. -/
def bytes (p : PropertySection) : List UInt8 := (p.buffer.drop p.start).take p.length

/-- The section lies in the buffer, and its offsets fit 16 bits. -/
structure Fits (p : PropertySection) : Prop where
  inside : p.length = 0 ∨ p.start+p.length ≤ p.buffer.length
  short : p.length < 65536

variable {p : PropertySection}

theorem Fits.bytes_length (h : p.Fits) : p.bytes.length = p.length := by
  unfold bytes
  rw [List.length_take, List.length_drop]
  have hin := h.inside
  omega

theorem byteAt_of_drop {o : ℕ} (ho : o < p.length) (bs : List UInt8) (b : UInt8)
    (hb : p.bytes.drop o = b :: bs) : p.byteAt o = b := by
  unfold PropertySection.byteAt
  have hget : p.bytes[o]? = some b := by
    have hhead := congrArg List.head? hb
    rwa [List.head?_drop, List.head?_cons] at hhead
  unfold bytes at hget
  rw [List.getElem?_take, if_pos ho, List.getElem?_drop] at hget
  rw [List.getD_eq_getElem?_getD, hget]
  rfl

theorem advance_of_lt {o n : ℕ} (h : o+n < 65536) : advance o n = o+n := Nat.mod_eq_of_lt h

/-- A number is read as it is written. -/
theorem Fits.number (h : p.Fits) (k o value : ℕ) (hk : o+k ≤ p.length) :
    p.number k o value = ((p.bytes.drop o).take k).foldl (fun n b => n*256+b.toNat) value := by
  induction k generalizing o value with
  | zero => rfl
  | succ k ih =>
    have hshort := h.short
    have hlen := h.bytes_length
    obtain ⟨b,bs,hb⟩ : ∃ b bs, p.bytes.drop o = b :: bs := by
      have hpos : 0 < (p.bytes.drop o).length := by
        rw [List.length_drop, hlen]
        omega
      exact List.exists_cons_of_ne_nil (List.ne_nil_of_length_pos hpos)
    have hnext : p.bytes.drop (o+1) = bs := by
      rw [← List.drop_drop, hb]
      rfl
    unfold PropertySection.number
    rw [advance_of_lt (by omega), ih (o+1) _ (by omega), hnext, hb,
      byteAt_of_drop (by omega) bs b hb]
    rfl

theorem Fits.hasBytes (h : p.Fits) {o n : ℕ} (ho : o ≤ p.length) :
    p.hasBytes o n = decide (n ≤ (p.bytes.drop o).length) := by
  unfold PropertySection.hasBytes
  rw [List.length_drop, h.bytes_length]
  simp [ho]

/-- A string is read as it is written, or refused for its length. -/
theorem Fits.readString (h : p.Fits) {o : ℕ} (ho : o ≤ p.length) {bs rest : List UInt8}
    (hd : decodeString (p.bytes.drop o) = some (bs, rest)) :
    p.readString o = none ∨ ∃ o', p.readString o = some (bs, o') ∧ o' ≤ p.length ∧ p.bytes.drop o' = rest := by
  have hshort := h.short
  have hlen := h.bytes_length
  unfold decodeString at hd
  split at hd
  · rename_i hfits
    obtain ⟨htwo,hbody⟩ := hfits
    rw [List.length_drop, hlen] at htwo hbody
    rw [Option.some.injEq, Prod.mk.injEq] at hd
    obtain ⟨rfl,rfl⟩ := hd
    have hnumber : p.number 2 o 0 = bigEndian ((p.bytes.drop o).take 2) := h.number 2 o 0 (by omega)
    have hlong : p.hasBytes o 2 = true := by
      rw [h.hasBytes ho, List.length_drop, hlen]
      exact decide_eq_true htwo
    unfold PropertySection.readString
    rw [if_pos hlong, hnumber, advance_of_lt (by omega)]
    generalize bigEndian ((p.bytes.drop o).take 2) = n at hbody
    by_cases hmax : maxStringLen < n
    · left
      exact if_pos (Or.inl hmax)
    · right
      have hrest : p.hasBytes (o+2) n = true := by
        rw [h.hasBytes (by omega), List.length_drop, hlen]
        exact decide_eq_true (by omega)
      refine ⟨o+2+n, ?_, by omega, ?_⟩
      · dsimp only
        rw [if_neg (by simp [hmax, hrest]), advance_of_lt (by omega), List.drop_drop]
        unfold bytes
        rw [List.drop_take, List.take_take, List.drop_drop, Nat.min_eq_left (by omega)]
      · rw [List.drop_drop, List.drop_drop, Nat.add_assoc]
  · exact absurd hd (by simp)

theorem Fits.readValue (h : p.Fits) {o : ℕ} (ho : o ≤ p.length) {f : PropertyFormat}
    {v : PropertyValue} {rest : List UInt8} (hd : decodeValue (p.bytes.drop o) f = some (v, rest)) :
    p.readValue o f = none ∨ ∃ o', p.readValue o f = some (v, o') ∧ o' ≤ p.length ∧ p.bytes.drop o' = rest := by
  have hshort := h.short
  have hlen := h.bytes_length
  cases f with
  | number k checked =>
    unfold decodeValue at hd
    dsimp only at hd
    split at hd
    · rename_i hk
      rw [List.length_drop, hlen] at hk
      rw [Option.some.injEq, Prod.mk.injEq] at hd
      obtain ⟨rfl,rfl⟩ := hd
      have hbytes : p.hasBytes o k = true := by
        rw [h.hasBytes ho, List.length_drop, hlen]
        exact decide_eq_true hk
      right
      refine ⟨o+k, ?_, by omega, ?_⟩
      · unfold PropertySection.readValue
        dsimp only
        rw [if_neg (by simp [hbytes]), advance_of_lt (by omega), h.number k o 0 (by omega)]
        rfl
      · rw [List.drop_drop]
    · exact absurd hd (by simp)
  | string =>
    unfold decodeValue at hd
    obtain ⟨r,hr,heq⟩ := Option.map_eq_some_iff.mp hd
    rw [Prod.mk.injEq] at heq
    obtain ⟨rfl,rfl⟩ := heq
    unfold PropertySection.readValue
    rcases h.readString ho hr with hnone | ⟨o',hsome,hle,hrest⟩
    · left
      simp [hnone]
    · right
      exact ⟨o', by simp [hsome], hle, hrest⟩
  | stringPair =>
    unfold decodeValue at hd
    dsimp only at hd
    split at hd
    · exact absurd hd (by simp)
    · rename_i key hkey
      obtain ⟨r,hr,heq⟩ := Option.map_eq_some_iff.mp hd
      rw [Prod.mk.injEq] at heq
      obtain ⟨rfl,rfl⟩ := heq
      unfold PropertySection.readValue
      rcases h.readString ho hkey with hnone | ⟨o1,hsome,hle,hrest⟩
      · left
        simp [hnone]
      · rw [← hrest] at hr
        rcases h.readString hle hr with hnone | ⟨o2,hsome2,hle2,hrest2⟩
        · left
          simp [hsome, hnone]
        · right
          exact ⟨o2, by simp [hsome, hsome2], hle2, hrest2⟩

end PropertySection

/-! What becomes of the capabilities. -/

/-- The nine fields of `server_resp_property_info`. -/
inductive Capability where
  | maximumPacketSize | receiveMaximum | topicAliasMaximum | maxQos | retainAvailable
  | wildcardSubscribeAvailable | subscribeIdentifiersAvailable | sharedSubscribeAvailable
  | responseInfo
  deriving DecidableEq

inductive CapabilityValue where
  | number (n : ℕ)
  | flag (b : Bool)
  | info (r : ResponseInfo)
  deriving DecidableEq

/-- The field that a property sets. -/
def ConnackId.capability : ConnackId → Option Capability
  | .receiveMaximum => some .receiveMaximum
  | .maximumQos => some .maxQos
  | .retainAvailable => some .retainAvailable
  | .maximumPacketSize => some .maximumPacketSize
  | .topicAliasMaximum => some .topicAliasMaximum
  | .wildcardSubscrAvailable => some .wildcardSubscribeAvailable
  | .subscrIdentifierAvailable => some .subscribeIdentifiersAvailable
  | .sharedSubscrAvailable => some .sharedSubscribeAvailable
  | .respInfo => some .responseInfo
  | _ => none

/-- A value of the format of its property. -/
def ConnackId.Takes (id : ConnackId) : PropertyValue → Prop
  | .number _ => ∃ bytes checked, id.format = .number bytes checked
  | .string _ => id.format = .string
  | .stringPair _ _ => id.format = .stringPair

theorem decodeValue_takes {bs rest : List UInt8} {id : ConnackId} {v : PropertyValue}
    (h : Mqtt5.decodeValue bs id.format = some (v, rest)) : id.Takes v := by
  unfold Mqtt5.decodeValue at h
  split at h
  · rename_i k checked hf
    split at h
    · rw [Option.some.injEq, Prod.mk.injEq] at h
      rw [← h.1]
      exact ⟨k,checked,hf⟩
    · exact absurd h (by simp)
  · rename_i hf
    obtain ⟨r,-,hr⟩ := Option.map_eq_some_iff.mp h
    rw [Prod.mk.injEq] at hr
    rw [← hr.1]
    exact hf
  · rename_i hf
    split at h
    · exact absurd h (by simp)
    · obtain ⟨r,-,hr⟩ := Option.map_eq_some_iff.mp h
      rw [Prod.mk.injEq] at hr
      rw [← hr.1]
      exact hf

namespace ServerResp

def get (s : ServerResp) : Capability → CapabilityValue
  | .maximumPacketSize => .number s.maximumPacketSize
  | .receiveMaximum => .number s.receiveMaximum
  | .topicAliasMaximum => .number s.topicAliasMaximum
  | .maxQos => .number s.maxQos
  | .retainAvailable => .flag s.retainAvailable
  | .wildcardSubscribeAvailable => .flag s.wildcardSubscribeAvailable
  | .subscribeIdentifiersAvailable => .flag s.subscribeIdentifiersAvailable
  | .sharedSubscribeAvailable => .flag s.sharedSubscribeAvailable
  | .responseInfo => .info s.responseInfo

theorem eq_iff_get {s s' : ServerResp} : s = s' ↔ ∀ f, s.get f = s'.get f := by
  refine ⟨fun h _ => by rw [h], fun h => ?_⟩
  have h1 := h .maximumPacketSize
  have h2 := h .receiveMaximum
  have h3 := h .topicAliasMaximum
  have h4 := h .maxQos
  have h5 := h .retainAvailable
  have h6 := h .wildcardSubscribeAvailable
  have h7 := h .subscribeIdentifiersAvailable
  have h8 := h .sharedSubscribeAvailable
  have h9 := h .responseInfo
  cases s
  cases s'
  simp only [get, CapabilityValue.number.injEq, CapabilityValue.flag.injEq,
    CapabilityValue.info.injEq] at h1 h2 h3 h4 h5 h6 h7 h8 h9
  subst h1 h2 h3 h4 h5 h6 h7 h8 h9
  rfl

/-- The capabilities with one property taken into account. -/
def assign (s : ServerResp) : ConnackId × PropertyValue → ServerResp
  | (.receiveMaximum, .number n) => {s with receiveMaximum := n}
  | (.maximumQos, .number n) => {s with maxQos := n}
  | (.retainAvailable, .number n) => {s with retainAvailable := n != 0}
  | (.maximumPacketSize, .number n) => {s with maximumPacketSize := n}
  | (.topicAliasMaximum, .number n) => {s with topicAliasMaximum := n}
  | (.wildcardSubscrAvailable, .number n) => {s with wildcardSubscribeAvailable := n != 0}
  | (.subscrIdentifierAvailable, .number n) => {s with subscribeIdentifiersAvailable := n != 0}
  | (.sharedSubscrAvailable, .number n) => {s with sharedSubscribeAvailable := n != 0}
  | (.respInfo, .string bs) => {s with responseInfo := .text bs}
  | _ => s

/-- A property changes the field it sets and no other, whatever was there before. -/
theorem get_assign (s : ServerResp) {id : ConnackId} {v : PropertyValue} (hv : id.Takes v)
    (f : Capability) : (id.capability ≠ some f → (s.assign (id, v)).get f = s.get f) ∧
      (id.capability = some f → ∀ s' : ServerResp, (s.assign (id, v)).get f = (s'.assign (id, v)).get f) := by
  cases id <;> cases v <;> cases f <;>
    first
      | exact ⟨fun _ => rfl, fun h => absurd h (by decide)⟩
      | exact ⟨fun h => absurd rfl h, fun _ _ => rfl⟩
      | exact absurd hv (by simp [ConnackId.Takes, ConnackId.format])

def assignAll (s : ServerResp) (ps : List (ConnackId × PropertyValue)) : ServerResp := ps.foldl assign s

/-- The fields that are carried become what they are for every server; the others stay. -/
theorem get_assignAll (ps : List (ConnackId × PropertyValue)) (hps : ∀ q ∈ ps, q.1.Takes q.2)
    (f : Capability) (s : ServerResp) :
    (some f ∉ ps.map (fun q => q.1.capability) → (s.assignAll ps).get f = s.get f) ∧
    (some f ∈ ps.map (fun q => q.1.capability) → ∀ s' : ServerResp,
      (s.assignAll ps).get f = (s'.assignAll ps).get f) := by
  induction ps generalizing s with
  | nil => exact ⟨fun _ => rfl, fun h => absurd h (by simp)⟩
  | cons q ps ih =>
    obtain ⟨id,v⟩ := q
    have htail : ∀ q ∈ ps, q.1.Takes q.2 := fun q hq => hps q (List.mem_cons_of_mem _ hq)
    have htakes : id.Takes v := hps (id, v) List.mem_cons_self
    have hstep (u : ServerResp) := get_assign u htakes f
    rw [List.map_cons, List.mem_cons]
    refine ⟨fun h => ?_, fun h s' => ?_⟩
    · rw [not_or] at h
      exact ((ih htail (s.assign (id, v))).1 h.2).trans ((hstep s).1 (Ne.symm h.1))
    · by_cases hf : some f ∈ ps.map (fun q => q.1.capability)
      · exact (ih htail (s.assign (id, v))).2 hf _
      · have hid : id.capability = some f := (h.resolve_right hf).symm
        exact ((ih htail (s.assign (id, v))).1 hf).trans
          (((hstep s).2 hid s').trans ((ih htail (s'.assign (id, v))).1 hf).symm)

end ServerResp

/-- What a CONNACK with these properties says about the server. -/
def carriedServer (ps : List (ConnackId × PropertyValue)) : ServerResp :=
  espMqtt5CreateDefaultConfig.assignAll ps

/-! The parser. -/

namespace ConnackInfo

theorem alloc_server (t : ConnackInfo) : t.alloc.2.server = t.server := rfl

theorem allocAll_server (n : ℕ) (t : ConnackInfo) : (t.allocAll n).2.server = t.server := by
  induction n generalizing t with
  | zero => rfl
  | succ n ih =>
    unfold allocAll
    have h := t.alloc_server
    generalize t.alloc = r at h
    obtain ⟨ok,u⟩ := r
    cases ok with
    | true => exact (ih u).trans h
    | false => exact h

/-- How storing a string ends: with memory for it, and without. -/
def whenAllocated (f g : ConnackInfo → ConnackInfo) : Bool × ConnackInfo → Bool × ConnackInfo
  | (true, t) => (true, f t)
  | (false, t) => (false, g t)

/-- A property that is stored has been assigned. -/
theorem store_server {t t' : ConnackInfo} {id : ConnackId} {v : PropertyValue} (hv : id.Takes v)
    (h : (t.release id).store id v = (true, t')) : t'.server = t.server.assign (id, v) := by
  have hpair (u : ConnackInfo) (key value : List UInt8) (h : u.setUserProperty key value = (true, t')) :
      t'.server = u.server := by
    unfold setUserProperty at h
    have hs := u.allocAll_server (if u.userProperty.isNone = true then 4 else 3)
    generalize u.allocAll (if u.userProperty.isNone = true then 4 else 3) = r at h hs
    obtain ⟨ok,z⟩ := r
    cases ok with
    | true =>
      rw [Prod.mk.injEq] at h
      rw [← h.2]
      exact hs
    | false => exact absurd h (by simp)
  have hstring (u : ConnackInfo) (f g : ConnackInfo → ConnackInfo) (s : ServerResp)
      (hf : (f u.alloc.2).server = s) (h : whenAllocated f g u.alloc = (true, t')) : t'.server = s := by
    generalize u.alloc = r at h hf
    obtain ⟨ok,z⟩ := r
    cases ok with
    | true =>
      rw [whenAllocated, Prod.mk.injEq] at h
      rw [← h.2]
      exact hf
    | false => exact absurd h (by simp [whenAllocated])
  cases id <;> cases v <;>
    first
      | exact hpair t _ _ h
      | exact hstring t _ _ _ rfl h
      | exact hstring (t.release .respInfo) _ _ _ rfl h
      | (rw [← (Prod.mk.inj h).2]; rfl)
      | exact absurd hv (by simp [ConnackId.Takes, ConnackId.format])

end ConnackInfo

theorem readString_lt {p : PropertySection} {o o' : ℕ} {bs : List UInt8}
    (h : p.readString o = some (bs, o')) : o' < 65536 := by
  unfold PropertySection.readString at h
  split at h
  · dsimp only at h
    split at h
    · exact absurd h (by simp)
    · rw [Option.some.injEq, Prod.mk.injEq] at h
      rw [← h.2]
      exact Nat.mod_lt _ (by omega)
  · exact absurd h (by simp)

theorem readValue_lt {p : PropertySection} {o o' : ℕ} {f : PropertyFormat} {v : PropertyValue}
    (h : p.readValue o f = some (v, o')) : o' < 65536 := by
  unfold PropertySection.readValue at h
  split at h
  · split at h
    · exact absurd h (by simp)
    · rw [Option.some.injEq, Prod.mk.injEq] at h
      rw [← h.2]
      exact Nat.mod_lt _ (by omega)
  · obtain ⟨r,hr,heq⟩ := Option.map_eq_some_iff.mp h
    rw [Prod.mk.injEq] at heq
    rw [← heq.2]
    exact readString_lt hr
  · split at h
    · exact absurd h (by simp)
    · obtain ⟨r,hr,heq⟩ := Option.map_eq_some_iff.mp h
      rw [Prod.mk.injEq] at heq
      rw [← heq.2]
      exact readString_lt hr

/-- The loop comes to the end of short sections only. -/
theorem connackPropertyLoop_short {p : PropertySection} {k o : ℕ} {t t' : ConnackInfo} (ho : o < 65536)
    (h : connackPropertyLoop p k o t = some (true, t')) : p.length < 65536 := by
  induction k generalizing o t with
  | zero => exact absurd h (by simp [connackPropertyLoop])
  | succ k ih =>
    unfold connackPropertyLoop at h
    split at h
    · split at h
      · exact absurd h (by simp)
      · dsimp only at h
        split at h
        · exact absurd h (by simp)
        · rename_i id _ value o' hvalue
          split at h
          · exact ih (readValue_lt hvalue) h
          · exact absurd h (by simp)
    · omega

/-- On a well-formed section the loop assigns the properties one after the other. -/
theorem connackPropertyLoop_carries {p : PropertySection} (hp : p.Fits) {bs : List UInt8}
    {ps : List (ConnackId × PropertyValue)} (hps : Mqtt5.Carries bs ps) {k o : ℕ} (ho : o ≤ p.length)
    (hbs : p.bytes.drop o = bs) {t t' : ConnackInfo}
    (h : connackPropertyLoop p k o t = some (true, t')) :
    t'.server = t.server.assignAll ps := by
  have hlen := hp.bytes_length
  have hshort := hp.short
  induction hps generalizing k o t with
  | nil =>
    have hend : ¬ o < p.length := by
      have hempty := congrArg List.length hbs
      rw [List.length_drop, hlen, List.length_nil] at hempty
      omega
    cases k with
    | zero => exact absurd h (by simp [connackPropertyLoop])
    | succ k =>
      unfold connackPropertyLoop at h
      rw [if_neg hend, Option.some.injEq, Prod.mk.injEq] at h
      rw [← h.2]
      rfl
  | @cons b bs rest id value ps hid hvalue hrest ih =>
    have hmore : o < p.length := by
      have hfull := congrArg List.length hbs
      rw [List.length_drop, hlen, List.length_cons] at hfull
      omega
    have hnext : p.bytes.drop (o+1) = bs := by
      rw [← List.drop_drop, hbs]
      rfl
    cases k with
    | zero => exact absurd h (by simp [connackPropertyLoop])
    | succ k =>
      unfold connackPropertyLoop at h
      rw [if_pos hmore, PropertySection.byteAt_of_drop hmore bs b hbs, hid, PropertySection.advance_of_lt (by omega)] at h
      dsimp only at h
      rw [← hnext] at hvalue
      rcases hp.readValue (by omega) hvalue with hnone | ⟨o',hsome,hle,hdrop⟩
      · rw [hnone] at h
        exact absurd h (by simp)
      · rw [hsome] at h
        dsimp only at h
        have hstore := @ConnackInfo.store_server t
        generalize hr : (t.release id).store id value = r at h
        obtain ⟨ok,u⟩ := r
        cases ok with
        | false => exact absurd h (by simp)
        | true =>
          rw [ih hle hdrop h, hstore (decodeValue_takes hvalue) hr]
          rfl

/-- The loop of `get_variable_len` ends where it begins or behind it, after at most `k` bytes and
inside the buffer. -/
theorem variableLenLoop_range (buffer : List UInt8) (bufferLength k shift i len : ℕ) :
    i ≤ (variableLenLoop buffer bufferLength k shift i len).2 ∧
    (variableLenLoop buffer bufferLength k shift i len).2 ≤ i+k ∧
    (i ≤ bufferLength → (variableLenLoop buffer bufferLength k shift i len).2 ≤ bufferLength) ∧
    (bufferLength ≤ i → variableLenLoop buffer bufferLength k shift i len = (len, i)) := by
  induction k generalizing shift i len with
  | zero => exact ⟨le_rfl, le_rfl, id, fun _ => rfl⟩
  | succ k ih =>
    unfold variableLenLoop
    dsimp only
    split
    · rename_i hi
      split
      · exact ⟨Nat.le_succ i, by omega, fun _ => hi, fun h => by omega⟩
      · obtain ⟨hlow,hhigh,hin,-⟩ := ih (shift+1) (i+1) (len+(buffer.getD i 0 &&& 0x7f).toNat*2^(7*shift))
        exact ⟨by omega, by omega, fun _ => hin hi, fun h => by omega⟩
    · exact ⟨le_rfl, Nat.le_add_right i _, id, fun _ => rfl⟩

/-- A field that begins inside the buffer ends there; behind it there is none. -/
theorem getVariableLen_inside (buffer : List UInt8) (offset bufferLength : ℕ) :
    (offset ≤ bufferLength → offset+(getVariableLen buffer offset bufferLength).2 ≤ bufferLength) ∧
    (bufferLength ≤ offset → getVariableLen buffer offset bufferLength = (0, 0)) := by
  obtain ⟨-,-,hin,hout⟩ := variableLenLoop_range buffer bufferLength 4 0 offset 0
  refine ⟨fun h => ?_, fun h => ?_⟩
  · have hle := hin h
    unfold getVariableLen
    dsimp only
    split
    · exact h
    · dsimp only
      omega
  · unfold getVariableLen
    rw [hout h]
    dsimp only
    rw [if_neg (by omega), Nat.sub_self]

/-- One CONNACK: the client before it, the bytes read and what the parser made of
them. It has returned, with enough fuel. -/
structure Handshake where
  before : ConnackInfo
  buffer : List UInt8
  len : ℕ
  inside : len ≤ buffer.length
  fuel : ℕ
  after : ConnackParse
  parses : espMqtt5ParseConnack fuel buffer len before = some after

namespace Handshake

/-- The CONNACK is well formed and has these properties. -/
def Carries (h : Handshake) (ps : List (ConnackId × PropertyValue)) : Prop :=
  Mqtt5.Carries (connackSection h.buffer h.len).bytes ps

end Handshake

theorem connackSection_fits {buffer : List UInt8} {len : ℕ} (hlen : len ≤ buffer.length)
    (hcheck : ¬ ((len : ℤ)-(connackSection buffer len).start) % 2^32 < (connackSection buffer len).length)
    (hshort : (connackSection buffer len).length < 65536) : (connackSection buffer len).Fits := by
  refine ⟨?_, hshort⟩
  obtain ⟨hin,hout⟩ := getVariableLen_inside buffer (connackFlagsOffset buffer len+2) len
  by_cases hle : connackFlagsOffset buffer len+2 ≤ len
  · right
    have hstart : (connackSection buffer len).start ≤ len := hin hle
    have hmod : ((len : ℤ)-(connackSection buffer len).start) % 2^32 ≤
        (len : ℤ)-(connackSection buffer len).start := by omega
    have hbuffer : (connackSection buffer len).buffer = buffer := rfl
    rw [hbuffer]
    omega
  · left
    have hzero : (connackSection buffer len).length = 0 := congrArg Prod.fst (hout (by omega))
    exact hzero

/-- An accepted, well-formed CONNACK: its properties over what was there, but for the
receive maximum. -/
theorem Handshake.server (h : Handshake) (hok : h.after.ok = true)
    {ps : List (ConnackId × PropertyValue)} (hps : h.Carries ps) :
    h.after.info.server = ServerResp.assignAll
      {h.before.server with receiveMaximum := mqtt5DefaultReceiveMaximum} ps := by
  obtain ⟨r,hr,hafter⟩ := Option.map_eq_some_iff.mp h.parses
  have hrok : r.ok = true ∧ h.after.info.server = r.info.server := by
    rw [← hafter] at hok ⊢
    split at hok
    · rename_i hboth
      rw [if_pos hboth]
      exact ⟨hboth.1, rfl⟩
    · exact absurd hok (by simp)
  rw [hrok.2]
  unfold mqtt5MsgParseConnackProperty at hr
  dsimp only at hr
  split at hr
  · rw [Option.some.injEq] at hr
    rw [← hr] at hrok
    exact absurd hrok.1 (by simp)
  · split at hr
    · rw [Option.some.injEq] at hr
      rw [← hr] at hrok
      exact absurd hrok.1 (by simp)
    · rename_i hcheck
      obtain ⟨q,hq,hr⟩ := Option.map_eq_some_iff.mp hr
      obtain ⟨ok,t⟩ := q
      rw [← hr] at hrok ⊢
      have htrue : ok = true := hrok.1
      subst htrue
      have hfits := connackSection_fits h.inside hcheck (connackPropertyLoop_short (by omega) hq)
      exact connackPropertyLoop_carries hfits hps (Nat.zero_le _) rfl hq

/-- The field is in the CONNACK. -/
def Mentions (ps : List (ConnackId × PropertyValue)) (f : Capability) : Prop :=
  some f ∈ ps.map fun q => q.1.capability

/-- What a CONNACK with these properties does not mention is as
`esp_mqtt5_create_default_config` left it. -/
def Fresh (s : ServerResp) (ps : List (ConnackId × PropertyValue)) : Prop :=
  ∀ f, f ≠ .receiveMaximum → ¬ Mentions ps f → s.get f = espMqtt5CreateDefaultConfig.get f

/-- The handshakes of one client, from its creation on. Between two of them nothing
touches the capabilities. -/
def Connections : ServerResp → List Handshake → Prop
  | _, [] => True
  | s, h :: hs => h.before.server = s ∧ Connections h.after.info.server hs

/-- The capabilities behind these handshakes. -/
def serverAfter (s : ServerResp) (hs : List Handshake) : ServerResp :=
  hs.foldl (fun _ h => h.after.info.server) s

theorem Connections.last {s : ServerResp} {hs : List Handshake} {h : Handshake}
    (hrun : Connections s (hs ++ [h])) : h.before.server = serverAfter s hs := by
  induction hs generalizing s with
  | nil => exact hrun.1
  | cons g hs ih => exact ih hrun.2

/-- Taken with the receive maximum reset, the capabilities are those of the CONNACK
exactly when it is fresh. -/
theorem assignAll_eq_carried {ps : List (ConnackId × PropertyValue)} (hps : ∀ q ∈ ps, q.1.Takes q.2)
    (s : ServerResp) :
    ServerResp.assignAll {s with receiveMaximum := mqtt5DefaultReceiveMaximum} ps = carriedServer ps ↔
      Fresh s ps := by
  have hget (f : Capability) := ServerResp.get_assignAll ps hps f
  have hreset (f : Capability) (hf : f ≠ .receiveMaximum) :
      ServerResp.get {s with receiveMaximum := mqtt5DefaultReceiveMaximum} f = s.get f := by
    cases f <;> first | rfl | exact absurd rfl hf
  rw [ServerResp.eq_iff_get]
  constructor
  · intro hall f hf hnot
    have hsame := hall f
    unfold carriedServer at hsame
    rwa [(hget f _).1 hnot, (hget f _).1 hnot, hreset f hf] at hsame
  · intro hfresh f
    unfold carriedServer
    by_cases hm : Mentions ps f
    · exact (hget f _).2 hm _
    · rw [(hget f _).1 hm, (hget f _).1 hm]
      by_cases hf : f = .receiveMaximum
      · rw [hf]
        rfl
      · rw [hreset f hf]
        exact hfresh f hf hm

theorem Mqtt5.Carries.takes {bs : List UInt8} {ps : List (ConnackId × PropertyValue)}
    (h : Mqtt5.Carries bs ps) : ∀ q ∈ ps, q.1.Takes q.2 := by
  induction h with
  | nil => exact fun q hq => absurd hq (by simp)
  | cons hid hvalue hrest ih =>
    intro q hq
    rcases List.mem_cons.mp hq with rfl | hq
    · exact decodeValue_takes hvalue
    · exact ih q hq

/-- Behind any earlier connections, an accepted and well-formed CONNACK leaves the
client with the capabilities it carries, and the defaults for the rest, exactly when
what it does not mention is still at its default. Two runs of which both are true
agree on what the same CONNACK leaves. -/
theorem server_capabilities_of_connack (earlier : List Handshake) (h : Handshake)
    (hrun : Connections espMqtt5CreateDefaultConfig (earlier ++ [h])) (hok : h.after.ok = true)
    (ps : List (ConnackId × PropertyValue)) (hps : h.Carries ps) :
    (h.after.info.server = carriedServer ps ↔ Fresh (serverAfter espMqtt5CreateDefaultConfig earlier) ps) ∧
    ∀ earlier' h', Connections espMqtt5CreateDefaultConfig (earlier' ++ [h']) → h'.after.ok = true →
      h'.buffer = h.buffer → h'.len = h.len →
      Fresh (serverAfter espMqtt5CreateDefaultConfig earlier) ps →
      Fresh (serverAfter espMqtt5CreateDefaultConfig earlier') ps →
      h.after.info.server = h'.after.info.server := by
  have hone (earlier : List Handshake) (h : Handshake)
      (hrun : Connections espMqtt5CreateDefaultConfig (earlier ++ [h])) (hok : h.after.ok = true)
      (hps : h.Carries ps) : h.after.info.server = carriedServer ps ↔
        Fresh (serverAfter espMqtt5CreateDefaultConfig earlier) ps := by
    rw [h.server hok hps, ← hrun.last]
    exact assignAll_eq_carried hps.takes h.before.server
  refine ⟨hone earlier h hrun hok hps, ?_⟩
  intro earlier' h' hrun' hok' hbuffer hlen hfresh hfresh'
  have hps' : h'.Carries ps := by
    unfold Handshake.Carries at hps ⊢
    rw [hbuffer, hlen]
    exact hps
  calc h.after.info.server
      = carriedServer ps := (hone earlier h hrun hok hps).mpr hfresh
    _ = h'.after.info.server := ((hone earlier' h' hrun' hok' hps').mpr hfresh').symm

/-- A client that has not connected yet; its event holds zeroes. -/
def createdInfo : ConnackInfo where
  server := espMqtt5CreateDefaultConfig
  clientId := none
  keepalive := 120
  sessionExpiryInterval := 0
  userProperty := none
  sessionPresent := false
  reported := ⟨0, 0, 0, 0, false, false, false, false, .null⟩
  responseInfoLen := 0
  allocs := []

/-- A CONNACK that is parsed within eight rounds of the loop. -/
def handshake (before : ConnackInfo) (buffer : List UInt8)
    (h : (espMqtt5ParseConnack 8 buffer buffer.length before).isSome) : Handshake where
  before := before
  buffer := buffer
  len := buffer.length
  inside := le_rfl
  fuel := 8
  after := (espMqtt5ParseConnack 8 buffer buffer.length before).get h
  parses := (Option.some_get h).symm

/-- A broker that takes no QoS above 0, nothing retained and four aliases. -/
def strictHandshake : Handshake :=
  handshake createdInfo [0x20, 10, 0, 0, 7, 0x24, 0, 0x25, 0, 0x22, 0, 4] (by decide)

/-- QoS 1, retained messages and nine aliases. -/
def grantingBytes : List UInt8 := [0x20, 10, 0, 0, 7, 0x24, 1, 0x25, 1, 0x22, 0, 9]

def grantedProperties : List (ConnackId × PropertyValue) :=
  [(.maximumQos, .number 1), (.retainAvailable, .number 1), (.topicAliasMaximum, .number 9)]

/-- A broker that says so behind the strict one, and as the first. -/
def grantingHandshake : Handshake := handshake strictHandshake.after.info grantingBytes (by decide)

def grantingHandshakeFirst : Handshake := handshake createdInfo grantingBytes (by decide)

theorem grantingHandshake_carries : grantingHandshake.Carries grantedProperties := by
  have hbytes : (connackSection grantingHandshake.buffer grantingHandshake.len).bytes =
      [0x24, 1, 0x25, 1, 0x22, 0, 9] := by decide
  unfold Handshake.Carries
  rw [hbytes]
  apply Mqtt5.Carries.cons (by decide) (show _ = some (_, [0x25, 1, 0x22, 0, 9]) by decide)
  apply Mqtt5.Carries.cons (by decide) (show _ = some (_, [0x22, 0, 9]) by decide)
  exact .cons (by decide) (show _ = some (_, []) by decide) .nil

/-- Every limit of the broker before is mentioned again, and so the same CONNACK means the same. -/
theorem server_capabilities_of_second_connack :
    grantingHandshake.after.info.server = carriedServer grantedProperties ∧
    grantingHandshake.after.info.server = grantingHandshakeFirst.after.info.server := by
  obtain ⟨hcarried,hsame⟩ := server_capabilities_of_connack [strictHandshake] grantingHandshake
    ⟨rfl, rfl, trivial⟩ (by decide) _ grantingHandshake_carries
  have hfresh : Fresh (serverAfter espMqtt5CreateDefaultConfig [strictHandshake]) grantedProperties := by
    intro f _ hno
    cases f with
    | maxQos => exact absurd (by decide : some Capability.maxQos ∈ _) hno
    | retainAvailable => exact absurd (by decide : some Capability.retainAvailable ∈ _) hno
    | topicAliasMaximum => exact absurd (by decide : some Capability.topicAliasMaximum ∈ _) hno
    | _ => decide
  refine ⟨hcarried.mpr hfresh, ?_⟩
  exact hsame [] grantingHandshakeFirst ⟨rfl, trivial⟩ (by decide) rfl rfl hfresh fun _ _ _ => rfl

/-- A broker without limits: behind the strict one, and as the first. -/
def openHandshake : Handshake := handshake strictHandshake.after.info [0x20, 3, 0, 0, 0] (by decide)

def openHandshakeFirst : Handshake := handshake createdInfo [0x20, 3, 0, 0, 0] (by decide)

/-- The limits of the broker before are in force, and the same CONNACK leaves other
capabilities on another run. -/
theorem stale_server_capabilities :
    Connections espMqtt5CreateDefaultConfig [strictHandshake, openHandshake] ∧
    openHandshake.after.ok = true ∧ openHandshake.Carries [] ∧
    openHandshake.after.info.server ≠ carriedServer [] ∧
    openHandshake.after.info.server.maxQos = 0 ∧ openHandshake.after.info.server.topicAliasMaximum = 4 ∧
    Connections espMqtt5CreateDefaultConfig [openHandshakeFirst] ∧ openHandshakeFirst.after.ok = true ∧
    openHandshakeFirst.buffer = openHandshake.buffer ∧ openHandshakeFirst.len = openHandshake.len ∧
    openHandshakeFirst.after.info.server ≠ openHandshake.after.info.server :=
  ⟨⟨rfl, rfl, trivial⟩, by decide, .nil, by decide, by decide, by decide, ⟨rfl, trivial⟩, by decide, rfl, rfl,
    by decide⟩

end EspMqtt
