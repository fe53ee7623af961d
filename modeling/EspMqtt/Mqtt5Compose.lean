import EspMqtt.CodecBuffer
import EspMqtt.Mqtt5Msg

/-! What the steps of `mqtt5_msg.c` leave in the buffer. -/
namespace EspMqtt
open Wire

theorem generateVariableLen_eq (k n : ℕ) : generateVariableLen k n = encodedLens k n := by
  induction k generalizing n with
  | zero => rfl
  | succ k ih =>
    unfold generateVariableLen encodedLens
    by_cases h : 0 < n/128
    · have hge : (128 : ℤ) ≤ n := by omega
      have hrest : encodedLens k ((n : ℤ)/128) = generateVariableLen k (n/128) := by
        rw [ih]
        congr 1
      have hdigit : ((n : ℤ) % 128).toNat = n % 128 := by omega
      rw [if_pos h, if_pos hge, hrest, hdigit]
    · have hlt : ¬ (128 : ℤ) ≤ n := by omega
      have hlast : ((Int.tmod n 128) % 256).toNat = n % 128 := by
        rw [Int.tmod_eq_emod_of_nonneg (by omega)]
        omega
      rw [if_neg h, if_neg hlt, hlast]

theorem generateVariableLen_pos (n : ℕ) : 1 ≤ (generateVariableLen 5 n).length := by
  unfold generateVariableLen
  split <;> simp

/-- A number below 2^28 in its shortest form. -/
theorem generateVariableLen_encode {n : ℕ} (hn : n < 128^4) :
    generateVariableLen 5 n = Base128.encode 3 n := by
  rw [generateVariableLen_eq]
  exact encodedLens_encode 3 n 5 hn (by decide)

namespace Composer

variable {s : Composer} {c : Connection} {acc : List UInt8}

/-! A message in the making. -/

/-- `acc` was composed if it is inside the buffer; it may have grown beyond its end. -/
structure Drafts (s : Composer) (c : Connection) (acc : List UInt8) : Prop where
  connection : s.connection = c
  length : s.length = 5+acc.length
  held : 5+acc.length ≤ c.bufferLength → Holds s c acc

/-- A step leaves `acc`, or fails because there is no room for it. -/
def Drafted (r : Bool × Composer) (c : Connection) (acc : List UInt8) : Prop :=
  (r.1 = true ∧ Drafts r.2 c acc) ∨
    (r.1 = false ∧ r.2.connection = c ∧ c.bufferLength < 5+acc.length)

/-- The same for a step that stays inside the buffer. -/
def Gives (r : Bool × Composer) (c : Connection) (acc : List UInt8) : Prop :=
  (r.1 = true ∧ Holds r.2 c acc) ∨
    (r.1 = false ∧ r.2.connection = c ∧ c.bufferLength < 5+acc.length)

/-- A step inside a block of properties that puts `bs` behind what there is. -/
def Extends (f : Composer → Bool × Composer) (bs : List UInt8) : Prop :=
  ∀ s c acc, Drafts s c acc → Drafted (f s) c (acc ++ bs)

/-- A step that makes `acc'` out of `acc`. -/
def Turns (f : Composer → Bool × Composer) (acc acc' : List UInt8) : Prop :=
  ∀ s c, Holds s c acc → Gives (f s) c acc'

/-- A step that does so also when `acc` has grown beyond the end, where it fails. -/
def Opens (f : Composer → Bool × Composer) (acc acc' : List UInt8) : Prop :=
  ∀ s c, Drafts s c acc → Gives (f s) c acc'

theorem Holds.drafts (h : Holds s c acc) : Drafts s c acc := ⟨h.connection, h.length, fun _ => h⟩

theorem Opens.turns {f : Composer → Bool × Composer} {acc' : List UInt8} (h : Opens f acc acc') :
    Turns f acc acc' := fun s c hs => h s c hs.drafts

/-- Nothing is composed yet, in a buffer of any length. -/
theorem Sound.drafts (h : Sound s c) : Drafts s.setMessageHeaderSize c [] :=
  ⟨h.connection, rfl, fun h5 => h.setMessageHeaderSize (by simpa using h5)⟩

/-- A step that tests for room gives what it drafts. -/
theorem Drafted.gives {r : Bool × Composer} (h : Drafted r c acc)
    (hroom : r.1 = true → r.2.length ≤ r.2.connection.bufferLength) : Gives r c acc := by
  rcases h with ⟨h1,h2⟩ | h
  · have hle := hroom h1
    rw [h2.connection, h2.length] at hle
    exact Or.inl ⟨h1, h2.held hle⟩
  · exact Or.inr h

theorem Drafts.append (h : Drafts s c acc) (bs : List UInt8) : Drafts (s.append bs) c (acc ++ bs) where
  connection := h.connection
  length := by
    change s.length+bs.length = _
    rw [h.length, List.length_append]
    omega
  held := by
    intro hroom
    rw [List.length_append] at hroom
    exact (h.held (by omega)).append (by omega)

theorem Drafted.andThen {r : Bool × Composer} (h : Drafted r c acc) {f : Composer → Bool × Composer}
    {acc' : List UInt8} (hle : acc.length ≤ acc'.length)
    (hf : ∀ s, Drafts s c acc → Drafted (f s) c acc') : Drafted (andThen r f) c acc' := by
  unfold Composer.andThen
  rcases h with ⟨h1,h2⟩ | ⟨h1,h2,h3⟩
  · rw [if_pos h1]
    exact hf r.2 h2
  · rw [if_neg (by simp [h1])]
    exact Or.inr ⟨h1, h2, by omega⟩

theorem Gives.andThen {r : Bool × Composer} (h : Gives r c acc) {f : Composer → Bool × Composer}
    {acc' : List UInt8} (hle : acc.length ≤ acc'.length) (hf : Turns f acc acc') :
    Gives (andThen r f) c acc' := by
  unfold Composer.andThen
  rcases h with ⟨h1,h2⟩ | ⟨h1,h2,h3⟩
  · rw [if_pos h1]
    exact hf r.2 c h2
  · rw [if_neg (by simp [h1])]
    exact Or.inr ⟨h1, h2, by omega⟩

/-- A chain is its first step, and if that does not fail, the chain of the others. -/
theorem chain_cons (f : Composer → Bool × Composer) (steps : List (Composer → Bool × Composer))
    (s : Composer) : chain (f :: steps) s = Composer.andThen (f s) (chain steps) := by
  have hfailed (steps : List (Composer → Bool × Composer)) (t : Composer) :
      steps.foldl Composer.andThen (false, t) = (false, t) := by
    induction steps with
    | nil => rfl
    | cons g steps ih => exact ih
  change steps.foldl Composer.andThen (f s) = _
  cases hf : f s with
  | mk ok t =>
    cases ok with
    | false => exact hfailed steps t
    | true => rfl

theorem chain_nil (s : Composer) : chain [] s = (true, s) := rfl

theorem extends_cons {f : Composer → Bool × Composer} {steps : List (Composer → Bool × Composer)}
    {bs bs' : List UInt8} (h : Extends f bs) (h' : Extends (chain steps) bs') :
    Extends (chain (f :: steps)) (bs ++ bs') := by
  intro s c acc hs
  rw [chain_cons, ← List.append_assoc]
  apply (h s c acc hs).andThen (by simp)
  intro t ht
  exact h' t c _ ht

theorem extends_single {f : Composer → Bool × Composer} {bs : List UInt8} (h : Extends f bs) :
    Extends (chain [f]) bs := h

theorem turns_cons {f : Composer → Bool × Composer} {steps : List (Composer → Bool × Composer)}
    {acc acc' acc'' : List UInt8} (h : Turns f acc acc') (hle : acc'.length ≤ acc''.length)
    (h' : Turns (chain steps) acc' acc'') : Turns (chain (f :: steps)) acc acc'' := by
  intro s c hs
  rw [chain_cons]
  exact (h s c hs).andThen hle h'

theorem turns_single {f : Composer → Bool × Composer} {acc acc' : List UInt8} (h : Turns f acc acc') :
    Turns (chain [f]) acc acc' := h

theorem opens_cons {f : Composer → Bool × Composer} {steps : List (Composer → Bool × Composer)}
    {acc acc' acc'' : List UInt8} (h : Opens f acc acc') (hle : acc'.length ≤ acc''.length)
    (h' : Turns (chain steps) acc' acc'') : Opens (chain (f :: steps)) acc acc'' := by
  intro s c hs
  rw [chain_cons]
  exact (h s c hs).andThen hle h'

/-! One property. -/

/-- The bytes of the type, if it is one. -/
def typeBytes (t : PropertyType) : List UInt8 := if t = .none then [] else [UInt8.ofNat t.code]

/-- What stands in front of the data. -/
def lengthBytes (lenOccupy n : ℕ) : List UInt8 :=
  if lenOccupy = 0 then generateVariableLen 5 n else ByteReader.bigEndian lenOccupy n

theorem lengthBytes_le (lenOccupy n : ℕ) : lenOccupy ≤ (lengthBytes lenOccupy n).length := by
  unfold lengthBytes
  split
  · omega
  · rw [ByteReader.bigEndian_length]

theorem lengthBytes_length {lenOccupy : ℕ} (h : lenOccupy ≠ 0) (n : ℕ) :
    (lengthBytes lenOccupy n).length = lenOccupy := by
  unfold lengthBytes
  rw [if_neg h, ByteReader.bigEndian_length]

theorem appendProperty_eq (t : PropertyType) (lenOccupy : ℕ) {data : Option (List UInt8)} {n : ℕ}
    (hdata : ∀ bs, data = some bs → bs.length = n) (s : Composer) :
    appendProperty t lenOccupy data n s =
      if s.connection.bufferLength < s.length+lenOccupy+(data.getD []).length+(typeBytes t).length then
        (false, s)
      else (true, ((s.append (typeBytes t)).append (lengthBytes lenOccupy n)).append (data.getD [])) := by
  obtain ⟨htake,hlen⟩ : (data.getD []).take n = data.getD [] ∧
      (data.getD []).length = if data.isSome then n else 0 := by
    cases data with
    | none => simp
    | some bs =>
      have := hdata bs rfl
      simp [← this]
  unfold appendProperty
  dsimp only
  rw [htake, hlen]
  rfl

theorem appendProperty_extends (t : PropertyType) (lenOccupy : ℕ) {data : Option (List UInt8)} {n : ℕ}
    (hdata : ∀ bs, data = some bs → bs.length = n) :
    Extends (appendProperty t lenOccupy data n)
      (typeBytes t ++ (lengthBytes lenOccupy n ++ data.getD [])) := by
  intro s c acc h
  have hlen := lengthBytes_le lenOccupy n
  rw [appendProperty_eq t lenOccupy hdata, h.connection, h.length]
  by_cases hroom : c.bufferLength < 5+acc.length+lenOccupy+(data.getD []).length+(typeBytes t).length
  · rw [if_pos hroom]
    right
    refine ⟨rfl, h.connection, ?_⟩
    simp only [List.length_append]
    omega
  · rw [if_neg hroom]
    left
    have hall := ((h.append (typeBytes t)).append (lengthBytes lenOccupy n)).append (data.getD [])
    simp only [List.append_assoc] at hall
    exact ⟨rfl, hall⟩

/-- The test for room counts every byte if the length has a fixed size. -/
theorem appendProperty_room {t : PropertyType} {lenOccupy : ℕ} (hk : lenOccupy ≠ 0)
    {data : Option (List UInt8)} {n : ℕ} (hdata : ∀ bs, data = some bs → bs.length = n)
    (h : (appendProperty t lenOccupy data n s).1 = true) :
    (appendProperty t lenOccupy data n s).2.length ≤
      (appendProperty t lenOccupy data n s).2.connection.bufferLength := by
  have hlen := lengthBytes_length hk n
  rw [appendProperty_eq t lenOccupy hdata] at h ⊢
  by_cases hroom : s.connection.bufferLength <
      s.length+lenOccupy+(data.getD []).length+(typeBytes t).length
  · rw [if_pos hroom] at h
    exact absurd h Bool.noConfusion
  · rw [if_neg hroom]
    change s.length+(typeBytes t).length+(lengthBytes lenOccupy n).length+(data.getD []).length ≤
      s.connection.bufferLength
    omega

theorem appendProperty_turns (t : PropertyType) {lenOccupy : ℕ} (hk : lenOccupy ≠ 0)
    {data : Option (List UInt8)} {n : ℕ} (hdata : ∀ bs, data = some bs → bs.length = n)
    (acc : List UInt8) :
    Turns (appendProperty t lenOccupy data n) acc
      (acc ++ (typeBytes t ++ (lengthBytes lenOccupy n ++ data.getD []))) := by
  intro s c h
  exact (appendProperty_extends t lenOccupy hdata s c acc h.drafts).gives
    (appendProperty_room hk hdata)

theorem bigEndian_two (n : ℕ) : ByteReader.bigEndian 2 n = u16 n := by
  have hlow : UInt8.ofNat (n/256^0) = UInt8.ofNat (n % 256) := by
    rw [pow_zero, Nat.div_one]
    exact (UInt8.ofNat_mod_size).symm
  simp only [ByteReader.bigEndian, hlow, pow_one]
  rfl

theorem some_length (text : List UInt8) : ∀ bs, some text = some bs → bs.length = text.length := by
  intro bs hbs
  rw [Option.some.inj hbs]

theorem appendText_extends (t : PropertyType) (text : List UInt8) :
    Extends (appendText t text) (typeBytes t ++ countedString text) := by
  have h := appendProperty_extends t 2 (some_length text)
  rwa [lengthBytes, if_neg (by decide), bigEndian_two] at h

theorem appendText_turns (text acc : List UInt8) :
    Turns (appendText .none text) acc (acc ++ countedString text) := by
  have h := appendProperty_turns .none two_ne_zero (some_length text) acc
  rwa [lengthBytes, if_neg (by decide), bigEndian_two] at h

/-- A string that is not there is sent as an empty one. -/
theorem appendNothing_turns (acc : List UInt8) :
    Turns (appendProperty .none 2 none 0) acc (acc ++ countedString []) := by
  have hnone : ∀ bs : List UInt8, none = some bs → bs.length = 0 := by simp
  have h := appendProperty_turns .none two_ne_zero hnone acc
  rwa [lengthBytes, if_neg (by decide), bigEndian_two] at h

/-! The steps of a block. -/

/-- The bytes of a property with a number, as `append_property` writes it. -/
def numberBytes (t : PropertyType) (lenOccupy n : ℕ) : List UInt8 :=
  if n ≠ 0 then typeBytes t ++ lengthBytes lenOccupy n else []

def flagBytes (t : PropertyType) (flag : Bool) : List UInt8 :=
  if flag then typeBytes t ++ lengthBytes 1 1 else []

def textBytes (t : PropertyType) (text : Option (List UInt8)) : List UInt8 :=
  match text with
  | none => []
  | some text => typeBytes t ++ countedString text

def userBytes (l : UserProperty) : List UInt8 :=
  (l.getD []).flatMap fun p => typeBytes .userProperty ++ (countedString p.1 ++ countedString p.2)

theorem extends_nothing : Extends (fun s => (true, s)) [] := by
  intro s c acc h
  rw [List.append_nil]
  exact Or.inl ⟨rfl,h⟩

theorem appendNonzero_extends (t : PropertyType) (lenOccupy n : ℕ) :
    Extends (appendNonzero t lenOccupy n) (numberBytes t lenOccupy n) := by
  unfold appendNonzero numberBytes
  by_cases h : n ≠ 0
  · simp only [if_pos h]
    have hstep := appendProperty_extends t lenOccupy (n := n) (fun bs (hbs : none = some bs) => by
      exact absurd hbs (by simp))
    rwa [Option.getD_none, List.append_nil] at hstep
  · simp only [if_neg h]
    exact extends_nothing

theorem appendFlag_extends (t : PropertyType) (flag : Bool) :
    Extends (appendFlag t flag) (flagBytes t flag) := by
  unfold appendFlag flagBytes
  cases flag with
  | false => exact extends_nothing
  | true =>
    have hstep := appendProperty_extends t 1 (n := 1) (fun bs (hbs : none = some bs) => by
      exact absurd hbs (by simp))
    rwa [Option.getD_none, List.append_nil] at hstep

theorem appendOptional_extends (t : PropertyType) (text : Option (List UInt8)) :
    Extends (appendOptional t text) (textBytes t text) := by
  cases text with
  | none => exact extends_nothing
  | some text => exact appendText_extends t text

theorem appendUserProperties_extends (l : List (List UInt8 × List UInt8)) :
    Extends (appendUserProperties l) (userBytes (some l)) := by
  induction l with
  | nil => exact extends_nothing
  | cons p l ih =>
    obtain ⟨key,value⟩ := p
    intro s c acc h
    have hbytes : acc ++ userBytes (some ((key, value) :: l)) =
        acc ++ (typeBytes .userProperty ++ countedString key) ++ countedString value ++
          userBytes (some l) := by
      simp [userBytes]
    have hkey := appendText_extends .userProperty key s c acc h
    rw [hbytes]
    apply (hkey.andThen (by simp) (appendText_extends .none value · c _)).andThen (by simp [typeBytes])
    intro s h
    exact ih s c _ h

theorem appendUserProperty_extends (l : UserProperty) :
    Extends (appendUserProperty l) (userBytes l) := by
  cases l with
  | none => exact extends_nothing
  | some l => exact appendUserProperties_extends l

/-! The length of a block, filled in. -/

/-- Bytes that were composed already are written again. -/
theorem Holds.overwrite {pre old post : List UInt8} (h : Holds s c (pre ++ (old ++ post)))
    {new : List UInt8} (hnew : new.length = old.length) :
    Holds (s.write (5+pre.length) new) c (pre ++ (new ++ post)) := by
  obtain ⟨gap,rest,hgap,hbuf⟩ := h.body
  have hroom := h.room
  have hlen : (pre ++ (new ++ post)).length = (pre ++ (old ++ post)).length := by
    simp only [List.length_append, hnew]
  have hpos : 5+pre.length = (gap ++ pre).length := by rw [List.length_append, hgap]
  have hsplit : s.buffer = (gap ++ pre) ++ (old ++ (post ++ rest)) := by
    rw [hbuf]
    simp only [List.append_assoc]
  have hsound : Sound (s.write (5+pre.length) new) c := by
    apply h.toSound.write
    simp only [List.length_append] at hroom
    omega
  refine ⟨hsound, h.length.trans (by rw [hlen]), hroom.trans' (by rw [hlen]), gap, rest, hgap, ?_⟩
  change ByteBuffer.splice s.buffer (5+pre.length) new = _
  rw [hpos, hsplit, ByteBuffer.splice_middle _ _ _ _ hnew]
  simp only [List.append_assoc]

theorem Drafts.overwrite {pre old post : List UInt8} (h : Drafts s c (pre ++ (old ++ post)))
    {new : List UInt8} (hnew : new.length = old.length) :
    Drafts (s.write (5+pre.length) new) c (pre ++ (new ++ post)) := by
  have hlen : (pre ++ (new ++ post)).length = (pre ++ (old ++ post)).length := by
    simp only [List.length_append, hnew]
  refine ⟨h.connection, h.length.trans (by rw [hlen]), fun hroom => ?_⟩
  rw [hlen] at hroom
  exact (h.held hroom).overwrite hnew

theorem shiftUp_frame (offset k i : ℕ) (s : Composer) :
    (shiftUp offset k i s).connection = s.connection ∧ (shiftUp offset k i s).length = s.length := by
  induction k generalizing i s with
  | zero => exact ⟨rfl,rfl⟩
  | succ k ih => exact ih (i-1) _

theorem shiftUp_sound (offset k i : ℕ) (h : Sound s c) (hi : i+offset < c.bufferLength) :
    Sound (shiftUp offset k i s) c := by
  induction k generalizing i s with
  | zero => exact h
  | succ k ih =>
    apply ih (i-1) _ (by omega)
    exact h.write (by rw [List.length_singleton]; omega)

/-- The bytes of `block` move up by the length of `free`, and what they leave behind is
of no interest. -/
theorem shiftUp_buffer (front block : List UInt8) {free rest : List UInt8} {s : Composer}
    (h : s.buffer = front ++ (block ++ (free ++ rest))) :
    ∃ left, left.length = free.length ∧
      (shiftUp free.length block.length (front.length+block.length-1) s).buffer =
        front ++ (left ++ (block ++ rest)) := by
  -- the last byte is moved first, so the block is taken apart from its end
  induction block using List.reverseRecOn generalizing free rest s with
  | nil => exact ⟨free, rfl, h⟩
  | append_singleton block x ih =>
    have hi : front.length+(block ++ [x]).length-1 = front.length+block.length := by
      simp only [List.length_append, List.length_singleton]
      omega
    obtain ⟨moved,y,hmoved⟩ := (List.eq_nil_or_concat (x :: free)).resolve_left (List.cons_ne_nil _ _)
    rw [List.concat_eq_append] at hmoved
    have hcount : moved.length = free.length := by
      have := congrArg List.length hmoved
      simpa using this.symm
    have hsplit : s.buffer = (front ++ (block ++ moved)) ++ ([y] ++ rest) := by
      have hx : block ++ [x] ++ (free ++ rest) = block ++ (x :: free ++ rest) := by simp
      rw [h, hx, hmoved]
      simp only [List.append_assoc]
    have hread : s.buffer.getD (front.length+block.length) 0 = x := by
      have hx : front ++ (block ++ [x] ++ (free ++ rest)) = (front ++ block) ++ (x :: (free ++ rest)) := by
        simp
      rw [h, hx, ← List.length_append, List.getD_append_right _ _ _ _ le_rfl, Nat.sub_self]
      rfl
    have hwrite : (s.write (front.length+block.length+free.length)
        [s.buffer.getD (front.length+block.length) 0]).buffer =
          front ++ (block ++ (moved ++ ([x] ++ rest))) := by
      have hpos : front.length+block.length+free.length = (front ++ (block ++ moved)).length := by
        simp only [List.length_append, hcount]
        omega
      change ByteBuffer.splice s.buffer _ _ = _
      rw [hread, hpos, hsplit, ByteBuffer.splice_middle _ [y] [x] _ rfl]
      simp only [List.append_assoc]
    obtain ⟨left,h1,h2⟩ := ih hwrite
    refine ⟨left, h1.trans hcount, ?_⟩
    rw [hcount] at h2
    rw [hi, List.length_append, List.length_singleton, shiftUp, h2, List.append_assoc block]

theorem updatePropertyLenValue_gives {pre block : List UInt8} {b : UInt8}
    (h : Drafts s c (pre ++ ([b] ++ block))) :
    Gives (s.updatePropertyLenValue block.length (5+pre.length)) c
      (pre ++ (generateVariableLen 5 block.length ++ block)) := by
  have hl := h.length
  have hpos := generateVariableLen_pos block.length
  generalize hlens : generateVariableLen 5 block.length = lens at hpos
  have hlen : (pre ++ ([b] ++ block)).length = pre.length+1+block.length := by
    simp only [List.length_append, List.length_singleton]
    omega
  have hlen' : (pre ++ (lens ++ block)).length = pre.length+lens.length+block.length := by
    simp only [List.length_append]
    omega
  unfold updatePropertyLenValue
  dsimp only
  rw [hlens, h.connection, hl]
  by_cases hroom : c.bufferLength < 5+(pre ++ ([b] ++ block)).length+(lens.length-1)
  · rw [if_pos hroom]
    exact Or.inr ⟨rfl, rfl, by omega⟩
  rw [if_neg hroom]
  left
  refine ⟨rfl, ?_⟩
  have hheld := h.held (by omega)
  obtain ⟨gap,rest,hgap,hbuf⟩ := hheld.body
  have hrest : lens.length-1 ≤ rest.length := by
    have hb := hheld.buffer
    rw [hbuf] at hb
    simp only [List.length_append, hgap, List.length_singleton] at hb hroom
    omega
  -- the bytes behind the block that it moves over
  have hfree : (rest.take (lens.length-1)).length = lens.length-1 := by
    rw [List.length_take]
    omega
  have hstart : s.buffer = (gap ++ (pre ++ [b])) ++
      (block ++ (rest.take (lens.length-1) ++ rest.drop (lens.length-1))) := by
    rw [hbuf, List.take_append_drop]
    simp only [List.append_assoc]
  generalize hs : (⟨c, s.buffer, 5+(pre ++ ([b] ++ block)).length+(lens.length-1), s.written⟩ :
    Composer) = t
  have htsound : Sound t c := by
    rw [← hs]
    exact ⟨rfl, hheld.buffer, hheld.written⟩
  have htbuf : t.buffer = (gap ++ (pre ++ [b])) ++
      (block ++ (rest.take (lens.length-1) ++ rest.drop (lens.length-1))) := by
    rw [← hs]
    exact hstart
  have htlen : t.length = 5+(pre ++ (lens ++ block)).length := by
    rw [← hs]
    change 5+(pre ++ ([b] ++ block)).length+(lens.length-1) = _
    omega
  obtain ⟨left,hleft,hmoved⟩ : ∃ left, left.length = lens.length-1 ∧
      (if 0 < lens.length-1 then shiftUp (lens.length-1) block.length (5+pre.length+block.length) t
        else t).buffer = (gap ++ (pre ++ [b])) ++ (left ++ (block ++ rest.drop (lens.length-1))) := by
    by_cases hmove : 0 < lens.length-1
    · rw [if_pos hmove]
      obtain ⟨left,h1,h2⟩ := shiftUp_buffer (gap ++ (pre ++ [b])) block htbuf
      have hi : (gap ++ (pre ++ [b])).length+block.length-1 = 5+pre.length+block.length := by
        simp only [List.length_append, hgap, List.length_singleton]
        omega
      rw [hfree] at h1 h2
      rw [hi] at h2
      exact ⟨left,h1,h2⟩
    · rw [if_neg hmove]
      have hzero : lens.length-1 = 0 := by omega
      refine ⟨[], by rw [hzero]; rfl, ?_⟩
      rw [htbuf, hzero]
      rfl
  generalize hu : (if 0 < lens.length-1 then
    shiftUp (lens.length-1) block.length (5+pre.length+block.length) t else t) = u at hmoved
  have husound : Sound u c := by
    rw [← hu]
    split
    · apply shiftUp_sound _ _ _ htsound
      omega
    · exact htsound
  have hulen : u.length = 5+(pre ++ (lens ++ block)).length := by
    rw [← hu, ← htlen]
    split
    · exact (shiftUp_frame _ _ _ t).2
    · rfl
  -- the block with its old placeholder and what was left behind it
  have hholds : Holds u c (pre ++ ((b :: left) ++ block)) := by
    have hsame : (pre ++ ((b :: left) ++ block)).length = (pre ++ (lens ++ block)).length := by
      simp only [List.length_append, List.length_cons]
      omega
    refine ⟨husound, hulen.trans (by rw [hsame]), by omega, gap, rest.drop (lens.length-1), hgap, ?_⟩
    rw [hmoved]
    simp
  have hsize : lens.length = (b :: left).length := by
    rw [List.length_cons]
    omega
  exact hholds.overwrite hsize

/-- The block: its length in as many bytes as it takes, then what the steps composed.
The steps may also change what stands before it, but not how long that is. -/
theorem withProperties_opens' {steps : List (Composer → Bool × Composer)} {pre pre' block : List UInt8}
    (hlen : pre'.length = pre.length)
    (h : ∀ s c b, Drafts s c (pre ++ [b]) → Drafted (chain steps s) c (pre' ++ ([b] ++ block))) :
    Opens (withProperties steps) pre (pre' ++ (generateVariableLen 5 block.length ++ block)) := by
  intro s c hs
  have hl := hs.length
  have hone (b : UInt8) : (pre ++ [b]).length = pre.length+1 := by
    rw [List.length_append, List.length_singleton]
  have hopen : Drafts {s with length := s.length+1} c (pre ++ [s.buffer.getD (5+pre.length) 0]) := by
    refine ⟨hs.connection, ?_, fun hroom => ?_⟩
    · rw [hone]
      change s.length+1 = _
      omega
    rw [hone] at hroom
    have hheld := hs.held (by omega)
    obtain ⟨gap,rest,hgap,hbuf⟩ := hheld.body
    have hne : rest ≠ [] := by
      rintro rfl
      have hb := hheld.buffer
      rw [hbuf] at hb
      simp only [List.length_append, hgap, List.length_nil] at hb
      omega
    obtain ⟨b,tail,rfl⟩ := List.exists_cons_of_ne_nil hne
    have hread : s.buffer.getD (5+pre.length) 0 = b := by
      have hpos : 5+pre.length = (gap ++ pre).length := by rw [List.length_append, hgap]
      rw [hbuf, ← List.append_assoc, hpos, List.getD_append_right _ _ _ _ le_rfl, Nat.sub_self]
      rfl
    rw [hread]
    refine ⟨⟨hs.connection, hheld.buffer, hheld.written⟩, ?_, ?_, gap, tail, hgap, ?_⟩
    · rw [hone]
      change s.length+1 = _
      omega
    · rw [hone]
      omega
    · change s.buffer = _
      rw [hbuf]
      simp
  unfold withProperties
  dsimp only
  have hblock := h _ c _ hopen
  unfold Composer.andThen
  rcases hblock with ⟨h1,h2⟩ | ⟨h1,h2,h3⟩
  · rw [if_pos h1]
    have hcount : (chain steps {s with length := s.length+1}).2.length-s.length-1 = block.length := by
      rw [h2.length, hl]
      simp only [List.length_append, List.length_singleton]
      omega
    have hoff : s.length = 5+pre'.length := by rw [hl, hlen]
    dsimp only
    rw [hcount, hoff]
    rw [hoff] at h2
    exact updatePropertyLenValue_gives h2
  · rw [if_neg (by simp [h1])]
    right
    refine ⟨h1, h2, ?_⟩
    have hpos := generateVariableLen_pos block.length
    simp only [List.length_append, List.length_singleton] at h3 ⊢
    omega

theorem withProperties_opens {steps : List (Composer → Bool × Composer)} {block : List UInt8}
    (h : Extends (chain steps) block) (acc : List UInt8) :
    Opens (withProperties steps) acc (acc ++ (generateVariableLen 5 block.length ++ block)) := by
  apply withProperties_opens' rfl
  intro s c b hs
  have hstep := h s c _ hs
  rwa [List.append_assoc] at hstep

end Composer

end EspMqtt
