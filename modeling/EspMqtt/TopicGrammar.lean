import EspMqtt.TopicReads

/-! The grammar of topics: characters in their shortest UTF-8 form, and levels between
slashes. -/
namespace EspMqtt

/-- A code point that `utf8` lets through: neither a C0 or C1 control nor DEL nor a
noncharacter. -/
structure TextCode (code : ℕ) : Prop where
  c0 : ¬code < 0x20
  delC1 : ¬(0x7f ≤ code ∧ code ≤ 0x9f)
  arabicNonchar : ¬(0xfdd0 ≤ code ∧ code ≤ 0xfdef)
  planeNonchar : ¬0xfffe ≤ code % 0x10000

/-- The shortest UTF-8 form of a sequence of such scalar values. -/
def Utf8Text (text : List UInt8) : Prop :=
  ∃ chars : List Char, text = chars.flatMap String.utf8EncodeChar ∧ ∀ ch ∈ chars, TextCode ch.toNat

/-- A level without wildcards. -/
def PlainLevel (level : List UInt8) : Prop := 0x2b ∉ level ∧ 0x23 ∉ level

/-- `+` alone, `#` alone as the last level, or no wildcard. -/
def FilterLevels (levels : List (List UInt8)) : Prop :=
  ∀ i (hi : i < levels.length),
    levels[i] = [0x2b] ∨ (levels[i] = [0x23] ∧ i+1 = levels.length) ∨ PlainLevel levels[i]

/-- What the topics are, as filters and as names. -/
structure TopicGrammar (text : List UInt8) (filter : Bool) : Prop where
  length : 1 ≤ text.length ∧ text.length ≤ emqttTopicMax
  encoded : Utf8Text text
  levels : if filter then FilterLevels (text.splitOn 0x2f) else ∀ level ∈ text.splitOn 0x2f, PlainLevel level

section Encoding

theorem utf8CodeOk_iff {code minimum : ℕ} : utf8CodeOk code minimum = true ↔
    minimum ≤ code ∧ code ≤ 0x10ffff ∧ ¬(0xd800 ≤ code ∧ code ≤ 0xdfff) ∧ TextCode code := by
  have hnot : TextCode code ↔ ¬code < 0x20 ∧ ¬(0x7f ≤ code ∧ code ≤ 0x9f) ∧
      ¬(0xfdd0 ≤ code ∧ code ≤ 0xfdef) ∧ ¬0xfffe ≤ code % 0x10000 :=
    ⟨fun h => ⟨h.c0, h.delC1, h.arabicNonchar, h.planeNonchar⟩, fun h => ⟨h.1, h.2.1, h.2.2.1, h.2.2.2⟩⟩
  rw [hnot]
  simp only [utf8CodeOk, Bool.not_eq_true', Bool.or_eq_false_iff, decide_eq_false_iff_not,
    Bool.and_eq_false_iff, not_lt, not_le]
  omega

/-- A scalar value with a given code. -/
theorem exists_char {code : ℕ} (hmax : code ≤ 0x10ffff) (hsurrogate : ¬(0xd800 ≤ code ∧ code ≤ 0xdfff)) :
    ∃ ch : Char, ch.toNat = code := by
  have hvalid : code.isValidChar := by
    unfold Nat.isValidChar
    omega
  refine ⟨Char.ofNat code, ?_⟩
  rw [Char.ofNat, dif_pos hvalid]
  rfl

theorem ofNat_eq {n : ℕ} {b : UInt8} (h : n = b.toNat) : UInt8.ofNat n = b := by
  rw [h]
  exact UInt8.ofNat_toNat

/-- One continuation byte, then the others. -/
theorem utf8Extra_succ_iff {extra code : ℕ} {text : List UInt8} {r : ℕ × List UInt8} :
    utf8Extra (extra+1) code text = some r ↔ ∃ b rest, text = b :: rest ∧ b.toNat/64 = 2 ∧
      utf8Extra extra (code*64+b.toNat % 64) rest = some r := by
  constructor
  · intro h
    cases text with
    | nil => exact absurd h (by simp [utf8Extra])
    | cons b rest =>
      rw [utf8Extra] at h
      split at h
      · exact ⟨b, rest, rfl, ‹_›, h⟩
      · exact absurd h (by simp)
  · rintro ⟨b,rest,rfl,hb,h⟩
    rw [utf8Extra, if_pos hb]
    exact h

/-- The first bytes that begin a character, by the number of bytes that follow. -/
theorem utf8Lead_iff {first : UInt8} {code extra minimum : ℕ} :
    utf8Lead first = some (code, extra, minimum) ↔
      (first.toNat < 0x80 ∧ code = first.toNat ∧ extra = 0 ∧ minimum = 0) ∨
      ((0xc2 ≤ first.toNat ∧ first.toNat ≤ 0xdf) ∧ code = first.toNat % 32 ∧ extra = 1 ∧ minimum = 0x80) ∨
      ((0xe0 ≤ first.toNat ∧ first.toNat ≤ 0xef) ∧ code = first.toNat % 16 ∧ extra = 2 ∧ minimum = 0x800) ∨
      ((0xf0 ≤ first.toNat ∧ first.toNat ≤ 0xf4) ∧ code = first.toNat % 8 ∧ extra = 3 ∧ minimum = 0x10000) := by
  unfold utf8Lead
  dsimp only
  split_ifs <;> simp only [Option.some.injEq, Prod.mk.injEq, false_iff] <;> omega

/-- What the decoder takes for a character is the shortest form of one. -/
theorem decoded_encodes {first : UInt8} {text rest : List UInt8} {lead extra minimum code : ℕ}
    (hlead : utf8Lead first = some (lead, extra, minimum)) (hextra : utf8Extra extra lead text = some (code, rest))
    (hok : utf8CodeOk code minimum = true) :
    ∃ ch : Char, TextCode ch.toNat ∧ first :: text = String.utf8EncodeChar ch ++ rest := by
  obtain ⟨hmin,hmax,hsurrogate,hcode⟩ := utf8CodeOk_iff.mp hok
  obtain ⟨ch,hch⟩ := exists_char hmax hsurrogate
  have hv : ch.val.toNat = code := hch
  refine ⟨ch, hch ▸ hcode, ?_⟩
  rw [String.utf8EncodeChar, hv]
  -- one case for each number of bytes; `minimum` picks the same branch of the encoder
  rcases utf8Lead_iff.mp hlead with ⟨hf,rfl,rfl,rfl⟩ | ⟨hf,rfl,rfl,rfl⟩ | ⟨hf,rfl,rfl,rfl⟩ | ⟨hf,rfl,rfl,rfl⟩
  · obtain ⟨rfl,rfl⟩ := Prod.mk.inj (Option.some.inj hextra)
    rw [if_pos (by omega), ofNat_eq rfl]
    rfl
  · obtain ⟨b₁,t₁,rfl,hb₁,hextra⟩ := utf8Extra_succ_iff.mp hextra
    obtain ⟨rfl,rfl⟩ := Prod.mk.inj (Option.some.inj hextra)
    rw [if_neg (by omega), if_pos (by omega), ofNat_eq (b := first) (by omega), ofNat_eq (b := b₁) (by omega)]
    rfl
  · obtain ⟨b₁,t₁,rfl,hb₁,hextra⟩ := utf8Extra_succ_iff.mp hextra
    obtain ⟨b₂,t₂,rfl,hb₂,hextra⟩ := utf8Extra_succ_iff.mp hextra
    obtain ⟨rfl,rfl⟩ := Prod.mk.inj (Option.some.inj hextra)
    rw [if_neg (by omega), if_neg (by omega), if_pos (by omega), ofNat_eq (b := first) (by omega),
      ofNat_eq (b := b₁) (by omega), ofNat_eq (b := b₂) (by omega)]
    rfl
  · obtain ⟨b₁,t₁,rfl,hb₁,hextra⟩ := utf8Extra_succ_iff.mp hextra
    obtain ⟨b₂,t₂,rfl,hb₂,hextra⟩ := utf8Extra_succ_iff.mp hextra
    obtain ⟨b₃,t₃,rfl,hb₃,hextra⟩ := utf8Extra_succ_iff.mp hextra
    obtain ⟨rfl,rfl⟩ := Prod.mk.inj (Option.some.inj hextra)
    rw [if_neg (by omega), if_neg (by omega), if_neg (by omega), ofNat_eq (b := first) (by omega),
      ofNat_eq (b := b₁) (by omega), ofNat_eq (b := b₂) (by omega), ofNat_eq (b := b₃) (by omega)]
    rfl

theorem toNat_ofNat {n : ℕ} (h : n < 256) : (UInt8.ofNat n).toNat = n := by
  rw [UInt8.toNat_ofNat', Nat.mod_eq_of_lt h]

/-- The shortest form of a character is decoded as that character. -/
theorem encoded_decodes (ch : Char) (rest : List UInt8) : ∃ first text lead extra minimum,
    String.utf8EncodeChar ch ++ rest = first :: text ∧ utf8Lead first = some (lead, extra, minimum) ∧
      utf8Extra extra lead text = some (ch.toNat, rest) ∧ minimum ≤ ch.toNat := by
  have hv : ch.val.toNat = ch.toNat := rfl
  have hmax : ch.toNat < 0x110000 := by
    rcases ch.valid with h | h
    · exact Nat.lt_trans h (by omega)
    · exact h.2
  rw [String.utf8EncodeChar, hv]
  split_ifs with h₁ h₂ h₃
  · refine ⟨_, _, ch.toNat, 0, 0, rfl, utf8Lead_iff.mpr (Or.inl ?_), rfl, Nat.zero_le _⟩
    rw [toNat_ofNat (by omega)]
    omega
  · refine ⟨_, _, ch.toNat/64, 1, 0x80, rfl, utf8Lead_iff.mpr (Or.inr (Or.inl ?_)),
      utf8Extra_succ_iff.mpr ⟨_, _, rfl, ?_, ?_⟩, by omega⟩
    · rw [toNat_ofNat (by omega)]
      omega
    · rw [toNat_ofNat (by omega)]
      omega
    · rw [toNat_ofNat (by omega), utf8Extra]
      congr 2
      omega
  · refine ⟨_, _, ch.toNat/4096, 2, 0x800, rfl, utf8Lead_iff.mpr (Or.inr (Or.inr (Or.inl ?_))),
      utf8Extra_succ_iff.mpr ⟨_, _, rfl, ?_, utf8Extra_succ_iff.mpr ⟨_, _, rfl, ?_, ?_⟩⟩, by omega⟩
    · rw [toNat_ofNat (by omega)]
      omega
    · rw [toNat_ofNat (by omega)]
      omega
    · rw [toNat_ofNat (by omega)]
      omega
    · rw [toNat_ofNat (by omega), toNat_ofNat (by omega), utf8Extra]
      congr 2
      omega
  · refine ⟨_, _, ch.toNat/262144, 3, 0x10000, rfl, utf8Lead_iff.mpr (Or.inr (Or.inr (Or.inr ?_))),
      utf8Extra_succ_iff.mpr ⟨_, _, rfl, ?_, utf8Extra_succ_iff.mpr ⟨_, _, rfl, ?_,
        utf8Extra_succ_iff.mpr ⟨_, _, rfl, ?_, ?_⟩⟩⟩, by omega⟩
    · rw [toNat_ofNat (by omega)]
      omega
    · rw [toNat_ofNat (by omega)]
      omega
    · rw [toNat_ofNat (by omega)]
      omega
    · rw [toNat_ofNat (by omega)]
      omega
    · rw [toNat_ofNat (by omega), toNat_ofNat (by omega), toNat_ofNat (by omega), utf8Extra]
      congr 2
      omega

/-- A text the loop accepts is a character and a text it accepts after it. -/
theorem utf8Loop_succ_iff {fuel : ℕ} {text : List UInt8} (hne : text ≠ []) :
    utf8Loop (fuel+1) text = true ↔ ∃ (ch : Char) (rest : List UInt8),
      TextCode ch.toNat ∧ text = String.utf8EncodeChar ch ++ rest ∧ utf8Loop fuel rest = true := by
  constructor
  · intro h
    obtain ⟨first,tail,rfl⟩ := List.exists_cons_of_ne_nil hne
    rw [utf8Loop] at h
    cases hlead : utf8Lead first with
    | none => exact absurd h (by rw [hlead]; simp)
    | some announced =>
      obtain ⟨lead,extra,minimum⟩ := announced
      rw [hlead] at h
      dsimp only at h
      cases hextra : utf8Extra extra lead tail with
      | none => exact absurd h (by rw [hextra]; simp)
      | some decoded =>
        obtain ⟨code,rest⟩ := decoded
        rw [hextra] at h
        obtain ⟨hok,hloop⟩ := Bool.and_eq_true_iff.mp h
        obtain ⟨ch,hcode,heq⟩ := decoded_encodes hlead hextra hok
        exact ⟨ch, rest, hcode, heq, hloop⟩
  · rintro ⟨ch,rest,hcode,rfl,hloop⟩
    obtain ⟨first,tail,lead,extra,minimum,heq,hlead,hextra,hmin⟩ := encoded_decodes ch rest
    -- a `Char` is a scalar value, which is what the loop asks of a code besides `TextCode`
    have hscalar : ch.toNat ≤ 0x10ffff ∧ ¬(0xd800 ≤ ch.toNat ∧ ch.toNat ≤ 0xdfff) := by
      have hv : ch.val.toNat = ch.toNat := rfl
      rcases ch.valid with h | h
      · have hlow : ch.toNat < 0xd800 := h
        omega
      · have hhigh : 0xdfff < ch.toNat ∧ ch.toNat < 0x110000 := h
        omega
    have hok : utf8CodeOk ch.toNat minimum = true := utf8CodeOk_iff.mpr ⟨hmin, hscalar.1, hscalar.2, hcode⟩
    rw [heq, utf8Loop, hlead]
    dsimp only
    rw [hextra]
    exact Bool.and_eq_true_iff.mpr ⟨hok, hloop⟩

theorem utf8Loop_utf8Text : ∀ {fuel : ℕ} {text : List UInt8}, utf8Loop fuel text = true → Utf8Text text
  | fuel, [], _ => ⟨[], rfl, fun ch hch => absurd hch List.not_mem_nil⟩
  | 0, first :: text, h => absurd h (by simp [utf8Loop])
  | fuel+1, first :: text, h => by
    obtain ⟨ch,rest,hcode,heq,hloop⟩ := (utf8Loop_succ_iff (List.cons_ne_nil _ _)).mp h
    obtain ⟨chars,hchars,hall⟩ := utf8Loop_utf8Text hloop
    refine ⟨ch :: chars, ?_, ?_⟩
    · rw [heq, hchars, List.flatMap_cons]
    · exact List.forall_mem_cons.mpr ⟨hcode, hall⟩

theorem utf8Text_utf8Loop : ∀ (chars : List Char) (fuel : ℕ),
    (chars.flatMap String.utf8EncodeChar).length ≤ fuel → (∀ ch ∈ chars, TextCode ch.toNat) →
      utf8Loop fuel (chars.flatMap String.utf8EncodeChar) = true
  | [], fuel, _, _ => by
    rw [List.flatMap_nil, utf8Loop]
  | ch :: chars, fuel, hfuel, hall => by
    have hsize : 1 ≤ (String.utf8EncodeChar ch).length := List.length_pos_of_ne_nil String.utf8EncodeChar_ne_nil
    rw [List.flatMap_cons, List.length_append] at hfuel
    obtain ⟨fuel,rfl⟩ : ∃ n, fuel = n+1 := ⟨fuel-1, by omega⟩
    have hrest := utf8Text_utf8Loop chars fuel (by omega) fun c hc => hall c (List.mem_cons_of_mem _ hc)
    rw [List.flatMap_cons]
    have hne : String.utf8EncodeChar ch ++ chars.flatMap String.utf8EncodeChar ≠ [] :=
      List.append_ne_nil_of_left_ne_nil String.utf8EncodeChar_ne_nil _
    exact (utf8Loop_succ_iff hne).mpr ⟨ch, _, hall ch List.mem_cons_self, rfl, hrest⟩

/-- `utf8` accepts exactly the shortest forms of characters it lets through. -/
theorem utf8_iff (text : List UInt8) : utf8 text = true ↔ Utf8Text text := by
  constructor
  · exact utf8Loop_utf8Text
  · rintro ⟨chars,rfl,hall⟩
    exact utf8Text_utf8Loop chars _ le_rfl hall

end Encoding

section Levels

/-- The wildcard rules character by character; `start` says that a level begins here. -/
def wildcardScan (filter : Bool) : Bool → List UInt8 → Bool
  | _, [] => true
  | start, ch :: rest =>
    !(ch == 0x23 && (!filter || rest != [] || !start)) &&
      !(ch == 0x2b && (!filter || !start || (rest != [] && rest.head? != some 0x2f))) &&
      wildcardScan filter (ch == 0x2f) rest

/-- Looking at the neighbours by position is the scan that remembers where a level begins. -/
theorem range_wildcardOk (filter : Bool) (topic : List UInt8) :
    ∀ (n i : ℕ), i+n = topic.length →
      (List.range' i n).all (wildcardOk topic topic.length filter) =
        wildcardScan filter (decide (i = 0) || topic.getD (i-1) 0 == 0x2f) (topic.drop i)
  | 0, i, h => by
    rw [List.drop_eq_nil_of_le (by omega), wildcardScan]
    rfl
  | n+1, i, h => by
    have hin : i < topic.length := by omega
    have ih := range_wildcardOk filter topic n (i+1) (by omega)
    have hget : topic.getD i 0 = topic[i] := List.getD_eq_getElem _ _ hin
    -- each neighbour the rules look at, said of what the scan still has to read
    have hlast : (i+1 != topic.length) = (topic.drop (i+1) != []) := by
      rw [bne, bne, Bool.not_inj_iff, Bool.eq_iff_iff, beq_iff_eq, beq_iff_eq, List.drop_eq_nil_iff]
      omega
    have hnext : (decide (i+1 < topic.length) && topic.getD (i+1) 0 != 0x2f) =
        (topic.drop (i+1) != [] && (topic.drop (i+1)).head? != some 0x2f) := by
      by_cases hi : i+1 < topic.length
      · rw [List.drop_eq_getElem_cons hi, List.getD_eq_getElem _ _ hi, decide_eq_true hi]
        rfl
      · rw [List.drop_eq_nil_of_le (by omega), decide_eq_false hi]
        rfl
    have hstart : (decide (0 < i) && topic.getD (i-1) 0 != 0x2f) =
        !(decide (i = 0) || topic.getD (i-1) 0 == 0x2f) := by
      rw [Bool.not_or, ← bne]
      congr 1
      by_cases hi : i = 0
      · rw [hi]
        rfl
      · rw [decide_eq_false hi, decide_eq_true (by omega), Bool.not_false]
    rw [List.range'_succ, List.all_cons, ih, List.drop_eq_getElem_cons hin, wildcardScan, wildcardOk, hget,
      hlast, hnext, hstart, decide_eq_false (Nat.succ_ne_zero i), Bool.false_or, Nat.add_sub_cancel, hget,
      Bool.or_assoc, Bool.or_assoc]

/-- The level rules, one level after the other. -/
def LevelsOk (filter : Bool) : List (List UInt8) → Prop
  | [] => True
  | level :: rest =>
    (PlainLevel level ∨ (filter = true ∧ (level = [0x2b] ∨ (level = [0x23] ∧ rest = [])))) ∧ LevelsOk filter rest

theorem levelsOk_name {levels : List (List UInt8)} :
    LevelsOk false levels ↔ ∀ level ∈ levels, PlainLevel level := by
  induction levels with
  | nil => simp [LevelsOk]
  | cons level rest ih => simp [LevelsOk, ih]

theorem levelsOk_filter {levels : List (List UInt8)} : LevelsOk true levels ↔ FilterLevels levels := by
  induction levels with
  | nil => simp [LevelsOk, FilterLevels]
  | cons level rest ih =>
    rw [LevelsOk, ih]
    constructor
    · rintro ⟨hlevel,hrest⟩ i hi
      cases i with
      | zero =>
        rcases hlevel with h | ⟨-, h | ⟨h,hlast⟩⟩
        · exact Or.inr (Or.inr h)
        · exact Or.inl h
        · exact Or.inr (Or.inl ⟨h, by rw [hlast]; rfl⟩)
      | succ i =>
        have hin : i < rest.length := by simpa using hi
        rcases hrest i hin with h | ⟨h,hlast⟩ | h
        · exact Or.inl h
        · exact Or.inr (Or.inl ⟨h, by rw [List.length_cons]; omega⟩)
        · exact Or.inr (Or.inr h)
    · intro h
      refine ⟨?_, fun i hi => ?_⟩
      · rcases h 0 (Nat.succ_pos _) with h | ⟨h,hlast⟩ | h
        · exact Or.inr ⟨rfl, Or.inl h⟩
        · refine Or.inr ⟨rfl, Or.inr ⟨h, List.eq_nil_of_length_eq_zero ?_⟩⟩
          rw [List.length_cons] at hlast
          omega
        · exact Or.inl h
      · have hin : i+1 < (level :: rest).length := Nat.succ_lt_succ hi
        rcases h (i+1) hin with h | ⟨h,hlast⟩ | h
        · exact Or.inl h
        · exact Or.inr (Or.inl ⟨h, by rw [List.length_cons] at hlast; omega⟩)
        · exact Or.inr (Or.inr h)

theorem plainLevel_nil : PlainLevel [] := ⟨List.not_mem_nil, List.not_mem_nil⟩

theorem plainLevel_cons {ch : UInt8} {level : List UInt8} :
    PlainLevel (ch :: level) ↔ (ch ≠ 0x2b ∧ ch ≠ 0x23) ∧ PlainLevel level := by
  simp only [PlainLevel, List.mem_cons, not_or]
  constructor
  · rintro ⟨⟨h₁,h₂⟩,h₃,h₄⟩
    exact ⟨⟨Ne.symm h₁, Ne.symm h₃⟩, h₂, h₄⟩
  · rintro ⟨⟨h₁,h₃⟩,h₂,h₄⟩
    exact ⟨⟨Ne.symm h₁, h₂⟩, Ne.symm h₃, h₄⟩

/-- The first level is empty when the text ends or a slash follows. -/
theorem splitOn_head_nil {text level : List UInt8} {levels : List (List UInt8)}
    (hsplit : text.splitOn 0x2f = level :: levels) :
    (level = [] ↔ text = [] ∨ text.head? = some 0x2f) ∧ (level = [] ∧ levels = [] ↔ text = []) := by
  cases text with
  | nil =>
    rw [List.splitOn_nil] at hsplit
    obtain ⟨rfl,rfl⟩ := List.cons.inj hsplit
    simp
  | cons ch rest =>
    rw [List.splitOn_cons_eq_if_modifyHead] at hsplit
    by_cases hslash : ch = 0x2f
    · rw [if_pos (by rw [hslash]; rfl)] at hsplit
      obtain ⟨rfl,rfl⟩ := List.cons.inj hsplit
      simp [hslash]
    · rw [if_neg (by simpa using hslash)] at hsplit
      obtain ⟨first,others,hrest⟩ := List.exists_cons_of_ne_nil (List.splitOn_ne_nil (0x2f : UInt8) rest)
      rw [hrest, List.modifyHead_cons] at hsplit
      obtain ⟨rfl,rfl⟩ := List.cons.inj hsplit
      simp [hslash]

/-- The scan decides the level rules.  Inside a level it allows no wildcard before the next
slash. -/
theorem wildcardScan_iff (filter : Bool) : ∀ {text level : List UInt8} {levels : List (List UInt8)},
    text.splitOn 0x2f = level :: levels →
      (wildcardScan filter true text = true ↔ LevelsOk filter (level :: levels)) ∧
      (wildcardScan filter false text = true ↔ PlainLevel level ∧ LevelsOk filter levels)
  | [], level, levels, hsplit => by
    rw [List.splitOn_nil] at hsplit
    obtain ⟨rfl,rfl⟩ := List.cons.inj hsplit
    simp [wildcardScan, LevelsOk, plainLevel_nil]
  | ch :: rest, level, levels, hsplit => by
    obtain ⟨first,others,hrest⟩ := List.exists_cons_of_ne_nil (List.splitOn_ne_nil (0x2f : UInt8) rest)
    have ih := wildcardScan_iff filter hrest
    have hhead := splitOn_head_nil hrest
    rw [List.splitOn_cons_eq_if_modifyHead, hrest, List.modifyHead_cons] at hsplit
    by_cases hslash : ch = 0x2f
    · -- a level ends here and the next one begins
      rw [if_pos (by rw [hslash]; rfl)] at hsplit
      obtain ⟨rfl,rfl⟩ := List.cons.inj hsplit
      subst hslash
      have hscan (start : Bool) : wildcardScan filter start (0x2f :: rest) = wildcardScan filter true rest := by
        simp [wildcardScan]
      rw [hscan, hscan, ih.1]
      simp [LevelsOk, plainLevel_nil]
    · rw [if_neg (by simpa using hslash)] at hsplit
      obtain ⟨rfl,rfl⟩ := List.cons.inj hsplit
      have hrest' : wildcardScan filter (ch == 0x2f) rest = wildcardScan filter false rest := by
        rw [beq_eq_false_iff_ne.mpr hslash]
      by_cases hplus : ch = 0x2b
      · -- `+` must begin the level and end it
        subst hplus
        have hscan (start : Bool) : wildcardScan filter start (0x2b :: rest) = true ↔
            (filter = true ∧ start = true ∧ (rest = [] ∨ rest.head? = some 0x2f)) ∧
              wildcardScan filter false rest = true := by
          cases filter <;> cases start <;> cases rest <;> simp [wildcardScan]
        rw [hscan, hscan, ih.2, ← hhead.1]
        simp only [LevelsOk, plainLevel_cons, List.cons.injEq, true_and]
        constructor
        · constructor
          · rintro ⟨⟨hfilter,hfirst⟩,-,hothers⟩
            exact ⟨Or.inr ⟨hfilter, Or.inl hfirst⟩, hothers⟩
          · rintro ⟨h | ⟨hfilter,hfirst | h⟩,hothers⟩
            · exact absurd rfl h.1.1
            · exact ⟨⟨hfilter, hfirst⟩, hfirst ▸ plainLevel_nil, hothers⟩
            · exact absurd h.1.1 (by decide)
        · simp
      · by_cases hhash : ch = 0x23
        · -- `#` must begin the level and end the text
          subst hhash
          have hscan (start : Bool) : wildcardScan filter start (0x23 :: rest) = true ↔
              (filter = true ∧ start = true ∧ rest = []) ∧ wildcardScan filter false rest = true := by
            cases filter <;> cases start <;> cases rest <;> simp [wildcardScan]
          rw [hscan, hscan, ih.2, ← hhead.2]
          simp only [LevelsOk, plainLevel_cons, List.cons.injEq, true_and]
          constructor
          · constructor
            · rintro ⟨⟨hfilter,hlast⟩,-,hothers⟩
              exact ⟨Or.inr ⟨hfilter, Or.inr hlast⟩, hothers⟩
            · rintro ⟨h | ⟨hfilter,h | hlast⟩,hothers⟩
              · exact absurd rfl h.1.2
              · exact absurd h.1 (by decide)
              · exact ⟨⟨hfilter, hlast⟩, hlast.1 ▸ plainLevel_nil, hothers⟩
          · simp
        · -- an ordinary character neither begins nor ends anything
          have hscan (start : Bool) : wildcardScan filter start (ch :: rest) = wildcardScan filter false rest := by
            rw [wildcardScan, beq_eq_false_iff_ne.mpr hplus, beq_eq_false_iff_ne.mpr hhash,
              beq_eq_false_iff_ne.mpr hslash]
            rfl
          rw [hscan, hscan, ih.2]
          simp only [LevelsOk, plainLevel_cons, List.cons.injEq, hplus, hhash, false_and, or_false, and_false,
            ne_eq, not_false_eq_true, and_self, true_and]

/-- The loop over the topic decides the rules of its levels. -/
theorem wildcards_iff (text : List UInt8) (filter : Bool) :
    (List.range text.length).all (wildcardOk text text.length filter) = true ↔
      if filter then FilterLevels (text.splitOn 0x2f) else ∀ level ∈ text.splitOn 0x2f, PlainLevel level := by
  obtain ⟨level,levels,hsplit⟩ := List.exists_cons_of_ne_nil (List.splitOn_ne_nil (0x2f : UInt8) text)
  have hscan : (List.range text.length).all (wildcardOk text text.length filter) =
      wildcardScan filter true text := by
    rw [List.range_eq_range', range_wildcardOk filter text text.length 0 (Nat.zero_add _), List.drop_zero]
    rfl
  rw [hscan, (wildcardScan_iff filter hsplit).1, ← hsplit]
  cases filter with
  | false => exact levelsOk_name
  | true => exact levelsOk_filter

end Levels

theorem emqttTopicValid_iff (text : List UInt8) (filter : Bool) :
    emqttTopicValid (some text) text.length filter = true ↔ TopicGrammar text filter := by
  have hbounds : (text.length == 0 || decide (emqttTopicMax < text.length)) = false ↔
      1 ≤ text.length ∧ text.length ≤ emqttTopicMax := by
    rw [Bool.or_eq_false_iff, beq_eq_false_iff_ne, decide_eq_false_iff_not]
    omega
  rw [emqttTopicValid, Bool.and_eq_true, Bool.not_eq_true', Bool.or_eq_false_iff, hbounds, wildcards_iff,
    List.take_length, Bool.not_eq_false', utf8_iff]
  constructor
  · rintro ⟨⟨hlength,hencoded⟩,hlevels⟩
    exact ⟨hlength, hencoded, hlevels⟩
  · intro h
    exact ⟨⟨h.length, h.encoded⟩, h.levels⟩

/-- `emqtt_topic_valid` accepts exactly its grammar, whatever bytes lie behind the topic; and
when none do, it reads none. -/
theorem emqttTopicValid_grammar (text beyond : List UInt8) (filter : Bool) :
    ∃ valid : Bool, (valid = true ↔ TopicGrammar text filter) ∧
      emqttTopicValidAt (some text) text.length filter = some valid ∧
      emqttTopicValidAt (some (text ++ beyond)) text.length filter = some valid := by
  refine ⟨emqttTopicValid (some text) text.length filter, emqttTopicValid_iff text filter,
    emqttTopicValidAt_eq le_rfl filter, ?_⟩
  have hin : text.length ≤ (text ++ beyond).length := by
    rw [List.length_append]
    omega
  rw [emqttTopicValidAt_eq hin, emqttTopicValid_append]

end EspMqtt
