import Mathlib.Tactic

/-! Percent encoding of byte strings: an escape is a percent sign and two hexadecimal digits,
every other byte stands for itself. -/
namespace PercentEncoding

/-- The value of a hexadecimal digit. -/
def hexValue (ch : UInt8) : Option ℕ :=
  if 0x30 ≤ ch ∧ ch ≤ 0x39 then some (ch.toNat-0x30)
  else if 0x41 ≤ ch ∧ ch ≤ 0x46 then some (ch.toNat-0x37)
  else if 0x61 ≤ ch ∧ ch ≤ 0x66 then some (ch.toNat-0x57)
  else none

/-- The byte that an escape with these two digits stands for. -/
def escapedByte (a b : UInt8) : Option UInt8 :=
  (hexValue a).bind fun x => (hexValue b).map fun y => UInt8.ofNat (x*16+y)

/-- The reference decoding: escapes replaced, everything else copied; `none` if a percent sign that
is met on the way begins no escape. -/
def decode : List UInt8 → Option (List UInt8)
  | [] => some []
  | ch :: text =>
    if ch = 0x25 then
      match text with
      | a :: b :: rest => (escapedByte a b).bind fun byte => (decode rest).map (byte :: ·)
      | _ => none
    else (decode text).map (ch :: ·)

/-- `text` is a way to write `bytes`. -/
inductive Encodes : List UInt8 → List UInt8 → Prop
  | nil : Encodes [] []
  | copied {ch : UInt8} {text bytes : List UInt8} (hch : ch ≠ 0x25) (h : Encodes text bytes) :
      Encodes (ch :: text) (ch :: bytes)
  | escaped {a b byte : UInt8} {text bytes : List UInt8} (hbyte : escapedByte a b = some byte)
      (h : Encodes text bytes) : Encodes (0x25 :: a :: b :: text) (byte :: bytes)

/-- The scan from left to right meets a percent sign without two hexadecimal digits behind it. -/
inductive MeetsBadEscape : List UInt8 → Prop
  | here {text : List UInt8}
      (hbad : ¬∃ a b rest, text = a :: b :: rest ∧ (hexValue a).isSome ∧ (hexValue b).isSome) :
      MeetsBadEscape (0x25 :: text)
  | copied {ch : UInt8} {text : List UInt8} (hch : ch ≠ 0x25) (h : MeetsBadEscape text) :
      MeetsBadEscape (ch :: text)
  | escaped {a b : UInt8} {text : List UInt8} (ha : (hexValue a).isSome) (hb : (hexValue b).isSome)
      (h : MeetsBadEscape text) : MeetsBadEscape (0x25 :: a :: b :: text)

theorem escapedByte_isSome {a b : UInt8} :
    (escapedByte a b).isSome = true ↔ (hexValue a).isSome = true ∧ (hexValue b).isSome = true := by
  unfold escapedByte
  cases hexValue a <;> cases hexValue b <;> simp

theorem decode_copied {ch : UInt8} (hch : ch ≠ 0x25) (text : List UInt8) :
    decode (ch :: text) = (decode text).map (ch :: ·) := by
  rw [decode.eq_def]
  dsimp only
  rw [if_neg hch]

theorem decode_escaped (a b : UInt8) (rest : List UInt8) :
    decode (0x25 :: a :: b :: rest) =
      (escapedByte a b).bind fun byte => (decode rest).map (byte :: ·) := by
  rw [decode, if_pos rfl]

/-- A percent sign behind which the text is over, or nearly so. -/
theorem decode_short {text : List UInt8} (h : ¬∃ a b rest, text = a :: b :: rest) :
    decode (0x25 :: text) = none := by
  rw [decode.eq_def]
  dsimp only
  rw [if_pos rfl]
  split
  · exact absurd ⟨_, _, _, rfl⟩ h
  · rfl

theorem Encodes.decode {text bytes : List UInt8} (h : Encodes text bytes) : decode text = some bytes := by
  induction h with
  | nil => rw [PercentEncoding.decode]
  | copied hch _ ih => rw [decode_copied hch, ih, Option.map_some]
  | escaped hbyte _ ih => rw [decode_escaped, hbyte, ih, Option.bind_some, Option.map_some]

theorem MeetsBadEscape.decode {text : List UInt8} (h : MeetsBadEscape text) : decode text = none := by
  induction h with
  | @here text hbad =>
    by_cases hlong : ∃ a b rest, text = a :: b :: rest
    · obtain ⟨a,b,rest,rfl⟩ := hlong
      have hnone : escapedByte a b = none := by
        rw [← Option.not_isSome_iff_eq_none, escapedByte_isSome]
        exact fun hdigits => hbad ⟨a, b, rest, rfl, hdigits⟩
      rw [decode_escaped, hnone, Option.bind_none]
    · exact decode_short hlong
  | copied hch _ ih => rw [decode_copied hch, ih, Option.map_none]
  | @escaped a b text _ _ _ ih =>
    rw [decode_escaped, ih]
    cases escapedByte a b <;> rfl

/-- Either the whole text is an encoding, or the scan meets something that is none. -/
theorem encodes_or_bad (text : List UInt8) : (∃ bytes, Encodes text bytes) ∨ MeetsBadEscape text := by
  fun_induction PercentEncoding.decode text with
  | case1 => exact Or.inl ⟨[], .nil⟩
  | case2 a b rest ih =>
    cases hbyte : escapedByte a b with
    | none =>
      refine Or.inr (.here ?_)
      rintro ⟨a',b',rest',heq,hdigits⟩
      simp only [List.cons.injEq] at heq
      obtain ⟨rfl,rfl,-⟩ := heq
      rw [← escapedByte_isSome, hbyte] at hdigits
      exact Bool.noConfusion hdigits
    | some byte =>
      obtain ⟨ha,hb⟩ := escapedByte_isSome.mp (by rw [hbyte]; rfl)
      rcases ih with ⟨bytes,h⟩ | h
      · exact Or.inl ⟨_, .escaped hbyte h⟩
      · exact Or.inr (.escaped ha hb h)
  | case3 text hshort =>
    refine Or.inr (.here ?_)
    rintro ⟨a,b,rest,heq,-⟩
    exact hshort a b rest heq
  | case4 ch text hch ih =>
    rcases ih with ⟨bytes,h⟩ | h
    · exact Or.inl ⟨_, .copied hch h⟩
    · exact Or.inr (.copied hch h)

/-- Not both. -/
theorem Encodes.not_meetsBadEscape {text bytes : List UInt8} (h : Encodes text bytes) : ¬MeetsBadEscape text := by
  intro hbad
  have hnone := hbad.decode
  rw [h.decode] at hnone
  exact Option.some_ne_none _ hnone

/-- A text is never shorter than what it stands for. -/
theorem Encodes.length_le {text bytes : List UInt8} (h : Encodes text bytes) : bytes.length ≤ text.length := by
  induction h with
  | nil => exact le_rfl
  | copied hch _ ih => exact Nat.succ_le_succ ih
  | escaped hbyte _ ih =>
    simp only [List.length_cons]
    omega

end PercentEncoding
