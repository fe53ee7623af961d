import Mathlib.Data.List.TakeWhile
import EspMqtt.BoundedRead
import EspMqtt.Library.PercentEncoding

/-! `esp_mqtt_decode_percent_encoded_string` of `mqtt_utils.c`, on the bytes it reads and
overwrites: `none` is an access outside them. -/
namespace EspMqtt
open BoundedRead
open PercentEncoding

/-- A C string.  With its terminator it is an object, and the size of one fits `ptrdiff_t`, an
`int`. -/
structure CString where
  text : List UInt8
  noNul : 0 ∉ text
  size : text.length+1 ≤ 2147483647

/-- The bytes of a string, its terminator the last. -/
def CString.memory (s : CString) : List UInt8 := s.text ++ [0]

/-- `strlen` -/
def strlenAt : List UInt8 → Option ℕ
  | [] => none
  | b :: bs => if b = 0 then some 0 else (strlenAt bs).map (·+1)

/-- `isxdigit` -/
def isxdigit (ch : UInt8) : Bool := (hexValue ch).isSome

/-- `isxdigit(uri[i])` -/
def isxdigitAt (uri : List UInt8) (i : ℕ) : Option Bool := uri[i]?.map isxdigit

/-- `strtol` to the base 16 on a text that begins with its digits. -/
def strtolHex (text : List UInt8) : ℕ :=
  (text.takeWhile isxdigit).foldl (fun n ch => n*16+(hexValue ch).getD 0) 0

/-- The loop at the head of a round: `write_ptr` is at `uri + writePtr`. -/
structure PercentScan where
  uri : List UInt8
  i : ℕ
  writePtr : ℕ

/-- `*write_ptr = byte` -/
def PercentScan.store (s : PercentScan) (byte : UInt8) : Option (List UInt8) :=
  if s.writePtr < s.uri.length then some (s.uri.set s.writePtr byte) else none

/-- One round of the loop, `i++` and `write_ptr++` included; `false` is `return -1`. -/
def percentRound (s : PercentScan) : Option (Bool × PercentScan) :=
  s.uri[s.i]?.bind fun ch =>
    if ch = 0x25 then
      (isxdigitAt s.uri (s.i+1) <&&> isxdigitAt s.uri (s.i+2)).bind fun legal =>
        if legal then
          s.uri[s.i+1]?.bind fun a => s.uri[s.i+2]?.bind fun b =>
            (s.store (UInt8.ofNat (strtolHex [a, b, 0]))).map fun uri =>
              (true, ⟨uri, s.i+2+1, s.writePtr+1⟩)
        else some (false, s)
    else (s.store ch).map fun uri => (true, ⟨uri, s.i+1, s.writePtr+1⟩)

/-- `for (intptr_t i = 0; i < uri_len; i++, write_ptr++)`; a loop that outlasts its fuel is
`none`. -/
def percentLoop (uriLen : ℕ) : ℕ → PercentScan → Option (Bool × PercentScan)
  | 0, s => if s.i < uriLen then none else some (true, s)
  | fuel+1, s =>
    if s.i < uriLen then
      (percentRound s).bind fun r => if r.1 then percentLoop uriLen fuel r.2 else some r
    else some (true, s)

/-- `esp_mqtt_decode_percent_encoded_string`, with what it leaves in the buffer; every round takes
at least one byte, so the length is enough fuel. -/
def espMqttDecodePercentEncodedString : Option (List UInt8) → Option (ℤ × List UInt8)
  | none => some (-1, [])
  | some uri =>
    (strlenAt uri).bind fun uriLen =>
      (percentLoop uriLen uriLen ⟨uri, 0, 0⟩).bind fun r =>
        if r.1 then (r.2.store 0).map fun uri => (Int.bmod r.2.writePtr (2^32), uri)
        else some (-1, r.2.uri)

/-- The states the loop goes through on these bytes. -/
inductive PercentScan.Reached (uri : List UInt8) : PercentScan → Prop
  | start : Reached uri ⟨uri, 0, 0⟩
  | round {s s' : PercentScan} {uriLen : ℕ} (h : Reached uri s) (hlen : strlenAt uri = some uriLen)
      (hi : s.i < uriLen) (hround : percentRound s = some (true, s')) : Reached uri s'

theorem strlenAt_eq : ∀ {text : List UInt8} (rest : List UInt8), 0 ∉ text →
    strlenAt (text ++ 0 :: rest) = some text.length
  | [], _, _ => rfl
  | b :: bs, rest, h => by
    have hb : b ≠ 0 := fun heq => h (heq ▸ List.mem_cons_self)
    have ih := strlenAt_eq rest fun hmem => h (List.mem_cons_of_mem b hmem)
    rw [List.cons_append, strlenAt, if_neg hb, ih, Option.map_some, List.length_cons]

/-- The two digits of an escape, as `strtol` reads them. -/
theorem strtolHex_escape {a b byte : UInt8} (h : escapedByte a b = some byte) :
    UInt8.ofNat (strtolHex [a, b, 0]) = byte := by
  obtain ⟨x,hx,h⟩ := Option.bind_eq_some_iff.mp h
  obtain ⟨y,hy,rfl⟩ := Option.map_eq_some_iff.mp h
  have ha : isxdigit a = true := by rw [isxdigit, hx]; rfl
  have hb : isxdigit b = true := by rw [isxdigit, hy]; rfl
  have hend : isxdigit 0 = false := by decide
  rw [strtolHex, List.takeWhile_cons_of_pos ha, List.takeWhile_cons_of_pos hb,
    List.takeWhile_cons_of_neg (by rw [hend]; decide), List.foldl_cons, List.foldl_cons, List.foldl_nil, hx, hy,
    Option.getD_some, Option.getD_some, Nat.zero_mul, Nat.zero_add]

/-- The loop is inside the text, writes no further than it has read, and what it still has to read
is as it was. -/
structure PercentScan.Ahead (text : List UInt8) (s : PercentScan) : Prop where
  inside : s.i ≤ text.length
  behind : s.writePtr ≤ s.i
  unread : s.uri.drop s.i = text.drop s.i ++ [0]

/-- The byte at a position is inside, and what follows it is behind. -/
theorem drop_cons {text rest : List UInt8} {i : ℕ} {ch : UInt8} (h : text.drop i = ch :: rest) :
    i < text.length ∧ text.drop (i+1) = rest := by
  constructor
  · by_contra hend
    rw [List.drop_eq_nil_of_le (Nat.not_lt.mp hend)] at h
    exact absurd h (by simp)
  · rw [← List.drop_drop, h]
    rfl

/-- The same behind an escape. -/
theorem drop_escape {text rest : List UInt8} {i : ℕ} {ch a b : UInt8} (h : text.drop i = ch :: a :: b :: rest) :
    i+2 < text.length ∧ text.drop (i+2+1) = rest := drop_cons (drop_cons (drop_cons h).2).2

namespace PercentScan.Ahead
variable {text : List UInt8} {s : PercentScan}

theorem length (h : s.Ahead text) : s.uri.length = text.length+1 := by
  have hlen := congrArg List.length h.unread
  rw [List.length_drop, List.length_append, List.length_drop, List.length_singleton] at hlen
  have hinside := h.inside
  omega

theorem store (h : s.Ahead text) (byte : UInt8) : s.store byte = some (s.uri.set s.writePtr byte) := by
  have hlen := h.length
  have hinside := h.inside
  have hbehind := h.behind
  rw [PercentScan.store, if_pos (by omega)]

/-- A byte stored where `write_ptr` is leaves everything ahead. -/
theorem next (h : s.Ahead text) (byte : UInt8) {j : ℕ} (hlow : s.i < j) (hhigh : j ≤ text.length) :
    PercentScan.Ahead text ⟨s.uri.set s.writePtr byte, j, s.writePtr+1⟩ := by
  have hbehind := h.behind
  refine ⟨hhigh, by dsimp only; omega, ?_⟩
  obtain ⟨k,rfl⟩ := Nat.exists_eq_add_of_le hlow.le
  dsimp only
  rw [List.drop_set_of_lt (by omega), ← List.drop_drop, h.unread,
    List.drop_append_of_le_length (by rw [List.length_drop]; omega), List.drop_drop]

theorem next_take (h : s.Ahead text) (byte : UInt8) :
    (s.uri.set s.writePtr byte).take (s.writePtr+1) = s.uri.take s.writePtr ++ [byte] := by
  have hlen := h.length
  have hinside := h.inside
  have hbehind := h.behind
  rw [List.take_succ_eq_append_getElem (by rw [List.length_set]; omega), List.getElem_set_self,
    List.take_set_of_le le_rfl]

/-- What is read at a position is what the text has there, or the terminator. -/
theorem read (h : s.Ahead text) {k : ℕ} : s.uri[s.i+k]? = (text.drop s.i ++ [0])[k]? := by
  rw [← h.unread, List.getElem?_drop]

/-- A byte that is no percent sign is copied. -/
theorem round_copied (h : s.Ahead text) {ch : UInt8} {rest : List UInt8} (hrest : text.drop s.i = ch :: rest)
    (hch : ch ≠ 0x25) :
    percentRound s = some (true, ⟨s.uri.set s.writePtr ch, s.i+1, s.writePtr+1⟩) := by
  have hread := h.read (k := 0)
  rw [hrest, Nat.add_zero] at hread
  rw [percentRound, hread, List.cons_append, List.getElem?_cons_zero, Option.bind_some, if_neg hch, h.store,
    Option.map_some]

/-- An escape is replaced by its byte. -/
theorem round_escaped (h : s.Ahead text) {a b byte : UInt8} {rest : List UInt8}
    (hrest : text.drop s.i = 0x25 :: a :: b :: rest) (hbyte : escapedByte a b = some byte) :
    percentRound s = some (true, ⟨s.uri.set s.writePtr byte, s.i+2+1, s.writePtr+1⟩) := by
  have hread₀ : s.uri[s.i]? = some 0x25 := by rw [← Nat.add_zero s.i, h.read, hrest]; rfl
  have hread₁ : s.uri[s.i+1]? = some a := by rw [h.read, hrest]; rfl
  have hread₂ : s.uri[s.i+2]? = some b := by rw [h.read, hrest]; rfl
  obtain ⟨ha,hb⟩ := escapedByte_isSome.mp (by rw [hbyte]; rfl)
  have hlegal : (isxdigitAt s.uri (s.i+1) <&&> isxdigitAt s.uri (s.i+2)) = some true := by
    rw [isxdigitAt, isxdigitAt, hread₁, hread₂, Option.map_some, Option.map_some, andM_read, isxdigit, isxdigit,
      ha, hb]
    rfl
  rw [percentRound, hread₀, Option.bind_some, if_pos rfl, hlegal, Option.bind_some, if_pos rfl, hread₁, hread₂,
    Option.bind_some, Option.bind_some, strtolHex_escape hbyte, h.store, Option.map_some]

/-- Anything else behind a percent sign is refused.  The terminator is no digit, so the second
digit is looked for only where the first one is. -/
theorem round_illegal (h : s.Ahead text) {rest : List UInt8} (hrest : text.drop s.i = 0x25 :: rest)
    (hbad : ¬∃ a b rest', rest = a :: b :: rest' ∧ (hexValue a).isSome ∧ (hexValue b).isSome) :
    percentRound s = some (false, s) := by
  have hread₀ : s.uri[s.i]? = some 0x25 := by rw [← Nat.add_zero s.i, h.read, hrest]; rfl
  have hread₁ : s.uri[s.i+1]? = (rest ++ [0])[0]? := by rw [h.read, hrest]; rfl
  have hread₂ : s.uri[s.i+2]? = (rest ++ [0])[1]? := by rw [h.read, hrest]; rfl
  have hend : isxdigit 0 = false := by decide
  have hlegal : (isxdigitAt s.uri (s.i+1) <&&> isxdigitAt s.uri (s.i+2)) = some false := by
    rw [isxdigitAt, isxdigitAt, hread₁, hread₂]
    cases rest with
    | nil =>
      rw [List.nil_append, List.getElem?_cons_zero, Option.map_some, hend, andM_some]
      rfl
    | cons a rest =>
      rw [List.cons_append, List.getElem?_cons_zero, List.getElem?_cons_succ, Option.map_some, andM_some]
      cases ha : isxdigit a with
      | false => rfl
      | true =>
        rw [if_pos rfl]
        cases rest with
        | nil => rw [List.nil_append, List.getElem?_cons_zero, Option.map_some, hend]
        | cons b rest =>
          rw [List.cons_append, List.getElem?_cons_zero, Option.map_some]
          -- were it a digit, this would be an escape
          have hb : isxdigit b = false :=
            Bool.eq_false_of_not_eq_true fun hb => hbad ⟨a, b, rest, rfl, ha, hb⟩
          rw [hb]
  rw [percentRound, hread₀, Option.bind_some, if_pos rfl, hlegal, Option.bind_some, if_neg Bool.false_ne_true]

/-- What a round that goes on may do. -/
theorem round_next (h : s.Ahead text) (hi : s.i < text.length) {s' : PercentScan}
    (hround : percentRound s = some (true, s')) : s'.Ahead text := by
  obtain ⟨ch,rest,hrest⟩ := List.exists_cons_of_ne_nil fun hnil => absurd (List.drop_eq_nil_iff.mp hnil) (not_le.mpr hi)
  by_cases hch : ch = 0x25
  · subst hch
    by_cases hbad : ∃ a b rest', rest = a :: b :: rest' ∧ (hexValue a).isSome ∧ (hexValue b).isSome
    · obtain ⟨a,b,rest',rfl,ha,hb⟩ := hbad
      obtain ⟨byte,hbyte⟩ := Option.isSome_iff_exists.mp (escapedByte_isSome.mpr ⟨ha, hb⟩)
      rw [h.round_escaped hrest hbyte] at hround
      obtain rfl := (Prod.mk.inj (Option.some.inj hround)).2
      exact h.next byte (by omega) (drop_escape hrest).1
    · rw [h.round_illegal hrest hbad] at hround
      exact Bool.noConfusion (Prod.mk.inj (Option.some.inj hround)).1
  · rw [h.round_copied hrest hch] at hround
    obtain rfl := (Prod.mk.inj (Option.some.inj hround)).2
    exact h.next ch (Nat.lt_succ_self _) hi

end PercentScan.Ahead

section Loop
variable {text rest bytes : List UInt8}

theorem percentScan_start (text : List UInt8) : PercentScan.Ahead text ⟨text ++ [0], 0, 0⟩ :=
  ⟨Nat.zero_le _, le_rfl, rfl⟩

/-- The loop is ahead in every state it goes through. -/
theorem PercentScan.Reached.ahead (hnul : 0 ∉ text) {s : PercentScan} (h : s.Reached (text ++ [0])) :
    s.Ahead text := by
  induction h with
  | start => exact percentScan_start text
  | round _ hlen hi hround ih =>
    rw [strlenAt_eq [] hnul] at hlen
    obtain rfl := Option.some.inj hlen
    exact ih.round_next hi hround

theorem percentLoop_next {uriLen fuel : ℕ} {s s' : PercentScan} (hi : s.i < uriLen)
    (hround : percentRound s = some (true, s')) :
    percentLoop uriLen (fuel+1) s = percentLoop uriLen fuel s' := by
  rw [percentLoop, if_pos hi, hround, Option.bind_some, if_pos rfl]

/-- What the loop leaves of an encoding it has still to read. -/
theorem percentLoop_encodes (henc : Encodes rest bytes) : ∀ (fuel : ℕ) {s : PercentScan}, s.Ahead text →
    text.drop s.i = rest → text.length ≤ s.i+fuel →
      ∃ u, percentLoop text.length fuel s = some (true, u) ∧ u.Ahead text ∧
        u.writePtr = s.writePtr+bytes.length ∧ u.uri.take u.writePtr = s.uri.take s.writePtr ++ bytes := by
  induction henc with
  | nil =>
    intro fuel s h hrest _
    have hend := List.drop_eq_nil_iff.mp hrest
    refine ⟨s, ?_, h, rfl, (List.append_nil _).symm⟩
    cases fuel with
    | zero => rw [percentLoop, if_neg (not_lt.mpr hend)]
    | succ fuel => rw [percentLoop, if_neg (not_lt.mpr hend)]
  | @copied ch text' bytes hch _ ih =>
    intro fuel s h hrest hfuel
    obtain ⟨hi,hdrop⟩ := drop_cons hrest
    obtain ⟨fuel,rfl⟩ : ∃ n, fuel = n+1 := ⟨fuel-1, by omega⟩
    have hnext := h.next ch (Nat.lt_succ_self _) hi
    obtain ⟨u,hloop,hu,hwrite,htake⟩ := ih fuel hnext hdrop (by dsimp only; omega)
    refine ⟨u, ?_, hu, ?_, ?_⟩
    · rw [percentLoop_next hi (h.round_copied hrest hch), hloop]
    · rw [hwrite, List.length_cons, Nat.add_assoc, Nat.add_comm 1]
    · rw [htake, h.next_take, List.append_assoc]
      rfl
  | @escaped a b byte text' bytes hbyte _ ih =>
    intro fuel s h hrest hfuel
    obtain ⟨hroom,hdrop⟩ := drop_escape hrest
    have hi : s.i < text.length := (drop_cons hrest).1
    obtain ⟨fuel,rfl⟩ : ∃ n, fuel = n+1 := ⟨fuel-1, by omega⟩
    have hnext := h.next byte (j := s.i+2+1) (by omega) hroom
    obtain ⟨u,hloop,hu,hwrite,htake⟩ := ih fuel hnext hdrop (by dsimp only; omega)
    refine ⟨u, ?_, hu, ?_, ?_⟩
    · rw [percentLoop_next hi (h.round_escaped hrest hbyte), hloop]
    · rw [hwrite, List.length_cons, Nat.add_assoc, Nat.add_comm 1]
    · rw [htake, h.next_take, List.append_assoc]
      rfl

/-- The loop gives up where the scan meets no escape. -/
theorem percentLoop_bad (hbad : MeetsBadEscape rest) : ∀ (fuel : ℕ) {s : PercentScan}, s.Ahead text →
    text.drop s.i = rest → text.length ≤ s.i+fuel →
      ∃ u, percentLoop text.length fuel s = some (false, u) := by
  induction hbad with
  | here hillegal =>
    intro fuel s h hrest hfuel
    have hi := (drop_cons hrest).1
    obtain ⟨fuel,rfl⟩ : ∃ n, fuel = n+1 := ⟨fuel-1, by omega⟩
    refine ⟨s, ?_⟩
    rw [percentLoop, if_pos hi, h.round_illegal hrest hillegal, Option.bind_some,
      if_neg Bool.false_ne_true]
  | @copied ch text' hch _ ih =>
    intro fuel s h hrest hfuel
    obtain ⟨hi,hdrop⟩ := drop_cons hrest
    obtain ⟨fuel,rfl⟩ : ∃ n, fuel = n+1 := ⟨fuel-1, by omega⟩
    obtain ⟨u,hloop⟩ := ih fuel (h.next ch (Nat.lt_succ_self _) hi) hdrop (by dsimp only; omega)
    exact ⟨u, by rw [percentLoop_next hi (h.round_copied hrest hch), hloop]⟩
  | @escaped a b text' ha hb _ ih =>
    intro fuel s h hrest hfuel
    obtain ⟨hroom,hdrop⟩ := drop_escape hrest
    have hi : s.i < text.length := (drop_cons hrest).1
    obtain ⟨fuel,rfl⟩ : ∃ n, fuel = n+1 := ⟨fuel-1, by omega⟩
    obtain ⟨byte,hbyte⟩ := Option.isSome_iff_exists.mp (escapedByte_isSome.mpr ⟨ha, hb⟩)
    obtain ⟨u,hloop⟩ := ih fuel (h.next byte (j := s.i+2+1) (by omega) hroom) hdrop (by dsimp only; omega)
    exact ⟨u, by rw [percentLoop_next hi (h.round_escaped hrest hbyte), hloop]⟩

end Loop

namespace CString
variable (s : CString)

theorem strlen_memory : strlenAt s.memory = some s.text.length := strlenAt_eq [] s.noNul

/-- An encoding is decoded where it stands. -/
theorem decode_encodes {bytes : List UInt8} (henc : Encodes s.text bytes) :
    ∃ buffer, espMqttDecodePercentEncodedString (some s.memory) = some ((bytes.length : ℤ), buffer) ∧
      bytes ++ [0] <+: buffer := by
  obtain ⟨u,hloop,hu,hwrite,htake⟩ :=
    percentLoop_encodes henc s.text.length (percentScan_start s.text) rfl (Nat.le_add_left _ _)
  have hle := henc.length_le
  have hsize := s.size
  dsimp only at hwrite htake
  rw [Nat.zero_add] at hwrite
  rw [List.take_zero, List.nil_append] at htake
  have hwritten : (u.uri.set u.writePtr 0).take (u.writePtr+1) = bytes ++ [0] := by rw [hu.next_take, htake]
  refine ⟨u.uri.set u.writePtr 0, ?_, ?_⟩
  · rw [espMqttDecodePercentEncodedString, s.strlen_memory, Option.bind_some]
    -- the bound of the loop is the length before it
    change (percentLoop s.text.length s.text.length ⟨s.text ++ [0], 0, 0⟩).bind _ = _
    rw [hloop, Option.bind_some, if_pos rfl, hu.store, Option.map_some, hwrite]
    -- the cast to `int` loses nothing
    rw [Int.bmod_eq_of_le (by omega) (by omega)]
  · rw [← hwritten]
    exact List.take_prefix _ _

theorem decode_bad (hbad : MeetsBadEscape s.text) :
    ∃ buffer, espMqttDecodePercentEncodedString (some s.memory) = some (-1, buffer) := by
  obtain ⟨u,hloop⟩ :=
    percentLoop_bad hbad s.text.length (percentScan_start s.text) rfl (Nat.le_add_left _ _)
  refine ⟨u.uri, ?_⟩
  rw [espMqttDecodePercentEncodedString, s.strlen_memory, Option.bind_some]
  change (percentLoop s.text.length s.text.length ⟨s.text ++ [0], 0, 0⟩).bind _ = _
  rw [hloop, Option.bind_some, if_neg Bool.false_ne_true]

end CString

/-- As a C string, what is in the buffer ends with the first NUL. -/
theorem takeWhile_terminated {bytes buffer : List UInt8} (h : bytes ++ [0] <+: buffer) :
    buffer.takeWhile (· ≠ 0) = bytes.takeWhile (· ≠ 0) := by
  obtain ⟨rest,rfl⟩ := h
  induction bytes with
  | nil => rfl
  | cons b bytes ih =>
    rw [List.cons_append, List.cons_append, List.takeWhile_cons, List.takeWhile_cons, ih]

theorem takeWhile_noNul {bytes : List UInt8} : bytes.takeWhile (· ≠ 0) = bytes ↔ 0 ∉ bytes := by
  rw [List.takeWhile_eq_self_iff]
  exact ⟨fun h hmem => absurd (h 0 hmem) (by decide), fun h b hb => decide_eq_true fun heq => h (heq ▸ hb)⟩

/-- `esp_mqtt_decode_percent_encoded_string` on any string, with every access inside the string and
its terminator: it returns -1 exactly where the scan meets a bad escape, and leaves the reference
decoding otherwise, which gives back what was encoded.  All along it writes no further than it has
read, and what it has still to read is as it was. -/
theorem percent_decoding_in_place (s : CString) :
    (∃ n buffer, espMqttDecodePercentEncodedString (some s.memory) = some (n, buffer) ∧
      (n = -1 ↔ MeetsBadEscape s.text) ∧
      (n ≠ -1 → ∃ bytes, decode s.text = some bytes ∧ n = bytes.length ∧ bytes ++ [0] <+: buffer) ∧
      ∀ bytes, 0 ∉ bytes → Encodes s.text bytes →
        n = bytes.length ∧ buffer.takeWhile (· ≠ 0) = bytes) ∧
    ∀ scan : PercentScan, scan.Reached s.memory → scan.Ahead s.text := by
  refine ⟨?_, fun scan hscan => hscan.ahead s.noNul⟩
  -- every text is an encoding, or the scan meets a bad escape
  rcases encodes_or_bad s.text with ⟨bytes,henc⟩ | hbad
  · obtain ⟨buffer,hcall,hbegins⟩ := s.decode_encodes henc
    refine ⟨_, buffer, hcall, iff_of_false (by omega) henc.not_meetsBadEscape, fun _ => ?_, fun bytes' hnul henc' => ?_⟩
    · exact ⟨bytes, henc.decode, rfl, hbegins⟩
    · have hsame := henc.decode
      rw [henc'.decode] at hsame
      obtain rfl := Option.some.inj hsame
      exact ⟨rfl, (takeWhile_terminated hbegins).trans (takeWhile_noNul.mpr hnul)⟩
  · obtain ⟨buffer,hcall⟩ := s.decode_bad hbad
    refine ⟨-1, buffer, hcall, iff_of_true rfl hbad, fun hne => absurd rfl hne, fun bytes _ henc => ?_⟩
    exact absurd hbad henc.not_meetsBadEscape

/-- "p%40s" becomes "p@s". -/
example : espMqttDecodePercentEncodedString (some [0x70, 0x25, 0x34, 0x30, 0x73, 0]) =
    some (3, [0x70, 0x40, 0x73, 0, 0x73, 0]) := by decide +kernel

end EspMqtt
