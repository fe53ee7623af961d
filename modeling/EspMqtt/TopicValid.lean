import Mathlib.Data.List.Basic
import Mathlib.Data.List.GetD
import Mathlib.Tactic

/-! Topic names and topic filters: `emqtt_topic_valid` and the UTF-8 check it
rests on (`emqtt_contract.c`). -/
namespace EspMqtt

def emqttTopicMax : ℕ := 256

/-- What the first byte of a character announces: its code bits, how many bytes
follow and the least code that needs that many. -/
def utf8Lead (first : UInt8) : Option (ℕ × ℕ × ℕ) :=
  let b := first.toNat
  if 0xc2 ≤ b ∧ b ≤ 0xdf then some (b % 32, 1, 0x80)
  else if 0xe0 ≤ b ∧ b ≤ 0xef then some (b % 16, 2, 0x800)
  else if 0xf0 ≤ b ∧ b ≤ 0xf4 then some (b % 8, 3, 0x10000)
  -- a continuation byte, or one that would begin an overlong form or a code past the last
  else if 0x80 ≤ b then none
  else some (b, 0, 0)

/-- The `while (extra--)` loop over the bytes that follow. -/
def utf8Extra : ℕ → ℕ → List UInt8 → Option (ℕ × List UInt8)
  | 0, code, text => some (code, text)
  | _+1, _, [] => none
  | extra+1, code, b :: text =>
    if b.toNat/64 = 2 then utf8Extra extra (code*64+b.toNat % 64) text else none

/-- The codes a topic may not contain, beyond those too small for their length. -/
def utf8CodeOk (code minimum : ℕ) : Bool :=
  -- overlong forms and surrogates, then controls, then noncharacters
  !(code < minimum || 0x10ffff < code || (0xd800 ≤ code && code ≤ 0xdfff) ||
    code < 0x20 || (0x7f ≤ code && code ≤ 0x9f) ||
    (0xfdd0 ≤ code && code ≤ 0xfdef) || 0xfffe ≤ code % 0x10000)

/-- `utf8`; every round takes at least one byte, so the length is enough fuel. -/
def utf8Loop : ℕ → List UInt8 → Bool
  | _, [] => true
  | 0, _ :: _ => false
  | fuel+1, first :: text =>
    match utf8Lead first with
    | none => false
    | some (code, extra, minimum) =>
      match utf8Extra extra code text with
      | none => false
      | some (code, text) => utf8CodeOk code minimum && utf8Loop fuel text

def utf8 (text : List UInt8) : Bool := utf8Loop text.length text

/-- The wildcard rules at position `i`: `#` only as the last level, `+` only as
a whole level, neither in a topic name. -/
def wildcardOk (topic : List UInt8) (length : ℕ) (filter : Bool) (i : ℕ) : Bool :=
  !(topic.getD i 0 == 0x23 &&
      (!filter || i+1 != length || (decide (0 < i) && topic.getD (i-1) 0 != 0x2f))) &&
  !(topic.getD i 0 == 0x2b &&
      (!filter || (decide (0 < i) && topic.getD (i-1) 0 != 0x2f) ||
        (decide (i+1 < length) && topic.getD (i+1) 0 != 0x2f)))

/-- `emqtt_topic_valid` on the first `length` bytes at `topic`. -/
def emqttTopicValid (topic : Option (List UInt8)) (length : ℕ) (filter : Bool) : Bool :=
  match topic with
  | none => false
  | some topic =>
    !(length == 0 || decide (emqttTopicMax < length) || !utf8 (topic.take length)) &&
      (List.range length).all (wildcardOk topic length filter)

theorem emqttTopicValid_length {topic : Option (List UInt8)} {length : ℕ} {filter : Bool}
    (h : emqttTopicValid topic length filter = true) : 1 ≤ length ∧ length ≤ emqttTopicMax := by
  cases topic with
  | none => simp [emqttTopicValid] at h
  | some topic =>
    simp only [emqttTopicValid, Bool.and_eq_true, Bool.not_eq_true', Bool.or_eq_false_iff,
      beq_eq_false_iff_ne, decide_eq_false_iff_not] at h
    omega

end EspMqtt
