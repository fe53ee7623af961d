import EspMqtt.BoundedRead
import EspMqtt.TopicValid

/-! `emqtt_topic_valid` and `utf8` with every read of the text checked: `none` is a read
outside the bytes there are. -/
namespace EspMqtt

open BoundedRead

/-- `while (extra--)` from position `i`; `some none` is `return false`. -/
def utf8ExtraAt (text : List UInt8) : ℕ → ℕ → ℕ → Option (Option (ℕ × ℕ))
  | 0, code, i => some (some (code, i))
  | extra+1, code, i =>
    text[i]?.bind fun byte =>
      if byte.toNat/64 = 2 then utf8ExtraAt text extra (code*64+byte.toNat % 64) (i+1) else some none

/-- `for (size_t at = 0; at < length;)`; a loop that outlasts its fuel is `none`. -/
def utf8LoopAt (text : List UInt8) (length : ℕ) : ℕ → ℕ → Option Bool
  | 0, i => if i < length then none else some true
  | fuel+1, i =>
    if i < length then
      text[i]?.bind fun first =>
        match utf8Lead first with
        | none => some false
        | some (code, extra, minimum) =>
          -- `extra > length - at`: a character cut off by the end is refused before its bytes are read
          if length-(i+1) < extra then some false
          else (utf8ExtraAt text extra code (i+1)).bind fun
            | none => some false
            | some (code, i) => if utf8CodeOk code minimum then utf8LoopAt text length fuel i else some false
    else some true

/-- `utf8`; every round takes at least one byte, so the length is enough fuel. -/
def utf8At (text : List UInt8) (length : ℕ) : Option Bool := utf8LoopAt text length length 0

/-- `text[i] == ch` -/
def readsAs (text : List UInt8) (i : ℕ) (ch : UInt8) : Option Bool := text[i]?.map (· == ch)

/-- `text[i] != ch` -/
def readsOther (text : List UInt8) (i : ℕ) (ch : UInt8) : Option Bool := text[i]?.map (· != ch)

/-- The body of the loop over the topic: `false` is `return false`. -/
def wildcardOkAt (topic : List UInt8) (length : ℕ) (filter : Bool) (i : ℕ) : Option Bool :=
  (Bool.not <$> (readsAs topic i 0x23 <&&> (some (!filter) <||> (some (i+1 != length) <||>
    (some (decide (0 < i)) <&&> readsOther topic (i-1) 0x2f))))) <&&>
  (Bool.not <$> (readsAs topic i 0x2b <&&> (some (!filter) <||>
    ((some (decide (0 < i)) <&&> readsOther topic (i-1) 0x2f) <||>
      (some (decide (i+1 < length)) <&&> readsOther topic (i+1) 0x2f)))))

/-- `emqtt_topic_valid` -/
def emqttTopicValidAt (topic : Option (List UInt8)) (length : ℕ) (filter : Bool) : Option Bool :=
  match topic with
  | none => some false
  | some topic =>
    (Bool.not <$> (some (length == 0) <||> (some (decide (emqttTopicMax < length)) <||>
      (Bool.not <$> utf8At topic length)))) <&&> forAll (wildcardOkAt topic length filter) length 0

section
variable {text : List UInt8} {length : ℕ}

/-- While the bytes it asks for are there, the loop over the continuation bytes reads nothing
but them. -/
theorem utf8ExtraAt_eq (hlength : length ≤ text.length) :
    ∀ (extra code i : ℕ), i+extra ≤ length →
      utf8ExtraAt text extra code i =
        some ((utf8Extra extra code ((text.take length).drop i)).map fun r => (r.1, i+extra)) ∧
      ∀ r, utf8Extra extra code ((text.take length).drop i) = some r →
        r.2 = (text.take length).drop (i+extra)
  | 0, code, i, _ => ⟨rfl, fun r hr => by rw [← Option.some.inj hr]; rfl⟩
  | extra+1, code, i, hi => by
    have hin : i < text.length := by omega
    have hread : text[i]? = some text[i] := List.getElem?_eq_getElem hin
    have hdrop : (text.take length).drop i = text[i] :: (text.take length).drop (i+1) := by
      rw [List.drop_eq_getElem_cons (by rw [List.length_take]; omega), List.getElem_take]
    have hnext : i+1+extra = i+(extra+1) := by omega
    have ih := utf8ExtraAt_eq hlength extra (code*64+text[i].toNat % 64) (i+1) (by omega)
    rw [hnext] at ih
    rw [utf8ExtraAt, hread, hdrop, utf8Extra, Option.bind_some]
    by_cases hbyte : text[i].toNat/64 = 2
    · rw [if_pos hbyte, if_pos hbyte]
      exact ih
    · rw [if_neg hbyte, if_neg hbyte]
      exact ⟨rfl, fun r hr => absurd hr (by simp)⟩

theorem utf8Extra_short : ∀ {extra code : ℕ} {rest : List UInt8}, rest.length < extra →
    utf8Extra extra code rest = none
  | _+1, _, [], _ => rfl
  | extra+1, code, b :: rest, h => by
    rw [utf8Extra]
    split
    · exact utf8Extra_short (by rw [List.length_cons] at h; omega)
    · rfl

/-- The loop reads the characters of the text and nothing else, and its fuel suffices. -/
theorem utf8LoopAt_eq (hlength : length ≤ text.length) :
    ∀ (fuel i : ℕ), length ≤ i+fuel →
      utf8LoopAt text length fuel i = some (utf8Loop fuel ((text.take length).drop i))
  | 0, i, hfuel => by
    have hend : (text.take length).drop i = [] := List.drop_eq_nil_of_le (by rw [List.length_take]; omega)
    rw [utf8LoopAt, if_neg (by omega), hend, utf8Loop]
  | fuel+1, i, hfuel => by
    by_cases hi : i < length
    · have hin : i < text.length := by omega
      have hread : text[i]? = some text[i] := List.getElem?_eq_getElem hin
      have hdrop : (text.take length).drop i = text[i] :: (text.take length).drop (i+1) := by
        rw [List.drop_eq_getElem_cons (by rw [List.length_take]; omega), List.getElem_take]
      rw [utf8LoopAt, if_pos hi, hread, hdrop, utf8Loop, Option.bind_some]
      cases hlead : utf8Lead text[i] with
      | none => rfl
      | some announced =>
        obtain ⟨code,extra,minimum⟩ := announced
        dsimp only
        by_cases hshort : length-(i+1) < extra
        · -- the character is cut off, and `utf8Extra` runs out of bytes as well
          rw [if_pos hshort, utf8Extra_short (by rw [List.length_drop, List.length_take]; omega)]
        · rw [if_neg hshort]
          have hextra := utf8ExtraAt_eq hlength extra code (i+1) (by omega)
          rw [hextra.1]
          cases hrest : utf8Extra extra code ((text.take length).drop (i+1)) with
          | none => rfl
          | some r =>
            have hloop := utf8LoopAt_eq hlength fuel (i+1+extra) (by omega)
            have hr := hextra.2 r hrest
            dsimp only [Option.map, Option.bind]
            rw [hloop, ← hr]
            cases utf8CodeOk r.1 minimum <;> rfl
    · have hend : (text.take length).drop i = [] := List.drop_eq_nil_of_le (by rw [List.length_take]; omega)
      rw [utf8LoopAt, if_neg hi, hend, utf8Loop]

theorem utf8At_eq (hlength : length ≤ text.length) : utf8At text length = some (utf8 (text.take length)) := by
  rw [utf8At, utf8LoopAt_eq hlength length 0 (by omega), List.drop_zero, utf8, List.length_take, min_eq_left hlength]

theorem readsAs_eq {i : ℕ} (hi : i < text.length) (ch : UInt8) :
    readsAs text i ch = some (text.getD i 0 == ch) := by
  rw [readsAs, List.getElem?_eq_getElem hi, List.getD_eq_getElem _ _ hi, Option.map_some]

theorem readsOther_eq {i : ℕ} (hi : i < text.length) (ch : UInt8) :
    readsOther text i ch = some (text.getD i 0 != ch) := by
  rw [readsOther, List.getElem?_eq_getElem hi, List.getD_eq_getElem _ _ hi, Option.map_some]

/-- The neighbours a character is compared with lie inside the topic. -/
theorem wildcardOkAt_eq (hlength : length ≤ text.length) (filter : Bool) {i : ℕ} (hi : i < length) :
    wildcardOkAt text length filter i = some (wildcardOk text length filter i) := by
  have hbefore : readsOther text (i-1) 0x2f = some (text.getD (i-1) 0 != 0x2f) := readsOther_eq (by omega) _
  have hafter : (some (decide (i+1 < length)) <&&> readsOther text (i+1) 0x2f) =
      some (decide (i+1 < length) && text.getD (i+1) 0 != 0x2f) := by
    rw [andM_some]
    by_cases hnext : i+1 < length
    · rw [if_pos (decide_eq_true hnext), readsOther_eq (by omega), decide_eq_true hnext, Bool.true_and]
    · rw [decide_eq_false hnext]
      rfl
  rw [wildcardOkAt, readsAs_eq (by omega), readsAs_eq (by omega), hbefore, hafter, wildcardOk]
  -- every read is now a plain value, and both sides are one function of these
  cases text.getD i 0 == 0x23 <;> cases text.getD i 0 == 0x2b <;> cases filter <;>
    cases i+1 != length <;> cases decide (0 < i) <;> cases text.getD (i-1) 0 != 0x2f <;> rfl

/-- On a topic that holds the bytes announced, no read leaves them. -/
theorem emqttTopicValidAt_eq (hlength : length ≤ text.length) (filter : Bool) :
    emqttTopicValidAt (some text) length filter = some (emqttTopicValid (some text) length filter) := by
  have hloop : forAll (wildcardOkAt text length filter) length 0 =
      some ((List.range length).all (wildcardOk text length filter)) :=
    forAll_zero fun i hi => wildcardOkAt_eq hlength filter hi
  rw [emqttTopicValidAt, emqttTopicValid, utf8At_eq hlength, hloop]
  cases length == 0 <;> cases decide (emqttTopicMax < length) <;> cases utf8 (text.take length) <;> rfl

end

theorem wildcardOk_append (text beyond : List UInt8) (filter : Bool) {i : ℕ} (hi : i < text.length) :
    wildcardOk (text ++ beyond) text.length filter i = wildcardOk text text.length filter i := by
  have hget {j : ℕ} (hj : j < text.length) : (text ++ beyond).getD j 0 = text.getD j 0 :=
    List.getD_append _ _ _ _ hj
  have hafter : (decide (i+1 < text.length) && (text ++ beyond).getD (i+1) 0 != 0x2f) =
      (decide (i+1 < text.length) && text.getD (i+1) 0 != 0x2f) := by
    by_cases hnext : i+1 < text.length
    · rw [hget hnext]
    · rw [decide_eq_false hnext, Bool.false_and, Bool.false_and]
  rw [wildcardOk, wildcardOk, hafter, hget hi, hget (j := i-1) (by omega)]

/-- What lies behind the topic does not matter. -/
theorem emqttTopicValid_append (text beyond : List UInt8) (filter : Bool) :
    emqttTopicValid (some (text ++ beyond)) text.length filter =
      emqttTopicValid (some text) text.length filter := by
  have hloop : (List.range text.length).all (wildcardOk (text ++ beyond) text.length filter) =
      (List.range text.length).all (wildcardOk text text.length filter) := by
    rw [Bool.eq_iff_iff, List.all_eq_true, List.all_eq_true]
    refine forall₂_congr fun i hi => ?_
    rw [wildcardOk_append text beyond filter (List.mem_range.mp hi)]
  rw [emqttTopicValid, emqttTopicValid, hloop, List.take_left, List.take_length]

end EspMqtt
