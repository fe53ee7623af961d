import EspMqtt.Config
import EspMqtt.TopicReads

/-! `emqtt_config_valid` with every read of a field checked: `none` is a read past the end of
an array. -/
namespace EspMqtt

open BoundedRead

namespace CharArray
variable {n : ℕ}

/-- `bounded_length` -/
def boundedLengthLoop (text : List UInt8) : ℕ → ℕ → Option ℕ
  | 0, length => some length
  | capacity+1, length =>
    text[length]?.bind fun ch =>
      if ch = 0 then some length else boundedLengthLoop text capacity (length+1)

def boundedLength (a : CharArray n) : Option ℕ := boundedLengthLoop a.bytes n 0

/-- What a C library function takes for the string in an array.  It reads up to the first
zero, and past the end when there is none. -/
def cString (a : CharArray n) : Option (List UInt8) := if a.unterminated then none else some a.text

theorem boundedLengthLoop_eq (text : List UInt8) : ∀ (capacity length : ℕ),
    length+capacity = text.length →
      boundedLengthLoop text capacity length = some (length + ((text.drop length).takeWhile (· ≠ 0)).length)
  | 0, length, h => by
    rw [boundedLengthLoop, List.drop_eq_nil_of_le (by omega)]
    rfl
  | capacity+1, length, h => by
    have hin : length < text.length := by omega
    have ih := boundedLengthLoop_eq text capacity (length+1) (by omega)
    rw [boundedLengthLoop, List.getElem?_eq_getElem hin, List.drop_eq_getElem_cons hin, Option.bind_some,
      List.takeWhile_cons]
    by_cases hzero : text[length] = 0
    · rw [if_pos hzero, if_neg (by simpa using hzero)]
      rfl
    · rw [if_neg hzero, if_pos (by simpa using hzero), ih, List.length_cons]
      congr 1
      omega

theorem boundedLength_eq (a : CharArray n) : a.boundedLength = some a.text.length := by
  rw [boundedLength, boundedLengthLoop_eq a.bytes n 0 (by rw [a.size, Nat.zero_add]), List.drop_zero, Nat.zero_add]
  rfl

theorem take_text (a : CharArray n) : a.bytes.take a.text.length = a.text :=
  (List.prefix_iff_eq_take.mp (List.takeWhile_prefix _)).symm

theorem utf8At_text (a : CharArray n) : utf8At a.bytes a.text.length = some (utf8 a.text) := by
  rw [utf8At_eq (a.text_length_le.trans_eq a.size.symm), take_text]

theorem topicValidAt_text (a : CharArray n) (filter : Bool) :
    emqttTopicValidAt (some a.bytes) a.text.length filter =
      some (emqttTopicValid (some a.text) a.text.length filter) := by
  have hsplit : a.bytes = a.text ++ a.bytes.drop a.text.length := by
    conv_lhs => rw [← List.take_append_drop a.text.length a.bytes, take_text]
  rw [emqttTopicValidAt_eq (a.text_length_le.trans_eq a.size.symm), hsplit, emqttTopicValid_append]

end CharArray

/-- `strstr(field, needle)`, as a condition. -/
def strstrAt {n : ℕ} (field : CharArray n) (needle : List UInt8) : Option Bool :=
  field.cString.map fun text => strstr text needle

/-- `!strcmp(a, b)` -/
def strcmpEqual {n m : ℕ} (a : CharArray n) (b : CharArray m) : Option Bool :=
  a.cString.bind fun x => b.cString.map fun y => x == y

/-- The loop over the host name from position `i`; `label` counts the characters of the
current label. -/
def hostLoopAt (hostname : List UInt8) (hostLen : ℕ) : ℕ → ℕ → ℕ → Option Bool
  | 0, _, _ => some true
  | n+1, i, label =>
    hostname[i]?.bind fun ch =>
      if ch = 0x2e then
        -- the character before is read only once `label` says that there is one
        (some (label == 0) <||> (readsAs hostname (i-1) 0x2d <||> some (i+1 == hostLen))).bind fun bad =>
          if bad then some false else hostLoopAt hostname hostLen n (i+1) 0
      else if hostCharOk ch label = false then some false
      else if 63 < label+1 ∨ (i+1 = hostLen ∧ ch = 0x2d) then some false
      else hostLoopAt hostname hostLen n (i+1) (label+1)

/-- One round of the loop over the subscriptions. -/
def entryOkAt (entries : List SubscriptionEntry) (i : ℕ) : Option Bool :=
  entries[i]?.bind fun sub =>
    (Bool.not <$> (some (decide (1 < sub.qos)) <||> (Bool.not <$> sub.topic.boundedLength.bind fun length =>
      emqttTopicValidAt (some sub.topic.bytes) length true))) <&&>
    -- `strcmp` needs both topics to end, which the check above has settled for each of them
    forAll (fun j => entries[j]?.bind fun other => Bool.not <$> strcmpEqual sub.topic other.topic) i 0

/-- `emqtt_config_valid` -/
def emqttConfigValidAt (c : EmqttConfig) (allowPlaintextLab : Bool) : Option Bool :=
  some (!(c.port == 0 || (!c.tls && !allowPlaintextLab) ||
    decide (emqttSubscriptionsMax < c.subscriptionCount) || decide (1 < c.willQos) ||
      decide (512 < c.willLength))) <&&>
  (c.hostname.boundedLength.bind fun hostLen =>
    some (!(hostLen == 0 || hostLen == 254)) <&&> hostLoopAt c.hostname.bytes hostLen hostLen 0 0) <&&>
  (c.clientId.boundedLength.bind fun clientIdLen =>
    Bool.not <$> (some (clientIdLen == 0) <||> (some (clientIdLen == 129) <||>
      Bool.not <$> utf8At c.clientId.bytes clientIdLen))) <&&>
  (c.username.boundedLength.bind fun userLen => c.password.boundedLength.bind fun passwordLen =>
    Bool.not <$> (some (userLen == 129) <||> (some (passwordLen == 257) <||>
      ((Bool.not <$> utf8At c.username.bytes userLen) <||>
        ((Bool.not <$> utf8At c.password.bytes passwordLen) <||>
          some (userLen == 0 && passwordLen != 0)))))) <&&>
  (c.caPem.boundedLength.bind fun certLen =>
    Bool.not <$> (some (certLen == 4097) <||>
      ((some c.tls <&&> (some (certLen == 0) <||> ((Bool.not <$> strstrAt c.caPem beginCertificate) <||>
        (Bool.not <$> strstrAt c.caPem endCertificate)))) <||> some (!c.tls && certLen != 0)))) <&&>
  (c.willTopic.boundedLength.bind fun willLen => emqttTopicValidAt (some c.willTopic.bytes) willLen false) <&&>
  forAll (entryOkAt c.entries) c.subscriptionCount 0

/-- The loop over a host name reads the name and nothing else: the character before a dot is
asked for only when there is one. -/
theorem hostLoopAt_eq {hostname : List UInt8} {hostLen : ℕ} (hlen : hostLen ≤ hostname.length) :
    ∀ (n i label : ℕ), i+n = hostLen → (i = 0 → label = 0) →
      hostLoopAt hostname hostLen n i label =
        some (hostLoop ((hostname.take hostLen).drop i) (hostname.getD (i-1) 0) label)
  | 0, i, label, hi, _ => by
    rw [hostLoopAt, List.drop_eq_nil_of_le (by rw [List.length_take]; omega), hostLoop]
  | n+1, i, label, hi, hfirst => by
    have hin : i < hostname.length := by omega
    have hdrop : (hostname.take hostLen).drop i = hostname[i] :: (hostname.take hostLen).drop (i+1) := by
      rw [List.drop_eq_getElem_cons (by rw [List.length_take]; omega), List.getElem_take]
    have hlast : (hostname.take hostLen).drop (i+1) = [] ↔ i+1 = hostLen := by
      rw [List.drop_eq_nil_iff, List.length_take]
      omega
    have hbefore : hostname.getD (i+1-1) 0 = hostname[i] := List.getD_eq_getElem _ _ hin
    have hdot := hostLoopAt_eq hlen n (i+1) 0 (by omega) (by omega)
    have hchar := hostLoopAt_eq hlen n (i+1) (label+1) (by omega) (by omega)
    rw [hbefore] at hdot hchar
    rw [hostLoopAt, List.getElem?_eq_getElem hin, hdrop, Option.bind_some, hostLoop]
    by_cases hch : hostname[i] = 0x2e
    · -- both sides ask the three questions of a dot in the same order
      rw [if_pos hch, if_pos hch, readsAs_eq (by omega), orM_some, orM_some]
      by_cases hlabel : label = 0
      · rw [if_pos (beq_iff_eq.mpr hlabel), Option.bind_some, if_pos rfl, if_pos (Or.inl hlabel)]
      · rw [if_neg (by simpa using hlabel)]
        by_cases hhyphen : hostname.getD (i-1) 0 = 0x2d
        · rw [if_pos (beq_iff_eq.mpr hhyphen), Option.bind_some, if_pos rfl, if_pos (Or.inr (Or.inl hhyphen))]
        · rw [if_neg (by simpa using hhyphen), Option.bind_some]
          by_cases hend : i+1 = hostLen
          · rw [if_pos (beq_iff_eq.mpr hend), if_pos (Or.inr (Or.inr (hlast.mpr hend)))]
          · rw [if_neg (by simpa using hend), if_neg (by rw [hlast]; exact not_or.mpr ⟨hlabel, not_or.mpr ⟨hhyphen, hend⟩⟩), hdot]
    · rw [if_neg hch, if_neg hch]
      simp only [hlast, hchar]
      split
      · rfl
      · split <;> rfl

/-- `strcmp` on two strings that both end inside their arrays. -/
theorem strcmpEqual_eq {n m : ℕ} {a : CharArray n} {b : CharArray m} (ha : a.unterminated = false)
    (hb : b.unterminated = false) : strcmpEqual a b = some (a.text == b.text) := by
  rw [strcmpEqual, CharArray.cString, CharArray.cString, ha, hb]
  rfl

theorem strstrAt_eq {n : ℕ} {field : CharArray n} (h : field.unterminated = false) (needle : List UInt8) :
    strstrAt field needle = some (strstr field.text needle) := by
  rw [strstrAt, CharArray.cString, h]
  rfl

/-- A valid topic ends inside its array. -/
theorem topic_terminated {a : CharArray 257} {filter : Bool}
    (h : emqttTopicValid (some a.text) a.text.length filter = true) : a.unterminated = false := by
  have hlength := (emqttTopicValid_length h).2
  exact beq_eq_false_iff_ne.mpr (by rw [emqttTopicMax] at hlength; omega)

/-- What one round of the loop over the subscriptions asks for. -/
def entryOk (entries : List SubscriptionEntry) (i : ℕ) : Bool :=
  (entries[i]?).any fun sub =>
    decide (sub.qos ≤ 1) && emqttTopicValid (some sub.topic.text) sub.topic.text.length true &&
      (List.range i).all fun j => (entries[j]?).any fun other => sub.topic.text != other.topic.text

/-- Once the filters before it are valid, a round compares only strings that end. -/
theorem entryOkAt_eq {entries : List SubscriptionEntry} {i : ℕ} (hi : i < entries.length)
    (hearlier : ∀ j < i, entryOk entries j = true) : entryOkAt entries i = some (entryOk entries i) := by
  have hread : entries[i]? = some entries[i] := List.getElem?_eq_getElem hi
  rw [entryOkAt, entryOk, hread, Option.bind_some, Option.any_some, CharArray.boundedLength_eq, Option.bind_some,
    CharArray.topicValidAt_text]
  by_cases hqos : 1 < entries[i].qos
  · rw [decide_eq_true hqos, decide_eq_false (by omega)]
    rfl
  · rw [decide_eq_false hqos, decide_eq_true (by omega)]
    cases htopic : emqttTopicValid (some entries[i].topic.text) entries[i].topic.text.length true with
    | false => rfl
    | true =>
      have hrounds : ∀ j < i, (entries[j]?.bind fun other => Bool.not <$> strcmpEqual entries[i].topic other.topic) =
          some ((entries[j]?).any fun other => entries[i].topic.text != other.topic.text) := by
        intro j hj
        have hok := hearlier j hj
        rw [entryOk, List.getElem?_eq_getElem (by omega), Option.any_some, Bool.and_eq_true,
          Bool.and_eq_true] at hok
        rw [List.getElem?_eq_getElem (by omega), Option.bind_some, Option.any_some,
          strcmpEqual_eq (topic_terminated htopic) (topic_terminated hok.1.2)]
        rfl
      change (some true <&&> _) = _
      rw [andM_some, if_pos rfl, forAll_zero hrounds]
      rfl

/-- The loop over the subscriptions reads no entry past the eighth. -/
theorem entriesAt_eq {entries : List SubscriptionEntry} :
    ∀ {n i : ℕ}, i+n ≤ entries.length → (∀ j < i, entryOk entries j = true) →
      forAll (entryOkAt entries) n i = some ((List.range' i n).all (entryOk entries))
  | 0, i, _, _ => rfl
  | n+1, i, h, hearlier => by
    rw [forAll, entryOkAt_eq (by omega) hearlier, andM_some, List.range'_succ, List.all_cons]
    cases hok : entryOk entries i with
    | false => rfl
    | true =>
      rw [if_pos rfl, Bool.true_and]
      refine entriesAt_eq (by omega) fun j hj => ?_
      rcases Nat.lt_succ_iff_lt_or_eq.mp hj with hlt | rfl
      · exact hearlier j hlt
      · exact hok

/-- The inner loop finds a filter exactly when an earlier subscription has it. -/
theorem earlier_all {entries : List SubscriptionEntry} {i : ℕ} (hi : i ≤ entries.length) (text : List UInt8) :
    ((List.range i).all fun j => (entries[j]?).any fun other => text != other.topic.text) =
      !((entries.take i).map fun e => e.topic.text).any (· == text) := by
  rw [Bool.eq_iff_iff, List.all_eq_true, Bool.not_eq_true', List.any_eq_false]
  constructor
  · intro h x hx heq
    obtain ⟨e,he,rfl⟩ := List.mem_map.mp hx
    obtain ⟨j,hj,rfl⟩ := List.mem_take_iff_getElem.mp he
    have hround := h j (List.mem_range.mpr (by omega))
    rw [List.getElem?_eq_getElem (by omega), Option.any_some, bne_iff_ne] at hround
    exact hround (beq_iff_eq.mp heq).symm
  · intro h j hj
    have hj := List.mem_range.mp hj
    rw [List.getElem?_eq_getElem (by omega), Option.any_some, bne_iff_ne]
    intro heq
    refine h _ (List.mem_map.mpr ⟨_, List.mem_take_iff_getElem.mpr ⟨j, by omega, rfl⟩, rfl⟩) ?_
    exact beq_iff_eq.mpr heq.symm

theorem range_entriesValid {entries : List SubscriptionEntry} :
    ∀ {n i : ℕ}, i+n ≤ entries.length →
      (List.range' i n).all (entryOk entries) =
        entriesValid ((entries.take (i+n)).drop i) ((entries.take i).map fun e => e.topic.text)
  | 0, i, h => by
    rw [List.drop_eq_nil_of_le (by rw [List.length_take]; omega), entriesValid]
    rfl
  | n+1, i, h => by
    have hi : i < entries.length := by omega
    have hdrop : (entries.take (i+(n+1))).drop i = entries[i] :: (entries.take (i+1+n)).drop (i+1) := by
      have hsum : i+(n+1) = i+1+n := by omega
      rw [hsum, List.drop_eq_getElem_cons (by rw [List.length_take]; omega), List.getElem_take]
    have hsnoc : (entries.take (i+1)).map (fun e => e.topic.text) =
        (entries.take i).map (fun e => e.topic.text) ++ [entries[i].topic.text] := by
      rw [List.take_succ_eq_append_getElem hi, List.map_append]
      rfl
    have hqos : (!decide (1 < entries[i].qos)) = decide (entries[i].qos ≤ 1) := by
      rw [← decide_not]
      exact decide_eq_decide.mpr not_lt
    rw [List.range'_succ, List.all_cons, range_entriesValid (by omega), hdrop, entriesValid, hsnoc, entryOk,
      List.getElem?_eq_getElem hi, Option.any_some, earlier_all hi.le, Bool.not_or, hqos, Bool.not_not]

theorem hostLoop_before (host : List UInt8) (b b' : UInt8) : hostLoop host b 0 = hostLoop host b' 0 := by
  cases host with
  | nil => rfl
  | cons ch rest => simp only [hostLoop, true_or]

theorem hostAt_eq {n : ℕ} (a : CharArray n) :
    hostLoopAt a.bytes a.text.length a.text.length 0 0 = some (hostLoop a.text 0 0) := by
  rw [hostLoopAt_eq (a.text_length_le.trans_eq a.size.symm) _ 0 0 (Nat.zero_add _) fun _ => rfl, a.take_text,
    List.drop_zero, hostLoop_before]

/-- The certificate is searched only once it is known to end. -/
theorem certificateAt_eq {n : ℕ} (tls : Bool) (ca : CharArray n) :
    (Bool.not <$> (some (ca.text.length == n) <||>
      ((some tls <&&> (some (ca.text.length == 0) <||> ((Bool.not <$> strstrAt ca beginCertificate) <||>
        (Bool.not <$> strstrAt ca endCertificate)))) <||> some (!tls && ca.text.length != 0)))) =
      some (!(ca.unterminated || (tls && (ca.text.length == 0 || !strstr ca.text beginCertificate ||
        !strstr ca.text endCertificate)) || (!tls && ca.text.length != 0))) := by
  have hsame : (ca.text.length == n) = ca.unterminated := rfl
  rw [hsame]
  cases hends : ca.unterminated with
  | true => rfl
  | false =>
    rw [strstrAt_eq hends, strstrAt_eq hends]
    cases tls <;> cases ca.text.length == 0 <;> cases strstr ca.text beginCertificate <;>
      cases strstr ca.text endCertificate <;> rfl

/-- `emqtt_config_valid` reads no array past its end, whatever the arrays hold. -/
theorem emqttConfigValidAt_eq (c : EmqttConfig) (lab : Bool) :
    emqttConfigValidAt c lab = some (emqttConfigValid c lab) := by
  have hsize := c.entries_size
  rw [emqttConfigValidAt, emqttConfigValid]
  simp only [CharArray.boundedLength_eq, Option.bind_some, CharArray.utf8At_text, CharArray.topicValidAt_text,
    hostAt_eq, certificateAt_eq]
  simp only [Option.map_eq_map, Option.map_some, andM_read, orM_read]
  cases hfirst : !(c.port == 0 || (!c.tls && !lab) || decide (emqttSubscriptionsMax < c.subscriptionCount) ||
      decide (1 < c.willQos) || decide (512 < c.willLength)) with
  | false => rfl
  | true =>
    -- the first check bounds the count, so the last loop stays inside the eight entries
    have hcount : c.subscriptionCount ≤ c.entries.length := by
      simp only [Bool.not_eq_true', Bool.or_eq_false_iff, decide_eq_false_iff_not] at hfirst
      omega
    rw [entriesAt_eq (by omega) fun j hj => absurd hj (Nat.not_lt_zero j), range_entriesValid (by omega)]
    simp only [andM_read, Nat.zero_add, List.drop_zero, List.take_zero, List.map_nil, Bool.and_assoc,
      Bool.or_assoc]
    rfl

end EspMqtt
