import EspMqtt.RuntimeApi

/-! The configuration of a runtime: `emqtt_config_valid`, and what `emqtt_create` makes
of a configuration it accepts. -/
namespace EspMqtt

/-- `char[n]`. -/
structure CharArray (n : ℕ) where
  bytes : List UInt8
  size : bytes.length = n

namespace CharArray
variable {n : ℕ}

/-- The bytes before the first zero; their number is `bounded_length`. -/
def text (a : CharArray n) : List UInt8 := a.bytes.takeWhile (· ≠ 0)

theorem text_length_le (a : CharArray n) : a.text.length ≤ n :=
  (List.takeWhile_prefix _).length_le.trans (le_of_eq a.size)

/-- No zero byte: the array is not a C string. -/
def unterminated (a : CharArray n) : Bool := a.text.length == n

theorem text_length_lt {a : CharArray n} (h : a.unterminated = false) : a.text.length < n := by
  have hle := a.text_length_le
  have hne := beq_eq_false_iff_ne.mp h
  omega

end CharArray

/-- `emqtt_subscription_t` as the configuration holds it. -/
structure SubscriptionEntry where
  topic : CharArray 257
  qos : ℕ

/-- `emqtt_config_t`. -/
structure EmqttConfig where
  hostname : CharArray 254
  port : ℕ
  tls : Bool
  clientId : CharArray 129
  username : CharArray 129
  password : CharArray 257
  caPem : CharArray 4097
  willTopic : CharArray 257
  willPayload : CharArray 512
  willLength : ℕ
  willQos : ℕ
  willRetain : Bool
  entries : List SubscriptionEntry
  entries_size : entries.length = emqttSubscriptionsMax
  subscriptionCount : ℕ

/-- `strstr` finds the needle. -/
def strstr (text needle : List UInt8) : Bool := text.tails.any fun rest => needle.isPrefixOf rest

def hostCharOk (ch : UInt8) (label : ℕ) : Bool :=
  (decide (0x61 ≤ ch) && decide (ch ≤ 0x7a)) || (decide (0x41 ≤ ch) && decide (ch ≤ 0x5a)) ||
    (decide (0x30 ≤ ch) && decide (ch ≤ 0x39)) || (ch == 0x2d && decide (0 < label))

/-- The loop over the host name; `label` counts the characters of the current label and
`before` is the one last looked at. -/
def hostLoop : List UInt8 → UInt8 → ℕ → Bool
  | [], _, _ => true
  | ch :: rest, before, label =>
    if ch = 0x2e then
      if label = 0 ∨ before = 0x2d ∨ rest = [] then false else hostLoop rest ch 0
    else if hostCharOk ch label = false then false
    else if 63 < label+1 ∨ (rest = [] ∧ ch = 0x2d) then false
    else hostLoop rest ch (label+1)

/-- "-----BEGIN CERTIFICATE-----" -/
def beginCertificate : List UInt8 :=
  [45, 45, 45, 45, 45, 66, 69, 71, 73, 78, 32, 67, 69, 82, 84, 73, 70, 73, 67, 65, 84, 69, 45, 45, 45, 45, 45]

/-- "-----END CERTIFICATE-----" -/
def endCertificate : List UInt8 :=
  [45, 45, 45, 45, 45, 69, 78, 68, 32, 67, 69, 82, 84, 73, 70, 73, 67, 65, 84, 69, 45, 45, 45, 45, 45]

/-- The loop over the subscriptions: each has a filter that none before it has. -/
def entriesValid : List SubscriptionEntry → List (List UInt8) → Bool
  | [], _ => true
  | e :: es, earlier =>
    !(decide (1 < e.qos) || !emqttTopicValid (some e.topic.text) e.topic.text.length true) &&
      !earlier.any (· == e.topic.text) && entriesValid es (earlier ++ [e.topic.text])

/-- `emqtt_config_valid`. -/
def emqttConfigValid (c : EmqttConfig) (allowPlaintextLab : Bool) : Bool :=
  !(c.port == 0 || (!c.tls && !allowPlaintextLab) || decide (emqttSubscriptionsMax < c.subscriptionCount) ||
    decide (1 < c.willQos) || decide (512 < c.willLength)) &&
  !(c.hostname.text.length == 0 || c.hostname.unterminated) &&
  hostLoop c.hostname.text 0 0 &&
  !(c.clientId.text.length == 0 || c.clientId.unterminated || !utf8 c.clientId.text) &&
  !(c.username.unterminated || c.password.unterminated || !utf8 c.username.text || !utf8 c.password.text ||
    (c.username.text.length == 0 && c.password.text.length != 0)) &&
  !(c.caPem.unterminated || (c.tls && (c.caPem.text.length == 0 || !strstr c.caPem.text beginCertificate ||
      !strstr c.caPem.text endCertificate)) || (!c.tls && c.caPem.text.length != 0)) &&
  emqttTopicValid (some c.willTopic.text) c.willTopic.text.length false &&
  entriesValid (c.entries.take c.subscriptionCount) []

/-- The subscriptions a runtime starts with. -/
def EmqttConfig.subscriptions (c : EmqttConfig) : List Subscription :=
  (c.entries.take c.subscriptionCount).map fun e => ⟨e.topic.text, e.qos⟩

/-- `emqtt_create`, where memory and the SDK do their part; `none` is
`ESP_ERR_INVALID_ARG`. -/
def emqttCreate (c : EmqttConfig) (lab countersValid : Bool) : Option Runtime :=
  if emqttConfigValid c lab then some (emqttCreated c.tls c.subscriptions countersValid) else none

/-- A filter that `emqtt_topic_valid` accepts. -/
def FilterValid (topic : List UInt8) : Prop := emqttTopicValid (some topic) topic.length true = true

theorem entriesValid_spec {es : List SubscriptionEntry} {earlier : List (List UInt8)}
    (h : entriesValid es earlier = true) (hearlier : earlier.Nodup) :
    (∀ e ∈ es, e.qos ≤ 1 ∧ FilterValid e.topic.text) ∧ (earlier ++ es.map fun e => e.topic.text).Nodup := by
  induction es generalizing earlier with
  | nil => exact ⟨fun e he => absurd he (by simp), by simpa using hearlier⟩
  | cons e es ih =>
    simp only [entriesValid, Bool.and_eq_true, Bool.not_eq_true', Bool.or_eq_false_iff, decide_eq_false_iff_not,
      Bool.not_eq_false'] at h
    obtain ⟨⟨⟨hqos,hvalid⟩,hnew⟩,hrest⟩ := h
    have hfresh : e.topic.text ∉ earlier := by
      intro hmem
      rw [List.any_eq_false] at hnew
      exact hnew _ hmem (beq_self_eq_true _)
    have hnodup : (earlier ++ [e.topic.text]).Nodup := by
      rw [List.nodup_append]
      refine ⟨hearlier, List.nodup_singleton _, fun a ha b hb => ?_⟩
      rw [List.mem_singleton.mp hb]
      exact fun heq => hfresh (heq ▸ ha)
    obtain ⟨hall,hdistinct⟩ := ih hrest hnodup
    refine ⟨fun e' he' => ?_, ?_⟩
    · rcases List.mem_cons.mp he' with rfl | he'
      · exact ⟨by omega, hvalid⟩
      · exact hall e' he'
    · rwa [List.append_assoc, List.singleton_append] at hdistinct

/-- An array that begins with a text. -/
def CharArray.ofText (n : ℕ) (text : List UInt8) (h : text.length ≤ n) : CharArray n where
  bytes := text ++ List.replicate (n-text.length) 0
  size := by
    rw [List.length_append, List.length_replicate]
    omega

/-- A configuration for the lab: host "h", client "c", will "w" and the filter "t/#". -/
def labConfig : EmqttConfig where
  hostname := .ofText 254 [0x68] (by decide)
  port := 1883
  tls := false
  clientId := .ofText 129 [0x63] (by decide)
  username := .ofText 129 [] (by decide)
  password := .ofText 257 [] (by decide)
  caPem := .ofText 4097 [] (by decide)
  willTopic := .ofText 257 [0x77] (by decide)
  willPayload := .ofText 512 [] (by decide)
  willLength := 0
  willQos := 1
  willRetain := true
  entries := ⟨.ofText 257 [0x74, 0x2f, 0x23] (by decide), 1⟩ :: List.replicate 7 ⟨.ofText 257 [] (by decide), 0⟩
  entries_size := rfl
  subscriptionCount := 1

theorem labConfig_created :
    emqttCreate labConfig true true = some (emqttCreated false labConfig.subscriptions true) :=
  if_pos (by decide +kernel)

end EspMqtt
