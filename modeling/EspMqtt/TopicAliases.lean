import EspMqtt.Mqtt5Publish

/-! The topic aliases a broker has set: `esp_mqtt5_get_publish_data` and the list
`peer_topic_alias`, which lives as long as the client. -/
namespace EspMqtt

/-- `mqtt5_topic_alias_t`. A topic that could not be copied leaves a null pointer and the
length of the one before. -/
structure TopicAlias where
  topicAlias : ℕ
  topicLen : ℕ
  topic : Option (List UInt8)
  deriving DecidableEq

/-- `strncmp` of two strings of the same length is 0: they agree up to the first zero byte. -/
def strncmpEqual : List UInt8 → List UInt8 → Bool
  | a :: as, b :: bs => if a ≠ b then false else if a = 0 then true else strncmpEqual as bs
  | _, _ => true

/-- What becomes of an alias that is set. `undefined`: the code compares with a null pointer. -/
inductive AliasUpdate where
  | ok | fail | undefined
  deriving DecidableEq

/-- The copy of a topic is replaced; the old one is freed before there is memory for the new. -/
def TopicAlias.replace (item : TopicAlias) (topic : List UInt8) (memory : Bool) : AliasUpdate × TopicAlias :=
  if memory then (.ok, {item with topicLen := topic.length, topic := some topic})
  else (.fail, {item with topic := none})

/-- `esp_mqtt5_client_update_topic_alias`; `allocs` are the answers of `calloc`. -/
def updateTopicAlias (topicAlias : ℕ) (topic : List UInt8) (allocs : List Bool) :
    List TopicAlias → AliasUpdate × List TopicAlias
  | [] =>
    if (allocs.take 2).all id then (.ok, [⟨topicAlias, topic.length, some topic⟩]) else (.fail, [])
  | item :: items =>
    if item.topicAlias = topicAlias then
      let replaced := item.replace topic (allocs.head?.getD true)
      if item.topicLen ≠ topic.length then (replaced.1, replaced.2 :: items)
      else
        match item.topic with
        | none => (.undefined, item :: items)
        | some stored =>
          if strncmpEqual topic stored then (.ok, item :: items) else (replaced.1, replaced.2 :: items)
    else
      let r := updateTopicAlias topicAlias topic allocs items
      (r.1, item :: r.2)

/-- `esp_mqtt5_client_get_topic_alias`; `none` is `NULL`. -/
def getTopicAlias (topicAlias : ℕ) (items : List TopicAlias) : Option (List UInt8) :=
  match items.find? (·.topicAlias == topicAlias) with
  | some item => item.topic
  | none => none

/-- What a v5 client makes of a PUBLISH. -/
inductive AliasOutcome where
  | delivered (topic : List UInt8)
  | fail
  | undefined
  deriving DecidableEq

/-- `esp_mqtt5_get_publish_data`, on what the parser has handed out. -/
def espMqtt5GetPublishData (maximum : ℕ) (items : List TopicAlias) (parsed : Option PublishPayload) :
    AliasOutcome × List TopicAlias :=
  match parsed with
  | none => (.fail, items)
  | some d =>
    if maximum < d.resp.topicAlias then (.fail, items)
    else if d.resp.topicAlias ≠ 0 then
      if d.topic.length = 0 then
        match getTopicAlias d.resp.topicAlias items with
        | none => (.fail, items)
        | some topic => (.delivered topic, items)
      else
        match updateTopicAlias d.resp.topicAlias d.topic d.resp.allocs items with
        | (.ok, items) => (.delivered d.topic, items)
        | (.fail, items) => (.fail, items)
        | (.undefined, items) => (.undefined, items)
    else (.delivered d.topic, items)

/-! One alias at a time. -/

/-- Every copy has the length noted for it. -/
def AliasesSized (items : List TopicAlias) : Prop :=
  ∀ item ∈ items, ∀ t, item.topic = some t → item.topicLen = t.length

theorem TopicAlias.replace_alias (item : TopicAlias) (topic : List UInt8) (memory : Bool) :
    (item.replace topic memory).2.topicAlias = item.topicAlias := by
  unfold replace
  split <;> rfl

theorem TopicAlias.replace_sized (item : TopicAlias) (topic : List UInt8) (memory : Bool) (t : List UInt8)
    (h : (item.replace topic memory).2.topic = some t) : (item.replace topic memory).2.topicLen = t.length := by
  unfold replace at h ⊢
  split at h
  · rename_i hm
    rw [if_pos hm]
    rw [Option.some.injEq] at h
    rw [← h]
  · exact absurd h (by simp)

theorem TopicAlias.replace_ok {item : TopicAlias} {topic : List UInt8} {memory : Bool}
    (h : (item.replace topic memory).1 = .ok) : (item.replace topic memory).2.topic = some topic := by
  unfold replace at h ⊢
  split at h
  · rename_i hm
    rw [if_pos hm]
  · exact absurd h (by simp)

theorem getTopicAlias_cons (a : ℕ) (item : TopicAlias) (items : List TopicAlias) :
    getTopicAlias a (item :: items) = if item.topicAlias = a then item.topic else getTopicAlias a items := by
  unfold getTopicAlias
  by_cases h : item.topicAlias = a
  · rw [List.find?_cons_of_pos (by simp [h]), if_pos h]
  · rw [List.find?_cons_of_neg (by simp [h]), if_neg h]

/-- The topic that stands in the list is the one set, up to what `strncmp` does not see. -/
def Overwrites (a : ℕ) (topic : List UInt8) (items : List TopicAlias) : Prop :=
  ∀ stored, getTopicAlias a items = some stored → stored.length = topic.length →
    strncmpEqual topic stored = true → stored = topic

/-- Setting an alias touches no other one, and sets it. -/
theorem updateTopicAlias_spec (a : ℕ) (topic : List UInt8) (allocs : List Bool) (items : List TopicAlias)
    (hsized : AliasesSized items) :
    AliasesSized (updateTopicAlias a topic allocs items).2 ∧
    (∀ b, b ≠ a → getTopicAlias b (updateTopicAlias a topic allocs items).2 = getTopicAlias b items) ∧
    ((updateTopicAlias a topic allocs items).1 = .ok → Overwrites a topic items →
      getTopicAlias a (updateTopicAlias a topic allocs items).2 = some topic) := by
  induction items with
  | nil =>
    unfold updateTopicAlias
    split
    · refine ⟨?_, fun b hb => ?_, fun _ _ => ?_⟩
      · intro item hitem t ht
        rw [List.mem_singleton.mp hitem] at ht ⊢
        rw [Option.some.injEq] at ht
        rw [← ht]
      · rw [getTopicAlias_cons, if_neg (Ne.symm hb)]
      · rw [getTopicAlias_cons, if_pos rfl]
    · exact ⟨hsized, fun _ _ => rfl, fun h => absurd h (by simp)⟩
  | cons item items ih =>
    have htail : AliasesSized items := fun i hi => hsized i (List.mem_cons_of_mem _ hi)
    have hhead (t : List UInt8) := hsized item List.mem_cons_self t
    have hrep (memory : Bool) (hitem : item.topicAlias = a) :
        AliasesSized ((item.replace topic memory).2 :: items) ∧
        (∀ b, b ≠ a → getTopicAlias b ((item.replace topic memory).2 :: items) = getTopicAlias b (item :: items)) ∧
        ((item.replace topic memory).1 = .ok → Overwrites a topic (item :: items) →
          getTopicAlias a ((item.replace topic memory).2 :: items) = some topic) := by
      refine ⟨?_, fun b hb => ?_, fun hok _ => ?_⟩
      · intro i hi t ht
        rcases List.mem_cons.mp hi with rfl | hi
        · exact item.replace_sized topic memory t ht
        · exact htail i hi t ht
      · rw [getTopicAlias_cons, getTopicAlias_cons, item.replace_alias, hitem, if_neg (Ne.symm hb), if_neg (Ne.symm hb)]
      · rw [getTopicAlias_cons, item.replace_alias, if_pos hitem, TopicAlias.replace_ok hok]
    unfold updateTopicAlias
    dsimp only
    by_cases hitem : item.topicAlias = a
    · rw [if_pos hitem]
      by_cases hlen : item.topicLen ≠ topic.length
      · rw [if_pos hlen]
        exact hrep _ hitem
      · rw [if_neg hlen]
        cases hstored : item.topic with
        | none => exact ⟨hsized, fun _ _ => rfl, fun h => absurd h (by simp)⟩
        | some stored =>
          dsimp only
          by_cases heq : strncmpEqual topic stored = true
          · rw [if_pos heq]
            refine ⟨hsized, fun _ _ => rfl, fun _ hover => ?_⟩
            -- what is in the list stays there
            have hget : getTopicAlias a (item :: items) = some stored := by
              rw [getTopicAlias_cons, if_pos hitem, hstored]
            have hlong : stored.length = topic.length := by
              have hs := hhead stored hstored
              omega
            dsimp only
            rw [hget, hover stored hget hlong heq]
          · rw [if_neg heq]
            exact hrep _ hitem
    · rw [if_neg hitem]
      obtain ⟨hs,hother,hself⟩ := ih htail
      refine ⟨?_, fun b hb => ?_, fun hok hover => ?_⟩
      · intro i hi t ht
        rcases List.mem_cons.mp hi with rfl | hi
        · exact hhead t ht
        · exact hs i hi t ht
      · rw [getTopicAlias_cons, getTopicAlias_cons, hother b hb]
      · rw [getTopicAlias_cons, if_neg hitem]
        apply hself hok
        intro stored hget
        exact hover stored (by rwa [getTopicAlias_cons, if_neg hitem])

/-! A client over all its connections. -/

/-- A PUBLISH that a v5 client has received; the parser has returned, with enough fuel. -/
structure ReceivedPublish where
  buffer : List UInt8
  len : ℕ
  allocs : List Bool
  fuel : ℕ
  parsed : Option PublishPayload
  parses : mqtt5GetPublishPropertyPayload fuel buffer len allocs = some parsed

namespace ReceivedPublish

/-- The PUBLISH carries this alias, and the client takes it. -/
def Carries (p : ReceivedPublish) (maximum topicAlias : ℕ) (topic : List UInt8) : Prop :=
  1 ≤ topicAlias ∧ topicAlias ≤ maximum ∧ ∃ d, p.parsed = some d ∧ d.resp.topicAlias = topicAlias ∧ d.topic = topic

end ReceivedPublish

inductive AliasEvent where
  | setConnectProperty (topicAliasMaximum : ℕ)
  | connect
  | publish (p : ReceivedPublish)

/-- `topic_alias_maximum` and the list, whether the connection is up, and, for the
record, the topic last set for an alias on this connection. -/
structure AliasClient where
  maximum : ℕ
  items : List TopicAlias
  up : Bool
  lastSet : ℕ → Option (List UInt8)

namespace AliasClient

def created : AliasClient := ⟨0, [], false, fun _ => none⟩

/-- What a PUBLISH says about an alias. -/
def noteSet (s : AliasClient) (p : ReceivedPublish) : ℕ → Option (List UInt8) :=
  match p.parsed with
  | none => s.lastSet
  | some d =>
    if 1 ≤ d.resp.topicAlias ∧ d.resp.topicAlias ≤ s.maximum ∧ d.topic ≠ [] then
      Function.update s.lastSet d.resp.topicAlias (some d.topic)
    else s.lastSet

/-- What becomes of the PUBLISH. -/
def outcome (s : AliasClient) (p : ReceivedPublish) : AliasOutcome × List TopicAlias :=
  espMqtt5GetPublishData s.maximum s.items p.parsed

/-- A PUBLISH that is not delivered ends the connection. -/
def step (s : AliasClient) : AliasEvent → AliasClient
  | .setConnectProperty n => if n = 0 then s else {s with maximum := n}
  | .connect => {s with up := true, lastSet := fun _ => none}
  | .publish p =>
    if s.up then
      match s.outcome p with
      | (.delivered _, items) => {s with items := items, lastSet := s.noteSet p}
      | (_, items) => {s with items := items, up := false, lastSet := fun _ => none}
    else s

def run (s : AliasClient) (es : List AliasEvent) : AliasClient := es.foldl step s

/-- Last write wins, on this connection. -/
def Resolves (s : AliasClient) (p : ReceivedPublish) : Prop :=
  ∀ a, p.Carries s.maximum a [] → (s.outcome p).1 =
    match s.lastSet a with
    | some topic => .delivered topic
    | none => .fail

/-- No alias is used that only an earlier connection has set, and none is set to a topic
that `strncmp` takes for the one before. -/
def Plain (s : AliasClient) : AliasEvent → Prop
  | .publish p => s.up = true → ∀ a topic, p.Carries s.maximum a topic →
    (topic = [] → s.lastSet a = none → getTopicAlias a s.items = none) ∧
    (topic ≠ [] → Overwrites a topic s.items)
  | _ => True

/-- Every event of a run is plain where it happens. -/
def PlainRun : AliasClient → List AliasEvent → Prop
  | _, [] => True
  | s, e :: es => s.Plain e ∧ PlainRun (s.step e) es

/-- What has been set on this connection stands in the list. -/
structure Recorded (s : AliasClient) : Prop where
  sized : AliasesSized s.items
  listed : ∀ a topic, s.lastSet a = some topic → getTopicAlias a s.items = some topic

theorem created_recorded : created.Recorded :=
  ⟨fun _ h => absurd h (by simp [created]), fun _ _ h => absurd h (by simp [created])⟩

/-- An outcome that is delivered has set at most the alias of the PUBLISH. -/
theorem Recorded.outcome {s : AliasClient} (h : s.Recorded) (p : ReceivedPublish) (hup : s.up = true)
    (hplain : s.Plain (.publish p)) : AliasesSized (s.outcome p).2 ∧
      (∀ t, (s.outcome p).1 = .delivered t →
        ∀ a topic, s.noteSet p a = some topic → getTopicAlias a (s.outcome p).2 = some topic) := by
  have hplain := hplain hup
  unfold AliasClient.outcome noteSet espMqtt5GetPublishData
  cases hparsed : p.parsed with
  | none => exact ⟨h.sized, fun _ h => absurd h (by simp)⟩
  | some d =>
    dsimp only
    by_cases hover : s.maximum < d.resp.topicAlias
    · rw [if_pos hover]
      exact ⟨h.sized, fun _ h => absurd h (by simp)⟩
    · rw [if_neg hover]
      by_cases hzero : d.resp.topicAlias ≠ 0
      · rw [if_pos hzero]
        by_cases hempty : d.topic.length = 0
        · rw [if_pos hempty, if_neg (by simp [List.length_eq_zero_iff.mp hempty])]
          split
          · exact ⟨h.sized, fun _ h => absurd h (by simp)⟩
          · exact ⟨h.sized, fun _ _ a topic hset => h.listed a topic hset⟩
        · have hne : d.topic ≠ [] := fun hnil => hempty (by rw [hnil]; rfl)
          rw [if_neg hempty, if_pos ⟨by omega, by omega, hne⟩]
          obtain ⟨hs,hother,hself⟩ := updateTopicAlias_spec d.resp.topicAlias d.topic d.resp.allocs s.items h.sized
          have hwrites := (hplain d.resp.topicAlias d.topic ⟨by omega, by omega, d, hparsed, rfl, rfl⟩).2 hne
          generalize updateTopicAlias d.resp.topicAlias d.topic d.resp.allocs s.items = r at hs hother hself
          obtain ⟨res,items⟩ := r
          cases res with
          | ok =>
            refine ⟨hs, fun _ _ a topic hset => ?_⟩
            by_cases ha : a = d.resp.topicAlias
            · subst ha
              rw [Function.update_self, Option.some.injEq] at hset
              rw [← hset]
              exact hself rfl hwrites
            · rw [Function.update_of_ne ha] at hset
              exact (hother a ha).trans (h.listed a topic hset)
          | fail => exact ⟨hs, fun _ h => absurd h (by simp)⟩
          | undefined => exact ⟨hs, fun _ h => absurd h (by simp)⟩
      · rw [if_neg hzero, if_neg (by omega)]
        exact ⟨h.sized, fun _ _ a topic hset => h.listed a topic hset⟩

theorem Recorded.step {s : AliasClient} (h : s.Recorded) (e : AliasEvent) (hplain : s.Plain e) :
    (s.step e).Recorded := by
  cases e with
  | setConnectProperty n =>
    unfold AliasClient.step
    dsimp only
    split
    · exact h
    · exact ⟨h.sized, h.listed⟩
  | connect => exact ⟨h.sized, fun _ _ h => absurd h (by simp [AliasClient.step])⟩
  | publish p =>
    unfold AliasClient.step
    dsimp only
    by_cases hup : s.up = true
    · rw [if_pos hup]
      obtain ⟨hsized,hlisted⟩ := h.outcome p hup hplain
      generalize s.outcome p = r at hsized hlisted
      obtain ⟨res,items⟩ := r
      cases res with
      | delivered t => exact ⟨hsized, hlisted t rfl⟩
      | fail => exact ⟨hsized, fun _ _ h => absurd h (by simp)⟩
      | undefined => exact ⟨hsized, fun _ _ h => absurd h (by simp)⟩
    · rw [if_neg hup]
      exact h

/-- A plain use of an alias gives the topic last set. -/
theorem Recorded.resolves {s : AliasClient} (h : s.Recorded) (p : ReceivedPublish) (hup : s.up = true)
    (hplain : s.Plain (.publish p)) : s.Resolves p := by
  rintro a ⟨hpos,hmax,d,hparsed,rfl,htopic⟩
  have huse := (hplain hup d.resp.topicAlias [] ⟨hpos, hmax, d, hparsed, rfl, htopic⟩).1 rfl
  unfold AliasClient.outcome espMqtt5GetPublishData
  rw [hparsed]
  dsimp only
  rw [if_neg (by omega), if_pos (by omega), if_pos (by rw [htopic]; rfl)]
  cases hset : s.lastSet d.resp.topicAlias with
  | none => rw [huse hset]
  | some topic => rw [h.listed _ _ hset]

/-- Along a plain run what has been set stands in the list. -/
theorem PlainRun.recorded {s : AliasClient} (hs : s.Recorded) (before : List AliasEvent) {p : ReceivedPublish}
    {after : List AliasEvent} (hplain : PlainRun s (before ++ .publish p :: after)) :
    (s.run before).Recorded ∧ (s.run before).Plain (.publish p) := by
  induction before generalizing s with
  | nil => exact ⟨hs, hplain.1⟩
  | cons e before ih => exact ih (hs.step e hplain.1) hplain.2

end AliasClient

open AliasClient in
/-- In every run whose events are plain, over any number of connections, a PUBLISH with an
topicAlias and no topic is delivered with the topic last set on its connection, and refused if
there is none. -/
theorem aliases_resolve_per_connection (es : List AliasEvent) (hplain : PlainRun created es)
    (before : List AliasEvent) (p : ReceivedPublish) (after : List AliasEvent)
    (hes : es = before ++ .publish p :: after) (hup : (created.run before).up = true) :
    (created.run before).Resolves p := by
  subst hes
  obtain ⟨hrec,hp⟩ := hplain.recorded created_recorded before
  exact hrec.resolves p hup hp

/-- A PUBLISH that is parsed within four rounds of the loop. -/
def receivedPublish (buffer : List UInt8)
    (h : (mqtt5GetPublishPropertyPayload 4 buffer buffer.length []).isSome) : ReceivedPublish where
  buffer := buffer
  len := buffer.length
  allocs := []
  fuel := 4
  parsed := (mqtt5GetPublishPropertyPayload 4 buffer buffer.length []).get h
  parses := (Option.some_get h).symm

/-- Topic "a", alias 1. -/
def settingPublish : ReceivedPublish := receivedPublish [0x30, 7, 0, 1, 0x61, 3, 0x23, 0, 1] (by decide)

/-- No topic, alias 1. -/
def usingPublish : ReceivedPublish := receivedPublish [0x30, 6, 0, 0, 3, 0x23, 0, 1] (by decide)

theorem settingPublish_parsed :
    settingPublish.parsed = some ⟨[0x61], {PublishResp.zero [] with topicAlias := 1}, 9, 0⟩ := by decide +kernel

theorem usingPublish_parsed :
    usingPublish.parsed = some ⟨[], {PublishResp.zero [] with topicAlias := 1}, 8, 0⟩ := by decide +kernel

/-- The alias is set and used on one connection. -/
def settingRun : List AliasEvent :=
  [.setConnectProperty 4, .connect, .publish settingPublish, .publish usingPublish]

open AliasClient in
theorem settingRun_plain : PlainRun created settingRun := by
  refine ⟨trivial, trivial, fun _ a topic hcarries => ?_, fun _ a topic hcarries => ?_, trivial⟩
  · obtain ⟨-,-,d,hparsed,rfl,rfl⟩ := hcarries
    rw [settingPublish_parsed, Option.some.injEq] at hparsed
    subst hparsed
    exact ⟨fun h => absurd h (by decide), fun _ stored h => absurd h (by simp [getTopicAlias, step, created])⟩
  · obtain ⟨-,-,d,hparsed,rfl,rfl⟩ := hcarries
    rw [usingPublish_parsed, Option.some.injEq] at hparsed
    subst hparsed
    exact ⟨fun _ h => absurd h (by decide +kernel), fun h => absurd rfl h⟩

open AliasClient in
theorem alias_resolves_on_its_connection :
    (created.run (settingRun.take 3)).Resolves usingPublish ∧
    ((created.run (settingRun.take 3)).outcome usingPublish).1 = .delivered [0x61] :=
  ⟨aliases_resolve_per_connection settingRun settingRun_plain (settingRun.take 3) usingPublish [] rfl
    (by decide +kernel), by decide +kernel⟩

open AliasClient in
/-- The alias of one connection is delivered on the next, where nobody has set it. -/
theorem alias_outlives_connection :
    let s := created.run [.setConnectProperty 4, .connect, .publish settingPublish, .connect]
    s.up = true ∧ usingPublish.Carries s.maximum 1 [] ∧ s.lastSet 1 = none ∧
    (s.outcome usingPublish).1 = .delivered [0x61] ∧ ¬ s.Resolves usingPublish := by
  have hcarries : usingPublish.Carries
      (created.run [.setConnectProperty 4, .connect, .publish settingPublish, .connect]).maximum 1 [] :=
    ⟨by decide, by decide +kernel, _, usingPublish_parsed, rfl, rfl⟩
  refine ⟨by decide +kernel, hcarries, by decide +kernel, by decide +kernel, fun h => ?_⟩
  exact absurd (h 1 hcarries) (by decide +kernel)

end EspMqtt
