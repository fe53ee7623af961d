import Mathlib.Data.List.TakeWhile
import EspMqtt.ConfigReads
import EspMqtt.TopicGrammar

/-! The configurations `emqtt_config_valid` admits, field by field. -/
namespace EspMqtt

/-- Letters, digits and hyphens. -/
def HostChar (ch : UInt8) : Prop :=
  (0x61 ≤ ch ∧ ch ≤ 0x7a) ∨ (0x41 ≤ ch ∧ ch ≤ 0x5a) ∨ (0x30 ≤ ch ∧ ch ≤ 0x39) ∨ ch = 0x2d

/-- A label of a host name: hyphens only inside. -/
structure HostLabel (label : List UInt8) : Prop where
  nonempty : label ≠ []
  length : label.length ≤ 63
  chars : ∀ ch ∈ label, HostChar ch
  head : label.head? ≠ some 0x2d
  last : label.getLast? ≠ some 0x2d

/-- The configurations that are admitted; `ValidText` is what the client id and the
credentials have to be. -/
structure ConfigGrammar (ValidText : List UInt8 → Prop) (c : EmqttConfig) (lab : Bool) : Prop where
  port : c.port ≠ 0
  transport : c.tls = true ∨ lab = true
  hostEnds : 0 ∈ c.hostname.bytes
  hostLength : c.hostname.text.length ≤ 253
  hostLabels : ∀ label ∈ c.hostname.text.splitOn 0x2e, HostLabel label
  clientIdEnds : 0 ∈ c.clientId.bytes
  clientId : c.clientId.text ≠ [] ∧ ValidText c.clientId.text
  usernameEnds : 0 ∈ c.username.bytes
  username : ValidText c.username.text
  passwordEnds : 0 ∈ c.password.bytes
  password : ValidText c.password.text
  credentials : c.password.text ≠ [] → c.username.text ≠ []
  caEnds : 0 ∈ c.caPem.bytes
  caPresent : c.tls = true → c.caPem.text ≠ [] ∧ beginCertificate <:+: c.caPem.text ∧
    endCertificate <:+: c.caPem.text
  caAbsent : c.tls = false → c.caPem.text = []
  willTopic : TopicGrammar c.willTopic.text false
  willLength : c.willLength ≤ 512
  willQos : c.willQos ≤ 1
  count : c.subscriptionCount ≤ emqttSubscriptionsMax
  filters : ∀ e ∈ c.entries.take c.subscriptionCount, e.qos ≤ 1 ∧ TopicGrammar e.topic.text true
  distinct : ((c.entries.take c.subscriptionCount).map fun e => e.topic.text).Nodup

section Host

theorem hostCharOk_iff {ch : UInt8} {label : ℕ} :
    hostCharOk ch label = true ↔ HostChar ch ∧ (ch = 0x2d → 0 < label) := by
  have hhyphen : ch = 0x2d → ¬((0x61 ≤ ch ∧ ch ≤ 0x7a) ∨ (0x41 ≤ ch ∧ ch ≤ 0x5a) ∨ (0x30 ≤ ch ∧ ch ≤ 0x39)) := by
    rintro rfl
    decide
  simp only [hostCharOk, HostChar, Bool.or_eq_true, Bool.and_eq_true, decide_eq_true_eq, beq_iff_eq]
  tauto

/-- What is known of the part of a label already read. -/
structure LabelBegun (begun : List UInt8) : Prop where
  length : begun.length ≤ 63
  chars : ∀ ch ∈ begun, HostChar ch
  head : begun.head? ≠ some 0x2d

theorem labelBegun_nil : LabelBegun [] :=
  ⟨Nat.zero_le _, fun ch hch => absurd hch List.not_mem_nil, by simp⟩

theorem not_hostLabel_nil : ¬HostLabel [] := fun h => h.nonempty rfl

/-- A label may end behind any character but a hyphen. -/
theorem LabelBegun.ended {begun : List UInt8} {before : UInt8} (h : LabelBegun begun)
    (hne : begun ≠ []) (hbefore : begun.getLast? = some before) (hhyphen : before ≠ 0x2d) :
    HostLabel begun := by
  refine ⟨hne, h.length, h.chars, h.head, ?_⟩
  rw [hbefore]
  simpa using hhyphen

/-- It goes on with a character that the loop lets through. -/
theorem LabelBegun.concat {begun : List UInt8} {ch : UInt8} (h : LabelBegun begun)
    (hlength : begun.length+1 ≤ 63) (hok : hostCharOk ch begun.length = true) :
    LabelBegun (begun ++ [ch]) := by
  have hchar := hostCharOk_iff.mp hok
  refine ⟨?_, ?_, ?_⟩
  · rwa [List.length_append, List.length_singleton]
  · intro c hc
    rcases List.mem_append.mp hc with hc | hc
    · exact h.chars c hc
    · rw [List.mem_singleton.mp hc]
      exact hchar.1
  · cases begun with
    | nil =>
      intro hhead
      exact absurd (hchar.2 (Option.some.inj hhead)) (Nat.lt_irrefl 0)
    | cons c cs => exact h.head

/-- The loop over a host name decides what it still has to read, for every beginning of a
label it has already read.  The end of the name is looked at from the character before it. -/
theorem hostLoop_iff : ∀ {rest begun first : List UInt8} {others : List (List UInt8)} (before : UInt8),
    LabelBegun begun → (begun ≠ [] → begun.getLast? = some before) →
      (rest = [] → begun ≠ [] ∧ before ≠ 0x2d) → rest.splitOn 0x2e = first :: others →
        (hostLoop rest before begun.length = true ↔
          HostLabel (begun ++ first) ∧ ∀ label ∈ others, HostLabel label)
  | [], begun, first, others, before, hbegun, hbefore, hend, hsplit => by
    rw [List.splitOn_nil] at hsplit
    obtain ⟨rfl,rfl⟩ := List.cons.inj hsplit
    obtain ⟨hne,hhyphen⟩ := hend rfl
    have hlabel := hbegun.ended hne (hbefore hne) hhyphen
    simpa [hostLoop] using hlabel
  | ch :: rest, begun, first, others, before, hbegun, hbefore, _, hsplit => by
    obtain ⟨next,following,hrest⟩ := List.exists_cons_of_ne_nil (List.splitOn_ne_nil (0x2e : UInt8) rest)
    rw [List.splitOn_cons_eq_if_modifyHead, hrest, List.modifyHead_cons] at hsplit
    by_cases hdot : ch = 0x2e
    · -- a label ends here: it must be complete, and another must follow
      rw [if_pos (beq_iff_eq.mpr hdot)] at hsplit
      obtain ⟨rfl,rfl⟩ := List.cons.inj hsplit
      rw [hostLoop, if_pos hdot, List.append_nil]
      by_cases hbad : begun.length = 0 ∨ before = 0x2d ∨ rest = []
      · rw [if_pos hbad]
        refine iff_of_false (by simp) fun h => ?_
        rcases hbad with hempty | hhyphen | hlast
        · exact h.1.nonempty (List.length_eq_zero_iff.mp hempty)
        · exact h.1.last (by rw [hbefore h.1.nonempty, hhyphen])
        · rw [hlast, List.splitOn_nil] at hrest
          obtain ⟨rfl,rfl⟩ := List.cons.inj hrest
          exact not_hostLabel_nil (h.2 [] List.mem_cons_self)
      · rw [if_neg hbad]
        have hbad := not_or.mp hbad
        have hmore := not_or.mp hbad.2
        have hne : begun ≠ [] := fun h => hbad.1 (by rw [h]; rfl)
        have hlabel := hbegun.ended hne (hbefore hne) hmore.1
        have ih := hostLoop_iff ch labelBegun_nil (fun h => absurd rfl h)
          (fun h => absurd h hmore.2) hrest
        rw [List.length_nil, List.nil_append] at ih
        rw [ih, List.forall_mem_cons]
        exact ⟨fun h => ⟨hlabel, h⟩, fun h => h.2⟩
    · rw [if_neg (by simpa using hdot)] at hsplit
      obtain ⟨rfl,rfl⟩ := List.cons.inj hsplit
      have hmem : ch ∈ begun ++ ch :: next := by simp
      rw [hostLoop, if_neg hdot]
      by_cases hchar : hostCharOk ch begun.length = false
      · -- not a letter or digit, nor a hyphen inside the label
        rw [if_pos hchar]
        refine iff_of_false (by simp) fun h => ?_
        have hok : hostCharOk ch begun.length = true := by
          refine hostCharOk_iff.mpr ⟨h.1.chars ch hmem, fun hhyphen => List.length_pos_of_ne_nil fun hnil => ?_⟩
          exact h.1.head (by rw [hnil, hhyphen]; rfl)
        rw [hok] at hchar
        exact Bool.noConfusion hchar
      · rw [if_neg hchar]
        have hok := Bool.eq_true_of_not_eq_false hchar
        by_cases hbad : 63 < begun.length+1 ∨ (rest = [] ∧ ch = 0x2d)
        · -- too long, or a hyphen at the very end
          rw [if_pos hbad]
          refine iff_of_false (by simp) fun h => ?_
          rcases hbad with hlong | ⟨hlast,hhyphen⟩
          · have hlength := h.1.length
            rw [List.length_append, List.length_cons] at hlength
            omega
          · rw [hlast, List.splitOn_nil] at hrest
            obtain ⟨rfl,rfl⟩ := List.cons.inj hrest
            exact h.1.last (by rw [List.getLast?_concat, hhyphen])
        · rw [if_neg hbad]
          have hbad := not_or.mp hbad
          have hbegun' : LabelBegun (begun ++ [ch]) := hbegun.concat (by omega) hok
          have ih := hostLoop_iff ch hbegun' (fun _ => List.getLast?_concat)
            (fun h => ⟨by simp, fun hhyphen => hbad.2 ⟨h, hhyphen⟩⟩) hrest
          rw [List.length_append, List.length_singleton, List.append_assoc, List.singleton_append] at ih
          exact ih

/-- A name that is not empty is accepted exactly when it is a list of labels. -/
theorem host_iff {host : List UInt8} (hne : host ≠ []) :
    hostLoop host 0 0 = true ↔ ∀ label ∈ host.splitOn 0x2e, HostLabel label := by
  obtain ⟨first,others,hsplit⟩ := List.exists_cons_of_ne_nil (List.splitOn_ne_nil (0x2e : UInt8) host)
  have h := hostLoop_iff 0 labelBegun_nil (fun h => absurd rfl h) (fun h => absurd h hne) hsplit
  rw [hsplit, List.forall_mem_cons]
  exact h

end Host

theorem CharArray.unterminated_iff {n : ℕ} (a : CharArray n) : a.unterminated = false ↔ 0 ∈ a.bytes := by
  have hwhole : a.text.length = n ↔ ∀ ch ∈ a.bytes, ch ≠ 0 := by
    constructor
    · intro h ch hch
      have hsame : a.bytes.takeWhile (· ≠ 0) = a.bytes :=
        (List.takeWhile_prefix _).eq_of_length (h.trans a.size.symm)
      simpa using List.takeWhile_eq_self_iff.mp hsame ch hch
    · intro h
      have hsame : a.text = a.bytes := List.takeWhile_eq_self_iff.mpr fun ch hch => by simpa using h ch hch
      rw [hsame, a.size]
  -- without a zero the text is the whole array, which is how the code recognises it
  rw [CharArray.unterminated, beq_eq_false_iff_ne, Ne, hwhole]
  constructor
  · intro h
    by_contra hzero
    exact h fun ch hch heq => hzero (heq ▸ hch)
  · exact fun hzero h => h 0 hzero rfl

theorem strstr_iff {text needle : List UInt8} : strstr text needle = true ↔ needle <:+: text := by
  rw [strstr, List.any_eq_true, List.infix_iff_prefix_suffix]
  constructor
  · rintro ⟨rest,hrest,hstart⟩
    exact ⟨rest, List.isPrefixOf_iff_prefix.mp hstart, (List.mem_tails _ _).mp hrest⟩
  · rintro ⟨rest,hstart,hrest⟩
    exact ⟨rest, (List.mem_tails _ _).mpr hrest, List.isPrefixOf_iff_prefix.mpr hstart⟩

/-- The loop over the subscriptions accepts valid filters that differ from each other and from
those before. -/
theorem entriesValid_of {es : List SubscriptionEntry} : ∀ (earlier : List (List UInt8)),
    (∀ e ∈ es, e.qos ≤ 1 ∧ FilterValid e.topic.text) → (earlier ++ es.map fun e => e.topic.text).Nodup →
      entriesValid es earlier = true := by
  induction es with
  | nil => exact fun _ _ _ => rfl
  | cons e es ih =>
    intro earlier hall hnodup
    obtain ⟨hqos,hvalid⟩ := hall e List.mem_cons_self
    -- the inner loop compares with `earlier`, which the run so far has grown to
    have hfresh : e.topic.text ∉ earlier := fun hmem =>
      List.disjoint_of_nodup_append hnodup hmem (List.mem_map.mpr ⟨e, List.mem_cons_self, rfl⟩)
    have hnew : earlier.any (· == e.topic.text) = false := by
      rw [List.any_eq_false]
      intro text htext heq
      exact hfresh (beq_iff_eq.mp heq ▸ htext)
    have hrest := ih (earlier ++ [e.topic.text]) (fun e' he' => hall e' (List.mem_cons_of_mem _ he'))
      (by rwa [List.append_assoc, List.singleton_append])
    rw [entriesValid, hrest, hnew, decide_eq_false (by omega), show emqttTopicValid (some e.topic.text)
      e.topic.text.length true = true from hvalid]
    rfl

theorem entriesValid_iff (es : List SubscriptionEntry) : entriesValid es [] = true ↔
    (∀ e ∈ es, e.qos ≤ 1 ∧ TopicGrammar e.topic.text true) ∧ (es.map fun e => e.topic.text).Nodup := by
  simp only [← emqttTopicValid_iff]
  constructor
  · intro h
    have hspec := entriesValid_spec h List.nodup_nil
    rwa [List.nil_append] at hspec
  · rintro ⟨hall,hnodup⟩
    exact entriesValid_of [] hall (by rwa [List.nil_append])

theorem length_beq_zero {text : List UInt8} : (text.length == 0) = false ↔ text ≠ [] := by
  rw [beq_eq_false_iff_ne, Ne, List.length_eq_zero_iff]

/-- The conditions on the certificate, with and without TLS. -/
theorem certificate_iff {tls : Bool} {ca : List UInt8} :
    ((tls && (ca.length == 0 || !strstr ca beginCertificate || !strstr ca endCertificate)) = false ∧
      (!tls && ca.length != 0) = false) ↔
    (tls = true → ca ≠ [] ∧ beginCertificate <:+: ca ∧ endCertificate <:+: ca) ∧ (tls = false → ca = []) := by
  cases tls with
  | false => simp
  | true =>
    simp only [Bool.true_and, Bool.or_eq_false_iff, length_beq_zero, Bool.not_eq_false', strstr_iff,
      Bool.not_true, Bool.false_and, and_true, true_imp_iff, Bool.true_eq_false, false_imp_iff, and_assoc]

theorem credentials_iff {username password : List UInt8} :
    (username.length == 0 && password.length != 0) = false ↔ (password ≠ [] → username ≠ []) := by
  cases username <;> cases password <;> simp

theorem emqttConfigValid_iff (c : EmqttConfig) (lab : Bool) :
    emqttConfigValid c lab = true ↔ ConfigGrammar Utf8Text c lab := by
  have htransport : (!c.tls && !lab) = false ↔ c.tls = true ∨ lab = true := by
    cases c.tls <;> cases lab <;> simp
  rw [emqttConfigValid]
  simp only [Bool.and_eq_true, Bool.not_eq_true', Bool.or_eq_false_iff, beq_eq_false_iff_ne (a := c.port),
    htransport, decide_eq_false_iff_not, not_lt, length_beq_zero, CharArray.unterminated_iff, Bool.not_eq_false',
    utf8_iff, entriesValid_iff, emqttTopicValid_iff, credentials_iff, and_assoc]
  constructor
  · rintro ⟨hport,htrans,hcount,hwillQos,hwillLength,hhostNe,hhostEnds,hhost,hclientNe,hclientEnds,hclient,
      huserEnds,hpasswordEnds,huser,hpassword,hcredentials,hcaEnds,hcaPresent,hcaAbsent,hwill,hfilters,hdistinct⟩
    have hca := certificate_iff.mp ⟨hcaPresent, hcaAbsent⟩
    have hhostLength := CharArray.text_length_lt ((CharArray.unterminated_iff _).mpr hhostEnds)
    exact ⟨hport, htrans, hhostEnds, Nat.le_of_lt_succ hhostLength, (host_iff hhostNe).mp hhost, hclientEnds,
      ⟨hclientNe, hclient⟩, huserEnds, huser, hpasswordEnds, hpassword, hcredentials, hcaEnds, hca.1, hca.2, hwill,
      hwillLength, hwillQos, hcount, hfilters, hdistinct⟩
  · intro h
    have hca := certificate_iff.mpr ⟨h.caPresent, h.caAbsent⟩
    -- an empty name has one label, and that is empty
    have hhostNe : c.hostname.text ≠ [] := by
      intro hnil
      have hlabels := h.hostLabels
      rw [hnil, List.splitOn_nil] at hlabels
      exact not_hostLabel_nil (hlabels [] List.mem_cons_self)
    exact ⟨h.port, h.transport, h.count, h.willQos, h.willLength, hhostNe, h.hostEnds,
      (host_iff hhostNe).mpr h.hostLabels, h.clientId.1, h.clientIdEnds, h.clientId.2, h.usernameEnds, h.passwordEnds,
      h.username, h.password, h.credentials, h.caEnds, hca.1, hca.2, h.willTopic, h.filters, h.distinct⟩

/-- `emqtt_config_valid` admits exactly these configurations and reads no array past its
end. -/
theorem emqttConfigValid_grammar (c : EmqttConfig) (lab : Bool) :
    ∃ valid : Bool, emqttConfigValidAt c lab = some valid ∧ (valid = true ↔ ConfigGrammar Utf8Text c lab) :=
  ⟨emqttConfigValid c lab, emqttConfigValidAt_eq c lab, emqttConfigValid_iff c lab⟩

/-- Well-formed UTF-8 of any characters at all. -/
def Utf8Encoded (text : List UInt8) : Prop := ∃ chars : List Char, text = chars.flatMap String.utf8EncodeChar

theorem controlName_length : [(0x01 : UInt8)].length ≤ 129 := by decide

/-- `labConfig` with a control character, U+0001, for its user name. -/
def controlConfig : EmqttConfig := { labConfig with username := .ofText 129 [0x01] controlName_length }

/-- Well-formed UTF-8 is not enough: `utf8` wants no control character. -/
theorem controlConfig_rejected :
    ConfigGrammar Utf8Encoded controlConfig true ∧ emqttConfigValidAt controlConfig true = some false := by
  have hlab : ConfigGrammar Utf8Text labConfig true := (emqttConfigValid_iff labConfig true).mp (by decide +kernel)
  have hweak {text : List UInt8} (h : Utf8Text text) : Utf8Encoded text := by
    obtain ⟨chars,hchars,-⟩ := h
    exact ⟨chars, hchars⟩
  have hname : controlConfig.username.text = [0x01] := by decide +kernel
  refine ⟨{ hlab with
    clientId := ⟨hlab.clientId.1, hweak hlab.clientId.2⟩
    usernameEnds := by decide +kernel
    username := ⟨[Char.ofNat 1], by rw [hname]; rfl⟩
    password := hweak hlab.password
    credentials := fun _ => by rw [hname]; exact List.cons_ne_nil _ _ }, ?_⟩
  rw [emqttConfigValidAt_eq]
  decide +kernel

end EspMqtt
