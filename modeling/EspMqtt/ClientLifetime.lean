import EspMqtt.PropertyOwnership

/-! Whole lives of a client: from `esp_mqtt_client_init` to `esp_mqtt_client_destroy` nothing is freed
twice, and what is left allocated is known. -/
namespace EspMqtt.Memory
open Ownership

variable {mem : Supply Site} {more : Multiset ℕ} {b : Build}
  {http : (s : CString) → Option (HttpParserUrl s.text)} {id : List UInt8} {config : ClientConfig}

/-- How far `esp_mqtt_set_config` has come with a configuration: `renamed` and `rekeyed` say that the
interface name and the key password may have been overwritten. -/
structure Progress (config : ClientConfig) (c : Configured) (renamed rekeyed : Prop) (d : Configured) :
    Prop where
  listed : Listed d.config
  mqtt5 : d.mqtt5Config = c.mqtt5Config
  event : d.eventProperty = c.eventProperty
  becomes : d.information.protocolVer = some .v5 →
    c.information.protocolVer = some .v5 ∨ config.protocolVer = some .v5
  stays : config.protocolVer = none ∨ config.protocolVer = some .v5 →
    c.information.protocolVer = some .v5 → d.information.protocolVer = some .v5
  ifName : ¬renamed → d.config.ifName = c.config.ifName
  password : ¬rekeyed → d.config.clientkeyPassword = c.config.clientkeyPassword
  lost : (renamed → config.ifName = none ∨ c.config.ifName = none) →
    (rekeyed → config.keyPassword = none ∨ c.config.clientkeyPassword = none) → d.lost = c.lost

/-- An error that is one, unless a buffer is refused. -/
def Reported (mem : Supply Site) (err : EspErr) : Prop := BuffersGiven mem → err ≠ .ok

/-- Version 5, if the configuration asks for it. -/
def Versioned (config : ClientConfig) (d : Configured) : Prop :=
  config.protocolVer = some .v5 → d.information.protocolVer = some .v5

/-- A URI, if the configuration has one. -/
def Addressed (config : ClientConfig) (d : Configured) : Prop :=
  config.uri.isSome → d.config.uri.isSome

/-- What all parts keep once it has been reached. -/
structure Carried (d e : Configured) : Prop where
  version : e.information.protocolVer = d.information.protocolVer
  uri : d.config.uri.isSome → e.config.uri.isSome

theorem Versioned.carried {d e : Configured} (h : Versioned config d) (hde : Carried d e) : Versioned config e :=
  fun hfive => hde.version.trans (h hfive)

theorem Addressed.carried {d e : Configured} (h : Addressed config d) (hde : Carried d e) : Addressed config e :=
  fun hsome => hde.uri (h hsome)

/-- How far the last parts rely on the first. -/
structure Settled (config : ClientConfig) (d : Configured) : Prop where
  version : Versioned config d
  uri : Addressed config d

theorem Settled.carried {d e : Configured} (h : Settled config d) (hde : Carried d e) : Settled config e :=
  ⟨h.version.carried hde, h.uri.carried hde⟩

namespace Progress
variable {c d e : Configured} {renamed rekeyed : Prop}

theorem refl (hc : Listed c.config) : Progress config c False False c :=
  ⟨hc, rfl, rfl, Or.inl, fun _ h => h, fun _ => rfl, fun _ => rfl, fun _ _ => rfl⟩

theorem steady (h : Progress config c renamed rekeyed d) (he : Listed e.config) (hsteady : Steady d e) :
    Progress config c renamed rekeyed e where
  listed := he
  mqtt5 := hsteady.mqtt5.trans h.mqtt5
  event := hsteady.event.trans h.event
  becomes := fun hv => h.becomes (hsteady.version ▸ hv)
  stays := fun hconfig hv => hsteady.version.trans (h.stays hconfig hv)
  ifName := fun hno => hsteady.ifName.trans (h.ifName hno)
  password := fun hno => hsteady.password.trans (h.password hno)
  lost := fun hname hkey => hsteady.lost.trans (h.lost hname hkey)

/-- Having come further says less. -/
theorem weaken {renamed' rekeyed' : Prop} (h : Progress config c renamed rekeyed d)
    (hname : renamed → renamed') (hkey : rekeyed → rekeyed') : Progress config c renamed' rekeyed' d where
  listed := h.listed
  mqtt5 := h.mqtt5
  event := h.event
  becomes := h.becomes
  stays := h.stays
  ifName := fun hno => h.ifName fun hr => hno (hname hr)
  password := fun hno => h.password fun hr => hno (hkey hr)
  lost := fun hn hk => h.lost (fun hr => hn (hname hr)) fun hr => hk (hkey hr)

/-- A part about something else. -/
theorem stage (h : Progress config c renamed rekeyed d) {r : Option EspErr × Configured} {o : Multiset ℕ}
    (hr : StageEnd mem d r o) :
    Ended Configured.own (Progress config c renamed rekeyed) (Carried d) (Reported mem) r o :=
  ⟨hr.own, h.steady hr.listed hr.steady, fun err herr hgiven => hr.error hgiven err herr,
    fun hnone => ⟨hr.steady.version, hr.uri hnone⟩⟩

/-- The URI. -/
theorem address (h : Progress config c renamed rekeyed d) :
    Spec mem d.own (onStorage (setIfConfig .uri (config.uri.map CString.text)) d) (Ended Configured.own
      (Progress config c renamed rekeyed) (Addressed config) (Reported mem)) := by
  apply onStorage_spec
  apply (setIfConfig_spec (by constructor <;> decide) _ h.listed).mono
  rintro r o ⟨hr,hset⟩
  have hstage := h.stage hr
  refine ⟨hstage.own, hstage.kept, hstage.error, fun hnone hsome => hset hnone ?_⟩
  rw [Option.isSome_map]
  exact hsome

/-- The session part, which may set the version of the protocol. -/
theorem session (h : Progress config c renamed rekeyed d) (huri : Addressed config d) :
    Spec mem d.own (assign (setSession b config) d) (Ended Configured.own
      (Progress config c renamed rekeyed) (Settled config) (Reported mem)) := by
  refine Spec.pure ⟨rfl, ⟨h.listed, h.mqtt5, h.event, fun hv => ?_, fun hconfig hv => ?_, h.ifName,
    h.password, h.lost⟩, nofun, fun _ => ⟨fun hfive => ?_, huri⟩⟩
  · change some ((config.protocolVer.or d.information.protocolVer).getD
      (if b.protocol311 then .v311 else .v31)) = some ProtocolVer.v5 at hv
    cases hc : config.protocolVer with
    | some v =>
      rw [hc, Option.some_or] at hv
      exact Or.inr hv
    | none =>
      rw [hc, Option.none_or] at hv
      cases hd : d.information.protocolVer with
      | some v =>
        rw [hd] at hv
        exact (h.becomes (hd.trans hv)).imp_right fun hno => absurd (hc.symm.trans hno) (by simp)
      | none =>
        rw [hd, Option.getD_none] at hv
        have hdefault := Option.some.inj hv
        split at hdefault <;> cases hdefault
  · have hd := h.stays hconfig hv
    change some ((config.protocolVer.or d.information.protocolVer).getD
      (if b.protocol311 then .v311 else .v31)) = some ProtocolVer.v5
    rcases hconfig with hc | hc
    · rw [hc, Option.none_or, hd, Option.getD_some]
    · rw [hc, Option.some_or, Option.getD_some]
  · change some ((config.protocolVer.or d.information.protocolVer).getD
      (if b.protocol311 then .v311 else .v31)) = some ProtocolVer.v5
    rw [hfive, Option.some_or, Option.getD_some]

end Progress

theorem own_lost (c : Configured) (more : Multiset ℕ) :
    ({c with lost := c.lost+more} : Configured).own = c.own+more := by
  simp only [Configured.own, Configured.pointers, ClientBody.pointers5]
  abel

/-- What an overwritten pointer led to is lost. -/
theorem overwrite_spec {f : Field} {d : Configured} (new : List UInt8) :
    Spec mem d.own (overwrite f (some new) d) fun r o => o = r.2.own ∧ (∀ err ∈ r.1, err ≠ .ok) ∧
      ∃ p, r.2 = {f.set d p with lost := d.lost+held (pointer (f.get d))} := by
  apply Spec.bind (Q := fun p o => o = held (pointer p)+d.own)
  · exact copy_spec fun _ => rfl
  · rintro p _ rfl
    refine Spec.pure ⟨?_, refusedCopy_error p, p, rfl⟩
    have hlost : (f.set d p).lost = d.lost := by cases f <;> rfl
    have h := own_lost (f.set d p) (held (pointer (f.get d)))
    rw [hlost] at h
    dsimp only
    rw [h, f.own_get d, f.own_set d p]
    abel

namespace Progress
variable {c d e : Configured} {renamed rekeyed : Prop}

theorem overwriteName (h : Progress config c False rekeyed d) :
    Spec mem d.own (onStorage (overwrite .ifName config.ifName) d) (Ended Configured.own
      (Progress config c True rekeyed) (Carried d) (Reported mem)) := by
  apply onStorage_spec
  cases hname : config.ifName with
  | none =>
    exact Spec.pure ⟨rfl, h.weaken False.elim fun hr => hr, nofun, fun _ => ⟨rfl, fun hsome => hsome⟩⟩
  | some new =>
    apply (overwrite_spec new).mono
    rintro ⟨_,_⟩ _ ⟨rfl,herror,p,rfl⟩
    refine ⟨rfl, ⟨h.listed, h.mqtt5, h.event, h.becomes, h.stays, fun hno => absurd trivial hno,
      h.password, fun hn hk => ?_⟩, fun err herr _ => herror err herr, fun _ => ⟨rfl, fun hsome => hsome⟩⟩
    have hold : c.config.ifName = none := (hn trivial).resolve_left (by rw [hname]; simp)
    have hget : Field.ifName.get d = none := (h.ifName not_false).trans hold
    change d.lost+held (pointer (Field.ifName.get d)) = c.lost
    rw [hget, pointer_none, held_none, add_zero]
    exact h.lost False.elim hk

theorem overwritePassword (h : Progress config c renamed False d) :
    Spec mem d.own (onStorage (overwrite .clientkeyPassword config.keyPassword) d) (Ended Configured.own
      (Progress config c renamed True) (Carried d) (Reported mem)) := by
  apply onStorage_spec
  cases hkey : config.keyPassword with
  | none =>
    exact Spec.pure ⟨rfl, h.weaken (fun hr => hr) False.elim, nofun, fun _ => ⟨rfl, fun hsome => hsome⟩⟩
  | some new =>
    apply (overwrite_spec new).mono
    rintro ⟨_,_⟩ _ ⟨rfl,herror,p,rfl⟩
    refine ⟨rfl, ⟨h.listed, h.mqtt5, h.event, h.becomes, h.stays, h.ifName,
      fun hno => absurd trivial hno, fun hn hk => ?_⟩, fun err herr _ => herror err herr,
      fun _ => ⟨rfl, fun hsome => hsome⟩⟩
    have hold : c.config.clientkeyPassword = none := (hk trivial).resolve_left (by rw [hkey]; simp)
    have hget : Field.clientkeyPassword.get d = none := (h.password not_false).trans hold
    change d.lost+held (pointer (Field.clientkeyPassword.get d)) = c.lost
    rw [hget, pointer_none, held_none, add_zero]
    exact h.lost hn False.elim

end Progress

/-- What has been reached stays so. -/
theorem carriedParts_spec {c : Configured} {renamed rekeyed : Prop} {stages : List Stage} {D : Configured → Prop}
    (hcarried : ∀ {d e}, D d → Carried d e → D e)
    (h : ∀ stage ∈ stages, ∀ d, Progress config c renamed rekeyed d → D d →
      Spec mem d.own (stage d) (StageEnd mem d)) {d : Configured}
    (hd : Progress config c renamed rekeyed d) (hD : D d) :
    Spec mem d.own (Prog.inOrder stages d)
      (Ended Configured.own (Progress config c renamed rekeyed) D (Reported mem)) := by
  induction stages generalizing d with
  | nil => exact Spec.pure ⟨rfl, hd, nofun, fun _ => hD⟩
  | cons stage stages ih =>
    have hstage := (h stage (List.mem_cons_self ..) d hd hD).mono fun _ _ hr => hd.stage hr
    apply Spec.bind hstage
    rintro ⟨err,e⟩ _ ⟨rfl,he,herror,hcarry⟩
    cases err with
    | none =>
      have hrest := fun stage hmem => h stage (List.mem_cons_of_mem _ hmem)
      exact ih hrest he (hcarried hD (hcarry rfl))
    | some err => exact Spec.pure ⟨rfl, he, herror, nofun⟩

theorem ordinaryParts_spec {c : Configured} {renamed rekeyed : Prop} {stages : List Stage} {D : Configured → Prop}
    (hcarried : ∀ {d e}, D d → Carried d e → D e) (h : ∀ stage ∈ stages, Ordinary mem stage) {d : Configured}
    (hd : Progress config c renamed rekeyed d) (hD : D d) :
    Spec mem d.own (Prog.inOrder stages d)
      (Ended Configured.own (Progress config c renamed rekeyed) D (Reported mem)) :=
  carriedParts_spec hcarried (fun stage hstage d hd _ => h stage hstage d hd.listed) hd hD

/-- `esp_mqtt_set_config` from the buffers to the URI owns, wherever it stops, exactly what the
client points to. -/
theorem configStages_spec (halpn : ∀ n, mem .alpnProtos n = true) {c : Configured} (hc : Listed c.config) :
    Spec mem c.own (Prog.inOrder (configStages b http id config) c)
      (Ended Configured.own (Progress config c True True) (Versioned config) (Reported mem)) := by
  have hfield : ∀ {f : Field} (new : Option (List UInt8)), f ≠ .ifName → f ≠ .clientkeyPassword →
      Ordinary mem (setIfConfig f new) := fun new h h' => setIfConfig_ordinary ⟨h, h'⟩ new
  have hsplit : configStages b http id config =
      [setBuffers b config, onStorage (assign (setTask b config)),
        onStorage (setIfConfig .host (config.hostname.map CString.text)),
        onStorage (setIfConfig .path (config.path.map CString.text)),
        setIfConfig .username (config.username.map CString.text),
        setIfConfig .password (config.password.map CString.text), setClientId id config] ++
      ([onStorage (setIfConfig .uri (config.uri.map CString.text))] ++
      ([setIfConfig .willTopic (config.willTopic.map CString.text), setWillMessage config.willMsg] ++
      ([assign (setSession b config)] ++ ([checkProtocol b, onStorage (assign (setNetwork config))] ++
      ([onStorage (overwrite .ifName config.ifName)] ++
      ([onStorage (setAlpnProtos config.alpnProtos), onStorage (assign (setVerification config))] ++
      ([onStorage (overwrite .clientkeyPassword config.keyPassword)] ++
        [onStorage (setTransportScheme b config.overTransport), onStorage (setUriLast http config.uri),
          onStorage (assign fun c =>
            {c with config := {c.config with outboxLimit := config.outboxLimit}})]))))))) := rfl
  rw [hsplit]
  -- each segment says what it keeps and reaches: the URI, and then the version too
  apply Spec.inOrder_append (I := Progress config c False False) (D := fun _ => True)
  · refine ordinaryParts_spec (fun _ _ => trivial) ?_ (Progress.refl hc) trivial
    intro stage hstage
    simp only [List.mem_cons, List.not_mem_nil, or_false] at hstage
    rcases hstage with rfl | rfl | rfl | rfl | rfl | rfl | rfl
    · exact setBuffers_ordinary b config
    · exact onStorage_ordinary (setTask_ordinary b config)
    · exact onStorage_ordinary (hfield _ (by decide) (by decide))
    · exact onStorage_ordinary (hfield _ (by decide) (by decide))
    · exact hfield _ (by decide) (by decide)
    · exact hfield _ (by decide) (by decide)
    · exact setClientId_ordinary id config
  · intro d hd _
    apply Spec.inOrder_append (I := Progress config c False False) (D := Addressed config)
    · exact Spec.inOrder_single hd.address
    · intro d hd huri
      apply Spec.inOrder_append (I := Progress config c False False) (D := Addressed config)
      · refine ordinaryParts_spec Addressed.carried ?_ hd huri
        intro stage hstage
        simp only [List.mem_cons, List.not_mem_nil, or_false] at hstage
        rcases hstage with rfl | rfl
        · exact hfield _ (by decide) (by decide)
        · exact setWillMessage_ordinary _
      · intro d hd huri
        apply Spec.inOrder_append (I := Progress config c False False) (D := Settled config)
        · exact Spec.inOrder_single (hd.session huri)
        · intro d hd hv
          apply Spec.inOrder_append (I := Progress config c False False) (D := Settled config)
          · refine ordinaryParts_spec Settled.carried ?_ hd hv
            intro stage hstage
            simp only [List.mem_cons, List.not_mem_nil, or_false] at hstage
            rcases hstage with rfl | rfl
            · exact checkProtocol_ordinary b
            · exact onStorage_ordinary (setNetwork_ordinary config)
          · intro d hd hv
            apply Spec.inOrder_append (I := Progress config c True False) (D := Settled config)
            · apply Spec.inOrder_single
              exact hd.overwriteName.mono fun _ _ h => h.mono (fun _ h => h) fun _ h => hv.carried h
            · intro d hd hv
              apply Spec.inOrder_append (I := Progress config c True False) (D := Settled config)
              · refine ordinaryParts_spec Settled.carried ?_ hd hv
                intro stage hstage
                simp only [List.mem_cons, List.not_mem_nil, or_false] at hstage
                rcases hstage with rfl | rfl
                · exact onStorage_ordinary (setAlpnProtos_ordinary halpn _)
                · exact onStorage_ordinary (setVerification_ordinary config)
              · intro d hd hv
                apply Spec.inOrder_append (I := Progress config c True True) (D := Settled config)
                · apply Spec.inOrder_single
                  exact hd.overwritePassword.mono fun _ _ h => h.mono (fun _ h => h) fun _ h => hv.carried h
                · intro d hd hv
                  refine (carriedParts_spec Settled.carried ?_ hd hv).mono fun _ _ h =>
                    h.mono (fun _ h => h) fun _ h => h.version
                  intro stage hstage d hd hv
                  simp only [List.mem_cons, List.not_mem_nil, or_false] at hstage
                  rcases hstage with rfl | rfl | rfl
                  · exact onStorage_ordinary (setTransportScheme_ordinary b _) d hd.listed
                  · exact onStorage_spec (setUriLast_spec _ hd.listed hv.uri)
                  · refine onStorage_ordinary (assign_ordinary ?_ ?_ ?_ ?_) d hd.listed
                    · exact fun _ => rfl
                    · exact fun _ h => h
                    · exact fun _ => ⟨rfl, rfl, rfl, rfl, rfl, rfl⟩
                    · exact fun _ => rfl
                · exact fun _ h => h
              · exact fun _ h => h.weaken (fun hr => hr) False.elim
            · exact fun _ h => h.weaken (fun hr => hr) False.elim
          · exact fun _ h => h.weaken False.elim False.elim
        · exact fun _ h => h.weaken False.elim False.elim
      · exact fun _ h => h.weaken False.elim False.elim
    · exact fun _ h => h.weaken False.elim False.elim
  · exact fun _ h => h.weaken False.elim False.elim

/-! `esp_mqtt_destroy_config`. -/

theorem freeMqtt5Config_spec (c : ClientBody) {Q : Unit → Multiset ℕ → Prop}
    (h : Q () (held c.eventProperty+more)) :
    Spec mem (holds c.pointers5+more) (freeMqtt5Config c.mqtt5Config) Q := by
  unfold ClientBody.pointers5
  rw [holds_append, holds_cons, holds_nil, add_zero, add_assoc]
  cases c.mqtt5Config with
  | none =>
    rw [holds_nil, zero_add]
    exact Spec.pure h
  | some m =>
    apply Spec.bind (Q := fun _ o => o = holds m.pointers+(held c.eventProperty+more))
    · refine Spec.touch ?_ rfl
      -- the configuration is the last of its own pointers
      apply Multiset.mem_add.mpr
      left
      change m.block ∈ holds m.pointers
      unfold Mqtt5Config.pointers
      rw [holds_append, holds_cons, held_some]
      simp
    rintro - _ rfl
    rw [show holds m.pointers =
        holds [pointer m.contentType, pointer m.responseTopic, pointer m.correlationData]+
        (holds (aliasPointers m.peerTopicAlias)+(holds (propertyPointers m.connectUserProperty)+
        (holds (propertyPointers m.willUserProperty)+(holds (propertyPointers m.disconnectUserProperty)+
          held (some m.block))))) from by
      simp only [Mqtt5Config.pointers, holds_append, holds_cons, holds_nil]
      abel]
    simp only [add_assoc]
    refine Spec.bind (Spec.freeAll (Q := fun _ o => o = _) rfl) ?_
    rintro - _ rfl
    refine Spec.bind (deleteTopicAlias_spec _ (Q := fun _ o => o = _) rfl) ?_
    rintro - _ rfl
    refine Spec.bind (deleteUserProperty_spec _ (Q := fun _ o => o = _) rfl) ?_
    rintro - _ rfl
    refine Spec.bind (deleteUserProperty_spec _ (Q := fun _ o => o = _) rfl) ?_
    rintro - _ rfl
    refine Spec.bind (deleteUserProperty_spec _ (Q := fun _ o => o = _) rfl) ?_
    rintro - _ rfl
    exact Spec.free h

theorem espMqtt5ClientDestory_spec (d : Configured) {Q : Unit → Multiset ℕ → Prop}
    (h : Q () (d.left5+more)) : Spec mem (holds d.pointers5+more) (espMqtt5ClientDestory d) Q := by
  unfold espMqtt5ClientDestory
  unfold Configured.left5 at h
  split
  · rename_i hv
    rw [if_pos hv, zero_add] at h
    refine Spec.bind (freeMqtt5Config_spec d.toClientBody (Q := fun _ o => o = _) rfl) ?_
    rintro - _ rfl
    exact Spec.free h
  · rename_i hv
    rw [if_neg hv] at h
    exact Spec.pure h

/-- Without memory of version 5 none can be left. -/
theorem left5_eq_zero {d : Configured} (hmqtt5 : d.mqtt5Config = none) (hevent : d.eventProperty = none) :
    d.left5 = 0 := by
  rw [Configured.left5, ClientBody.pointers5, hmqtt5, hevent]
  split <;> rfl

/-- The blocks of a client. -/
def Client.own (c : Client) : Multiset ℕ :=
  holds c.handles+
    match c.config with
    | none => c.lost
    | some s => (c.opened s).own

theorem Client.own_some {c : Client} {s : ConfigStorage} (h : c.config = some s) :
    c.own = holds c.handles+(c.opened s).own := by
  rw [Client.own, h]

theorem Client.own_none {c : Client} (h : c.config = none) : c.own = holds c.handles+c.lost := by
  rw [Client.own, h]

/-- The memory of version 5 that `esp_mqtt_destroy_config` leaves. -/
def Client.left5 (c : Client) : Multiset ℕ :=
  match c.config with
  | none => 0
  | some s => (c.opened s).left5

theorem Client.left5_some {c : Client} {s : ConfigStorage} (h : c.config = some s) :
    c.left5 = (c.opened s).left5 := by
  rw [Client.left5, h]

theorem Client.left5_none {c : Client} (h : c.config = none) : c.left5 = 0 := by
  rw [Client.left5, h]

/-- What is left when the configuration has been destroyed: the pointers to the buffers and to what
belongs to version 5 dangle. -/
def Client.destroyed (c : Client) (s : ConfigStorage) : Client :=
  {c with config := none, information := .zero, lost := c.lost+(c.opened s).left5}

theorem espMqttDestroyConfig_spec {c : Client} {s : ConfigStorage} (hs : c.config = some s)
    (hlisted : Listed s) : Spec mem c.own (espMqttDestroyConfig c) fun d o =>
      d = c.destroyed s ∧ o = d.own := by
  unfold espMqttDestroyConfig
  rw [c.own_some hs, hs]
  refine Spec.bind (Spec.touch (Q := fun _ o => o = holds c.handles+(c.opened s).own) ?_ rfl) ?_
  · exact Multiset.mem_add.mpr (Or.inr (config_block_mem (c.opened s)))
  rintro - _ rfl
  rw [show holds c.handles+(c.opened s).own =
      holds [c.inBuffer, c.buffer, pointer s.host, pointer s.uri, pointer s.path, pointer s.scheme]+
      (holds s.alpnPointers+
      (holds [pointer s.clientkeyPassword, pointer s.ifName, pointer c.information.willTopic,
        pointer c.information.willMessage, pointer c.information.clientId, pointer c.information.username,
        pointer c.information.password]+
      (holds (c.opened s).pointers5+(held (some s.block)+(holds c.handles+c.lost))))) from by
    simp only [Configured.own, Configured.pointers, Client.opened, holds_append, holds_cons, holds_nil]
    abel]
  refine Spec.bind (Spec.freeAll (Q := fun _ o => o = _) rfl) ?_
  rintro - _ rfl
  refine Spec.bind (freeAlpnProtos_spec hlisted (Q := fun _ o => o = _) rfl) ?_
  rintro - _ rfl
  refine Spec.bind (Spec.freeAll (Q := fun _ o => o = _) rfl) ?_
  rintro - _ rfl
  refine Spec.bind (espMqtt5ClientDestory_spec (c.opened s) (Q := fun _ o => o = _) rfl) ?_
  rintro - _ rfl
  rw [add_left_comm]
  refine Spec.bind (Spec.free (Q := fun _ o => o = _) rfl) ?_
  rintro - _ rfl
  refine Spec.pure ⟨rfl, ?_⟩
  rw [Client.own_none rfl]
  change _ = holds c.handles+(c.lost+(c.opened s).left5)
  abel

/-- Looking for conflicts changes nothing. -/
theorem checkCfgConflict_spec (d : Configured) (config : ClientConfig) :
    Spec mem d.own (checkCfgConflict d.config config) fun _ o => o = d.own := by
  apply Spec.bind (Spec.touch (Q := fun _ o => o = d.own) (config_block_mem d) rfl)
  rintro - _ rfl
  apply Spec.bind (Q := fun _ o => o = d.own)
  · split
    · rename_i hsome
      exact read_spec hsome (Field.scheme.held_le d) rfl
    · exact Spec.pure rfl
  · rintro - _ rfl
    exact Spec.pure rfl

/-- How `esp_mqtt_set_config` ends: with the configuration filled, or without it. -/
inductive ConfigureEnd (config : ClientConfig) (c : Client) (s : ConfigStorage) : Client → Prop
  | filled (d : Configured) (h : Progress config (c.opened s) True True d) (hv : Versioned config d) :
    ConfigureEnd config c s (c.closed d)
  | gone (d : Configured) (h : Progress config (c.opened s) True True d) :
    ConfigureEnd config c s ((c.closed d).destroyed d.config)

theorem configure_spec (halpn : ∀ n, mem .alpnProtos n = true) {c : Client} {s : ConfigStorage}
    (hlisted : Listed s) :
    Spec mem (holds c.handles+(c.opened s).own) (configure b http id config c s) fun r o =>
      o = r.2.own ∧ ConfigureEnd config c s r.2 ∧ (BuffersGiven mem → r.1 = .ok → r.2.config.isSome) := by
  unfold configure
  rw [add_comm]
  apply Spec.bind ((configStages_spec halpn (c := c.opened s) hlisted).frame (holds c.handles))
  rintro ⟨err,d⟩ _ ⟨_,rfl,rfl,hd,herror,hv⟩
  have hclosed : d.own+holds c.handles = (c.closed d).own := by
    rw [Client.own_some (c := c.closed d) rfl, add_comm]
    rfl
  cases err with
  | none =>
    apply Spec.bind ((checkCfgConflict_spec d config).frame (holds c.handles))
    rintro conflict _ ⟨_,rfl,rfl⟩
    exact Spec.pure ⟨hclosed, .filled d hd (hv rfl), fun _ _ => rfl⟩
  | some err =>
    dsimp only
    rw [hclosed]
    apply Spec.bind (espMqttDestroyConfig_spec rfl hd.listed)
    rintro _ _ ⟨rfl,rfl⟩
    exact Spec.pure ⟨rfl, .gone d hd, fun hgiven hok => absurd hok (herror err rfl hgiven)⟩

/-! The calls of an application. -/

/-- What every client in a run is like; `five` says that it was made for version 5. -/
structure Sound (five : Prop) (c : Client) : Prop where
  listed : ∀ s, c.config = some s → Listed s
  storage : five → c.config.isSome → c.mqtt5Config.isSome
  version : ¬five → c.config.isSome → c.information.protocolVer ≠ some .v5

/-- A client that has lost nothing, and will lose nothing when it is destroyed. -/
structure Tidy (five : Prop) (c : Client) : Prop where
  lost : c.lost = 0
  version : five → c.config.isSome → c.information.protocolVer = some .v5
  nothing5 : ¬five → c.mqtt5Config = none ∧ c.eventProperty = none

/-- The version is not set to 5 on a client that was not made for it. -/
def Call.Fits (five : Prop) (next : Call) : Prop :=
  ¬five → ∀ config, next = .setConfig config → config.protocolVer ≠ some .v5

/-- A call after which nothing is lost: no interface name and no key password that could overwrite
one, the version stays, and user properties for a disconnect are copied whole. -/
structure Call.Careful (five : Prop) (mem : Supply Site) (next : Call) : Prop where
  config : ∀ config, next = .setConfig config → config.ifName = none ∧ config.keyPassword = none ∧
    (five → config.protocolVer = none ∨ config.protocolVer = some .v5)
  properties : ∀ p, next = .setDisconnectProperty p → p.userProperty.isSome → ItemsGiven mem .disconnect

section Calls
variable {five : Prop} {c : Client} {s : ConfigStorage} {next : Call}

/-- What one call keeps. -/
def CallKeeps (five : Prop) (mem : Supply Site) (next : Call) (c : Client) (r : EspErr × Client) : Prop :=
  Sound five r.2 ∧ (next.Careful five mem → Tidy five c → Tidy five r.2)

theorem setConfig_keeps (halpn : ∀ n, mem .alpnProtos n = true) (hc : Sound five c) (hs : c.config = some s)
    (hfits : (Call.setConfig config).Fits five) :
    Spec mem c.own (espMqttSetConfig b http id config c) fun r o =>
      o = r.2.own ∧ CallKeeps five mem (.setConfig config) c r := by
  have hsome : c.config.isSome := by rw [hs]; rfl
  unfold espMqttSetConfig
  rw [hs, c.own_some hs]
  refine Spec.bind (Q := fun storage o => storage = some s ∧ o = holds c.handles+(c.opened s).own)
    (Spec.pure ⟨rfl, rfl⟩) ?_
  rintro _ _ ⟨rfl,rfl⟩
  apply (configure_spec halpn (hc.listed s hs)).mono
  rintro ⟨err,e⟩ o ⟨rfl,hend,-⟩
  refine ⟨rfl, ?_⟩
  cases hend with
  | filled d hd _ =>
    refine ⟨⟨?_, ?_, ?_⟩, fun hcareful htidy => ⟨?_, ?_, ?_⟩⟩
    · rintro _ ⟨rfl⟩
      exact hd.listed
    · intro hfive _
      change d.mqtt5Config.isSome
      rw [hd.mqtt5]
      exact hc.storage hfive hsome
    · intro hfive _ hd5
      rcases hd.becomes hd5 with h | h
      · exact hc.version hfive hsome h
      · exact hfits hfive config rfl h
    · obtain ⟨hname,hkey,-⟩ := hcareful.config config rfl
      exact (hd.lost (fun _ => Or.inl hname) fun _ => Or.inl hkey).trans htidy.lost
    · intro hfive _
      exact hd.stays ((hcareful.config config rfl).2.2 hfive) (htidy.version hfive hsome)
    · intro hfive
      exact ⟨hd.mqtt5.trans (htidy.nothing5 hfive).1, hd.event.trans (htidy.nothing5 hfive).2⟩
  | gone d hd =>
    refine ⟨⟨?_, ?_, ?_⟩, fun hcareful htidy => ⟨?_, ?_, ?_⟩⟩
    · exact fun _ h => by cases h
    · exact fun _ h => by cases h
    · exact fun _ h => by cases h
    · obtain ⟨hname,hkey,hver⟩ := hcareful.config config rfl
      have hlost : d.lost = 0 := (hd.lost (fun _ => Or.inl hname) fun _ => Or.inl hkey).trans htidy.lost
      change d.lost+d.left5 = 0
      rw [hlost, zero_add]
      by_cases hfive : five
      · exact if_pos (hd.stays (hver hfive) (htidy.version hfive hsome))
      · exact left5_eq_zero (hd.mqtt5.trans (htidy.nothing5 hfive).1) (hd.event.trans (htidy.nothing5 hfive).2)
    · exact fun _ h => by cases h
    · intro hfive
      exact ⟨hd.mqtt5.trans (htidy.nothing5 hfive).1, hd.event.trans (htidy.nothing5 hfive).2⟩

theorem setUri_keeps (hc : Sound five c) (hs : c.config = some s) (uri : CString) :
    Spec mem c.own (espMqttClientSetUri http uri c) fun r o =>
      o = r.2.own ∧ CallKeeps five mem (.setUri uri) c r := by
  have hsome : c.config.isSome := by rw [hs]; rfl
  unfold espMqttClientSetUri
  rw [c.own_some hs, hs]
  rw [add_comm]
  apply Spec.bind ((setUri_spec uri false (c := c.opened s) (hc.listed s hs)).frame (holds c.handles))
  rintro ⟨err,d⟩ _ ⟨_,rfl,rfl,hlisted,hsteady,-⟩
  refine Spec.pure ⟨?_, ⟨?_, ?_, ?_⟩, fun _ htidy => ⟨?_, ?_, ?_⟩⟩
  · rw [Client.own_some (c := c.closed d) rfl, add_comm]
    rfl
  · rintro _ ⟨rfl⟩
    exact hlisted
  · intro hfive _
    change d.mqtt5Config.isSome
    rw [hsteady.mqtt5]
    exact hc.storage hfive hsome
  · intro hfive _ hd5
    exact hc.version hfive hsome (hsteady.version.symm.trans hd5)
  · exact hsteady.lost.trans htidy.lost
  · exact fun hfive _ => hsteady.version.trans (htidy.version hfive hsome)
  · intro hfive
    exact ⟨hsteady.mqtt5.trans (htidy.nothing5 hfive).1, hsteady.event.trans (htidy.nothing5 hfive).2⟩

/-- The properties of version 5 apart, a client owns what it owns without them. -/
theorem own_mqtt5 (hs : c.config = some s) (m : Mqtt5Config) :
    ({c with mqtt5Config := some m} : Client).own = holds m.pointers+({c with mqtt5Config := none} : Client).own := by
  rw [Client.own_some (c := {c with mqtt5Config := some m}) hs,
    Client.own_some (c := {c with mqtt5Config := none}) hs]
  simp only [Configured.own, Configured.pointers, Client.opened, ClientBody.pointers5, Client.handles,
    holds_append, holds_cons, holds_nil]
  abel

theorem mqtt5_block_mem (m : Mqtt5Config) : m.block ∈ holds m.pointers := by
  unfold Mqtt5Config.pointers
  rw [holds_append, holds_cons, held_some]
  simp

/-- A call that only changes the properties of version 5. -/
theorem keeps_mqtt5 (hc : Sound five c) (m : Mqtt5Config) (hfive : five) :
    Sound five {c with mqtt5Config := some m} ∧ (Tidy five c → Tidy five {c with mqtt5Config := some m}) :=
  ⟨⟨hc.listed, fun _ _ => rfl, fun hno => absurd hfive hno⟩,
    fun htidy => ⟨htidy.lost, htidy.version, fun hno => absurd hfive hno⟩⟩

theorem setConnectProperty_keeps (hc : Sound five c) (hs : c.config = some s) (p : ConnectionProperty) :
    Spec mem c.own (espMqtt5ClientSetConnectProperty p c) fun r o =>
      o = r.2.own ∧ CallKeeps five mem (.setConnectProperty p) c r := by
  have hsome : c.config.isSome := by rw [hs]; rfl
  unfold espMqtt5ClientSetConnectProperty
  split
  · exact Spec.pure ⟨rfl, hc, fun _ h => h⟩
  · rename_i hversion
    have hv5 : c.information.protocolVer = some .v5 := Classical.not_not.mp hversion
    have hfive : five := by
      by_contra hno
      exact hc.version hno hsome hv5
    obtain ⟨m,hm⟩ := Option.isSome_iff_exists.mp (hc.storage hfive hsome)
    rw [hm]
    have hown := own_mqtt5 hs m
    have hsame : ({c with mqtt5Config := some m} : Client) = c := by rw [← hm]
    rw [hsame] at hown
    rw [hown]
    apply Spec.bind (Spec.touch (Multiset.mem_add.mpr (Or.inl (mqtt5_block_mem m))) (Q := fun _ o => o = _) rfl)
    rintro - _ rfl
    apply Spec.bind ((connectParts_spec c.inBufferLength p m).frame _)
    rintro ⟨err,m'⟩ _ ⟨_,rfl,rfl⟩
    have hown' := own_mqtt5 hs m'
    cases err with
    | none => exact Spec.pure ⟨hown'.symm, (keeps_mqtt5 hc m' hfive).1, fun _ => (keeps_mqtt5 hc m' hfive).2⟩
    | some err =>
      dsimp only
      rw [← hown']
      apply Spec.bind (espMqttDestroyConfig_spec (c := {c with mqtt5Config := some m'}) hs (hc.listed s hs))
      rintro _ _ ⟨rfl,rfl⟩
      refine Spec.pure ⟨rfl, ⟨?_, ?_, ?_⟩, fun _ htidy => ⟨?_, ?_, ?_⟩⟩
      · exact fun _ h => by cases h
      · exact fun _ h => by cases h
      · exact fun _ h => by cases h
      · change c.lost+(({c with mqtt5Config := some m'} : Client).opened s).left5 = 0
        rw [htidy.lost, zero_add, Configured.left5]
        exact if_pos hv5
      · exact fun _ h => by cases h
      · exact fun hno => absurd hfive hno

theorem setDisconnectProperty_keeps (hc : Sound five c) (hs : c.config = some s) (p : DisconnectProperty) :
    Spec mem c.own (espMqtt5ClientSetDisconnectProperty p c) fun r o =>
      o = r.2.own ∧ CallKeeps five mem (.setDisconnectProperty p) c r := by
  have hsome : c.config.isSome := by rw [hs]; rfl
  unfold espMqtt5ClientSetDisconnectProperty
  split
  · exact Spec.pure ⟨rfl, hc, fun _ h => h⟩
  · rename_i hversion
    have hv5 : c.information.protocolVer = some .v5 := Classical.not_not.mp hversion
    have hfive : five := by
      by_contra hno
      exact hc.version hno hsome hv5
    obtain ⟨m,hm⟩ := Option.isSome_iff_exists.mp (hc.storage hfive hsome)
    rw [hm]
    have hown := own_mqtt5 hs m
    have hsame : ({c with mqtt5Config := some m} : Client) = c := by rw [← hm]
    rw [hsame] at hown
    rw [hown]
    apply Spec.bind (Spec.touch (Multiset.mem_add.mpr (Or.inl (mqtt5_block_mem m))) (Q := fun _ o => o = _) rfl)
    rintro - _ rfl
    generalize hm' : ({m with
        disconnectSessionExpiryInterval :=
          if p.sessionExpiryInterval ≠ 0 then p.sessionExpiryInterval else m.disconnectSessionExpiryInterval
        disconnectReason := if p.disconnectReason ≠ 0 then p.disconnectReason else m.disconnectReason} :
          Mqtt5Config) = m'
    have hpointers : holds m.pointers = holds m'.pointers := by rw [← hm']; rfl
    rw [hpointers]
    cases hitems : p.userProperty with
    | none =>
      exact Spec.pure ⟨(own_mqtt5 hs m').symm, (keeps_mqtt5 hc m' hfive).1, fun _ => (keeps_mqtt5 hc m' hfive).2⟩
    | some items =>
      have happart := List5.disconnect.holds_set m' (List5.disconnect.get m')
      rw [List5.set_get] at happart
      rw [happart, add_assoc]
      dsimp only
      apply Spec.bind (replaceList_spec .disconnect _ items _)
      rintro ⟨given,l⟩ _ ⟨rfl,hgiven⟩
      have hset : ∀ l : Option PropertyList, holds (propertyPointers l)+
          (holds (List5.disconnect.set m' none).pointers+({c with mqtt5Config := none} : Client).own) =
          ({c with mqtt5Config := some (List5.disconnect.set m' l)} : Client).own := by
        intro l
        rw [own_mqtt5 hs, List5.disconnect.holds_set m' l, add_assoc]
      cases given with
      | true =>
        exact Spec.pure ⟨hset l, (keeps_mqtt5 hc _ hfive).1, fun _ => (keeps_mqtt5 hc _ hfive).2⟩
      | false =>
        cases l with
        | none => exact Spec.pure ⟨hset none, (keeps_mqtt5 hc _ hfive).1, fun _ => (keeps_mqtt5 hc _ hfive).2⟩
        -- only the head of the list is freed
        | some l =>
          have hnone := hset none
          rw [propertyPointers, holds_nil, zero_add] at hnone
          dsimp only
          rw [hnone, propertyPointers_some, add_comm (itemBlocks l.items), add_assoc]
          apply Spec.bind (Spec.free (Q := fun _ o => o = _) rfl)
          rintro - _ rfl
          refine Spec.pure ⟨?_, ⟨hc.listed, fun _ _ => rfl, fun hno => absurd hfive hno⟩, fun hcareful _ => ?_⟩
          · dsimp only
            rw [Client.own_some (c := {c with mqtt5Config := some (List5.disconnect.set m' none)}) hs,
              Client.own_some (c := {c with
                mqtt5Config := some (List5.disconnect.set m' none)
                lost := c.lost+holds l.itemPointers}) hs]
            have hlost := own_lost (({c with mqtt5Config := some (List5.disconnect.set m' none)} : Client).opened s)
              (holds l.itemPointers)
            change Configured.own (Client.opened {c with
              mqtt5Config := some (List5.disconnect.set m' none)
              lost := c.lost+holds l.itemPointers} s) = _ at hlost
            rw [hlost]
            change itemBlocks l.items+(holds c.handles+_) = holds c.handles+(_+itemBlocks l.items)
            abel
          · have htrue := hgiven (hcareful.properties p rfl (by rw [hitems]; rfl)) rfl
            cases htrue

theorem call_keeps (halpn : ∀ n, mem .alpnProtos n = true) (hc : Sound five c) (hs : c.config = some s)
    (hfits : next.Fits five) :
    Spec mem c.own (call b http id c next) fun r o => o = r.2.own ∧ CallKeeps five mem next c r := by
  cases next with
  | setConfig config => exact setConfig_keeps halpn hc hs hfits
  | setUri uri => exact setUri_keeps hc hs uri
  | setConnectProperty p => exact setConnectProperty_keeps hc hs p
  | setDisconnectProperty p => exact setDisconnectProperty_keeps hc hs p

/-- By induction over the calls, none of which is made on a client without a configuration. -/
theorem calls_keep (halpn : ∀ n, mem .alpnProtos n = true) (cs : List Call) (hc : Sound five c)
    (hfits : ∀ next ∈ cs, next.Fits five) :
    Spec mem c.own (calls b http id cs c) fun d o =>
      o = d.own ∧ Sound five d ∧ ((∀ next ∈ cs, next.Careful five mem) → Tidy five c → Tidy five d) := by
  induction cs generalizing c with
  | nil => exact Spec.pure ⟨rfl, hc, fun _ h => h⟩
  | cons next cs ih =>
    unfold calls
    cases hs : c.config with
    | none => exact Spec.pure ⟨rfl, hc, fun _ h => h⟩
    | some s =>
      apply Spec.bind (call_keeps halpn hc hs (hfits next (List.mem_cons_self ..)))
      rintro r _ ⟨rfl,hsound,htidy⟩
      apply (ih hsound fun next' hnext => hfits next' (List.mem_cons_of_mem _ hnext)).mono
      rintro d _ ⟨rfl,hd,hrest⟩
      refine ⟨rfl, hd, fun hcareful h => hrest ?_ (htidy (hcareful next (List.mem_cons_self ..)) h)⟩
      exact fun next' hnext => hcareful next' (List.mem_cons_of_mem _ hnext)

end Calls

/-! The whole life. -/

/-- What is left allocated is what was lost, and the memory of version 5 where the version is another
by now. -/
theorem espMqttClientDestroy_spec {c : Client} (hc : ∀ s, c.config = some s → Listed s) :
    Spec mem c.own (espMqttClientDestroy c) fun left o => o = left ∧ left = c.lost+c.left5 := by
  unfold espMqttClientDestroy
  have hdestroy : Spec mem c.own (espMqttDestroyConfig c) fun d o => o = holds d.handles+d.lost ∧
      d.lost = c.lost+c.left5 := by
    cases hs : c.config with
    | none =>
      unfold espMqttDestroyConfig
      rw [hs]
      rw [Client.left5_none hs, add_zero]
      exact Spec.pure ⟨Client.own_none hs, rfl⟩
    | some s =>
      apply (espMqttDestroyConfig_spec hs (hc s hs)).mono
      rintro _ _ ⟨rfl,rfl⟩
      rw [Client.left5_some hs]
      exact ⟨Client.own_none rfl, rfl⟩
  apply Spec.bind hdestroy
  rintro d _ ⟨rfl,hlost⟩
  apply Spec.bind (Spec.freeAll (Q := fun _ o => o = d.lost) rfl)
  rintro - _ rfl
  exact Spec.pure ⟨rfl, hlost⟩

/-- A client that has not been configured. -/
structure Blank (c : Client) : Prop where
  body : c.toClientBody = (Client.zero c.block).toClientBody
  config : c.config = none

theorem Blank.opened_own {c : Client} (h : Blank c) (b : ℕ) : (c.opened (.zero b)).own = {b} := by
  have hbody := h.body
  have hopened : c.opened (.zero b) = ⟨(Client.zero c.block).toClientBody, .zero b⟩ := by
    rw [← hbody]
    rfl
  rw [hopened]
  rfl

theorem Blank.own {c : Client} (h : Blank c) : c.own = holds c.handles := by
  have hlost : c.lost = 0 := congrArg ClientBody.lost h.body
  rw [Client.own_none h.config, hlost, add_zero]

/-- `create_client_data` keeps what it got, in all cases. -/
theorem createClientData_spec (block : ℕ) :
    Spec mem {block} (createClientData (.zero block)) fun r o => o = r.2.own ∧ Blank r.2 := by
  have hzero : ({block} : Multiset ℕ) = holds (Client.zero block).handles := rfl
  have hown : ∀ c : Client, Blank c → holds c.handles = c.own := fun c hc => hc.own.symm
  unfold createClientData
  apply Spec.bind Spec.alloc_held
  rintro errorHandle _ rfl
  split
  · rename_i hnone
    rw [Option.isNone_iff_eq_none.mp hnone, held_none, zero_add, hzero]
    exact Spec.pure ⟨hown _ ⟨rfl, rfl⟩, rfl, rfl⟩
  apply Spec.bind Spec.alloc_held
  rintro apiLock _ rfl
  split
  · rename_i hnone
    refine Spec.pure ⟨Eq.trans ?_ (hown _ ⟨rfl, rfl⟩), rfl, rfl⟩
    rw [Option.isNone_iff_eq_none.mp hnone]
    simp only [Client.handles, Client.zero, holds_cons, holds_nil, held_none, held_some]
    abel
  apply Spec.bind Spec.alloc_held
  rintro outbox _ rfl
  split
  · rename_i hnone
    refine Spec.pure ⟨Eq.trans ?_ (hown _ ⟨rfl, rfl⟩), rfl, rfl⟩
    rw [Option.isNone_iff_eq_none.mp hnone]
    simp only [Client.handles, Client.zero, holds_cons, holds_nil, held_none, held_some]
    abel
  apply Spec.bind Spec.alloc_held
  rintro statusBits _ rfl
  refine Spec.pure ⟨Eq.trans ?_ (hown _ ⟨rfl, rfl⟩), rfl, rfl⟩
  simp only [Client.handles, Client.zero, holds_cons, holds_nil, held_some]
  abel

/-- What a client is like after its first `esp_mqtt_set_config`: that one cannot lose anything. -/
structure Configuring (config : ClientConfig) (c : Client) : Prop where
  listed : ∀ s, c.config = some s → Listed s
  lost : c.lost = 0
  mqtt5 : c.mqtt5Config = none
  event : c.eventProperty = none
  version : c.config.isSome →
    (c.information.protocolVer = some .v5 ↔ config.protocolVer = some .v5)
  none5 : c.config = none → c.information.protocolVer ≠ some .v5

theorem setConfig_first (halpn : ∀ n, mem .alpnProtos n = true) {c : Client} (hc : Blank c) :
    Spec mem c.own (espMqttSetConfig b http id config c) fun r o =>
      o = r.2.own ∧ Configuring config r.2 ∧ (BuffersGiven mem → r.1 = .ok → r.2.config.isSome) := by
  have hlost : c.lost = 0 := congrArg ClientBody.lost hc.body
  have hmqtt5 : c.mqtt5Config = none := congrArg ClientBody.mqtt5Config hc.body
  have hevent : c.eventProperty = none := congrArg ClientBody.eventProperty hc.body
  have hversion : c.information.protocolVer = none :=
    congrArg (fun body : ClientBody => body.information.protocolVer) hc.body
  unfold espMqttSetConfig
  rw [hc.config]
  apply Spec.bind (Q := fun storage o => (storage = none ∧ o = c.own) ∨
    ∃ b, storage = some (.zero b) ∧ o = {b}+c.own)
  · apply Spec.bind (Q := fun p o => (p = none ∧ o = c.own) ∨ ∃ b, p = some b ∧ o = {b}+c.own)
    · exact Spec.alloc (fun b => Or.inr ⟨b, rfl, (Multiset.singleton_add b _).symm⟩) fun _ => Or.inl ⟨rfl, rfl⟩
    · rintro p _ (⟨rfl,rfl⟩ | ⟨b,rfl,rfl⟩)
      · exact Spec.pure (Or.inl ⟨rfl, rfl⟩)
      · exact Spec.pure (Or.inr ⟨b, rfl, rfl⟩)
  rintro _ _ (⟨rfl,rfl⟩ | ⟨block,rfl,rfl⟩)
  · refine Spec.pure ⟨rfl, ⟨?_, hlost, hmqtt5, hevent, ?_, ?_⟩, fun _ => nofun⟩
    · exact fun s hs => absurd (hc.config.symm.trans hs) (by simp)
    · exact fun hsome => absurd (hc.config ▸ hsome) (by simp)
    · exact fun _ hv => absurd (hversion.symm.trans hv) (by simp)
  · dsimp only
    rw [hc.own, ← hc.opened_own block, add_comm]
    apply (configure_spec halpn (s := .zero block) rfl).mono
    rintro ⟨err,e⟩ o ⟨rfl,hend,hok⟩
    refine ⟨rfl, ?_, hok⟩
    have hnothing : ∀ d, Progress config (c.opened (.zero block)) True True d → d.lost = 0 := fun d hd =>
      (hd.lost (fun _ => Or.inr rfl) fun _ => Or.inr rfl).trans hlost
    cases hend with
    | filled d hd hv =>
      refine ⟨?_, hnothing d hd, hd.mqtt5.trans hmqtt5, hd.event.trans hevent, fun _ => ⟨fun h => ?_, hv⟩, nofun⟩
      · intro s hs
        rw [← Option.some.inj hs]
        exact hd.listed
      · have hno : (c.opened (.zero block)).information.protocolVer ≠ some .v5 := by
          change c.information.protocolVer ≠ some .v5
          rw [hversion]
          simp
        exact (hd.becomes h).resolve_left hno
    | gone d hd =>
      have hgone : ((c.closed d).destroyed d.config).config = none := rfl
      have hzero : ((c.closed d).destroyed d.config).information.protocolVer = none := rfl
      refine ⟨fun s hs => ?_, ?_, hd.mqtt5.trans hmqtt5, hd.event.trans hevent, fun hsome => ?_, fun _ hv => ?_⟩
      · exact absurd (hgone.symm.trans hs) (by simp)
      · change d.lost+d.left5 = 0
        rw [hnothing d hd, zero_add]
        exact left5_eq_zero (hd.mqtt5.trans hmqtt5) (hd.event.trans hevent)
      · change (none : Option ConfigStorage).isSome at hsome
        cases hsome
      · exact absurd (hzero.symm.trans hv) (by simp)

theorem Configuring.left5 {c : Client} (h : Configuring config c) : c.lost+c.left5 = 0 := by
  rw [h.lost, zero_add]
  cases hs : c.config with
  | none => exact Client.left5_none hs
  | some s =>
    rw [Client.left5_some hs]
    exact left5_eq_zero (d := c.opened s) h.mqtt5 h.event

/-- A client that `esp_mqtt_client_init` gives up leaves nothing. -/
theorem giveUp_spec {c : Client} (hlisted : ∀ s, c.config = some s → Listed s)
    (hleft : c.lost+c.left5 = 0) {Q : Except (Multiset ℕ) Client → Multiset ℕ → Prop}
    (h : Q (.error 0) 0) :
    Spec mem c.own
      (do
        let left ← espMqttClientDestroy c
        pure (.error left)) Q := by
  apply Spec.bind (espMqttClientDestroy_spec hlisted)
  rintro left _ ⟨rfl,rfl⟩
  rw [hleft]
  exact Spec.pure h

theorem espMqtt5CreateDefaultConfig_spec {c : Client} {s : ConfigStorage} (hs : c.config = some s)
    (hmqtt5 : c.mqtt5Config = none) (hevent : c.eventProperty = none) :
    Spec mem c.own (espMqtt5CreateDefaultConfig c) fun r o => o = r.2.own ∧ r.2.config = some s ∧
      r.2.information = c.information ∧ r.2.lost = c.lost ∧
      (r.1 = true → c.information.protocolVer = some .v5 → r.2.mqtt5Config.isSome) ∧
      (c.information.protocolVer ≠ some .v5 → r.2.mqtt5Config = none ∧ r.2.eventProperty = none) := by
  have hown : ∀ p m, ({c with eventProperty := p, mqtt5Config := m.map Mqtt5Config.zero} : Client).own =
      held m+(held p+c.own) := by
    intro p m
    rw [Client.own_some (c := {c with eventProperty := p, mqtt5Config := m.map Mqtt5Config.zero}) hs,
      Client.own_some hs]
    cases m with
    | none =>
      simp only [Configured.own, Configured.pointers, Client.opened, ClientBody.pointers5, Client.handles,
        hmqtt5, hevent, Option.map_none, holds_append, holds_cons, holds_nil, held_none]
      abel
    | some m =>
      have hzero : holds (Mqtt5Config.zero m).pointers = {m} := rfl
      simp only [Configured.own, Configured.pointers, Client.opened, ClientBody.pointers5, Client.handles,
        hmqtt5, hevent, Option.map_some, holds_append, holds_cons, holds_nil, held_none, held_some, hzero]
      abel
  unfold espMqtt5CreateDefaultConfig
  split
  · rename_i hv
    apply Spec.bind Spec.alloc_held
    rintro p _ rfl
    split
    · have h := hown p none
      rw [held_none, zero_add, Option.map_none] at h
      have hsame : ({c with eventProperty := p, mqtt5Config := none} : Client) = {c with eventProperty := p} := by
        rw [← hmqtt5]
      rw [hsame] at h
      exact Spec.pure ⟨h.symm, hs, rfl, rfl, fun hno => absurd hno Bool.false_ne_true, fun hno => absurd hv hno⟩
    · apply Spec.bind Spec.alloc_held
      rintro m _ rfl
      refine Spec.pure ⟨(hown p m).symm, hs, rfl, rfl, fun hm _ => ?_, fun hno => absurd hv hno⟩
      change (m.map Mqtt5Config.zero).isSome
      rw [Option.isSome_map]
      exact hm
  · rename_i hv
    exact Spec.pure ⟨rfl, hs, rfl, rfl, fun _ h => absurd h hv, fun _ => ⟨hmqtt5, hevent⟩⟩

/-- `esp_mqtt_client_init` hands out a client that owns its memory, or leaves nothing. -/
theorem espMqttClientInit_spec (halpn : ∀ n, mem .alpnProtos n = true)
    (hloop : b.eventLoop = true → BuffersGiven mem) :
    Spec mem 0 (espMqttClientInit b http id config) fun r o =>
      match r with
      | .error left => left = 0 ∧ o = 0
      | .ok c => o = c.own ∧ Sound (config.protocolVer = some .v5) c ∧ Tidy (config.protocolVer = some .v5) c := by
  unfold espMqttClientInit
  apply Spec.bind (Q := fun p o => o = held p)
  · apply Spec.alloc
    · exact fun _ => rfl
    · exact fun _ => rfl
  rintro block _ rfl
  cases block with
  | none => exact Spec.pure ⟨rfl, rfl⟩
  | some block =>
    apply Spec.bind (createClientData_spec block)
    rintro ⟨made,c⟩ _ ⟨rfl,hblank⟩
    split
    · have hlost : c.lost = 0 := congrArg ClientBody.lost hblank.body
      apply giveUp_spec
      · exact fun s hs => absurd (hblank.config.symm.trans hs) (by simp)
      · dsimp only
        rw [Client.left5_none hblank.config, hlost, add_zero]
      · exact ⟨rfl, rfl⟩
    · apply Spec.bind (setConfig_first halpn hblank)
      rintro ⟨err,d⟩ _ ⟨rfl,hd,hok⟩
      split
      · exact giveUp_spec hd.listed hd.left5 ⟨rfl, rfl⟩
      · rename_i herr
        have herr : err = .ok := Classical.not_not.mp herr
        split
        · rename_i hboth
          have hsome := hok (hloop hboth.1) herr
          rw [← Option.not_isSome, hsome] at hboth
          cases hboth.2
        · cases hs : d.config with
          -- without an event loop a client without a configuration is handed out
          | none =>
            unfold espMqtt5CreateDefaultConfig
            rw [if_neg (hd.none5 hs)]
            apply Spec.bind (Q := fun r o => r = (true, d) ∧ o = d.own) (Spec.pure ⟨rfl, rfl⟩)
            rintro _ _ ⟨rfl,rfl⟩
            have hnone : ∀ {P : Prop}, d.config.isSome → P := fun h => absurd (hs ▸ h) (by simp)
            exact Spec.pure ⟨rfl, ⟨hd.listed, fun _ => hnone, fun _ => hnone⟩, hd.lost, fun _ => hnone,
              fun _ => ⟨hd.mqtt5, hd.event⟩⟩
          | some s =>
            have hversion := hd.version (by rw [hs]; rfl)
            apply Spec.bind (espMqtt5CreateDefaultConfig_spec hs hd.mqtt5 hd.event)
            rintro ⟨created,e⟩ _ ⟨rfl,hconfig,hinformation,hlost,hstorage,hother⟩
            have hlisted : ∀ s', e.config = some s' → Listed s' := by
              intro s' hs'
              exact hd.listed s' (hs.trans (hconfig.symm.trans hs'))
            have hlost0 : e.lost = 0 := hlost.trans hd.lost
            split
            · rename_i hcreated
              refine Spec.pure ⟨rfl, ⟨hlisted, fun h _ => hstorage hcreated (hversion.mpr h), fun h _ => ?_⟩,
                hlost0, fun h _ => ?_, fun h => hother fun hv => h (hversion.mp hv)⟩
              · rw [hinformation]
                exact fun hv => h (hversion.mp hv)
              · rw [hinformation]
                exact hversion.mpr h
            · refine giveUp_spec hlisted ?_ ⟨rfl, rfl⟩
              rw [hlost0, zero_add, Client.left5_some hconfig]
              by_cases hv : d.information.protocolVer = some .v5
              · exact if_pos (hinformation ▸ hv)
              · exact left5_eq_zero (d := e.opened s) (hother hv).1 (hother hv).2

/-- The calls an application makes, where the version is not set to 5 on a client that was not made for
it. -/
def VersionFits (config : ClientConfig) (cs : List Call) : Prop :=
  ∀ next ∈ cs, next.Fits (config.protocolVer = some .v5)

/-- From `esp_mqtt_client_init` to `esp_mqtt_client_destroy`: what is still allocated then is what was
lost, and nothing is lost by careful calls. -/
theorem lifetime_spec (halpn : ∀ n, mem .alpnProtos n = true) (hloop : b.eventLoop = true → BuffersGiven mem)
    {cs : List Call} (hfits : VersionFits config cs) :
    Spec mem 0 (lifetime b http id config cs) fun left o => o = left ∧
      ((∀ next ∈ cs, next.Careful (config.protocolVer = some .v5) mem) → left = 0) := by
  unfold lifetime
  apply Spec.bind (espMqttClientInit_spec halpn hloop)
  rintro r o ho
  cases r with
  | error left =>
    obtain ⟨rfl,rfl⟩ := ho
    exact Spec.pure ⟨rfl, fun _ => rfl⟩
  | ok c =>
    obtain ⟨rfl,hsound,htidy⟩ := ho
    apply Spec.bind (calls_keep halpn cs hsound hfits)
    rintro d _ ⟨rfl,hd,hkept⟩
    apply (espMqttClientDestroy_spec hd.listed).mono
    rintro left _ ⟨rfl,hleft⟩
    refine ⟨rfl, fun hcareful => ?_⟩
    have htidy := hkept hcareful htidy
    rw [hleft, htidy.lost, zero_add]
    cases hs : d.config with
    | none => exact Client.left5_none hs
    | some s =>
      have hsome : d.config.isSome := by rw [hs]; rfl
      rw [Client.left5_some hs]
      by_cases hfive : config.protocolVer = some .v5
      · exact if_pos (htidy.version hfive hsome)
      · exact left5_eq_zero (d := d.opened s) (htidy.nothing5 hfive).1 (htidy.nothing5 hfive).2

/-- Whatever else runs out of memory, no call of a client's life frees what is not allocated or follows
a pointer that leads nowhere, and in the end exactly what was lost is still allocated. -/
theorem lifetime_defined (b : Build) (http : (s : CString) → Option (HttpParserUrl s.text)) (id : List UInt8)
    (config : ClientConfig) (cs : List Call) (mem : Supply Site) (halpn : ∀ n, mem .alpnProtos n = true)
    (hloop : b.eventLoop = true → BuffersGiven mem) (hfits : VersionFits config cs) :
    ∃ left h, lifetime b http id config cs mem Heap.empty = some (left, h) ∧ h.live = left := by
  obtain ⟨left,h,hrun,hlive,-⟩ := (lifetime_spec halpn hloop hfits).run Heap.empty rfl
  exact ⟨left, h, hrun, hlive⟩

/-- A configuration of zeros. -/
def ClientConfig.zero : ClientConfig where
  hostname := none
  path := none
  uri := none
  port := 0
  overTransport := none
  useGlobalCaStore := false
  certificate := false
  pskHintKey := false
  alpnProtos := none
  username := none
  clientId := none
  setNullClientId := false
  password := none
  clientCertificate := false
  keyPassword := none
  willTopic := none
  willMsg := none
  willQos := 0
  willRetain := 0
  disableCleanSession := false
  keepalive := 0
  disableKeepalive := false
  protocolVer := none
  messageRetransmitTimeout := 0
  reconnectTimeoutMs := 0
  networkTimeoutMs := 0
  refreshConnectionAfterMs := 0
  disableAutoReconnect := false
  ifName := none
  taskPriority := 0
  taskStackSize := 0
  bufferSize := 0
  bufferOutSize := 0
  outboxLimit := 0

/-- A client of version 5 with a host, a will and a list of protocols, over TLS. -/
def secureConfig : ClientConfig :=
  {ClientConfig.zero with
    hostname := some ⟨[0x68], by decide, by decide⟩
    overTransport := some .mqtts
    useGlobalCaStore := true
    alpnProtos := some [⟨[0x61], by decide, by decide⟩, ⟨[0x62], by decide, by decide⟩]
    willTopic := some ⟨[0x77], by decide, by decide⟩
    willMsg := some [1, 2]
    protocolVer := some .v5
    ifName := some [3]}

def fullBuild : Build where
  enableSsl := true
  enableWs := true
  enableWss := true
  defaultPort := fun _ => 1883
  bufferSizeByte := 1024
  taskPriority := 5
  taskStack := 6144
  protocol311 := true
  protocol5 := true
  eventLoop := true

/-- Its properties. -/
def secureProperty : ConnectionProperty where
  sessionExpiryInterval := 10
  maximumPacketSize := 0
  receiveMaximum := 5
  topicAliasMaximum := 2
  requestRespInfo := false
  requestProblemInfo := false
  willDelayInterval := 0
  messageExpiryInterval := 0
  payloadFormatIndicator := false
  userProperty := some [(⟨[0x71], by decide, by decide⟩, ⟨[0x72], by decide, by decide⟩)]
  contentType := some ⟨[0x74], by decide, by decide⟩
  responseTopic := none
  correlationData := some [9]
  willUserProperty := none

/-- With them another interface name, and two properties for a disconnect. -/
def secureCalls : List Call :=
  [.setConnectProperty secureProperty, .setConfig {secureConfig with ifName := some [4]},
    .setDisconnectProperty ⟨0, 4, some [(⟨[0x71], by decide, by decide⟩, ⟨[0x72], by decide, by decide⟩),
      (⟨[0x6c], by decide, by decide⟩, ⟨[0x77], by decide, by decide⟩)]⟩]

/-- Memory that runs out of values for the user properties of a list. -/
def scarceMemory (l : List5) (answered : ℕ) : Supply Site := fun site n =>
  decide (site ≠ .propertyValue l) || decide (n < answered)

theorem lifetime_defined_secure :
    ∃ left h, lifetime fullBuild (fun _ => none) [] secureConfig secureCalls (scarceMemory .disconnect 40)
      Heap.empty = some (left, h) ∧ h.live = left :=
  lifetime_defined fullBuild (fun _ => none) [] secureConfig secureCalls (scarceMemory .disconnect 40)
    (fun _ => rfl) (fun _ => ⟨fun _ => rfl, fun _ => rfl⟩) fun _ _ hno => absurd rfl hno

/-- Careful calls leave nothing. -/
theorem lifetime_frees_all (b : Build) (http : (s : CString) → Option (HttpParserUrl s.text)) (id : List UInt8)
    (config : ClientConfig) (cs : List Call) (mem : Supply Site) (halpn : ∀ n, mem .alpnProtos n = true)
    (hloop : b.eventLoop = true → BuffersGiven mem) (hfits : VersionFits config cs)
    (hcareful : ∀ next ∈ cs, next.Careful (config.protocolVer = some .v5) mem) :
    ∃ left h, lifetime b http id config cs mem Heap.empty = some (left, h) ∧ h.live = 0 := by
  obtain ⟨left,h,hrun,hlive,hleft⟩ := (lifetime_spec halpn hloop hfits).run Heap.empty rfl
  exact ⟨left, h, hrun, hlive.trans (hleft hcareful)⟩

theorem careful_setConnectProperty (five : Prop) (mem : Supply Site) (p : ConnectionProperty) :
    (Call.setConnectProperty p).Careful five mem :=
  ⟨fun _ h => Call.noConfusion h, fun _ h => Call.noConfusion h⟩

theorem careful_setDisconnectProperty (five : Prop) {mem : Supply Site} (h : ItemsGiven mem .disconnect)
    (p : DisconnectProperty) : (Call.setDisconnectProperty p).Careful five mem :=
  ⟨fun _ h => Call.noConfusion h, fun _ _ _ => h⟩

/-- Properties for a disconnect, and then properties for the connection that cannot be copied. -/
def refusedCalls : List Call :=
  [.setDisconnectProperty ⟨0, 4, some [(⟨[0x71], by decide, by decide⟩, ⟨[0x72], by decide, by decide⟩)]⟩,
    .setConnectProperty secureProperty]

theorem lifetime_frees_all_refused :
    ∃ left h, lifetime fullBuild (fun _ => none) [] secureConfig refusedCalls (scarceMemory .connect 0)
      Heap.empty = some (left, h) ∧ h.live = 0 :=
  lifetime_frees_all fullBuild (fun _ => none) [] secureConfig refusedCalls (scarceMemory .connect 0)
    (fun _ => rfl) (fun _ => ⟨fun _ => rfl, fun _ => rfl⟩) (fun _ _ hno => absurd rfl hno)
    (List.forall_mem_cons.mpr
      ⟨careful_setDisconnectProperty _ ⟨fun _ => rfl, fun _ => rfl, fun _ => rfl⟩ _,
        List.forall_mem_singleton.mpr (careful_setConnectProperty _ _ _)⟩)

end EspMqtt.Memory
