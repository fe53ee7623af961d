import EspMqtt.BrokerAddress
import EspMqtt.PercentDecode
import EspMqtt.Runtime

/-! `esp_mqtt_client_set_uri`: the copies it makes before it takes the lock, and what it then
commits. -/
namespace EspMqtt
open PercentEncoding (decode Encodes MeetsBadEscape)

/-- `enum http_parser_url_fields`, as far as the client looks at them. -/
inductive UrlField where
  | schema | host | port | path | query | userinfo
  deriving DecidableEq, Repr

/-- `struct http_parser_url` of a URI that is accepted: where in it each field lies.  One that is
not there has no length. -/
structure HttpParserUrl (uri : List UInt8) where
  off : UrlField → UInt16
  len : UrlField → UInt16
  inside : ∀ f, (off f).toNat+(len f).toNat ≤ uri.length

/-- The bytes of a field. -/
def HttpParserUrl.field {uri : List UInt8} (p : HttpParserUrl uri) (f : UrlField) : List UInt8 :=
  (uri.drop (p.off f).toNat).take (p.len f).toNat

/-- What the URI changes in the client. -/
structure UriClient where
  address : BrokerAddress
  username : Option (List UInt8)
  password : Option (List UInt8)
  deriving DecidableEq

/-- `uri`; `own` says that it is `client->config->uri`. -/
structure UriPointer (c : UriClient) where
  string : CString
  own : Bool
  same : own = true → c.address.uri = some string.text

/-- Which of the allocations succeed. -/
structure UriMemory where
  scheme : Bool
  host : Bool
  path : Bool
  userInfo : Bool
  password : Bool
  username : Bool
  uri : Bool

/-- `mqtt_create_string`; NULL also for an empty string. -/
def mqttCreateString (memory : Bool) (text : List UInt8) : Option (List UInt8) :=
  if text = [] then none else if memory then some text else none

/-- `strdup` of what is in a buffer. -/
def strdup (memory : Bool) (buffer : List UInt8) : Option (List UInt8) :=
  if memory then some (buffer.takeWhile (· ≠ 0)) else none

/-- `%.*s`, `/?%.*s` or `%.*s?%.*s`. -/
def printPath (path query : List UInt8) : List UInt8 :=
  if query = [] then path
  else if path = [] then 0x2f :: 0x3f :: query
  else path ++ 0x3f :: query

/-- What `asprintf` makes `new_path`, which stays NULL without path and query; `none` is -1. -/
def asprintfPath (memory : Bool) (path query : List UInt8) : Option (Option (List UInt8)) :=
  if path ≠ [] ∨ query ≠ [] then if memory then some (some (printPath path query)) else none
  else some none

/-- The user information up to the first colon. -/
def userPart (info : List UInt8) : List UInt8 := info.takeWhile (· ≠ 0x3a)

/-- What is behind the colon that `strchr` finds. -/
def passwordPart (info : List UInt8) : Option (List UInt8) :=
  if 0x3a ∈ info then some (info.dropWhile (· ≠ 0x3a)).tail else none

/-- A part of the user information decoded in place and copied; `some none` is an error in it, and
`some (some none)` a copy for which there is no memory. -/
def decodedCopy (memory : Bool) (part : List UInt8) : Option (Option (Option (List UInt8))) :=
  (espMqttDecodePercentEncodedString (some (part ++ [0]))).map fun r =>
    if r.1 < 0 then none else some (strdup memory r.2)

/-- `new_username` and `new_password`; `some none` is `ESP_FAIL`. -/
def newCredentials (m : UriMemory) (info : List UInt8) :
    Option (Option (Option (List UInt8) × Option (List UInt8))) :=
  match mqttCreateString m.userInfo info with
  | none => some (some (none, none))
  | some userInfo =>
    let pass :=
      match passwordPart userInfo with
      | none => some (some none)
      | some pass => decodedCopy m.password pass
    pass.bind fun
      | none => some none
      | some newPassword =>
        (decodedCopy m.username (userPart userInfo)).map fun r => r.map fun newUsername =>
          (newUsername, newPassword)

/-- `strtol` to the base 10 on a text that begins with its digits. -/
def strtolDecimal (text : List UInt8) : ℕ :=
  (text.takeWhile fun ch => decide (0x30 ≤ ch ∧ ch ≤ 0x39)).foldl (fun n ch => n*10+(ch.toNat-0x30)) 0

/-- What happens under the lock. -/
def commitUri (m : UriMemory) (c : UriClient) (uri : UriPointer c) (puri : HttpParserUrl uri.string.text)
    (newScheme newHost : List UInt8) (newPath newUsername newPassword : Option (List UInt8)) :
    EspErr × UriClient :=
  if uri.own = false ∧ m.uri = false then (.noMem, c)
  else
    (.ok,
      { address := {c.address with
          uri := if uri.own then c.address.uri else some uri.string.text
          scheme := some newScheme
          host := some newHost
          path := newPath
          port := if puri.len .port ≠ 0 then
              strtolDecimal (uri.string.text.drop (puri.off .port).toNat)
            else c.address.port}
        -- a credential for which there is no copy stays as it is
        username := newUsername.or c.username
        password := newPassword.or c.password })

/-- `esp_mqtt_client_set_uri` with what `http_parser_parse_url` says about the URI; `none` is an
access outside a string. -/
def espMqttClientSetUri (m : UriMemory) (c : UriClient) (uri : UriPointer c)
    (puri : Option (HttpParserUrl uri.string.text)) : Option (EspErr × UriClient) :=
  match puri with
  | none => some (.fail, c)
  | some puri =>
    match mqttCreateString m.scheme (puri.field .schema), mqttCreateString m.host (puri.field .host) with
    | some newScheme, some newHost =>
      match asprintfPath m.path (puri.field .path) (puri.field .query) with
      | none => some (.noMem, c)
      | some newPath =>
        (newCredentials m (puri.field .userinfo)).map fun
          | none => (.fail, c)
          | some (newUsername, newPassword) =>
            commitUri m c uri puri newScheme newHost newPath newUsername newPassword
    | _, _ => some (.noMem, c)

/-! What is asked of it. -/

/-- The path of a URI, with its query. -/
def HttpParserUrl.fullPath {uri : List UInt8} (p : HttpParserUrl uri) : Option (List UInt8) :=
  if p.field .path ≠ [] ∨ p.field .query ≠ [] then some (printPath (p.field .path) (p.field .query)) else none

/-- A field holds what a text stands for. -/
def HoldsDecoded (field : Option (List UInt8)) (text : List UInt8) : Prop :=
  ∃ bytes, decode text = some bytes ∧ field = some bytes

/-- Every part of the URI is in its place. -/
structure UriSet (c : UriClient) {uri : List UInt8} (p : HttpParserUrl uri) : Prop where
  uri : c.address.uri = some uri
  scheme : c.address.scheme = some (p.field .schema)
  host : c.address.host = some (p.field .host)
  path : c.address.path = p.fullPath
  username : p.field .userinfo ≠ [] → HoldsDecoded c.username (userPart (p.field .userinfo))
  password : ∀ pass, passwordPart (p.field .userinfo) = some pass → HoldsDecoded c.password pass

/-- Everything is set, or nothing. -/
structure AllOrNothing (c : UriClient) {uri : List UInt8} (puri : Option (HttpParserUrl uri))
    (r : EspErr × UriClient) : Prop where
  nothing : r.1 ≠ .ok → r.2 = c
  all : r.1 = .ok → ∃ p, puri = some p ∧ UriSet r.2 p

/-! When it is so. -/

/-- The allocations that are checked succeed. -/
structure CheckedMemory (m : UriMemory) {c : UriClient} (uri : UriPointer c)
    (p : HttpParserUrl uri.string.text) : Prop where
  scheme : p.field .schema ≠ [] ∧ m.scheme = true
  host : p.field .host ≠ [] ∧ m.host = true
  path : p.fullPath ≠ none → m.path = true
  uri : uri.own = true ∨ m.uri = true

/-- A credential that is to become `bytes`: a copy ends at the first NUL, and without a copy the old
value stays. -/
def CopyGives (memory : Bool) (old : Option (List UInt8)) (bytes : List UInt8) : Prop :=
  if memory then 0 ∉ bytes else old = some bytes

/-- The allocations that are not checked succeed, or are not needed. -/
structure CredentialsGiven (m : UriMemory) (c : UriClient) (info : List UInt8) : Prop where
  /-- The user information has been copied, and both parts of it can be decoded. -/
  copied : m.userInfo = true → ∀ user, decode (userPart info) = some user →
    (∀ pass, passwordPart info = some pass → (decode pass).isSome) →
      CopyGives m.username c.username user ∧
      ∀ pass bytes, passwordPart info = some pass → decode pass = some bytes →
        CopyGives m.password c.password bytes
  /-- It has not. -/
  missing : m.userInfo = false → HoldsDecoded c.username (userPart info) ∧
    ∀ pass, passwordPart info = some pass → HoldsDecoded c.password pass

section Copies

/-- A part of a C string. -/
def CString.part (s : CString) {text : List UInt8} (h : text.Sublist s.text) : CString :=
  ⟨text, fun hmem => s.noNul (h.subset hmem), (Nat.succ_le_succ h.length_le).trans s.size⟩

theorem userPart_sublist (info : List UInt8) : (userPart info).Sublist info := List.takeWhile_sublist _

theorem passwordPart_sublist {info pass : List UInt8} (h : passwordPart info = some pass) : pass.Sublist info := by
  unfold passwordPart at h
  split at h
  · obtain rfl := Option.some.inj h
    exact (List.tail_sublist _).trans (List.dropWhile_sublist _)
  · exact absurd h (by simp)

theorem field_sublist {uri : List UInt8} (p : HttpParserUrl uri) (f : UrlField) : (p.field f).Sublist uri :=
  (List.take_sublist _ _).trans (List.drop_sublist _ _)

theorem mqttCreateString_eq_some {memory : Bool} {text copy : List UInt8} :
    mqttCreateString memory text = some copy ↔ text ≠ [] ∧ memory = true ∧ text = copy := by
  unfold mqttCreateString
  cases memory <;> simp

/-- What is decoded in place is copied up to its first NUL. -/
theorem decodedCopy_eq (memory : Bool) (s : CString) :
    decodedCopy memory s.text = some ((decode s.text).map (strdup memory)) := by
  rcases PercentEncoding.encodes_or_bad s.text with ⟨bytes,henc⟩ | hbad
  · obtain ⟨buffer,hcall,hbegins⟩ := s.decode_encodes henc
    have hdup : strdup memory buffer = strdup memory bytes := by
      rw [strdup, strdup, takeWhile_terminated hbegins]
    rw [CString.memory] at hcall
    rw [decodedCopy, hcall, henc.decode, Option.map_some, if_neg (by omega), hdup, Option.map_some]
  · obtain ⟨buffer,hcall⟩ := s.decode_bad hbad
    rw [CString.memory] at hcall
    rw [decodedCopy, hcall, hbad.decode, Option.map_some, if_pos (by omega), Option.map_none]

/-- A credential gets its bytes exactly when its copy can be made and has all of them, or it had
them before. -/
theorem copyGives_iff {memory : Bool} {old : Option (List UInt8)} {bytes : List UInt8} :
    (strdup memory bytes).or old = some bytes ↔ CopyGives memory old bytes := by
  unfold strdup CopyGives
  cases memory with
  | false => rfl
  | true => rw [if_pos rfl, if_pos rfl, Option.some_or, Option.some_inj, takeWhile_noNul]

theorem holdsDecoded_copy {memory : Bool} {old : Option (List UInt8)} {text bytes : List UInt8}
    (hbytes : decode text = some bytes) :
    HoldsDecoded ((strdup memory bytes).or old) text ↔ CopyGives memory old bytes := by
  rw [← copyGives_iff]
  constructor
  · rintro ⟨bytes',hdecode,hfield⟩
    rw [hbytes] at hdecode
    rw [hfield, Option.some.inj hdecode]
  · exact fun h => ⟨bytes, hbytes, h⟩

/-- With a copy of the user information, both parts of which can be decoded. -/
theorem credentialsGiven_copied {m : UriMemory} {c : UriClient} {info user : List UInt8}
    (hmemory : m.userInfo = true) (huser : decode (userPart info) = some user)
    (hall : ∀ pass, passwordPart info = some pass → (decode pass).isSome) :
    CredentialsGiven m c info ↔ CopyGives m.username c.username user ∧
      ∀ pass bytes, passwordPart info = some pass → decode pass = some bytes →
        CopyGives m.password c.password bytes := by
  constructor
  · exact fun h => h.copied hmemory user huser hall
  · intro h
    refine ⟨fun _ user' huser' _ => ?_, fun hno => ?_⟩
    · rw [huser] at huser'
      rwa [← Option.some.inj huser']
    · rw [hmemory] at hno
      exact Bool.noConfusion hno

/-- The ways in which the credentials turn out. -/
theorem newCredentials_cases (m : UriMemory) (s : CString) {info : List UInt8} (hinfo : s.text = info) :
    ((info = [] ∨ m.userInfo = false) ∧ newCredentials m info = some (some (none, none))) ∨
    (m.userInfo = true ∧
      (decode (userPart info) = none ∨ ∃ pass, passwordPart info = some pass ∧ decode pass = none) ∧
      newCredentials m info = some none) ∨
    (info ≠ [] ∧ m.userInfo = true ∧ ∃ user, decode (userPart info) = some user ∧
      ((passwordPart info = none ∧
          newCredentials m info = some (some (strdup m.username user, none))) ∨
        ∃ pass bytes, passwordPart info = some pass ∧ decode pass = some bytes ∧
          newCredentials m info = some (some (strdup m.username user, strdup m.password bytes)))) := by
  subst hinfo
  by_cases hempty : s.text = []
  · exact Or.inl ⟨Or.inl hempty, by rw [newCredentials, mqttCreateString, if_pos hempty]⟩
  cases hmemory : m.userInfo with
  | false =>
    refine Or.inl ⟨Or.inr rfl, ?_⟩
    rw [newCredentials, mqttCreateString, if_neg hempty, hmemory]
    rfl
  | true =>
    have hcreate : mqttCreateString m.userInfo s.text = some s.text :=
      mqttCreateString_eq_some.mpr ⟨hempty, hmemory, rfl⟩
    have hname := decodedCopy_eq m.username (s.part (userPart_sublist s.text))
    change decodedCopy m.username (userPart s.text) = some ((decode (userPart s.text)).map (strdup m.username)) at hname
    right
    cases hpart : passwordPart s.text with
    | none =>
      have hcall : newCredentials m s.text = some ((decode (userPart s.text)).map fun user =>
          (strdup m.username user, none)) := by
        rw [newCredentials, hcreate]
        dsimp only
        rw [hpart]
        dsimp only [Option.bind_some]
        rw [hname, Option.map_some, Option.map_map]
        rfl
      cases huser : decode (userPart s.text) with
      | none => exact Or.inl ⟨rfl, Or.inl rfl, by rw [hcall, huser]; rfl⟩
      | some user => exact Or.inr ⟨hempty, rfl, user, rfl, Or.inl ⟨rfl, by rw [hcall, huser]; rfl⟩⟩
    | some pass =>
      have hpass := decodedCopy_eq m.password (s.part (passwordPart_sublist hpart))
      change decodedCopy m.password pass = some ((decode pass).map (strdup m.password)) at hpass
      have hcall : newCredentials m s.text =
          some ((decode pass).bind fun bytes => (decode (userPart s.text)).map fun user =>
            (strdup m.username user, strdup m.password bytes)) := by
        rw [newCredentials, hcreate]
        dsimp only
        rw [hpart]
        dsimp only
        rw [hpass, Option.bind_some]
        cases decode pass with
        | none => rfl
        | some bytes =>
          dsimp only [Option.map_some]
          rw [hname, Option.map_some, Option.map_map]
          rfl
      cases hbytes : decode pass with
      | none => exact Or.inl ⟨rfl, Or.inr ⟨pass, rfl, hbytes⟩, by rw [hcall, hbytes]; rfl⟩
      | some bytes =>
        cases huser : decode (userPart s.text) with
        | none => exact Or.inl ⟨rfl, Or.inl rfl, by rw [hcall, hbytes, huser]; rfl⟩
        | some user =>
          exact Or.inr ⟨hempty, rfl, user, rfl, Or.inr ⟨pass, bytes, rfl, hbytes, by rw [hcall, hbytes, huser]; rfl⟩⟩

end Copies

section Commit
variable {m : UriMemory} {c : UriClient} {uri : UriPointer c} {p : HttpParserUrl uri.string.text}

/-- A call that changes nothing and says so. -/
theorem allOrNothing_failed {err : EspErr} (herr : err ≠ .ok) : AllOrNothing c (some p) (err, c) :=
  ⟨fun _ => rfl, fun hok => absurd hok herr⟩

/-- Where all checked allocations succeed, the call gets as far as the credentials. -/
theorem CheckedMemory.call (h : CheckedMemory m uri p) :
    espMqttClientSetUri m c uri (some p) = (newCredentials m (p.field .userinfo)).map fun
      | none => (.fail, c)
      | some (newUsername, newPassword) =>
        commitUri m c uri p (p.field .schema) (p.field .host) p.fullPath newUsername newPassword := by
  have hscheme : mqttCreateString m.scheme (p.field .schema) = some (p.field .schema) :=
    mqttCreateString_eq_some.mpr ⟨h.scheme.1, h.scheme.2, rfl⟩
  have hhost : mqttCreateString m.host (p.field .host) = some (p.field .host) :=
    mqttCreateString_eq_some.mpr ⟨h.host.1, h.host.2, rfl⟩
  have hpath : asprintfPath m.path (p.field .path) (p.field .query) = some p.fullPath := by
    have hmemory := h.path
    unfold HttpParserUrl.fullPath at hmemory ⊢
    unfold asprintfPath
    split
    · rename_i hsome
      rw [if_pos (hmemory (by rw [if_pos hsome]; simp))]
    · rfl
  rw [espMqttClientSetUri, hscheme, hhost]
  dsimp only
  rw [hpath]

/-- Where one of them fails, nothing has been changed yet. -/
theorem call_unchecked (h : ¬CheckedMemory m uri p) :
    ∃ err, err ≠ .ok ∧ espMqttClientSetUri m c uri (some p) = some (err, c) := by
  rw [espMqttClientSetUri]
  cases hscheme : mqttCreateString m.scheme (p.field .schema) with
  | none => exact ⟨.noMem, by decide, rfl⟩
  | some newScheme =>
  cases hhost : mqttCreateString m.host (p.field .host) with
  | none => exact ⟨.noMem, by decide, rfl⟩
  | some newHost =>
  dsimp only
  cases hpath : asprintfPath m.path (p.field .path) (p.field .query) with
  | none => exact ⟨.noMem, by decide, rfl⟩
  | some newPath =>
    -- it can only be the copy of the URI itself, which is made last
    have hown : uri.own = false ∧ m.uri = false := by
      by_contra hneither
      obtain ⟨hschemeGiven,hschemeMemory,-⟩ := mqttCreateString_eq_some.mp hscheme
      obtain ⟨hhostGiven,hhostMemory,-⟩ := mqttCreateString_eq_some.mp hhost
      refine h ⟨⟨hschemeGiven, hschemeMemory⟩, ⟨hhostGiven, hhostMemory⟩, fun hsome => ?_, ?_⟩
      · unfold asprintfPath at hpath
        unfold HttpParserUrl.fullPath at hsome
        split at hpath
        · by_contra hno
          rw [if_neg hno] at hpath
          exact absurd hpath (by simp)
        · rename_i hnone
          rw [if_neg hnone] at hsome
          exact absurd rfl hsome
      · cases hu : uri.own with
        | true => exact Or.inl rfl
        | false => exact Or.inr (Bool.eq_true_of_not_eq_false fun hm => hneither ⟨hu, hm⟩)
    dsimp only
    generalize hinfo : p.field .userinfo = info
    rcases newCredentials_cases m (uri.string.part (field_sublist p .userinfo)) hinfo with
      ⟨-,hcall⟩ | ⟨-,-,hcall⟩ | ⟨-,-,user,-,⟨-,hcall⟩ | ⟨pass,bytes,-,-,hcall⟩⟩
    all_goals rw [hcall, Option.map_some]
    · exact ⟨.noMem, by decide, congrArg some (if_pos hown)⟩
    · exact ⟨.fail, by decide, rfl⟩
    · exact ⟨.noMem, by decide, congrArg some (if_pos hown)⟩
    · exact ⟨.noMem, by decide, congrArg some (if_pos hown)⟩

theorem CheckedMemory.goes (h : CheckedMemory m uri p) : ¬(uri.own = false ∧ m.uri = false) := by
  rintro ⟨hown,hmemory⟩
  have huri := h.uri
  rw [hown, hmemory] at huri
  simp at huri

/-- The URI of the client is the new one, copied or not. -/
theorem UriPointer.kept (uri : UriPointer c) :
    (if uri.own then c.address.uri else some uri.string.text) = some uri.string.text := by
  split
  · rename_i hown
    exact uri.same hown
  · rfl

/-- What is committed, field by field. -/
theorem CheckedMemory.commit (h : CheckedMemory m uri p) (newUsername newPassword : Option (List UInt8)) :
    AllOrNothing c (some p)
        (commitUri m c uri p (p.field .schema) (p.field .host) p.fullPath newUsername newPassword) ↔
      (p.field .userinfo ≠ [] →
        HoldsDecoded (newUsername.or c.username) (userPart (p.field .userinfo))) ∧
      ∀ pass, passwordPart (p.field .userinfo) = some pass →
        HoldsDecoded (newPassword.or c.password) pass := by
  rw [commitUri, if_neg h.goes]
  constructor
  · intro hall
    obtain ⟨p',hp,hset⟩ := hall.all rfl
    obtain rfl := Option.some.inj hp
    exact ⟨hset.username, hset.password⟩
  · rintro ⟨husername,hpassword⟩
    exact ⟨fun hne => absurd rfl hne, fun _ => ⟨p, rfl, uri.kept, rfl, rfl, rfl, husername, hpassword⟩⟩

/-- The URI in the terms of the broker's address. -/
def HttpParserUrl.toUri {uri : List UInt8} (p : HttpParserUrl uri) : Uri where
  text := uri
  scheme := p.field .schema
  host := p.field .host
  path := p.fullPath
  port := if p.len .port ≠ 0 then some (strtolDecimal (uri.drop (p.off .port).toNat)) else none

/-- A call that succeeds sets the address as `BrokerAddress.setUri` does. -/
theorem set_uri_address {c' : UriClient} (h : espMqttClientSetUri m c uri (some p) = some (.ok, c')) :
    c'.address = c.address.setUri p.toUri := by
  by_cases hchecked : CheckedMemory m uri p
  · rw [hchecked.call] at h
    obtain ⟨creds,-,hresult⟩ := Option.map_eq_some_iff.mp h
    cases creds with
    | none => exact EspErr.noConfusion (Prod.mk.inj hresult).1
    | some creds =>
      dsimp only at hresult
      rw [commitUri, if_neg hchecked.goes] at hresult
      obtain rfl := (Prod.mk.inj hresult).2
      dsimp only [BrokerAddress.setUri, HttpParserUrl.toUri]
      rw [uri.kept]
      split <;> rfl
  · obtain ⟨err,herr,hcall⟩ := call_unchecked hchecked
    rw [h] at hcall
    exact absurd (Prod.mk.inj (Option.some.inj hcall)).1.symm herr

end Commit

/-- `esp_mqtt_client_set_uri` sets everything or nothing exactly where the three allocations that
it does not check succeed or are not needed. -/
theorem set_uri_all_or_nothing_iff (m : UriMemory) (c : UriClient) (uri : UriPointer c)
    (puri : Option (HttpParserUrl uri.string.text)) :
    ∃ r, espMqttClientSetUri m c uri puri = some r ∧
      (AllOrNothing c puri r ↔ ∀ p, puri = some p → p.field .userinfo ≠ [] → CheckedMemory m uri p →
        CredentialsGiven m c (p.field .userinfo)) := by
  cases puri with
  | none =>
    refine ⟨(.fail, c), rfl, iff_of_true ?_ fun p hp => absurd hp (by simp)⟩
    exact ⟨fun _ => rfl, fun hok => EspErr.noConfusion hok⟩
  | some p =>
  by_cases hchecked : CheckedMemory m uri p
  swap
  · obtain ⟨err,herr,hcall⟩ := call_unchecked hchecked
    refine ⟨_, hcall, iff_of_true (allOrNothing_failed herr) fun p' hp _ hch => ?_⟩
    obtain rfl := Option.some.inj hp
    exact absurd hch hchecked
  have hcond : (∀ p', some p = some p' → p'.field .userinfo ≠ [] → CheckedMemory m uri p' →
      CredentialsGiven m c (p'.field .userinfo)) ↔
      (p.field .userinfo ≠ [] → CredentialsGiven m c (p.field .userinfo)) := by
    refine ⟨fun h hne => h p rfl hne hchecked, fun h p' hp hne _ => ?_⟩
    obtain rfl := Option.some.inj hp
    exact h hne
  rw [hcond, hchecked.call]
  generalize hinfo : p.field .userinfo = info
  rcases newCredentials_cases m (uri.string.part (field_sublist p .userinfo)) hinfo with
    ⟨hnone,hcall⟩ | ⟨hmemory,hbad,hcall⟩ | ⟨hne,hmemory,user,huser,hpass⟩
  · -- without a copy of the user information the credentials stay as they are
    rw [hcall]
    refine ⟨_, rfl, (hchecked.commit none none).trans ?_⟩
    rw [hinfo, Option.none_or, Option.none_or]
    rcases hnone with hempty | hmemory
    · have hpart : passwordPart info = none := by rw [hempty]; rfl
      refine iff_of_true ⟨fun hne => absurd hempty hne, fun pass h => ?_⟩ fun hne => absurd hempty hne
      rw [hpart] at h
      exact absurd h (by simp)
    · constructor
      · rintro ⟨husername,hpassword⟩ hne
        refine ⟨fun h => ?_, fun _ => ⟨husername hne, hpassword⟩⟩
        rw [hmemory] at h
        exact Bool.noConfusion h
      · intro h
        by_cases hempty : info = []
        · have hpart : passwordPart info = none := by rw [hempty]; rfl
          refine ⟨fun hne => absurd hempty hne, fun pass h => ?_⟩
          rw [hpart] at h
          exact absurd h (by simp)
        · obtain ⟨husername,hpassword⟩ := (h hempty).missing hmemory
          exact ⟨fun _ => husername, hpassword⟩
  · -- an error in one of the parts is found before anything is set
    rw [hcall]
    refine ⟨_, rfl, iff_of_true (allOrNothing_failed (by decide)) fun _ => ⟨fun _ user huser hpass => ?_, fun h => ?_⟩⟩
    · rcases hbad with hbad | ⟨pass,hpart,hbad⟩
      · rw [hbad] at huser
        exact absurd huser (by simp)
      · have hsome := hpass pass hpart
        rw [hbad] at hsome
        exact absurd hsome (by simp)
    · rw [hmemory] at h
      exact Bool.noConfusion h
  · rcases hpass with ⟨hpart,hcall⟩ | ⟨pass,bytes,hpart,hbytes,hcall⟩
    · have hno {P : List UInt8 → Prop} : ∀ pass, passwordPart info = some pass → P pass := by
        intro pass hpass
        rw [hpart] at hpass
        exact absurd hpass (by simp)
      rw [hcall]
      refine ⟨_, rfl, (hchecked.commit _ _).trans ?_⟩
      rw [hinfo, holdsDecoded_copy huser, credentialsGiven_copied hmemory huser hno]
      refine ⟨fun h hne => ⟨h.1 hne, fun pass bytes hpass => ?_⟩, fun h => ⟨fun hne => (h hne).1, hno⟩⟩
      rw [hpart] at hpass
      exact absurd hpass (by simp)
    · have hone {P : List UInt8 → Prop} : (∀ pass, passwordPart info = some pass → P pass) ↔ P pass := by
        rw [hpart]
        exact ⟨fun h => h pass rfl, fun h pass' hpass => Option.some.inj hpass ▸ h⟩
      have hall : ∀ pass, passwordPart info = some pass → (decode pass).isSome := by
        rw [hone, hbytes]
        rfl
      rw [hcall]
      refine ⟨_, rfl, (hchecked.commit _ _).trans ?_⟩
      rw [hinfo, holdsDecoded_copy huser, hone, holdsDecoded_copy hbytes,
        credentialsGiven_copied hmemory huser hall]
      constructor
      · rintro ⟨husername,hpassword⟩ hne
        refine ⟨husername hne, fun pass' bytes' hpart' hbytes' => ?_⟩
        rw [hpart] at hpart'
        obtain rfl := Option.some.inj hpart'
        rw [hbytes] at hbytes'
        rwa [← Option.some.inj hbytes']
      · exact fun h => ⟨fun hne => (h hne).1, (h hne).2 pass bytes hpart hbytes⟩

/-- A client without a broker. -/
def emptyClient : UriClient := ⟨.zero, none, none⟩

/-- `mqtt://u:p@h` -/
def userUri : UriPointer emptyClient where
  string := ⟨[0x6d, 0x71, 0x74, 0x74, 0x3a, 0x2f, 0x2f, 0x75, 0x3a, 0x70, 0x40, 0x68], by decide, by decide⟩
  own := false
  same := fun h => Bool.noConfusion h

def userUrl : HttpParserUrl userUri.string.text where
  off f := match f with
    | .schema => 0
    | .userinfo => 7
    | .host => 11
    | .port | .path | .query => 0
  len f := match f with
    | .schema => 4
    | .userinfo => 3
    | .host => 1
    | .port | .path | .query => 0
  inside f := by cases f <;> decide

/-- There is no memory for `new_username`. -/
def noUsername : UriMemory := ⟨true, true, true, true, true, false, true⟩

/-- The call succeeds, with the password and without the user name. -/
theorem username_skipped : ∃ c', espMqttClientSetUri noUsername emptyClient userUri (some userUrl) = some (.ok, c') ∧
    c'.username = none ∧ c'.password = some [0x70] ∧ ¬AllOrNothing emptyClient (some userUrl) (.ok, c') := by
  refine ⟨⟨⟨some userUri.string.text, some [0x6d, 0x71, 0x74, 0x74], some [0x68], none, 0, none⟩, none, some [0x70]⟩,
    by decide +kernel, rfl, rfl, fun h => ?_⟩
  obtain ⟨p,hp,hset⟩ := h.all rfl
  obtain rfl := Option.some.inj hp
  obtain ⟨bytes,-,hfield⟩ := hset.username (by decide)
  exact absurd hfield (by simp)

end EspMqtt
