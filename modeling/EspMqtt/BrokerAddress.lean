import Mathlib.Data.List.Basic
import Mathlib.Tactic

/-! The broker address of `mqtt_config_storage_t`: how `esp_mqtt_set_config` and
`esp_mqtt_client_set_uri` set it, and the host and port that the task connects to. -/
namespace EspMqtt

/-- The schemes that the client has a transport for. -/
inductive Scheme where
  | mqtt | ws | mqtts | wss
  deriving DecidableEq, Repr

namespace Scheme

def name : Scheme → List UInt8
  | mqtt => [0x6d, 0x71, 0x74, 0x74]
  | ws => [0x77, 0x73]
  | mqtts => [0x6d, 0x71, 0x74, 0x74, 0x73]
  | wss => [0x77, 0x73, 0x73]

/-- `tolower`. -/
def lower (b : UInt8) : UInt8 := if 0x41 ≤ b ∧ b ≤ 0x5a then b+0x20 else b

/-- The scheme that `strncasecmp` finds equal, its terminator included. -/
def ofName (text : List UInt8) : Option Scheme :=
  [mqtt, ws, mqtts, wss].find? fun k => text.map lower == k.name

end Scheme

/-- The build: which transports are compiled in, and the default ports. -/
structure BuildConfig where
  enableSsl : Bool
  enableWs : Bool
  enableWss : Bool
  defaultPort : Scheme → ℕ

/-- What `mqtt_config_storage_t` has of the broker; `transport` is the default port of a transport
of the application's own. -/
structure BrokerAddress where
  uri : Option (List UInt8)
  scheme : Option (List UInt8)
  host : Option (List UInt8)
  path : Option (List UInt8)
  port : ℕ
  transport : Option ℕ
  deriving DecidableEq

/-- `calloc` of the configuration. -/
def BrokerAddress.zero : BrokerAddress := ⟨none, none, none, none, 0, none⟩

/-- A URI as `http_parser` splits it; `port` is what `strtol` makes of it, if there is one. -/
structure Uri where
  text : List UInt8
  scheme : List UInt8
  host : List UInt8
  path : Option (List UInt8)
  port : Option ℕ
  deriving DecidableEq

/-- `esp_mqtt_client_set_uri`, where nothing fails. -/
def BrokerAddress.setUri (a : BrokerAddress) (u : Uri) : BrokerAddress :=
  {a with
    uri := some u.text
    scheme := some u.scheme
    host := some u.host
    path := u.path
    port := u.port.getD a.port}

/-- The part of `esp_mqtt_client_config_t` that is about the address. A URI comes with how
`http_parser` splits it; `none` there stands for every way in which it is refused. -/
structure AddressConfig where
  uri : Option (List UInt8 × Option Uri)
  hostname : Option (List UInt8)
  path : Option (List UInt8)
  port : ℕ
  overTransport : Option Scheme
  transport : Option ℕ
  deriving DecidableEq

/-- The scheme set for `broker.address.transport`. -/
def BuildConfig.schemeOver (b : BuildConfig) : Scheme → Option (List UInt8)
  | .mqtt => some Scheme.mqtt.name
  | .ws => if b.enableWs then some Scheme.ws.name else none
  | .mqtts => if b.enableSsl then some Scheme.mqtts.name else none
  | .wss => if b.enableWss then some Scheme.wss.name else none

/-- What `esp_mqtt_set_config` sets one by one. -/
def BrokerAddress.setParts (b : BuildConfig) (a : BrokerAddress) (c : AddressConfig) : BrokerAddress where
  uri := (c.uri.map Prod.fst).or a.uri
  scheme :=
    match c.overTransport with
    | none => a.scheme
    | some k => b.schemeOver k
  host := c.hostname.or a.host
  path := c.path.or a.path
  port := if c.port ≠ 0 then c.port else a.port
  transport := c.transport

/-- `esp_mqtt_set_config` on the address, the URI at the end to override what was set separately;
`none` is a configuration that is destroyed because its URI is refused. -/
def BrokerAddress.setConfig (b : BuildConfig) (a : BrokerAddress) (c : AddressConfig) :
    Option BrokerAddress :=
  match c.uri with
  | none => some (a.setParts b c)
  | some u => u.2.map (a.setParts b c).setUri

/-- A call of the application; `memory` is whether all allocations succeed. -/
inductive AddressCall where
  | setConfig (c : AddressConfig) (memory : Bool)
  | setUri (u : Option Uri)

/-- A connection attempt: the scheme configured and the port handed to
`esp_transport_connect`. -/
structure Attempt where
  scheme : Option (List UInt8)
  port : ℕ
  deriving DecidableEq

/-- `client->config`, which is `NULL` after a configuration has failed, and the attempts so far,
the last one first. -/
structure AddressState where
  config : Option BrokerAddress
  attempts : List Attempt
  deriving DecidableEq

namespace AddressState

/-- `esp_mqtt_set_config` destroys the configuration if anything fails; `esp_mqtt_client_set_uri`
leaves it as it is. -/
def call (b : BuildConfig) (s : AddressState) : AddressCall → AddressState
  | .setConfig c memory =>
    {s with config := if memory then (s.config.getD .zero).setConfig b c else none}
  | .setUri none => s
  | .setUri (some u) => {s with config := s.config.map fun a => a.setUri u}

/-- `esp_mqtt_client_create_transport`: the list of transports and their default ports. -/
def createTransport (b : BuildConfig) (scheme : Option (List UInt8)) : Option (List (Scheme × ℕ)) :=
  match scheme.bind Scheme.ofName with
  | none => none
  | some .mqtt => some [(.mqtt, b.defaultPort .mqtt)]
  | some .ws =>
    if b.enableWs then some [(.mqtt, b.defaultPort .mqtt), (.ws, b.defaultPort .ws)] else none
  | some .mqtts => if b.enableSsl then some [(.mqtts, b.defaultPort .mqtts)] else none
  | some .wss =>
    if b.enableSsl && b.enableWs then some [(.mqtts, b.defaultPort .mqtts), (.wss, b.defaultPort .wss)]
    else none

/-- `esp_transport_list_get_transport`, and `esp_transport_get_default_port` of what it finds. -/
def getTransport (list : List (Scheme × ℕ)) (scheme : Option (List UInt8)) : Option ℕ :=
  (list.find? fun x => scheme.bind Scheme.ofName == some x.1).map Prod.snd

/-- The default port of the transport that the task takes. It has none if it cannot create one. -/
def transportPort (b : BuildConfig) (created : Bool) (a : BrokerAddress) : Option ℕ :=
  match a.transport with
  | some port => some port
  | none => if created then (createTransport b a.scheme).bind fun list => getTransport list a.scheme else none

/-- `MQTT_STATE_INIT` up to the event BEFORE_CONNECT; `none` if no transport can be had. -/
def beforeConnect (b : BuildConfig) (created : Bool) (s : AddressState) : Option AddressState :=
  match s.config with
  | none => none
  | some a =>
    (transportPort b created a).map fun port =>
      --default port
      {s with config := some (if a.port = 0 then {a with port := port} else a)}

/-- `esp_transport_connect`. -/
def connect (s : AddressState) : AddressState :=
  match s.config with
  | none => s
  | some a => {s with attempts := ⟨a.scheme, a.port⟩ :: s.attempts}

/-- A call, or a connection attempt of the task; in between the handler of BEFORE_CONNECT makes
calls of its own. -/
inductive Step where
  | call (c : AddressCall)
  | attempt (created : Bool) (handler : List AddressCall)

def step (b : BuildConfig) (s : AddressState) : Step → AddressState
  | .call c => s.call b c
  | .attempt created handler =>
    match s.beforeConnect b created with
    | none => s
    | some s => (handler.foldl (call b) s).connect

/-- The runs of a client whose steps are all `ok` in the state they are taken in. -/
inductive Run (b : BuildConfig) (ok : AddressState → Step → Prop) : AddressState → Prop
  | start : Run b ok ⟨none, []⟩
  | next {s : AddressState} {x : Step} (h : Run b ok s) (hok : ok s x) : Run b ok (s.step b x)

end AddressState

/-! What is asked of the attempts. -/

/-- Neither the configuration nor its URI has a port. -/
def AddressCall.NoPort : AddressCall → Prop
  | .setConfig c _ => c.port = 0 ∧ ∀ text u, c.uri = some (text, some u) → u.port = none
  | .setUri none => True
  | .setUri (some u) => u.port = none

def AddressState.Step.NoPort : AddressState.Step → Prop
  | .call c => c.NoPort
  | .attempt _ handler => ∀ c ∈ handler, c.NoPort

/-- Every attempt was made at the default port of the scheme then configured. -/
def AddressState.DefaultPorts (b : BuildConfig) (s : AddressState) : Prop :=
  ∀ x ∈ s.attempts, ∀ k, x.scheme.bind Scheme.ofName = some k → x.port = b.defaultPort k

/-! When it is so. -/

/-- A scheme for an address whose port is `port`: its default port is the one that is there
already, or there is none yet and the task has still to choose; and an own transport has it too. -/
def SchemeFits (b : BuildConfig) (chosen : Bool) (port : ℕ) (transport : Option ℕ)
    (scheme : Option (List UInt8)) : Prop :=
  ∀ k, scheme.bind Scheme.ofName = some k →
    ((chosen = false ∧ port = 0) ∨ port = b.defaultPort k) ∧
      ∀ own, transport = some own → own = b.defaultPort k

/-- The scheme that a configuration leaves. -/
def AddressConfig.newScheme (b : BuildConfig) (c : AddressConfig) (scheme : Option (List UInt8)) :
    Option (List UInt8) :=
  match c.uri with
  | some (_, some u) => some u.scheme
  | _ =>
    match c.overTransport with
    | some k => b.schemeOver k
    | none => scheme

/-- A call that sets a scheme sets one that fits. -/
def AddressState.CallFits (b : BuildConfig) (chosen : Bool) (s : AddressState) : AddressCall → Prop
  | .setConfig c _ =>
    SchemeFits b chosen (s.config.getD .zero).port c.transport
      (c.newScheme b (s.config.getD .zero).scheme)
  | .setUri none => True
  | .setUri (some u) => ∀ a, s.config = some a → SchemeFits b chosen a.port a.transport (some u.scheme)

/-- The calls of the handler, which come when the port has been chosen. -/
def AddressState.HandlerFits (b : BuildConfig) : AddressState → List AddressCall → Prop
  | _, [] => True
  | s, c :: cs => s.CallFits b true c ∧ HandlerFits b (s.call b c) cs

def AddressState.StepFits (b : BuildConfig) (s : AddressState) : AddressState.Step → Prop
  | .call c => s.CallFits b false c
  | .attempt created handler => ∀ s', s.beforeConnect b created = some s' → s'.HandlerFits b handler

/-! The proof: the address fits after every step. -/

namespace AddressState

variable {b : BuildConfig} {chosen : Bool} {s s' : AddressState}

/-- The scheme configured fits the port configured. -/
def Fits (b : BuildConfig) (chosen : Bool) (s : AddressState) : Prop :=
  ∀ a, s.config = some a → SchemeFits b chosen a.port a.transport a.scheme

/-- Without a port of its own a configuration keeps the port. -/
theorem setConfig_parts {a a' : BrokerAddress} {c : AddressConfig} (hport : c.port = 0)
    (huri : ∀ text u, c.uri = some (text, some u) → u.port = none) (h : a.setConfig b c = some a') :
    a'.port = a.port ∧ a'.transport = c.transport ∧ a'.scheme = c.newScheme b a.scheme := by
  have hkept : (a.setParts b c).port = a.port := by
    unfold BrokerAddress.setParts
    rw [if_neg (by simp [hport])]
  unfold BrokerAddress.setConfig at h
  unfold AddressConfig.newScheme
  cases hu : c.uri with
  | none =>
    rw [hu] at h
    obtain rfl := Option.some.inj h
    refine ⟨hkept, rfl, ?_⟩
    unfold BrokerAddress.setParts
    cases c.overTransport <;> rfl
  | some pair =>
    obtain ⟨text,parsed⟩ := pair
    cases parsed with
    | none => simp [hu] at h
    | some u =>
      rw [hu] at h
      obtain rfl := Option.some.inj h
      refine ⟨?_, rfl, rfl⟩
      unfold BrokerAddress.setUri
      rw [huri text u hu]
      exact hkept

theorem connect_config (s : AddressState) : s.connect.config = s.config := by
  unfold connect
  cases h : s.config with
  | none => exact h
  | some a => rfl

theorem call_attempts (s : AddressState) (c : AddressCall) : (s.call b c).attempts = s.attempts := by
  cases c with
  | setConfig c memory => rfl
  | setUri u => cases u <;> rfl

theorem Fits.call (h : s.Fits b chosen) {c : AddressCall} (hport : c.NoPort)
    (hfits : s.CallFits b chosen c) : (s.call b c).Fits b chosen := by
  cases c with
  | setConfig c memory =>
    intro a ha
    cases memory with
    | false => simp [AddressState.call] at ha
    | true =>
      obtain ⟨h1,h2,h3⟩ := setConfig_parts hport.1 hport.2 ha
      rw [h1, h2, h3]
      exact hfits
  | setUri u =>
    cases u with
    | none => exact h
    | some u =>
      intro a ha
      obtain ⟨a₀,ha₀,rfl⟩ := Option.map_eq_some_iff.mp ha
      have hkept : (a₀.setUri u).port = a₀.port := by
        have hnone : u.port = none := hport
        unfold BrokerAddress.setUri
        rw [hnone]
        rfl
      rw [hkept]
      exact hfits a₀ ha₀

theorem Fits.handler {handler : List AddressCall} (h : s.Fits b true)
    (hport : ∀ c ∈ handler, c.NoPort) (hfits : s.HandlerFits b handler) :
    (handler.foldl (AddressState.call b) s).Fits b true ∧
      (handler.foldl (AddressState.call b) s).attempts = s.attempts := by
  induction handler generalizing s with
  | nil => exact ⟨h,rfl⟩
  | cons c cs ih =>
    obtain ⟨hc,hcs⟩ := hfits
    obtain ⟨hall,hkept⟩ := ih (h.call (hport c List.mem_cons_self) hc)
      (fun c' hc' => hport c' (List.mem_cons_of_mem _ hc')) hcs
    exact ⟨hall, hkept.trans (call_attempts s c)⟩

/-- The transport found for a scheme has its default port. -/
theorem getTransport_port {scheme : Option (List UInt8)} {list : List (Scheme × ℕ)} {port : ℕ}
    (hlist : createTransport b scheme = some list) (hport : getTransport list scheme = some port)
    {k : Scheme} (hk : scheme.bind Scheme.ofName = some k) : port = b.defaultPort k := by
  unfold createTransport at hlist
  unfold getTransport at hport
  rw [hk] at hlist hport
  cases k <;> dsimp only at hlist <;> (try split at hlist) <;>
    first
    | (obtain rfl := Option.some.inj hlist; exact (Option.some.inj hport).symm)
    | simp at hlist

/-- The task chooses a port that fits. -/
theorem Fits.beforeConnect (h : s.Fits b false) {created : Bool}
    (hs : s.beforeConnect b created = some s') : s'.Fits b true ∧ s'.attempts = s.attempts := by
  unfold AddressState.beforeConnect at hs
  cases ha : s.config with
  | none => simp [ha] at hs
  | some a =>
    rw [ha] at hs
    obtain ⟨port,hport,rfl⟩ := Option.map_eq_some_iff.mp hs
    refine ⟨fun a' ha' k hk => ?_, rfl⟩
    obtain rfl := Option.some.inj ha'
    have hsame : (if a.port = 0 then {a with port := port} else a).scheme = a.scheme ∧
        (if a.port = 0 then {a with port := port} else a).transport = a.transport := by
      split <;> exact ⟨rfl,rfl⟩
    rw [hsame.1] at hk
    obtain ⟨hold,hown⟩ := h a ha k hk
    rw [hsame.2]
    refine ⟨Or.inr ?_, hown⟩
    have hchosen : port = b.defaultPort k := by
      unfold transportPort at hport
      cases ht : a.transport with
      | some own =>
        rw [ht] at hport
        rw [← Option.some.inj hport]
        exact hown own ht
      | none =>
        rw [ht] at hport
        dsimp only at hport
        split at hport
        · obtain ⟨list,hlist,hfound⟩ := Option.bind_eq_some_iff.mp hport
          exact getTransport_port hlist hfound hk
        · simp at hport
    by_cases hzero : a.port = 0
    · rw [if_pos hzero]
      exact hchosen
    · rw [if_neg hzero]
      rcases hold with ⟨-,hz⟩ | hright
      · exact absurd hz hzero
      · exact hright

/-- One step. -/
theorem step_fits (h : s.Fits b false) (hright : s.DefaultPorts b) {x : Step} (hport : x.NoPort)
    (hfits : s.StepFits b x) : (s.step b x).Fits b false ∧ (s.step b x).DefaultPorts b := by
  cases x with
  | call c =>
    refine ⟨h.call hport hfits, ?_⟩
    unfold DefaultPorts
    rw [show (s.step b (.call c)).attempts = s.attempts from call_attempts s c]
    exact hright
  | attempt created handler =>
    dsimp only [AddressState.step]
    cases hs : s.beforeConnect b created with
    | none => exact ⟨h,hright⟩
    | some s' =>
      obtain ⟨hs',hlog⟩ := h.beforeConnect hs
      obtain ⟨hall,hkept⟩ := hs'.handler hport (hfits s' hs)
      dsimp only
      generalize handler.foldl (call b) s' = s'' at hall hkept
      have hloose : s''.connect.Fits b false := by
        intro a ha k hk
        rw [connect_config] at ha
        obtain ⟨hp,hown⟩ := hall a ha k hk
        rcases hp with ⟨hf,-⟩ | hp
        · exact absurd hf (by simp)
        · exact ⟨Or.inr hp, hown⟩
      refine ⟨hloose, fun y hy k hk => ?_⟩
      unfold connect at hy
      cases ha : s''.config with
      | none =>
        rw [ha] at hy
        dsimp only at hy
        rw [hkept, hlog] at hy
        exact hright y hy k hk
      | some a =>
        rw [ha] at hy
        rcases List.mem_cons.mp hy with rfl | hy
        · rcases (hall a ha k hk).1 with ⟨hf,-⟩ | hp
          · exact absurd hf (by simp)
          · exact hp
        · rw [hkept, hlog] at hy
          exact hright y hy k hk

end AddressState

/-- Where every scheme that is set fits the port that an earlier attempt has left, each attempt is
made at the default port of its scheme. -/
theorem default_port_follows_scheme {b : BuildConfig} {s : AddressState}
    (h : s.Run b fun s x => x.NoPort ∧ s.StepFits b x) : s.DefaultPorts b := by
  have hinv : s.Fits b false ∧ s.DefaultPorts b := by
    induction h with
    | start => exact ⟨fun a ha => absurd ha (by simp), fun x hx => absurd hx List.not_mem_nil⟩
    | next _ hok ih => exact AddressState.step_fits ih.1 ih.2 hok.1 hok.2
  exact hinv.2

/-- A scheme with another default port is connected to at the port that an earlier attempt has
left. -/
theorem stale_port_attempted (b : BuildConfig) {s : AddressState} {a : BrokerAddress}
    (ha : s.config = some a) (hzero : a.port ≠ 0) (hown : a.transport = none) {u : Uri}
    (hport : u.port = none) {list : List (Scheme × ℕ)}
    (hlist : AddressState.createTransport b (some u.scheme) = some list) {port : ℕ}
    (hfound : AddressState.getTransport list (some u.scheme) = some port) :
    (((s.step b (.call (.setUri (some u)))).step b (.attempt true [])).attempts.head?) =
      some ⟨some u.scheme, a.port⟩ := by
  have hset : s.step b (.call (.setUri (some u))) = ⟨some (a.setUri u), s.attempts⟩ := by
    dsimp only [AddressState.step, AddressState.call]
    rw [ha]
    rfl
  have hkept : (a.setUri u).port = a.port := by
    unfold BrokerAddress.setUri
    rw [hport]
    rfl
  have hchosen : AddressState.transportPort b true (a.setUri u) = some port := by
    have hnone : (a.setUri u).transport = none := hown
    unfold AddressState.transportPort
    rw [hnone, if_pos rfl]
    exact Option.bind_eq_some_iff.mpr ⟨list,hlist,hfound⟩
  rw [hset]
  dsimp only [AddressState.step, AddressState.beforeConnect]
  rw [hchosen]
  dsimp only [Option.map_some, List.foldl_nil, AddressState.connect]
  rw [if_neg (by rw [hkept]; exact hzero), hkept]
  rfl

def usualBuild : BuildConfig where
  enableSsl := true
  enableWs := true
  enableWss := true
  defaultPort k := match k with
    | .mqtt => 1883
    | .ws => 80
    | .mqtts => 8883
    | .wss => 443

/-- `scheme://h`. -/
def uriOf (k : Scheme) : Uri where
  text := k.name ++ [0x3a, 0x2f, 0x2f, 0x68]
  scheme := k.name
  host := [0x68]
  path := none
  port := none

/-- A configuration that has such a URI and nothing else. -/
def uriConfig (k : Scheme) : AddressConfig := ⟨some ((uriOf k).text, some (uriOf k)), none, none, 0, none, none⟩

/-- Two attempts on one URI. -/
theorem default_port_follows_scheme_twice :
    AddressState.DefaultPorts usualBuild ⟨some ⟨some (uriOf .wss).text, some (uriOf .wss).scheme, some [0x68],
      none, 443, none⟩, [⟨some Scheme.wss.name, 443⟩, ⟨some Scheme.wss.name, 443⟩]⟩ := by
  have hset : AddressState.Run usualBuild (fun s x => x.NoPort ∧ s.StepFits usualBuild x) _ :=
    .next (x := .call (.setConfig (uriConfig .wss) true)) .start
      ⟨⟨rfl, fun _ _ hu => by cases hu; rfl⟩, fun k _ => ⟨Or.inl ⟨rfl,rfl⟩, fun _ hown => by cases hown⟩⟩
  have hone := hset.next (x := .attempt true []) ⟨fun _ hc => absurd hc List.not_mem_nil, fun _ _ => trivial⟩
  have htwo := hone.next (x := .attempt true []) ⟨fun _ hc => absurd hc List.not_mem_nil, fun _ _ => trivial⟩
  exact default_port_follows_scheme htwo

/-- After an attempt on `mqtt://h` the attempt on `mqtts://h` goes to port 1883. -/
theorem default_port_left_behind :
    ¬ ∀ b s, AddressState.Run b (fun _ x => x.NoPort) s → s.DefaultPorts b := by
  intro h
  have hset : AddressState.Run usualBuild (fun _ x => x.NoPort) _ :=
    .next (x := .call (.setConfig (uriConfig .mqtt) true)) .start ⟨rfl, fun _ _ hu => by cases hu; rfl⟩
  have hone := hset.next (x := .attempt true []) fun _ hc => absurd hc List.not_mem_nil
  have hchanged := hone.next (x := .call (.setUri (some (uriOf .mqtts)))) rfl
  have htwo := hchanged.next (x := .attempt true []) fun _ hc => absurd hc List.not_mem_nil
  have hport := h _ _ htwo ⟨some Scheme.mqtts.name, 1883⟩ (by decide +kernel) .mqtts (by decide +kernel)
  exact absurd hport (by decide)

end EspMqtt
