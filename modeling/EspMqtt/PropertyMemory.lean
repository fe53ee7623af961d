import EspMqtt.ConfigMemory

/-! The memory behind a client of version 5: what `mqtt5_client.c` allocates and frees for the
properties the application sets, and the whole life of a client. -/
namespace EspMqtt.Memory
open Ownership Ownership.Prog

/-- `esp_mqtt5_connection_property_config_t`; correlation data without a length is none. -/
structure ConnectionProperty where
  sessionExpiryInterval : ℕ
  maximumPacketSize : ℕ
  receiveMaximum : ℕ
  topicAliasMaximum : ℕ
  requestRespInfo : Bool
  requestProblemInfo : Bool
  userProperty : Option (List (CString × CString))
  willDelayInterval : ℕ
  messageExpiryInterval : ℕ
  payloadFormatIndicator : Bool
  contentType : Option CString
  responseTopic : Option CString
  correlationData : Option (List UInt8)
  willUserProperty : Option (List (CString × CString))

/-- `esp_mqtt5_disconnect_property_config_t`. -/
structure DisconnectProperty where
  sessionExpiryInterval : ℕ
  disconnectReason : ℕ
  userProperty : Option (List (CString × CString))

/-- `esp_mqtt5_user_property_copy` to the list in `new`: the items that were copied, and whether all
were. -/
def userPropertyCopy (l : List5) (new : ℕ) : List (CString × CString) → Prog Site (Bool × List PropertyItem)
  | [] => pure (true, [])
  | (oldKey, oldValue) :: old => do
    let item ← alloc (.propertyItem l)
    match item with
    | none => pure (false, [])
    | some item => do
      let key ← copy (.propertyKey l) oldKey.text
      match key with
      | none => do
        free (some item)
        pure (false, [])
      | some key => do
        let value ← copy (.propertyValue l) oldValue.text
        match value with
        | none => do
          freeAll [some key.block, some item]
          pure (false, [])
        | some value => do
          touch new
          let r ← userPropertyCopy l new old
          pure (r.1, ⟨item, key, value⟩ :: r.2)

/-- A list of user properties deleted and a copy put in its place; `false` is an allocation that was
refused, with what there is of the list by then. -/
def replaceList (l : List5) (old : Option PropertyList) (items : List (CString × CString)) :
    Prog Site (Bool × Option PropertyList) := do
  deleteUserProperty old
  let block ← alloc (.propertyList l)
  match block with
  | none => pure (false, none)
  | some block => do
    let r ← userPropertyCopy l block items
    pure (r.1, some ⟨block, r.2⟩)

/-- A part of `esp_mqtt5_client_set_connect_property`. -/
abbrev Part5 := Mqtt5Config → Prog Site (Option EspErr × Mqtt5Config)

def outcome (given : Bool) : Option EspErr := if given then none else some .noMem

/-- The numbers and flags for the connection; those that are zero are left as they are. -/
def setConnectNumbers (inBufferLength : ℤ) (p : ConnectionProperty) : Part5 := fun m => pure (none,
  {m with
    sessionExpiryInterval :=
      if p.sessionExpiryInterval ≠ 0 then p.sessionExpiryInterval else m.sessionExpiryInterval
    maximumPacketSize := if p.maximumPacketSize ≠ 0 then p.maximumPacketSize else inBufferLength
    receiveMaximum := if p.receiveMaximum ≠ 0 then p.receiveMaximum else m.receiveMaximum})

/-- `topic_alias_maximum`, with a list of aliases from the first time it is set. -/
def setTopicAliasMaximum (topicAliasMaximum : ℕ) : Part5 := fun m =>
  if topicAliasMaximum ≠ 0 then
    if m.peerTopicAlias.isNone then do
      let block ← alloc .peerTopicAlias
      pure (outcome block.isSome, {m with topicAliasMaximum, peerTopicAlias := block.map fun b => ⟨b, []⟩})
    else pure (none, {m with topicAliasMaximum})
  else pure (none, m)

def setRequests (p : ConnectionProperty) : Part5 := fun m => pure (none,
  {m with
    requestRespInfo := p.requestRespInfo || m.requestRespInfo
    requestProblemInfo := p.requestProblemInfo || m.requestProblemInfo})

def setWillNumbers (p : ConnectionProperty) : Part5 := fun m => pure (none,
  {m with
    payloadFormatIndicator := p.payloadFormatIndicator || m.payloadFormatIndicator
    willDelayInterval := if p.willDelayInterval ≠ 0 then p.willDelayInterval else m.willDelayInterval
    messageExpiryInterval :=
      if p.messageExpiryInterval ≠ 0 then p.messageExpiryInterval else m.messageExpiryInterval})

/-- A string of the properties, and another in its place. -/
def Text5.get (m : Mqtt5Config) : Text5 → Option Copy
  | contentType => m.contentType
  | responseTopic => m.responseTopic
  | correlationData => m.correlationData

def Text5.set (m : Mqtt5Config) (p : Option Copy) : Text5 → Mqtt5Config
  | contentType => {m with contentType := p}
  | responseTopic => {m with responseTopic := p}
  | correlationData => {m with correlationData := p}

/-- `esp_mqtt_set_if_config` on one of them, and what is done with the correlation data. -/
def setText (f : Text5) : Option (List UInt8) → Part5
  | none => fun m => pure (none, m)
  | some text => fun m => do
    free (pointer (f.get m))
    let copied ← copy (.text f) text
    pure (outcome copied.isSome, f.set m copied)

/-- A list of user properties, and another in its place. -/
def List5.get (m : Mqtt5Config) : List5 → Option PropertyList
  | connect => m.connectUserProperty
  | will => m.willUserProperty
  | disconnect => m.disconnectUserProperty

def List5.set (m : Mqtt5Config) (l : Option PropertyList) : List5 → Mqtt5Config
  | connect => {m with connectUserProperty := l}
  | will => {m with willUserProperty := l}
  | disconnect => {m with disconnectUserProperty := l}

/-- A list of user properties replaced by a copy of the application's. -/
def setList (f : List5) : Option (List (CString × CString)) → Part5
  | none => fun m => pure (none, m)
  | some items => fun m => do
    let r ← replaceList f (f.get m) items
    pure (outcome r.1, f.set m r.2)

def connectParts (inBufferLength : ℤ) (p : ConnectionProperty) : List Part5 :=
  [setConnectNumbers inBufferLength p, setTopicAliasMaximum p.topicAliasMaximum, setRequests p,
    setList .connect p.userProperty, setWillNumbers p, setText .contentType (p.contentType.map CString.text),
    setText .responseTopic (p.responseTopic.map CString.text), setText .correlationData p.correlationData,
    setList .will p.willUserProperty]

/-- `esp_mqtt5_client_set_connect_property`, which destroys the configuration when it fails. -/
def espMqtt5ClientSetConnectProperty (p : ConnectionProperty) (c : Client) : Prog Site (EspErr × Client) :=
  if c.information.protocolVer ≠ some .v5 then pure (.fail, c)
  else
    match c.mqtt5Config with
    | none => undefined
    | some m => do
      touch m.block
      let r ← inOrder (connectParts c.inBufferLength p) m
      match r.1 with
      | none => return (.ok, {c with mqtt5Config := some r.2})
      | some err => do
        let c ← espMqttDestroyConfig {c with mqtt5Config := some r.2}
        return (err, c)

/-- What is behind a list of user properties apart from the list itself. -/
def PropertyList.itemPointers (l : PropertyList) : List (Option ℕ) := l.items.flatMap PropertyItem.pointers

/-- `esp_mqtt5_client_set_disconnect_property`.  When a copy fails only the head of the list is
freed. -/
def espMqtt5ClientSetDisconnectProperty (p : DisconnectProperty) (c : Client) : Prog Site (EspErr × Client) :=
  if c.information.protocolVer ≠ some .v5 then pure (.fail, c)
  else
    match c.mqtt5Config with
    | none => undefined
    | some m => do
      touch m.block
      let m := {m with
        disconnectSessionExpiryInterval :=
          if p.sessionExpiryInterval ≠ 0 then p.sessionExpiryInterval else m.disconnectSessionExpiryInterval
        disconnectReason := if p.disconnectReason ≠ 0 then p.disconnectReason else m.disconnectReason}
      match p.userProperty with
      | none => return (.ok, {c with mqtt5Config := some m})
      | some items => do
        let r ← replaceList .disconnect (List5.disconnect.get m) items
        match r.1, r.2 with
        | true, l => return (.ok, {c with mqtt5Config := some (List5.disconnect.set m l)})
        | false, none => return (.noMem, {c with mqtt5Config := some (List5.disconnect.set m none)})
        | false, some l => do
          free (some l.block)
          return (.fail, {c with
            mqtt5Config := some (List5.disconnect.set m none)
            lost := c.lost+holds l.itemPointers})

/-- `esp_mqtt5_create_default_config`; `false` is a failure. -/
def espMqtt5CreateDefaultConfig (c : Client) : Prog Site (Bool × Client) :=
  if c.information.protocolVer = some .v5 then do
    let eventProperty ← alloc .eventProperty
    if eventProperty.isNone then pure (false, {c with eventProperty})
    else do
      let block ← alloc .mqtt5Config
      pure (block.isSome, {c with eventProperty, mqtt5Config := block.map Mqtt5Config.zero})
  else pure (true, c)

/-! The life of a client. -/

/-- `heap_caps_calloc` of the client. -/
def Client.zero (block : ℕ) : Client where
  inBuffer := none
  inBufferLength := 0
  buffer := none
  bufferLength := 0
  information := .zero
  mqtt5Config := none
  eventProperty := none
  lost := 0
  block := block
  errorHandle := none
  apiLock := none
  outbox := none
  statusBits := none
  config := none

/-- `create_client_data`. -/
def createClientData (c : Client) : Prog Site (Bool × Client) := do
  let errorHandle ← alloc .errorHandle
  if errorHandle.isNone then pure (false, c)
  else do
    let apiLock ← alloc .apiLock
    if apiLock.isNone then pure (false, {c with errorHandle})
    else do
      let outbox ← alloc .outbox
      if outbox.isNone then pure (false, {c with errorHandle, apiLock})
      else do
        let statusBits ← alloc .statusBits
        pure (statusBits.isSome, {c with errorHandle, apiLock, outbox, statusBits})

/-- The blocks of the client itself, in the order in which they are freed. -/
def Client.handles (c : Client) : List (Option ℕ) :=
  [c.outbox, c.statusBits, c.apiLock, c.errorHandle, some c.block]

/-- `esp_mqtt_client_destroy` of a client whose task does not run; what it leaves allocated. -/
def espMqttClientDestroy (c : Client) : Prog Site (Multiset ℕ) := do
  let c ← espMqttDestroyConfig c
  freeAll c.handles
  return c.lost

section Life
variable (b : Build) (http : (s : CString) → Option (HttpParserUrl s.text)) (id : List UInt8)

/-- `esp_mqtt_client_init`; where it fails, what its own `esp_mqtt_client_destroy` leaves. -/
def espMqttClientInit (config : ClientConfig) : Prog Site (Except (Multiset ℕ) Client) := do
  let block ← alloc .client
  match block with
  | none => pure (.error 0)
  | some block => do
    let data ← createClientData (.zero block)
    if data.1 = false then do
      let left ← espMqttClientDestroy data.2
      pure (.error left)
    else do
      let r ← espMqttSetConfig b http id config data.2
      if r.1 ≠ .ok then do
        let left ← espMqttClientDestroy r.2
        pure (.error left)
      -- `&client->config->event_loop_handle`
      else if b.eventLoop = true ∧ r.2.config.isNone then undefined
      else do
        let default ← espMqtt5CreateDefaultConfig r.2
        if default.1 then pure (.ok default.2)
        else do
          let left ← espMqttClientDestroy default.2
          pure (.error left)

/-- What an application can call. -/
inductive Call where
  | setConfig (config : ClientConfig)
  | setUri (uri : CString)
  | setConnectProperty (p : ConnectionProperty)
  | setDisconnectProperty (p : DisconnectProperty)

def call (c : Client) : Call → Prog Site (EspErr × Client)
  | .setConfig config => espMqttSetConfig b http id config c
  | .setUri uri => espMqttClientSetUri http uri c
  | .setConnectProperty p => espMqtt5ClientSetConnectProperty p c
  | .setDisconnectProperty p => espMqtt5ClientSetDisconnectProperty p c

/-- The calls of an application that makes no other once the client has lost its configuration. -/
def calls : List Call → Client → Prog Site Client
  | [], c => pure c
  | next :: rest, c =>
    if c.config.isNone then pure c
    else do
      let r ← call b http id c next
      calls rest r.2

/-- A client from `esp_mqtt_client_init` to `esp_mqtt_client_destroy`: what it leaves allocated. -/
def lifetime (config : ClientConfig) (cs : List Call) : Prog Site (Multiset ℕ) := do
  let r ← espMqttClientInit b http id config
  match r with
  | .error left => pure left
  | .ok c => do
    let c ← calls b http id cs c
    espMqttClientDestroy c

end Life
end EspMqtt.Memory
