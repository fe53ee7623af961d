import EspMqtt.Library.Ownership
import EspMqtt.MsgBuild
import EspMqtt.SetUri

/-! The memory behind a client: what `esp_mqtt_client_init`, `esp_mqtt_set_config`,
`esp_mqtt_client_set_uri`, `esp_mqtt_destroy_config` and `esp_mqtt_client_destroy` allocate and
free.  The task has not been started. -/
namespace EspMqtt.Memory
open Ownership Ownership.Prog

/-- The strings that a client owns. -/
inductive Field where
  | host | uri | path | scheme | clientkeyPassword | ifName
  | willTopic | willMessage | clientId | username | password
  deriving DecidableEq, Repr

/-- Those among the properties of version 5. -/
inductive Text5 where
  | contentType | responseTopic | correlationData
  deriving DecidableEq, Repr

/-- A list of user properties. -/
inductive List5 where
  | connect | will | disconnect
  deriving DecidableEq, Repr

/-- What is allocated. -/
inductive Site where
  | client | errorHandle | apiLock | outbox | statusBits
  | config | buffer | inBuffer | field (f : Field) | alpnProtos | alpnProto
  | newScheme | newHost | newPath | userInfo | newPassword | newUsername | newUri
  | eventProperty | mqtt5Config | peerTopicAlias | topicAlias | aliasTopic
  | propertyList (l : List5) | propertyItem (l : List5) | propertyKey (l : List5) | propertyValue (l : List5)
  | text (f : Text5)
  deriving DecidableEq, Repr

/-- A block and what has been copied to it. -/
structure Copy where
  block : ℕ
  text : List UInt8

/-- The pointer to it. -/
def pointer (c : Option Copy) : Option ℕ := c.map Copy.block

/-- An access to the text, where `NULL` must not be followed. -/
def read : Option Copy → Prog Site Unit
  | none => undefined
  | some c => touch c.block

/-- `strdup`, or an allocation that the text is copied to. -/
def copy (site : Site) (text : List UInt8) : Prog Site (Option Copy) := do
  let block ← alloc site
  return block.map fun b => ⟨b, text⟩

/-- `mqtt_create_string`. -/
def createString (site : Site) (text : List UInt8) : Prog Site (Option Copy) :=
  if text = [] then pure none else copy site text

/-- `calloc(num_alpn_protos + 1, ..)`. -/
structure AlpnProtos where
  block : ℕ
  entries : List (Option Copy)

/-- `mqtt_config_storage_t`; of what the application keeps itself, whether it is there. -/
structure ConfigStorage where
  block : ℕ
  taskStack : ℤ
  taskPrio : ℤ
  uri : Option Copy
  host : Option Copy
  path : Option Copy
  scheme : Option Copy
  port : ℕ
  autoReconnect : Bool
  networkTimeoutMs : ℤ
  refreshConnectionAfterMs : ℤ
  reconnectTimeoutMs : ℤ
  alpnProtos : Option AlpnProtos
  numAlpnProtos : ℕ
  clientkeyPassword : Option Copy
  useGlobalCaStore : Bool
  cacertBuf : Bool
  clientcertBuf : Bool
  pskHintKey : Bool
  messageRetransmitTimeout : ℤ
  outboxLimit : ℕ
  ifName : Option Copy

/-- `calloc` of it. -/
def ConfigStorage.zero (block : ℕ) : ConfigStorage where
  block := block
  taskStack := 0
  taskPrio := 0
  uri := none
  host := none
  path := none
  scheme := none
  port := 0
  autoReconnect := false
  networkTimeoutMs := 0
  refreshConnectionAfterMs := 0
  reconnectTimeoutMs := 0
  alpnProtos := none
  numAlpnProtos := 0
  clientkeyPassword := none
  useGlobalCaStore := false
  cacertBuf := false
  clientcertBuf := false
  pskHintKey := false
  messageRetransmitTimeout := 0
  outboxLimit := 0
  ifName := none

/-- `mqtt_connect_info_t`; without a protocol version it is `MQTT_PROTOCOL_UNDEFINED`. -/
structure Information where
  clientId : Option Copy
  username : Option Copy
  password : Option Copy
  willTopic : Option Copy
  willMessage : Option Copy
  keepalive : ℤ
  willLength : ℕ
  willQos : ℤ
  willRetain : ℤ
  cleanSession : Bool
  protocolVer : Option ProtocolVer

/-- `memset` of it. -/
def Information.zero : Information :=
  ⟨none, none, none, none, none, 0, 0, 0, 0, false, none⟩

/-- `mqtt5_user_property_t`. -/
structure PropertyItem where
  block : ℕ
  key : Copy
  value : Copy

/-- A list of user properties. -/
structure PropertyList where
  block : ℕ
  items : List PropertyItem

/-- `mqtt5_topic_alias_t`. -/
structure AliasItem where
  block : ℕ
  topicAlias : ℕ
  topic : Option Copy
  topicLen : ℕ

structure AliasList where
  block : ℕ
  items : List AliasItem

/-- `mqtt5_config_storage_t`, as far as it is allocated or set by the application. -/
structure Mqtt5Config where
  block : ℕ
  sessionExpiryInterval : ℕ
  maximumPacketSize : ℤ
  receiveMaximum : ℕ
  topicAliasMaximum : ℕ
  requestRespInfo : Bool
  requestProblemInfo : Bool
  connectUserProperty : Option PropertyList
  payloadFormatIndicator : Bool
  willDelayInterval : ℕ
  messageExpiryInterval : ℕ
  contentType : Option Copy
  responseTopic : Option Copy
  correlationData : Option Copy
  willUserProperty : Option PropertyList
  disconnectSessionExpiryInterval : ℕ
  disconnectReason : ℕ
  disconnectUserProperty : Option PropertyList
  peerTopicAlias : Option AliasList

/-- `calloc` of it. -/
def Mqtt5Config.zero (block : ℕ) : Mqtt5Config where
  block := block
  sessionExpiryInterval := 0
  maximumPacketSize := 0
  receiveMaximum := 0
  topicAliasMaximum := 0
  requestRespInfo := false
  requestProblemInfo := false
  connectUserProperty := none
  payloadFormatIndicator := false
  willDelayInterval := 0
  messageExpiryInterval := 0
  contentType := none
  responseTopic := none
  correlationData := none
  willUserProperty := none
  disconnectSessionExpiryInterval := 0
  disconnectReason := 0
  disconnectUserProperty := none
  peerTopicAlias := none

/-- What of `struct esp_mqtt_client` a configuration fills.  `lost` is history: the blocks that
nothing in the client points to any more and that have not been freed. -/
structure ClientBody where
  inBuffer : Option ℕ
  inBufferLength : ℤ
  buffer : Option ℕ
  bufferLength : ℤ
  information : Information
  mqtt5Config : Option Mqtt5Config
  eventProperty : Option ℕ
  lost : Multiset ℕ

/-- A client with a configuration. -/
structure Configured extends ClientBody where
  config : ConfigStorage

/-- `struct esp_mqtt_client`. -/
structure Client extends ClientBody where
  block : ℕ
  errorHandle : Option ℕ
  apiLock : Option ℕ
  outbox : Option ℕ
  statusBits : Option ℕ
  config : Option ConfigStorage

/-- The client with the configuration it has, and what it becomes with another. -/
def Client.opened (c : Client) (config : ConfigStorage) : Configured := {c with config}

def Client.closed (c : Client) (d : Configured) : Client := {c with toClientBody := d.toClientBody, config := some d.config}

/-- The build: its defaults, and what is compiled in. -/
structure Build extends BuildConfig where
  bufferSizeByte : ℤ
  taskPriority : ℤ
  taskStack : ℤ
  protocol311 : Bool
  protocol5 : Bool
  eventLoop : Bool

/-- `esp_mqtt_client_config_t`.  The will message is the bytes that `msg_len` counts or, without a
length, those before the NUL; the key password is there if its length is. -/
structure ClientConfig where
  hostname : Option CString
  path : Option CString
  uri : Option CString
  port : ℕ
  overTransport : Option Scheme
  useGlobalCaStore : Bool
  certificate : Bool
  pskHintKey : Bool
  alpnProtos : Option (List CString)
  username : Option CString
  clientId : Option CString
  setNullClientId : Bool
  password : Option CString
  clientCertificate : Bool
  keyPassword : Option (List UInt8)
  willTopic : Option CString
  willMsg : Option (List UInt8)
  willQos : ℤ
  willRetain : ℤ
  disableCleanSession : Bool
  keepalive : ℤ
  disableKeepalive : Bool
  protocolVer : Option ProtocolVer
  messageRetransmitTimeout : ℤ
  reconnectTimeoutMs : ℤ
  networkTimeoutMs : ℤ
  refreshConnectionAfterMs : ℤ
  disableAutoReconnect : Bool
  ifName : Option (List UInt8)
  taskPriority : ℤ
  taskStackSize : ℤ
  bufferSize : ℤ
  bufferOutSize : ℤ
  outboxLimit : ℕ

/-! A pointer of the client that it owns. -/

/-- The user properties behind a pointer, in the order in which they are freed. -/
def PropertyItem.pointers (i : PropertyItem) : List (Option ℕ) := [some i.key.block, some i.value.block, some i.block]

def propertyPointers : Option PropertyList → List (Option ℕ)
  | none => []
  | some l => l.items.flatMap PropertyItem.pointers ++ [some l.block]

def aliasPointers : Option AliasList → List (Option ℕ)
  | none => []
  | some l => (l.items.flatMap fun i => [pointer i.topic, some i.block]) ++ [some l.block]

/-- What `esp_mqtt5_client_destory` frees of the configuration. -/
def Mqtt5Config.pointers (m : Mqtt5Config) : List (Option ℕ) :=
  [pointer m.contentType, pointer m.responseTopic, pointer m.correlationData] ++
    aliasPointers m.peerTopicAlias ++ propertyPointers m.connectUserProperty ++
    propertyPointers m.willUserProperty ++ propertyPointers m.disconnectUserProperty ++ [some m.block]

/-- The pointers of version 5. -/
def ClientBody.pointers5 (c : ClientBody) : List (Option ℕ) :=
  (match c.mqtt5Config with
    | none => []
    | some m => m.pointers) ++ [c.eventProperty]

/-- The protocols that have been listed, and the list. -/
def ConfigStorage.alpnPointers (s : ConfigStorage) : List (Option ℕ) :=
  match s.alpnProtos with
  | none => []
  | some a => a.entries.map pointer ++ [some a.block]

/-- The pointers of the configuration itself. -/
def Configured.pointers (c : Configured) : List (Option ℕ) :=
  [c.inBuffer, c.buffer, pointer c.config.host, pointer c.config.uri, pointer c.config.path,
    pointer c.config.scheme] ++ c.config.alpnPointers ++
  [pointer c.config.clientkeyPassword, pointer c.config.ifName, pointer c.information.willTopic,
    pointer c.information.willMessage, pointer c.information.clientId, pointer c.information.username,
    pointer c.information.password, some c.config.block]

/-- The blocks that belong to a client with a configuration. -/
def Configured.own (c : Configured) : Multiset ℕ := holds c.pointers+holds c.pointers5+c.lost

/-- A string of the client. -/
def Field.get (c : Configured) : Field → Option Copy
  | host => c.config.host
  | uri => c.config.uri
  | path => c.config.path
  | scheme => c.config.scheme
  | clientkeyPassword => c.config.clientkeyPassword
  | ifName => c.config.ifName
  | willTopic => c.information.willTopic
  | willMessage => c.information.willMessage
  | clientId => c.information.clientId
  | username => c.information.username
  | password => c.information.password

/-- Another pointer in its place. -/
def Field.set (c : Configured) (p : Option Copy) : Field → Configured
  | host => {c with config := {c.config with host := p}}
  | uri => {c with config := {c.config with uri := p}}
  | path => {c with config := {c.config with path := p}}
  | scheme => {c with config := {c.config with scheme := p}}
  | clientkeyPassword => {c with config := {c.config with clientkeyPassword := p}}
  | ifName => {c with config := {c.config with ifName := p}}
  | willTopic => {c with information := {c.information with willTopic := p}}
  | willMessage => {c with information := {c.information with willMessage := p}}
  | clientId => {c with information := {c.information with clientId := p}}
  | username => {c with information := {c.information with username := p}}
  | password => {c with information := {c.information with password := p}}

/-! `esp_mqtt_set_config`, in its order. -/

/-- A part of it: `none` goes on, and an error goes to `_mqtt_set_config_failed`. -/
abbrev Stage := Configured → Prog Site (Option EspErr × Configured)

/-- Settings that nothing has to be allocated for. -/
def assign (f : Configured → Configured) : Stage := fun c => pure (none, f c)

/-- A part that goes through `client->config`. -/
def onStorage (stage : Stage) : Stage := fun c => do
  touch c.config.block
  stage c

/-- `esp_mqtt_set_if_config`. -/
def setIfConfig (field : Field) : Option (List UInt8) → Stage
  | none => fun c => pure (none, c)
  | some new => fun c => do
    free (pointer (field.get c))
    let old ← copy (.field field) new
    return (if old.isNone then some .noMem else none, field.set c old)

/-- `mqtt_msg_buffer_destroy`, `mqtt_msg_buffer_init` and the input buffer.  `err` is still
`ESP_OK` here. -/
def setBuffers (b : Build) (config : ClientConfig) : Stage := fun c => do
  free c.buffer
  let bufferSize := if config.bufferSize ≤ 0 then b.bufferSizeByte else config.bufferSize
  let outBufferSize := if 0 < config.bufferOutSize then config.bufferOutSize else bufferSize
  let buffer ← alloc .buffer
  if buffer.isNone then pure (some .ok, {c with buffer})
  else do
    free c.inBuffer
    let inBuffer ← alloc .inBuffer
    if inBuffer.isNone then pure (some .ok, {c with buffer, bufferLength := outBufferSize, inBuffer})
    else pure (none,
      {c with buffer, bufferLength := outBufferSize, inBuffer, inBufferLength := bufferSize})

/-- A number that is only taken if it is positive. -/
def orDefault (n default : ℤ) : ℤ := if n ≤ 0 then default else n

/-- The retransmission timeout, the task and the port. -/
def setTask (b : Build) (config : ClientConfig) (c : Configured) : Configured :=
  {c with config := {c.config with
    messageRetransmitTimeout := orDefault config.messageRetransmitTimeout 1000
    taskPrio := orDefault config.taskPriority b.taskPriority
    taskStack := orDefault config.taskStackSize b.taskStack
    port := if config.port ≠ 0 then config.port else c.config.port}}

/-- The will apart from its texts, clean session, keepalive and protocol version. -/
def setSession (b : Build) (config : ClientConfig) (c : Configured) : Configured :=
  let i := c.information
  let keepalive := if config.keepalive ≠ 0 then config.keepalive else i.keepalive
  let keepalive := if keepalive = 0 then 120 else keepalive
  {c with information := {i with
    willQos := if config.willQos ≠ 0 then config.willQos else i.willQos
    willRetain := if config.willRetain ≠ 0 then config.willRetain else i.willRetain
    cleanSession := if config.disableCleanSession = i.cleanSession then !config.disableCleanSession
      else i.cleanSession
    keepalive := if config.disableKeepalive then 0 else keepalive
    protocolVer := some ((config.protocolVer.or i.protocolVer).getD (if b.protocol311 then .v311 else .v31))}}

/-- `MQTT_PROTOCOL_V_5` has to be compiled in. -/
def checkProtocol (b : Build) : Stage := fun c =>
  pure (if c.information.protocolVer = some .v5 ∧ b.protocol5 = false then some .noMem else none, c)

/-- The network settings that are numbers. -/
def setNetwork (config : ClientConfig) (c : Configured) : Configured :=
  {c with config := {c.config with
    networkTimeoutMs := orDefault config.networkTimeoutMs 10000
    refreshConnectionAfterMs :=
      if config.refreshConnectionAfterMs ≠ 0 then config.refreshConnectionAfterMs
      else c.config.refreshConnectionAfterMs
    autoReconnect := !config.disableAutoReconnect
    reconnectTimeoutMs := if config.reconnectTimeoutMs ≠ 0 then config.reconnectTimeoutMs else 10000}}

/-- What the application keeps. -/
def setVerification (config : ClientConfig) (c : Configured) : Configured :=
  {c with config := {c.config with
    useGlobalCaStore := config.useGlobalCaStore
    cacertBuf := config.certificate
    pskHintKey := config.pskHintKey
    clientcertBuf := config.clientCertificate}}

/-- A pointer that is set without a look at the one it had. -/
def overwrite (field : Field) : Option (List UInt8) → Stage
  | none => fun c => pure (none, c)
  | some new => fun c => do
    let copied ← copy (.field field) new
    return (if copied.isNone then some .noMem else none,
      {field.set c copied with lost := c.lost+held (pointer (field.get c))})

/-- `for (int i = 0; i < num_alpn_protos; i++) free(alpn_protos[i])` and `free(alpn_protos)`. -/
def freeAlpnProtos (s : ConfigStorage) : Prog Site Unit :=
  match s.alpnProtos with
  | none => if s.numAlpnProtos = 0 then pure () else undefined
  | some a => do
    touch a.block
    if s.numAlpnProtos ≤ a.entries.length then freeAll ((a.entries.take s.numAlpnProtos).map pointer)
    else undefined
    free (some a.block)

/-- The copies of the protocols, up to one that fails; `false` goes to the failure. -/
def copyAlpn : List CString → Prog Site (Bool × List (Option Copy))
  | [] => pure (true, [none])
  | proto :: protos => do
    let copied ← copy .alpnProto proto.text
    if copied.isNone then pure (false, none :: List.replicate (protos.length+1) none)
    else do
      let r ← copyAlpn protos
      return (r.1, copied :: r.2)

/-- `broker.verification.alpn_protos`. -/
def setAlpnProtos : Option (List CString) → Stage
  | none => fun c => pure (none, c)
  | some protos => fun c => do
    freeAlpnProtos c.config
    let block ← alloc .alpnProtos
    match block with
    | none => return (some .noMem,
        {c with config := {c.config with alpnProtos := none, numAlpnProtos := protos.length}})
    | some block => do
      let r ← copyAlpn protos
      return (if r.1 then none else some .noMem, {c with config := {c.config with
        alpnProtos := some ⟨block, r.2⟩, numAlpnProtos := protos.length}})

/-- The scheme for `broker.address.transport`; none for a transport that is not compiled in. -/
def setTransportScheme (b : Build) : Option Scheme → Stage
  | none => fun c => pure (none, c)
  | some k => fun c => do
    free (pointer c.config.scheme)
    match b.schemeOver k with
    | none => return (none, Field.scheme.set c none)
    | some name => do
      let scheme ← copy (.field .scheme) name
      return (if scheme.isNone then some .noMem else none, Field.scheme.set c scheme)

/-! `esp_mqtt_client_set_uri`. -/

/-- The copies that are made before the lock is taken. -/
structure NewParts where
  scheme : Copy
  host : Copy
  path : Option Copy
  userInfo : Option Copy
  password : Option Copy
  username : Option Copy

/-- A part of the user information, decoded in place and copied; `none` is an error in it. -/
def decodedPart (site : Site) (part : List UInt8) : Prog Site (Option (Option Copy)) :=
  match espMqttDecodePercentEncodedString (some (part ++ [0])) with
  | none => undefined
  | some r => if r.1 < 0 then pure none else do
    let copied ← copy site (r.2.takeWhile (· ≠ 0))
    return some copied

/-- `new_path`; `false` is -1. -/
def newPath (path query : List UInt8) : Prog Site (Bool × Option Copy) :=
  if path ≠ [] ∨ query ≠ [] then do
    let copied ← copy .newPath (printPath path query)
    return (copied.isSome, copied)
  else pure (true, none)

/-- `new_password`, if there is a colon. -/
def newPassword (info : List UInt8) : Prog Site (Option (Option Copy)) :=
  match passwordPart info with
  | none => pure (some none)
  | some pass => decodedPart .newPassword pass

/-- `new_username` and `new_password`, and whether both could be decoded. -/
def newCredentials (info : List UInt8) : Prog Site (Bool × Option Copy × Option Copy) := do
  let pass ← newPassword info
  match pass with
  | none => return (false, none, none)
  | some newPassword => do
    let user ← decodedPart .newUsername (userPart info)
    match user with
    | none => return (false, none, newPassword)
    | some newUsername => return (true, newUsername, newPassword)

/-- Up to `MQTT_API_LOCK`, and `cleanup` where that is not reached. -/
def prepareUri (http : (s : CString) → Option (HttpParserUrl s.text)) (uri : CString) :
    Prog Site (Except EspErr NewParts) :=
  match http uri with
  | none => pure (.error .fail)
  | some puri => do
    let newScheme ← createString .newScheme (puri.field .schema)
    let newHost ← createString .newHost (puri.field .host)
    match newScheme, newHost with
    | some scheme, some host => do
      let path ← newPath (puri.field .path) (puri.field .query)
      if path.1 = false then do
        freeAll [some scheme.block, some host.block, pointer path.2]
        return .error .noMem
      else do
        let userInfo ← createString .userInfo (puri.field .userinfo)
        match userInfo with
        | none => return .ok ⟨scheme, host, path.2, none, none, none⟩
        | some info => do
          let r ← newCredentials info.text
          if r.1 then return .ok ⟨scheme, host, path.2, some info, r.2.2, r.2.1⟩
          else do
            freeAll [some scheme.block, some host.block, pointer path.2, pointer r.2.1, pointer r.2.2,
              some info.block]
            return .error .fail
    | _, _ => do
      freeAll [pointer newScheme, pointer newHost]
      return .error .noMem

/-- A pointer that gets a new copy, the old one freed. -/
def replace (field : Field) (new : Option Copy) (c : Configured) : Prog Site Configured := do
  free (pointer (field.get c))
  return field.set c new

/-- A credential, which stays as it is without a new one. -/
def replaceIf (field : Field) : Option Copy → Configured → Prog Site Configured
  | none, c => pure c
  | some new, c => replace field (some new) c

/-- `new_uri`, which the client's own URI does not need. -/
def newUri (own : Bool) (uri : CString) : Prog Site (Option Copy) :=
  if own then pure none else copy .newUri uri.text

/-- The port, if the URI has one. -/
def setPort (http : (s : CString) → Option (HttpParserUrl s.text)) (uri : CString) (c : Configured) :
    Configured :=
  {c with config := {c.config with
    port := match http uri with
      | none => c.config.port
      | some puri => if puri.len .port ≠ 0 then strtolDecimal (uri.text.drop (puri.off .port).toNat)
        else c.config.port}}

/-- What happens under the lock, and `cleanup`; `own` says that `uri` is `client->config->uri`. -/
def commitUri (http : (s : CString) → Option (HttpParserUrl s.text)) (uri : CString) (own : Bool)
    (new : NewParts) (c : Configured) : Prog Site (EspErr × Configured) := do
  let copied ← newUri own uri
  if own = false ∧ copied.isNone then do
    freeAll [some new.scheme.block, some new.host.block, pointer new.path, pointer new.username,
      pointer new.password, pointer new.userInfo]
    return (.noMem, c)
  else do
    touch c.config.block
    let c ← replaceIf .uri copied c
    let c ← replace .scheme (some new.scheme) c
    let c ← replace .host (some new.host) c
    let c ← replace .path new.path c
    let c ← replaceIf .username new.username (setPort http uri c)
    let c ← replaceIf .password new.password c
    free (pointer new.userInfo)
    return (.ok, c)

/-- `esp_mqtt_client_set_uri` on a client with a configuration. -/
def setUri (http : (s : CString) → Option (HttpParserUrl s.text)) (uri : CString) (own : Bool)
    (c : Configured) : Prog Site (EspErr × Configured) := do
  let r ← prepareUri http uri
  match r with
  | .error err => return (err, c)
  | .ok new => commitUri http uri own new c

/-- The URI comes last, to override what was set separately. -/
def setUriLast (http : (s : CString) → Option (HttpParserUrl s.text)) : Option CString → Stage
  | none => fun c => pure (none, c)
  | some uri => fun c => do
    -- `client->config->uri`, the copy that has been made of it
    read c.config.uri
    let r ← setUri http uri true c
    return (if r.1 = .ok then none else some .fail, r.2)

/-- `credentials.client_id`; with a null client id it is left alone. -/
def setClientId (id : List UInt8) (config : ClientConfig) : Stage := fun c =>
  if config.setNullClientId then pure (none, c)
  else
    match config.clientId with
    | some new => setIfConfig .clientId (some new.text) c
    | none =>
      if c.information.clientId.isSome then pure (none, c)
      -- `platform_create_id_string`
      else do
        let created ← copy (.field .clientId) id
        return (if created.isNone then some .noMem else none, Field.clientId.set c created)

/-- `session.last_will.msg`. -/
def setWillMessage : Option (List UInt8) → Stage
  | none => fun c => pure (none, c)
  | some msg => fun c => do
    let r ← setIfConfig .willMessage (some msg) c
    return (r.1, if r.1 = none then
      {r.2 with information := {r.2.information with willLength := msg.length}} else r.2)

/-- `esp_mqtt_set_config` from the buffers to the URI. -/
def configStages (b : Build) (http : (s : CString) → Option (HttpParserUrl s.text)) (id : List UInt8)
    (config : ClientConfig) : List Stage :=
  [setBuffers b config,
    onStorage (assign (setTask b config)),
    onStorage (setIfConfig .host (config.hostname.map CString.text)),
    onStorage (setIfConfig .path (config.path.map CString.text)),
    setIfConfig .username (config.username.map CString.text),
    setIfConfig .password (config.password.map CString.text),
    setClientId id config,
    onStorage (setIfConfig .uri (config.uri.map CString.text)),
    setIfConfig .willTopic (config.willTopic.map CString.text),
    setWillMessage config.willMsg,
    assign (setSession b config),
    checkProtocol b,
    onStorage (assign (setNetwork config)),
    onStorage (overwrite .ifName config.ifName),
    onStorage (setAlpnProtos config.alpnProtos),
    onStorage (assign (setVerification config)),
    onStorage (overwrite .clientkeyPassword config.keyPassword),
    onStorage (setTransportScheme b config.overTransport),
    onStorage (setUriLast http config.uri),
    onStorage (assign fun c => {c with config := {c.config with outboxLimit := config.outboxLimit}})]

/-- `esp_mqtt_check_cfg_conflict`. -/
def espMqttCheckCfgConflict (cfg : ConfigStorage) (userCfg : ClientConfig) : EspErr :=
  let sslCfgEnabled := cfg.useGlobalCaStore || cfg.cacertBuf || cfg.clientcertBuf || cfg.pskHintKey ||
    cfg.alpnProtos.isSome
  let scheme := cfg.scheme.bind fun s => Scheme.ofName s.text
  let isSslScheme := scheme = some .mqtts ∨ scheme = some .wss
  if ¬isSslScheme ∧ sslCfgEnabled = true then .invalidArg
  else if cfg.uri.isSome ∧ userCfg.overTransport.isSome then .invalidArg
  else .ok

/-- The conflicts of a client's configuration, which are seen in the text of its scheme. -/
def checkCfgConflict (cfg : ConfigStorage) (userCfg : ClientConfig) : Prog Site EspErr := do
  touch cfg.block
  (if cfg.scheme.isSome then read cfg.scheme else pure ())
  return espMqttCheckCfgConflict cfg userCfg

/-- `esp_mqtt5_client_delete_user_property`. -/
def deleteUserProperty : Option PropertyList → Prog Site Unit
  | none => pure ()
  | some l => do
    touch l.block
    freeAll (propertyPointers (some l))

/-- `esp_mqtt5_client_delete_topic_alias`. -/
def deleteTopicAlias : Option AliasList → Prog Site Unit
  | none => pure ()
  | some l => do
    touch l.block
    freeAll (aliasPointers (some l))

/-- What `esp_mqtt5_client_destory` frees if there is an `mqtt5_config`. -/
def freeMqtt5Config : Option Mqtt5Config → Prog Site Unit
  | none => pure ()
  | some m => do
    touch m.block
    freeAll [pointer m.contentType, pointer m.responseTopic, pointer m.correlationData]
    deleteTopicAlias m.peerTopicAlias
    deleteUserProperty m.connectUserProperty
    deleteUserProperty m.willUserProperty
    deleteUserProperty m.disconnectUserProperty
    free (some m.block)

/-- `esp_mqtt5_client_destory`: what the pointers of version 5 lead to is only freed while the
protocol is version 5. -/
def espMqtt5ClientDestory (c : Configured) : Prog Site Unit :=
  if c.information.protocolVer = some .v5 then do
    freeMqtt5Config c.mqtt5Config
    free c.eventProperty
  else pure ()

/-- What has not been freed of version 5. -/
def Configured.left5 (c : Configured) : Multiset ℕ :=
  if c.information.protocolVer = some .v5 then 0 else holds c.pointers5

/-- `esp_mqtt_destroy_config`.  The buffers and the pointers of version 5 keep their values. -/
def espMqttDestroyConfig (c : Client) : Prog Site Client :=
  match c.config with
  | none => pure c
  | some config => do
    let d := c.opened config
    touch config.block
    freeAll [d.inBuffer, d.buffer, pointer config.host, pointer config.uri, pointer config.path,
      pointer config.scheme]
    freeAlpnProtos config
    freeAll [pointer config.clientkeyPassword, pointer config.ifName, pointer d.information.willTopic,
      pointer d.information.willMessage, pointer d.information.clientId, pointer d.information.username,
      pointer d.information.password]
    espMqtt5ClientDestory d
    free (some config.block)
    return {c with config := none, information := .zero, lost := c.lost+d.left5}

/-- The configuration that there is, or a new one. -/
def storageFor : Option ConfigStorage → Prog Site (Option ConfigStorage)
  | some s => pure (some s)
  | none => do
    let block ← alloc .config
    return block.map ConfigStorage.zero

/-- `esp_mqtt_set_config` with a configuration to fill. -/
def configure (b : Build) (http : (s : CString) → Option (HttpParserUrl s.text)) (id : List UInt8)
    (config : ClientConfig) (c : Client) (s : ConfigStorage) : Prog Site (EspErr × Client) := do
  let r ← inOrder (configStages b http id config) (c.opened s)
  match r.1 with
  | none => do
    let conflict ← checkCfgConflict r.2.config config
    return (conflict, c.closed r.2)
  | some err => do
    let c ← espMqttDestroyConfig (c.closed r.2)
    return (err, c)

/-- `esp_mqtt_set_config`. -/
def espMqttSetConfig (b : Build) (http : (s : CString) → Option (HttpParserUrl s.text))
    (id : List UInt8) (config : ClientConfig) (c : Client) : Prog Site (EspErr × Client) := do
  let storage ← storageFor c.config
  match storage with
  | none => return (.noMem, c)
  | some s => configure b http id config c s

/-- `esp_mqtt_client_set_uri`; a client without a configuration is only noticed under the lock. -/
def espMqttClientSetUri (http : (s : CString) → Option (HttpParserUrl s.text)) (uri : CString)
    (c : Client) : Prog Site (EspErr × Client) :=
  match c.config with
  | some s => do
    let r ← setUri http uri false (c.opened s)
    return (r.1, c.closed r.2)
  | none => do
    let r ← prepareUri http uri
    match r with
    | .error err => return (err, c)
    | .ok _ => undefined

end EspMqtt.Memory
