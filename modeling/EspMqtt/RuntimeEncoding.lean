import EspMqtt.CodecRoundTrip
import EspMqtt.ControlPackets
import EspMqtt.SubscriptionList

/-! What the runtime asks of the client fits the output buffer it asks for. -/
namespace EspMqtt
open World Wire

/-- The size of the output buffer in `emqtt_create`. -/
def emqttOutSize : ℕ := 2304

def emqttPublishPayloadMaxBytes : ℕ := 5120

/-- The connection settings that `emqtt_create` passes on; the credentials only go
with a user name. -/
def EmqttConfig.connectInfo (c : EmqttConfig) : ConnectInfo where
  clientId := some c.clientId.text
  username := if c.username.text ≠ [] then some c.username.text else none
  password := if c.username.text ≠ [] then some c.password.text else none
  willTopic := some c.willTopic.text
  willMessage := if c.willLength ≠ 0 then c.willPayload.bytes.take c.willLength else []
  willQos := c.willQos
  willRetain := c.willRetain
  keepalive := 30
  cleanSession := true
  protocolVer := .v311

/-- A client for this configuration. -/
def EmqttConfig.settings (c : EmqttConfig) (config : Config) (inBuffer : List UInt8) : Settings :=
  ⟨config, c.connectInfo, emqttOutSize, inBuffer⟩

/-- The CONNECT that says what is configured. -/
def EmqttConfig.connectPacket (c : EmqttConfig) : Wire.Connect where
  clientId := c.clientId.text
  cleanSession := true
  keepalive := 30
  will := some ⟨c.willTopic.text, c.willPayload.bytes.take c.willLength, c.willQos, c.willRetain⟩
  username := if c.username.text ≠ [] then some c.username.text else none
  password := if c.password.text ≠ [] then some c.password.text else none

/-- The arguments `emqtt_enqueue` accepts. -/
def EnqueueAccepted (topic : Option (List UInt8)) (d : CData) (length qos : ℕ) : Prop :=
  emqttTopicValid topic (min ((topic.map List.length).getD 0) (emqttTopicMax+1)) false = true ∧
    length ≤ emqttPublishPayloadMaxBytes ∧ (d.isNull = true → length = 0) ∧ qos ≤ 1

/-- The tests of `emqtt_enqueue`. -/
theorem emqttEnqueue_accepted {r : Runtime} (hstart : r.started = true) (hstate : r.state ≠ .failed)
    (topic : Option (List UInt8)) (d : CData) (length qos : ℕ) (a : Answers) :
    (emqttEnqueue r topic (!d.isNull) length qos a).1 ≠ .invalidArg ↔
      EnqueueAccepted topic d length qos := by
  have hanswer : apiResult a.request ≠ .invalidArg := by
    unfold apiResult
    split
    · decide
    · split <;> decide
  unfold emqttEnqueue EnqueueAccepted emqttPublishPayloadMaxBytes
  rw [if_neg (by simp [hstart, hstate])]
  split
  · rename_i hbad
    constructor
    · intro h
      exact absurd rfl h
    · rintro ⟨h1,h2,h3,h4⟩
      rcases hbad with hb | hb | ⟨hb,hne⟩ | hb
      · exact absurd (h1.symm.trans hb) (by decide)
      · omega
      · exact absurd (h3 (by simpa using hb)) hne
      · omega
  · rename_i hgood
    simp only [not_or, Bool.not_eq_false, not_lt, not_and, not_not, Bool.not_eq_false'] at hgood
    refine ⟨fun _ => hgood, fun _ => ?_⟩
    split
    · exact (by decide : EspErr.outboxFull ≠ .invalidArg)
    · exact hanswer

/-- The call of `esp_mqtt_client_enqueue`: an empty payload is NULL. -/
def enqueueCall (topic : Option (List UInt8)) (d : CData) (length qos retain : ℕ) : ApiCall :=
  .enqueue topic (if length ≠ 0 then d else {d with isNull := true}) length qos retain true

theorem effectiveLen_enqueueCall (d : CData) (length : ℕ) :
    effectiveLen (if length ≠ 0 then d else {d with isNull := true}) length = length := by
  unfold effectiveLen
  by_cases h : length ≠ 0
  · rw [if_pos h, if_neg (by omega)]
  · rw [if_neg h, if_neg (by simp)]

/-- The calls the runtime makes of the client's API. -/
inductive RuntimeCall : ApiCall → Prop where
  | enqueue {topic : Option (List UInt8)} {d : CData} {length qos : ℕ} (retain : ℕ)
      (h : EnqueueAccepted topic d length qos) : RuntimeCall (enqueueCall topic d length qos retain)
  | subscribe (topics : List (List UInt8 × ℕ)) : RuntimeCall (.subscribe topics)
  | unsubscribe (topic : Option (List UInt8)) : RuntimeCall (.unsubscribe topic)

/-- Only the runtime has made calls. -/
def FromRuntime (marks : List Mark) : Prop :=
  ∀ c bufferLength offset seen connection state pc inCutError inFirstChunk,
    Mark.body c bufferLength offset seen connection state pc inCutError inFirstChunk ∈ marks → RuntimeCall c

theorem FromRuntime.tail {m : Mark} {marks : List Mark} (h : FromRuntime (m :: marks)) :
    FromRuntime marks :=
  fun c bufferLength offset seen connection state pc a b hm =>
    h c bufferLength offset seen connection state pc a b (List.mem_cons_of_mem m hm)

theorem EnqueueAccepted.topic {topic : Option (List UInt8)} {d : CData} {length qos : ℕ}
    (h : EnqueueAccepted topic d length qos) :
    ∃ t, topic = some t ∧ t ≠ [] ∧ t.length ≤ emqttTopicMax := by
  have hvalid := h.1
  cases topic with
  | none => simp [emqttTopicValid] at hvalid
  | some t =>
    have hlen := emqttTopicValid_length hvalid
    simp only [Option.map_some, Option.getD_some] at hlen
    refine ⟨t, rfl, ?_, by omega⟩
    rintro rfl
    simp at hlen

/-- The length of an accepted message with its header is below this. -/
def leftoverMax : ℕ := 5+(2+emqttTopicMax+2)+emqttPublishPayloadMaxBytes

/-! Under the calls of the runtime the client keeps its buffer, and a total length left
behind is that of a message the runtime has accepted. -/

structure Limits (isV5 : Bool) (c : Connection) : Prop where
  v311 : isV5 = false
  buffer : c.bufferLength = emqttOutSize
  leftover : c.leftover ≤ leftoverMax

def LimitP (c : Core) : Prop := FromRuntime c.marks → Limits c.isV5 c.connection

theorem LimitP.recordWrite {w : World} {s : Site} {f : Bool} (h : LimitP w.core) :
    LimitP (w.recordWrite s f).core := by
  intro hm
  have hmarks : FromRuntime w.marks := by
    change FromRuntime (w.recordWrite s f).marks at hm
    dsimp only [World.recordWrite] at hm
    split at hm
    · exact hm.tail
    · exact hm
  exact h hmarks

theorem Control.frame {type : MsgType} {build : Connection → Connection} (hb : Control type build)
    (c : Connection) : (build c).bufferLength = c.bufferLength ∧ (build c).leftover = c.leftover := by
  have hfini (c : Connection) (type : MsgType) (dup qos retain : ℕ) (body : List UInt8) :
      (finiMessage c type dup qos retain body).bufferLength = c.bufferLength ∧
        (finiMessage c type dup qos retain body).leftover = c.leftover :=
    ⟨finiMessage_bufferLength c type dup qos retain body, finiMessage_leftover c type dup qos retain body⟩
  have hend (c : Connection) (type : MsgType) (qos : ℕ) (body : Option (List UInt8)) :
      (finiOrFail c type qos body).bufferLength = c.bufferLength ∧
        (finiOrFail c type qos body).leftover = c.leftover := by
    cases body with
    | none => exact ⟨rfl,rfl⟩
    | some body => exact hfini c type 0 qos 0 body
  have hack (type : MsgType) (qos id : ℕ) : (ackMessage type qos c id).bufferLength = c.bufferLength ∧
      (ackMessage type qos c id).leftover = c.leftover := by
    have hid : (appendMessageId c [] id).2.2.bufferLength = c.bufferLength := by
      unfold appendMessageId
      dsimp only
      split <;> exact (messageId_frame c id).2
    obtain ⟨h1,h2⟩ := hend (appendMessageId c [] id).2.2 type qos (appendMessageId c [] id).2.1
    exact ⟨h1.trans hid, h2.trans (appendMessageId_leftover c [] id)⟩
  cases hb with
  | connect i =>
    dsimp only
    unfold mqttMsgConnect
    split
    · exact ⟨rfl,rfl⟩
    · exact hend c .connect 0 _
  | puback id => exact hack .puback 0 id
  | pubrec id => exact hack .pubrec 0 id
  | pubrel id => exact hack .pubrel 1 id
  | pubcomp id => exact hack .pubcomp 0 id
  | pingreq => exact hfini c .pingreq 0 0 0 []
  | disconnect => exact hfini c .disconnect 0 0 0 []

theorem Request.bufferLength {a : ApiCall} {s : Site} {type : MsgType}
    {build : Connection → ℕ × Connection} (hb : Request a s type build) (c : Connection) :
    (build c).2.bufferLength = c.bufferLength := by
  have hid : (appendMessageId c [] 0).2.2.bufferLength = c.bufferLength := by
    unfold appendMessageId
    dsimp only
    split <;> exact (messageId_frame c 0).2
  cases hb with
  | subscribe topics => exact (finiOrFail_bufferLength _ .subscribe 1 _).trans hid
  | unsubscribe topic =>
    dsimp only
    unfold mqttMsgUnsubscribe
    split
    · rfl
    · rfl
    · exact (finiOrFail_bufferLength _ .unsubscribe 1 _).trans hid

/-- What a PUBLISH leaves behind: what was there, nothing, or its own total length. -/
theorem mqttMsgPublish_total (c : Connection) (topic : Option (List UInt8)) (d : CData) (len : ℤ)
    (qos retain : ℕ) :
    (mqttMsgPublish c topic d len qos retain).2.leftover ≤
      max c.leftover (5+headLength topic qos+len.toNat) := by
  obtain ⟨c1,h1,-,hcases⟩ := mqttMsgPublish_cases c topic d len qos retain
  have hleft : c1.leftover = c.leftover := congrArg OutMessage.fragmentedMsgTotalLength h1
  rcases hcases with he | ⟨head,hlen,-,he⟩
  · rw [he]
    change c1.leftover ≤ _
    omega
  · rw [he, finiMessage_leftover]
    rcases appendPayload_cases c1 d len head with ⟨-,ha⟩ | ⟨-,-,ha⟩ | ⟨-,-,ha⟩
    · rw [ha]
      change c1.leftover ≤ _
      omega
    · rw [ha]
      exact Nat.zero_le _
    · rw [ha]
      change (len+(5+head.length)).toNat ≤ _
      omega

theorem Limits.of_frame {isV5 : Bool} {c c' : Connection} (h : Limits isV5 c)
    (hbuf : c'.bufferLength = c.bufferLength) (hleft : c'.leftover ≤ leftoverMax) : Limits isV5 c' :=
  ⟨h.v311, hbuf.trans h.buffer, hleft⟩

/-- A call of `esp_mqtt_client_enqueue` that the runtime makes. -/
theorem enqueue_limits {w : World} (h : Limits w.isV5 w.connection) {topic : Option (List UInt8)} {d : CData}
    {length qos : ℕ} (ha : EnqueueAccepted topic d length qos) (d' : CData) (retain : ℕ)
    (r : Option ℕ × World)
    (hr : w.mqttClientEnqueuePublish topic d' length qos retain true = r) : Limits r.2.core.isV5 r.2.core.connection := by
  obtain ⟨t,rfl,-,htopic⟩ := ha.topic
  have hv : w.isV5 = false := h.v311
  have heq := w.makePublish_eq (some t) d' length qos retain
  rw [if_neg (by simp [hv])] at heq
  have hcases := enqueuePublish_cases w (some t) d' length qos retain true r hr _ rfl
  generalize (w.makePublish (some t) d' length qos retain).2 = v at heq hcases
  have hconn : v.connection = (mqttMsgPublish w.connection (some t) d' length qos retain).2 := by
    rw [heq]
    rfl
  have hisv : v.isV5 = w.isV5 := by rw [heq]; rfl
  have hbuf : v.connection.bufferLength = w.connection.bufferLength := by
    rw [hconn]
    exact mqttMsgPublish_bufferLength w.connection (some t) d' length qos retain
  have hleft : v.connection.leftover ≤ leftoverMax := by
    have htotal := mqttMsgPublish_total w.connection (some t) d' length qos retain
    have hold : w.connection.leftover ≤ leftoverMax := h.leftover
    have hpayload := ha.2.1
    have hhead : headLength (some t) qos ≤ 2+t.length+2 := by
      unfold headLength
      rw [Option.getD_some]
      split <;> omega
    rw [hconn]
    unfold leftoverMax at hold ⊢
    rw [Int.toNat_natCast] at htotal
    omega
  have hlimits : Limits v.core.isV5 v.core.connection := ⟨hisv.trans h.v311, hbuf.trans h.buffer, hleft⟩
  rcases hcases with ⟨-,-,he⟩ | ⟨-,-,-,-,he⟩ | ⟨-,-,-,-,he⟩ | ⟨-,-,-,-,he⟩ | ⟨-,-,-,rest,o,-,-,he⟩
  · rwa [he]
  · rwa [he]
  · rwa [he]
  · rw [he]
    exact hlimits
  · rw [he]
    exact ⟨hlimits.v311, hlimits.buffer, Nat.zero_le _⟩

theorem LimitP.begins {w : World} (h : LimitP w.core) (c : ApiCall) (seen : ℕ) :
    LimitP (w.beginCall c seen).core := fun hm => h hm.tail

/-- The call a mark notes is one of the runtime's. -/
theorem FromRuntime.call {w : World} {c : ApiCall} {seen : ℕ} {marks : List Mark}
    (h : FromRuntime marks) (hm : marks = (w.beginCall c seen).marks ∨
      marks = .fragmentNotStored :: (w.beginCall c seen).marks) : RuntimeCall c := by
  rcases hm with rfl | rfl
  · exact h _ _ _ _ _ _ _ _ _ List.mem_cons_self
  · exact h _ _ _ _ _ _ _ _ _ (List.mem_cons_of_mem _ List.mem_cons_self)

def limitRules : RunRules Unit where
  P _ := LimitP
  Q _ := LimitP
  R _ _ _ := LimitP
  M _ _ := LimitP
  L _ _ _ := LimitP
  Top _ := True
  relax h := h
  settle h := h
  sent _ h _ := h.recordWrite
  timedOut h _ := ⟨h.recordWrite, fun _ => h.recordWrite⟩
  failed h _ := ⟨(), h.recordWrite, fun _ h' => ⟨h', fun _ => h'⟩⟩
  aborted h := h
  control {_ _ _ build w} _ hb _ h _ := fun hm => by
    obtain ⟨h1,h2⟩ := hb.frame w.connection
    exact (h hm).of_frame h1 (h2.trans_le (h hm).leftover)
  controlMqtt5 {_ _ _ _ _ _ w} _ _ _ h _ hv _ := fun hm => by
    have hf : w.isV5 = false := (h hm).v311
    exact absurd (hf.symm.trans hv) (by decide)
  load _ h _ _ _ := fun hm => (h hm).of_frame rfl (h hm).leftover
  outbox h _ := h
  outboxR h _ := h
  reset h := fun hm => (h hm).of_frame rfl (Nat.zero_le _)
  connecting h _ _ := h
  connected _ h _ := h
  reinit h _ := h
  begins h := h.begins _ _
  setConfig {_ s seen w} h := fun hm => by
    have hmarks : FromRuntime (w.beginCall (.setConfig s) seen).marks := hm
    have hcall : RuntimeCall (.setConfig s) := hmarks.call (Or.inl rfl)
    cases hcall
  enqueue {_ topic d len qos retain store seen w} h := by
    intro hm
    rcases espMqttClientEnqueue_core (w.beginCall (.enqueue topic d len qos retain store) seen) topic d
      len qos retain store with he | he
    · rw [he] at hm ⊢
      exact h.begins _ _ hm
    · rw [he] at hm ⊢
      obtain ⟨c,o,ms,_,hc,hms⟩ := mqttClientEnqueuePublish_core
        (w.beginCall (.enqueue topic d len qos retain store) seen) topic d (effectiveLen d len) qos
        retain store
      rw [hc] at hm
      have hcall := FromRuntime.call (w := w) hm hms
      have hbegin : Limits w.isV5 w.connection := by
        apply h
        rcases hms with rfl | rfl
        · exact hm.tail
        · exact hm.tail.tail
      generalize hcall' : ApiCall.enqueue topic d len qos retain store = call at hcall
      cases hcall with
      | enqueue retain' ha =>
        injection hcall' with e1 e2 e3 e4 e5 e6
        subst e1 e2 e3 e4 e5 e6
        rw [effectiveLen_enqueueCall]
        exact enqueue_limits (w := w.beginCall _ seen) hbegin ha _ retain _ rfl
      | subscribe topics => cases hcall'
      | unsubscribe topic => cases hcall'
  publish {_ topic d len qos retain seen w} h r hr := by
    obtain ⟨c,o,ms,_,hc,hms⟩ := mqttClientEnqueuePublish_core
      (w.beginCall (.publish topic d len qos retain) seen) topic d (effectiveLen d len) qos retain false
    rw [hr] at hc
    have hno : LimitP r.2.core := by
      intro hm
      rw [hc] at hm
      have hcall : RuntimeCall (.publish topic d len qos retain) := FromRuntime.call (w := w) hm hms
      cases hcall
    exact ⟨fun _ => hno, fun _ => hno⟩
  unsent h := fun hm => (h hm).of_frame rfl (Nat.zero_le _)
  cleared h := fun hm => (h hm).of_frame rfl (Nat.zero_le _)
  overQuota h _ := h
  firstChunk {_ b _ w} h _ _ := by
    refine ⟨(), h, fun v hv _ hm => ?_, fun _ h' hm => (h' hm).of_frame rfl (Nat.zero_le _)⟩
    subst hv
    have hwritten : LimitP ((w.inChunk b).recordWrite .publish true).core := LimitP.recordWrite h
    exact (hwritten hm).of_frame rfl (Nat.zero_le _)
  nextChunk {_ _ _ piece w} h _ _ _ := by
    have hfilled : LimitP (w.refill piece).core := fun hm => (h hm).of_frame rfl (h hm).leftover
    refine ⟨hfilled, fun v hv _ hm => ?_⟩
    subst hv
    have hwritten : LimitP ((w.refill piece).recordWrite .publish false).core := hfilled.recordWrite
    exact (hwritten hm).of_frame rfl (Nat.zero_le _)
  lastChunk h _ := h
  request {_ c s type build seen w} hreq h w1 hw1 := by
    obtain ⟨e,he,hold,-⟩ := composeRequest_core (w.beginCall c seen).resetPendingMessage type seen build
    rw [← hw1] at he
    have hp : LimitP w1.core := by
      intro hm
      rw [he] at hm ⊢
      have hl := h.begins c seen hm
      have hbuild := hold hl.v311
      refine hl.of_frame ?_ ?_
      · change e.bufferLength = w.connection.bufferLength
        rw [hbuild]
        exact hreq.bufferLength _
      · change e.leftover ≤ _
        rw [hbuild]
        exact ((hreq.sound rfl).2).trans_le (Nat.zero_le _)
    exact ⟨hp, fun o _ => hp⟩
  moves h _ _ := h
  exits h := h
  starts h _ _ := h
  refuses h _ := h
  stops h _ := h
  idles h _ := h
  joins h := h

/-! CONNECT. -/

/-- What `emqtt_config_valid` promises about the fields of a CONNECT. -/
structure ConnectLimits (c : EmqttConfig) : Prop where
  clientId_ne : c.clientId.text ≠ []
  clientId : c.clientId.text.length ≤ 128
  username : c.username.text.length ≤ 128
  password : c.password.text.length ≤ 256
  alone : c.username.text = [] → c.password.text = []
  willTopic_ne : c.willTopic.text ≠ []
  willTopic : c.willTopic.text.length ≤ emqttTopicMax
  willLength : c.willLength ≤ 512
  willQos : c.willQos ≤ 1

theorem emqttConfigValid_limits {c : EmqttConfig} {lab : Bool} (h : emqttConfigValid c lab = true) :
    ConnectLimits c := by
  unfold emqttConfigValid at h
  simp only [Bool.and_eq_true, Bool.not_eq_true', Bool.or_eq_false_iff, decide_eq_false_iff_not,
    beq_eq_false_iff_ne, Bool.and_eq_false_iff, bne_eq_false_iff_eq] at h
  obtain ⟨⟨⟨⟨⟨⟨⟨⟨-,hwqos⟩,hwlen⟩,-⟩,-⟩,⟨⟨hcid,hcidu⟩,-⟩⟩,⟨⟨⟨⟨hu,hp⟩,-⟩,-⟩,halone⟩⟩,-⟩,htopic⟩ := h.1
  have hcl := CharArray.text_length_lt hcidu
  have hul := CharArray.text_length_lt hu
  have hpl := CharArray.text_length_lt hp
  have htl := emqttTopicValid_length htopic
  refine ⟨?_, by omega, by omega, by omega, ?_, ?_, htl.2, by omega, by omega⟩
  · intro he
    rw [he] at hcid
    exact hcid rfl
  · intro he
    rw [he] at halone
    rcases halone with ha | ha
    · exact absurd rfl ha
    · exact List.length_eq_zero_iff.mp ha
  · intro he
    rw [he] at htl
    exact absurd htl.1 (by decide)

theorem given_some {t : List UInt8} (h : t ≠ []) : given (some t) = some t := by
  unfold given
  rw [Option.filter_some, if_pos (by simpa using h)]

theorem given_if (p : Prop) [Decidable p] (t : List UInt8) (h : ¬ p → t = []) :
    given (if p then some t else none) = if t ≠ [] then some t else none := by
  unfold given
  by_cases hp : p
  · rw [if_pos hp, Option.filter_some]
    simp only [decide_eq_true_eq]
  · rw [if_neg hp, if_neg (not_not.mpr (h hp))]
    rfl

theorem connectInfo_inRange {c : EmqttConfig} (h : ConnectLimits c) :
    (Outgoing.connect c.connectInfo).InRange := by
  have hcarried (p : Prop) [Decidable p] (t : List UInt8) (ht : t.length ≤ 256) :
      Carried (if p then some t else none) := by
    unfold Carried
    split
    · rw [Option.getD_some]
      omega
    · exact (by decide : 0 < 65536)
  have h1 := h.clientId
  have h2 := h.username
  have h3 := h.willTopic
  have h4 := h.willQos
  have h5 := h.willLength
  have hmsg : c.connectInfo.willMessage.length ≤ 512 := by
    change (if c.willLength ≠ 0 then c.willPayload.bytes.take c.willLength else []).length ≤ 512
    split
    · rw [List.length_take]
      omega
    · exact Nat.zero_le _
  unfold emqttTopicMax at h3
  refine ⟨rfl, ?_, hcarried _ _ (by omega), hcarried _ _ h.password, ?_, by omega, ?_,
    (by decide : 30 < 65536)⟩
  · change c.clientId.text.length < 65536
    omega
  · change c.willTopic.text.length < 65536
    omega
  · change c.willQos ≤ 2
    omega

/-- The packet is the one that says what is configured. -/
theorem connectInfo_packet {c : EmqttConfig} (h : ConnectLimits c) (id : ℕ) :
    (Outgoing.connect c.connectInfo).packet id = .connect c.connectPacket := by
  have hcid : given c.connectInfo.clientId = some c.clientId.text := given_some h.clientId_ne
  have hwill : given c.connectInfo.willTopic = some c.willTopic.text := given_some h.willTopic_ne
  have huser : given c.connectInfo.username =
      if c.username.text ≠ [] then some c.username.text else none :=
    given_if _ _ fun hn => not_not.mp hn
  have hpass : given c.connectInfo.password =
      if c.password.text ≠ [] then some c.password.text else none :=
    given_if _ _ fun hn => h.alone (not_not.mp hn)
  have hmsg : c.connectInfo.willMessage = c.willPayload.bytes.take c.willLength := by
    change (if c.willLength ≠ 0 then _ else _) = _
    split
    · rfl
    · rename_i hz
      rw [not_not.mp hz, List.take_zero]
  have hsent : c.connectInfo.sentUsername =
      if c.username.text ≠ [] then some c.username.text else none := by
    unfold ConnectInfo.sentUsername
    rw [huser]
    by_cases hu : c.username.text ≠ []
    · rw [if_pos hu]
    · rw [if_neg hu, hpass, if_neg (not_not.mpr (h.alone (not_not.mp hu)))]
      rfl
  have hsentWill : c.connectInfo.sentWill = some ⟨c.willTopic.text,
      c.willPayload.bytes.take c.willLength, c.willQos, c.willRetain⟩ := by
    unfold ConnectInfo.sentWill
    rw [hwill, hmsg]
    rfl
  simp only [Outgoing.packet, hcid, Option.getD_some, hsentWill, hsent, hpass]
  rfl

theorem optionalBytes_length {s : Option (List UInt8)} {n : ℕ} (h : ∀ t, s = some t → t.length ≤ n) :
    (optionalBytes s).length ≤ 2+n := by
  cases s with
  | none => exact Nat.zero_le _
  | some t =>
    have ht := h t rfl
    simp only [optionalBytes, Option.map_some, Option.getD_some, countedString, List.length_append,
      u16_length]
    omega

/-- 1305 bytes at most, with the five kept for the header. -/
theorem connectInfo_fits {c : EmqttConfig} (h : ConnectLimits c) (id : ℕ) :
    (Outgoing.connect c.connectInfo).Fits emqttOutSize id := by
  have hpacket := Packet.connect.inj (connectInfo_packet h id)
  rw [EmqttConfig.connectPacket, Connect.mk.injEq] at hpacket
  obtain ⟨hcid,-,-,hwill,huser,hpass⟩ := hpacket
  have hbody : ((Outgoing.connect c.connectInfo).body id).length =
      10+(c.connectInfo.fields.flatMap countedString).length := by
    change (c.connectInfo.header ++ _).length = _
    rw [List.length_append]
    rfl
  have hif (t : List UInt8) (n : ℕ) (ht : t.length ≤ n) :
      (optionalBytes (if t ≠ [] then some t else none)).length ≤ 2+n := by
    apply optionalBytes_length
    intro t' he
    split at he
    · rw [← Option.some.inj he]
      exact ht
    · exact absurd he (by simp)
  have hwb : c.connectInfo.willBytes.length ≤ 2+emqttTopicMax+(2+512) := by
    unfold ConnectInfo.willBytes
    rw [hwill]
    have h1 := h.willTopic
    have h2 := h.willLength
    simp only [countedString, List.length_append, u16_length, List.length_take]
    omega
  have h1 := hif c.username.text 128 h.username
  have h2 := hif c.password.text 256 h.password
  have h3 := h.clientId
  have hlen : (c.connectInfo.fields.flatMap countedString).length ≤ 1290 := by
    rw [fields_bytes, hcid, huser, hpass]
    simp only [List.length_append, countedString, u16_length]
    unfold emqttTopicMax at hwb
    omega
  refine ⟨?_, ?_⟩
  · rw [hbody]
    unfold emqttOutSize
    omega
  · rw [hbody]
    omega

/-! SUBSCRIBE. -/

/-- The filters as `submit_subscriptions` hands them over. -/
def topicList (subscriptions : List Subscription) : List (List UInt8 × ℕ) :=
  subscriptions.map fun s => (s.topic, s.qos)

/-- A list of subscriptions the runtime may submit. -/
structure Submittable (l : List Subscription) : Prop where
  count : l.length ≤ emqttSubscriptionsMax
  valid : ∀ s ∈ l, FilterValid s.topic
  qos : ∀ s ∈ l, s.qos ≤ 1

theorem topicList_inRange {l : List Subscription} (h : Submittable l) :
    (Outgoing.subscribe (topicList l)).InRange := by
  intro t ht
  obtain ⟨s,hs,rfl⟩ := List.mem_map.mp ht
  have hlen := emqttTopicValid_length (h.valid s hs)
  have hqos := h.qos s hs
  unfold emqttTopicMax at hlen
  refine ⟨fun he => ?_, by dsimp only; omega, by dsimp only; omega⟩
  dsimp only at he
  rw [he] at hlen
  exact absurd hlen.1 (by decide)

theorem subscriptions_length (l : List Subscription) (h : ∀ s ∈ l, FilterValid s.topic) :
    ((topicList l).flatMap subscription).length ≤ l.length*(3+emqttTopicMax) := by
  induction l with
  | nil => exact Nat.zero_le _
  | cons s l ih =>
    have htail := ih fun t ht => h t (List.mem_cons_of_mem s ht)
    have hlen := (emqttTopicValid_length (h s List.mem_cons_self)).2
    simp only [topicList, List.map_cons, List.flatMap_cons, List.length_append, subscription,
      countedString, u16_length, List.length_cons, List.length_nil] at htail ⊢
    rw [Nat.succ_mul]
    omega

/-- 2079 bytes at most. -/
theorem topicList_fits {l : List Subscription} (h : Submittable l) (id : ℕ) :
    (Outgoing.subscribe (topicList l)).Fits emqttOutSize id := by
  have hlen := subscriptions_length l h.valid
  have hcount := h.count
  unfold emqttTopicMax at hlen
  unfold emqttSubscriptionsMax at hcount
  have hbody : ((Outgoing.subscribe (topicList l)).body id).length =
      2+((topicList l).flatMap subscription).length := by
    simp only [Outgoing.body, List.length_append, u16_length]
  refine ⟨?_, ?_⟩
  · rw [hbody]
    unfold emqttOutSize
    omega
  · rw [hbody]
    omega

/-- The lists a runtime submits: all it wants, or the one that is added. -/
theorem Desired.submittable {r : Runtime} (h : Desired r) : Submittable r.subscriptions ∧
    (r.pendingDynamicSubscribe = true → Submittable [r.pendingSubscription]) := by
  refine ⟨⟨h.count, h.valid, h.qos⟩, fun hd => ⟨(by decide : 1 ≤ emqttSubscriptionsMax), ?_, ?_⟩⟩
  · intro s hs
    rw [List.mem_singleton.mp hs]
    exact (h.pendingOk hd).1
  · intro s hs
    rw [List.mem_singleton.mp hs]
    exact (h.pendingOk hd).2

/-! PUBLISH. -/

/-- A length field of four bytes or fewer. -/
theorem encodedLens_four {total : ℤ} (h : total < 128^4) : (encodedLens 5 total).length ≤ 4 := by
  by_cases h0 : 0 ≤ total
  · obtain ⟨n,rfl⟩ := Int.eq_ofNat_of_zero_le h0
    have hn : n < 128^4 := by omega
    rw [encodedLens_encode 3 n 5 hn (by decide)]
    exact Base128.encode_length_le 3 n
  · unfold encodedLens
    rw [if_neg (by omega)]
    exact (by decide : 1 ≤ 4)

theorem finiMessage_ne_nil {c : Connection} {body : List UInt8}
    (h : c.outboundMessage.remainingLength body < 128^4) (type : MsgType) (dup qos retain : ℕ) :
    (finiMessage c type dup qos retain body).outboundMessage.data ≠ [] := by
  have hfour := encodedLens_four h
  unfold finiMessage
  dsimp only
  rw [if_neg (by omega)]
  exact List.cons_ne_nil _ _

theorem remainingLength_lt {m : OutMessage} {body : List UInt8}
    (h1 : m.fragmentedMsgTotalLength ≤ leftoverMax) (h2 : body.length < 128^4) :
    m.remainingLength body < 128^4 := by
  unfold OutMessage.remainingLength
  have hmax : leftoverMax = 5385 := rfl
  split
  · rw [Int.bmod_eq_of_le (by omega) (by omega)]
    omega
  · omega

/-- A message the runtime accepts can be composed. -/
theorem publish_composes {c : Connection} (hbuf : c.bufferLength = emqttOutSize)
    (hleft : c.leftover ≤ leftoverMax) {topic : Option (List UInt8)} {d : CData} {length qos : ℕ}
    (ha : EnqueueAccepted topic d length qos) (d' : CData) (hd : d'.isNull = true → length = 0)
    (retain : ℕ) : 5+headLength topic qos ≤ emqttOutSize ∧
      (mqttMsgPublish c topic d' length qos retain).2.outboundMessage.data ≠ [] := by
  obtain ⟨t,rfl,hne,htopic⟩ := ha.topic
  have hhead : headLength (some t) qos ≤ 2+emqttTopicMax+2 := by
    unfold headLength
    rw [Option.getD_some]
    split <;> omega
  have hlen := ha.2.1
  unfold emqttTopicMax at hhead
  unfold emqttPublishPayloadMaxBytes at hlen
  have hfit : 5+headLength (some t) qos ≤ emqttOutSize := by
    unfold emqttOutSize
    omega
  refine ⟨hfit, ?_⟩
  obtain ⟨hframe,hbl⟩ := publishId_frame c qos
  have hl1 : (publishHead t qos (c.publishId qos).1).length = headLength (some t) qos :=
    publishHead_length t qos _
  have hnull : ¬ (d'.isNull = true ∧ 0 < (length : ℤ)) := by
    rintro ⟨hn,hpos⟩
    have := hd hn
    omega
  rcases mqttMsgPublish_eq (c := c) hne hnull qos retain with ⟨hroom,-⟩ | ⟨-,heq⟩
  · omega
  · rw [heq]
    dsimp only
    apply finiMessage_ne_nil
    have hold : (c.publishId qos).2.outboundMessage.fragmentedMsgTotalLength ≤ leftoverMax := by
      rw [hframe]
      exact hleft
    unfold emqttOutSize at hbuf
    rcases appendPayload_cases (c.publishId qos).2 d' length (publishHead t qos (c.publishId qos).1)
      with ⟨-,hp⟩ | ⟨-,-,hp⟩ | ⟨-,-,hp⟩
    · rw [hp]
      exact remainingLength_lt hold (by dsimp only; omega)
    · rw [hp]
      apply remainingLength_lt (Nat.zero_le _)
      dsimp only
      rw [List.length_append, CData.slice_length]
      omega
    · rw [hp]
      apply remainingLength_lt
      · unfold leftoverMax emqttTopicMax emqttPublishPayloadMaxBytes
        dsimp only
        omega
      · dsimp only
        rw [List.length_append, CData.slice_length]
        omega

/-- Storing fails only for want of memory. -/
theorem mqttEnqueue_allocated {w : World} (h : ∀ a ∈ w.allocs, a = true) (rest : List UInt8) :
    (w.mqttEnqueue rest).1 = true := by
  have halloc (v : World) (hv : ∀ a ∈ v.allocs, a = true) :
      v.alloc.1 = true ∧ ∀ a ∈ v.alloc.2.allocs, a = true := by
    unfold World.alloc
    cases he : v.allocs with
    | nil => exact ⟨rfl, hv⟩
    | cons a as =>
      rw [he] at hv
      exact ⟨hv a List.mem_cons_self, fun b hb => hv b (List.mem_cons_of_mem a hb)⟩
  obtain ⟨n,l,ht⟩ := w.tick_eq
  have htick : ∀ a ∈ w.tick.2.allocs, a = true := by
    rw [ht]
    exact h
  obtain ⟨h1,h1'⟩ := halloc w.tick.2 htick
  obtain ⟨h2,-⟩ := halloc w.tick.2.alloc.2 h1'
  unfold World.mqttEnqueue
  simp only [h1, if_true, h2]
  rfl

/-- A PUBLISH that could be composed is stored if there is memory. -/
theorem enqueuePublish_allocated {w v : World} {topic : Option (List UInt8)} {d : CData} {len : ℤ}
    {qos retain id : ℕ} {store : Bool} (h : w.makePublish topic d len qos retain = (some id, v))
    (halloc : ∀ a ∈ v.allocs, a = true) :
    (w.mqttClientEnqueuePublish topic d len qos retain store).1 = some id := by
  have hstore := mqttEnqueue_allocated (w := {v with
    pendingMsgType := v.outboundType, pendingMsgId := id, pendingPublishQos := qos}) halloc
  unfold mqttClientEnqueuePublish
  rw [h]
  dsimp only
  split
  · split
    · rw [hstore, if_pos rfl]
    · rw [hstore, if_pos rfl]
  · rfl

/-- With memory to store it, a message the runtime accepts is enqueued. -/
theorem enqueue_succeeds {w : World} (hl : Limits w.isV5 w.connection)
    (halloc : ∀ a ∈ w.allocs, a = true) {topic : Option (List UInt8)} {d : CData} {length qos : ℕ}
    (ha : EnqueueAccepted topic d length qos) (d' : CData) (hd : d'.isNull = true → length = 0)
    (heff : effectiveLen d' length = length) (retain : ℕ) :
    0 ≤ (espMqttClientEnqueue topic d' length qos retain true w).1 := by
  have hv : w.isV5 = false := hl.v311
  obtain ⟨-,hne⟩ := publish_composes hl.buffer hl.leftover ha d' hd retain
  obtain ⟨id,v,hmake,hallocs⟩ : ∃ id v, w.makePublish topic d' length qos retain = (some id, v) ∧
      v.allocs = w.allocs := by
    unfold makePublish
    simp only [hv, Bool.false_eq_true, if_false]
    generalize mqttMsgPublish w.connection topic d' length qos retain = e at hne
    have hsome : World.nothingComposed (({w with connection := e.2} : World).publishing d'.isNull
        length) = false := by
      simpa [World.nothingComposed, World.publishing, World.arising] using hne
    exact ⟨e.1, _, if_neg (by simp [hsome]), rfl⟩
  have hstored : (World.mqttClientEnqueuePublish _ _ _ _ _ _ true).1 = _ :=
    enqueuePublish_allocated hmake fun a ha' => halloc a (hallocs ▸ ha')
  unfold espMqttClientEnqueue
  rw [if_neg (by simp [hv]), heff]
  generalize w.mqttClientEnqueuePublish topic d' length qos retain true = r at hstored
  obtain ⟨o,u⟩ := r
  dsimp only at hstored
  subst hstored
  dsimp only
  rw [if_neg (by simp)]
  exact Int.natCast_nonneg id

/-- Whatever the runtime has been configured with and has been asked for, the client can encode:
its CONNECT says what is configured, its SUBSCRIBE the filters that are wanted, and a message
that `emqtt_enqueue` accepts is enqueued if there is memory for it. -/
theorem runtime_encodes (c : EmqttConfig) (lab countersValid : Bool) (r : Runtime)
    (hcreate : emqttCreate c lab countersValid = some r) (ss : List (MachineStep × Answers))
    (config : Config) (inBuffer : List UInt8) (incremental : Bool) (e : Environment) (n : ℕ)
    (cs : List ClientStep)
    (hcalls : FromRuntime (clientRun (c.settings config inBuffer) incremental e n cs).marks) :
    let rt := (Machine.run ⟨r, none⟩ ss).rt
    let w := clientRun (c.settings config inBuffer) incremental e n cs
    let k := w.resetPendingMessage.connection
    k.bufferLength = emqttOutSize ∧
    decode (mqttMsgConnect k c.connectInfo).outboundMessage.data = some (.connect c.connectPacket) ∧
    (∀ l, l = rt.subscriptions ∨ (rt.pendingDynamicSubscribe = true ∧ l = [rt.pendingSubscription]) →
      let q := mqttMsgSubscribe k (topicList l)
      decode q.2.outboundMessage.data = some (.subscribe q.1 (topicList l))) ∧
    (∀ topic d length qos a, rt.started = true → rt.state ≠ .failed →
      ((emqttEnqueue rt topic (!d.isNull) length qos a).1 ≠ .invalidArg ↔
        EnqueueAccepted topic d length qos)) ∧
    ∀ topic d length qos retain, EnqueueAccepted topic d length qos →
      5+headLength topic qos ≤ emqttOutSize ∧
      (mqttMsgPublish w.connection topic (if length ≠ 0 then d else {d with isNull := true}) length qos
        retain).2.outboundMessage.data ≠ [] ∧
      ((∀ a ∈ w.allocs, a = true) → 0 ≤ (espMqttClientEnqueue topic
        (if length ≠ 0 then d else {d with isNull := true}) length qos retain true w).1) := by
  intro rt w k
  have hvalid : emqttConfigValid c lab = true := by
    unfold emqttCreate at hcreate
    split at hcreate
    · assumption
    · exact absurd hcreate (by simp)
  have hconn := emqttConfigValid_limits hvalid
  have hinit : LimitP (clientInit (c.settings config inBuffer) incremental e).core :=
    fun _ => ⟨rfl, rfl, Nat.zero_le _⟩
  have hl : Limits w.isV5 w.connection :=
    limitRules.run_rule (i := ()) (c.settings config inBuffer) incremental e n cs trivial hinit hcalls
  have hk : k.bufferLength = emqttOutSize := hl.buffer
  have hzero : k.outboundMessage.fragmentedMsgTotalLength = 0 := rfl
  have h5 : 5 ≤ k.bufferLength := by
    rw [hk]
    decide
  have hdesired : Desired rt :=
    Machine.run_induction (fun m => Desired m.rt) (fun m s hm => (Machine.step_desired hm s).1) ss
      ⟨r, none⟩ (emqttCreate_desired hcreate)
  -- a packet that fits every identifier is decoded as it was meant
  have hdecode (q : Outgoing) (hrange : q.InRange) (hfits : ∀ id, q.Fits k.bufferLength id) :
      decode (q.compose k).2.outboundMessage.data = some (q.packet (q.compose k).1) := by
    obtain ⟨hspec,-,-⟩ := compose_spec hzero h5 hrange
    obtain ⟨hid,hdata⟩ := hspec (hfits _)
    rw [hdata, decode_framed _ _ (hfits _).2]
    exact decodeBody_outgoing hrange hid
  refine ⟨hk, ?_, ?_, fun topic d length qos a hstart hstate =>
    emqttEnqueue_accepted hstart hstate topic d length qos a, ?_⟩
  · have hone := hdecode (.connect c.connectInfo) (connectInfo_inRange hconn)
      (fun id => hk ▸ connectInfo_fits hconn id)
    rwa [connectInfo_packet hconn] at hone
  · intro l hlist
    -- the filters wanted, or the one that waits for its SUBACK
    have hsub : Submittable l := by
      rcases hlist with rfl | ⟨hd,rfl⟩
      · exact hdesired.submittable.1
      · exact hdesired.submittable.2 hd
    exact hdecode (.subscribe (topicList l)) (topicList_inRange hsub)
      (fun id => hk ▸ topicList_fits hsub id)
  · intro topic d length qos retain ha
    have hd : (if length ≠ 0 then d else {d with isNull := true}).isNull = true → length = 0 := by
      intro hn
      by_contra hne
      rw [if_pos hne] at hn
      exact hne (ha.2.2.1 hn)
    obtain ⟨h1,h2⟩ := publish_composes hl.buffer hl.leftover ha _ hd retain
    exact ⟨h1, h2, fun halloc => enqueue_succeeds hl halloc ha _ hd (effectiveLen_enqueueCall d length)
      retain⟩

/-- A client of `labConfig` that has enqueued one message. -/
def labClient : World :=
  clientRun (labConfig.settings smallSettings.config (List.replicate 64 0)) false
    (plainEnvironment [] [] []) 0 [.check (enqueueCall (some [0x74]) (cBytes [5]) 1 1 0), .body 0]

/-- Behind the SUBACK of a second filter, while that filter is on its way: CONNECT, both kinds of
SUBSCRIBE, and a message that `emqtt_enqueue` takes. -/
theorem runtime_encodes_labConfig :
    let rt := (labMachine subscribeSteps).rt
    let k := labClient.resetPendingMessage.connection
    decode (mqttMsgConnect k labConfig.connectInfo).outboundMessage.data =
      some (.connect labConfig.connectPacket) ∧
    decode (mqttMsgSubscribe k (topicList rt.subscriptions)).2.outboundMessage.data =
      some (.subscribe 8 [([0x74, 0x2f, 0x23], 1)]) ∧
    decode (mqttMsgSubscribe k (topicList [rt.pendingSubscription])).2.outboundMessage.data =
      some (.subscribe 8 [([0x75], 1)]) ∧
    0 ≤ (espMqttClientEnqueue (some [0x74]) (cBytes [5]) 1 1 0 true labClient).1 := by
  have haccepted : EnqueueAccepted (some [0x74]) (cBytes [5]) 1 1 :=
    ⟨by decide, by decide, by decide, by decide⟩
  have hcalls : FromRuntime labClient.marks := by
    have hmarks : labClient.marks =
        [.body (enqueueCall (some [0x74]) (cBytes [5]) 1 1 0) 2304 0 0 0 .init .none false false] := rfl
    rw [hmarks]
    intro c bufferLength offset seen connection state pc a b hm
    injection List.mem_singleton.mp hm with hc
    rw [hc]
    exact .enqueue 0 haccepted
  have h := runtime_encodes labConfig true true _ labConfig_created subscribeSteps smallSettings.config
    (List.replicate 64 0) false (plainEnvironment [] [] []) 0 _ hcalls
  obtain ⟨-,hconnect,hsubscribe,htakes,hpublish⟩ := h
  have htaken : EnqueueAccepted (some [0x74]) (cBytes [5]) 1 1 :=
    (htakes (some [0x74]) (cBytes [5]) 1 1 listAnswers (by decide +kernel) (by decide +kernel)).mp
      (by decide +kernel)
  refine ⟨hconnect, ?_, ?_, ?_⟩
  · exact (hsubscribe _ (Or.inl rfl)).trans (by decide +kernel)
  · exact (hsubscribe _ (Or.inr ⟨by decide +kernel, rfl⟩)).trans (by decide +kernel)
  · exact (hpublish (some [0x74]) (cBytes [5]) 1 1 0 htaken).2.2 (by decide +kernel)

end EspMqtt
