import EspMqtt.Client

/-! The calls of the public API, from the point where they hold the API lock. -/
namespace EspMqtt

/-- How much of the payload the message covers, as an `int`. -/
def OutMessage.dataSent (m : OutMessage) : ℤ :=
  Int.bmod ((m.data.length : ℤ)-m.fragmentedMsgDataOffset) (2^32)

namespace World

/-- A packet type byte at the front of the outbound message. -/
def outboundType (w : World) : Option MsgType :=
  w.connection.outboundMessage.data.head?.bind mqttGetType

def dataSent (w : World) : ℤ := w.connection.outboundMessage.dataSent

/-- Where a PUBLISH in the outbound message comes from, and how much of its payload is not in it. -/
def publishing (w : World) (control : Bool) (len : ℤ) : World :=
  {w.arising w.connections control with behind := len-w.dataSent}

/-- `make_publish`; `none` is -1. -/
def makePublish (w : World) (topic : Option (List UInt8)) (d : CData) (len : ℤ) (qos retain : ℕ) :
    Option ℕ × World :=
  let r :=
    if w.isV5 then w.composeNumbered .publish qos retain
    else
      let e := mqttMsgPublish w.connection topic d len qos retain
      (e.1, {w with connection := e.2})
  let w := r.2.publishing d.isNull len
  if w.nothingComposed then (none, w) else (some r.1, w)

def setTotalLength (w : World) (n : ℕ) : World :=
  {w with connection := {w.connection with outboundMessage :=
    {w.connection.outboundMessage with fragmentedMsgTotalLength := n}}}

/-- `mqtt_client_enqueue_publish`; `none` is -1. -/
def mqttClientEnqueuePublish (w : World) (topic : Option (List UInt8)) (d : CData) (len : ℤ)
    (qos retain : ℕ) (store : Bool) : Option ℕ × World :=
  match w.makePublish topic d len qos retain with
  | (none, w) => (none, w)
  | (some id, w) =>
    if 0 < qos ∨ store then
      let w := {w with
        pendingMsgType := w.outboundType, pendingMsgId := id, pendingPublishQos := qos}
      if w.connection.outboundMessage.fragmentedMsgTotalLength = 0 then
        let e := w.mqttEnqueue []
        (if e.1 then some id else none, e.2)
      else
        -- the buffer holds the head of the message, the caller's memory the rest
        let firstFragment := w.dataSent
        let e := w.mqttEnqueue (d.slice firstFragment (len-firstFragment).toNat)
        if e.1 then (some id, e.2.setTotalLength 0)
        else (none, {e.2 with marks := .fragmentNotStored :: e.2.marks})
    else (some id, w)

/-- The two assignments behind every chunk of a PUBLISH. -/
def clearFragments (w : World) : World :=
  {w with connection := {w.connection with outboundMessage :=
    {w.connection.outboundMessage with fragmentedMsgTotalLength := 0, fragmentedMsgDataOffset := 0}}}

/-- The buffer refilled with the next piece of the payload. -/
def refill (w : World) (piece : List UInt8) : World :=
  {w with connection := {w.connection with outboundMessage :=
    {w.connection.outboundMessage with data := piece}}}

/-- The send loop of `esp_mqtt_client_publish` behind its first round. Each
round takes at least one byte off `remaining`, so it is enough fuel. -/
def restLoop (H : Handler) (d : CData) : ℕ → ℤ → ℤ → World → Bool × World
  | 0, _, _, w => (true, w)
  | k+1, remaining, current, w =>
    if 0 < remaining then
      let piece := d.slice current (min w.connection.bufferLength remaining.toNat)
      match espMqttWrite H .publish false (w.refill piece) with
      | (true, w) => restLoop H d k (remaining-w.dataSent) (current+w.dataSent) w.clearFragments
      | (false, w) => (false, espMqttAbortConnection H w)
    else (true, w)

/-- The send loop of `esp_mqtt_client_publish`. -/
def sendPublish (H : Handler) (d : CData) (len : ℤ) (w : World) : Bool × World :=
  let outer := w.inFirstChunk
  let fragmented := decide (w.connection.outboundMessage.fragmentedMsgTotalLength ≠ 0)
  match espMqttWrite H .publish true (w.inChunk fragmented) with
  | (true, w) =>
    restLoop H d (len-w.dataSent).toNat (len-w.dataSent) w.dataSent (w.clearFragments.inChunk outer)
  | (false, w) => (false, (espMqttAbortConnection H w).inChunk outer)

/-- `esp_mqtt5_client_publish_check`; true is `ESP_OK`. -/
def publishCheck (w : World) (qos retain : ℕ) : Bool :=
  !(decide (w.maxQos < qos) || (!w.retainAvailable && decide (retain ≠ 0)))

/-- The payload length a call works with. -/
def effectiveLen (d : CData) (len : ℤ) : ℤ := if len ≤ 0 ∧ d.isNull = false then d.strlen else len

/-- `len + outbox_get_size(..) > outbox_limit`, in 64 unsigned bits. -/
def overLimit (w : World) (len : ℤ) : Bool :=
  decide (0 < w.config.outboxLimit) &&
    decide ((w.config.outboxLimit : ℤ) < (len+w.outbox.size) % 2^64)

/-- The exit `cannot_publish`. -/
def cannotPublish (ret : ℤ) (w : World) : ℤ × World := (ret, w.setTotalLength 0)

/-- What follows once every byte of a publish is out. -/
def published (w : World) (id qos : ℕ) : World :=
  if 0 < qos then
    let w := if w.isV5 then {w with sendPublishPacketCount := w.sendPublishPacketCount+1} else w
    let t := (w.noteTraffic (.sent w.origin.call id)).tick
    {t.2 with outbox := (t.2.outbox.setTick id t.1).setPending id .transmitted}
  else w

/-- `esp_mqtt_client_publish` inside the lock. -/
def espMqttClientPublish (H : Handler) (topic : Option (List UInt8)) (d : CData) (len : ℤ)
    (qos retain : ℕ) (w : World) : ℤ × World :=
  if w.isV5 ∧ w.publishCheck qos retain = false then (-1, w)
  else
    let len := effectiveLen d len
    if 0 < qos ∧ w.overLimit len then (-2, w)
    else
      match w.mqttClientEnqueuePublish topic d len qos retain false with
      | (none, w) => (-1, w)
      | (some id, w) =>
        if w.state ≠ .connected then cannotPublish (if 0 < qos then id else -1) w
        else if w.isV5 ∧ 0 < qos ∧ w.receiveMaximum ≤ w.sendPublishPacketCount then (id, w)
        else
          match sendPublish H d len w with
          | (true, w) => (id, w.published id qos)
          | (false, w) => cannotPublish (-1) w

/-- `esp_mqtt_client_enqueue` inside the lock. A QoS 0 message that is not to be
stored counts as an error. -/
def espMqttClientEnqueue (topic : Option (List UInt8)) (d : CData) (len : ℤ) (qos retain : ℕ)
    (store : Bool) (w : World) : ℤ × World :=
  if w.isV5 ∧ w.publishCheck qos retain = false then (-1, w)
  else
    match w.mqttClientEnqueuePublish topic d (effectiveLen d len) qos retain store with
    | (none, w) => (-1, w)
    | (some id, w) => (if id = 0 ∧ store = false then -1 else id, w)

/-- What `esp_mqtt_client_subscribe_multiple` and `esp_mqtt_client_unsubscribe`
do with the packet they composed. -/
def storeAndSend (H : Handler) (site : Site) (w : World) : ℤ × World :=
  if w.nothingComposed then (-1, w)
  else
    match {w with pendingMsgType := w.outboundType}.mqttEnqueue [] with
    | (false, w) => (-1, w)
    | (true, w) =>
      match espMqttWrite H site true
        {w with outbox := w.outbox.setPending w.pendingMsgId .transmitted} with
      | (false, w) => (-1, w)
      | (true, w) => (w.pendingMsgId, w)

/-- A request composed: `build` reports the identifier it put into the packet. -/
def composeRequest (w : World) (type : MsgType) (seen : ℕ) (build : Connection → ℕ × Connection) :
    World :=
  let r :=
    if w.isV5 then w.composeNumbered type 1 0
    else
      let e := build w.connection
      (e.1, {w with connection := e.2})
  {r.2 with pendingMsgId := r.1}.arising seen true

/-- `esp_mqtt_client_subscribe_multiple` inside the lock; `seen` is the
connection that was up when it made its tests. -/
def espMqttClientSubscribe (H : Handler) (topics : List (List UInt8 × ℕ)) (seen : ℕ) (w : World) :
    ℤ × World :=
  let w := w.resetPendingMessage
  if w.isV5 ∧ w.maxQos < (topics.map Prod.snd).foldl max 0 then (-1, w)
  else storeAndSend H .subscribe (w.composeRequest .subscribe seen (mqttMsgSubscribe · topics))

/-- `esp_mqtt_client_unsubscribe` inside the lock. -/
def espMqttClientUnsubscribe (H : Handler) (topic : Option (List UInt8)) (seen : ℕ) (w : World) :
    ℤ × World :=
  storeAndSend H .unsubscribe
    (w.resetPendingMessage.composeRequest .unsubscribe seen (mqttMsgUnsubscribe · topic))

/-- `esp_mqtt_client_disconnect`. -/
def espMqttClientDisconnect (w : World) : ℤ × World := (0, {w with disconnectBit := true})

/-- `esp_mqtt_client_reconnect`. -/
def espMqttClientReconnect (w : World) : ℤ × World :=
  if w.state ≠ .waitReconnect then (-1, w)
  else (0, {w with waitTimeoutMs := 0, reconnectBit := true})

/-- `esp_mqtt_set_config`: new buffers, and with them a cleared outbound message. -/
def espMqttSetConfig (s : Settings) (w : World) : ℤ × World :=
  (0, {w with
    config := s.config
    information := s.information
    connection := {w.connection with outboundMessage := ⟨[], 0, 0⟩, bufferLength := s.bufferLength}
    rx := {w.rx with inBuffer := s.inBuffer, inBufferLength := s.inBuffer.length}})

/-- The tests a call makes before it takes the lock; `some r` ends it. -/
def apiCheck (w : World) : ApiCall → Option ℤ
  | .publish .. =>
    if w.config.skipPublishIfDisconnected ∧ w.state ≠ .connected then some (-1) else none
  | .enqueue _ d len _ _ _ => if w.overLimit (effectiveLen d len) then some (-2) else none
  | .subscribe _ =>
    if 0 < w.config.outboxLimit ∧ w.config.outboxLimit < w.outbox.size then some (-2)
    else if w.state ≠ .connected then some (-1) else none
  | .unsubscribe _ => if w.state ≠ .connected then some (-1) else none
  | .disconnect | .reconnect | .setConfig _ => none

/-- The beginning of a call's locked part, for the history. -/
def beginCall (w : World) (c : ApiCall) (seen : ℕ) : World :=
  {w with
    calls := w.calls+1
    marks := .body c w.connection.bufferLength w.connection.outboundMessage.fragmentedMsgDataOffset
      seen w.connections w.state w.pc w.inCutError w.inFirstChunk :: w.marks}

/-- The locked part of a call. -/
def apiBody (H : Handler) (c : ApiCall) (seen : ℕ) (w : World) : ℤ × World :=
  let w := w.beginCall c seen
  match c with
  | .publish topic d len qos retain => espMqttClientPublish H topic d len qos retain w
  | .enqueue topic d len qos retain store => espMqttClientEnqueue topic d len qos retain store w
  | .subscribe topics => espMqttClientSubscribe H topics seen w
  | .unsubscribe topic => espMqttClientUnsubscribe H topic seen w
  | .disconnect => espMqttClientDisconnect w
  | .reconnect => espMqttClientReconnect w
  | .setConfig s => espMqttSetConfig s w

/-- A whole call with no other task in between, as an event handler makes it. -/
def apiCall (H : Handler) (c : ApiCall) (w : World) : ℤ × World :=
  match w.apiCheck c with
  | some r => (r, w)
  | none => apiBody H c w.connections w

end World

/-- What the handlers do: each event makes the next list of calls, and the
events those calls dispatch are handled one level further down. -/
def handlerAt : ℕ → Handler
  | 0 => id
  | n+1 => fun w =>
    match w.scripts with
    | [] => w
    | calls :: rest =>
      calls.foldl (fun w c => (World.apiCall (handlerAt n) c w).2) {w with scripts := rest}

end EspMqtt
