import EspMqtt.ClientApi

/-! The worker task of `mqtt_client.c`: what one pass of its loop does while it
holds the API lock. -/
namespace EspMqtt
namespace World

/-- `has_timed_out`. -/
def hasTimedOut (w : World) (lastTick timeout : ℕ) : Bool × World :=
  let t := w.tick
  (decide (lastTick+timeout ≤ t.1), t.2)

/-- The pieces of a PUBLISH that are still on the wire. The handler runs between
two reads and may close the transport under them. -/
def deliverRest (H : Handler) (totalLen : ℕ) : ℕ → ℕ → ℕ → World → Bool × World
  | 0, _, _, w => (true, w)
  | k+1, readLen, offset, w =>
    if readLen < totalLen then
      match espTransportRead w.transport (min w.rx.inBufferLength (totalLen-readLen)) with
      | (.bytes bs, t) =>
        let w := {w with
          transport := t
          rx := {w.rx with inBuffer := ByteBuffer.splice w.rx.inBuffer 0 bs}
          event := {w.event with
            id := .data, data := some bs, dataLen := bs.length, currentDataOffset := offset
            topic := none, topicLen := 0}}
        deliverRest H totalLen k (readLen+bs.length) (offset+bs.length) (dispatchEvent H w)
      | (.timeout, t) => (true, {w with transport := t})
      | (_, t) => (false, dispatchTransportError H {w with transport := t})
    else (true, w)

/-- The topic of a received PUBLISH, and offset and length of its data. -/
def publishParts (w : World) : Option (List UInt8 × ℕ × ℕ) × World :=
  if w.isV5 then
    let a := w.askMqtt5
    (a.1.publishData, a.2)
  else
    match mqttGetPublishTopic w.rx.inBuffer w.rx.inBufferReadLen with
    | none => (none, w)
    | some (offset, len) =>
      let d := mqttGetPublishData w.rx.inBuffer w.rx.inBufferReadLen
      if 0 < d.2 ∧ d.1 = none then (none, w)
      else (some ((w.rx.inBuffer.drop offset).take len, d.1.getD 0, d.2), w)

/-- `deliver_publish`; true is `ESP_OK`. -/
def deliverPublish (H : Handler) (w : World) : Bool × World :=
  let p := w.publishParts
  match p.1 with
  | none => (false, p.2)
  | some (topic, offset, len) =>
    let w := p.2
    let b := w.rx.inBuffer.getD 0 0
    let w := {w with event := {w.event with
      id := .data, msgId := w.receivedId w.rx.inBufferReadLen, qos := mqttGetQos b, retain := mqttGetRetain b != 0
      dup := mqttGetDup b != 0, topic := some topic, topicLen := topic.length
      data := if 0 < len then some ((w.rx.inBuffer.drop offset).take len) else none, dataLen := len
      totalDataLen := len+w.rx.messageLength-w.rx.inBufferReadLen, currentDataOffset := 0}}
    deliverRest H w.rx.messageLength (w.rx.messageLength-w.rx.inBufferReadLen) w.rx.inBufferReadLen
      len (dispatchEvent H w)

/-- `deliver_suback`; true is `ESP_OK`. -/
def deliverSuback (H : Handler) (w : World) : Bool × World :=
  let r :=
    if w.isV5 then
      let a := w.askMqtt5
      (a.1.subackData, a.2)
    else (mqttGetSubackData w.rx.inBuffer w.rx.inBufferReadLen, w)
  if r.1 = [] then (false, {r.2 with emptySubacks := r.2.emptySubacks+1})
  else
    let w := r.2
    let failed := r.1.any fun c => decide (0x80 ≤ c.toNat)
    (true, dispatchEventWithMsgid H {w with event := {w.event with
      id := .subscribed, data := some r.1, dataLen := r.1.length, totalDataLen := r.1.length
      currentDataOffset := 0
      errorHandle := some ⟨if failed then .subscribeFailed else .none, 0, 0, 0⟩}})

/-- An event that only carries an identifier. -/
def dispatchPlain (H : Handler) (id : EventId) (w : World) : World :=
  dispatchEventWithMsgid H {w with event := {w.event with id := id}}

/-- The event that follows when a packet of this type is acknowledged. -/
def ackEvent : MsgType → EventId
  | .subscribe => .subscribed
  | .unsubscribe => .unsubscribed
  | _ => .published

/-- `remove_initiator_message`. -/
def removeInitiatorMessage (w : World) (type : MsgType) (msgId : ℕ) : Bool × World :=
  let r := w.outbox.delete msgId type
  (r.1, {w.depart (.acked (ackEvent type)) r.2 with
    strayAcks := if r.1 ∧ w.receivedId w.rx.inBufferLength ≠ msgId then w.strayAcks+1 else w.strayAcks})

/-- A PUBACK or PUBCOMP: the PUBLISH it answers is done. -/
def finishPublish (H : Handler) (msgId : ℕ) (w : World) : World :=
  match w.removeInitiatorMessage .publish msgId with
  | (false, w) => w.noteTraffic (.acked msgId)
  | (true, w) =>
    let w := w.noteTraffic (.acked msgId)
    dispatchPlain H .published
      (if w.isV5 then {w with sendPublishPacketCount := w.sendPublishPacketCount-1} else w)

/-- A reply composed and written; `before` stands between the two. The write may
fail, and the first component says so. -/
def reply (H : Handler) (site : Site) (type : MsgType) (qos : ℕ) (build : Connection → Connection)
    (before : World → World) (w : World) : Option Bool × World :=
  let w := w.compose type qos build
  if w.nothingComposed then (none, w)
  else
    let r := espMqttWrite H site true (before w)
    (some r.1, r.2)

/-- The switch of `mqtt_process_receive` over a complete packet; true is
`ESP_OK`. -/
def processMessage (H : Handler) (w : World) : Bool × World :=
  let type := mqttGetType (w.rx.inBuffer.getD 0 0)
  let qos := mqttGetQos (w.rx.inBuffer.getD 0 0)
  let msgId := w.receivedId w.rx.messageLength
  match type with
  | some .suback =>
    match w.removeInitiatorMessage .subscribe msgId with
    | (true, w) => deliverSuback H w
    | (false, w) => (true, w)
  | some .unsuback =>
    match w.removeInitiatorMessage .unsubscribe msgId with
    | (true, w) => (true, dispatchPlain H .unsubscribed w)
    | (false, w) => (true, w)
  | some .publish =>
    match deliverPublish H w with
    | (false, w) => (false, w)
    | (true, w) =>
      if qos = 1 then
        let r := reply H .puback .puback 0 (mqttMsgPuback · msgId) id w
        (r.1 = some true, r.2)
      else if qos = 2 then
        let r := reply H .pubrec .pubrec 0 (mqttMsgPubrec · msgId) id w
        (r.1 = some true, r.2)
      else (true, w)
  | some .puback => (true, finishPublish H msgId w)
  | some .pubrec =>
    -- how the write ends is not looked at
    let r := reply H .pubrel .pubrel 1 (mqttMsgPubrel · msgId)
      (fun w => {w with outbox := w.outbox.setPending msgId .acknowledged}) w
    (r.1.isSome, r.2)
  | some .pubrel =>
    let r := reply H .pubcomp .pubcomp 0 (mqttMsgPubcomp · msgId) id w
    (r.1.isSome, r.2)
  | some .pubcomp => (true, finishPublish H msgId w)
  | some .pingresp =>
    let t := {w with waitForPingResp := false}.tick
    (true, {t.2 with keepaliveTick := t.1})
  | some .disconnect => (true, if w.isV5 then dispatchPlain H .disconnected w else w)
  | _ => (true, w)

/-- `mqtt_process_receive`; true is `ESP_OK`. -/
def mqttProcessReceive (H : Handler) (w : World) : Bool × World :=
  let previous := w.rx.inBufferReadLen
  let r := mqttMessageReceive w.transport w.rx
  let w := {w with transport := r.2.1, rx := r.2.2}
  match r.1 with
  | .nothing => (true, w)
  | .midMessageTimeout => (decide (previous ≠ w.rx.inBufferReadLen), w)
  | .failure => (false, dispatchTransportError H w)
  | .message =>
    let r := processMessage H w
    (r.1, if r.1 then {r.2 with rx := {r.2.rx with inBufferReadLen := 0}} else r.2)

/-- A stored packet taken into the outbound message. -/
def loadItem (w : World) (i : OutboxItem) : World :=
  {w with
    connection := {w.connection with outboundMessage :=
      {w.connection.outboundMessage with data := i.buffer}}
    pendingMsgId := i.msgId
    pendingMsgType := i.msgType
    pendingPublishQos := i.msgQos
    origin := i.origin}

/-- `mqtt_resend_queued`; true is `ESP_OK`. The DUP bit is set in the stored
copy, which the outbound message points at. -/
def mqttResendQueued (H : Handler) (i : OutboxItem) (w : World) : Bool × World :=
  let dup := i.msgType == some .publish && decide (0 < i.msgQos) && i.pending == .transmitted
  let w := w.loadItem (if dup then {i with buffer := mqttSetDup i.buffer} else i)
  let w := if dup then {w with outbox := w.outbox.setDup i.handle} else w
  match espMqttWrite H .resend true w with
  | (true, w) => (true, w)
  | (false, w) => (false, espMqttAbortConnection H w)

/-- `mqtt_resend_pubrel`. -/
def mqttResendPubrel (H : Handler) (i : OutboxItem) (w : World) : World :=
  let w := w.loadItem i
  let r := reply H .resendPubrel .pubrel 1 (mqttMsgPubrel · w.pendingMsgId) id w
  if r.1 = some false then espMqttAbortConnection H r.2 else r.2

/-- `mqtt_delete_expired_messages` with DELETED events. What the handler stores
meanwhile comes out of the scripts, so there are enough rounds. -/
def deleteExpiredLoop (H : Handler) : ℕ → World → World
  | 0, w => w
  | k+1, w =>
    let t := w.tick
    match t.2.outbox.deleteSingleExpired t.1 t.2.config.outboxExpiredTimeoutMs with
    | (none, o) => {t.2 with outbox := o}
    | (some id, o) =>
      deleteExpiredLoop H k (dispatchEvent H {t.2.depart .expired o with
        event := {t.2.event with id := .deleted, msgId := id}})

/-- `mqtt_delete_expired_messages`. -/
def mqttDeleteExpiredMessages (H : Handler) (w : World) : World :=
  if w.config.reportDeletedMessages then
    deleteExpiredLoop H (w.outbox.list.length+(w.scripts.map List.length).sum+1) w
  else
    let t := w.tick
    t.2.depart .expired (t.2.outbox.deleteExpired t.1 t.2.config.outboxExpiredTimeoutMs)

/-- `mqtt_requeue_transmitted_messages`: the loop over the TRANSMITTED items. -/
def requeueLoop : ℕ → Outbox → Outbox
  | 0, o => o
  | k+1, o =>
    match o.dequeue .transmitted with
    | none => o
    | some i =>
      let o := if i.msgType = some .publish ∧ 0 < i.msgQos then o.setDup i.handle else o
      match o.get i.msgId with
      | none => o
      | some _ => requeueLoop k (o.setPending i.msgId .queued)

/-- Waiting for the CONNACK from the time `started` on; once no read choice is left nothing
more comes before the network timeout. -/
def connackLoop (started : ℕ) : ℕ → World → Recv × World
  | 0, w => (.nothing, w)
  | k+1, w =>
    let r := mqttMessageReceive w.transport w.rx
    let w := {w with transport := r.2.1, rx := r.2.2}
    if r.1 = .nothing then
      let t := w.tick
      if t.1-started < t.2.config.networkTimeoutMs then connackLoop started k t.2 else (r.1, t.2)
    else (r.1, w)

/-- The event of a refused connection. -/
def connectionRefused (H : Handler) (code : ℤ) (w : World) : World :=
  dispatchEventWithMsgid H {w with event :=
    {w.event with id := .error, errorHandle := some ⟨.connectionRefused, code, 0, 0⟩}}

/-- What `esp_mqtt_connect` makes of the packet that answers the CONNECT. -/
def acceptConnack (H : Handler) (w : World) : Bool × World :=
  if mqttGetType (w.rx.inBuffer.getD 0 0) ≠ some .connack then (false, w)
  else if w.isV5 then
    let a := w.askMqtt5
    let w : World := {a.2 with
      rx := {a.2.rx with inBufferReadLen := 0}
      information := {a.2.information with
        keepalive := a.1.serverKeepalive.getD a.2.information.keepalive}
      -- `receive_maximum` is a `uint16_t`
      receiveMaximum := a.1.receiveMaximum % 65536, maxQos := a.1.maxQos
      retainAvailable := a.1.retainAvailable}
    if a.1.connackParsed ∧ a.1.connectRspCode = 0 then
      (true, {w.noteTraffic (.opened w.receiveMaximum) with
        sendPublishPacketCount := 0
        outbox := requeueLoop w.outbox.list.length w.outbox})
    else (false, connectionRefused H a.1.connectRspCode w)
  else
    let w := {w with rx := {w.rx with inBufferReadLen := 0}}
    let code := mqttGetConnectReturnCode w.rx.inBuffer
    if code = 0 then (true, w.noteTraffic (.opened 65535)) else (false, connectionRefused H code w)

/-- `esp_mqtt_connect`; true is `ESP_OK`. -/
def espMqttConnect (H : Handler) (w : World) : Bool × World :=
  let w := {w with waitForPingResp := false}.resetPendingMessage
  let r := reply H .connect .connect 0 (mqttMsgConnect · w.information)
    (fun w => {w with pendingMsgType := some .connect, pendingMsgId := 0}) w
  if r.1 ≠ some true then (false, r.2)
  else
    let w := {r.2 with rx := {r.2.rx with inBufferReadLen := 0, messageLength := 0}}
    let t := w.tick
    match connackLoop t.1 (t.2.transport.reads.length+1) t.2 with
    | (.message, w) => acceptConnack H w
    | (.failure, w) => (false, dispatchTransportError H w)
    | (_, w) => (false, w)

/-- `send_disconnect_msg`, whose result nobody looks at. -/
def sendDisconnectMsg (H : Handler) (w : World) : World :=
  (reply H .disconnect .disconnect 0 mqttMsgDisconnect id w).2

/-- `process_keepalive`; true is `ESP_OK`. -/
def processKeepalive (H : Handler) (w : World) : Bool × World :=
  if w.information.keepalive = 0 then (true, w)
  else
    let ms := w.information.keepalive*1000
    if w.waitForPingResp then
      match w.hasTimedOut w.keepaliveTick ms with
      | (true, w) => (false, {espMqttAbortConnection H w with waitForPingResp := false})
      | (false, w) => (true, w)
    else
      match w.hasTimedOut w.keepaliveTick (ms/2) with
      | (false, w) => (true, w)
      | (true, w) =>
        -- a PINGREQ is the same in both versions
        let w := {w with connection := mqttMsgPingreq w.connection}.arising w.connections true
        if w.nothingComposed then (false, espMqttAbortConnection H w)
        else
          match espMqttWrite H .ping true w with
          | (true, w) => (true, {w with waitForPingResp := true})
          | (false, w) => (false, espMqttAbortConnection H w)

/-- `MQTT_STATE_INIT`: connect, and report it. -/
def taskInit (H : Handler) (w : World) : World :=
  let w := {w with disconnectBit := false, reconnectBit := false}
  let created := w.creates.head?.getD true
  let w := {w with creates := w.creates.tail}
  if created = false then
    -- no transport for this scheme
    {dispatchEventWithMsgid H {w with event :=
      {w.event with id := .error, errorHandle := some ⟨.tcpTransport, 0, 0, 0⟩}} with run := false}
  else
    let w := dispatchPlain H .other w
    match espTransportConnect w.transport with
    | (false, t) => espMqttAbortConnection H (dispatchTransportError H {w with transport := t})
    | (true, t) =>
      match espMqttConnect H {w with transport := t, connections := w.connections+1} with
      | (false, w) => espMqttAbortConnection H w
      | (true, w) =>
        let t := (dispatchPlain H .connected {w with state := .connected}).tick
        let t' := t.2.tick
        {t'.2 with refreshConnectionTick := t.1, keepaliveTick := t'.1}

/-- `mqtt_get_queued_qos0`. -/
def queuedQos0 (w : World) : Option OutboxItem :=
  (w.outbox.get 0).filter fun i =>
    i.pending == .queued && i.msgType == some .publish && i.msgQos == 0

/-- The item the task sends next: with the send quota used up only QoS 0. -/
def nextQueued (w : World) : Option OutboxItem :=
  match w.outbox.dequeue .queued with
  | none => none
  | some i =>
    if w.isV5 ∧ w.receiveMaximum ≤ w.sendPublishPacketCount ∧ i.msgType = some .publish ∧
        0 < i.msgQos then w.queuedQos0
    else some i

/-- A queued item sent for the first time. -/
def sendQueued (H : Handler) (i : OutboxItem) (w : World) : World :=
  match mqttResendQueued H i w with
  | (false, w) => w
  | (true, w) =>
    if w.pendingMsgType = some .publish ∧ w.pendingPublishQos = 0 then
      w.depart .sent (w.outbox.deleteItem i.handle)
    else
      let w :=
        if w.pendingMsgType = some .publish then w.noteTraffic (.sent w.origin.call w.pendingMsgId)
        else w
      let t := w.tick
      let w : World := {t.2 with
        outbox := (t.2.outbox.setTick t.2.pendingMsgId t.1).setPending t.2.pendingMsgId .transmitted}
      if w.pendingMsgType = some .publish ∧ w.isV5 then
        {w with sendPublishPacketCount := w.sendPublishPacketCount+1}
      else w

/-- An item of this state that has waited long enough. -/
def overdue (w : World) (pending : PendingState) : Option OutboxItem :=
  (w.outbox.dequeue pending).filter fun i =>
    decide (w.config.messageRetransmitTimeout < w.lastRetransmit-i.tick)

/-- The periodic retransmission. -/
def retransmit (H : Handler) (w : World) : World :=
  let t := w.tick
  let w := {t.2 with lastRetransmit := t.1}
  let w :=
    match w.overdue .transmitted with
    | some i =>
      let r := mqttResendQueued H i w
      if r.1 ∧ i.msgType = some .publish ∧ 0 < i.msgQos then
        r.2.noteTraffic (.sent i.origin.call i.msgId)
      else r.2
    | none => w
  match w.overdue .acknowledged with
  | some i => mqttResendPubrel H i w
  | none => w

/-- What the task has to send. -/
def taskSend (H : Handler) (w : World) : World :=
  match w.nextQueued with
  | some i => sendQueued H i w
  | none =>
    match w.hasTimedOut w.lastRetransmit w.config.messageRetransmitTimeout with
    | (true, w) => retransmit H w
    | (false, w) => w

/-- The end of a pass in state CONNECTED. -/
def taskUpkeep (H : Handler) (w : World) : World :=
  match processKeepalive H w with
  | (false, w) => w
  | (true, w) =>
    if w.config.refreshConnectionAfterMs = 0 then w
    else
      match w.hasTimedOut w.refreshConnectionTick w.config.refreshConnectionAfterMs with
      | (true, w) => {espMqttAbortConnection H w with state := .init}
      | (false, w) => w

/-- `MQTT_STATE_CONNECTED`. -/
def taskConnected (H : Handler) (w : World) : World :=
  if w.disconnectBit then
    espMqttAbortConnection H (sendDisconnectMsg H {w with disconnectBit := false})
  else
    match mqttProcessReceive H w with
    | (false, w) => espMqttAbortConnection H w
    | (true, w) =>
      let w :=
        if w.lastRetransmit = 0 then
          let t := w.tick
          {t.2 with lastRetransmit := t.1}
        else w
      taskUpkeep H (taskSend H w)

/-- `MQTT_STATE_WAIT_RECONNECT`; the first component tells the pass that goes
back to the head of the loop without the test behind the lock. -/
def taskWaitReconnect (w : World) : Bool × World :=
  if w.config.autoReconnect = false ∧ w.reconnectBit then
    (false, {w with reconnectBit := false, state := .init, waitTimeoutMs := 10000})
  else if w.config.autoReconnect then
    let t := w.tick
    if t.2.waitTimeoutMs < t.1-t.2.reconnectTick then
      let t' := t.2.tick
      (false, {t'.2 with state := .init, reconnectTick := t'.1})
    else (true, t.2)
  else (true, w)

/-- Events that user tasks have posted to the loop. -/
def runEventLoop (H : Handler) (w : World) : World :=
  if w.userEvents = 0 then w
  else dispatchEvent H {w with userEvents := w.userEvents-1, event := {w.event with id := .other}}

/-- One pass of the loop of `esp_mqtt_task` under the lock; it leaves the place
where the task goes on. -/
def taskPass (H : Handler) (w : World) : World :=
  let w := mqttDeleteExpiredMessages H (runEventLoop H w)
  match w.state with
  | .disconnected => {w with pc := .unlocked}
  | .init => {taskInit H w with pc := .unlocked}
  | .connected => {taskConnected H w with pc := .unlocked}
  | .waitReconnect =>
    let r := w.taskWaitReconnect
    {r.2 with pc := if r.1 then .head else .unlocked}

end World
end EspMqtt
