import EspMqtt.ClientCore

/-! What an acknowledgement does to the outbox: which stored packet the switch
of `mqtt_process_receive` looks up, and when that is the one acknowledged. -/
namespace EspMqtt
open World

/-- The packets that answer a stored one. -/
def isAck : MsgType → Bool
  | .puback | .pubrec | .pubcomp | .suback | .unsuback => true
  | _ => false

/-- The stored packet opened a handshake that `ack` belongs to. -/
def OutboxItem.initiates (x : OutboxItem) : MsgType → Bool
  | .puback => x.msgType == some .publish && x.msgQos == 1
  | .pubrec | .pubcomp => x.msgType == some .publish && x.msgQos == 2
  | .suback => x.msgType == some .subscribe
  | .unsuback => x.msgType == some .unsubscribe
  | _ => false

/-- It has been sent and waits for `ack` with this identifier. -/
def OutboxItem.awaits (x : OutboxItem) (ack : MsgType) (msgId : ℕ) : Bool :=
  x.initiates ack && x.pending != .queued && x.msgId == msgId && msgId != 0

namespace Outbox

/-- `o'` has changed or deleted `x`. -/
def Disturbed (o o' : Outbox) (x : OutboxItem) : Prop := o'.list.count x < o.list.count x

instance (o o' : Outbox) (x : OutboxItem) : Decidable (o.Disturbed o' x) :=
  inferInstanceAs (Decidable (_ < _))

/-- The item an acknowledgement finds: by identifier and type, a PUBREC by its
identifier alone. -/
def addressed (o : Outbox) (msgId : ℕ) : MsgType → Option OutboxItem
  | .puback | .pubcomp => o.list.find? fun i => i.msgId == msgId && i.msgType == some .publish
  | .suback => o.list.find? fun i => i.msgId == msgId && i.msgType == some .subscribe
  | .unsuback => o.list.find? fun i => i.msgId == msgId && i.msgType == some .unsubscribe
  | .pubrec => o.get msgId
  | _ => none

/-- The first match taken out: it, and nothing else, is disturbed. -/
theorem removeFirst_disturbed (o : Outbox) (p : OutboxItem → Bool) (x : OutboxItem) :
    o.Disturbed (o.removeFirst p).2 x ↔ o.list.find? p = some x := by
  unfold Disturbed removeFirst
  cases hf : o.list.find? p with
  | none => simp
  | some y =>
    obtain ⟨hy,as,bs,hl,has⟩ := List.find?_eq_some_iff_append.mp hf
    have hnot : ∀ z ∈ as, ¬ p z = true := fun z hz => by simpa using has z hz
    have herase : o.list.eraseP p = as ++ bs := by
      rw [hl, List.eraseP_append_right _ hnot, List.eraseP_cons_of_pos hy]
    dsimp only
    rw [herase, hl, Option.some.injEq, List.count_append, List.count_append, List.count_cons]
    by_cases hxy : y = x
    · simp [hxy]
    · simp [hxy]

/-- The first match given another state: it is disturbed if its state was not that one. -/
theorem setPending_disturbed (o : Outbox) (msgId : ℕ) (pending : PendingState) (x : OutboxItem) :
    o.Disturbed (o.setPending msgId pending) x ↔ o.get msgId = some x ∧ x.pending ≠ pending := by
  have hgo (l : List OutboxItem) :
      (modifyFirst.go (fun i => i.msgId == msgId) (fun i => {i with pending := pending}) l).count x <
          l.count x ↔
        l.find? (fun i => i.msgId == msgId) = some x ∧ x.pending ≠ pending := by
    induction l with
    | nil => simp [modifyFirst.go]
    | cons y l ih =>
      unfold modifyFirst.go
      by_cases hy : (y.msgId == msgId) = true
      · have hfind : (y :: l).find? (fun i => i.msgId == msgId) = some y := List.find?_cons_of_pos hy
        rw [if_pos hy, hfind, Option.some.injEq, List.count_cons, List.count_cons]
        by_cases hxy : y = x
        · subst hxy
          by_cases hp : y.pending = pending
          · have hsame : {y with pending := pending} = y := by rw [← hp]
            simp [hsame, hp]
          · have hother : ({y with pending := pending} == y) = false := by
              rw [beq_eq_false_iff_ne]
              exact fun he => hp (congrArg OutboxItem.pending he).symm
            simp [hother, hp]
        · have hne : (y == x) = false := by simpa using hxy
          simp only [hne, hxy, false_and, iff_false]
          split <;> simp
      · have hfind : (y :: l).find? (fun i => i.msgId == msgId) =
            l.find? fun i => i.msgId == msgId := List.find?_cons_of_neg hy
        rw [if_neg hy, hfind, List.count_cons, List.count_cons, Nat.add_lt_add_iff_right]
        exact ih
  exact hgo o.list

end Outbox

namespace World

/-- The client with what `mqtt_message_receive` has read. -/
def received (w : World) : World :=
  {w with
    transport := (mqttMessageReceive w.transport w.rx).2.1
    rx := (mqttMessageReceive w.transport w.rx).2.2}

/-- The type of the packet that is there, if one is. -/
def receivedType (w : World) : Option MsgType :=
  if (mqttMessageReceive w.transport w.rx).1 = .message then
    mqttGetType (w.received.rx.inBuffer.getD 0 0)
  else none

/-- The identifier `mqtt_process_receive` takes from it. -/
def ackId (w : World) : ℕ := w.received.receivedId w.received.rx.messageLength

/-- There is room for the PUBREL that answers a PUBREC. -/
def pubrelComposed (w : World) : Bool :=
  !(w.received.compose .pubrel 1 (mqttMsgPubrel · w.ackId)).nothingComposed

/-- The outbox behind the packet, before any handler changes it. -/
def ackOutbox (w : World) : Outbox := (mqttProcessReceive id w).2.outbox

/-- What the packet finds is what it acknowledges, or it changes nothing there. -/
def AckInPlace (w : World) (ack : MsgType) : Prop :=
  ∀ x, w.outbox.addressed w.ackId ack = some x → x.awaits ack w.ackId = true ∨
    ack = .pubrec ∧ (x.pending = .acknowledged ∨ w.pubrelComposed = false)

theorem compose_outbox (w : World) (type : MsgType) (qos : ℕ) (build : Connection → Connection) :
    (w.compose type qos build).outbox = w.outbox := by
  unfold compose
  split
  · exact congrArg Core.outbox w.core_askMqtt5
  · rfl

/-- What the switch makes of the outbox, by the type of the packet. -/
def switchOutbox (w : World) (msgId : ℕ) : MsgType → Outbox
  | .puback | .pubcomp => (w.outbox.delete msgId .publish).2
  | .suback => (w.outbox.delete msgId .subscribe).2
  | .unsuback => (w.outbox.delete msgId .unsubscribe).2
  | .pubrec =>
    if (w.compose .pubrel 1 (mqttMsgPubrel · msgId)).nothingComposed then w.outbox
    else w.outbox.setPending msgId .acknowledged
  | _ => w.outbox

/-- What an event does to the outbox is what its handler does. -/
theorem dispatchEventWithMsgid_outbox (H : Handler) (w : World) :
    ∃ v : World, v.outbox = w.outbox ∧ (dispatchEventWithMsgid H w).outbox = (H v).outbox :=
  ⟨{w with
    event := {w.event with msgId := w.receivedId w.rx.inBufferLength}
    events := {w.event with msgId := w.receivedId w.rx.inBufferLength} :: w.events}, rfl, rfl⟩

/-- So it is with the event of a write that fails. -/
theorem espMqttWrite_outbox (H : Handler) (s : Site) (first : Bool) (w : World) :
    ∃ v : World, v.outbox = w.outbox ∧ ((espMqttWrite H s first w).2.outbox = v.outbox ∨
      (espMqttWrite H s first w).2.outbox = (H v).outbox) := by
  unfold espMqttWrite
  split
  · exact ⟨w, rfl, Or.inl rfl⟩
  · exact ⟨w, rfl, Or.inl rfl⟩
  · obtain ⟨v,hv,he⟩ := dispatchEventWithMsgid_outbox H {(w.recordWrite s first).inCut (w.isCut first)
      with event := {((w.recordWrite s first).inCut (w.isCut first)).event with
        id := .error, errorHandle := some ⟨.tcpTransport, 0, 0, 0⟩}}
    exact ⟨v, hv, Or.inr he⟩

/-- The switch on an acknowledgement: this is what the handler of its event, or
the caller, finds in the outbox. -/
theorem processMessage_ack (H : Handler) (w : World) (ack : MsgType) (ha : isAck ack = true)
    (ht : mqttGetType (w.rx.inBuffer.getD 0 0) = some ack) :
    ∃ v : World, v.outbox = w.switchOutbox (w.receivedId w.rx.messageLength) ack ∧
      ((processMessage H w).2.outbox = v.outbox ∨ (processMessage H w).2.outbox = (H v).outbox) := by
  unfold processMessage
  extract_lets +onlyGivenNames type qos msgId
  have htype : type = some ack := ht
  have hid : w.receivedId w.rx.messageLength = msgId := rfl
  rw [hid]
  clear_value type msgId
  subst htype
  -- PUBACK and PUBCOMP end the same way
  have hpublish : ∃ u : World, u.outbox = (w.outbox.delete msgId .publish).2 ∧
      ((finishPublish H msgId w).outbox = u.outbox ∨
        (finishPublish H msgId w).outbox = (H u).outbox) := by
    unfold finishPublish
    have hremoved : (w.removeInitiatorMessage .publish msgId).2.outbox =
      (w.outbox.delete msgId .publish).2 := rfl
    generalize w.removeInitiatorMessage .publish msgId = r at hremoved ⊢
    obtain ⟨ok,u⟩ := r
    cases ok with
    | false => exact ⟨u, hremoved, Or.inl rfl⟩
    | true =>
      dsimp only at hremoved ⊢
      rw [← show (u.noteTraffic (.acked msgId)).outbox = u.outbox from rfl] at hremoved
      generalize u.noteTraffic (.acked msgId) = v' at hremoved ⊢
      have hcount : (if v'.isV5 then {v' with sendPublishPacketCount := v'.sendPublishPacketCount-1}
          else v').outbox = v'.outbox := by
        split <;> rfl
      generalize (if v'.isV5 then {v' with sendPublishPacketCount := v'.sendPublishPacketCount-1}
          else v') = u' at hcount ⊢
      obtain ⟨x,hx,he⟩ := dispatchEventWithMsgid_outbox H {u' with event :=
        {u'.event with id := .published}}
      exact ⟨x, (hx.trans hcount).trans hremoved, Or.inr he⟩
  -- each acknowledgement takes its own kind of packet out; PUBREC takes none
  cases ack with
  | puback => exact hpublish
  | pubcomp => exact hpublish
  | suback =>
    have hremoved : (w.removeInitiatorMessage .subscribe msgId).2.outbox =
      (w.outbox.delete msgId .subscribe).2 := rfl
    dsimp only
    generalize w.removeInitiatorMessage .subscribe msgId = r at hremoved ⊢
    obtain ⟨ok,u⟩ := r
    cases ok with
    | false => exact ⟨u, hremoved, Or.inl rfl⟩
    | true =>
      dsimp only at hremoved ⊢
      unfold deliverSuback
      extract_lets +onlyGivenNames a r'
      have hr' : r'.2.outbox = u.outbox := by
        dsimp only [r']
        split
        · exact congrArg Core.outbox u.core_askMqtt5
        · rfl
      clear_value r'
      split
      · exact ⟨_, hr'.trans hremoved, Or.inl rfl⟩
      · dsimp only
        generalize hu' : ({r'.2 with event := _} : World) = u'
        have hbox : u'.outbox = r'.2.outbox := hu' ▸ rfl
        obtain ⟨x,hx,he⟩ := dispatchEventWithMsgid_outbox H u'
        exact ⟨x, ((hx.trans hbox).trans hr').trans hremoved, Or.inr he⟩
  | unsuback =>
    have hremoved : (w.removeInitiatorMessage .unsubscribe msgId).2.outbox =
      (w.outbox.delete msgId .unsubscribe).2 := rfl
    dsimp only
    generalize w.removeInitiatorMessage .unsubscribe msgId = r at hremoved ⊢
    obtain ⟨ok,u⟩ := r
    cases ok with
    | false => exact ⟨u, hremoved, Or.inl rfl⟩
    | true =>
      obtain ⟨x,hx,he⟩ := dispatchEventWithMsgid_outbox H {u with event :=
        {u.event with id := .unsubscribed}}
      exact ⟨x, hx.trans hremoved, Or.inr he⟩
  | pubrec =>
    have hbox := w.compose_outbox .pubrel 1 (mqttMsgPubrel · msgId)
    dsimp only [reply, switchOutbox]
    generalize w.compose .pubrel 1 (mqttMsgPubrel · msgId) = u at hbox ⊢
    by_cases hnone : u.nothingComposed = true
    · rw [if_pos hnone, if_pos hnone]
      exact ⟨u, hbox, Or.inl rfl⟩
    · rw [if_neg hnone, if_neg hnone]
      obtain ⟨x,hx,he⟩ := espMqttWrite_outbox H .pubrel true
        {u with outbox := u.outbox.setPending msgId .acknowledged}
      exact ⟨x, hx.trans (congrArg (fun o => o.setPending msgId .acknowledged) hbox), he⟩
  | _ => exact absurd ha (by decide)

/-- And so it is for the whole of `mqtt_process_receive`. -/
theorem mqttProcessReceive_ack (H : Handler) (w : World) (ack : MsgType) (ha : isAck ack = true)
    (ht : w.receivedType = some ack) :
    ∃ v : World, v.outbox = w.received.switchOutbox w.ackId ack ∧
      ((mqttProcessReceive H w).2.outbox = v.outbox ∨
        (mqttProcessReceive H w).2.outbox = (H v).outbox) := by
  unfold receivedType at ht
  split at ht
  · rename_i hm
    obtain ⟨v,hv,he⟩ := processMessage_ack H w.received ack ha ht
    refine ⟨v, hv, ?_⟩
    unfold mqttProcessReceive
    dsimp only
    rw [hm]
    have hsame (r : Bool × World) : (if r.1 then {r.2 with rx := {r.2.rx with inBufferReadLen := 0}}
        else r.2).outbox = r.2.outbox := by
      split <;> rfl
    have hrest := hsame (processMessage H w.received)
    rw [← hrest] at he
    exact he
  · exact absurd ht (by simp)

theorem ackOutbox_eq (w : World) (ack : MsgType) (ha : isAck ack = true)
    (ht : w.receivedType = some ack) :
    w.ackOutbox = w.received.switchOutbox w.ackId ack := by
  obtain ⟨v,hv,he⟩ := mqttProcessReceive_ack id w ack ha ht
  exact (he.elim id id).trans hv

/-- The items behind an acknowledgement that are not as they were. -/
theorem ackOutbox_disturbed (w : World) (ack : MsgType) (ha : isAck ack = true)
    (ht : w.receivedType = some ack) (x : OutboxItem) :
    w.outbox.Disturbed w.ackOutbox x ↔ w.outbox.addressed w.ackId ack = some x ∧
      (ack = .pubrec → x.pending ≠ .acknowledged ∧ w.pubrelComposed = true) := by
  have hbox : w.received.outbox = w.outbox := rfl
  rw [ackOutbox_eq w ack ha ht]
  cases ack with
  | puback =>
    dsimp only [switchOutbox, Outbox.delete]
    rw [hbox, Outbox.removeFirst_disturbed]
    simp [Outbox.addressed]
  | pubcomp =>
    dsimp only [switchOutbox, Outbox.delete]
    rw [hbox, Outbox.removeFirst_disturbed]
    simp [Outbox.addressed]
  | suback =>
    dsimp only [switchOutbox, Outbox.delete]
    rw [hbox, Outbox.removeFirst_disturbed]
    simp [Outbox.addressed]
  | unsuback =>
    dsimp only [switchOutbox, Outbox.delete]
    rw [hbox, Outbox.removeFirst_disturbed]
    simp [Outbox.addressed]
  | pubrec =>
    dsimp only [switchOutbox, Outbox.addressed]
    rw [hbox]
    unfold pubrelComposed
    split
    · rename_i hnone
      simp [hnone, Outbox.Disturbed]
    · rename_i hnone
      rw [Outbox.setPending_disturbed]
      simp [hnone]
  | _ => exact absurd ha (by decide)

end World

/-- Whatever the handlers do afterwards, an acknowledgement leaves every stored
packet alone that does not wait for it, exactly when the one it finds does. -/
theorem acks_touch_their_own_iff (w : World) (ack : MsgType) (ha : isAck ack = true)
    (ht : w.receivedType = some ack) :
    (∀ H, ∃ v : World, v.outbox = w.ackOutbox ∧ ((mqttProcessReceive H w).2.outbox = v.outbox ∨
      (mqttProcessReceive H w).2.outbox = (H v).outbox)) ∧
    ((∀ x, w.outbox.Disturbed w.ackOutbox x → x.awaits ack w.ackId = true) ↔ w.AckInPlace ack) := by
  refine ⟨fun H => ?_, ?_⟩
  · rw [ackOutbox_eq w ack ha ht]
    exact mqttProcessReceive_ack H w ack ha ht
  · constructor
    · intro h x hx
      by_cases hchange : ack = .pubrec → x.pending ≠ .acknowledged ∧ w.pubrelComposed = true
      · exact Or.inl (h x ((ackOutbox_disturbed w ack ha ht x).mpr ⟨hx,hchange⟩))
      · rw [Classical.not_imp] at hchange
        refine Or.inr ⟨hchange.1, ?_⟩
        by_cases hp : x.pending = .acknowledged
        · exact Or.inl hp
        · exact Or.inr (by simpa using fun hc => hchange.2 ⟨hp,hc⟩)
    · intro h x hx
      obtain ⟨hfound,hchange⟩ := (ackOutbox_disturbed w ack ha ht x).mp hx
      rcases h x hfound with hawaits | ⟨hrec,hno⟩
      · exact hawaits
      · rcases hno with hp | hp
        · exact absurd hp (hchange hrec).1
        · exact absurd ((hchange hrec).2.symm.trans hp) (by decide)

/-- A QoS 1 message sent, and its PUBACK in the stream. -/
def pubackPending : World :=
  clientRun smallSettings false (brokerSending [0x40, 2, 0, 7]) 0
    (connectSteps ++ [.check (.publish (some [0x74]) (cBytes [0x78]) 1 1 0), .body 0])

/-- The PUBACK takes out what it acknowledges and nothing else. -/
theorem puback_touches_its_own :
    pubackPending.ackOutbox.list = [] ∧
    ∀ x, pubackPending.outbox.Disturbed pubackPending.ackOutbox x →
      x.awaits .puback pubackPending.ackId = true := by
  refine ⟨by decide +kernel, (acks_touch_their_own_iff pubackPending .puback rfl
    (by decide +kernel)).2.mpr fun x hx => Or.inl ?_⟩
  have hfound : (pubackPending.outbox.addressed pubackPending.ackId .puback).all
    (fun y => y.awaits .puback pubackPending.ackId) = true := by decide +kernel
  rw [hx] at hfound
  exact hfound

/-- A QoS 0 message stored, and a PUBREC without identifier in the stream. -/
def truncatedPubrec : World :=
  clientRun smallSettings false (brokerSending [0x50, 0]) 0
    (connectSteps ++ [.check (.enqueue (some [0x74]) (cBytes [0x78]) 1 0 0 true), .body 0])

/-- The PUBREC marks the queued QoS 0 message as acknowledged. -/
theorem pubrec_marks_stored_qos0 :
    truncatedPubrec.receivedType = some .pubrec ∧
    ¬ ∀ x, truncatedPubrec.outbox.Disturbed truncatedPubrec.ackOutbox x →
      x.awaits .pubrec truncatedPubrec.ackId = true := by
  refine ⟨by decide +kernel, fun h => ?_⟩
  have hdisturbed : truncatedPubrec.outbox.Disturbed truncatedPubrec.ackOutbox
      ⟨0, [0x30, 4, 0, 1, 0x74, 0x78], 0, some .publish, 0, 0, .queued, ⟨1, 1, false⟩⟩ := by
    decide +kernel
  have hawaits := h _ hdisturbed
  simp [OutboxItem.awaits, OutboxItem.initiates] at hawaits

end EspMqtt
