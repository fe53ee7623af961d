import EspMqtt.Mqtt5Compose
import EspMqtt.Mqtt5Wire

/-! The packets of `mqtt5_msg.c` against the reference decoder. -/
namespace EspMqtt
open Wire Wire5

/-! The properties of a call, as the protocol has them. -/

def numberProperty (id : PropertyId) (n : ℕ) : List Property := if n ≠ 0 then [(id, .number n)] else []

def flagProperty (id : PropertyId) (flag : Bool) : List Property :=
  if flag then [(id, .number 1)] else []

def textProperty (id : PropertyId) (text : Option (List UInt8)) : List Property :=
  match text with
  | none => []
  | some t => [(id, .text t)]

def userProperties (l : UserProperty) : List Property :=
  (l.getD []).map fun p => (.userProperty, .pair p.1 p.2)

def ConnectionProperty.list (p : ConnectionProperty) : List Property :=
  numberProperty .sessionExpiryInterval p.sessionExpiryInterval ++
  (numberProperty .maximumPacketSize p.maximumPacketSize ++
  (numberProperty .receiveMaximum p.receiveMaximum ++
  (numberProperty .topicAliasMaximum p.topicAliasMaximum ++
  (flagProperty .requestResponseInformation p.requestRespInfo ++
  (flagProperty .requestProblemInformation p.requestProblemInfo ++
  userProperties p.userProperty)))))

def WillProperty.list (p : WillProperty) : List Property :=
  numberProperty .willDelayInterval p.willDelayInterval ++
  (flagProperty .payloadFormatIndicator p.payloadFormatIndicator ++
  (numberProperty .messageExpiryInterval p.messageExpiryInterval ++
  (textProperty .contentType p.contentType ++
  (textProperty .responseTopic p.responseTopic ++
  (textProperty .correlationData (given p.correlationData) ++
  userProperties p.userProperty)))))

def PublishProperty.list (property : Option PublishProperty) (respInfo : Option (List UInt8)) :
    List Property :=
  match property with
  | none => []
  | some p =>
    flagProperty .payloadFormatIndicator p.payloadFormatIndicator ++
    (numberProperty .messageExpiryInterval p.messageExpiryInterval ++
    (numberProperty .topicAlias p.topicAlias ++
    (textProperty .responseTopic (sentResponseTopic p.responseTopic respInfo) ++
    (textProperty .correlationData (given p.correlationData) ++
    (userProperties p.userProperty ++
    textProperty .contentType p.contentType)))))

def SubscribeProperty.list (property : Option SubscribeProperty) : List Property :=
  match property with
  | none => []
  | some p => numberProperty .subscriptionIdentifier p.subscribeId ++ userProperties p.userProperty

def UnsubscribeProperty.list (property : Option UnsubscribeProperty) : List Property :=
  userProperties (property.bind UnsubscribeProperty.userProperty)

def DisconnectProperty.list (property : Option DisconnectProperty) : List Property :=
  match property with
  | none => []
  | some p =>
    numberProperty .sessionExpiryInterval p.sessionExpiryInterval ++ userProperties p.userProperty

/-! What is asked for, field by field. -/

/-- Zero means that a number is absent. -/
def nonzero (n : ℕ) : Option ℕ := if n ≠ 0 then some n else none

def raised (flag : Bool) : Option ℕ := if flag then some 1 else none

def ConnectionProperty.asked (p : ConnectionProperty) : Properties where
  sessionExpiryInterval := nonzero p.sessionExpiryInterval
  maximumPacketSize := nonzero p.maximumPacketSize
  receiveMaximum := nonzero p.receiveMaximum
  topicAliasMaximum := nonzero p.topicAliasMaximum
  requestResponseInformation := raised p.requestRespInfo
  requestProblemInformation := raised p.requestProblemInfo
  user := p.userProperty.getD []

def WillProperty.asked (p : WillProperty) : Properties where
  willDelayInterval := nonzero p.willDelayInterval
  payloadFormatIndicator := raised p.payloadFormatIndicator
  messageExpiryInterval := nonzero p.messageExpiryInterval
  contentType := p.contentType
  responseTopic := p.responseTopic
  correlationData := given p.correlationData
  user := p.userProperty.getD []

def PublishProperty.asked (property : Option PublishProperty) (respInfo : Option (List UInt8)) :
    Properties :=
  match property with
  | none => {}
  | some p =>
    { payloadFormatIndicator := raised p.payloadFormatIndicator
      messageExpiryInterval := nonzero p.messageExpiryInterval
      topicAlias := nonzero p.topicAlias
      responseTopic := sentResponseTopic p.responseTopic respInfo
      correlationData := given p.correlationData
      contentType := p.contentType
      user := p.userProperty.getD [] }

def SubscribeProperty.asked (property : Option SubscribeProperty) : Properties :=
  match property with
  | none => {}
  | some p =>
    { subscriptionIdentifier := nonzero p.subscribeId
      user := p.userProperty.getD [] }

def UnsubscribeProperty.asked (property : Option UnsubscribeProperty) : Properties where
  user := (property.bind UnsubscribeProperty.userProperty).getD []

def DisconnectProperty.asked (property : Option DisconnectProperty) : Properties :=
  match property with
  | none => {}
  | some p =>
    { sessionExpiryInterval := nonzero p.sessionExpiryInterval
      user := p.userProperty.getD [] }

section Lookup

variable (id id' : PropertyId) (n : ℕ) (flag : Bool) (text : Option (List UInt8)) (l : UserProperty)
  (ps qs : List Property)

@[simp] theorem numberOf_append : numberOf id (ps ++ qs) = (numberOf id ps).or (numberOf id qs) :=
  List.findSome?_append

@[simp] theorem textOf_append : textOf id (ps ++ qs) = (textOf id ps).or (textOf id qs) :=
  List.findSome?_append

@[simp] theorem numberOf_numberProperty :
    numberOf id (numberProperty id' n) = if id' = id then nonzero n else none := by
  unfold numberOf numberProperty nonzero
  by_cases hn : n ≠ 0 <;> by_cases hid : id' = id <;> simp [hn, hid, Value.number?]

@[simp] theorem numberOf_flagProperty :
    numberOf id (flagProperty id' flag) = if id' = id then raised flag else none := by
  unfold numberOf flagProperty raised
  by_cases hid : id' = id <;> cases flag <;> simp [hid, Value.number?]

@[simp] theorem numberOf_textProperty : numberOf id (textProperty id' text) = none := by
  unfold numberOf textProperty
  cases text <;> simp [Value.number?]

@[simp] theorem numberOf_userProperties : numberOf id (userProperties l) = none := by
  unfold numberOf userProperties
  rw [List.findSome?_eq_none_iff]
  intro p hp
  obtain ⟨q,-,rfl⟩ := List.mem_map.mp hp
  simp [Value.number?]

@[simp] theorem textOf_numberProperty : textOf id (numberProperty id' n) = none := by
  unfold textOf numberProperty
  by_cases hn : n ≠ 0 <;> simp [hn, Value.text?]

@[simp] theorem textOf_flagProperty : textOf id (flagProperty id' flag) = none := by
  unfold textOf flagProperty
  cases flag <;> simp [Value.text?]

@[simp] theorem textOf_textProperty :
    textOf id (textProperty id' text) = if id' = id then text else none := by
  unfold textOf textProperty
  by_cases hid : id' = id <;> cases text <;> simp [hid, Value.text?]

@[simp] theorem textOf_userProperties : textOf id (userProperties l) = none := by
  unfold textOf userProperties
  rw [List.findSome?_eq_none_iff]
  intro p hp
  obtain ⟨q,-,rfl⟩ := List.mem_map.mp hp
  simp [Value.text?]

@[simp] theorem pairs_numberProperty :
    (numberProperty id n).filterMap (fun p => p.2.pair?) = [] := by
  unfold numberProperty
  by_cases hn : n ≠ 0 <;> simp [hn, Value.pair?]

@[simp] theorem pairs_flagProperty : (flagProperty id flag).filterMap (fun p => p.2.pair?) = [] := by
  unfold flagProperty
  cases flag <;> simp [Value.pair?]

@[simp] theorem pairs_textProperty : (textProperty id text).filterMap (fun p => p.2.pair?) = [] := by
  unfold textProperty
  cases text <;> simp [Value.pair?]

@[simp] theorem pairs_userProperties :
    (userProperties l).filterMap (fun p => p.2.pair?) = l.getD [] := by
  unfold userProperties
  simp [List.filterMap_map, Value.pair?]

end Lookup

theorem ofList_connectionProperty (p : ConnectionProperty) : Properties.ofList p.list = p.asked := by
  simp [Properties.ofList, ConnectionProperty.list, ConnectionProperty.asked]

theorem ofList_willProperty (p : WillProperty) : Properties.ofList p.list = p.asked := by
  simp [Properties.ofList, WillProperty.list, WillProperty.asked]

theorem ofList_publishProperty (property : Option PublishProperty) (respInfo : Option (List UInt8)) :
    Properties.ofList (PublishProperty.list property respInfo) =
      PublishProperty.asked property respInfo := by
  cases property with
  | none => rfl
  | some p => simp [Properties.ofList, PublishProperty.list, PublishProperty.asked]

theorem ofList_subscribeProperty (property : Option SubscribeProperty) :
    Properties.ofList (SubscribeProperty.list property) = SubscribeProperty.asked property := by
  cases property with
  | none => rfl
  | some p => simp [Properties.ofList, SubscribeProperty.list, SubscribeProperty.asked]

theorem ofList_unsubscribeProperty (property : Option UnsubscribeProperty) :
    Properties.ofList (UnsubscribeProperty.list property) = UnsubscribeProperty.asked property := by
  simp [Properties.ofList, UnsubscribeProperty.list, UnsubscribeProperty.asked]

theorem ofList_disconnectProperty (property : Option DisconnectProperty) :
    Properties.ofList (DisconnectProperty.list property) = DisconnectProperty.asked property := by
  cases property with
  | none => rfl
  | some p => simp [Properties.ofList, DisconnectProperty.list, DisconnectProperty.asked]

/-! Each property at most once, and only those of the packet. -/

/-- Apart from user properties, only these, in this order. -/
def Listed (ps : List Property) (ids : List PropertyId) : Prop := (singleIds ps).Sublist ids

theorem Listed.append {ps qs : List Property} {ids ids' : List PropertyId} (h : Listed ps ids)
    (h' : Listed qs ids') : Listed (ps ++ qs) (ids ++ ids') := by
  unfold Listed singleIds
  rw [List.map_append, List.filter_append]
  exact List.Sublist.append h h'

theorem listed_nil : Listed [] [] := List.Sublist.slnil

theorem listed_single (id : PropertyId) (v : Value) : Listed [(id, v)] [id] := by
  unfold Listed singleIds
  exact List.filter_sublist

theorem listed_numberProperty (id : PropertyId) (n : ℕ) : Listed (numberProperty id n) [id] := by
  unfold numberProperty
  split
  · exact listed_single id _
  · exact List.nil_sublist _

theorem listed_flagProperty (id : PropertyId) (flag : Bool) : Listed (flagProperty id flag) [id] := by
  unfold flagProperty
  split
  · exact listed_single id _
  · exact List.nil_sublist _

theorem listed_textProperty (id : PropertyId) (text : Option (List UInt8)) :
    Listed (textProperty id text) [id] := by
  cases text with
  | none => exact List.nil_sublist _
  | some t => exact listed_single id _

theorem listed_userProperties (l : UserProperty) : Listed (userProperties l) [] := by
  unfold Listed singleIds userProperties
  rw [List.map_map, List.sublist_nil, List.filter_eq_nil_iff]
  intro id hid
  obtain ⟨q,-,rfl⟩ := List.mem_map.mp hid
  simp

/-! Values in the protocol's range. -/

def UserProperty.Carried (l : UserProperty) : Prop :=
  ∀ p ∈ l.getD [], p.1.length < 65536 ∧ p.2.length < 65536

instance (l : UserProperty) : Decidable (UserProperty.Carried l) :=
  inferInstanceAs (Decidable (∀ p ∈ l.getD [], p.1.length < 65536 ∧ p.2.length < 65536))

structure ConnectionProperty.InRange (p : ConnectionProperty) : Prop where
  sessionExpiryInterval : p.sessionExpiryInterval < 256^4
  maximumPacketSize : p.maximumPacketSize < 256^4
  receiveMaximum : p.receiveMaximum < 256^2
  topicAliasMaximum : p.topicAliasMaximum < 256^2
  userProperty : UserProperty.Carried p.userProperty

structure WillProperty.InRange (p : WillProperty) : Prop where
  willDelayInterval : p.willDelayInterval < 256^4
  messageExpiryInterval : p.messageExpiryInterval < 256^4
  contentType : Carried p.contentType
  responseTopic : Carried p.responseTopic
  correlationData : Carried p.correlationData
  userProperty : UserProperty.Carried p.userProperty

structure PublishProperty.InRange (p : PublishProperty) : Prop where
  messageExpiryInterval : p.messageExpiryInterval < 256^4
  topicAlias : p.topicAlias < 256^2
  responseTopic : Carried p.responseTopic
  correlationData : Carried p.correlationData
  contentType : Carried p.contentType
  userProperty : UserProperty.Carried p.userProperty

structure SubscribeProperty.InRange (p : SubscribeProperty) : Prop where
  subscribeId : p.subscribeId < 256^2
  retainHandle : p.retainHandle ≤ 2
  userProperty : UserProperty.Carried p.userProperty

structure DisconnectProperty.InRange (p : DisconnectProperty) : Prop where
  sessionExpiryInterval : p.sessionExpiryInterval < 256^4
  disconnectReason : p.disconnectReason < 256
  userProperty : UserProperty.Carried p.userProperty

/-- A block that a reference decoder reads. -/
structure BlockOk (ps : List Property) (allowed : List PropertyId) : Prop where
  sendable : ∀ p ∈ ps, Property.Sendable p
  single : (singleIds ps).Nodup
  allowed : ∀ id ∈ singleIds ps, id ∈ allowed

theorem sendable_append {ps qs : List Property} (h : ∀ p ∈ ps, Property.Sendable p)
    (h' : ∀ p ∈ qs, Property.Sendable p) : ∀ p ∈ ps ++ qs, Property.Sendable p :=
  List.forall_mem_append.mpr ⟨h,h'⟩

theorem sendable_numberProperty {id : PropertyId} {n : ℕ} (hfits : (Value.number n).Fits id.format)
    (hok : n ≠ 0 → Property.Allowed (id, .number n)) :
    ∀ p ∈ numberProperty id n, Property.Sendable p := by
  intro p hp
  unfold numberProperty at hp
  split at hp
  · rename_i hn
    obtain rfl := List.mem_singleton.mp hp
    exact ⟨hfits, hok hn⟩
  · exact absurd hp List.not_mem_nil

theorem sendable_flagProperty {id : PropertyId} (flag : Bool) (hfits : id.format = .byte) :
    ∀ p ∈ flagProperty id flag, Property.Sendable p := by
  intro p hp
  unfold flagProperty at hp
  split at hp
  · obtain rfl := List.mem_singleton.mp hp
    cases id <;> first
      | exact absurd hfits (by decide)
      | exact ⟨show 1 < 256^1 by decide, show 1 ≤ 1 from le_rfl⟩
  · exact absurd hp List.not_mem_nil

theorem sendable_textProperty {id : PropertyId} {text : Option (List UInt8)}
    (hformat : id.format = .string) (htext : ∀ t, text = some t → t.length < 65536) :
    ∀ p ∈ textProperty id text, Property.Sendable p := by
  intro p hp
  cases text with
  | none => exact absurd hp List.not_mem_nil
  | some t =>
    obtain rfl := List.mem_singleton.mp hp
    refine ⟨?_, ?_⟩
    · change Value.Fits id.format (.text t)
      rw [hformat]
      exact htext t rfl
    · cases id <;> trivial

theorem sendable_userProperties {l : UserProperty} (h : UserProperty.Carried l) :
    ∀ p ∈ userProperties l, Property.Sendable p := by
  intro p hp
  obtain ⟨q,hq,rfl⟩ := List.mem_map.mp hp
  exact ⟨h q hq, trivial⟩

theorem carried_some {s : Option (List UInt8)} (h : Carried s) : ∀ t, s = some t → t.length < 65536 := by
  rintro t rfl
  exact h

theorem Listed.blockOk {ps : List Property} {ids allowed : List PropertyId} (h : Listed ps ids)
    (hids : ids.Nodup) (hallowed : ∀ id ∈ ids, id ∈ allowed)
    (hsend : ∀ p ∈ ps, Property.Sendable p) : BlockOk ps allowed :=
  ⟨hsend, h.nodup hids, fun id hid => hallowed id (h.subset hid)⟩

theorem ConnectionProperty.InRange.blockOk {p : ConnectionProperty} (h : p.InRange) :
    BlockOk p.list connectIds := by
  have hlisted : Listed p.list _ :=
    (listed_numberProperty _ _).append <| (listed_numberProperty _ _).append <|
    (listed_numberProperty _ _).append <| (listed_numberProperty _ _).append <|
    (listed_flagProperty _ _).append <| (listed_flagProperty _ _).append (listed_userProperties _)
  apply hlisted.blockOk (by decide) (by decide)
  exact sendable_append (sendable_numberProperty h.sessionExpiryInterval fun _ => trivial) <|
    sendable_append (sendable_numberProperty h.maximumPacketSize id) <|
    sendable_append (sendable_numberProperty h.receiveMaximum id) <|
    sendable_append (sendable_numberProperty h.topicAliasMaximum fun _ => trivial) <|
    sendable_append (sendable_flagProperty _ rfl) <|
    sendable_append (sendable_flagProperty _ rfl) (sendable_userProperties h.userProperty)

theorem WillProperty.InRange.blockOk {p : WillProperty} (h : p.InRange) : BlockOk p.list willIds := by
  have hlisted : Listed p.list _ :=
    (listed_numberProperty _ _).append <| (listed_flagProperty _ _).append <|
    (listed_numberProperty _ _).append <| (listed_textProperty _ _).append <|
    (listed_textProperty _ _).append <| (listed_textProperty _ _).append (listed_userProperties _)
  apply hlisted.blockOk (by decide) (by decide)
  exact sendable_append (sendable_numberProperty h.willDelayInterval fun _ => trivial) <|
    sendable_append (sendable_flagProperty _ rfl) <|
    sendable_append (sendable_numberProperty h.messageExpiryInterval fun _ => trivial) <|
    sendable_append (sendable_textProperty rfl (carried_some h.contentType)) <|
    sendable_append (sendable_textProperty rfl (carried_some h.responseTopic)) <|
    sendable_append (sendable_textProperty rfl fun _ => given_carried h.correlationData)
      (sendable_userProperties h.userProperty)

theorem publishList_blockOk {property : Option PublishProperty} {respInfo : Option (List UInt8)}
    (h : ∀ p, property = some p → p.InRange ∧ Carried (sentResponseTopic p.responseTopic respInfo)) :
    BlockOk (PublishProperty.list property respInfo) publishIds := by
  cases property with
  | none => exact listed_nil.blockOk List.nodup_nil (by simp) (by simp)
  | some p =>
    obtain ⟨h,hresp⟩ := h p rfl
    have hlisted : Listed (PublishProperty.list (some p) respInfo) _ :=
      (listed_flagProperty _ _).append <| (listed_numberProperty _ _).append <|
      (listed_numberProperty _ _).append <| (listed_textProperty _ _).append <|
      (listed_textProperty _ _).append <| (listed_userProperties _).append (listed_textProperty _ _)
    apply hlisted.blockOk (by decide) (by decide)
    exact sendable_append (sendable_flagProperty _ rfl) <|
      sendable_append (sendable_numberProperty h.messageExpiryInterval fun _ => trivial) <|
      sendable_append (sendable_numberProperty h.topicAlias fun hn => hn) <|
      sendable_append (sendable_textProperty rfl (carried_some hresp)) <|
      sendable_append (sendable_textProperty rfl fun _ => given_carried h.correlationData) <|
      sendable_append (sendable_userProperties h.userProperty)
        (sendable_textProperty rfl (carried_some h.contentType))

/-- Without response information the response topic is sent as it is. -/
theorem sentResponseTopic_plain {respInfo : Option (List UInt8)} (h : given respInfo = none)
    (responseTopic : Option (List UInt8)) : sentResponseTopic responseTopic respInfo = responseTopic := by
  unfold sentResponseTopic
  rw [h]
  simp

theorem publishList_blockOk_plain {property : Option PublishProperty} {respInfo : Option (List UInt8)}
    (hp : ∀ p, property = some p → p.InRange) (hresp : given respInfo = none) :
    BlockOk (PublishProperty.list property respInfo) publishIds := by
  apply publishList_blockOk
  intro p hpp
  refine ⟨hp p hpp, ?_⟩
  rw [sentResponseTopic_plain hresp]
  exact (hp p hpp).responseTopic

theorem subscribeList_blockOk {property : Option SubscribeProperty}
    (h : ∀ p, property = some p → p.InRange) :
    BlockOk (SubscribeProperty.list property) [.subscriptionIdentifier] := by
  cases property with
  | none => exact listed_nil.blockOk List.nodup_nil (by simp) (by simp)
  | some p =>
    have h := h p rfl
    have hid : (Value.number p.subscribeId).Fits .variable := by
      have := h.subscribeId
      change p.subscribeId < 128^4
      omega
    have hlisted : Listed (SubscribeProperty.list (some p)) _ :=
      (listed_numberProperty _ _).append (listed_userProperties _)
    apply hlisted.blockOk (by decide) (by decide)
    exact sendable_append (sendable_numberProperty hid fun hn => hn)
      (sendable_userProperties h.userProperty)

theorem unsubscribeList_blockOk {property : Option UnsubscribeProperty}
    (h : ∀ p, property = some p → UserProperty.Carried p.userProperty) :
    BlockOk (UnsubscribeProperty.list property) [] := by
  apply (listed_userProperties _).blockOk List.nodup_nil (by simp)
  apply sendable_userProperties
  cases property with
  | none => simp [UserProperty.Carried]
  | some p => exact h p rfl

theorem disconnectList_blockOk {property : Option DisconnectProperty}
    (h : ∀ p, property = some p → p.InRange) :
    BlockOk (DisconnectProperty.list property) [.sessionExpiryInterval, .reasonString] := by
  cases property with
  | none => exact listed_nil.blockOk List.nodup_nil (by simp) (by simp)
  | some p =>
    have h := h p rfl
    have hlisted : Listed (DisconnectProperty.list (some p)) _ :=
      (listed_numberProperty _ _).append (listed_userProperties _)
    apply hlisted.blockOk (by decide) (by decide)
    exact sendable_append (sendable_numberProperty h.sessionExpiryInterval fun _ => trivial)
      (sendable_userProperties h.userProperty)

/-! The steps of the calls compose these properties. -/

/-- The bytes of a block of properties, without its length. -/
def blockBytes (ps : List Property) : List UInt8 := ps.flatMap Property.bytes

theorem blockBytes_append (ps qs : List Property) :
    blockBytes (ps ++ qs) = blockBytes ps ++ blockBytes qs := List.flatMap_append

namespace Composer

theorem numberBytes_eq {t : PropertyType} {k : ℕ} {id : PropertyId} {n : ℕ}
    (ht : typeBytes t = [UInt8.ofNat id.code]) (hv : lengthBytes k n = (Value.number n).bytes id.format) :
    numberBytes t k n = blockBytes (numberProperty id n) := by
  unfold numberBytes blockBytes numberProperty
  by_cases hn : n ≠ 0
  · rw [if_pos hn, if_pos hn, ht, hv]
    simp [Property.bytes]
  · rw [if_neg hn, if_neg hn]
    rfl

theorem flagBytes_eq {t : PropertyType} {id : PropertyId} (flag : Bool)
    (ht : typeBytes t = [UInt8.ofNat id.code]) (hid : id.format = .byte) :
    flagBytes t flag = blockBytes (flagProperty id flag) := by
  unfold flagBytes blockBytes flagProperty
  cases flag with
  | false => rfl
  | true =>
    simp only [if_true, ht, List.flatMap_cons, List.flatMap_nil, Property.bytes, hid]
    rfl

theorem textBytes_eq {t : PropertyType} {id : PropertyId} (text : Option (List UInt8))
    (ht : typeBytes t = [UInt8.ofNat id.code]) (hid : id.format = .string) :
    textBytes t text = blockBytes (textProperty id text) := by
  unfold textBytes blockBytes textProperty
  cases text with
  | none => rfl
  | some text =>
    simp only [ht, List.flatMap_cons, List.flatMap_nil, Property.bytes, hid, List.append_nil]
    rfl

theorem userBytes_eq (l : UserProperty) : userBytes l = blockBytes (userProperties l) := by
  unfold userBytes blockBytes userProperties
  rw [List.flatMap_map]
  apply congrArg (List.flatMap · _)
  funext p
  simp [Property.bytes, Value.bytes, PropertyId.format, countedString, typeBytes, PropertyType.code,
    PropertyId.code]

theorem appendNonzero_block {t : PropertyType} {k : ℕ} {id : PropertyId} (n : ℕ)
    (ht : typeBytes t = [UInt8.ofNat id.code]) (hv : lengthBytes k n = (Value.number n).bytes id.format) :
    Extends (appendNonzero t k n) (blockBytes (numberProperty id n)) := by
  rw [← numberBytes_eq ht hv]
  exact appendNonzero_extends t k n

theorem appendFlag_block {t : PropertyType} {id : PropertyId} (flag : Bool)
    (ht : typeBytes t = [UInt8.ofNat id.code]) (hid : id.format = .byte) :
    Extends (appendFlag t flag) (blockBytes (flagProperty id flag)) := by
  rw [← flagBytes_eq flag ht hid]
  exact appendFlag_extends t flag

theorem appendOptional_block {t : PropertyType} {id : PropertyId} (text : Option (List UInt8))
    (ht : typeBytes t = [UInt8.ofNat id.code]) (hid : id.format = .string) :
    Extends (appendOptional t text) (blockBytes (textProperty id text)) := by
  rw [← textBytes_eq text ht hid]
  exact appendOptional_extends t text

theorem appendUserProperty_block (l : UserProperty) :
    Extends (appendUserProperty l) (blockBytes (userProperties l)) := by
  rw [← userBytes_eq]
  exact appendUserProperty_extends l

theorem block_cons {f : Composer → Bool × Composer} {steps : List (Composer → Bool × Composer)}
    {ps qs : List Property} (h : Extends f (blockBytes ps))
    (h' : Extends (chain steps) (blockBytes qs)) :
    Extends (chain (f :: steps)) (blockBytes (ps ++ qs)) := by
  rw [blockBytes_append]
  exact extends_cons h h'

theorem connectionProperties_extends (p : ConnectionProperty) :
    Extends (chain (connectionProperties p)) (blockBytes p.list) :=
  block_cons (appendNonzero_block _ rfl rfl) <| block_cons (appendNonzero_block _ rfl rfl) <|
  block_cons (appendNonzero_block _ rfl rfl) <| block_cons (appendNonzero_block _ rfl rfl) <|
  block_cons (appendFlag_block _ rfl rfl) <| block_cons (appendFlag_block _ rfl rfl)
    (extends_single (appendUserProperty_block _))

theorem willProperties_extends (p : WillProperty) :
    Extends (chain (willProperties p)) (blockBytes p.list) :=
  block_cons (appendNonzero_block _ rfl rfl) <| block_cons (appendFlag_block _ rfl rfl) <|
  block_cons (appendNonzero_block _ rfl rfl) <| block_cons (appendOptional_block _ rfl rfl) <|
  block_cons (appendOptional_block _ rfl rfl) <| block_cons (appendOptional_block _ rfl rfl)
    (extends_single (appendUserProperty_block _))

theorem publishProperties_extends (property : Option PublishProperty)
    (respInfo : Option (List UInt8)) :
    Extends (chain (publishProperties property respInfo))
      (blockBytes (PublishProperty.list property respInfo)) :=
  match property with
  | none => extends_nothing
  | some _ =>
    block_cons (appendFlag_block _ rfl rfl) <| block_cons (appendNonzero_block _ rfl rfl) <|
    block_cons (appendNonzero_block _ rfl rfl) <| block_cons (appendOptional_block _ rfl rfl) <|
    block_cons (appendOptional_block _ rfl rfl) <| block_cons (appendUserProperty_block _)
      (extends_single (appendOptional_block _ rfl rfl))

theorem subscribeProperties_extends {property : Option SubscribeProperty}
    (h : ∀ p, property = some p → p.subscribeId < 128^4) :
    Extends (chain (subscribeProperties property)) (blockBytes (SubscribeProperty.list property)) := by
  cases property with
  | none => exact extends_nothing
  | some p =>
    exact block_cons (appendNonzero_block _ rfl (generateVariableLen_encode (h p rfl)))
      (extends_single (appendUserProperty_block _))

/-- The reason is written in front of the block, over the zero that was there. -/
theorem disconnectProperties_drafted {property : Option DisconnectProperty} {s : Composer}
    {c : Connection} {b : UInt8} (h : Drafts s c ([0] ++ [b])) :
    Drafted (chain (disconnectProperties 5 property) s) c
      ([UInt8.ofNat ((property.map DisconnectProperty.disconnectReason).getD 0)] ++
        ([b] ++ blockBytes (DisconnectProperty.list property))) := by
  cases property with
  | none => exact Or.inl ⟨rfl, h⟩
  | some p =>
    have hblock : Extends (chain [appendNonzero .sessionExpiryInterval 4 p.sessionExpiryInterval,
        appendUserProperty p.userProperty]) (blockBytes (DisconnectProperty.list (some p))) :=
      block_cons (appendNonzero_block _ rfl rfl) (extends_single (appendUserProperty_block _))
    have hsteps : Drafted (chain [appendNonzero .sessionExpiryInterval 4 p.sessionExpiryInterval,
        appendUserProperty p.userProperty] s) c
          ([0] ++ ([b] ++ blockBytes (DisconnectProperty.list (some p)))) := by
      have := hblock s c _ h
      rwa [List.append_assoc] at this
    have hlast : chain (disconnectProperties 5 (some p)) s =
        Composer.andThen (chain [appendNonzero .sessionExpiryInterval 4 p.sessionExpiryInterval,
          appendUserProperty p.userProperty] s) fun s => (true, if p.disconnectReason ≠ 0 then
            s.write 5 [UInt8.ofNat p.disconnectReason] else s) := rfl
    rw [hlast]
    apply hsteps.andThen (by simp)
    intro t ht
    left
    refine ⟨rfl, ?_⟩
    dsimp only [Option.map_some, Option.getD_some]
    by_cases hr : p.disconnectReason ≠ 0
    · rw [if_pos hr]
      exact @Drafts.overwrite t c [] [0] _ ht [UInt8.ofNat p.disconnectReason] rfl
    · rw [if_neg hr]
      rw [not_not] at hr
      rw [hr]
      exact ht

end Composer

end EspMqtt
