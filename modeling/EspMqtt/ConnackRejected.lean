import EspMqtt.Library.LastWrite
import EspMqtt.ServerCapabilities

/-! What a CONNACK that `mqtt5_msg_parse_connack_property` rejects has already changed. -/
namespace EspMqtt

/-- What a field that a property of a CONNACK sets may hold. -/
inductive ConnackField where
  | number (n : ℕ)
  | flag (b : Bool)
  | clientId (c : Option (List UInt8))
  | responseInfo (r : ResponseInfo)
  | none
  deriving DecidableEq

/-- The field that a property sets. -/
def ConnackInfo.field (t : ConnackInfo) : ConnackId → ConnackField
  | .sessionExpiryInterval => .number t.sessionExpiryInterval
  | .receiveMaximum => .number t.server.receiveMaximum
  | .maximumQos => .number t.server.maxQos
  | .retainAvailable => .flag t.server.retainAvailable
  | .maximumPacketSize => .number t.server.maximumPacketSize
  | .topicAliasMaximum => .number t.server.topicAliasMaximum
  | .wildcardSubscrAvailable => .flag t.server.wildcardSubscribeAvailable
  | .subscrIdentifierAvailable => .flag t.server.subscribeIdentifiersAvailable
  | .sharedSubscrAvailable => .flag t.server.sharedSubscribeAvailable
  | .serverKeepAlive => .number t.keepalive
  | .assignedClientIdentifier => .clientId t.clientId
  | .respInfo => .responseInfo t.server.responseInfo
  | _ => .none

/-- What its field holds once a property is stored. -/
def ConnackId.stores : ConnackId → PropertyValue → ConnackField
  | .sessionExpiryInterval, .number n | .receiveMaximum, .number n | .maximumQos, .number n
  | .maximumPacketSize, .number n | .topicAliasMaximum, .number n | .serverKeepAlive, .number n => .number n
  | .retainAvailable, .number n | .wildcardSubscrAvailable, .number n | .subscrIdentifierAvailable, .number n
  | .sharedSubscrAvailable, .number n => .flag (n != 0)
  | .assignedClientIdentifier, .string bs => .clientId (some bs)
  | .respInfo, .string bs => .responseInfo (.text bs)
  | _, _ => .none

/-- What its field holds once there was no memory for its value. -/
def ConnackId.loses : ConnackId → ConnackField
  | .assignedClientIdentifier => .clientId Option.none
  | .respInfo => .responseInfo .null
  | _ => .none

/-- How many allocations a property needs; the first User Property needs one for the list. -/
def ConnackId.allocations (hasList : Bool) : ConnackId → ℕ
  | .assignedClientIdentifier | .respInfo => 1
  | .userProperty => if hasList then 3 else 4
  | _ => 0

/-- What a property does to its field: it is stored, finds no memory, or is Response
Information that is cut off. -/
inductive ConnackStep where
  | stored (id : ConnackId) (value : PropertyValue)
  | noMemory (id : ConnackId)
  | released

def ConnackStep.id : ConnackStep → ConnackId
  | .stored id _ | .noMemory id => id
  | .released => .respInfo

/-- The properties of a section up to the first that is malformed, cut off or finds no
memory: a reading of the bytes and of the answers of `calloc`. -/
def connackSteps (p : PropertySection) : ℕ → ℕ → List Bool → Bool → List ConnackStep
  | 0, _, _, _ => []
  | k+1, o, allocs, hasList =>
    if o < p.length then
      match ConnackId.ofCode (p.byteAt o).toNat with
      | none => []
      | some id =>
        match p.readValue (PropertySection.advance o 1) id.format with
        -- the old Response Information is freed before the length of the new one is read
        | none => if id = .respInfo then [.released] else []
        | some (value, o) =>
          let n := id.allocations hasList
          -- `calloc` beyond the answers given succeeds
          if (allocs.take n).all (· == true) then
            .stored id value :: connackSteps p k o (allocs.drop n) (hasList || id == .userProperty)
          else [.noMemory id]
    else []

namespace ConnackInfo
variable {t : ConnackInfo}

/-- Allocations take their answers one after the other and change no field. -/
theorem allocAll_ok : ∀ {n : ℕ} {t : ConnackInfo}, (t.allocs.take n).all (· == true) = true →
    t.allocAll n = (true, {t with allocs := t.allocs.drop n})
  | 0, t, _ => rfl
  | n+1, t, h => by
    have halloc : t.alloc = (true, {t with allocs := t.allocs.tail}) := by
      cases hallocs : t.allocs with
      | nil => simp [alloc, hallocs]
      | cons b bs =>
        rw [hallocs, List.take_succ_cons, List.all_cons, Bool.and_eq_true] at h
        simp [alloc, hallocs, beq_iff_eq.mp h.1]
    have hrest : (t.allocs.tail.take n).all (· == true) = true := by
      cases hallocs : t.allocs with
      | nil => simp
      | cons b bs =>
        rw [hallocs, List.take_succ_cons, List.all_cons, Bool.and_eq_true] at h
        exact h.2
    rw [allocAll, halloc]
    dsimp only
    rw [allocAll_ok (t := {t with allocs := t.allocs.tail}) hrest, List.drop_tail]

theorem allocAll_failed : ∀ {n : ℕ} {t : ConnackInfo}, (t.allocs.take n).all (· == true) = false →
    ∃ allocs, t.allocAll n = (false, {t with allocs := allocs})
  | 0, t, h => absurd h (by simp)
  | n+1, t, h => by
    cases hallocs : t.allocs with
    | nil => rw [hallocs] at h; exact absurd h (by simp)
    | cons b bs =>
      rw [hallocs, List.take_succ_cons, List.all_cons] at h
      have halloc : t.alloc = (b, {t with allocs := bs}) := by simp [alloc, hallocs]
      rw [allocAll, halloc]
      cases b with
      | false => exact ⟨bs, rfl⟩
      | true =>
        have hrest : (bs.take n).all (· == true) = false := by simpa using h
        exact allocAll_failed (t := {t with allocs := bs}) hrest

/-- One field is another, the rest are what they were. -/
theorem field_eq_update {t t' : ConnackInfo} {id : ConnackId} {x : ConnackField} (hid : t'.field id = x)
    (hother : ∀ k, k ≠ id → t'.field k = t.field k) : t'.field = Function.update t.field id x := by
  funext k
  by_cases hk : k = id
  · rw [hk, Function.update_self, hid]
  · rw [Function.update_of_ne hk, hother k hk]

theorem alloc_ok {t : ConnackInfo} (h : (t.allocs.take 1).all (· == true) = true) :
    t.alloc = (true, {t with allocs := t.allocs.drop 1}) := by
  have hall := allocAll_ok h
  rw [allocAll] at hall
  generalize t.alloc = r at hall ⊢
  obtain ⟨ok,z⟩ := r
  cases ok with
  | true => exact hall
  | false => exact absurd (Prod.mk.inj hall).1 (by decide)

theorem alloc_failed {t : ConnackInfo} (h : (t.allocs.take 1).all (· == true) = false) :
    ∃ allocs, t.alloc = (false, {t with allocs := allocs}) := by
  obtain ⟨allocs,hall⟩ := allocAll_failed h
  rw [allocAll] at hall
  generalize t.alloc = r at hall ⊢
  obtain ⟨ok,z⟩ := r
  cases ok with
  | true => exact absurd (Prod.mk.inj hall).1 (by decide)
  | false => exact ⟨allocs, hall⟩

/-- A property that finds its memory is stored. -/
theorem store_stored (t : ConnackInfo) {id : ConnackId} {v : PropertyValue} (hv : id.Takes v)
    (hmemory : (t.allocs.take (id.allocations t.userProperty.isSome)).all (· == true) = true) :
    ∃ t', (t.release id).store id v = (true, t') ∧ t'.field = Function.update t.field id (id.stores v) ∧
      t'.allocs = t.allocs.drop (id.allocations t.userProperty.isSome) ∧
      t'.userProperty.isSome = (t.userProperty.isSome || id == .userProperty) := by
  cases id with
  | assignedClientIdentifier =>
    cases v with
    | string bs =>
      refine ⟨{t with clientId := some bs, allocs := t.allocs.drop 1}, ?_, ?_, rfl, (Bool.or_false _).symm⟩
      · dsimp only [release, store]
        rw [alloc_ok hmemory]
      · exact field_eq_update rfl fun k hk => by cases k <;> first | rfl | exact absurd rfl hk
    | _ => exact absurd hv (by simp [ConnackId.Takes, ConnackId.format])
  | respInfo =>
    cases v with
    | string bs =>
      refine ⟨{t with server := {t.server with responseInfo := .text bs}, allocs := t.allocs.drop 1}, ?_, ?_, rfl,
        (Bool.or_false _).symm⟩
      · dsimp only [store]
        rw [alloc_ok (t := t.release .respInfo) hmemory]
        rfl
      · exact field_eq_update rfl fun k hk => by cases k <;> first | rfl | exact absurd rfl hk
    | _ => exact absurd hv (by simp [ConnackId.Takes, ConnackId.format])
  | userProperty =>
    cases v with
    | stringPair key value =>
      have hcount : (if t.userProperty.isNone then 4 else 3) =
          ConnackId.userProperty.allocations t.userProperty.isSome := by
        cases t.userProperty <;> rfl
      refine ⟨{t with
        userProperty := some (t.userProperty.getD [] ++ [(key, value)])
        allocs := t.allocs.drop (ConnackId.userProperty.allocations t.userProperty.isSome)}, ?_, ?_, rfl,
        (Bool.or_true _).symm⟩
      · change t.setUserProperty key value = _
        rw [setUserProperty, hcount, allocAll_ok hmemory]
      · exact field_eq_update rfl fun k hk => by cases k <;> rfl
    | _ => exact absurd hv (by simp [ConnackId.Takes, ConnackId.format])
  | _ =>
    cases v <;> first
      | (simp [ConnackId.Takes, ConnackId.format] at hv; done)
      | exact ⟨_, rfl, field_eq_update rfl fun k hk => by cases k <;> first | rfl | exact absurd rfl hk, rfl,
          (Bool.or_false _).symm⟩

/-- A property that finds no memory costs its field what it held. -/
theorem store_noMemory (t : ConnackInfo) {id : ConnackId} {v : PropertyValue} (hv : id.Takes v)
    (hmemory : (t.allocs.take (id.allocations t.userProperty.isSome)).all (· == true) = false) :
    ∃ t', (t.release id).store id v = (false, t') ∧ t'.field = Function.update t.field id id.loses := by
  cases id with
  | assignedClientIdentifier =>
    cases v with
    | string bs =>
      obtain ⟨allocs,halloc⟩ := alloc_failed hmemory
      refine ⟨{t with clientId := none, allocs := allocs}, ?_, ?_⟩
      · dsimp only [release, store]
        rw [halloc]
      · exact field_eq_update rfl fun k hk => by cases k <;> first | rfl | exact absurd rfl hk
    | _ => exact absurd hv (by simp [ConnackId.Takes, ConnackId.format])
  | respInfo =>
    cases v with
    | string bs =>
      obtain ⟨allocs,halloc⟩ := alloc_failed (t := t.release .respInfo) hmemory
      refine ⟨{t with server := {t.server with responseInfo := .null}, allocs := allocs}, ?_, ?_⟩
      · dsimp only [store]
        rw [halloc]
        rfl
      · exact field_eq_update rfl fun k hk => by cases k <;> first | rfl | exact absurd rfl hk
    | _ => exact absurd hv (by simp [ConnackId.Takes, ConnackId.format])
  | userProperty =>
    cases v with
    | stringPair key value =>
      have hcount : (if t.userProperty.isNone then 4 else 3) =
          ConnackId.userProperty.allocations t.userProperty.isSome := by
        cases t.userProperty <;> rfl
      obtain ⟨allocs,hall⟩ := allocAll_failed hmemory
      refine ⟨{t with userProperty := none, allocs := allocs}, ?_, ?_⟩
      · change t.setUserProperty key value = _
        rw [setUserProperty, hcount, hall]
      · exact field_eq_update rfl fun k hk => by cases k <;> rfl
    | _ => exact absurd hv (by simp [ConnackId.Takes, ConnackId.format])
  | _ => exact absurd hmemory (by simp [ConnackId.allocations])

end ConnackInfo

/-- A value that was read has the format of its property. -/
theorem readValue_takes {p : PropertySection} {o o' : ℕ} {id : ConnackId} {v : PropertyValue}
    (h : p.readValue o id.format = some (v, o')) : id.Takes v := by
  unfold PropertySection.readValue at h
  split at h
  · rename_i bytes checked hformat
    split at h
    · exact absurd h (by simp)
    · obtain ⟨rfl,-⟩ := Prod.mk.inj (Option.some.inj h)
      exact ⟨bytes, checked, hformat⟩
  · rename_i hformat
    obtain ⟨r,-,hr⟩ := Option.map_eq_some_iff.mp h
    obtain ⟨rfl,-⟩ := Prod.mk.inj hr
    exact hformat
  · rename_i hformat
    split at h
    · exact absurd h (by simp)
    · obtain ⟨r,-,hr⟩ := Option.map_eq_some_iff.mp h
      obtain ⟨rfl,-⟩ := Prod.mk.inj hr
      exact hformat

namespace ConnackStep

/-- What a step writes into its field. -/
def write : ConnackStep → (ConnackId → ConnackField) → ConnackField
  | .stored id value, _ => id.stores value
  | .noMemory id, _ => id.loses
  | .released, file =>
    if file .respInfo = .responseInfo .null then .responseInfo .null else .responseInfo .freed

/-- The last step for a field leaves there what the field held before the CONNACK. -/
def Keeps (t : ConnackInfo) (earlier : List ConnackStep) : ConnackStep → Prop
  | .stored id value => t.field id = id.stores value
  | .noMemory id => t.field id = id.loses
  | .released => t.server.responseInfo = .null ∧ ∀ s ∈ earlier, s.id ≠ .respInfo

end ConnackStep

theorem field_respInfo (t : ConnackInfo) : t.field .respInfo = .responseInfo t.server.responseInfo := rfl

/-- Response Information that is cut off has been freed. -/
theorem field_release (t : ConnackInfo) :
    (t.release .respInfo).field = Function.update t.field .respInfo (ConnackStep.released.write t.field) := by
  refine ConnackInfo.field_eq_update ?_ fun k hk => by cases k <;> first | rfl | exact absurd rfl hk
  change ConnackField.responseInfo (if t.server.responseInfo = .null then .null else .freed) = _
  by_cases hnull : t.server.responseInfo = .null
  · rw [if_pos hnull, ConnackStep.write, field_respInfo, if_pos (congrArg ConnackField.responseInfo hnull)]
  · rw [if_neg hnull, ConnackStep.write, field_respInfo, if_neg fun h => hnull (ConnackField.responseInfo.inj h)]

theorem release_other (t : ConnackInfo) {id : ConnackId} (hid : id ≠ .respInfo) : t.release id = t := by
  cases id <;> first | rfl | exact absurd rfl hid

/-- The loop leaves in every field what the last step for it wrote. -/
theorem connackPropertyLoop_field {p : PropertySection} : ∀ {k o : ℕ} {t t' : ConnackInfo} {ok : Bool},
    connackPropertyLoop p k o t = some (ok, t') →
      t'.field = LastWrite.run ConnackStep.id ConnackStep.write t.field
        (connackSteps p k o t.allocs t.userProperty.isSome)
  | 0, _, _, _, _, h => absurd h (by simp [connackPropertyLoop])
  | k+1, o, t, t', ok, h => by
    unfold connackPropertyLoop at h
    unfold connackSteps
    by_cases ho : o < p.length
    · rw [if_pos ho] at h ⊢
      cases hcode : ConnackId.ofCode (p.byteAt o).toNat with
      | none =>
        rw [hcode] at h
        obtain ⟨-,rfl⟩ := Prod.mk.inj (Option.some.inj h)
        rfl
      | some id =>
        rw [hcode] at h
        dsimp only at h ⊢
        cases hvalue : p.readValue (PropertySection.advance o 1) id.format with
        | none =>
          rw [hvalue] at h
          obtain ⟨-,rfl⟩ := Prod.mk.inj (Option.some.inj h)
          dsimp only
          by_cases hid : id = .respInfo
          · rw [if_pos hid, hid]
            exact field_release t
          · rw [if_neg hid, release_other t hid]
            rfl
        | some r =>
          obtain ⟨value,o'⟩ := r
          rw [hvalue] at h
          dsimp only at h ⊢
          have htakes := readValue_takes hvalue
          cases hmemory : (t.allocs.take (id.allocations t.userProperty.isSome)).all (· == true) with
          | true =>
            -- the loop goes on, and the answers and the list it finds are those of the reading
            obtain ⟨u,hstore,hfield,hallocs,hlist⟩ := t.store_stored htakes hmemory
            rw [hstore] at h
            have ih := connackPropertyLoop_field h
            rw [hfield, hallocs, hlist] at ih
            rw [if_pos rfl]
            exact ih
          | false =>
            obtain ⟨u,hstore,hfield⟩ := t.store_noMemory htakes hmemory
            rw [hstore] at h
            obtain ⟨-,rfl⟩ := Prod.mk.inj (Option.some.inj h)
            rw [if_neg (by decide)]
            exact hfield
    · rw [if_neg ho] at h ⊢
      obtain ⟨-,rfl⟩ := Prod.mk.inj (Option.some.inj h)
      rfl

/-- Every step but the last stores a value of its property. -/
theorem connackSteps_stored {p : PropertySection} : ∀ {k o : ℕ} {allocs : List Bool} {hasList : Bool}
    {a b : List ConnackStep} {s : ConnackStep}, connackSteps p k o allocs hasList = a ++ s :: b →
      ∀ s' ∈ a, ∃ id value, s' = .stored id value ∧ id.Takes value
  | 0, _, _, _, a, b, s, h => absurd h (by simp [connackSteps])
  | k+1, o, allocs, hasList, a, b, s, h => by
    -- a list of one step has nothing before it
    have hone {s₁ : ConnackStep} (h : [s₁] = a ++ s :: b) : ∀ s' ∈ a, ∃ id value, s' = .stored id value ∧ id.Takes value := by
      cases a with
      | nil => exact fun s' hs' => absurd hs' List.not_mem_nil
      | cons c cs => exact absurd (congrArg List.length h) (by simp)
    unfold connackSteps at h
    split at h
    · split at h
      · exact absurd h (by simp)
      · rename_i id _
        dsimp only at h
        split at h
        · split at h
          · exact hone h
          · exact absurd h (by simp)
        · rename_i value o' hvalue
          split at h
          · cases a with
            | nil => exact fun s' hs' => absurd hs' List.not_mem_nil
            | cons c cs =>
              obtain ⟨rfl,hrest⟩ := List.cons.inj h
              intro s' hs'
              rcases List.mem_cons.mp hs' with rfl | hs'
              · exact ⟨id, value, rfl, readValue_takes hvalue⟩
              · exact connackSteps_stored hrest s' hs'
          · exact hone h
    · exact absurd h (by simp)

/-- The properties a CONNACK makes the parser go through. -/
def connackSeen (fuel : ℕ) (buffer : List UInt8) (bufferLen : ℕ) (allocs : List Bool) : List ConnackStep :=
  let p := connackSection buffer bufferLen
  if bufferLen < (getVariableLen buffer 1 bufferLen).1+connackFlagsOffset buffer bufferLen then []
  else if ((bufferLen : ℤ)-p.start) % 2^32 < p.length then []
  else connackSteps p fuel 0 allocs false

/-- The client id, the keepalive, the session expiry interval and what is known of the server
are the same, and the response information is a live string or NULL. -/
structure ConnackInfo.Unchanged (t t' : ConnackInfo) : Prop where
  clientId : t'.clientId = t.clientId
  keepalive : t'.keepalive = t.keepalive
  sessionExpiryInterval : t'.sessionExpiryInterval = t.sessionExpiryInterval
  server : t'.server = t.server
  live : t'.server.responseInfo ≠ .freed

/-- The response information is a live string or NULL, and of the properties the parser goes
through the last one for each field leaves there what it held. -/
structure ConnackInfo.Harmless (t : ConnackInfo) (steps : List ConnackStep) : Prop where
  live : t.server.responseInfo ≠ .freed
  keeps : ∀ a s b, steps = a ++ s :: b → (∀ s' ∈ b, s'.id ≠ s.id) → s.Keeps t a

theorem ConnackInfo.unchanged_iff {t t' : ConnackInfo} (hlive : t.server.responseInfo ≠ .freed) :
    t.Unchanged t' ↔ t'.field = t.field := by
  constructor
  · intro h
    funext id
    cases id <;> simp [field, h.clientId, h.keepalive, h.sessionExpiryInterval, h.server]
  · intro h
    have hfield (id : ConnackId) : t'.field id = t.field id := congrFun h id
    have hserver : t'.server = t.server := by
      refine ServerResp.eq_iff_get.mpr fun f => ?_
      cases f with
      | maximumPacketSize => exact congrArg _ (ConnackField.number.inj (hfield .maximumPacketSize))
      | receiveMaximum => exact congrArg _ (ConnackField.number.inj (hfield .receiveMaximum))
      | topicAliasMaximum => exact congrArg _ (ConnackField.number.inj (hfield .topicAliasMaximum))
      | maxQos => exact congrArg _ (ConnackField.number.inj (hfield .maximumQos))
      | retainAvailable => exact congrArg _ (ConnackField.flag.inj (hfield .retainAvailable))
      | wildcardSubscribeAvailable => exact congrArg _ (ConnackField.flag.inj (hfield .wildcardSubscrAvailable))
      | subscribeIdentifiersAvailable => exact congrArg _ (ConnackField.flag.inj (hfield .subscrIdentifierAvailable))
      | sharedSubscribeAvailable => exact congrArg _ (ConnackField.flag.inj (hfield .sharedSubscrAvailable))
      | responseInfo => exact congrArg _ (ConnackField.responseInfo.inj (hfield .respInfo))
    exact ⟨ConnackField.clientId.inj (hfield .assignedClientIdentifier),
      ConnackField.number.inj (hfield .serverKeepAlive), ConnackField.number.inj (hfield .sessionExpiryInterval),
      hserver, hserver ▸ hlive⟩

/-- What the last step for a field writes is what was there exactly when it keeps it. -/
theorem ConnackStep.write_iff {t : ConnackInfo} (hlive : t.server.responseInfo ≠ .freed) {a : List ConnackStep}
    (hstored : ∀ s ∈ a, ∃ id value, s = .stored id value ∧ id.Takes value) (s : ConnackStep) :
    s.write (LastWrite.run ConnackStep.id ConnackStep.write t.field a) = t.field s.id ↔ s.Keeps t a := by
  cases s with
  | stored id value => exact eq_comm
  | noMemory id => exact eq_comm
  | released =>
    constructor
    · intro h
      -- a stored string is what the parser frees, so none has been stored
      have hnone : ∀ s ∈ a, s.id ≠ .respInfo := by
        intro s hs hid
        obtain ⟨a',s,b,rfl,hs,hlast⟩ := LastWrite.exists_last ⟨s, hs, hid⟩
        obtain ⟨id,value,rfl,htakes⟩ := hstored s (List.mem_append_right _ List.mem_cons_self)
        obtain rfl : id = .respInfo := hs
        have htext : LastWrite.run ConnackStep.id ConnackStep.write t.field (a' ++ .stored .respInfo value :: b)
            .respInfo = ConnackId.respInfo.stores value := LastWrite.run_last hlast
        cases value with
        | string bs =>
          rw [write, htext, if_neg (by simp [ConnackId.stores])] at h
          exact hlive (ConnackField.responseInfo.inj h).symm
        | number n => exact absurd htakes (by simp [ConnackId.Takes, ConnackId.format])
        | stringPair key value => exact absurd htakes (by simp [ConnackId.Takes, ConnackId.format])
      have hfile : LastWrite.run ConnackStep.id ConnackStep.write t.field a .respInfo = t.field .respInfo :=
        LastWrite.run_untouched hnone
      refine ⟨?_, hnone⟩
      by_contra hnull
      rw [write, hfile, field_respInfo, if_neg fun h => hnull (ConnackField.responseInfo.inj h)] at h
      exact hlive (ConnackField.responseInfo.inj h).symm
    · rintro ⟨hnull,hnone⟩
      have hfile : LastWrite.run ConnackStep.id ConnackStep.write t.field a .respInfo = t.field .respInfo :=
        LastWrite.run_untouched hnone
      rw [write, hfile, field_respInfo, if_pos (by rw [hnull])]
      exact (congrArg ConnackField.responseInfo hnull).symm

theorem lastWrites_harmless {t : ConnackInfo} (hlive : t.server.responseInfo ≠ .freed) {steps : List ConnackStep}
    (hstored : ∀ a s b, steps = a ++ s :: b → ∀ s' ∈ a, ∃ id value, s' = .stored id value ∧ id.Takes value) :
    LastWrite.run ConnackStep.id ConnackStep.write t.field steps = t.field ↔ t.Harmless steps := by
  rw [LastWrite.run_eq_iff]
  constructor
  · intro h
    refine ⟨hlive, fun a s b hsteps hlast => ?_⟩
    exact (s.write_iff hlive (hstored a s b hsteps)).mp (h a s b hsteps hlast)
  · intro h a s b hsteps hlast
    exact (s.write_iff hlive (hstored a s b hsteps)).mpr (h.keeps a s b hsteps hlast)

/-- What a CONNACK leaves in the fields, and what the parser did to get there. -/
theorem mqtt5MsgParseConnackProperty_field {fuel : ℕ} {buffer : List UInt8} {bufferLen : ℕ} {t : ConnackInfo}
    {r : ConnackParse} (h : mqtt5MsgParseConnackProperty fuel buffer bufferLen t = some r) :
    r.info.field =
      LastWrite.run ConnackStep.id ConnackStep.write t.field (connackSeen fuel buffer bufferLen t.allocs) := by
  have hstart : ({t with userProperty := none} : ConnackInfo).field = t.field := by
    funext id
    cases id <;> rfl
  unfold mqtt5MsgParseConnackProperty at h
  unfold connackSeen
  dsimp only at h ⊢
  split at h
  · rename_i hshort
    rw [if_pos hshort, ← Option.some.inj h]
    exact hstart
  · rename_i hlong
    rw [if_neg hlong]
    split at h
    · rename_i hover
      rw [if_pos hover, ← Option.some.inj h]
      exact hstart
    · rename_i hinside
      rw [if_neg hinside]
      obtain ⟨⟨ok,t'⟩,hloop,rfl⟩ := Option.map_eq_some_iff.mp h
      have hfield := connackPropertyLoop_field hloop
      rw [hstart] at hfield
      exact hfield

/-- A CONNACK that is parsed, whether it is then rejected or accepted, changes nothing exactly
when it is harmless. -/
theorem connack_unchanged_iff {fuel : ℕ} {buffer : List UInt8} {bufferLen : ℕ} {t : ConnackInfo}
    {r : ConnackParse} (h : mqtt5MsgParseConnackProperty fuel buffer bufferLen t = some r) :
    t.Unchanged r.info ↔ t.Harmless (connackSeen fuel buffer bufferLen t.allocs) := by
  by_cases hlive : t.server.responseInfo = .freed
  · -- a pointer that dangles before the call dangles after it or has changed
    refine iff_of_false (fun hsame => ?_) fun hharmless => hharmless.live hlive
    have hfreed := hsame.live
    rw [hsame.server] at hfreed
    exact hfreed hlive
  · rw [ConnackInfo.unchanged_iff hlive, mqtt5MsgParseConnackProperty_field h]
    refine lastWrites_harmless hlive fun a s b hsteps => ?_
    unfold connackSeen at hsteps
    dsimp only at hsteps
    split at hsteps
    · exact absurd hsteps (by simp)
    · split at hsteps
      · exact absurd hsteps (by simp)
      · exact connackSteps_stored hsteps

/-- A client that has the response information "a". -/
def respInfoClient : ConnackInfo where
  server := {espMqtt5CreateDefaultConfig with responseInfo := .text [0x61]}
  clientId := some [0x63]
  keepalive := 120
  sessionExpiryInterval := 0
  userProperty := none
  sessionPresent := false
  reported := espMqtt5CreateDefaultConfig
  responseInfoLen := 0
  allocs := []

/-- An unknown property alone is harmless. -/
theorem unknown_property_unchanged : ∃ r,
    mqtt5MsgParseConnackProperty 2 [0x20, 4, 0, 0, 1, 0x7f] 6 respInfoClient = some r ∧ r.ok = false ∧
      respInfoClient.Unchanged r.info := by
  have hseen : connackSeen 2 [0x20, 4, 0, 0, 1, 0x7f] 6 respInfoClient.allocs = [] := by rfl
  obtain ⟨r,hr,hok⟩ : ∃ r, mqtt5MsgParseConnackProperty 2 [0x20, 4, 0, 0, 1, 0x7f] 6 respInfoClient = some r ∧
      r.ok = false := ⟨_, rfl, rfl⟩
  refine ⟨r, hr, hok, (connack_unchanged_iff hr).mpr ⟨by decide, fun a s b hsteps => ?_⟩⟩
  rw [hseen] at hsteps
  exact absurd hsteps (by simp)

/-- Response Information without its length is rejected and leaves the pointer dangling; a
Session Expiry Interval before an unknown property is rejected and stays. -/
theorem rejected_connack_changes :
    (mqtt5MsgParseConnackProperty 2 [0x20, 4, 0, 0, 1, 0x1a] 6 respInfoClient).map
      (fun r => (r.ok, r.info.server.responseInfo)) = some (false, .freed) ∧
    (mqtt5MsgParseConnackProperty 3 [0x20, 9, 0, 0, 6, 0x11, 0, 0, 0, 5, 0x7f] 11 respInfoClient).map
      (fun r => (r.ok, r.info.sessionExpiryInterval)) = some (false, 5) := by
  decide +kernel

end EspMqtt
