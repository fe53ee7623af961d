import EspMqtt.PercentDecode
import EspMqtt.UserPropertyBlock

/-! The lists of user properties that an application makes, and those it reads. -/
namespace EspMqtt

/-- `esp_mqtt5_user_property_item_t`; `none` is `NULL`. -/
structure UserPropertyItem where
  key : Option CString
  value : Option CString

/-- The loop of `esp_mqtt5_client_set_user_property`; `none` is the way to `err`. -/
def setItems : List UserPropertyItem → List (List UInt8 × List UInt8) → List Bool →
    Option (List (List UInt8 × List UInt8)) × List Bool
  | [], list, allocs => (some list, allocs)
  | item :: items, list, allocs =>
    match item.key, item.value with
    | some key, some value =>
      -- the item, its key and its value
      match callocs 3 allocs with
      | (true, allocs) => setItems items (list ++ [(key.text, value.text)]) allocs
      | (false, allocs) => (none, allocs)
    -- an item without one of them is left out
    | _, _ => setItems items list allocs

/-- `esp_mqtt5_client_set_user_property` on an array of `item_num` items or more. -/
def espMqtt5ClientSetUserProperty (userProperty : UserProperty) (item : Option (List UserPropertyItem))
    (itemNum : UInt8) (allocs : List Bool) : EspErr × UserProperty × List Bool :=
  match item with
  | none => (.fail, userProperty, allocs)
  | some item =>
    if itemNum = 0 then (.fail, userProperty, allocs)
    else
      match callocs (if userProperty.isNone then 1 else 0) allocs with
      | (false, allocs) => (.noMem, none, allocs)
      | (true, allocs) =>
        match setItems (item.take itemNum.toNat) (userProperty.getD []) allocs with
        | (some list, allocs) => (.ok, some list, allocs)
        | (none, allocs) => (.noMem, none, allocs)

/-- `esp_mqtt5_client_get_user_property_count`. -/
def espMqtt5ClientGetUserPropertyCount (userProperty : UserProperty) : UInt8 :=
  (userProperty.getD []).foldl (fun count _ => count+1) 0

/-- What `strlen` takes for the string that begins with these bytes. -/
def stringOf (bytes : List UInt8) : List UInt8 := bytes.takeWhile (· ≠ 0)

/-- The loop of `esp_mqtt5_client_get_user_property`, with so many places left in the array. -/
def copyItems : ℕ → List (List UInt8 × List UInt8) → List Bool → Option (List (List UInt8 × List UInt8))
  | _, [], _ => some []
  | 0, _ :: _, _ => some []
  | num+1, (key, value) :: list, allocs =>
    match callocs 2 allocs with
    | (true, allocs) => (copyItems num list allocs).map ((stringOf key, stringOf value) :: ·)
    | (false, _) => none

/-- `esp_mqtt5_client_get_user_property`: what it returns, writes to the array and leaves in
`*item_num`. -/
def espMqtt5ClientGetUserProperty (userProperty : UserProperty) (item : Bool) (itemNum : UInt8)
    (allocs : List Bool) : EspErr × List (List UInt8 × List UInt8) × UInt8 :=
  match userProperty with
  | none => (.fail, [], itemNum)
  | some list =>
    if item ∧ itemNum ≠ 0 then
      match copyItems itemNum.toNat list allocs with
      | some items => (.ok, items, UInt8.ofNat items.length)
      | none => (.noMem, [], itemNum)
    else (.fail, [], itemNum)

/-! Where the lists come from. -/

/-- A list that was in a packet. -/
inductive Received : UserProperty → Prop
  | ack {fuel : ℕ} {p : PropertySection} {allocs : List Bool} {list : UserProperty}
      (h : mqtt5MsgGetUserProperty fuel p allocs = .returned list) : Received list
  | connack {fuel : ℕ} {buffer : List UInt8} {len : ℕ} {t : ConnackInfo} {r : ConnackParse}
      (h : espMqtt5ParseConnack fuel buffer len t = some r) : Received r.info.userProperty
  | publish {fuel : ℕ} {buffer : List UInt8} {len : ℕ} {allocs : List Bool} {p : PublishPayload}
      (h : mqtt5GetPublishPropertyPayload fuel buffer len allocs = some (some p)) :
      Received p.resp.userProperty

/-- A list that calls of `esp_mqtt5_client_set_user_property` build, on their own or behind one
of these. -/
inductive Built (first : UserProperty → Prop) : UserProperty → Prop
  | null : Built first none
  | received {list : UserProperty} (h : first list) : Built first list
  | set {list : UserProperty} (h : Built first list) (item : Option (List UserPropertyItem)) (itemNum : UInt8)
      (allocs : List Bool) : Built first (espMqtt5ClientSetUserProperty list item itemNum allocs).2.1

/-- With memory these items are read when as many as are counted are asked for. -/
def ReadsBack (userProperty : UserProperty) (items : List (List UInt8 × List UInt8)) : Prop :=
  ∀ allocs : List Bool, (∀ a ∈ allocs, a = true) →
    let r := espMqtt5ClientGetUserProperty userProperty true (espMqtt5ClientGetUserPropertyCount userProperty) allocs
    r.1 = .ok ∧ r.2.1 = items

/-- Neither string of an item holds a NUL. -/
def NulFree (item : List UInt8 × List UInt8) : Prop := 0 ∉ item.1 ∧ 0 ∉ item.2

/-- An item by its two C strings. -/
def asStrings (item : List UInt8 × List UInt8) : List UInt8 × List UInt8 := (stringOf item.1, stringOf item.2)

/-! Counting and copying. -/

theorem getUserPropertyCount_eq (list : List (List UInt8 × List UInt8)) :
    espMqtt5ClientGetUserPropertyCount (some list) = UInt8.ofNat list.length := by
  have hcount (xs : List (List UInt8 × List UInt8)) (n : ℕ) :
      xs.foldl (fun count _ => count+1) (UInt8.ofNat n) = UInt8.ofNat (n+xs.length) := by
    induction xs generalizing n with
    | nil => rfl
    | cons x xs ih =>
      have hone : UInt8.ofNat n+1 = UInt8.ofNat (n+1) := (UInt8.ofNat_add n 1).symm
      rw [List.foldl_cons, hone, ih, List.length_cons, Nat.add_right_comm, Nat.add_assoc]
  have h := hcount list 0
  rwa [Nat.zero_add] at h

/-- With memory the first items are copied. -/
theorem copyItems_succeeds (num : ℕ) (list : List (List UInt8 × List UInt8)) {allocs : List Bool}
    (h : ∀ a ∈ allocs, a = true) : copyItems num list allocs = some ((list.take num).map asStrings) := by
  induction list generalizing num allocs with
  | nil => rw [copyItems, List.take_nil, List.map_nil]
  | cons item list ih =>
    obtain ⟨key,value⟩ := item
    cases num with
    | zero => rfl
    | succ num =>
      obtain ⟨rest,hrest,htrue⟩ := callocs_succeed 2 h
      rw [copyItems, hrest]
      dsimp only
      rw [ih num htrue]
      rfl

/-- A list is read back up to its length modulo 256, and not at all where that is zero. -/
theorem getUserProperty_count (list : List (List UInt8 × List UInt8)) {allocs : List Bool}
    (h : ∀ a ∈ allocs, a = true) :
    espMqtt5ClientGetUserProperty (some list) true (espMqtt5ClientGetUserPropertyCount (some list)) allocs =
      if list.length % 256 = 0 then (.fail, [], UInt8.ofNat list.length)
      else (.ok, (list.take (list.length % 256)).map asStrings, UInt8.ofNat list.length) := by
  have hnum : (UInt8.ofNat list.length).toNat = list.length % 256 := UInt8.toNat_ofNat'
  have hzero : UInt8.ofNat list.length = 0 ↔ list.length % 256 = 0 := by
    rw [← UInt8.toNat_inj, hnum]
    rfl
  rw [getUserPropertyCount_eq, espMqtt5ClientGetUserProperty]
  by_cases hlen : list.length % 256 = 0
  · rw [if_pos hlen, if_neg fun hh => hh.2 (hzero.mpr hlen)]
  · rw [if_neg hlen, if_pos ⟨rfl, fun hh => hlen (hzero.mp hh)⟩, copyItems_succeeds _ _ h]
    dsimp only
    rw [hnum, List.length_map, List.length_take, Nat.min_eq_left (Nat.mod_le _ _), ← hnum, UInt8.ofNat_toNat]

theorem asStrings_eq_iff (item : List UInt8 × List UInt8) : asStrings item = item ↔ NulFree item := by
  rw [asStrings, Prod.ext_iff, stringOf, stringOf, takeWhile_noNul, takeWhile_noNul, NulFree]

theorem map_asStrings_eq_iff (list : List (List UInt8 × List UInt8)) :
    list.map asStrings = list ↔ ∀ item ∈ list, NulFree item := by
  have hid : list.map asStrings = list ↔ list.map asStrings = list.map id := by rw [List.map_id]
  rw [hid, List.map_inj_left]
  exact forall₂_congr fun item _ => asStrings_eq_iff item

/-- As many items as a list has come back from it only if a byte can count them. -/
theorem readsBack_iff {list items : List (List UInt8 × List UInt8)} (hne : list ≠ [])
    (hlen : items.length = list.length) :
    ReadsBack (some list) items ↔ list.length ≤ 255 ∧ list.map asStrings = items := by
  have hpos := List.length_pos_of_ne_nil hne
  constructor
  · intro h
    obtain ⟨hok,hread⟩ := h [] (by simp)
    rw [getUserProperty_count list (by simp)] at hok hread
    by_cases hzero : list.length % 256 = 0
    · rw [if_pos hzero] at hok
      cases hok
    · rw [if_neg hzero] at hread
      have hcount := congrArg List.length hread
      rw [List.length_map, List.length_take, hlen] at hcount
      -- the remainder is the length itself
      have hfew : list.length ≤ 255 := by omega
      rw [Nat.mod_eq_of_lt (by omega), List.take_length] at hread
      exact ⟨hfew, hread⟩
  · rintro ⟨hfew,hread⟩ allocs hmemory
    rw [getUserProperty_count list hmemory, Nat.mod_eq_of_lt (by omega), if_neg (by omega), List.take_length]
    exact ⟨rfl, hread⟩

/-! What a call adds. -/

theorem setItems_nulFree : ∀ (items : List UserPropertyItem) (list : List (List UInt8 × List UInt8))
    (allocs : List Bool), (∀ item ∈ list, NulFree item) →
      ∀ list', (setItems items list allocs).1 = some list' → ∀ item ∈ list', NulFree item
  | [], list, allocs, h, list', hlist => by
    cases hlist
    exact h
  -- only an item with both strings reaches the list
  | ⟨some key, some value⟩ :: items, list, allocs, h, list', hlist => by
    rw [setItems] at hlist
    dsimp only at hlist
    split at hlist
    · refine setItems_nulFree items _ _ (fun item hitem => ?_) list' hlist
      rcases List.mem_append.mp hitem with hold | hnew
      · exact h item hold
      · rw [List.mem_singleton.mp hnew]
        exact ⟨key.noNul, value.noNul⟩
    · exact absurd hlist (by simp)
  | ⟨none, value⟩ :: items, list, allocs, h, list', hlist => setItems_nulFree items list allocs h list' hlist
  | ⟨some key, none⟩ :: items, list, allocs, h, list', hlist => setItems_nulFree items list allocs h list' hlist

/-- The calls copy C strings, so no list of theirs holds a NUL. -/
theorem Built.nulFree {userProperty : UserProperty} (h : Built (fun _ => False) userProperty) :
    ∀ list, userProperty = some list → ∀ item ∈ list, NulFree item := by
  induction h with
  | null => exact fun list hlist => by cases hlist
  | received h => exact h.elim
  | set h item itemNum allocs ih =>
    rename_i before
    intro list hlist
    have hbefore : ∀ item ∈ before.getD [], NulFree item := by
      cases before with
      | none => simp
      | some items => exact ih items rfl
    unfold espMqtt5ClientSetUserProperty at hlist
    cases item with
    | none => exact ih list hlist
    | some item =>
      dsimp only at hlist
      split at hlist
      · exact ih list hlist
      · split at hlist
        · cases hlist
        · rename_i allocs' _
          have hset := setItems_nulFree (item.take itemNum.toNat) (before.getD []) allocs' hbefore
          split at hlist
          · rename_i made _ hmade
            cases hlist
            exact hset _ (by rw [hmade])
          · cases hlist

/-- A list that is not empty comes back in full exactly if it has at most 255 items, none of them
with a NUL in a string.  No call puts one there, and read as C strings the items need not be
without. -/
theorem user_properties_read_back_iff (userProperty : UserProperty) (hbuilt : Built Received userProperty)
    (list : List (List UInt8 × List UInt8)) (hlist : userProperty = some list) (hne : list ≠ []) :
    (ReadsBack userProperty list ↔ list.length ≤ 255 ∧ ∀ item ∈ list, NulFree item) ∧
    (ReadsBack userProperty (list.map asStrings) ↔ list.length ≤ 255) ∧
    (Built (fun _ => False) userProperty → ∀ item ∈ list, NulFree item) := by
  subst hlist
  refine ⟨?_, ?_, fun hcalls => hcalls.nulFree list rfl⟩
  · rw [readsBack_iff hne rfl, map_asStrings_eq_iff]
  · rw [readsBack_iff hne (List.length_map _)]
    exact and_iff_left rfl

/-- The key `k` with the value `v`. -/
def sampleItem : UserPropertyItem :=
  ⟨some ⟨[0x6b], by decide, by decide⟩, some ⟨[0x76], by decide, by decide⟩⟩

theorem user_properties_read_back_single :
    ReadsBack (espMqtt5ClientSetUserProperty none (some [sampleItem]) 1 []).2.1 [([0x6b], [0x76])] :=
  (user_properties_read_back_iff (espMqtt5ClientSetUserProperty none (some [sampleItem]) 1 []).2.1
    (.set .null (some [sampleItem]) 1 []) [([0x6b], [0x76])] rfl (List.cons_ne_nil _ _)).1.mpr
    ⟨by decide, by simp [NulFree]⟩

/-- Two calls, with 255 items and with one, make a list that is counted as empty. -/
theorem user_property_count_wraps :
    let list := List.replicate 256 (([0x6b], [0x76]) : List UInt8 × List UInt8)
    Built Received (some list) ∧ list ≠ [] ∧ espMqtt5ClientGetUserPropertyCount (some list) = 0 ∧
      espMqtt5ClientGetUserProperty (some list) true 0 [] = (.fail, [], 0) ∧ ¬ ReadsBack (some list) list := by
  intro list
  have hlist : list ≠ [] := List.cons_ne_nil _ _
  have hbuilt := Built.set (Built.set (Built.null : Built Received none) (some (List.replicate 255 sampleItem)) 255 [])
    (some [sampleItem]) 1 []
  have hmade : (espMqtt5ClientSetUserProperty
      (espMqtt5ClientSetUserProperty none (some (List.replicate 255 sampleItem)) 255 []).2.1
      (some [sampleItem]) 1 []).2.1 = some list := by decide +kernel
  rw [hmade] at hbuilt
  refine ⟨hbuilt, hlist, by decide +kernel, by decide +kernel, fun h => ?_⟩
  have hfew := ((readsBack_iff hlist rfl).mp h).1
  exact absurd hfew (by decide +kernel)

end EspMqtt
