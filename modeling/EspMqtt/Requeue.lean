import EspMqtt.OutboxStore

/-! `mqtt_requeue_transmitted_messages`: the loop finds an item by its state and updates it by
its packet id, and ends because an item that is not QUEUED is the first with its id. -/
namespace EspMqtt.MqttOutbox

open OldestMatch

/-- What `outbox_item_get_data` hands out of an item; the id goes through a `uint16_t`. -/
structure ItemData where
  len : ℤ
  msgId : UInt16
  msgType : ℤ
  qos : ℤ

def outboxItemGetData (item : Item) : ItemData := ⟨item.len, UInt16.ofInt item.msgId, item.msgType, item.msgQos⟩

/-- `MQTT_MSG_TYPE_PUBLISH` -/
def msgTypePublish : ℤ := 3

/-- `mqtt_set_dup` through the data pointer of the item at an address. -/
def setDup (outbox : OutboxT) (address : ℕ) : OutboxT :=
  {outbox with list := outbox.list.map fun item =>
    if item.address = address then {item with buffer := mqttSetDup item.buffer} else item}

/-- How a round of the loop ends. -/
inductive Round where
  | finished
  | broken (outbox : OutboxT)
  | again (outbox : OutboxT)

/-- One round of the loop.  An item always has a buffer, so the data pointer is not NULL. -/
def requeueRound (outbox : OutboxT) : Round :=
  match outboxDequeue outbox .transmitted with
  | none => .finished
  | some (item, _) =>
    let data := outboxItemGetData item
    -- the mark goes to the item found, the new state to the first item with its id
    let outbox := if data.msgType = msgTypePublish ∧ 0 < data.qos then setDup outbox item.address else outbox
    let r := outboxSetPending outbox data.msgId.toNat .queued
    if r.1 then .again r.2 else .broken r.2

/-- `mqtt_requeue_transmitted_messages`, where it comes to an end. -/
inductive Requeues : OutboxT → OutboxT → Prop
  | finished {outbox} (hround : requeueRound outbox = .finished) : Requeues outbox outbox
  | broken {outbox outbox'} (hround : requeueRound outbox = .broken outbox') : Requeues outbox outbox'
  | again {outbox outbox' final} (hround : requeueRound outbox = .again outbox') (hrest : Requeues outbox' final) :
      Requeues outbox final

/-- The states that calls on the outbox, and DUP marks on stored packets, lead to. -/
inductive Reached : OutboxT → Prop
  | init : Reached outboxInit
  | call {outbox} (h : Reached outbox) (op : Op) : Reached (op.run outbox).2
  | marked {outbox} (h : Reached outbox) (address : ℕ) : Reached (setDup outbox address)

/-- An item that is not QUEUED is the first with its id. -/
def FirstWithId (list : List Item) : Prop :=
  ∀ l₁ item l₂, list = l₁ ++ item :: l₂ → item.pending ≠ .queued → ∀ other ∈ l₁, other.msgId ≠ item.msgId

/-- `mqtt_enqueue` takes the id of an item from the `uint16_t` of the client's state. -/
def PacketIds (list : List Item) : Prop := ∀ item ∈ list, 0 ≤ item.msgId ∧ item.msgId < 65536

/-- What has become of an item: a TRANSMITTED one waits again, with the DUP bit set in its first
byte if it is a PUBLISH with QoS above 0, and nothing else of it or of any other has changed. -/
structure Item.WaitsAgain (item later : Item) : Prop where
  queued : item.pending = .transmitted → later.pending = .queued
  marked : item.pending = .transmitted → item.msgType = msgTypePublish → 0 < item.msgQos →
    item.buffer ≠ [] → WithDup item.buffer later.buffer
  unmarked : ¬ (item.msgType = msgTypePublish ∧ 0 < item.msgQos) → later.buffer = item.buffer
  others : item.pending ≠ .transmitted → later = item
  rest : later = {item with pending := later.pending, buffer := later.buffer}

/-- What the loop makes of an item. -/
def Item.requeued (item : Item) : Item :=
  if item.pending = .transmitted then
    {item with
      pending := .queued
      buffer := if item.msgType = msgTypePublish ∧ 0 < item.msgQos then mqttSetDup item.buffer else item.buffer}
  else item

section Reachability

theorem Item.requeued_waits (item : Item) : item.WaitsAgain item.requeued := by
  unfold Item.requeued
  by_cases hp : item.pending = .transmitted
  · rw [if_pos hp]
    refine ⟨fun _ => rfl, fun _ ht hq hne => ?_, fun hno => if_neg hno, fun hno => absurd hp hno, rfl⟩
    dsimp only
    rw [if_pos ⟨ht,hq⟩]
    exact withDup_mqttSetDup hne
  · rw [if_neg hp]
    exact ⟨fun h => absurd h hp, fun h => absurd h hp, fun _ => rfl, fun _ => rfl, rfl⟩

theorem mqttSetDup_length (buffer : List UInt8) : (mqttSetDup buffer).length = buffer.length := by
  cases buffer <;> rfl

/-- A view of the items that DUP marks do not touch. -/
theorem setDup_map {β : Type*} (outbox : OutboxT) (address : ℕ) {view : Item → β}
    (hview : ∀ item, view {item with buffer := mqttSetDup item.buffer} = view item) :
    (setDup outbox address).list.map view = outbox.list.map view := by
  rw [setDup, List.map_map]
  refine List.map_congr_left fun item _ => ?_
  rw [Function.comp_apply]
  split
  · exact hview item
  · rfl

theorem Sound.setDup {outbox : OutboxT} (h : Sound outbox) (address : ℕ) : Sound (setDup outbox address) := by
  refine ⟨?_, ?_, ?_, ?_⟩
  · rw [OutboxT.addresses, setDup_map outbox address fun _ => rfl]
    exact h.distinct
  · intro item hitem
    obtain ⟨item,hmem,rfl⟩ := List.mem_map.mp hitem
    split
    · rw [mqttSetDup_length]
      exact h.lens item hmem
    · exact h.lens item hmem
  · rw [OutboxT.held, setDup_map outbox address fun item => mqttSetDup_length item.buffer]
    exact h.fits
  · rw [setDup_map outbox address fun _ => rfl]
    exact h.size

theorem Reached.sound {outbox : OutboxT} (h : Reached outbox) : Sound outbox := by
  induction h with
  | init => exact sound_init
  | call _ op ih => exact (run_meets ih op).2
  | marked _ address ih => exact ih.setDup address

/-- The same, said of every two items in their order. -/
def Apart (earlier later : Item) : Prop := later.pending ≠ .queued → earlier.msgId ≠ later.msgId

theorem firstWithId_iff {list : List Item} : FirstWithId list ↔ list.Pairwise Apart := by
  constructor
  · intro h
    induction list using List.reverseRecOn with
    | nil => exact List.Pairwise.nil
    | append_singleton list item ih =>
      rw [List.pairwise_append]
      refine ⟨ih fun l₁ x l₂ hl hx => ?_, List.pairwise_singleton _ _, ?_⟩
      · exact h l₁ x (l₂ ++ [item]) (by rw [hl, List.append_assoc]; rfl) hx
      · intro earlier hearlier later hlater hpending
        rw [List.mem_singleton.mp hlater] at hpending ⊢
        exact h list item [] rfl hpending earlier hearlier
  · rintro h l₁ item l₂ rfl hpending other hother
    exact (List.pairwise_append.mp h).2.2 other hother item List.mem_cons_self hpending

/-- Giving the first item with an id another state keeps every such item first. -/
theorem apart_changes {list later : List Item} {item : Item} {msgId : ℤ} {f : Item → Item}
    (h : list.Pairwise Apart) (hset : Changes (fun item => item.msgId == msgId) f list item later)
    (hid : (f item).msgId = item.msgId) : later.Pairwise Apart := by
  obtain ⟨l₁,l₂,rfl,hitem,hbefore,rfl⟩ := hset
  have hitem := beq_iff_eq.mp hitem
  obtain ⟨h₁,h₂,h₁₂⟩ := List.pairwise_append.mp h
  obtain ⟨hafter,htail⟩ := List.pairwise_cons.mp h₂
  refine List.pairwise_append.mpr ⟨h₁, List.pairwise_cons.mpr ⟨?_, htail⟩, ?_⟩
  · intro other hother hpending
    rw [hid]
    exact hafter other hother hpending
  · intro earlier hearlier other hother
    rcases List.mem_cons.mp hother with rfl | hother
    · intro _
      rw [hid, hitem]
      simpa using hbefore earlier hearlier
    · exact h₁₂ earlier hearlier other (List.mem_cons_of_mem _ hother)

theorem apart_meets {op : Op} {outbox : OutboxT} {answer : Answer} {later : List Item}
    (h : outbox.list.Pairwise Apart) (hmeets : Meets op outbox answer later) : later.Pairwise Apart := by
  cases hmeets with
  | enqueued hcarries htick hqueued hnew =>
    -- a new item is QUEUED, so it may share its id with one in front of it
    refine List.pairwise_append.mpr ⟨h, List.pairwise_singleton _ _, ?_⟩
    intro earlier hearlier later hlater hpending
    rw [List.mem_singleton.mp hlater] at hpending
    exact absurd hqueued hpending
  | refused hrefused => exact h
  | get hfound => exact h
  | dequeue hfound => exact h
  | setPending hset => exact apart_changes h hset rfl
  | notPending hnone => exact h
  | setTick hset => exact apart_changes h hset rfl
  | notTick hnone => exact h
  | delete htaken => exact h.sublist htaken.sublist
  | notDelete hnone => exact h
  | deleteItem htaken => exact h.sublist htaken.sublist
  | notDeleteItem hnone => exact h
  | deleteMessageType => exact h.sublist List.filter_sublist
  | deleteSingleExpired htaken => exact h.sublist htaken.sublist
  | notExpired hnone => exact h
  | deleteExpired => exact h.sublist List.filter_sublist
  | deleteAllItems => exact List.Pairwise.nil

theorem Reached.apart {outbox : OutboxT} (h : Reached outbox) : outbox.list.Pairwise Apart := by
  induction h with
  | init => exact List.Pairwise.nil
  | call hreached op ih => exact apart_meets ih (run_meets hreached.sound op).1
  | marked hreached address ih =>
    rw [setDup, List.pairwise_map]
    refine ih.imp fun {a b} hab => ?_
    unfold Apart at hab ⊢
    split <;> split <;> exact hab

end Reachability

section Rounds
variable {outbox : OutboxT} {l₁ l₂ : List Item} {item : Item}

/-- A DUP mark falls on the item with the address and on no other. -/
theorem setDup_split (h : Sound outbox) (hl : outbox.list = l₁ ++ item :: l₂) :
    setDup outbox item.address =
      {outbox with list := l₁ ++ {item with buffer := mqttSetDup item.buffer} :: l₂} := by
  have hdistinct := h.distinct
  rw [OutboxT.addresses, hl, List.map_append, List.map_cons, List.nodup_append, List.nodup_cons] at hdistinct
  obtain ⟨-,⟨hafter,-⟩,hbefore⟩ := hdistinct
  have hother (list : List Item) (hne : ∀ other ∈ list, other.address ≠ item.address) :
      (list.map fun other => if other.address = item.address then
        {other with buffer := mqttSetDup other.buffer} else other) = list := by
    refine (List.map_congr_left fun other hmem => ?_).trans (List.map_id list)
    rw [if_neg (hne other hmem)]
    rfl
  have hfirst := hother l₁ fun other hmem => hbefore _ (List.mem_map_of_mem hmem) _ List.mem_cons_self
  have hlast := hother l₂ fun other hmem heq => hafter (heq ▸ List.mem_map_of_mem hmem)
  rw [setDup, hl, List.map_append, List.map_cons, if_pos rfl, hfirst, hlast]

/-- `outbox_set_pending` by the id of an item that is the first with it. -/
theorem setPending_first (hl : outbox.list = l₁ ++ item :: l₂) (hfirst : ∀ other ∈ l₁, other.msgId ≠ item.msgId)
    (pending : PendingState) :
    outboxSetPending outbox item.msgId pending = (true, {outbox with list := l₁ ++ {item with pending} :: l₂}) := by
  have hget : outboxGet outbox item.msgId = some item := by
    rw [outboxGet, hl, List.find?_eq_some_iff_append]
    exact ⟨beq_self_eq_true _, l₁, l₂, rfl, fun other hother => by simpa using hfirst other hother⟩
  have hchange : change (fun item => {item with pending}) item.msgId outbox.list = l₁ ++ {item with pending} :: l₂ := by
    rw [hl]
    clear hl hget
    induction l₁ with
    | nil =>
      rw [List.nil_append, List.nil_append, change, if_pos (beq_self_eq_true _)]
    | cons other l₁ ih =>
      obtain ⟨hne,hrest⟩ := List.forall_mem_cons.mp hfirst
      rw [List.cons_append, List.cons_append, change, if_neg (by simpa using hne), ih hrest]
  rw [outboxSetPending, hget]
  dsimp only
  rw [hchange]

/-- A packet id survives the `uint16_t` it goes through. -/
theorem packetId_data (hid : 0 ≤ item.msgId ∧ item.msgId < 65536) :
    ((outboxItemGetData item).msgId.toNat : ℤ) = item.msgId := by
  rw [outboxItemGetData, UInt16.ofInt, UInt16.toNat_ofNat']
  omega

/-- One round turns the item it found into a QUEUED one and touches nothing else. -/
theorem requeueRound_again (h : Sound outbox) (hapart : outbox.list.Pairwise Apart) (hids : PacketIds outbox.list)
    (hl : outbox.list = l₁ ++ item :: l₂) (hitem : item.pending = .transmitted)
    (hbefore : ∀ other ∈ l₁, other.pending ≠ .transmitted) :
    requeueRound outbox = .again {outbox with list := l₁ ++ item.requeued :: l₂} := by
  have hmem : item ∈ outbox.list := by simp [hl]
  have hfirst : ∀ other ∈ l₁, other.msgId ≠ item.msgId :=
    firstWithId_iff.mpr hapart l₁ item l₂ hl (by rw [hitem]; decide)
  have hfound : outboxDequeue outbox .transmitted = some (item, item.tick) := by
    have hfind : outbox.list.find? (fun item => item.pending == .transmitted) = some item := by
      rw [List.find?_eq_some_iff_append]
      exact ⟨by simpa using hitem, l₁, l₂, hl, fun other hother => by simpa using hbefore other hother⟩
    rw [outboxDequeue, hfind]
    rfl
  have hid := packetId_data (hids item hmem)
  rw [requeueRound, hfound]
  dsimp only
  rw [hid, Item.requeued, if_pos hitem]
  by_cases hpublish : item.msgType = msgTypePublish ∧ 0 < item.msgQos
  · have hmarked : (setDup outbox item.address).list =
        l₁ ++ {item with buffer := mqttSetDup item.buffer} :: l₂ := by rw [setDup_split h hl]
    have hset := setPending_first hmarked hfirst .queued
    have hcond : (outboxItemGetData item).msgType = msgTypePublish ∧ 0 < (outboxItemGetData item).qos := hpublish
    dsimp only at hset
    rw [if_pos hcond, if_pos hpublish, hset, if_pos rfl, setDup_split h hl]
  · have hset := setPending_first hl hfirst .queued
    have hcond : ¬((outboxItemGetData item).msgType = msgTypePublish ∧ 0 < (outboxItemGetData item).qos) := hpublish
    rw [if_neg hcond, if_neg hpublish, hset, if_pos rfl]

theorem requeueRound_finished (hnone : ∀ item ∈ outbox.list, item.pending ≠ .transmitted) :
    requeueRound outbox = .finished := by
  have hfind : outbox.list.find? (fun item => item.pending == .transmitted) = none :=
    List.find?_eq_none.mpr fun item hitem => by simpa using hnone item hitem
  rw [requeueRound, outboxDequeue, hfind]
  rfl

theorem requeued_pending (item : Item) : item.requeued.pending ≠ .transmitted := by
  unfold Item.requeued
  split
  · exact PendingState.noConfusion
  · assumption

theorem requeued_of_ne {item : Item} (h : item.pending ≠ .transmitted) : item.requeued = item := if_neg h

end Rounds

section Loop

/-- The loop ends in at most one state. -/
theorem Requeues.unique {outbox a b : OutboxT} (ha : Requeues outbox a) (hb : Requeues outbox b) : a = b := by
  induction ha generalizing b with
  | finished hround =>
    cases hb with
    | finished _ => rfl
    | broken hother => rw [hround] at hother; exact Round.noConfusion hother
    | again hother _ => rw [hround] at hother; exact Round.noConfusion hother
  | broken hround =>
    cases hb with
    | finished hother => rw [hround] at hother; exact Round.noConfusion hother
    | broken hother => rw [hround] at hother; exact Round.broken.inj hother
    | again hother _ => rw [hround] at hother; exact Round.noConfusion hother
  | again hround _ ih =>
    cases hb with
    | finished hother => rw [hround] at hother; exact Round.noConfusion hother
    | broken hother => rw [hround] at hother; exact Round.noConfusion hother
    | again hother hrest =>
      rw [hround] at hother
      exact ih (Round.again.inj hother ▸ hrest)

theorem requeued_address (item : Item) : item.requeued.address = item.address := by
  unfold Item.requeued
  split <;> rfl

theorem requeued_msgId (item : Item) : item.requeued.msgId = item.msgId := by
  unfold Item.requeued
  split <;> rfl

theorem requeued_len (item : Item) : item.requeued.len = item.len := by
  unfold Item.requeued
  split <;> rfl

theorem requeued_length (item : Item) : item.requeued.buffer.length = item.buffer.length := by
  unfold Item.requeued
  split
  · dsimp only
    split
    · exact mqttSetDup_length _
    · rfl
  · rfl

/-- The loop comes to its end with every TRANSMITTED item requeued.  The induction is on how
many there are. -/
theorem requeues_all : ∀ (n : ℕ) (outbox : OutboxT),
    (outbox.list.filter fun item => item.pending == .transmitted).length = n → Sound outbox →
      outbox.list.Pairwise Apart → PacketIds outbox.list →
        Requeues outbox {outbox with list := outbox.list.map Item.requeued}
  | 0, outbox, hn, _, _, _ => by
    have hnone : ∀ item ∈ outbox.list, item.pending ≠ .transmitted := by
      intro item hitem
      simpa using List.filter_eq_nil_iff.mp (List.eq_nil_of_length_eq_zero hn) item hitem
    have hsame : outbox.list.map Item.requeued = outbox.list :=
      (List.map_congr_left fun item hitem => requeued_of_ne (hnone item hitem)).trans (List.map_id _)
    rw [hsame]
    exact .finished (requeueRound_finished hnone)
  | n+1, outbox, hn, hsound, hapart, hids => by
    -- the oldest TRANSMITTED item
    have hsome : ∃ item ∈ outbox.list, item.pending = .transmitted := by
      obtain ⟨item,hitem⟩ := List.exists_mem_of_length_pos (by rw [hn]; exact Nat.succ_pos n)
      obtain ⟨hmem,htransmitted⟩ := List.mem_filter.mp hitem
      exact ⟨item, hmem, by simpa using htransmitted⟩
    obtain ⟨l₁,item,l₂,hl,hitem,hbefore⟩ : ∃ l₁ item l₂, outbox.list = l₁ ++ item :: l₂ ∧
        item.pending = .transmitted ∧ ∀ other ∈ l₁, other.pending ≠ .transmitted := by
      have holdest := find?_oldest (fun item : Item => item.pending == .transmitted) outbox.list
      cases hfind : outbox.list.find? fun item => item.pending == .transmitted with
      | none =>
        obtain ⟨item,hmem,htransmitted⟩ := hsome
        exact absurd (by simpa using htransmitted) (List.find?_eq_none.mp hfind item hmem)
      | some item =>
        rw [hfind] at holdest
        obtain ⟨l₁,l₂,hl,hitem,hbefore⟩ := holdest
        exact ⟨l₁, item, l₂, hl, by simpa using hitem, fun other hother => by simpa using hbefore other hother⟩
    have hround := requeueRound_again hsound hapart hids hl hitem hbefore
    have hset : Changes (fun other => other.msgId == item.msgId) Item.requeued outbox.list item
        (l₁ ++ item.requeued :: l₂) := by
      refine ⟨l₁, l₂, hl, beq_self_eq_true _, fun other hother => ?_, rfl⟩
      have hne := firstWithId_iff.mpr hapart l₁ item l₂ hl (by rw [hitem]; decide) other hother
      simpa using hne
    have hids' : PacketIds (l₁ ++ item.requeued :: l₂) := by
      intro other hother
      rcases hset.mem_after hother with rfl | hother
      · rw [requeued_msgId]
        exact hids item hset.mem
      · exact hids other hother
    have hcount : ((l₁ ++ item.requeued :: l₂).filter fun item => item.pending == .transmitted).length = n := by
      rw [hl, List.filter_append, List.filter_cons_of_pos (by simpa using hitem), List.length_append,
        List.length_cons] at hn
      rw [List.filter_append, List.filter_cons_of_neg (by simpa using requeued_pending item), List.length_append]
      omega
    have hrest := requeues_all n {outbox with list := l₁ ++ item.requeued :: l₂} hcount
      (hsound.of_changes hset (requeued_address item) (requeued_length item) (requeued_len item))
      (apart_changes hapart hset (requeued_msgId item)) hids'
    have hfinal : (l₁ ++ item.requeued :: l₂).map Item.requeued = outbox.list.map Item.requeued := by
      rw [hl, List.map_append, List.map_append, List.map_cons, List.map_cons,
        requeued_of_ne (requeued_pending item)]
    dsimp only at hrest
    rw [hfinal] at hrest
    exact .again hround hrest

/-- In every state an item that is not QUEUED is the first with its id.  So each round turns
the TRANSMITTED item it found into a QUEUED one, and the loop ends with exactly the TRANSMITTED
items requeued, the DUP bit set in those that are PUBLISH packets with QoS above 0. -/
theorem requeue_transmitted {outbox : OutboxT} (h : Reached outbox) :
    FirstWithId outbox.list ∧
    (PacketIds outbox.list →
      (∀ item tick, outboxDequeue outbox .transmitted = some (item, tick) → ∃ l₁ l₂,
        outbox.list = l₁ ++ item :: l₂ ∧ item.pending = .transmitted ∧
          requeueRound outbox = .again {outbox with list := l₁ ++ item.requeued :: l₂}) ∧
      Requeues outbox {outbox with list := outbox.list.map Item.requeued} ∧
      (∀ final, Requeues outbox final → final = {outbox with list := outbox.list.map Item.requeued}) ∧
      (∀ item ∈ outbox.list.map Item.requeued, item.pending ≠ .transmitted) ∧
      ∀ item ∈ outbox.list, item.WaitsAgain item.requeued) := by
  refine ⟨firstWithId_iff.mpr h.apart, fun hids => ?_⟩
  have hall := requeues_all _ outbox rfl h.sound h.apart hids
  refine ⟨fun item tick hfound => ?_, hall, fun final hfinal => hfinal.unique hall, fun item hitem => ?_,
    fun item _ => item.requeued_waits⟩
  · rw [outboxDequeue, Option.map_eq_some_iff] at hfound
    obtain ⟨found,hfind,heq⟩ := hfound
    obtain ⟨rfl,-⟩ := Prod.mk.inj heq
    obtain ⟨hitem,l₁,l₂,hl,hbefore⟩ := List.find?_eq_some_iff_append.mp hfind
    have hitem : found.pending = .transmitted := by simpa using hitem
    refine ⟨l₁, l₂, hl, hitem, ?_⟩
    exact requeueRound_again h.sound h.apart hids hl hitem fun other hother => by simpa using hbefore other hother
  · obtain ⟨other,-,rfl⟩ := List.mem_map.mp hitem
    exact requeued_pending other

theorem reached_after (ops : List Op) : Reached (after ops) := by
  induction ops using List.reverseRecOn with
  | nil => exact .init
  | append_singleton ops op ih =>
    rw [after_concat]
    exact ih.call op

theorem oneByte_len : [(0x32 : UInt8)].length ≤ 2147483647 := by decide

theorem noByte_len : ([] : List UInt8).length ≤ 2147483647 := by decide

/-- A PUBLISH with QoS 1 and a SUBSCRIBE share the id 7, and the id is marked TRANSMITTED. -/
def sharedIdOps : List Op :=
  [.enqueue ⟨[0x32], 7, 1, 3, [], oneByte_len, noByte_len⟩ 0 (some 1) true,
    .enqueue ⟨[0x32], 7, 0, 8, [], oneByte_len, noByte_len⟩ 0 (some 2) true,
    .setPending 7 .transmitted]

theorem sharedId_requeued :
    (after sharedIdOps).list.map (fun item => (item.pending, item.requeued.pending, item.requeued.buffer)) =
      [(.transmitted, .queued, [0x3a]), (.queued, .queued, [0x32])] ∧
    Requeues (after sharedIdOps) {after sharedIdOps with list := (after sharedIdOps).list.map Item.requeued} := by
  have hids : PacketIds (after sharedIdOps).list := by
    unfold PacketIds
    decide +kernel
  exact ⟨by decide +kernel, ((requeue_transmitted (reached_after sharedIdOps)).2 hids).2.1⟩

end Loop

section PacketIds

/-- `mqtt_enqueue`, as the call it makes on the outbox. -/
def mqttEnqueue (pendingMsgId : UInt16) (pendingMsgType pendingPublishQos : ℤ) (message : Message) (tick : ℤ)
    (itemAnswer : Option ℕ) (bufferAnswer : Bool) : Op :=
  .enqueue
    {message with msgId := pendingMsgId.toNat, msgType := pendingMsgType, msgQos := pendingPublishQos}
    tick itemAnswer bufferAnswer

/-- The call enqueues nothing. -/
def Op.TakesNothing (op : Op) : Prop := ∀ message tick a b, op ≠ .enqueue message tick a b

/-- The states of a client's outbox, which only `mqtt_enqueue` adds to. -/
inductive ClientReached : OutboxT → Prop
  | init : ClientReached outboxInit
  | enqueue {outbox} (h : ClientReached outbox) (pendingMsgId : UInt16) (pendingMsgType pendingPublishQos : ℤ)
      (message : Message) (tick : ℤ) (a : Option ℕ) (b : Bool) :
      ClientReached ((mqttEnqueue pendingMsgId pendingMsgType pendingPublishQos message tick a b).run outbox).2
  | call {outbox} (h : ClientReached outbox) (op : Op) (hop : op.TakesNothing) : ClientReached (op.run outbox).2
  | marked {outbox} (h : ClientReached outbox) (address : ℕ) : ClientReached (setDup outbox address)

theorem ClientReached.reached {outbox : OutboxT} (h : ClientReached outbox) : Reached outbox := by
  induction h with
  | init => exact .init
  | enqueue _ pendingMsgId pendingMsgType pendingPublishQos message tick a b ih => exact ih.call _
  | call _ op _ ih => exact ih.call op
  | marked _ address ih => exact ih.marked address

/-- The ids afterwards are ids there were, or the one the call brought. -/
theorem Meets.ids {op : Op} {outbox : OutboxT} {answer : Answer} {later : List Item}
    (hmeets : Meets op outbox answer later) {item : Item} (hitem : item ∈ later) :
    (∃ other ∈ outbox.list, item.msgId = other.msgId) ∨
      ∃ message tick a b, op = .enqueue message tick a b ∧ item.msgId = message.msgId := by
  have hsame (h : item ∈ outbox.list) : ∃ other ∈ outbox.list, item.msgId = other.msgId := ⟨item, h, rfl⟩
  cases hmeets with
  | enqueued hcarries htick hqueued hnew =>
    rcases List.mem_append.mp hitem with h | h
    · exact Or.inl (hsame h)
    · rw [List.mem_singleton.mp h]
      exact Or.inr ⟨_, _, _, _, rfl, hcarries.msgId⟩
  | refused hrefused => exact Or.inl (hsame hitem)
  | get hfound => exact Or.inl (hsame hitem)
  | dequeue hfound => exact Or.inl (hsame hitem)
  | setPending hset =>
    rcases hset.mem_after hitem with rfl | h
    · exact Or.inl ⟨_, hset.mem, rfl⟩
    · exact Or.inl (hsame h)
  | notPending hnone => exact Or.inl (hsame hitem)
  | setTick hset =>
    rcases hset.mem_after hitem with rfl | h
    · exact Or.inl ⟨_, hset.mem, rfl⟩
    · exact Or.inl (hsame h)
  | notTick hnone => exact Or.inl (hsame hitem)
  | delete htaken => exact Or.inl (hsame (htaken.sublist.subset hitem))
  | notDelete hnone => exact Or.inl (hsame hitem)
  | deleteItem htaken => exact Or.inl (hsame (htaken.sublist.subset hitem))
  | notDeleteItem hnone => exact Or.inl (hsame hitem)
  | deleteMessageType => exact Or.inl (hsame (List.mem_of_mem_filter hitem))
  | deleteSingleExpired htaken => exact Or.inl (hsame (htaken.sublist.subset hitem))
  | notExpired hnone => exact Or.inl (hsame hitem)
  | deleteExpired => exact Or.inl (hsame (List.mem_of_mem_filter hitem))
  | deleteAllItems => exact absurd hitem List.not_mem_nil

/-- The ids in a client's outbox are packet ids. -/
theorem ClientReached.packetIds {outbox : OutboxT} (h : ClientReached outbox) : PacketIds outbox.list := by
  induction h with
  | init => exact fun item hitem => absurd hitem List.not_mem_nil
  | enqueue hreached pendingMsgId pendingMsgType pendingPublishQos message tick a b ih =>
    intro item hitem
    rcases (run_meets hreached.reached.sound _).1.ids hitem with ⟨other,hother,hid⟩ | ⟨_,_,_,_,hop,hid⟩
    · rw [hid]
      exact ih other hother
    · obtain ⟨rfl,-⟩ := Op.enqueue.inj hop
      have hlt := pendingMsgId.toNat_lt
      rw [hid]
      exact ⟨Int.natCast_nonneg _, by dsimp only; omega⟩
  | call hreached op hop ih =>
    intro item hitem
    rcases (run_meets hreached.reached.sound op).1.ids hitem with ⟨other,hother,hid⟩ | ⟨message,tick,a,b,heq,-⟩
    · rw [hid]
      exact ih other hother
    · exact absurd heq (hop message tick a b)
  | marked hreached address ih =>
    intro item hitem
    obtain ⟨other,hother,rfl⟩ := List.mem_map.mp hitem
    split
    · exact ih other hother
    · exact ih other hother

end PacketIds

end EspMqtt.MqttOutbox
