import EspMqtt.Library.OldestMatch
import EspMqtt.MqttOutbox

/-! The outbox as an ordered store: what each call does to the list of items, and what holds
after every sequence of calls. -/
namespace EspMqtt.MqttOutbox

open OldestMatch

/-- The item holds what the message said. -/
structure Item.Carries (item : Item) (message : Message) : Prop where
  buffer : item.buffer = message.data ++ message.remainingData
  msgId : item.msgId = message.msgId
  msgType : item.msgType = message.msgType
  msgQos : item.msgQos = message.msgQos

/-- What a call on an ordered store returns and leaves behind. -/
inductive Meets : Op → OutboxT → Answer → List Item → Prop
  | enqueued {outbox message tick itemAnswer bufferAnswer} {item : Item} (hcarries : item.Carries message)
      (htick : item.tick = tick) (hqueued : item.pending = .queued) (hnew : item.address ∉ outbox.addresses) :
      Meets (.enqueue message tick itemAnswer bufferAnswer) outbox (.item (some item)) (outbox.list ++ [item])
  | refused {outbox message tick itemAnswer bufferAnswer}
      (hrefused : calloc itemAnswer outbox = none ∨
        heapCapsMalloc bufferAnswer (int32 (message.data.length+message.remainingData.length)) outbox = false) :
      Meets (.enqueue message tick itemAnswer bufferAnswer) outbox (.item none) outbox.list
  | get {outbox msgId found} (hfound : Oldest (fun item => item.msgId == msgId) outbox.list found) :
      Meets (.get msgId) outbox (.item found) outbox.list
  | dequeue {outbox pending found} (hfound : Oldest (fun item => item.pending == pending) outbox.list found) :
      Meets (.dequeue pending) outbox (.itemTick (found.map fun item => (item, item.tick))) outbox.list
  | setPending {outbox msgId pending item later}
      (hset : Changes (fun item => item.msgId == msgId) (fun item => {item with pending}) outbox.list item later) :
      Meets (.setPending msgId pending) outbox (.err true) later
  | notPending {outbox msgId pending} (hnone : ∀ item ∈ outbox.list, item.msgId ≠ msgId) :
      Meets (.setPending msgId pending) outbox (.err false) outbox.list
  | setTick {outbox msgId tick item later}
      (hset : Changes (fun item => item.msgId == msgId) (fun item => {item with tick}) outbox.list item later) :
      Meets (.setTick msgId tick) outbox (.err true) later
  | notTick {outbox msgId tick} (hnone : ∀ item ∈ outbox.list, item.msgId ≠ msgId) :
      Meets (.setTick msgId tick) outbox (.err false) outbox.list
  | delete {outbox msgId msgType item later}
      (htaken : Takes (fun item => item.msgId == msgId && item.hasType msgType) outbox.list item later) :
      Meets (.delete msgId msgType) outbox (.err true) later
  | notDelete {outbox msgId msgType}
      (hnone : ∀ item ∈ outbox.list, (item.msgId == msgId && item.hasType msgType) = false) :
      Meets (.delete msgId msgType) outbox (.err false) outbox.list
  | deleteItem {outbox address item later}
      (htaken : Takes (fun item => item.address == address) outbox.list item later) :
      Meets (.deleteItem address) outbox (.err true) later
  | notDeleteItem {outbox address} (hnone : ∀ item ∈ outbox.list, item.address ≠ address) :
      Meets (.deleteItem address) outbox (.err false) outbox.list
  | deleteMessageType {outbox msgType} :
      Meets (.deleteMessageType msgType) outbox (.int (outbox.list.filter (Item.hasType msgType)).length)
        (outbox.list.filter fun item => !item.hasType msgType)
  | deleteSingleExpired {outbox currentTick timeout item later}
      (htaken : Takes (Item.expired currentTick timeout) outbox.list item later) :
      Meets (.deleteSingleExpired currentTick timeout) outbox (.int item.msgId) later
  | notExpired {outbox currentTick timeout} (hnone : ∀ item ∈ outbox.list, item.expired currentTick timeout = false) :
      Meets (.deleteSingleExpired currentTick timeout) outbox (.int (-1)) outbox.list
  | deleteExpired {outbox currentTick timeout} :
      Meets (.deleteExpired currentTick timeout) outbox
        (.int (outbox.list.filter (Item.expired currentTick timeout)).length)
        (outbox.list.filter fun item => !item.expired currentTick timeout)
  | deleteAllItems {outbox} : Meets .deleteAllItems outbox .void []

/-- What every outbox built by its own calls is like. -/
structure Sound (outbox : OutboxT) : Prop where
  distinct : outbox.addresses.Nodup
  lens : ∀ item ∈ outbox.list, item.len = item.buffer.length
  fits : outbox.held < 18446744073709551616
  size : outbox.size = UInt64.ofInt ((outbox.list.map Item.len).sum)

theorem sound_init : Sound outboxInit :=
  ⟨List.nodup_nil, fun item h => absurd h List.not_mem_nil, by decide, rfl⟩

namespace Sound
variable {outbox : OutboxT}

theorem held_eq (h : Sound outbox) : (outbox.list.map Item.len).sum = (outbox.held : ℤ) := by
  have hlens : outbox.list.map Item.len = outbox.list.map fun item => (item.buffer.length : ℤ) :=
    List.map_congr_left h.lens
  rw [hlens, OutboxT.held, Nat.cast_list_sum, List.map_map]
  rfl

/-- `outbox_get_size` is the sum of the lengths of the items. -/
theorem getSize (h : Sound outbox) : outboxGetSize outbox = outbox.held := by
  have hfits := h.fits
  rw [outboxGetSize, h.size, h.held_eq, UInt64.ofInt, UInt64.toNat_ofNat']
  omega

/-- A part of the list is as sound, once the size fits it. -/
theorem of_sublist (h : Sound outbox) {list : List Item} (hsub : list.Sublist outbox.list) {size : UInt64}
    (hsize : size = UInt64.ofInt ((list.map Item.len).sum)) : Sound ⟨size, list⟩ := by
  refine ⟨(hsub.map _).nodup h.distinct, fun item hitem => h.lens item (hsub.subset hitem), ?_, hsize⟩
  refine lt_of_le_of_lt ?_ h.fits
  exact (hsub.map _).sum_le_sum fun n _ => Nat.zero_le n

/-- Taking an item out by its address takes out that item. -/
theorem unlink_eq (h : Sound outbox) {l₁ l₂ : List Item} {item : Item} (hl : outbox.list = l₁ ++ item :: l₂) :
    (unlink outbox item).list = l₁ ++ l₂ ∧ Sound (unlink outbox item) := by
  have hdistinct := h.distinct
  rw [OutboxT.addresses, hl, List.map_append, List.map_cons, List.nodup_append] at hdistinct
  -- addresses differ, so `STAILQ_REMOVE` passes over everything in front of the item
  have hbefore : ∀ other ∈ l₁, ¬(other.address == item.address) = true := by
    intro other hother heq
    exact hdistinct.2.2 _ (List.mem_map_of_mem hother) _ List.mem_cons_self (beq_iff_eq.mp heq)
  have hlist : (unlink outbox item).list = l₁ ++ l₂ := by
    rw [unlink, hl, List.eraseP_append_right _ hbefore, List.eraseP_cons_of_pos (by simp)]
  refine ⟨hlist, ?_⟩
  have htakes : Takes (fun other => other.address == item.address) outbox.list item (l₁ ++ l₂) :=
    ⟨l₁, l₂, hl, beq_self_eq_true _, fun other hother => by simpa using hbefore other hother, rfl⟩
  have hsize : outbox.size-UInt64.ofInt item.len = UInt64.ofInt (((l₁ ++ l₂).map Item.len).sum) := by
    rw [h.size, htakes.sum Item.len, add_comm item.len, UInt64.ofInt_add, UInt64.add_sub_cancel]
  have heq : unlink outbox item = ⟨outbox.size-UInt64.ofInt item.len, l₁ ++ l₂⟩ := by
    rw [← hlist]
    rfl
  rw [heq]
  exact h.of_sublist htakes.sublist hsize

end Sound

section Loops
variable {outbox : OutboxT} {named : Item → Bool}

/-- A loop that stops at the first item it names, having passed over `passed`. -/
theorem deleteOne_from (h : Sound outbox) : ∀ {rest : List Item} (passed : List Item), outbox.list = passed ++ rest →
    (∀ item ∈ passed, named item = false) →
      (deleteOne named rest outbox = (none, outbox) ∧ ∀ item ∈ outbox.list, named item = false) ∨
      ∃ item, (deleteOne named rest outbox).1 = some item ∧
        Takes named outbox.list item (deleteOne named rest outbox).2.list ∧ Sound (deleteOne named rest outbox).2
  | [], passed, hl, hpassed => by
    refine Or.inl ⟨rfl, ?_⟩
    rw [hl, List.append_nil]
    exact hpassed
  | item :: next, passed, hl, hpassed => by
    cases hnamed : named item with
    | true =>
      right
      rw [deleteOne, if_pos hnamed]
      have hunlink := h.unlink_eq hl
      exact ⟨item, rfl, ⟨passed, next, hl, hnamed, hpassed, hunlink.1⟩, hunlink.2⟩
    | false =>
      rw [deleteOne, if_neg (by simp [hnamed])]
      refine deleteOne_from h (passed ++ [item]) (by rw [hl, List.append_assoc]; rfl) fun other hother => ?_
      rcases List.mem_append.mp hother with hother | hother
      · exact hpassed other hother
      · rw [List.mem_singleton.mp hother]
        exact hnamed

theorem deleteOne_spec (h : Sound outbox) (named : Item → Bool) :
    (deleteOne named outbox.list outbox = (none, outbox) ∧ ∀ item ∈ outbox.list, named item = false) ∨
    ∃ item, (deleteOne named outbox.list outbox).1 = some item ∧
      Takes named outbox.list item (deleteOne named outbox.list outbox).2.list ∧
      Sound (deleteOne named outbox.list outbox).2 :=
  deleteOne_from h [] rfl fun _ hitem => absurd hitem List.not_mem_nil

/-- A loop that goes on after each item it takes out, with `kept` behind it. -/
theorem deleteEach_from (named : Item → Bool) : ∀ (rest kept : List Item) {outbox : OutboxT} (deleted : ℤ), Sound outbox →
    outbox.list = kept ++ rest →
      (deleteEach named rest outbox deleted).1 = deleted+(rest.filter named).length ∧
      (deleteEach named rest outbox deleted).2.list = kept ++ rest.filter (fun item => !named item) ∧
      Sound (deleteEach named rest outbox deleted).2
  | [], kept, outbox, deleted, h, hl => ⟨(add_zero deleted).symm, hl, h⟩
  | item :: tmp, kept, outbox, deleted, h, hl => by
    cases hnamed : named item with
    | true =>
      have hunlink := h.unlink_eq hl
      -- `tmp` was fetched before the item went, and is still what follows `kept`
      have ih := deleteEach_from named tmp kept (deleted+1) hunlink.2 hunlink.1
      rw [deleteEach, if_pos hnamed, List.filter_cons_of_pos hnamed, List.filter_cons_of_neg (by simp [hnamed]),
        List.length_cons]
      refine ⟨?_, ih.2⟩
      rw [ih.1]
      push_cast
      ring
    | false =>
      have hkept : outbox.list = (kept ++ [item]) ++ tmp := by rw [hl, List.append_assoc]; rfl
      have ih := deleteEach_from named tmp (kept ++ [item]) deleted h hkept
      rw [deleteEach, if_neg (by simp [hnamed]), List.filter_cons_of_neg (by simp [hnamed]),
        List.filter_cons_of_pos (by simp [hnamed])]
      rw [List.append_assoc, List.singleton_append] at ih
      exact ih

theorem deleteEach_spec (h : Sound outbox) (named : Item → Bool) :
    (deleteEach named outbox.list outbox 0).1 = (outbox.list.filter named).length ∧
    (deleteEach named outbox.list outbox 0).2.list = outbox.list.filter (fun item => !named item) ∧
    Sound (deleteEach named outbox.list outbox 0).2 := by
  have hspec := deleteEach_from named outbox.list [] 0 h rfl
  rwa [zero_add, List.nil_append] at hspec

/-- What stands first with an id is changed in its place. -/
theorem change_spec (f : Item → Item) {msgId : ℤ} : ∀ {list : List Item} {item : Item},
    list.find? (fun item => item.msgId == msgId) = some item →
      Changes (fun item => item.msgId == msgId) f list item (change f msgId list)
  | [], _, hfound => by simp at hfound
  | first :: next, item, hfound => by
    by_cases hid : first.msgId = msgId
    · rw [List.find?_cons_of_pos (by simpa using hid)] at hfound
      obtain rfl := Option.some.inj hfound
      rw [change, if_pos (by simpa using hid)]
      exact ⟨[], next, rfl, by simpa using hid, fun y hy => absurd hy List.not_mem_nil, rfl⟩
    · rw [List.find?_cons_of_neg (by simpa using hid)] at hfound
      obtain ⟨l₁,l₂,hl,hp,hnot,hchange⟩ := change_spec f hfound
      rw [change, if_neg (by simpa using hid)]
      refine ⟨first :: l₁, l₂, by rw [hl]; rfl, hp, ?_, by rw [hchange]; rfl⟩
      exact List.forall_mem_cons.mpr ⟨by simpa using hid, hnot⟩

end Loops

/-- A change that leaves address, buffer and length alone keeps the outbox sound. -/
theorem Sound.of_changes {outbox : OutboxT} (h : Sound outbox) {p : Item → Bool} {f : Item → Item} {item : Item}
    {later : List Item} (hset : Changes p f outbox.list item later) (haddress : (f item).address = item.address)
    (hbuffer : (f item).buffer.length = item.buffer.length) (hlen : (f item).len = item.len) :
    Sound {outbox with list := later} := by
  refine ⟨?_, fun other hother => ?_, ?_, ?_⟩
  · have hsame : later.map Item.address = outbox.addresses := hset.map_eq haddress
    rw [OutboxT.addresses, hsame]
    exact h.distinct
  · rcases hset.mem_after hother with rfl | hother
    · rw [hlen, hbuffer]
      exact h.lens item hset.mem
    · exact h.lens other hother
  · have hsame : later.map (fun item => item.buffer.length) = outbox.list.map fun item => item.buffer.length :=
      hset.map_eq hbuffer
    have hfits := h.fits
    rw [OutboxT.held] at hfits ⊢
    rwa [hsame]
  · have hsame : later.map Item.len = outbox.list.map Item.len := hset.map_eq hlen
    rw [hsame]
    exact h.size

section Calls
variable {outbox : OutboxT}

/-- `outbox_enqueue` adds the item at the end, or nothing when an allocation fails. -/
theorem enqueue_meets (h : Sound outbox) (message : Message) (tick : ℤ) (itemAnswer : Option ℕ)
    (bufferAnswer : Bool) :
    let r := outboxEnqueue outbox message tick itemAnswer bufferAnswer
    Meets (.enqueue message tick itemAnswer bufferAnswer) outbox (.item r.1) r.2.list ∧ Sound r.2 := by
  intro r
  cases hitem : calloc itemAnswer outbox with
  | none =>
    have hr : r = (none, outbox) := by simp only [r, outboxEnqueue, hitem]
    rw [hr]
    exact ⟨.refused (Or.inl hitem), h⟩
  | some address =>
    have hnew : address ∉ outbox.addresses := by
      obtain ⟨-,hnew⟩ := Option.filter_eq_some_iff.mp hitem
      exact of_decide_eq_true hnew
    cases hbuffer : heapCapsMalloc bufferAnswer (int32 (message.data.length+message.remainingData.length)) outbox with
    | false =>
      have hr : r = (none, outbox) := by simp only [r, outboxEnqueue, hitem, hbuffer, if_true]
      rw [hr]
      exact ⟨.refused (Or.inr hbuffer), h⟩
    | true =>
      have hr : r = (some ⟨address, message.data ++ message.remainingData,
            int32 (message.data.length+message.remainingData.length), message.msgId, message.msgType,
            message.msgQos, tick, .queued⟩,
          ⟨outbox.size+UInt64.ofInt (int32 (message.data.length+message.remainingData.length)),
            outbox.list ++ [⟨address, message.data ++ message.remainingData,
              int32 (message.data.length+message.remainingData.length), message.msgId, message.msgType,
              message.msgQos, tick, .queued⟩]⟩) := by
        simp only [r, outboxEnqueue, hitem, hbuffer, Bool.true_eq_false, if_false]
      rw [hr]
      refine ⟨.enqueued ⟨rfl, rfl, rfl, rfl⟩ rfl rfl hnew, ?_⟩
      simp only [heapCapsMalloc, Bool.and_eq_true, decide_eq_true_eq] at hbuffer
      obtain ⟨⟨-,hlen⟩,hroom⟩ := hbuffer
      -- the length is no negative `int`, so the sum has not wrapped
      have hexact : int32 (message.data.length+message.remainingData.length) =
          ((message.data ++ message.remainingData).length : ℕ) := by
        have hdata := message.data_len
        have hremaining := message.remaining_len
        rw [int32, Int.bmod_def] at hlen ⊢
        rw [List.length_append]
        split_ifs at hlen ⊢ <;> omega
      rw [hexact] at hroom ⊢
      rw [Int.toNat_natCast] at hroom
      refine ⟨?_, ?_, ?_, ?_⟩
      · rw [OutboxT.addresses, List.map_append]
        refine List.Nodup.append h.distinct (List.nodup_singleton _) ?_
        rw [List.map_singleton, List.disjoint_singleton]
        exact hnew
      · intro item hmem
        rcases List.mem_append.mp hmem with hmem | hmem
        · exact h.lens item hmem
        · rw [List.mem_singleton.mp hmem]
      · rw [OutboxT.held, List.map_append, List.sum_append, List.map_singleton, List.sum_singleton]
        exact hroom
      · rw [h.size, List.map_append, List.sum_append, List.map_singleton, List.sum_singleton, UInt64.ofInt_add]

theorem get_oldest (outbox : OutboxT) (msgId : ℤ) :
    Oldest (fun item => item.msgId == msgId) outbox.list (outboxGet outbox msgId) :=
  find?_oldest _ _

/-- A call that changes what `outbox_get` finds. -/
theorem set_spec (h : Sound outbox) (msgId : ℤ) (f : Item → Item) (haddress : ∀ item, (f item).address = item.address)
    (hbuffer : ∀ item, (f item).buffer = item.buffer) (hlen : ∀ item, (f item).len = item.len) :
    (outboxGet outbox msgId = none ∧ ∀ item ∈ outbox.list, item.msgId ≠ msgId) ∨
    ∃ item, outboxGet outbox msgId = some item ∧
      Changes (fun item => item.msgId == msgId) f outbox.list item (change f msgId outbox.list) ∧
      Sound {outbox with list := change f msgId outbox.list} := by
  have hget := get_oldest outbox msgId
  cases hfound : outboxGet outbox msgId with
  | none =>
    rw [hfound] at hget
    exact Or.inl ⟨rfl, fun item hitem => by simpa using hget item hitem⟩
  | some item =>
    have hset := change_spec f hfound
    have hsize : (f item).buffer.length = item.buffer.length := by rw [hbuffer]
    exact Or.inr ⟨item, rfl, hset, h.of_changes hset (haddress item) hsize (hlen item)⟩

/-- Every call does to the list what its constructor of `Meets` says, and returns it. -/
theorem run_meets (h : Sound outbox) (op : Op) :
    Meets op outbox (op.run outbox).1 (op.run outbox).2.list ∧ Sound (op.run outbox).2 := by
  cases op with
  | enqueue message tick itemAnswer bufferAnswer => exact enqueue_meets h message tick itemAnswer bufferAnswer
  | get msgId => exact ⟨.get (get_oldest outbox msgId), h⟩
  | dequeue pending => exact ⟨.dequeue (find?_oldest _ _), h⟩
  | setPending msgId pending =>
    dsimp only [Op.run, outboxSetPending]
    rcases set_spec h msgId (fun item => {item with pending}) (fun _ => rfl) (fun _ => rfl) fun _ => rfl with
      ⟨hget,hnone⟩ | ⟨item,hget,hset,hsound⟩
    · rw [hget]
      exact ⟨.notPending hnone, h⟩
    · rw [hget]
      exact ⟨.setPending hset, hsound⟩
  | setTick msgId tick =>
    dsimp only [Op.run, outboxSetTick]
    rcases set_spec h msgId (fun item => {item with tick}) (fun _ => rfl) (fun _ => rfl) fun _ => rfl with
      ⟨hget,hnone⟩ | ⟨item,hget,hset,hsound⟩
    · rw [hget]
      exact ⟨.notTick hnone, h⟩
    · rw [hget]
      exact ⟨.setTick hset, hsound⟩
  | delete msgId msgType =>
    dsimp only [Op.run, outboxDelete]
    rcases deleteOne_spec h (fun item => item.msgId == msgId && item.hasType msgType) with
      ⟨hkept,hnone⟩ | ⟨item,hitem,htaken,hsound⟩
    · rw [hkept]
      exact ⟨.notDelete hnone, h⟩
    · rw [hitem]
      exact ⟨.delete htaken, hsound⟩
  | deleteItem address =>
    dsimp only [Op.run, outboxDeleteItem]
    rcases deleteOne_spec h (fun item => item.address == address) with ⟨hkept,hnone⟩ | ⟨item,hitem,htaken,hsound⟩
    · rw [hkept]
      exact ⟨.notDeleteItem fun item hitem => by simpa using hnone item hitem, h⟩
    · rw [hitem]
      exact ⟨.deleteItem htaken, hsound⟩
  | deleteMessageType msgType =>
    have hspec := deleteEach_spec h (Item.hasType msgType)
    dsimp only [Op.run, outboxDeleteMessageType]
    rw [hspec.1, hspec.2.1]
    exact ⟨.deleteMessageType, hspec.2.2⟩
  | deleteSingleExpired currentTick timeout =>
    dsimp only [Op.run, outboxDeleteSingleExpired]
    rcases deleteOne_spec h (Item.expired currentTick timeout) with ⟨hkept,hnone⟩ | ⟨item,hitem,htaken,hsound⟩
    · rw [hkept]
      exact ⟨.notExpired hnone, h⟩
    · rw [hitem]
      exact ⟨.deleteSingleExpired htaken, hsound⟩
  | deleteExpired currentTick timeout =>
    have hspec := deleteEach_spec h (Item.expired currentTick timeout)
    dsimp only [Op.run, outboxDeleteExpired]
    rw [hspec.1, hspec.2.1]
    exact ⟨.deleteExpired, hspec.2.2⟩
  | deleteAllItems =>
    have hspec := deleteEach_spec h fun _ => true
    have hempty : outbox.list.filter (fun _ => !true) = [] := List.filter_eq_nil_iff.mpr fun _ _ => by decide
    rw [hempty] at hspec
    dsimp only [Op.run, outboxDeleteAllItems]
    rw [hspec.2.1]
    exact ⟨.deleteAllItems, hspec.2.2⟩

end Calls

section Runs

theorem after_concat (ops : List Op) (op : Op) : after (ops ++ [op]) = (op.run (after ops)).2 := by
  rw [after, after, List.foldl_append]
  rfl

theorem sound_after (ops : List Op) : Sound (after ops) := by
  induction ops using List.reverseRecOn with
  | nil => exact sound_init
  | append_singleton ops op ih =>
    rw [after_concat]
    exact (run_meets ih op).2

/-- The `n`-th call enqueued the item. -/
def EnqueuedBy (ops : List Op) (n : ℕ) (item : Item) : Prop :=
  ∃ message tick itemAnswer bufferAnswer,
    ops[n]? = some (.enqueue message tick itemAnswer bufferAnswer) ∧ item.Carries message

/-- Later calls do not change which call enqueued an item, nor does its state. -/
theorem EnqueuedBy.mono {ops : List Op} {n : ℕ} {item item' : Item} (h : EnqueuedBy ops n item) (op : Op)
    (hbuffer : item'.buffer = item.buffer) (hid : item'.msgId = item.msgId) (htype : item'.msgType = item.msgType)
    (hqos : item'.msgQos = item.msgQos) : EnqueuedBy (ops ++ [op]) n item' := by
  obtain ⟨message,tick,itemAnswer,bufferAnswer,hn,hcarries⟩ := h
  have hlt : n < ops.length := (List.getElem?_eq_some_iff.mp hn).1
  refine ⟨message, tick, itemAnswer, bufferAnswer, by rw [List.getElem?_append_left hlt, hn], ?_⟩
  exact ⟨hbuffer.trans hcarries.buffer, hid.trans hcarries.msgId, htype.trans hcarries.msgType,
    hqos.trans hcarries.msgQos⟩

/-- The items stand in the order of the calls that enqueued them, with what those calls put
in. -/
def InOrder (ops : List Op) (list : List Item) : Prop :=
  ∃ births : List (ℕ × Item), births.map Prod.snd = list ∧ (births.map Prod.fst).Pairwise (· < ·) ∧
    ∀ birth ∈ births, EnqueuedBy ops birth.1 birth.2

namespace InOrder
variable {ops : List Op} {list later : List Item}

theorem of_sublist (h : InOrder ops list) (op : Op) (hsub : later.Sublist list) : InOrder (ops ++ [op]) later := by
  obtain ⟨births,rfl,horder,hall⟩ := h
  obtain ⟨kept,hkept,rfl⟩ := List.sublist_map_iff.mp hsub
  exact ⟨kept, rfl, horder.sublist (hkept.map _), fun birth hbirth =>
    (hall birth (hkept.subset hbirth)).mono op rfl rfl rfl rfl⟩

theorem of_changes (h : InOrder ops list) (op : Op) {p : Item → Bool} {f : Item → Item} {item : Item}
    (hset : Changes p f list item later) (hbuffer : (f item).buffer = item.buffer)
    (hid : (f item).msgId = item.msgId) (htype : (f item).msgType = item.msgType)
    (hqos : (f item).msgQos = item.msgQos) : InOrder (ops ++ [op]) later := by
  obtain ⟨births,hmap,horder,hall⟩ := h
  obtain ⟨l₁,l₂,hl,-,-,rfl⟩ := hset
  rw [hl] at hmap
  obtain ⟨b₁,rest,rfl,rfl,hrest⟩ := List.map_eq_append_iff.mp hmap
  obtain ⟨⟨n,x⟩,b₂,rfl,rfl,rfl⟩ := List.map_eq_cons_iff.mp hrest
  refine ⟨b₁ ++ (n, f x) :: b₂, ?_, ?_, ?_⟩
  · rw [List.map_append, List.map_cons]
  · rw [List.map_append, List.map_cons] at horder ⊢
    exact horder
  · intro birth hbirth
    rcases List.mem_append.mp hbirth with hbirth | hbirth
    · exact (hall birth (List.mem_append_left _ hbirth)).mono op rfl rfl rfl rfl
    · rcases List.mem_cons.mp hbirth with rfl | hbirth
      · exact (hall (n, x) (List.mem_append_right _ List.mem_cons_self)).mono op hbuffer hid htype hqos
      · exact (hall birth (List.mem_append_right _ (List.mem_cons_of_mem _ hbirth))).mono op rfl rfl rfl rfl

/-- A new item stands behind all others. -/
theorem concat (h : InOrder ops list) {op : Op} {item : Item} (hnew : EnqueuedBy (ops ++ [op]) ops.length item) :
    InOrder (ops ++ [op]) (list ++ [item]) := by
  obtain ⟨births,rfl,horder,hall⟩ := h
  refine ⟨births ++ [(ops.length, item)], ?_, ?_, ?_⟩
  · rw [List.map_append]
    rfl
  · rw [List.map_append, List.pairwise_append]
    refine ⟨horder, List.pairwise_singleton _ _, ?_⟩
    intro n hn m hm
    obtain ⟨birth,hbirth,rfl⟩ := List.mem_map.mp hn
    obtain ⟨message,tick,a,b,hop,-⟩ := hall birth hbirth
    rw [List.mem_singleton.mp hm]
    exact (List.getElem?_eq_some_iff.mp hop).1
  · intro birth hbirth
    rcases List.mem_append.mp hbirth with hbirth | hbirth
    · exact (hall birth hbirth).mono op rfl rfl rfl rfl
    · rw [List.mem_singleton.mp hbirth]
      exact hnew

/-- One call keeps the order. -/
theorem step (h : InOrder ops list) {op : Op} {outbox : OutboxT} {answer : Answer} (hl : outbox.list = list)
    (hmeets : Meets op outbox answer later) : InOrder (ops ++ [op]) later := by
  subst hl
  cases hmeets with
  | enqueued hcarries htick hqueued hnew =>
    exact h.concat ⟨_, _, _, _, List.getElem?_concat_length, hcarries⟩
  | refused hrefused => exact h.of_sublist _ (List.Sublist.refl _)
  | get hfound => exact h.of_sublist _ (List.Sublist.refl _)
  | dequeue hfound => exact h.of_sublist _ (List.Sublist.refl _)
  | setPending hset => exact h.of_changes _ hset rfl rfl rfl rfl
  | notPending hnone => exact h.of_sublist _ (List.Sublist.refl _)
  | setTick hset => exact h.of_changes _ hset rfl rfl rfl rfl
  | notTick hnone => exact h.of_sublist _ (List.Sublist.refl _)
  | delete htaken => exact h.of_sublist _ htaken.sublist
  | notDelete hnone => exact h.of_sublist _ (List.Sublist.refl _)
  | deleteItem htaken => exact h.of_sublist _ htaken.sublist
  | notDeleteItem hnone => exact h.of_sublist _ (List.Sublist.refl _)
  | deleteMessageType => exact h.of_sublist _ List.filter_sublist
  | deleteSingleExpired htaken => exact h.of_sublist _ htaken.sublist
  | notExpired hnone => exact h.of_sublist _ (List.Sublist.refl _)
  | deleteExpired => exact h.of_sublist _ List.filter_sublist
  | deleteAllItems => exact h.of_sublist _ (List.nil_sublist _)

end InOrder

theorem inOrder_after (ops : List Op) : InOrder ops (after ops).list := by
  induction ops using List.reverseRecOn with
  | nil => exact ⟨[], rfl, List.Pairwise.nil, fun birth h => absurd h List.not_mem_nil⟩
  | append_singleton ops op ih =>
    rw [after_concat]
    exact ih.step rfl (run_meets (sound_after ops) op).1

/-- After every sequence of calls the outbox is a list in the order of enqueueing, its size is
the sum of the lengths of its items, and the next call does to it what `Meets` says. -/
theorem outbox_orderedStore (ops : List Op) (op : Op) :
    InOrder ops (after ops).list ∧
    (∀ item ∈ (after ops).list, item.len = item.buffer.length) ∧
    outboxGetSize (after ops) = ((after ops).list.map Item.len).sum ∧
    Meets op (after ops) (op.run (after ops)).1 (op.run (after ops)).2.list ∧
    after (ops ++ [op]) = (op.run (after ops)).2 := by
  have hsound := sound_after ops
  refine ⟨inOrder_after ops, hsound.lens, ?_, (run_meets hsound op).1, after_concat ops op⟩
  rw [hsound.getSize, hsound.held_eq]

end Runs

end EspMqtt.MqttOutbox
