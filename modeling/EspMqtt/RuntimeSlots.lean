import EspMqtt.RuntimeRun
import Mathlib.Data.List.Perm.Basic
import Mathlib.Data.Fintype.Card

/-! Slot and buffer conservation in the emqtt runtime. Slots are counted: each
of the three stands exactly once in the free queue, with the receiver, in a
queued notice or on its way back to the free queue. -/
namespace EspMqtt

def noticeSlots (ns : List Notice) : List Slot := ns.filterMap Notice.slot

/-- How often slot `s` stands somewhere in the runtime. -/
def Runtime.holds (r : Runtime) (s : Slot) : ℕ :=
  r.freeSlots.count s+r.receiverSlot.toList.count s+(noticeSlots r.notices).count s

/-- The length in the header is the length of the storage. -/
def OwnedMessage.Sized (m : OwnedMessage) : Prop :=
  m.info.length = m.allocated ∧ m.payload.length = m.allocated

/-- What is left of the accounts when a stop failed: no slot stands twice.
`out` are the slots a call in progress has in hand. -/
structure SlotsApart (out : List Slot) (r : Runtime) : Prop where
  once : ∀ s, r.holds s+out.count s ≤ 1
  kinds : ∀ n ∈ r.notices, n.slot.isSome = true ↔ n.kind = .message
  active : r.receiverMessage.isSome = r.receiver.active
  idle : r.receiverMessage = none → r.receiverSlot = none
  sized : ∀ s m, r.messages s = some m → m.Sized
  receiving : ∀ m, r.receiverMessage = some m → m.Sized
  accepted : r.refused = []

structure SlotsOk (out : List Slot) (r : Runtime) : Prop extends SlotsApart out r where
  all : r.faulted = false → ∀ s, r.holds s+out.count s = 1
  named : r.faulted = false → ∀ s, (r.messages s).isSome = true ↔ s ∈ noticeSlots r.notices

@[simp] theorem noticeSlots_append (ns ms : List Notice) :
    noticeSlots (ns ++ ms) = noticeSlots ns ++ noticeSlots ms := List.filterMap_append

theorem noticeSlots_cons (n : Notice) (ns : List Notice) :
    noticeSlots (n :: ns) = n.slot.toList ++ noticeSlots ns := by
  cases h : n.slot <;> simp [noticeSlots, h]

/-- A slot that is not in the free queue leaves room there. -/
theorem freeSlots_room (free : List Slot) (s : Slot)
    (h : ∀ t, free.count t+[s].count t ≤ 1) : free.length < 3 := by
  have hn : (s :: free).Nodup := by
    rw [List.nodup_iff_count_le_one]
    intro t
    have := h t
    rw [show s :: free = [s] ++ free from rfl, List.count_append]
    omega
  have := hn.length_le_card
  simpa using this

theorem sendSlot_room (r : Runtime) (s : Slot) (h : r.freeSlots.length < 3) :
    r.sendSlot s = {r with freeSlots := r.freeSlots ++ [s]} := if_pos h

/-- A slot in hand goes back to the free queue. -/
theorem SlotsApart.room {out : List Slot} {r : Runtime} {s : Slot} (h : SlotsApart out r)
    (hs : s ∈ out) : r.freeSlots.length < 3 := by
  apply freeSlots_room r.freeSlots s
  intro t
  have h1 := h.once t
  have h2 : [s].count t ≤ out.count t := by
    by_cases ht : t = s
    · subst ht
      rw [List.count_singleton_self]
      exact List.count_pos_iff.mpr hs
    · rw [List.count_singleton, if_neg (by simpa using fun hh => ht hh.symm)]
      omega
  unfold Runtime.holds at h1
  omega

/-- Slots may move between the free queue, the receiver and a call in progress. -/
theorem SlotsOk.move {out out' : List Slot} {r r' : Runtime} (h : SlotsOk out r)
    (hc : ∀ t, r'.holds t+out'.count t = r.holds t+out.count t) (hf : r'.faulted = r.faulted)
    (hn : r'.notices = r.notices) (hm : r'.messages = r.messages) (hl : r'.refused = r.refused)
    (ha : r'.receiverMessage.isSome = r'.receiver.active)
    (hi : r'.receiverMessage = none → r'.receiverSlot = none)
    (hr : ∀ m, r'.receiverMessage = some m → m.Sized) :
    SlotsOk out' r' where
  once t := by rw [hc]; exact h.once t
  kinds := by rw [hn]; exact h.kinds
  active := ha
  idle := hi
  sized := by rw [hm]; exact h.sized
  receiving := hr
  accepted := by rw [hl]; exact h.accepted
  all hq t := by rw [hc]; exact h.all (hf ▸ hq) t
  named hq := by rw [hm, hn]; exact h.named (hf ▸ hq)

theorem SlotsOk.sendSlot {out : List Slot} {r : Runtime} {s : Slot} (h : SlotsOk (s :: out) r) :
    SlotsOk out (r.sendSlot s) := by
  rw [sendSlot_room r s (h.toSlotsApart.room List.mem_cons_self)]
  refine h.move (fun t => ?_) rfl rfl rfl rfl h.active h.idle h.receiving
  simp only [Runtime.holds, List.count_append, List.count_cons, List.count_nil]
  omega

/-- What `release_receiver_slot` does, with the accounts in order. -/
theorem releaseReceiverSlot_eq {out : List Slot} {r : Runtime}
    (h : ∀ s, r.holds s+out.count s ≤ 1) :
    releaseReceiverSlot r = {r with
      receiverSlot := none
      receiver := ⟨0,false⟩
      receiverMessage := none
      freeSlots := r.freeSlots ++ r.receiverSlot.toList} := by
  unfold releaseReceiverSlot
  cases hs : r.receiverSlot with
  | none => simp
  | some s =>
    have hroom : r.freeSlots.length < 3 := by
      apply freeSlots_room r.freeSlots s
      intro t
      have := h t
      simp only [Runtime.holds, hs, Option.toList_some] at this
      omega
    exact sendSlot_room _ s hroom

theorem releaseReceiverSlot_ok {out : List Slot} {r : Runtime} (h : SlotsOk out r) :
    SlotsOk out (releaseReceiverSlot r) := by
  rw [releaseReceiverSlot_eq h.once]
  refine h.move (fun t => ?_) rfl rfl rfl rfl rfl (fun _ => rfl)
    (fun m hm => by cases hm)
  simp only [Runtime.holds, List.count_append, Option.toList_none, List.count_nil]
  omega

/-- Nothing that is about slots depends on the capacity figures. -/
theorem SlotsOk.withCapacity {out : List Slot} {r : Runtime} (h : SlotsOk out r)
    (c : CapacityStats) : SlotsOk out {r with capacity := c} :=
  h.move (fun _ => rfl) rfl rfl rfl rfl h.active h.idle h.receiving

theorem SlotsOk.withOverflow {out : List Slot} {r : Runtime} (h : SlotsOk out r)
    (b : Bool) : SlotsOk out {r with overflow := b} :=
  h.move (fun _ => rfl) rfl rfl rfl rfl h.active h.idle h.receiving

/-- Queueing a notice that names no slot. -/
theorem post_plain_ok {out : List Slot} {r : Runtime} (h : SlotsOk out r) (n : Notice)
    (hs : n.slot = none) (hk : n.kind ≠ .message) : SlotsOk out (post r n) := by
  unfold post
  split
  · have hn : noticeSlots (r.notices ++ [n]) = noticeSlots r.notices := by
      rw [noticeSlots_append, noticeSlots_cons, hs]
      simp [noticeSlots]
    refine {
      once := fun t => ?_
      kinds := fun k hm => ?_
      active := h.active
      idle := h.idle
      sized := h.sized
      receiving := h.receiving
      accepted := h.accepted
      all := fun hf t => ?_
      named := fun hf t => ?_ }
    · have := h.once t
      simpa only [Runtime.holds, hn] using this
    · rcases List.mem_append.mp hm with hm | hm
      · exact h.kinds k hm
      · rw [List.mem_singleton.mp hm, hs]
        simp [hk]
    · have := h.all hf t
      simpa only [Runtime.holds, hn] using this
    · dsimp only
      rw [hn]
      exact h.named hf t
  · rw [hs]
    exact (h.withCapacity _).withOverflow true

/-- A slot in hand names no queued message, so its entry may be cleared. -/
theorem SlotsOk.clear {out : List Slot} {r : Runtime} {s : Slot} (h : SlotsOk (s :: out) r) :
    SlotsOk (s :: out) {r with messages := Function.update r.messages s none} where
  once := h.once
  kinds := h.kinds
  active := h.active
  idle := h.idle
  sized t m ht := by
    dsimp only at ht
    by_cases hts : t = s
    · subst hts
      rw [Function.update_self] at ht
      cases ht
    · rw [Function.update_of_ne hts] at ht
      exact h.sized t m ht
  receiving := h.receiving
  accepted := h.accepted
  all := h.all
  named hf t := by
    have hnm := h.named hf t
    dsimp only
    by_cases hts : t = s
    · subst hts
      have h1 := h.once t
      have h2 : (noticeSlots r.notices).count t = 0 := by
        simp only [Runtime.holds, List.count_cons_self] at h1
        omega
      simp [List.count_eq_zero.mp h2]
    · rw [Function.update_of_ne hts]
      exact hnm

/-- Queueing the notice of a complete message whose slot is in hand. -/
theorem transferMessage_ok {out : List Slot} {r : Runtime} {m : OwnedMessage} {s : Slot}
    (n : Notice) (hm : m.Sized)
    (h : SlotsOk (s :: out) {r with receiverSlot := none, receiverMessage := none}) :
    SlotsOk out (transferMessage r m s n) := by
  unfold transferMessage post
  split
  · have hn : noticeSlots (r.notices ++ [{n with slot := some s, kind := .message}]) =
        noticeSlots r.notices ++ [s] := by
      rw [noticeSlots_append, noticeSlots_cons]
      rfl
    have hc (t : Slot) : (r.freeSlots.count t+(none : Option Slot).toList.count t+
        (noticeSlots r.notices ++ [s]).count t)+out.count t =
        (r.freeSlots.count t+(none : Option Slot).toList.count t+
        (noticeSlots r.notices).count t)+(s :: out).count t := by
      simp only [List.count_append, List.count_cons, List.count_nil]
      omega
    refine {
      once := fun t => ?_
      kinds := fun k hk => ?_
      active := h.active
      idle := h.idle
      sized := fun t m' ht => ?_
      receiving := h.receiving
      accepted := h.accepted
      all := fun hf t => ?_
      named := fun hf t => ?_ }
    · have := h.once t
      simp only [Runtime.holds] at this ⊢
      rw [hn, hc]
      exact this
    · rcases List.mem_append.mp hk with hk | hk
      · exact h.kinds k hk
      · rw [List.mem_singleton.mp hk]
        simp
    · by_cases hts : t = s
      · subst hts
        dsimp only at ht
        rw [Function.update_self] at ht
        cases ht
        exact hm
      · dsimp only at ht
        rw [Function.update_of_ne hts] at ht
        exact h.sized t m' ht
    · have := h.all hf t
      simp only [Runtime.holds] at this ⊢
      rw [hn, hc]
      exact this
    · have hnm := h.named hf t
      dsimp only at hnm ⊢
      rw [hn, List.mem_append, List.mem_singleton]
      by_cases hts : t = s
      · subst hts
        simp
      · rw [Function.update_of_ne hts, hnm]
        simp [hts]
  · refine SlotsOk.withOverflow (SlotsOk.sendSlot ?_) true
    dsimp only [detachMessageSlot]
    rw [Function.update_idem]
    exact (h.clear (s := s)).withCapacity _

theorem capacityNotePartial_eq (r : Runtime) (a : Answers) :
    ∃ c, capacityNotePartial r a = {r with capacity := c} := by
  unfold capacityNotePartial
  dsimp only
  split
  · exact ⟨_,rfl⟩
  · split
    · exact ⟨_,rfl⟩
    · exact ⟨r.capacity,rfl⟩

/-- The receiver state itself is not part of the accounts. -/
theorem releaseReceiverSlot_receiver (r : Runtime) (rc : ReceiveState) (m : Option OwnedMessage) :
    releaseReceiverSlot {r with receiver := rc, receiverMessage := m} = releaseReceiverSlot r := rfl

theorem completeMessage_ok {out : List Slot} {r : Runtime} {m : OwnedMessage} (n : Notice)
    (h : SlotsOk out {r with receiver := ⟨0,true⟩, receiverMessage := some m})
    (hr : r.receiver.active = false) (hm : m.Sized) :
    SlotsOk out (completeMessage r m n) := by
  unfold completeMessage
  have hnone : ∀ m', (none : Option OwnedMessage) = some m' → m'.Sized :=
    fun m' hm' => by cases hm'
  split
  · rename_i s hs
    apply transferMessage_ok n hm
    refine h.move (fun t => ?_) rfl rfl rfl rfl hr.symm (fun _ => rfl) hnone
    simp only [Runtime.holds, hs, Option.toList_some, Option.toList_none, List.count_nil,
      List.count_cons]
    omega
  · rename_i hs
    split
    · exact (releaseReceiverSlot_ok h).withOverflow true
    · rename_i s rest hfree
      apply transferMessage_ok n hm
      refine h.move (fun t => ?_) rfl rfl rfl rfl hr.symm (fun _ => rfl) hnone
      simp only [Runtime.holds, hs, hfree, Option.toList_none, List.count_nil, List.count_cons]
      omega

theorem receiveFragment_ok {out : List Slot} {r : Runtime} {m : OwnedMessage} (e : MqttEvent)
    (a : Answers) (n : Notice) (hn : n.slot = none)
    (h : SlotsOk out {r with receiver := ⟨0,true⟩, receiverMessage := some m})
    (hf : r.receiver.active = false → e.totalDataLen = m.info.length) :
    SlotsOk out (receiveFragment e a r m n) := by
  have hm := h.receiving m rfl
  obtain ⟨hl,hp,hmore,hcomp,-⟩ := emqttReceiveInto_spec r.receiver m e.fragment
    (hm.2.trans hm.1.symm) hf
  unfold receiveFragment
  generalize emqttReceiveInto r.receiver m.info m.payload m.info.length e.fragment = o at *
  obtain ⟨res,rc,info,payload⟩ := o
  dsimp only at hl hp hmore hcomp
  have hm' : OwnedMessage.Sized ⟨info,payload,m.allocated⟩ := ⟨hl.trans hm.1, hp.trans hm.2⟩
  cases res with
  | more =>
    obtain ⟨c,hc⟩ := capacityNotePartial_eq
      {r with receiver := rc, receiverMessage := some ⟨info,payload,m.allocated⟩} a
    dsimp only
    rw [hc]
    refine h.move (fun t => rfl) rfl rfl rfl rfl ?_ (fun hh => by cases hh) ?_
    · exact ((hmore rfl).1).symm
    · intro m' hh
      cases hh
      exact hm'
  | rejected =>
    have hrel := releaseReceiverSlot_ok h
    rw [releaseReceiverSlot_receiver] at hrel
    dsimp only
    rw [releaseReceiverSlot_receiver]
    exact post_plain_ok hrel _ hn (by simp)
  | complete =>
    refine completeMessage_ok n ?_ (hcomp rfl) hm'
    refine h.move (fun t => rfl) rfl rfl rfl rfl rfl (fun hh => by cases hh) ?_
    intro m' hh
    cases hh
    exact hm'

/-- The receiver takes its slot from the free queue. -/
theorem holds_takeSlot {r : Runtime} (hslot : r.receiverSlot = none) (t : Slot)
    (o : Option OwnedMessage) (rc : ReceiveState) :
    Runtime.holds {r with receiverSlot := r.freeSlots.head?, freeSlots := r.freeSlots.tail
                          receiverMessage := o, receiver := rc} t = r.holds t := by
  simp only [Runtime.holds, hslot, Option.toList_none, List.count_nil]
  cases r.freeSlots with
  | nil => simp
  | cons s rest =>
    simp only [List.head?_cons, List.tail_cons, Option.toList_some, List.count_cons,
      List.count_nil]
    omega

theorem onData_ok {out : List Slot} {r : Runtime} (h : SlotsOk out r) (e : MqttEvent)
    (a : Answers) (n : Notice) (hn : n.slot = none) : SlotsOk out (onData e a r n) := by
  unfold onData ensureReceiver
  cases hr : r.receiverMessage with
  | some m =>
    dsimp only
    have hact : r.receiver.active = true := by rw [← h.active, hr]; rfl
    apply receiveFragment_ok e a n hn
    · exact h.move (fun t => rfl) rfl rfl rfl rfl rfl (fun hh => by cases hh)
        (fun m' hh => h.receiving m' (hr.trans hh))
    · intro hh
      rw [hact] at hh
      cases hh
  | none =>
    have hslot := h.idle hr
    have hinact : r.receiver.active = false := by rw [← h.active, hr]; rfl
    dsimp only
    by_cases hrange : e.totalDataLen < 0 ∨ (emqttPayloadMax : ℤ) < e.totalDataLen
    · rw [if_pos hrange]
      exact post_plain_ok h _ hn (by simp)
    · rw [if_neg hrange]
      cases a.alloc with
      | true =>
        apply receiveFragment_ok e a n hn
        · refine h.move (fun t => ?_) rfl rfl rfl rfl rfl (fun hh => by cases hh) ?_
          · rw [← holds_takeSlot hslot t (some (freshMessage e.totalDataLen.toNat)) ⟨0,true⟩]
          · intro m' hh
            cases hh
            simp [freshMessage, OwnedMessage.Sized]
        · intro _
          simp only [freshMessage]
          omega
      | false =>
        -- the slot taken for the message goes straight back
        cases hfree : r.freeSlots with
        | nil =>
          simp only [List.head?_nil, List.tail_nil, Bool.false_eq_true, if_false]
          exact h.move (fun t => by simp [Runtime.holds, hslot, hfree]) rfl rfl rfl rfl
            hinact.symm (fun _ => rfl) (fun m hm => by cases hm)
        | cons s rest =>
          have hback : SlotsOk (s :: out) {r with freeSlots := rest} := by
            refine h.move (fun t => ?_) rfl rfl rfl rfl h.active h.idle h.receiving
            simp only [Runtime.holds, hfree, List.count_cons]
            omega
          have hroom := hback.toSlotsApart.room (s := s) List.mem_cons_self
          have hsent := hback.sendSlot
          rw [sendSlot_room _ s hroom] at hsent
          simp only [List.head?_cons, List.tail_cons, Bool.false_eq_true, if_false]
          rw [sendSlot_room _ s (by exact hroom)]
          exact hsent.move (fun t => by simp [Runtime.holds, hslot]) rfl rfl rfl rfl
            hinact.symm (fun _ => rfl) (fun m hm => by cases hm)

/-- A callback keeps the accounts, whatever slots a call in progress holds. -/
theorem onEvent_ok {out : List Slot} {r : Runtime} (h : SlotsOk out r) (e : MqttEvent)
    (a : Answers) : SlotsOk out (onEvent e a r) := by
  unfold onEvent
  cases e.id with
  | connected => exact post_plain_ok (releaseReceiverSlot_ok h) _ rfl (by simp)
  | disconnected => exact post_plain_ok (releaseReceiverSlot_ok h) _ rfl (by simp)
  | subscribed =>
    apply post_plain_ok h
    · unfold subackNotice
      split <;> rfl
    · unfold subackNotice
      split <;> simp
  | unsubscribed => exact post_plain_ok h _ rfl (by simp)
  | published => exact post_plain_ok h _ rfl (by simp)
  | deleted => exact post_plain_ok h _ rfl (by simp)
  | error =>
    dsimp only
    cases e.errorHandle with
    | none => exact post_plain_ok h _ rfl (by simp)
    | some c => exact post_plain_ok h _ rfl (by simp)
  | data => exact onData_ok h e a _ rfl
  | other => exact h

end EspMqtt
