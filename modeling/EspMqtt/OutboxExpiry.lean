import EspMqtt.Event
import EspMqtt.Requeue

/-! `mqtt_delete_expired_messages`: with reports it repeats `outbox_delete_single_expired` until
that returns -1, without it calls `outbox_delete_expired` once. -/
namespace EspMqtt.MqttOutbox

open OldestMatch

/-- The event that reports a deleted item. -/
structure DeletedEvent where
  eventId : EventId
  msgId : ℤ
  deriving DecidableEq, Repr

def Item.deletedEvent (item : Item) : DeletedEvent := ⟨.deleted, item.msgId⟩

/-- `mqtt_delete_expired_messages` with `MQTT_REPORT_DELETED_MESSAGES`, where it comes to an
end: `dispatch` is what `esp_mqtt_dispatch_event` does to everything but the outbox. -/
inductive ReportsExpired {E : Type*} (dispatch : DeletedEvent → E → E) (currentTick timeout : ℤ) :
    OutboxT → E → OutboxT → E → Prop
  | done {outbox outbox' : OutboxT} {env : E} {msgId : ℤ}
      (hcall : outboxDeleteSingleExpired outbox currentTick timeout = (msgId, outbox')) (hend : msgId < 0) :
      ReportsExpired dispatch currentTick timeout outbox env outbox' env
  | event {outbox outbox' final : OutboxT} {env last : E} {msgId : ℤ}
      (hcall : outboxDeleteSingleExpired outbox currentTick timeout = (msgId, outbox')) (hgo : 0 ≤ msgId)
      (hrest : ReportsExpired dispatch currentTick timeout outbox' (dispatch ⟨.deleted, msgId⟩ env) final last) :
      ReportsExpired dispatch currentTick timeout outbox env final last

/-- Sound outboxes with the same items are the same. -/
theorem Sound.eq_of_list {a b : OutboxT} (ha : Sound a) (hb : Sound b) (h : a.list = b.list) : a = b := by
  have hsize : a.size = b.size := by rw [ha.size, hb.size, h]
  cases a
  cases b
  cases h
  cases hsize
  rfl

variable {E : Type*} {dispatch : DeletedEvent → E → E} {currentTick timeout : ℤ}

theorem ReportsExpired.unique {outbox a b : OutboxT} {env x y : E}
    (ha : ReportsExpired dispatch currentTick timeout outbox env a x)
    (hb : ReportsExpired dispatch currentTick timeout outbox env b y) : a = b ∧ x = y := by
  induction ha generalizing b y with
  | done hcall hend =>
    cases hb with
    | done hother _ =>
      rw [hcall] at hother
      exact ⟨(Prod.mk.inj hother).2, rfl⟩
    | event hother hgo _ =>
      rw [hcall] at hother
      have hsame := (Prod.mk.inj hother).1
      omega
  | event hcall hgo _ ih =>
    cases hb with
    | done hother hend =>
      rw [hcall] at hother
      have hsame := (Prod.mk.inj hother).1
      omega
    | event hother _ hrest =>
      rw [hcall] at hother
      obtain ⟨rfl,rfl⟩ := Prod.mk.inj hother
      exact ih hrest

/-- The loop takes out the expired items, oldest first, and reports each.  The induction is on
how many there are. -/
theorem reportsExpired_all (dispatch : DeletedEvent → E → E) (currentTick timeout : ℤ) : ∀ (n : ℕ) {outbox : OutboxT} (env : E),
    (outbox.list.filter (Item.expired currentTick timeout)).length = n → Sound outbox → PacketIds outbox.list →
      ∃ final, Sound final ∧ final.list = outbox.list.filter (fun item => !item.expired currentTick timeout) ∧
        ReportsExpired dispatch currentTick timeout outbox env final
          (((outbox.list.filter (Item.expired currentTick timeout)).map Item.deletedEvent).foldl
            (fun env event => dispatch event env) env) := by
  intro n
  induction n with
  | zero =>
    intro outbox env hn hsound _
    have hnil := List.eq_nil_of_length_eq_zero hn
    have hnone : ∀ item ∈ outbox.list, item.expired currentTick timeout = false := by
      intro item hitem
      simpa using List.filter_eq_nil_iff.mp hnil item hitem
    rcases deleteOne_spec hsound (Item.expired currentTick timeout) with ⟨hkept,-⟩ | ⟨item,-,htaken,-⟩
    · refine ⟨outbox, hsound, ?_, ?_⟩
      · symm
        rw [List.filter_eq_self]
        intro item hitem
        rw [hnone item hitem]
        rfl
      · rw [hnil]
        have hcall : outboxDeleteSingleExpired outbox currentTick timeout = (-1, outbox) := by
          rw [outboxDeleteSingleExpired, hkept]
          rfl
        exact .done hcall (by decide)
    · obtain ⟨l₁,l₂,hl,hexpired,-,-⟩ := htaken
      rw [hnone item (by simp [hl])] at hexpired
      exact Bool.noConfusion hexpired
  | succ n ih =>
    intro outbox env hn hsound hids
    rcases deleteOne_spec hsound (Item.expired currentTick timeout) with ⟨-,hnone⟩ | ⟨item,hitem,htaken,hsound'⟩
    · have hnil : outbox.list.filter (Item.expired currentTick timeout) = [] :=
        List.filter_eq_nil_iff.mpr fun item hitem => by rw [hnone item hitem]; decide
      rw [hnil] at hn
      exact absurd hn (by simp)
    · have hpacket := hids item htaken.mem
      have hids' : PacketIds (deleteOne (Item.expired currentTick timeout) outbox.list outbox).2.list :=
        fun other hother => hids other (htaken.sublist.subset hother)
      obtain ⟨l₁,l₂,hl,hexpired,hbefore,hlater⟩ := htaken
      -- `item` is the first expired one: what stands before it stays
      have hfirst : l₁.filter (Item.expired currentTick timeout) = [] :=
        List.filter_eq_nil_iff.mpr fun other hother => by rw [hbefore other hother]; decide
      have hgone : outbox.list.filter (Item.expired currentTick timeout) =
          item :: (l₁ ++ l₂).filter (Item.expired currentTick timeout) := by
        rw [hl, List.filter_append, List.filter_append, hfirst, List.filter_cons_of_pos hexpired]
        rfl
      have hstay : (l₁ ++ l₂).filter (fun item => !item.expired currentTick timeout) =
          outbox.list.filter (fun item => !item.expired currentTick timeout) := by
        rw [hl, List.filter_append, List.filter_append, List.filter_cons_of_neg (by simp [hexpired])]
      obtain ⟨final,hfinal,hlist,hrest⟩ := ih (dispatch item.deletedEvent env)
        (by rw [hgone, List.length_cons] at hn; rw [hlater]; omega) hsound' hids'
      rw [hlater] at hlist hrest
      refine ⟨final, hfinal, hlist.trans hstay, ?_⟩
      rw [hgone, List.map_cons, List.foldl_cons]
      have hcall : outboxDeleteSingleExpired outbox currentTick timeout =
          (item.msgId, (deleteOne (Item.expired currentTick timeout) outbox.list outbox).2) := by
        rw [outboxDeleteSingleExpired, hitem]
        rfl
      exact .event hcall hpacket.1 hrest

/-- With reports and without, the same items go: the loop comes to its one end, leaves what a
single `outbox_delete_expired` leaves, and reports each item it removed, in order. -/
theorem expiry_agrees (dispatch : DeletedEvent → E → E) (currentTick timeout : ℤ) {outbox : OutboxT} (env : E)
    (h : ClientReached outbox) :
    ReportsExpired dispatch currentTick timeout outbox env (outboxDeleteExpired outbox currentTick timeout).2
      (((outbox.list.filter (Item.expired currentTick timeout)).map Item.deletedEvent).foldl
        (fun env event => dispatch event env) env) ∧
    ∀ final last, ReportsExpired dispatch currentTick timeout outbox env final last →
      final = (outboxDeleteExpired outbox currentTick timeout).2 ∧
      last = ((outbox.list.filter (Item.expired currentTick timeout)).map Item.deletedEvent).foldl
        (fun env event => dispatch event env) env := by
  have hsound := h.reached.sound
  obtain ⟨final,hfinal,hlist,hreports⟩ := reportsExpired_all dispatch currentTick timeout _ env rfl
    hsound h.packetIds
  have heach := deleteEach_spec hsound (Item.expired currentTick timeout)
  have hsame : final = (outboxDeleteExpired outbox currentTick timeout).2 :=
    hfinal.eq_of_list heach.2.2 (hlist.trans heach.2.1.symm)
  rw [← hsame]
  exact ⟨hreports, fun other last hother => hother.unique hreports⟩

/-- A stored PUBLISH with QoS 0, whose id is 0. -/
def zeroIdOutbox : OutboxT :=
  ((mqttEnqueue 0 3 0 ⟨[0x30], 0, 0, 0, [], oneByte_len, noByte_len⟩ 0 (some 1) true).run outboxInit).2

theorem zeroId_reported :
    ReportsExpired (fun event log => log ++ [event]) 31000 30000 zeroIdOutbox [] ⟨0, []⟩ [⟨.deleted, 0⟩] := by
  have hreached : ClientReached zeroIdOutbox := .enqueue .init 0 3 0 _ 0 (some 1) true
  have hreports := (expiry_agrees (fun event log => log ++ [event]) 31000 30000 [] hreached).1
  have hleft : (outboxDeleteExpired zeroIdOutbox 31000 30000).2 = ⟨0, []⟩ := by decide +kernel
  have hlog : ((zeroIdOutbox.list.filter (Item.expired 31000 30000)).map Item.deletedEvent).foldl
      (fun log event => log ++ [event]) [] = [⟨.deleted, 0⟩] := by decide +kernel
  rwa [hleft, hlog] at hreports

end EspMqtt.MqttOutbox
