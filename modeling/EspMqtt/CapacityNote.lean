import EspMqtt.SlotConservation
import Mathlib.Data.List.MinMax
import Mathlib.Data.Prod.Lex

/-! `capacity_note_partial` in its own steps: the outbox and the clock are read, the buffers are
scanned under `capacity_lock`, the clock is read again, and a second critical section stores the
figures.  The owner task may run between any two of these steps. -/
namespace EspMqtt

/-- The locals that the first critical section of `capacity_note_partial` fills in. -/
structure CapacityScan where
  complete : UInt32
  payload : UInt32
  declared : UInt32
  received : UInt32
  bytes : UInt32
  deriving DecidableEq, Repr

/-- The loop over `messages`. -/
def scanSlots (r : Runtime) : List Slot → UInt32 → UInt32 → UInt32 × UInt32
  | [], complete, payload => (complete, payload)
  | s :: rest, complete, payload =>
    match r.messages s with
    | none => scanSlots r rest complete payload
    | some m => scanSlots r rest (complete+1) (payload+UInt32.ofNat m.info.length)

/-- The first critical section. -/
def capacityScan (r : Runtime) : CapacityScan :=
  let o := scanSlots r (List.finRange 3) 0 0
  let declared := UInt32.ofNat ((r.receiverMessage.map fun m => m.info.length).getD 0)
  { complete := o.1
    payload := o.2
    declared := declared
    received := UInt32.ofNat r.receiver.received
    bytes := o.2+declared+(o.1+1)*UInt32.ofNat ownedMessageBytes }

/-- One pass through `capacity_note_partial`.  `seen` and `seenOutbox`, the runtime and the size
of the outbox at the moment of the scan, are kept for statements. -/
structure Observation where
  outbox : Int32
  nowMs : ℕ
  scan : CapacityScan
  untilMs : ℕ
  seen : Runtime
  seenOutbox : Int32
  deriving DecidableEq

/-- The second critical section. -/
def capacityStore (c : CapacityStats) (o : Observation) : CapacityStats :=
  if o.outbox < 0 then {c with countersValid := false}
  else if c.rxPeakValid = false ∨ c.ownedRequestBytes < o.scan.bytes.toNat ∨
      (o.scan.bytes.toNat = c.ownedRequestBytes ∧
        c.outboxWireBytesAtRxPeak < o.outbox.toUInt32.toNat) then
    {c with
      rxPeakUptimeMs := o.nowMs
      rxPeakObservedUntilUptimeMs := o.untilMs
      completeOwnerCount := o.scan.complete.toNat
      completePayloadBytes := o.scan.payload.toNat
      partialDeclaredBytes := o.scan.declared.toNat
      partialReceivedBytes := o.scan.received.toNat
      ownedRequestBytes := o.scan.bytes.toNat
      outboxWireBytesAtRxPeak := o.outbox.toUInt32.toNat
      rxPeakValid := true}
  else c

/-- A callback up to the call of `capacity_note_partial`; `none` where it never gets there. -/
def onEventPartial (e : MqttEvent) (a : Answers) (r : Runtime) : Option Runtime :=
  match e.id, ensureReceiver e a r with
  | .data, (.ready m, r) =>
    match emqttReceiveInto r.receiver m.info m.payload m.info.length e.fragment with
    | (.more, rc, info, payload) =>
      some {r with receiver := rc, receiverMessage := some ⟨info,payload,m.allocated⟩}
    | _ => none
  | _, _ => none

/-- How far the worker has got inside `capacity_note_partial`. -/
inductive NotePhase where
  | outside
  | sampled (outbox : Int32) (nowMs : ℕ)
  | scanned (outbox : Int32) (nowMs : ℕ) (scan : CapacityScan) (seen : Runtime)
      (seenOutbox : Int32)
  | bounded (o : Observation)
  deriving DecidableEq

/-- The runtime, the size of the SDK's outbox, and the worker's place in a callback.  `observed`
lists what `capacity_note_partial` has seen so far, oldest first. -/
structure NoteMachine where
  machine : Machine
  outbox : Int32
  phase : NotePhase
  observed : List Observation

inductive NoteStep where
  | machine (s : MachineStep)
  | outbox (bytes : Int32)
  | scan
  | bound
  | store
  deriving DecidableEq, Repr

/-- The worker is inside a callback: the next one has to wait, and so does a step of the owner
that drains the runtime, since its stop waits for the callback. -/
def NoteMachine.meanwhile (w : NoteMachine) (s : MachineStep) (a : Answers) : NoteMachine :=
  let m := w.machine.step (s, a)
  match s with
  | .callback _ => w
  | _ =>
    -- what the partial message is, only callbacks and a drain change
    if m.rt.receiver = w.machine.rt.receiver ∧
        m.rt.receiverMessage = w.machine.rt.receiverMessage then {w with machine := m}
    else w

/-- The worker is not in `capacity_note_partial`: the step is one of the machine, except that a
callback may get the worker there. -/
def NoteMachine.advance (w : NoteMachine) (s : MachineStep) (a : Answers) : NoteMachine :=
  match s with
  | .callback e =>
    match onEventPartial e a (w.machine.rt.note (.callback e a.now)) with
    | some r =>
      {w with machine := {w.machine with rt := r}
              phase := .sampled w.outbox (a.partialNow.toNat/1000)}
    | none => {w with machine := w.machine.step (s, a)}
  | _ => {w with machine := w.machine.step (s, a)}

def NoteMachine.step (w : NoteMachine) (s : NoteStep × Answers) : NoteMachine :=
  match s.1 with
  | .machine st =>
    match w.phase with
    | .outside => w.advance st s.2
    | _ => w.meanwhile st s.2
  | .outbox bytes =>
    match w.phase with
    | .outside => {w with outbox := bytes}
    -- nothing changes the outbox while the worker has the API lock
    | _ => w
  | .scan =>
    match w.phase with
    | .sampled outbox nowMs =>
      {w with phase := .scanned outbox nowMs (capacityScan w.machine.rt) w.machine.rt w.outbox}
    | _ => w
  | .bound =>
    match w.phase with
    | .scanned outbox nowMs scan seen seenOutbox =>
      {w with phase :=
        .bounded ⟨outbox, nowMs, scan, s.2.partialUntil.toNat/1000, seen, seenOutbox⟩}
    | _ => w
  | .store =>
    match w.phase with
    | .bounded o =>
      { machine := {w.machine with rt := {w.machine.rt with
          capacity := capacityStore w.machine.rt.capacity o}}
        outbox := w.outbox, phase := .outside, observed := w.observed ++ [o] }
    | _ => w

def NoteMachine.run (w : NoteMachine) (ss : List (NoteStep × Answers)) : NoteMachine :=
  ss.foldl NoteMachine.step w

/-- An invariant of every step is an invariant of every run. -/
theorem NoteMachine.run_induction (P : NoteMachine → Prop) (hstep : ∀ w s, P w → P (w.step s))
    (ss : List (NoteStep × Answers)) (w : NoteMachine) (h : P w) : P (w.run ss) := by
  induction ss generalizing w with
  | nil => exact h
  | cons s ss ih => exact ih (w.step s) (hstep w s h)

/-- A new instance, with whatever the outbox holds. -/
def NoteMachine.created (tls : Bool) (subscriptions : List Subscription) (countersValid : Bool)
    (outbox : Int32) : NoteMachine :=
  ⟨⟨emqttCreated tls subscriptions countersValid, none⟩, outbox, .outside, []⟩

/-- The complete messages in the slots. -/
def Runtime.complete (r : Runtime) : List OwnedMessage := (List.finRange 3).filterMap r.messages

/-- What `emqtt_storage_calloc` was asked for to hold a message. -/
def OwnedMessage.requested (m : OwnedMessage) : ℕ := ownedMessageBytes+m.allocated

/-- What was asked for all the buffers in the slots and the one being received. -/
def Runtime.requestedBytes (r : Runtime) : ℕ :=
  ((r.complete ++ r.receiverMessage.toList).map OwnedMessage.requested).sum

/-- No storage is larger than the largest payload. -/
structure Runtime.Bounded (r : Runtime) : Prop where
  messages : ∀ s m, r.messages s = some m → m.allocated ≤ emqttPayloadMax
  receiver : ∀ m, r.receiverMessage = some m → m.allocated ≤ emqttPayloadMax

/-- The loop adds the buffers it meets to what it has, as long as that fits 32 bits. -/
theorem scanSlots_eq (r : Runtime) (ss : List Slot) (complete payload : UInt32)
    (hc : complete.toNat+(ss.filterMap r.messages).length < 4294967296)
    (hp : payload.toNat+((ss.filterMap r.messages).map fun m => m.info.length).sum < 4294967296) :
    (scanSlots r ss complete payload).1.toNat =
        complete.toNat+(ss.filterMap r.messages).length ∧
      (scanSlots r ss complete payload).2.toNat =
        payload.toNat+((ss.filterMap r.messages).map fun m => m.info.length).sum := by
  induction ss generalizing complete payload with
  | nil => simp [scanSlots]
  | cons s ss ih =>
    cases hm : r.messages s with
    | none =>
      simp only [scanSlots, hm, List.filterMap_cons] at hc hp ⊢
      exact ih complete payload hc hp
    | some m =>
      simp only [scanSlots, hm, List.filterMap_cons, List.length_cons, List.map_cons,
        List.sum_cons] at hc hp ⊢
      have hc1 : (complete+1).toNat = complete.toNat+1 := by
        rw [UInt32.toNat_add, UInt32.toNat_one]
        exact Nat.mod_eq_of_lt (by omega)
      have hp1 : (payload+UInt32.ofNat m.info.length).toNat = payload.toNat+m.info.length := by
        rw [UInt32.toNat_add, UInt32.toNat_ofNat_of_lt' (by rw [UInt32.size]; omega)]
        exact Nat.mod_eq_of_lt (by omega)
      have := ih (complete+1) (payload+UInt32.ofNat m.info.length) (by omega) (by omega)
      omega

/-- The figures of a scan are the true ones of the runtime it read: no sum has wrapped. -/
structure CapacityScan.Exact (c : CapacityScan) (r : Runtime) : Prop where
  receiving : r.receiverMessage.isSome = true
  complete : c.complete.toNat = r.complete.length
  payload : c.payload.toNat = (r.complete.map fun m => m.info.length).sum
  declared : ∀ m, r.receiverMessage = some m → c.declared.toNat = m.info.length
  received : c.received.toNat = r.receiver.received
  bytes : c.bytes.toNat = r.requestedBytes
  limit : r.requestedBytes ≤ 4*(ownedMessageBytes+emqttPayloadMax)

theorem mem_complete {r : Runtime} {m : OwnedMessage} (h : m ∈ r.complete) :
    ∃ s, r.messages s = some m := by
  obtain ⟨s,-,hs⟩ := List.mem_filterMap.mp h
  exact ⟨s,hs⟩

theorem SlotsOk.completeSized {out : List Slot} {r : Runtime} (h : SlotsOk out r) :
    ∀ b ∈ r.complete, b.info.length = b.allocated := by
  intro b hb
  obtain ⟨s,hs⟩ := mem_complete hb
  exact (h.sized s b hs).1

theorem complete_length (r : Runtime) : r.complete.length ≤ 3 := by
  have := List.length_filterMap_le r.messages (List.finRange 3)
  simpa only [List.length_finRange, Runtime.complete] using this

/-- A slot's buffer was asked for with its header and the length the header declares. -/
theorem requestedBytes_eq {r : Runtime} {m : OwnedMessage} (hm : r.receiverMessage = some m)
    (hs : ∀ b ∈ r.complete, b.info.length = b.allocated) (hr : m.info.length = m.allocated) :
    r.requestedBytes = (r.complete.map fun b => b.info.length).sum+m.info.length+
      (r.complete.length+1)*ownedMessageBytes := by
  have hmap : r.complete.map OwnedMessage.requested =
      r.complete.map fun b => ownedMessageBytes+b.info.length := by
    apply List.map_congr_left
    intro b hb
    rw [hs b hb]
    rfl
  have hsum : (r.complete.map fun b => ownedMessageBytes+b.info.length).sum =
      r.complete.length*ownedMessageBytes+(r.complete.map fun b => b.info.length).sum := by
    rw [List.sum_map_add, List.map_const', List.sum_replicate, smul_eq_mul]
  calc r.requestedBytes
      = (r.complete.map OwnedMessage.requested).sum+m.requested := by
        rw [Runtime.requestedBytes, hm, List.map_append, List.sum_append]
        simp
    _ = r.complete.length*ownedMessageBytes+(r.complete.map fun b => b.info.length).sum+
          (ownedMessageBytes+m.info.length) := by
        rw [hmap, hsum, hr]
        rfl
    _ = _ := by ring

/-- What the first critical section computes in 32 bits. -/
theorem capacityScan_exact {out : List Slot} {r : Runtime} (h : SlotsOk out r) (hb : r.Bounded)
    (hm : r.receiverMessage.isSome = true) (hrec : r.receiver.received ≤ emqttPayloadMax) :
    (capacityScan r).Exact r := by
  obtain ⟨m,hm⟩ := Option.isSome_iff_exists.mp hm
  have hlen := complete_length r
  have hsized := h.completeSized
  have hmax : ∀ n ∈ r.complete.map (fun b => b.info.length), n ≤ emqttPayloadMax := by
    intro n hn
    obtain ⟨b,hbm,rfl⟩ := List.mem_map.mp hn
    obtain ⟨s,hs⟩ := mem_complete hbm
    rw [hsized b hbm]
    exact hb.messages s b hs
  have hm1 : m.info.length = m.allocated := (h.receiving m hm).1
  have hm2 : m.info.length ≤ 4096 := hm1 ▸ hb.receiver m hm
  have hsum : (r.complete.map fun b => b.info.length).sum ≤ 3*4096 := by
    calc (r.complete.map fun b => b.info.length).sum
        ≤ (r.complete.map fun b => b.info.length).length • emqttPayloadMax :=
          List.sum_le_card_nsmul _ _ hmax
      _ ≤ 3*4096 := by
          rw [List.length_map, smul_eq_mul]
          exact Nat.mul_le_mul_right 4096 hlen
  have hreq := requestedBytes_eq hm hsized hm1
  have hscan := scanSlots_eq r (List.finRange 3) 0 0 (by
      rw [UInt32.toNat_zero, Nat.zero_add]
      exact lt_of_le_of_lt hlen (by norm_num)) (by
      rw [UInt32.toNat_zero, Nat.zero_add]
      exact lt_of_le_of_lt hsum (by norm_num))
  simp only [UInt32.toNat_zero, Nat.zero_add] at hscan
  have hc : (capacityScan r).complete.toNat = r.complete.length := hscan.1
  have hp : (capacityScan r).payload.toNat = (r.complete.map fun b => b.info.length).sum :=
    hscan.2
  have hd : (capacityScan r).declared.toNat = m.info.length := by
    simp only [capacityScan, hm, Option.map_some, Option.getD_some]
    exact UInt32.toNat_ofNat_of_lt' (lt_of_le_of_lt hm2 (by norm_num [UInt32.size]))
  refine {
    receiving := Option.isSome_iff_exists.mpr ⟨m,hm⟩
    complete := hc
    payload := hp
    declared := fun m' hm' => ?_
    received := ?_
    bytes := ?_
    limit := ?_ }
  · rw [hm] at hm'
    cases hm'
    exact hd
  · apply UInt32.toNat_ofNat_of_lt'
    exact lt_of_le_of_lt hrec (by norm_num [UInt32.size, emqttPayloadMax])
  · have hbytes : (capacityScan r).bytes = (capacityScan r).payload+(capacityScan r).declared+
        ((capacityScan r).complete+1)*272 := rfl
    -- none of the partial sums reaches 2^32
    rw [hbytes, UInt32.toNat_add, UInt32.toNat_add, UInt32.toNat_mul, UInt32.toNat_add, hc, hp, hd,
      hreq]
    simp only [UInt32.toNat_one, UInt32.reduceToNat, ownedMessageBytes]
    omega
  · rw [hreq]
    simp only [ownedMessageBytes, emqttPayloadMax]
    omega

/-- The cast of a count that is not negative. -/
theorem toUInt32_of_nonneg {n : Int32} (h : ¬ n < 0) : (n.toUInt32.toNat : ℤ) = n.toInt := by
  have h0 : 0 ≤ n := Int32.not_lt.mp h
  have hint : (0 : ℤ) ≤ n.toInt := by simpa only [Int32.toInt_zero] using Int32.le_iff_toInt_le.mp h0
  have hnat : n.toUInt32.toNat = n.toInt.toNat := by
    rw [← Int32.toNat_toBitVec, Int32.toNat_toBitVec_of_le h0]
    rfl
  omega

/-- What a pass that nothing interrupts sees. -/
def observe (r : Runtime) (a : Answers) (outbox : Int32) : Observation :=
  ⟨outbox, a.partialNow.toNat/1000, capacityScan r, a.partialUntil.toNat/1000, r, outbox⟩

/-- The two critical sections with nothing in between are the function as a whole. -/
theorem capacityNotePartial_eq_store {out : List Slot} {r : Runtime} (hok : SlotsOk out r)
    (hb : r.Bounded) (hsome : r.receiverMessage.isSome = true)
    (hrec : r.receiver.received ≤ emqttPayloadMax) (a : Answers) (outbox : Int32)
    (ha : a.outboxSize = outbox.toInt) :
    capacityNotePartial r a =
      {r with capacity := capacityStore r.capacity (observe r a outbox)} := by
  have h := capacityScan_exact hok hb hsome hrec
  obtain ⟨m,hm⟩ := Option.isSome_iff_exists.mp hsome
  have hbytes : (capacityScan r).bytes.toNat = (r.complete.map fun b => b.info.length).sum+
      m.info.length+(r.complete.length+1)*ownedMessageBytes :=
    h.bytes.trans (requestedBytes_eq hm hok.completeSized (hok.receiving m hm).1)
  have hdecl : (r.receiverMessage.map fun b => b.info.length).getD 0 = m.info.length := by
    rw [hm, Option.map_some, Option.getD_some]
  have hneg : a.outboxSize < 0 ↔ outbox < 0 := by
    rw [ha, Int32.lt_iff_toInt_lt, Int32.toInt_zero]
  unfold capacityNotePartial capacityStore
  by_cases hlt : outbox < 0
  · rw [if_pos (hneg.mpr hlt), observe, if_pos hlt]
  · have hcast := toUInt32_of_nonneg hlt
    have hnat : a.outboxSize.toNat = outbox.toUInt32.toNat := by omega
    have hless : (r.capacity.outboxWireBytesAtRxPeak : ℤ) < a.outboxSize ↔
        r.capacity.outboxWireBytesAtRxPeak < outbox.toUInt32.toNat := by omega
    simp only [if_neg (mt hneg.mp hlt), observe, if_neg hlt, hbytes, h.complete, h.payload,
      h.declared m hm, h.received, hnat, hless, hdecl, Runtime.complete]
    split
    · rfl
    · rfl

end EspMqtt
