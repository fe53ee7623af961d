import EspMqtt.Lifecycle

/-! The assertions at the points of `esp_mqtt_client_start` and `esp_mqtt_client_stop`,
and that no step of a call disturbs them. -/
namespace EspMqtt

namespace CallPc

/-- Between lock and unlock. -/
def locked : CallPc → Bool
  | .startCheck | .startRun | .startState | .startClear | .startCreate => true
  | .undoRun | .undoHandle | .undoState => true
  | .stopCheck | .stopSelf | .stopMark | .stopRun _ | .stopState _ | .stopUnlock _ => true
  | .stopClear _ | .stopDone _ | .stopRelease _ | .unlock _ => true
  | _ => false

/-- A start past its check that has no worker yet. -/
def starts : CallPc → Bool
  | .startRun | .startState | .startClear | .startCreate => true
  | .undoRun | .undoHandle | .undoState => true
  | _ => false

/-- A stop past its check that has not marked itself. -/
def checked : CallPc → Bool
  | .stopSelf | .stopMark => true
  | _ => false

/-- The worker a stop is joining. -/
def joins : CallPc → Option ℕ
  | .stopRun k | .stopState k | .stopUnlock k | .stopWait k | .stopRelock k | .stopClear k => some k
  | _ => none

/-- A stop that has `stopping` for itself. -/
def marks : CallPc → Bool
  | .stopRun _ | .stopState _ | .stopUnlock _ | .stopWait _ | .stopRelock _ | .stopClear _ => true
  | .stopDone _ => true
  | _ => false

/-- A stop that has cleared the handle and still has the lock. -/
def emptied : CallPc → Bool
  | .stopDone _ | .stopRelease _ => true
  | _ => false

/-- A stop that has seen the bit. -/
def waited : CallPc → Bool
  | .stopRelock _ | .stopClear _ => true
  | _ => false

/-- The worker a stop has joined. -/
def joined : CallPc → Option ℕ
  | .stopDone k | .stopRelease k | .stopped k => some k
  | _ => none

/-- Where a call made by a handler can stand. -/
def refusable : CallPc → Bool
  | .startLock | .startCheck | .stopLock | .stopCheck | .stopSelf => true
  | .unlock ok | .returned ok => !ok
  | _ => false

end CallPc

/-- The worker has the lock. -/
def WorkerPc.locks : WorkerPc → Bool
  | .locked _ | .calling _ _ => true
  | _ => false

/-- The assertion at point `pc` of call `i`. -/
structure CallOk (s : Life) (i : ℕ) (pc : CallPc) : Prop where
  locked : pc.locked = true → s.lock = some (s.holder i)
  handler : ∀ k, s.caller i = some k → pc.refusable = true ∧
    (pc.over = false → ∃ abort, s.workers k = .calling abort i)
  starts : pc.starts = true → s.taskHandle = none
  cleared : pc = .startCreate → s.stoppedBit = false
  checked : pc.checked = true → s.stopping = false ∧ s.taskHandle ≠ none
  marks : pc.marks = true → s.stopping = true
  joins : ∀ k, pc.joins = some k → s.taskHandle = some k
  emptied : pc.emptied = true → s.taskHandle = none
  waited : pc.waited = true → s.stoppedBit = true
  joined : ∀ k, pc.joined = some k → s.workers k = .gone

/-- What holds between the worker and the shared state. -/
structure SharedOk (s : Life) : Prop where
  lock : ∀ k, (s.workers k).locks = true → s.lock = some (.worker k)
  born : ∀ k, s.workers k = .unborn ↔ s.created ≤ k
  handle : ∀ k, s.taskHandle = some k → (s.stoppedBit = true ↔ s.workers k = .gone)
  alive : ∀ k, (s.workers k).alive = true → s.taskHandle = some k
  last : ∀ k, s.taskHandle = some k → s.workers k = .signalling ∨ s.workers k = .gone →
    s.state = .disconnected
  free : s.taskHandle = none → s.state = .init ∨ s.state = .disconnected

/-- The invariant of the life of a client: every call satisfies the assertion where it
stands, and at most one stop has marked itself. -/
structure LifeOk (s : Life) : Prop where
  shared : SharedOk s
  call : ∀ i, CallOk s i (s.calls i)
  oneMark : ∀ i j, (s.calls i).marks = true → (s.calls j).marks = true → i = j

theorem CallPc.locked_over {pc : CallPc} (h : pc.locked = true) : pc.over = false := by
  cases pc <;> simp_all [CallPc.locked, CallPc.over]

/-- The lock excludes: one call at most is between lock and unlock. -/
theorem LifeOk.excludes {s : Life} (h : LifeOk s) {i j : ℕ} (hi : (s.calls i).locked = true)
    (hj : (s.calls j).locked = true) : i = j := by
  have hlock := ((h.call i).locked hi).symm.trans ((h.call j).locked hj)
  unfold Life.holder at hlock
  cases hci : s.caller i with
  | none =>
    cases hcj : s.caller j with
    | none =>
      rw [hci, hcj] at hlock
      simpa using hlock
    | some k =>
      rw [hci, hcj] at hlock
      simp at hlock
  | some k =>
    cases hcj : s.caller j with
    | none =>
      rw [hci, hcj] at hlock
      simp at hlock
    | some k' =>
      rw [hci, hcj] at hlock
      obtain rfl : k = k' := by simpa using hlock
      -- a worker is in one call at a time
      obtain ⟨a,ha⟩ := ((h.call i).handler k hci).2 (CallPc.locked_over hi)
      obtain ⟨b,hb⟩ := ((h.call j).handler k hcj).2 (CallPc.locked_over hj)
      rw [ha] at hb
      simp only [WorkerPc.calling.injEq] at hb
      exact hb.2

/-- Nobody is between lock and unlock while the lock is free. -/
theorem LifeOk.unlocked {s : Life} (h : LifeOk s) (hfree : s.lock = none) (j : ℕ) :
    (s.calls j).locked = false := by
  by_contra hj
  have hlock := (h.call j).locked (by simpa using hj)
  simp [hfree] at hlock

/-- A step of call `i`: shared data changes, the call goes on to `pc`, and the assertions
of the others are not disturbed. -/
theorem LifeOk.goto {s g : Life} (h : LifeOk s) {i : ℕ} {pc : CallPc} (hcalls : g.calls = s.calls)
    (hshared : SharedOk g) (hothers : ∀ j, j ≠ i → CallOk g j (s.calls j)) (hself : CallOk g i pc)
    (hmark : pc.marks = true → ∀ j, j ≠ i → (s.calls j).marks = false) :
    LifeOk (g.goto i pc) where
  shared := ⟨hshared.lock, hshared.born, hshared.handle, hshared.alive, hshared.last, hshared.free⟩
  call j := by
    change CallOk (g.goto i pc) j (Function.update g.calls i pc j)
    by_cases hj : j = i
    · subst hj
      rw [Function.update_self]
      exact ⟨hself.1, hself.2, hself.3, hself.4, hself.5, hself.6, hself.7, hself.8, hself.9, hself.10⟩
    · rw [Function.update_of_ne hj, hcalls]
      have ho := hothers j hj
      exact ⟨ho.1, ho.2, ho.3, ho.4, ho.5, ho.6, ho.7, ho.8, ho.9, ho.10⟩
  oneMark a b := by
    simp only [Life.goto, Function.update_apply, hcalls]
    intro ha hb
    split at ha
    · split at hb
      · omega
      · simp [hmark ha b (by assumption)] at hb
    · split at hb
      · simp [hmark hb a (by assumption)] at ha
      · exact h.oneMark a b ha hb

/-- The assertion at `pc` speaks of the handle. -/
def CallPc.handled (pc : CallPc) : Bool :=
  pc.starts || pc.checked || pc.marks || pc.emptied

theorem CallPc.joins_marks {pc : CallPc} {k : ℕ} (h : pc.joins = some k) : pc.marks = true := by
  cases pc <;> simp_all [CallPc.joins, CallPc.marks]

/-- An assertion stays true as long as what it speaks of stays the same. -/
theorem CallOk.frame {s g : Life} {j : ℕ} {pc : CallPc} (h : CallOk s j pc)
    (hcaller : g.caller j = s.caller j) (hlock : pc.locked = true → g.lock = s.lock)
    (hcalling : ∀ k abort, s.caller j = some k → pc.over = false →
      s.workers k = .calling abort j → g.workers k = .calling abort j)
    (hgone : ∀ k, s.workers k = .gone → g.workers k = .gone)
    (hhandle : pc.handled = true → g.taskHandle = s.taskHandle)
    (hstopping : pc.checked = true ∨ pc.marks = true → g.stopping = s.stopping)
    (hbit : pc = .startCreate ∨ pc.waited = true → g.stoppedBit = s.stoppedBit) :
    CallOk g j pc where
  locked hp := by
    have hholder : g.holder j = s.holder j := by
      unfold Life.holder
      rw [hcaller]
    rw [hlock hp, hholder]
    exact h.locked hp
  handler k hk := by
    rw [hcaller] at hk
    refine ⟨(h.handler k hk).1, fun hover => ?_⟩
    obtain ⟨abort,hw⟩ := (h.handler k hk).2 hover
    exact ⟨abort, hcalling k abort hk hover hw⟩
  starts hp := by rw [hhandle (by simp [CallPc.handled, hp])]; exact h.starts hp
  cleared hp := by rw [hbit (Or.inl hp)]; exact h.cleared hp
  checked hp := by
    rw [hstopping (Or.inl hp), hhandle (by simp [CallPc.handled, hp])]
    exact h.checked hp
  marks hp := by rw [hstopping (Or.inr hp)]; exact h.marks hp
  joins k hp := by
    rw [hhandle (by simp [CallPc.handled, CallPc.joins_marks hp])]
    exact h.joins k hp
  emptied hp := by rw [hhandle (by simp [CallPc.handled, hp])]; exact h.emptied hp
  waited hp := by rw [hbit (Or.inr hp)]; exact h.waited hp
  joined k hp := hgone k (h.joined k hp)

/-- Only a handler's call has a worker for its caller, and not for long. -/
theorem CallOk.user {s : Life} {i : ℕ} {pc : CallPc} (h : CallOk s i pc)
    (hpc : pc.refusable = false) : s.caller i = none := by
  cases hc : s.caller i with
  | none => rfl
  | some k =>
    have hr := (h.handler k hc).1
    simp [hpc] at hr

/-- The assertions of a start past its check. -/
theorem CallOk.start {s : Life} {i : ℕ} {pc : CallPc} (hpc : pc.starts = true)
    (hlock : s.lock = some (s.holder i)) (hcaller : s.caller i = none) (hnone : s.taskHandle = none)
    (hbit : pc = .startCreate → s.stoppedBit = false) : CallOk s i pc := by
  refine ⟨fun _ => hlock, by simp [hcaller], fun _ => hnone, hbit, ?_, ?_, ?_, ?_, ?_, ?_⟩ <;>
    cases pc <;>
      simp_all [CallPc.starts, CallPc.checked, CallPc.marks, CallPc.joins, CallPc.waited, CallPc.joined, CallPc.emptied]

/-- The assertions of a stop that joins `k`. -/
theorem CallOk.join {s : Life} {i k : ℕ} {pc : CallPc} (hpc : pc.joins = some k)
    (hlock : pc.locked = true → s.lock = some (s.holder i)) (hcaller : s.caller i = none)
    (hstopping : s.stopping = true) (hhandle : s.taskHandle = some k)
    (hbit : pc.waited = true → s.stoppedBit = true) : CallOk s i pc := by
  refine ⟨hlock, by simp [hcaller], ?_, ?_, ?_, fun _ => hstopping, ?_, ?_, hbit, ?_⟩ <;>
    cases pc <;>
      simp_all [CallPc.starts, CallPc.checked, CallPc.joins, CallPc.joined, CallPc.emptied]

/-- The assertions of the points that do not speak of the handle. -/
theorem CallOk.quiet {s : Life} {i : ℕ} {pc : CallPc} (hpc : pc.handled = false)
    (hlock : pc.locked = true → s.lock = some (s.holder i))
    (hhandler : ∀ k, s.caller i = some k → pc.refusable = true ∧
      (pc.over = false → ∃ abort, s.workers k = .calling abort i))
    (hjoined : ∀ k, pc.joined = some k → s.workers k = .gone) : CallOk s i pc := by
  refine ⟨hlock, hhandler, ?_, ?_, ?_, ?_, ?_, ?_, ?_, hjoined⟩ <;>
    cases pc <;>
      simp_all [CallPc.handled, CallPc.starts, CallPc.checked, CallPc.marks, CallPc.joins, CallPc.waited, CallPc.emptied]

/-- From one point of a start past its check to the next. -/
theorem CallOk.nextStart {s : Life} {i : ℕ} {pc pc' : CallPc} (h : CallOk s i pc)
    (hpc : pc.starts = true) (hpc' : pc'.starts = true) (hne : pc' ≠ .startCreate) :
    CallOk s i pc' := by
  have hlocked : pc.locked = true := by cases pc <;> simp_all [CallPc.starts, CallPc.locked]
  have hfree : pc.refusable = false := by cases pc <;> simp_all [CallPc.starts, CallPc.refusable]
  exact .start hpc' (h.locked hlocked) (h.user hfree) (h.starts hpc) fun he => absurd he hne

/-- A check that fails, in a call of any task. -/
theorem CallOk.refused {s : Life} {i : ℕ} {pc : CallPc} (h : CallOk s i pc)
    (hpc : pc.locked = true) (hover : pc.over = false) : CallOk s i (.unlock false) :=
  .quiet rfl (fun _ => h.locked hpc) (fun k hk => ⟨rfl, fun _ => (h.handler k hk).2 hover⟩)
    (by simp [CallPc.joined])

theorem LifeOk.notMarked {s : Life} (h : LifeOk s) {i : ℕ} (hi : (s.calls i).marks = true) (j : ℕ)
    (hj : j ≠ i) : (s.calls j).marks = false := by
  by_contra hmark
  exact hj (h.oneMark j i (by simpa using hmark) hi)

theorem LifeOk.notLocked {s : Life} (h : LifeOk s) {i : ℕ} (hi : (s.calls i).locked = true) (j : ℕ)
    (hj : j ≠ i) : (s.calls j).locked = false := by
  by_contra hlock
  exact hj (h.excludes (by simpa using hlock) hi)

/-- A step that only reads. -/
theorem LifeOk.advance {s : Life} (h : LifeOk s) {i : ℕ} {pc : CallPc} (hself : CallOk s i pc)
    (hmark : pc.marks = true → (s.calls i).marks = true) : LifeOk (s.goto i pc) :=
  h.goto rfl h.shared (fun j _ => h.call j) hself fun hm => h.notMarked (hmark hm)

theorem CallPc.checked_locked {pc : CallPc} (h : pc.checked = true) : pc.locked = true := by
  cases pc <;> simp_all [CallPc.checked, CallPc.locked]

/-- Where nobody else is between lock and unlock and nobody else has marked itself, no
other assertion speaks of the handle. -/
theorem CallPc.not_handled {pc : CallPc} (hlock : pc.locked = false) (hmark : pc.marks = false) :
    pc.handled = false := by
  cases pc <;> simp_all [CallPc.handled, CallPc.locked, CallPc.marks, CallPc.starts, CallPc.checked, CallPc.emptied]

theorem SharedOk.withState {s : Life} (h : SharedOk s) {st : MqttState}
    (hok : st = .disconnected ∨ (st = .init ∧ s.taskHandle = none)) :
    SharedOk {s with state := st} := by
  refine ⟨h.lock, h.born, h.handle, h.alive, ?_, ?_⟩
  · intro k hk _
    rcases hok with hst | ⟨-,hnone⟩
    · exact hst
    · change s.taskHandle = some k at hk
      simp [hnone] at hk
  · intro _
    rcases hok with hst | ⟨hst,-⟩
    · exact Or.inr hst
    · exact Or.inl hst

theorem SharedOk.withRun {s : Life} (h : SharedOk s) (run : Bool) : SharedOk {s with run := run} :=
  ⟨h.lock, h.born, h.handle, h.alive, h.last, h.free⟩

/-- Neither `run` nor `state` is part of any assertion. -/
theorem CallOk.withFlags {s : Life} {j : ℕ} {pc : CallPc} (h : CallOk s j pc) (run : Bool)
    (st : MqttState) : CallOk {s with run := run, state := st} j pc :=
  ⟨h.1, h.2, h.3, h.4, h.5, h.6, h.7, h.8, h.9, h.10⟩

/-! One lemma for each thing a call does to the shared state. -/

theorem acquire_eq {s q : Life} {i : ℕ} (h : s.acquire i = some q) :
    ∃ l, q = {s with lock := l} := by
  unfold Life.acquire at h
  split at h
  · cases h
    exact ⟨_,rfl⟩
  · split at h
    · cases h
      exact ⟨s.lock,rfl⟩
    · cases h
  · cases h

theorem release_eq (s : Life) (i : ℕ) : ∃ l, s.release i = {s with lock := l} := by
  unfold Life.release
  split
  · exact ⟨_,rfl⟩
  · exact ⟨s.lock,rfl⟩

theorem acquire_ok {s q : Life} (h : LifeOk s) {i : ℕ} {pc : CallPc} (hq : s.acquire i = some q)
    (hself : q.lock = some (q.holder i) → CallOk q i pc)
    (hmark : pc.marks = true → (s.calls i).marks = true) : LifeOk (q.goto i pc) := by
  unfold Life.acquire at hq
  split at hq
  · rename_i hcaller hfree
    cases hq
    have hholder : ({s with lock := some (.call i)} : Life).holder i = .call i := by
      simp [Life.holder, hcaller]
    refine h.goto rfl ?_ (fun j _ => ?_) (hself (by rw [hholder])) fun hm => h.notMarked (hmark hm)
    · refine ⟨fun k hk => ?_, h.shared.born, h.shared.handle, h.shared.alive, h.shared.last,
        h.shared.free⟩
      have hlock := h.shared.lock k hk
      simp [hfree] at hlock
    · have hunlocked := h.unlocked hfree j
      exact (h.call j).frame rfl (fun hp => by simp [hunlocked] at hp) (fun _ _ _ _ hw => hw)
        (fun _ hw => hw) (fun _ => rfl) (fun _ => rfl) (fun _ => rfl)
  · rename_i k k' hcaller hheld
    split at hq
    · rename_i hk
      cases hq
      subst hk
      refine h.advance (hself ?_) hmark
      rw [hheld]
      simp [Life.holder, hcaller]
    · cases hq
  · cases hq

theorem release_ok {s : Life} (h : LifeOk s) {i : ℕ} {pc : CallPc}
    (hlocked : (s.calls i).locked = true) (hself : CallOk (s.release i) i pc)
    (hmark : pc.marks = true → (s.calls i).marks = true) : LifeOk ((s.release i).goto i pc) := by
  unfold Life.release at hself ⊢
  cases hcaller : s.caller i with
  | some k =>
    rw [hcaller] at hself
    exact h.advance hself hmark
  | none =>
    rw [hcaller] at hself
    have hheld : s.lock = some (.call i) := by
      have hlock := (h.call i).locked hlocked
      simpa [Life.holder, hcaller] using hlock
    refine h.goto rfl ?_ (fun j hj => ?_) hself fun hm => h.notMarked (hmark hm)
    · refine ⟨fun k hk => ?_, h.shared.born, h.shared.handle, h.shared.alive, h.shared.last,
        h.shared.free⟩
      have hlock := h.shared.lock k hk
      simp [hheld] at hlock
    · have hunlocked := h.notLocked hlocked j hj
      exact (h.call j).frame rfl (fun hp => by simp [hunlocked] at hp) (fun _ _ _ _ hw => hw)
        (fun _ hw => hw) (fun _ => rfl) (fun _ => rfl) (fun _ => rfl)

/-- A start clears the bit: no stop is past its wait, since there is no handle. -/
theorem startClear_ok {s : Life} (h : LifeOk s) {i : ℕ} (hpc : s.calls i = .startClear) :
    LifeOk ({s with stoppedBit := false}.goto i .startCreate) := by
  have hself := h.call i
  rw [hpc] at hself
  have hnone := hself.starts rfl
  refine h.goto rfl ?_ (fun j _ => ?_) ?_ (by simp [CallPc.marks])
  · exact ⟨h.shared.lock, h.shared.born, fun k hk => by simp [hnone] at hk, h.shared.alive,
      h.shared.last, h.shared.free⟩
  · refine (h.call j).frame rfl (fun _ => rfl) (fun _ _ _ _ hw => hw) (fun _ hw => hw)
      (fun _ => rfl) (fun _ => rfl) ?_
    rintro (hp | hp)
    · exact ((h.call j).cleared hp).symm
    · have hjoins : ∃ k, (s.calls j).joins = some k := by
        cases hj : s.calls j <;> simp_all [CallPc.waited, CallPc.joins]
      obtain ⟨k,hk⟩ := hjoins
      have := (h.call j).joins k hk
      simp [hnone] at this
  · exact .start rfl (hself.locked rfl) (hself.user rfl) hnone (fun _ => rfl)

/-- A start that finds no handle finds nobody joining. -/
theorem LifeOk.notMarked_of_none {s : Life} (h : LifeOk s) {i : ℕ}
    (hi : (s.calls i).locked = true) (hnone : s.taskHandle = none) (j : ℕ) (hj : j ≠ i) :
    (s.calls j).marks = false := by
  by_contra hm
  have hunlocked := h.notLocked hi j hj
  have hjoins : ∃ k, (s.calls j).joins = some k := by
    cases hpc : s.calls j <;> simp_all [CallPc.marks, CallPc.joins, CallPc.locked]
  obtain ⟨k,hk⟩ := hjoins
  have hhandle := (h.call j).joins k hk
  simp [hnone] at hhandle

/-- A start creates its worker, and the handle names it. -/
theorem startCreate_ok {s : Life} (h : LifeOk s) {i : ℕ} (hpc : s.calls i = .startCreate) :
    LifeOk (({s with taskHandle := some s.created, created := s.created+1}.move s.created
      .test).goto i (.unlock true)) := by
  have hself := h.call i
  rw [hpc] at hself
  have hnone := hself.starts rfl
  have hbit := hself.cleared rfl
  have hnew : s.workers s.created = .unborn := (h.shared.born _).mpr le_rfl
  have hlocked : (s.calls i).locked = true := by simp [hpc, CallPc.locked]
  refine h.goto rfl ?_ (fun j hj => ?_) ?_ (by simp [CallPc.marks])
  · refine ⟨fun k hk => ?_, fun k => ?_, fun k hk => ?_, fun k hk => ?_, fun k hk hl => ?_, by simp [Life.move]⟩
    · by_cases hkc : k = s.created
      · simp [Life.move, hkc, WorkerPc.locks] at hk
      · exact h.shared.lock k (by simpa [Life.move, hkc] using hk)
    · by_cases hkc : k = s.created
      · simp [Life.move, hkc]
      · have hb := h.shared.born k
        simp only [Life.move, Function.update_of_ne hkc]
        rw [hb]
        omega
    · obtain rfl : s.created = k := by simpa [Life.move] using hk
      simp [Life.move, hbit]
    · by_cases hkc : k = s.created
      · simp [Life.move, hkc]
      · have ha := h.shared.alive k (by simpa [Life.move, hkc] using hk)
        simp [hnone] at ha
    · obtain rfl : s.created = k := by simpa [Life.move] using hk
      simp [Life.move] at hl
  · have hunlocked := h.notLocked hlocked j hj
    have hunmarked := h.notMarked_of_none hlocked hnone j hj
    have hkept : ∀ k pc, s.workers k = pc → pc ≠ .unborn →
        (Function.update s.workers s.created .test) k = pc := by
      intro k pc hk hne
      have hkc : k ≠ s.created := by
        rintro rfl
        exact hne (hk.symm.trans hnew)
      rw [Function.update_of_ne hkc, hk]
    refine (h.call j).frame rfl (fun _ => rfl) (fun k a _ _ hw => hkept k _ hw (by simp))
      (fun k hw => hkept k _ hw (by simp)) (fun hp => ?_) (fun _ => rfl) (fun _ => rfl)
    simp [CallPc.not_handled hunlocked hunmarked] at hp
  · refine .quiet rfl (fun _ => hself.locked rfl) (fun k hk => ?_) (by simp [CallPc.joined])
    have hu : s.caller i = none := hself.user rfl
    change s.caller i = some k at hk
    simp [hu] at hk

/-- A stop marks itself; no other stop is past its own check. -/
theorem stopMark_ok {s : Life} (h : LifeOk s) {i : ℕ} (hpc : s.calls i = .stopMark) :
    LifeOk ({s with stopping := true}.goto i (.stopRun (s.taskHandle.getD 0))) := by
  have hself := h.call i
  rw [hpc] at hself
  obtain ⟨hstop,hsome⟩ := hself.checked rfl
  obtain ⟨k,hk⟩ := Option.ne_none_iff_exists'.mp hsome
  have hlocked : (s.calls i).locked = true := by simp [hpc, CallPc.locked]
  have hunmarked : ∀ j, (s.calls j).marks = false := by
    intro j
    by_contra hm
    have := (h.call j).marks (by simpa using hm)
    simp [hstop] at this
  refine h.goto rfl ?_ (fun j hj => ?_) ?_ (fun _ j _ => hunmarked j)
  · exact ⟨h.shared.lock, h.shared.born, h.shared.handle, h.shared.alive, h.shared.last,
      h.shared.free⟩
  · refine (h.call j).frame rfl (fun _ => rfl) (fun _ _ _ _ hw => hw) (fun _ hw => hw)
      (fun _ => rfl) ?_ (fun _ => rfl)
    rintro (hp | hp)
    · have := h.notLocked hlocked j hj
      simp [CallPc.checked_locked hp] at this
    · simp [hunmarked j] at hp
  · have hget : s.taskHandle.getD 0 = k := by simp [hk]
    rw [hget]
    exact .join rfl (fun _ => hself.locked rfl) (hself.user rfl) rfl hk (by simp [CallPc.waited])

/-- The stop that joined clears the handle; the worker is gone. -/
theorem stopClear_ok {s : Life} (h : LifeOk s) {i k : ℕ} (hpc : s.calls i = .stopClear k) :
    LifeOk ({s with taskHandle := none}.goto i (.stopDone k)) := by
  have hself := h.call i
  rw [hpc] at hself
  have hhandle := hself.joins k rfl
  have hgone : s.workers k = .gone := (h.shared.handle k hhandle).mp (hself.waited rfl)
  have hlocked : (s.calls i).locked = true := by simp [hpc, CallPc.locked]
  have hmarks : (s.calls i).marks = true := by simp [hpc, CallPc.marks]
  refine h.goto rfl ?_ (fun j hj => ?_) ?_ (fun _ => h.notMarked hmarks)
  · refine ⟨h.shared.lock, h.shared.born, by simp, fun k' hk' => ?_, by simp, fun _ => ?_⟩
    · -- the one worker that could be alive is the one that is gone
      have ha := h.shared.alive k' hk'
      rw [hhandle] at ha
      obtain rfl : k = k' := by simpa using ha
      simp [hgone, WorkerPc.alive] at hk'
    · exact Or.inr (h.shared.last k hhandle (Or.inr hgone))
  · refine (h.call j).frame rfl (fun _ => rfl) (fun _ _ _ _ hw => hw) (fun _ hw => hw)
      (fun hp => ?_) (fun _ => rfl) (fun _ => rfl)
    simp [CallPc.not_handled (h.notLocked hlocked j hj) (h.notMarked hmarks j hj)] at hp
  · refine ⟨fun _ => hself.locked rfl, ?_, ?_, ?_, ?_, fun _ => hself.marks rfl, ?_, ?_, ?_, ?_⟩
    · intro k' hk'
      have hu : s.caller i = none := hself.user rfl
      change s.caller i = some k' at hk'
      simp [hu] at hk'
    all_goals simp [CallPc.starts, CallPc.checked, CallPc.joins, CallPc.waited, CallPc.joined, CallPc.emptied]
    exact hgone

theorem stopDone_ok {s : Life} (h : LifeOk s) {i k : ℕ} (hpc : s.calls i = .stopDone k) :
    LifeOk ({s with stopping := false}.goto i (.stopRelease k)) := by
  have hself := h.call i
  rw [hpc] at hself
  have hlocked : (s.calls i).locked = true := by simp [hpc, CallPc.locked]
  have hmarks : (s.calls i).marks = true := by simp [hpc, CallPc.marks]
  refine h.goto rfl ?_ (fun j hj => ?_) ?_ (by simp [CallPc.marks])
  · exact ⟨h.shared.lock, h.shared.born, h.shared.handle, h.shared.alive, h.shared.last,
      h.shared.free⟩
  · refine (h.call j).frame rfl (fun _ => rfl) (fun _ _ _ _ hw => hw) (fun _ hw => hw)
      (fun _ => rfl) ?_ (fun _ => rfl)
    rintro (hp | hp)
    · have := h.notLocked hlocked j hj
      simp [CallPc.checked_locked hp] at this
    · simp [h.notMarked hmarks j hj] at hp
  · refine ⟨fun _ => hself.locked rfl, ?_, ?_, ?_, ?_, ?_, ?_, fun _ => hself.emptied rfl, ?_,
      hself.joined⟩
    · intro k' hk'
      have hu : s.caller i = none := hself.user rfl
      change s.caller i = some k' at hk'
      simp [hu] at hk'
    all_goals simp [CallPc.starts, CallPc.checked, CallPc.marks, CallPc.joins, CallPc.waited]

/-- A write of `run` or `state` on the way to `pc`. -/
theorem writes_ok {s : Life} (h : LifeOk s) {i : ℕ} {pc : CallPc} (run : Bool) (st : MqttState)
    (hstate : st = s.state ∨ st = .disconnected ∨ (st = .init ∧ s.taskHandle = none))
    (hself : CallOk s i pc) (hmark : pc.marks = true → (s.calls i).marks = true) :
    LifeOk ({s with run := run, state := st}.goto i pc) := by
  have hshared : SharedOk {s with state := st} := by
    rcases hstate with rfl | hok
    · exact h.shared
    · exact h.shared.withState hok
  exact h.goto rfl (hshared.withRun run) (fun j _ => (h.call j).withFlags run st)
    (hself.withFlags run st) fun hm => h.notMarked (hmark hm)

/-- A handler's call is refused: its worker is alive, so the handle is its own. -/
theorem LifeOk.handler_handle {s : Life} (h : LifeOk s) {i k : ℕ} (hcaller : s.caller i = some k)
    (hover : (s.calls i).over = false) : s.taskHandle = some k := by
  obtain ⟨abort,hw⟩ := ((h.call i).handler k hcaller).2 hover
  exact h.shared.alive k (by simp [hw, WorkerPc.alive])

theorem callStep_ok {s q : Life} (h : LifeOk s) {i : ℕ} {created : Bool}
    (hq : s.callStep i created = some q) : LifeOk q := by
  have hself := h.call i
  unfold Life.callStep at hq
  -- one case for each place of the call; `hself` is the assertion that holds there
  cases hpc : s.calls i with
  | idle => simp [hpc] at hq
  | startLock =>
    simp only [hpc, Option.map_eq_some_iff] at hq
    obtain ⟨g,hg,rfl⟩ := hq
    rw [hpc] at hself
    refine acquire_ok h hg (fun hl => ?_) (by simp [CallPc.marks])
    obtain ⟨l,rfl⟩ := acquire_eq hg
    exact .quiet rfl (fun _ => hl) (fun k hk => ⟨rfl, (hself.handler k hk).2⟩)
      (by simp [CallPc.joined])
  | startCheck =>
    simp only [hpc] at hq
    rw [hpc] at hself
    split at hq
    · cases hq
      exact h.advance (hself.refused rfl rfl) (by simp [CallPc.marks])
    · rename_i hok
      cases hq
      have hnone : s.taskHandle = none := by
        cases ht : s.taskHandle with
        | none => rfl
        | some k => simp [ht] at hok
      -- a handler runs inside a worker, and then there is a handle
      have hcaller : s.caller i = none := by
        cases hc : s.caller i with
        | none => rfl
        | some k =>
          have := h.handler_handle hc (by simp [hpc, CallPc.over])
          simp [hnone] at this
      exact h.advance (.start rfl (hself.locked rfl) hcaller hnone (by simp)) (by simp [CallPc.marks])
  | startRun =>
    simp only [hpc] at hq
    cases hq
    rw [hpc] at hself
    exact writes_ok h true s.state (Or.inl rfl)
      (hself.nextStart rfl rfl (by simp)) (by simp [CallPc.marks])
  | startState =>
    simp only [hpc] at hq
    cases hq
    rw [hpc] at hself
    exact writes_ok h s.run .init (Or.inr (Or.inr ⟨rfl, hself.starts rfl⟩))
      (hself.nextStart rfl rfl (by simp)) (by simp [CallPc.marks])
  | startClear =>
    simp only [hpc] at hq
    cases hq
    exact startClear_ok h hpc
  | startCreate =>
    simp only [hpc] at hq
    split at hq
    · cases hq
      exact startCreate_ok h hpc
    · cases hq
      rw [hpc] at hself
      exact h.advance (hself.nextStart rfl rfl (by simp)) (by simp [CallPc.marks])
  | undoRun =>
    simp only [hpc] at hq
    cases hq
    rw [hpc] at hself
    exact writes_ok h false s.state (Or.inl rfl)
      (hself.nextStart rfl rfl (by simp)) (by simp [CallPc.marks])
  | undoHandle =>
    simp only [hpc] at hq
    cases hq
    rw [hpc] at hself
    have hnone := hself.starts rfl
    -- the handle was never set
    have hsame : ({s with taskHandle := none} : Life) = s := by rw [← hnone]
    rw [hsame]
    exact h.advance (.start rfl (hself.locked rfl) (hself.user rfl) hnone (by simp)) (by simp [CallPc.marks])
  | undoState =>
    simp only [hpc] at hq
    cases hq
    rw [hpc] at hself
    have hcaller := hself.user rfl
    exact writes_ok h s.run .disconnected (Or.inr (Or.inl rfl))
      (.quiet rfl (fun _ => hself.locked rfl) (by simp [hcaller]) (by simp [CallPc.joined])) (by simp [CallPc.marks])
  | stopLock =>
    simp only [hpc, Option.map_eq_some_iff] at hq
    obtain ⟨g,hg,rfl⟩ := hq
    rw [hpc] at hself
    refine acquire_ok h hg (fun hl => ?_) (by simp [CallPc.marks])
    obtain ⟨l,rfl⟩ := acquire_eq hg
    exact .quiet rfl (fun _ => hl) (fun k hk => ⟨rfl, (hself.handler k hk).2⟩)
      (by simp [CallPc.joined])
  | stopCheck =>
    simp only [hpc] at hq
    rw [hpc] at hself
    split at hq
    · rename_i hok
      cases hq
      simp only [Bool.and_eq_true, Bool.not_eq_true'] at hok
      have hsome : s.taskHandle ≠ none := Option.isSome_iff_ne_none.mp hok.1
      refine h.advance ⟨fun _ => hself.locked rfl, fun k hk => ⟨rfl, (hself.handler k hk).2⟩, ?_, ?_, fun _ => ⟨hok.2,hsome⟩, ?_, ?_, ?_, ?_, ?_⟩ (by simp [CallPc.marks])
      all_goals simp [CallPc.starts, CallPc.marks, CallPc.joins, CallPc.waited, CallPc.joined, CallPc.emptied]
    · cases hq
      exact h.advance (hself.refused rfl rfl) (by simp [CallPc.marks])
  | stopSelf =>
    simp only [hpc] at hq
    rw [hpc] at hself
    split at hq
    · cases hq
      exact h.advance (hself.refused rfl rfl) (by simp [CallPc.marks])
    · rename_i hok
      cases hq
      -- a stop from a handler would have found its own task
      have hcaller : s.caller i = none := by
        cases hc : s.caller i with
        | none => rfl
        | some k =>
          have := h.handler_handle hc (by simp [hpc, CallPc.over])
          simp [hc, this] at hok
      refine h.advance ⟨fun _ => hself.locked rfl, by simp [hcaller], ?_, ?_, fun _ => hself.checked rfl, ?_, ?_, ?_, ?_, ?_⟩ (by simp [CallPc.marks])
      all_goals simp [CallPc.starts, CallPc.marks, CallPc.joins, CallPc.waited, CallPc.joined, CallPc.emptied]
  | stopMark =>
    simp only [hpc] at hq
    cases hq
    exact stopMark_ok h hpc
  | stopRun k =>
    simp only [hpc] at hq
    cases hq
    rw [hpc] at hself
    exact writes_ok h false s.state (Or.inl rfl)
      (.join rfl (fun _ => hself.locked rfl) (hself.user rfl) (hself.marks rfl) (hself.joins k rfl)
        (by simp [CallPc.waited])) (by simp [hpc, CallPc.marks])
  | stopState k =>
    simp only [hpc] at hq
    cases hq
    rw [hpc] at hself
    exact writes_ok h s.run .disconnected (Or.inr (Or.inl rfl))
      (.join rfl (fun _ => hself.locked rfl) (hself.user rfl) (hself.marks rfl) (hself.joins k rfl)
        (by simp [CallPc.waited])) (by simp [hpc, CallPc.marks])
  -- from here on the joined worker can end
  | stopUnlock k =>
    simp only [hpc] at hq
    cases hq
    rw [hpc] at hself
    have hcaller := hself.user rfl
    refine release_ok h (by simp [hpc, CallPc.locked]) ?_ (by simp [hpc, CallPc.marks])
    unfold Life.release
    rw [hcaller]
    exact .join rfl (by simp [CallPc.locked]) hcaller (hself.marks rfl) (hself.joins k rfl) (by simp [CallPc.waited])
  | stopWait k =>
    simp only [hpc] at hq
    rw [hpc] at hself
    split at hq
    · rename_i hbit
      cases hq
      exact h.advance (.join rfl (by simp [CallPc.locked]) (hself.user rfl) (hself.marks rfl) (hself.joins k rfl) (fun _ => hbit)) (by simp [hpc, CallPc.marks])
    · cases hq
  | stopRelock k =>
    simp only [hpc, Option.map_eq_some_iff] at hq
    obtain ⟨g,hg,rfl⟩ := hq
    rw [hpc] at hself
    refine acquire_ok h hg (fun hl => ?_) (by simp [hpc, CallPc.marks])
    obtain ⟨l,rfl⟩ := acquire_eq hg
    exact .join rfl (fun _ => hl) (hself.user rfl) (hself.marks rfl) (hself.joins k rfl)
      (fun _ => hself.waited rfl)
  | stopClear k =>
    simp only [hpc] at hq
    cases hq
    exact stopClear_ok h hpc
  | stopDone k =>
    simp only [hpc] at hq
    cases hq
    exact stopDone_ok h hpc
  | stopRelease k =>
    simp only [hpc] at hq
    cases hq
    rw [hpc] at hself
    have hcaller := hself.user rfl
    refine release_ok h (by simp [hpc, CallPc.locked]) ?_ (by simp [CallPc.marks])
    unfold Life.release
    rw [hcaller]
    exact .quiet rfl (by simp [CallPc.locked]) (by simp [hcaller]) hself.joined
  | unlock ok =>
    simp only [hpc] at hq
    cases hq
    rw [hpc] at hself
    refine release_ok h (by simp [hpc, CallPc.locked]) ?_ (by simp [CallPc.marks])
    obtain ⟨l,hl⟩ := release_eq s i
    rw [hl]
    exact .quiet rfl (by simp [CallPc.locked]) (fun k hk => ⟨(hself.handler k hk).1, by simp [CallPc.over]⟩)
      (by simp [CallPc.joined])
  | returned ok => simp [hpc] at hq
  | stopped k => simp [hpc] at hq

theorem beginCall_ok {s q : Life} (h : LifeOk s) {i : ℕ} {stop : Bool}
    (hq : s.beginCall i stop = some q) : LifeOk q := by
  unfold Life.beginCall at hq
  split at hq
  · rename_i hidle
    cases hq
    have hnew : CallOk s i (if stop then .stopLock else .startLock) := by
      cases stop
      · exact .quiet rfl (by simp [CallPc.locked]) (by simp [hidle.2]) (by simp [CallPc.joined])
      · exact .quiet rfl (by simp [CallPc.locked]) (by simp [hidle.2]) (by simp [CallPc.joined])
    exact h.advance hnew (by cases stop <;> simp [CallPc.marks])
  · cases hq

end EspMqtt
