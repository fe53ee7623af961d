import EspMqtt.LifecycleCalls

/-! The worker against the assertions of the calls, and what holds in every state of
every interleaving. -/
namespace EspMqtt

/-- A worker that was alive goes on to `pc`. -/
theorem SharedOk.moved {s g : Life} (h : SharedOk s) {k : ℕ} {p : WorkerPc}
    (halive : (s.workers k).alive = true) (hworkers : g.workers = Function.update s.workers k p)
    (hcreated : g.created = s.created) (hhandle : g.taskHandle = s.taskHandle) (hne : p ≠ .unborn)
    (hlock : p.locks = true → g.lock = some (.worker k)) (hbit : g.stoppedBit = true ↔ p = .gone)
    (hstate : p = .signalling ∨ p = .gone → g.state = .disconnected) : SharedOk g := by
  have hk := h.alive k halive
  -- it is the only one alive
  have hother : ∀ k', k' ≠ k → (s.workers k').alive = false := by
    intro k' hk'
    by_contra ha
    have ha := h.alive k' (by simpa using ha)
    rw [hk] at ha
    exact hk' (by simpa using ha.symm)
  have hlocks : ∀ p : WorkerPc, p.alive = false → p.locks = false := by
    intro p hpc
    cases p <;> simp_all [WorkerPc.alive, WorkerPc.locks]
  refine ⟨fun k' hk' => ?_, fun k' => ?_, fun k' hk' => ?_, fun k' hk' => ?_, fun k' hk' hl => ?_,
    fun hnone => ?_⟩
  · rw [hworkers] at hk'
    by_cases he : k' = k
    · subst he
      exact hlock (by simpa using hk')
    · rw [Function.update_of_ne he, hlocks _ (hother k' he)] at hk'
      cases hk'
  · rw [hworkers, hcreated]
    by_cases he : k' = k
    · subst he
      have hb := h.born k'
      have hnot : s.workers k' ≠ .unborn := by
        intro hu
        simp [hu, WorkerPc.alive] at halive
      rw [Function.update_self]
      constructor
      · exact fun hu => absurd hu hne
      · exact fun hle => absurd (hb.mpr hle) hnot
    · rw [Function.update_of_ne he]
      exact h.born k'
  · rw [hhandle, hk] at hk'
    obtain rfl : k = k' := by simpa using hk'
    rw [hworkers, Function.update_self]
    exact hbit
  · rw [hworkers] at hk'
    rw [hhandle]
    by_cases he : k' = k
    · rw [he]
      exact hk
    · rw [Function.update_of_ne he, hother k' he] at hk'
      cases hk'
  · rw [hhandle, hk] at hk'
    obtain rfl : k = k' := by simpa using hk'
    rw [hworkers, Function.update_self] at hl
    exact hstate hl
  · rw [hhandle, hk] at hnone
    cases hnone

theorem SharedOk.bit_of_alive {s : Life} (h : SharedOk s) {k : ℕ}
    (halive : (s.workers k).alive = true) : s.stoppedBit = false := by
  by_contra hb
  have hgone := (h.handle k (h.alive k halive)).mp (by simpa using hb)
  simp [hgone, WorkerPc.alive] at halive

theorem LifeOk.ofWorker {s g : Life} (h : LifeOk s) (hcalls : g.calls = s.calls)
    (hshared : SharedOk g) (hcall : ∀ j, CallOk g j (s.calls j)) : LifeOk g :=
  ⟨hshared, fun j => hcalls ▸ hcall j, fun a b => hcalls ▸ h.oneMark a b⟩

/-- The others do not notice a worker that moves, unless they wait for it in a handler. -/
theorem CallOk.moved {s g : Life} {j k : ℕ} {pc : CallPc} {wpc : WorkerPc} (h : CallOk s j pc)
    (halive : (s.workers k).alive = true) (hworkers : g.workers = Function.update s.workers k wpc)
    (hcaller : g.caller j = s.caller j) (hhandle : g.taskHandle = s.taskHandle)
    (hstopping : g.stopping = s.stopping) (hlock : pc.locked = true → g.lock = s.lock)
    (hcalling : ∀ abort, s.caller j = some k → pc.over = false → s.workers k = .calling abort j →
      wpc = .calling abort j)
    (hbit : pc = .startCreate ∨ pc.waited = true → g.stoppedBit = s.stoppedBit) : CallOk g j pc := by
  refine h.frame hcaller hlock (fun k' abort hc ho hw => ?_) (fun k' hw => ?_) (fun _ => hhandle)
    (fun _ => hstopping) hbit
  · rw [hworkers]
    by_cases he : k' = k
    · subst he
      rw [Function.update_self]
      exact hcalling abort hc ho hw
    · rw [Function.update_of_ne he]
      exact hw
  · rw [hworkers]
    have he : k' ≠ k := by
      rintro rfl
      simp [hw, WorkerPc.alive] at halive
    rw [Function.update_of_ne he]
    exact hw

/-- A worker inside the lock and in no call keeps every call outside. -/
theorem LifeOk.unlocked_of_worker {s : Life} (h : LifeOk s) {k : ℕ} {abort : Bool}
    (hk : s.workers k = .locked abort) (j : ℕ) : (s.calls j).locked = false := by
  by_contra hj
  have hj : (s.calls j).locked = true := by simpa using hj
  have hlock := (h.call j).locked hj
  rw [h.shared.lock k (by simp [hk, WorkerPc.locks])] at hlock
  unfold Life.holder at hlock
  cases hc : s.caller j with
  | none => simp [hc] at hlock
  | some k' =>
    rw [hc] at hlock
    obtain rfl : k = k' := by simpa using hlock
    obtain ⟨a,ha⟩ := ((h.call j).handler k hc).2 (CallPc.locked_over hj)
    simp [hk] at ha

/-- A step between points where the worker has no lock and the bit is not set. -/
theorem move_ok {s : Life} (h : LifeOk s) {k : ℕ} {pc : WorkerPc}
    (halive : (s.workers k).alive = true) (hcalling : ∀ a i, s.workers k ≠ .calling a i)
    (hne : pc.alive = true) (hlocks : pc.locks = false) (hsig : pc ≠ .signalling) :
    LifeOk (s.move k pc) := by
  have hbit := h.shared.bit_of_alive halive
  have hgone : pc ≠ .gone := by
    rintro rfl
    simp [WorkerPc.alive] at hne
  refine h.ofWorker rfl ?_ fun j => ?_
  · refine h.shared.moved halive rfl rfl rfl ?_ (by simp [hlocks]) ?_ ?_
    · rintro rfl
      simp [WorkerPc.alive] at hne
    · change s.stoppedBit = true ↔ _
      simp [hbit, hgone]
    · simp [hsig, hgone]
  · exact (h.call j).moved halive rfl rfl rfl rfl (fun _ => rfl)
      (fun a _ _ hw => absurd hw (hcalling a j)) (fun _ => rfl)

theorem workerNext_ok {s q : Life} (h : LifeOk s) {k : ℕ} (hq : s.workerNext k = some q) :
    LifeOk q := by
  unfold Life.workerNext at hq
  -- one case for each place of the worker
  cases hw : s.workers k with
  | unborn => simp [hw] at hq
  | gone => simp [hw] at hq
  | test =>
    simp only [hw] at hq
    cases hq
    split
    · exact move_ok h (by simp [hw, WorkerPc.alive]) (by simp [hw]) rfl rfl (by simp)
    · exact move_ok h (by simp [hw, WorkerPc.alive]) (by simp [hw]) rfl rfl (by simp)
  | polling =>
    simp only [hw] at hq
    cases hq
    exact move_ok h (by simp [hw, WorkerPc.alive]) (by simp [hw]) rfl rfl (by simp)
  | closing =>
    simp only [hw] at hq
    cases hq
    exact move_ok h (by simp [hw, WorkerPc.alive]) (by simp [hw]) rfl rfl (by simp)
  | locking abort =>
    simp only [hw] at hq
    split at hq
    · rename_i hfree
      cases hq
      have halive : (s.workers k).alive = true := by simp [hw, WorkerPc.alive]
      have hbit := h.shared.bit_of_alive halive
      refine h.ofWorker rfl ?_ fun j => ?_
      · refine h.shared.moved (p := .locked abort) halive rfl rfl rfl (by simp) (fun _ => rfl) ?_
          (by simp)
        change s.stoppedBit = true ↔ _
        simp [hbit]
      -- with the lock free no call is between lock and unlock
      · have hunlocked := h.unlocked hfree j
        exact (h.call j).moved halive rfl rfl rfl rfl (fun hp => by simp [hunlocked] at hp)
          (fun a _ _ hc => by simp [hw] at hc) (fun _ => rfl)
    · cases hq
  | locked abort =>
    simp only [hw] at hq
    cases hq
    have halive : (s.workers k).alive = true := by simp [hw, WorkerPc.alive]
    have hbit := h.shared.bit_of_alive halive
    refine h.ofWorker rfl ?_ fun j => ?_
    · refine h.shared.moved (p := if abort then .test else .polling) halive rfl rfl rfl
        (by cases abort <;> simp) (by cases abort <;> simp [WorkerPc.locks]) ?_
        (by cases abort <;> simp)
      change s.stoppedBit = true ↔ _
      cases abort <;> simp [hbit]
    · have hunlocked := h.unlocked_of_worker hw j
      exact (h.call j).moved halive rfl rfl rfl rfl (fun hp => by simp [hunlocked] at hp)
        (fun a _ _ hc => by simp [hw] at hc) (fun _ => rfl)
  | calling abort i =>
    simp only [hw] at hq
    split at hq
    · rename_i hover
      cases hq
      have halive : (s.workers k).alive = true := by simp [hw, WorkerPc.alive]
      have hbit := h.shared.bit_of_alive halive
      refine h.ofWorker rfl ?_ fun j => ?_
      · refine h.shared.moved (p := .locked abort) halive rfl rfl rfl (by simp)
          (fun _ => h.shared.lock k (by simp [hw, WorkerPc.locks])) ?_ (by simp)
        change s.stoppedBit = true ↔ _
        simp [hbit]
      · refine (h.call j).moved halive rfl rfl rfl rfl (fun _ => rfl) (fun a _ ho hc => ?_)
          (fun _ => rfl)
        -- the call it waited for is the one that is over
        rw [hw] at hc
        obtain ⟨-,rfl⟩ : abort = a ∧ i = j := by simpa using hc
        simp [hover] at ho
    · cases hq
  | clearing =>
    simp only [hw] at hq
    cases hq
    have halive : (s.workers k).alive = true := by simp [hw, WorkerPc.alive]
    have hbit := h.shared.bit_of_alive halive
    refine h.ofWorker rfl ?_ fun j => ?_
    · refine h.shared.moved (p := .signalling) halive rfl rfl rfl (by simp)
        (by simp [WorkerPc.locks]) ?_ (fun _ => rfl)
      change s.stoppedBit = true ↔ _
      simp [hbit]
    · exact (h.call j).moved halive rfl rfl rfl rfl (fun _ => rfl)
        (fun a _ _ hc => by simp [hw] at hc) (fun _ => rfl)
  | signalling =>
    simp only [hw] at hq
    cases hq
    have halive : (s.workers k).alive = true := by simp [hw, WorkerPc.alive]
    have hhandle := h.shared.alive k halive
    have hbit := h.shared.bit_of_alive halive
    refine h.ofWorker rfl ?_ fun j => ?_
    · refine h.shared.moved (p := .gone) halive rfl rfl rfl (by simp) (by simp [WorkerPc.locks])
        (by simp [Life.move]) (fun _ => h.shared.last k hhandle (Or.inl hw))
    · refine (h.call j).moved halive rfl rfl rfl rfl (fun _ => rfl)
        (fun a _ _ hc => by simp [hw] at hc) ?_
      -- nobody is about to create a worker, and nobody has seen the bit yet
      rintro (hp | hp)
      · have hnone := (h.call j).starts (by simp [hp, CallPc.starts])
        simp [hhandle] at hnone
      · have hb := (h.call j).waited hp
        simp [hbit] at hb

theorem workerStep_ok {s q : Life} (h : LifeOk s) {k : ℕ} {act : WorkerAct}
    (hq : s.workerStep k act = some q) : LifeOk q := by
  -- a write of `run` or `state` by a worker inside the lock
  have hwrite : ∀ {abort : Bool}, s.workers k = .locked abort → ∀ run st,
      LifeOk {s with run := run, state := st} := by
    intro abort hw run st
    have hhandle := h.shared.alive k (by simp [hw, WorkerPc.alive])
    refine h.ofWorker rfl ?_ fun j => (h.call j).withFlags run st
    refine ⟨h.shared.lock, h.shared.born, h.shared.handle, h.shared.alive, fun k' hk' hl => ?_,
      fun hnone => ?_⟩
    · change s.taskHandle = some k' at hk'
      rw [hhandle] at hk'
      obtain rfl : k = k' := by simpa using hk'
      change s.workers k = _ ∨ s.workers k = _ at hl
      simp [hw] at hl
    · change s.taskHandle = none at hnone
      simp [hhandle] at hnone
  cases act with
  | next => exact workerNext_ok h hq
  | change st =>
    simp only [Life.workerStep] at hq
    split at hq
    · rename_i hw
      split at hq
      · cases hq
        exact hwrite hw s.run st
      · cases hq
    · rename_i hw
      split at hq
      · cases hq
        exact hwrite hw s.run st
      · cases hq
    · cases hq
  | giveUp =>
    simp only [Life.workerStep] at hq
    split at hq
    · rename_i hw
      cases hq
      exact hwrite hw.1 false s.state
    · cases hq
  | pollFails =>
    simp only [Life.workerStep] at hq
    split at hq
    · rename_i hw
      cases hq
      exact move_ok h (by simp [hw.1, WorkerPc.alive]) (by simp [hw.1]) rfl rfl (by simp)
    · cases hq
  | handler i stop =>
    simp only [Life.workerStep] at hq
    split at hq
    · rename_i abort hw
      split at hq
      · rename_i hidle
        cases hq
        have halive : (s.workers k).alive = true := by simp [hw, WorkerPc.alive]
        have hbit := h.shared.bit_of_alive halive
        -- the handler's call begins inside the worker's lock
        refine LifeOk.goto h rfl ?_ (fun j hj => ?_) ?_ (by cases stop <;> simp [CallPc.marks])
        · refine h.shared.moved (p := .calling abort i) halive rfl rfl rfl (by simp)
            (fun _ => h.shared.lock k (by simp [hw, WorkerPc.locks])) ?_ (by simp)
          change s.stoppedBit = true ↔ _
          simp [hbit]
        · exact (h.call j).moved halive rfl (Function.update_of_ne hj _ _) rfl rfl (fun _ => rfl)
            (fun a _ _ hc => by simp [hw] at hc) (fun _ => rfl)
        · refine .quiet (by cases stop <;> rfl) (by cases stop <;> simp [CallPc.locked]) (fun k' hk' => ?_)
            (by cases stop <;> simp [CallPc.joined])
          change Function.update s.caller i (some k) i = some k' at hk'
          rw [Function.update_self] at hk'
          obtain rfl : k = k' := by simpa using hk'
          refine ⟨by cases stop <;> rfl, fun _ => ⟨abort, ?_⟩⟩
          exact Function.update_self k (.calling abort i) s.workers
      · cases hq
    · cases hq

theorem step_lifeOk {s : Life} (h : LifeOk s) (st : LifeStep) : LifeOk (s.step st) := by
  cases st with
  | begin i stop =>
    change LifeOk ((s.beginCall i stop).getD s)
    cases hq : s.beginCall i stop with
    | none => exact h
    | some q => exact beginCall_ok h hq
  | call i created =>
    change LifeOk ((s.callStep i created).getD s)
    cases hq : s.callStep i created with
    | none => exact h
    | some q => exact callStep_ok h hq
  | worker k act =>
    change LifeOk ((s.workerStep k act).getD s)
    cases hq : s.workerStep k act with
    | none => exact h
    | some q => exact workerStep_ok h hq

theorem fresh_lifeOk : LifeOk Life.fresh where
  shared := ⟨by simp [Life.fresh, WorkerPc.locks], by simp [Life.fresh], by simp [Life.fresh],
    by simp [Life.fresh, WorkerPc.alive], by simp [Life.fresh], by simp [Life.fresh]⟩
  call i := .quiet rfl (by simp [Life.fresh, CallPc.locked]) (by simp [Life.fresh])
    (by simp [Life.fresh, CallPc.joined])
  oneMark i j := by simp [Life.fresh, CallPc.marks]

/-- The invariant holds in every state of every interleaving. -/
theorem runs_lifeOk (ss : List LifeStep) : LifeOk (Life.fresh.runs ss) := by
  have hrun : ∀ (ss : List LifeStep) (s : Life), LifeOk s → LifeOk (s.runs ss) := by
    intro ss
    induction ss with
    | nil => exact fun s h => h
    | cons st ss ih => exact fun s h => ih (s.step st) (step_lifeOk h st)
  exact hrun ss Life.fresh fresh_lifeOk

/-! What the invariant says. -/

theorem LifeOk.oneAlive {s : Life} (h : LifeOk s) {k k' : ℕ} (hk : (s.workers k).alive = true)
    (hk' : (s.workers k').alive = true) : k = k' := by
  have heq := (h.shared.alive k hk).symm.trans (h.shared.alive k' hk')
  simpa using heq

/-- Without a handle nobody is alive. -/
theorem LifeOk.noneAlive {s : Life} (h : LifeOk s) (hnone : s.taskHandle = none) (k : ℕ) :
    (s.workers k).alive = false := by
  by_contra hk
  have hhandle := h.shared.alive k (by simpa using hk)
  simp [hnone] at hhandle

/-- A worker that is not alive does nothing. -/
theorem workerStep_dead {s : Life} {k : ℕ} (hk : (s.workers k).alive = false) (act : WorkerAct) :
    s.step (.worker k act) = s := by
  have hdead : s.workers k = .unborn ∨ s.workers k = .gone := by
    cases hw : s.workers k <;> simp_all [WorkerPc.alive]
  have hnone : s.workerStep k act = none := by
    rcases hdead with hw | hw
    · cases act <;> simp [Life.workerStep, Life.workerNext, hw]
    · cases act <;> simp [Life.workerStep, Life.workerNext, hw]
  change (s.workerStep k act).getD s = s
  rw [hnone]
  rfl

/-- Only the stop that joined worker `k` takes its handle away. -/
theorem handle_kept {s : Life} (h : LifeOk s) {k : ℕ} (hk : s.taskHandle = some k) (st : LifeStep) :
    (s.step st).taskHandle = some k ∨ ∃ i created, st = .call i created ∧ s.calls i = .stopClear k := by
  -- workers never touch the handle
  cases st with
  | begin i stop =>
    left
    change ((s.beginCall i stop).getD s).taskHandle = some k
    unfold Life.beginCall
    split <;> exact hk
  | worker k' act =>
    left
    change ((s.workerStep k' act).getD s).taskHandle = some k
    cases act with
    | next =>
      change ((s.workerNext k').getD s).taskHandle = some k
      unfold Life.workerNext
      split <;> first | exact hk | (split <;> exact hk)
    | change st =>
      unfold Life.workerStep
      dsimp only
      split <;> first | exact hk | (split <;> exact hk)
    | giveUp =>
      unfold Life.workerStep
      dsimp only
      split <;> exact hk
    | pollFails =>
      unfold Life.workerStep
      dsimp only
      split <;> exact hk
    | handler i stop =>
      unfold Life.workerStep
      dsimp only
      split
      · split <;> exact hk
      · exact hk
  | call i created =>
    change ((s.callStep i created).getD s).taskHandle = some k ∨ _
    have hacquire : ∀ pc, (((s.acquire i).map fun s => s.goto i pc).getD s).taskHandle = some k := by
      intro pc
      cases hq : s.acquire i with
      | none => exact hk
      | some q =>
        obtain ⟨l,rfl⟩ := acquire_eq hq
        exact hk
    have hrelease : ∀ pc, ((s.release i).goto i pc).taskHandle = some k := by
      intro pc
      obtain ⟨l,hl⟩ := release_eq s i
      rw [hl]
      exact hk
    -- a start that is past its check found no handle
    have hnostart : (s.calls i).starts = true → False := by
      intro hs
      have hnone := (h.call i).starts hs
      simp [hk] at hnone
    unfold Life.callStep
    cases hpc : s.calls i with
    | idle => exact Or.inl hk
    | startLock => exact Or.inl (hacquire _)
    | stopLock => exact Or.inl (hacquire _)
    | stopRelock k' => exact Or.inl (hacquire _)
    | stopUnlock k' => exact Or.inl (hrelease _)
    | stopRelease k' => exact Or.inl (hrelease _)
    | unlock ok => exact Or.inl (hrelease _)
    | startCheck =>
      left
      dsimp only
      split <;> exact hk
    | stopCheck =>
      left
      dsimp only
      split <;> exact hk
    | stopSelf =>
      left
      dsimp only
      split <;> exact hk
    | stopWait k' =>
      left
      dsimp only
      split <;> exact hk
    | startCreate => exact (hnostart (by simp [hpc, CallPc.starts])).elim
    | undoHandle => exact (hnostart (by simp [hpc, CallPc.starts])).elim
    | startRun => exact Or.inl hk
    | startState => exact Or.inl hk
    | startClear => exact Or.inl hk
    | undoRun => exact Or.inl hk
    | undoState => exact Or.inl hk
    | stopMark => exact Or.inl hk
    | stopRun k' => exact Or.inl hk
    | stopState k' => exact Or.inl hk
    | stopDone k' => exact Or.inl hk
    | returned ok => exact Or.inl hk
    | stopped k' => exact Or.inl hk
    | stopClear k' =>
      have hself := h.call i
      rw [hpc] at hself
      -- the handle it clears is the one it has marked
      have hjoin := hself.joins k' rfl
      rw [hk] at hjoin
      obtain rfl : k = k' := by simpa using hjoin
      exact Or.inr ⟨i, created, rfl, hpc⟩

/-- A step of call `i` moves that call, and to success only where it created a worker. -/
theorem callStep_calls {s q : Life} {i : ℕ} {created : Bool} (hq : s.callStep i created = some q) :
    ∃ pc, q.calls = Function.update s.calls i pc ∧ (pc = .unlock true → s.calls i = .startCreate) := by
  have hacquire : ∀ {pc : CallPc}, pc ≠ .unlock true →
      ((s.acquire i).map fun s => s.goto i pc) = some q →
      ∃ pc, q.calls = Function.update s.calls i pc ∧
        (pc = .unlock true → s.calls i = .startCreate) := by
    intro pc hpc hmap
    rw [Option.map_eq_some_iff] at hmap
    obtain ⟨g,hg,rfl⟩ := hmap
    obtain ⟨l,rfl⟩ := acquire_eq hg
    exact ⟨pc, rfl, fun he => absurd he hpc⟩
  have hrelease : ∀ {pc : CallPc}, pc ≠ .unlock true → some ((s.release i).goto i pc) = some q →
      ∃ pc, q.calls = Function.update s.calls i pc ∧
        (pc = .unlock true → s.calls i = .startCreate) := by
    intro pc hpc hsome
    obtain ⟨l,hl⟩ := release_eq s i
    rw [hl] at hsome
    cases hsome
    exact ⟨pc, rfl, fun he => absurd he hpc⟩
  unfold Life.callStep at hq
  split at hq
  any_goals cases hq; done
  any_goals exact hacquire (by simp) hq
  any_goals exact hrelease (by simp) hq
  any_goals
    cases hq
    exact ⟨_, rfl, by simp⟩
  all_goals
    split at hq
    · cases hq
      exact ⟨_, rfl, by simp_all⟩
    · cases hq
      try exact ⟨_, rfl, by simp⟩

/-- A start returns `ESP_OK` from the point where it created its worker. -/
theorem unlock_true_from {s : Life} (h : LifeOk s) {j : ℕ} (st : LifeStep)
    (hj : (s.step st).calls j = .unlock true) :
    s.calls j = .unlock true ∨ (s.calls j = .startCreate ∧ ∀ k, (s.workers k).alive = false) := by
  cases st with
  | begin i stop =>
    left
    change ((s.beginCall i stop).getD s).calls j = .unlock true at hj
    unfold Life.beginCall at hj
    split at hj
    · by_cases hji : j = i
      · cases stop <;> simp [Life.goto, hji] at hj
      · simpa [Life.goto, hji] using hj
    · exact hj
  | worker k act =>
    left
    change ((s.workerStep k act).getD s).calls j = .unlock true at hj
    cases act with
    | next =>
      change ((s.workerNext k).getD s).calls j = .unlock true at hj
      unfold Life.workerNext at hj
      split at hj <;> first | exact hj | (split at hj <;> exact hj)
    | change st =>
      unfold Life.workerStep at hj
      dsimp only at hj
      split at hj <;> first | exact hj | (split at hj <;> exact hj)
    | giveUp =>
      unfold Life.workerStep at hj
      dsimp only at hj
      split at hj <;> exact hj
    | pollFails =>
      unfold Life.workerStep at hj
      dsimp only at hj
      split at hj <;> exact hj
    | handler i stop =>
      unfold Life.workerStep at hj
      dsimp only at hj
      split at hj
      · split at hj
        · by_cases hji : j = i
          · cases stop <;> simp [Life.goto, hji] at hj
          · simpa [Life.goto, Life.move, hji] using hj
        · exact hj
      · exact hj
  | call i created =>
    change ((s.callStep i created).getD s).calls j = .unlock true at hj
    cases hq : s.callStep i created with
    | none =>
      rw [hq] at hj
      exact Or.inl hj
    | some q =>
      rw [hq] at hj
      obtain ⟨pc,hcalls,hpc⟩ := callStep_calls hq
      change q.calls j = .unlock true at hj
      rw [hcalls] at hj
      -- only the call that moves can have come there
      by_cases hji : j = i
      · subst hji
        rw [Function.update_self] at hj
        have hcreate := hpc hj
        exact Or.inr ⟨hcreate, h.noneAlive ((h.call j).starts (by simp [hcreate, CallPc.starts]))⟩
      · rw [Function.update_of_ne hji] at hj
        exact Or.inl hj

theorem callStep_startLock {s : Life} {j : ℕ} (hpc : s.calls j = .startLock)
    (hcaller : s.caller j = none) (hlock : s.lock = none) (created : Bool) :
    s.step (.call j created) = {s with lock := some (.call j)}.goto j .startCheck := by
  change (s.callStep j created).getD s = _
  simp [Life.callStep, hpc, Life.acquire, hcaller, hlock]

/-- The check of a start, where it passes. -/
theorem callStep_startCheck {s : Life} {j : ℕ} (hpc : s.calls j = .startCheck)
    (hnone : s.taskHandle = none) (hstate : s.state = .init ∨ s.state = .disconnected)
    (created : Bool) : s.step (.call j created) = s.goto j .startRun := by
  change (s.callStep j created).getD s = _
  rcases hstate with hst | hst
  · simp [Life.callStep, hpc, hnone, hst]
  · simp [Life.callStep, hpc, hnone, hst]

/-- A stop that has let go of the lock, and nobody else at work: a start is admitted. -/
theorem start_admitted {s : Life} (h : LifeOk s) {i k : ℕ} (hpc : s.calls i = .stopRelease k)
    (created : Bool) (ws : List (ℕ × WorkerAct)) {j : ℕ} (hj : s.calls j = .idle)
    (hcaller : s.caller j = none) (created₁ created₂ : Bool) :
    (((s.step (.call i created)).runs (ws.map fun w => .worker w.1 w.2)).runs
      [.begin j false, .call j created₁, .call j created₂]).calls j = .startRun := by
  have hself := h.call i
  rw [hpc] at hself
  have hnone := hself.emptied rfl
  have huser := hself.user rfl
  have hafter : s.step (.call i created) = {s with lock := none}.goto i (.stopped k) := by
    change (s.callStep i created).getD s = _
    simp [Life.callStep, hpc, Life.release, huser]
  rw [hafter]
  generalize hq : ({s with lock := none} : Life).goto i (.stopped k) = q
  have hji : j ≠ i := by
    rintro rfl
    rw [hpc] at hj
    cases hj
  have hqcalls : q.calls j = .idle := by
    rw [← hq]
    exact (Function.update_of_ne hji _ _).trans hj
  have hqcaller : q.caller j = none := by rw [← hq]; exact hcaller
  have hqlock : q.lock = none := by rw [← hq]; rfl
  have hqhandle : q.taskHandle = none := by rw [← hq]; exact hnone
  have hqstate : q.state = .init ∨ q.state = .disconnected := by rw [← hq]; exact h.shared.free hnone
  have hqdead : ∀ k, (q.workers k).alive = false := by rw [← hq]; exact h.noneAlive hnone
  -- there is no worker to take a step
  have hworkers : q.runs (ws.map fun w => .worker w.1 w.2) = q := by
    induction ws with
    | nil => rfl
    | cons w ws ih =>
      change (q.step (.worker w.1 w.2)).runs _ = q
      rw [workerStep_dead (hqdead w.1) w.2]
      exact ih
  rw [hworkers]
  have hbegin : q.step (.begin j false) = q.goto j .startLock := by
    change (q.beginCall j false).getD q = _
    simp [Life.beginCall, hqcalls, hqcaller]
  have hlock := callStep_startLock (s := q.goto j .startLock) (Function.update_self ..) hqcaller
    hqlock created₁
  have hcheck := callStep_startCheck
    (s := ({q.goto j .startLock with lock := some (.call j)} : Life).goto j .startCheck)
    (Function.update_self ..) hqhandle hqstate created₂
  change (((q.step (.begin j false)).step (.call j created₁)).step (.call j created₂)).calls j = _
  rw [hbegin, hlock, hcheck]
  exact Function.update_self ..

/-- The life of a client, over every interleaving of starts, stops and worker steps: at
most one worker is alive; a stop that returned `ESP_OK` joined a worker that has set the
STOPPED bit; a stop that comes while another is joining fails, and only the one that
joined clears the handle; a start succeeds only where no worker is alive; and after a
stop that returned `ESP_OK` the next start is admitted. -/
theorem client_lifecycle (ss : List LifeStep) :
    let s := Life.fresh.runs ss
    (∀ k k', (s.workers k).alive = true → (s.workers k').alive = true → k = k') ∧
    (∀ i k, s.calls i = .stopped k → s.workers k = .gone) ∧
    (∀ i j created, (s.calls i).marks = true → s.calls j = .stopCheck →
      s.step (.call j created) = s.goto j (.unlock false)) ∧
    (∀ j created, s.calls j = .unlock false →
      (s.step (.call j created)).calls j = .returned false ∧
      (s.step (.call j created)).taskHandle = s.taskHandle) ∧
    (∀ k st, s.taskHandle = some k → (s.step st).taskHandle = some k ∨
      ∃ i created, st = .call i created ∧ s.calls i = .stopClear k ∧ s.workers k = .gone) ∧
    (∀ j st, (s.step st).calls j = .unlock true →
      s.calls j = .unlock true ∨ (s.calls j = .startCreate ∧ ∀ k, (s.workers k).alive = false)) ∧
    (∀ i k created, s.calls i = .stopRelease k →
      (s.step (.call i created)).calls i = .stopped k ∧
      ∀ (ws : List (ℕ × WorkerAct)) (j : ℕ) (created₁ created₂ : Bool),
        s.calls j = .idle → s.caller j = none →
        (((s.step (.call i created)).runs (ws.map fun w => .worker w.1 w.2)).runs
          [.begin j false, .call j created₁, .call j created₂]).calls j = .startRun) := by
  have h := runs_lifeOk ss
  dsimp only
  generalize Life.fresh.runs ss = s at h
  refine ⟨fun k k' hk hk' => h.oneAlive hk hk', fun i k hi => ?_, fun i j created hi hj => ?_,
    fun j created hj => ?_, fun k st hk => ?_, fun j st hj => unlock_true_from h st hj,
    fun i k created hi => ⟨?_, fun ws j c₁ c₂ hj hc => start_admitted h hi created ws hj hc c₁ c₂⟩⟩
  · have hself := h.call i
    rw [hi] at hself
    exact hself.joined k rfl
  · have hstopping := (h.call i).marks hi
    change (s.callStep j created).getD s = _
    simp [Life.callStep, hj, hstopping]
  · change ((s.callStep j created).getD s).calls j = _ ∧ ((s.callStep j created).getD s).taskHandle = _
    obtain ⟨l,hl⟩ := release_eq s j
    simp [Life.callStep, hj, hl, Life.goto]
  · rcases handle_kept h hk st with hkept | ⟨i,created,hst,hi⟩
    · exact Or.inl hkept
    · have hself := h.call i
      rw [hi] at hself
      exact Or.inr ⟨i, created, hst, hi, (h.shared.handle k hk).mp (hself.waited rfl)⟩
  · change ((s.callStep i created).getD s).calls i = _
    simp [Life.callStep, hi, Life.goto]

/-- Call 0 starts a worker, which goes once around its loop; call 1 stops it, and is about to
return when the worker has ended; call 2 is a stop that comes in between. -/
def joinedSteps : List LifeStep :=
  [.begin 0 false] ++ List.replicate 7 (.call 0 true) ++ List.replicate 4 (.worker 0 .next) ++
  [.begin 1 true] ++ List.replicate 7 (.call 1 true) ++
  [.begin 2 true] ++ List.replicate 3 (.call 2 true) ++
  List.replicate 4 (.worker 0 .next) ++ List.replicate 4 (.call 1 true)

/-- Call 1 returns, and call 3 starts the client again. -/
def restartSteps : List LifeStep :=
  [.call 1 true, .begin 3 false] ++ List.replicate 7 (.call 3 true)

/-- One stop succeeds and the other fails; the restart gets a worker of its own. -/
theorem client_lifecycle_restart :
    ((Life.fresh.runs joinedSteps).step (.call 1 true)).calls 1 = .stopped 0 ∧
    (Life.fresh.runs joinedSteps).calls 2 = .returned false ∧
    (((Life.fresh.runs joinedSteps).step (.call 1 true)).runs
      [.begin 3 false, .call 3 true, .call 3 true]).calls 3 = .startRun ∧
    (Life.fresh.runs (joinedSteps ++ restartSteps)).workers 0 = .gone ∧
    (Life.fresh.runs (joinedSteps ++ restartSteps)).calls 3 = .returned true ∧
    ((Life.fresh.runs (joinedSteps ++ restartSteps)).workers 1).alive = true := by
  have hrelease : (Life.fresh.runs joinedSteps).calls 1 = .stopRelease 0 := by decide +kernel
  obtain ⟨-,-,-,-,-,-,hadmits⟩ := client_lifecycle joinedSteps
  obtain ⟨hstopped,hstart⟩ := hadmits 1 0 true hrelease
  have hnone (s : Life) : s.runs (List.map (fun w : ℕ × WorkerAct => .worker w.1 w.2) []) = s := rfl
  have hstart := hstart [] 3 true true (by decide +kernel) (by decide +kernel)
  rw [hnone] at hstart
  obtain ⟨-,hgone,-⟩ := client_lifecycle (joinedSteps ++ restartSteps)
  have hjoined : (Life.fresh.runs (joinedSteps ++ restartSteps)).calls 1 = .stopped 0 := by decide +kernel
  exact ⟨hstopped, by decide +kernel, hstart, hgone 1 0 hjoined, by decide +kernel, by decide +kernel⟩

end EspMqtt
