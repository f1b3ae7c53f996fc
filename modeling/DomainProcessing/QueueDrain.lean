import DomainProcessing.TaskBudget

namespace DomainProcessing

open Tables OrderedSelection Runs

/-- Recovery steps and claim steps with nothing else going on. -/
structure DrainSchedule where
  recoveryLimit : Nat → Int
  clock : Nat → Instant
  updatedAt : Nat → Instant
  draws : Nat → TaskId → RetryDraw
  claimLimit : Nat → Int
  leaseExpiresAt : Nat → Instant
  claimedAt : Nat → Instant
  recoveryLimit_pos : ∀ i, 0 < recoveryLimit i
  claimLimit_pos : ∀ i, 0 < claimLimit i

namespace DrainSchedule

variable (d : DrainSchedule)

def recovery (i : Nat) : ServiceOp :=
  .recoveryCycle (d.recoveryLimit i) (d.clock i) (d.updatedAt i) (d.draws i)

def claim (i : Nat) : ServiceOp :=
  .claimTasks (d.claimLimit i) (d.leaseExpiresAt i) none (d.claimedAt i)

def recoveries (first count : Nat) : List ServiceOp := (List.range' first count).map d.recovery

def claims (first count : Nat) : List ServiceOp := (List.range' first count).map d.claim

/-- The rows that a recovery step would find. -/
def finds (i : Nat) (s : ServiceState) : List Task :=
  recoverySelection (d.recoveryLimit i) (d.clock i) s.tasks

/-- Every task in processing has a lease that all clock readings are beyond. -/
def Expired (s : ServiceState) : Prop :=
  ∀ t ∈ s.tasks, t.status = .processing → ∃ lease, t.leaseExpiresAt = some lease ∧
    ∀ i, lease < d.clock i

end DrainSchedule

def isProcessing (t : Task) : Bool := t.status == .processing

def isPending (t : Task) : Bool := t.status == .pending

def isOpen (t : Task) : Bool := t.status.isOpen

/-- What recovery writes to a task whose budget is spent. -/
def Exhausted (maxAttempts : Nat) (t : Task) : Prop :=
  t.status = .failed ∧ t.errorPayload =
    some (maxAttemptsExceeded s!"Task exceeded maximum attempts ({maxAttempts})")

/-- The task is still open, or recovery has failed it. -/
def OpenOrExhausted (maxAttempts : Nat) (id : TaskId) (s : ServiceState) : Prop :=
  ∃ u ∈ s.tasks, u.id = id ∧ (isOpen u = true ∨ Exhausted maxAttempts u)

variable {maxAttempts : Nat} {s : ServiceState} {d : DrainSchedule} {t : Task}

theorem claimable_iff : claimable [.userRequest, .refresh] t = isPending t := by
  have known : [TaskType.userRequest, TaskType.refresh].contains t.type = true := by
    cases t.type <;> rfl
  rw [claimable, known, Bool.and_true, isPending]

theorem leaseExpired_iff (expired : d.Expired s) (ht : t ∈ s.tasks) (i : Nat) :
    leaseExpired (d.clock i) t = isProcessing t := by
  unfold leaseExpired isProcessing
  by_cases hp : t.status = .processing
  · obtain ⟨lease, hl, before⟩ := expired t ht hp
    simp [hp, hl, before i]
  · simp [hp]

theorem recoverRow_open (now : Instant) (draw : RetryDraw) (u : Task) :
    (recoverRow maxAttempts now draw u).status = .pending ∨
      Exhausted maxAttempts (recoverRow maxAttempts now draw u) := by
  unfold recoverRow
  split
  · exact Or.inr ⟨rfl, rfl⟩
  · exact Or.inl rfl

/-- One recovery step, from a state in which every lease has run out. -/
structure Recovered (maxAttempts : Nat) (d : DrainSchedule) (i : Nat) (s s' : ServiceState) : Prop where
  step : serviceNext maxAttempts s (d.recovery i) = some s'
  claimed : s'.claimed = s.claimed
  expired : d.Expired s'
  kept : ∀ id, OpenOrExhausted maxAttempts id s → OpenOrExhausted maxAttempts id s'
  opened : s'.tasks.countP isOpen ≤ s.tasks.countP isOpen
  nothing : d.finds i s = [] → ∀ t ∈ s'.tasks, t.status ≠ .processing
  progress : d.finds i s ≠ [] → s'.tasks.countP isProcessing < s.tasks.countP isProcessing

theorem mem_finds (h : t ∈ d.finds i s) : t ∈ s.tasks ∧ t.status = .processing := by
  obtain ⟨hm, expired⟩ := mem_recoverySelection h
  exact ⟨hm, leaseExpired_processing expired⟩

theorem finds_ne_nil (expired : d.Expired s) (i : Nat) (ht : t ∈ s.tasks)
    (hp : t.status = .processing) : d.finds i s ≠ [] := by
  have positive := d.recoveryLimit_pos i
  have due : leaseExpired (d.clock i) t = true := by
    rw [leaseExpired_iff expired ht]
    exact beq_iff_eq.mpr hp
  unfold DrainSchedule.finds recoverySelection
  rw [if_neg (by omega)]
  exact select_ne_nil (by omega) ht due

theorem rowAfter_recovery (i : Nat) (t : Task) :
    rowAfter maxAttempts s.tasks (d.recovery i) t =
      if t ∈ d.finds i s then recoverRow maxAttempts (d.updatedAt i) (d.draws i t.id) t else t :=
  rfl

theorem recoverRow_not_processing (now : Instant) (draw : RetryDraw) (u : Task) :
    isProcessing (recoverRow maxAttempts now draw u) = false := by
  unfold recoverRow
  split <;> rfl

theorem mem_recovered {rows : List Task} {i : Nat}
    (h : rows = s.tasks.map (rowAfter maxAttempts s.tasks (d.recovery i))) (ht : t ∈ rows) :
    (t ∈ s.tasks ∧ t ∉ d.finds i s) ∨ isProcessing t = false := by
  rw [h] at ht
  obtain ⟨old, hold, rfl⟩ := List.mem_map.mp ht
  rw [rowAfter_recovery]
  split
  next => exact Or.inr (recoverRow_not_processing _ _ _)
  next found => exact Or.inl ⟨hold, found⟩

theorem recovery_step (expired : d.Expired s) (i : Nat) :
    ∃ s', Recovered maxAttempts d i s s' := by
  obtain ⟨s', step, tasks, claimed⟩ : ∃ s', serviceNext maxAttempts s (d.recovery i) = some s' ∧
      s'.tasks = s.tasks.map (rowAfter maxAttempts s.tasks (d.recovery i)) ∧
      s'.claimed = s.claimed := ⟨_, rfl, rfl, rfl⟩
  refine ⟨s', ⟨step, claimed, ?_, ?_, ?_, ?_, ?_⟩⟩
  · intro u hu hp
    rcases mem_recovered tasks hu with ⟨hm, _⟩ | left
    · exact expired u hm hp
    · simp [isProcessing, hp] at left
  · rintro id ⟨u, hu, rfl, hs⟩
    refine ⟨_, tasks ▸ List.mem_map_of_mem hu, rowAfter_id s.tasks (d.recovery i) u, ?_⟩
    rw [rowAfter_recovery]
    split
    · rcases @recoverRow_open maxAttempts (d.updatedAt i) (d.draws i u.id) u with hr | hr
      · exact Or.inl (by simp [isOpen, hr, TaskStatus.isOpen])
      · exact Or.inr hr
    · exact hs
  · rw [tasks, List.countP_map]
    apply List.countP_mono_left
    intro u _ ho
    rw [Function.comp_apply, rowAfter_recovery] at ho
    split at ho
    next found => simp [isOpen, (mem_finds found).2, TaskStatus.isOpen]
    next => exact ho
  · intro empty u hu hp
    rcases mem_recovered tasks hu with ⟨hm, _⟩ | left
    · exact finds_ne_nil expired i hm hp empty
    · simp [isProcessing, hp] at left
  · intro some
    rw [tasks]
    apply countP_rewrite_lt _ some
    intro u hu
    obtain ⟨hm, hp⟩ := mem_finds hu
    exact ⟨hm, by simp [isProcessing, hp], recoverRow_not_processing _ _ u⟩

/-- Recovery runs dry after at most one step more than there are tasks in
processing. -/
theorem recoveries_drain (expired : d.Expired s) (first : Nat) :
    ∃ k s', 0 < k ∧ k ≤ s.tasks.countP isProcessing + 1 ∧
      exec (serviceNext maxAttempts) s (d.recoveries first k) = some s' ∧
      (∀ i < k, ∃ u, exec (serviceNext maxAttempts) s (d.recoveries first i) = some u ∧
        (d.finds (first + i) u = [] ↔ i + 1 = k)) ∧
      s'.claimed = s.claimed ∧ (∀ t ∈ s'.tasks, t.status ≠ .processing) ∧
      s'.tasks.countP isOpen ≤ s.tasks.countP isOpen ∧
      ∀ id, OpenOrExhausted maxAttempts id s → OpenOrExhausted maxAttempts id s' := by
  induction measure : s.tasks.countP isProcessing using Nat.strong_induction_on
    generalizing s first with
  | _ n ih =>
    subst measure
    obtain ⟨m, h⟩ := @recovery_step maxAttempts s d expired first
    by_cases empty : d.finds first s = []
    · refine ⟨1, m, by omega, by omega, ?_, ?_, h.claimed, h.nothing empty, h.opened, h.kept⟩
      · exact exec_cons h.step
      · intro i hi
        have hi0 : i = 0 := by omega
        subst hi0
        exact ⟨s, rfl, by simp [empty]⟩
    · obtain ⟨k, s', some, bound, run, last, claimed, done, opened, kept⟩ :=
        ih _ (h.progress empty) h.expired (first + 1) rfl
      have less := h.progress empty
      refine ⟨k + 1, s', by omega, by omega, ?_, ?_, claimed.trans h.claimed, done, opened.trans h.opened,
        fun id hid => kept id (h.kept id hid)⟩
      · exact (exec_cons h.step).trans run
      · intro i hi
        cases i with
        | zero =>
          refine ⟨s, rfl, ?_⟩
          simp only [Nat.add_zero, empty, false_iff]
          omega
        | succ i =>
          obtain ⟨u, hu, found⟩ := last i (by omega)
          refine ⟨u, (exec_cons h.step).trans hu, ?_⟩
          rw [show first + (i + 1) = first + 1 + i by omega, found]
          omega

/-- One claim step, from a state in which nothing is in processing. -/
structure Claimed (maxAttempts : Nat) (d : DrainSchedule) (i : Nat) (returned : List TaskId)
    (s s' : ServiceState) : Prop where
  step : serviceNext maxAttempts s (d.claim i) = some s'
  claimed : s'.claimed = returned ++ s.claimed
  waiting : ∀ t ∈ s.tasks, t.status = .pending → t.id ∈ returned ∨ t ∈ s'.tasks
  progress : (∃ t ∈ s.tasks, t.status = .pending) →
    s'.tasks.countP isPending < s.tasks.countP isPending

theorem claim_step (i : Nat) (s : ServiceState) :
    ∃ returned s', Claimed maxAttempts d i returned s s' := by
  have positive := d.claimLimit_pos i
  obtain ⟨s', step, tasks, claimed⟩ : ∃ s', serviceNext maxAttempts s (d.claim i) = some s' ∧
      s'.tasks = s.tasks.map (rowAfter maxAttempts s.tasks (d.claim i)) ∧
      s'.claimed = claimedBy s.tasks (d.claim i) ++ s.claimed := by
    have next : serviceNext maxAttempts s (d.claim i) = some _ := rfl
    obtain ⟨_, _, effect⟩ := serviceNext_effect next
    exact ⟨_, next, rfl, effect.claimed⟩
  refine ⟨_, s', step, claimed, ?_, ?_⟩
  · intro t ht _
    by_cases hm : t ∈ claimSelection (d.claimLimit i) none s.tasks
    · exact Or.inl (List.mem_map_of_mem hm)
    · right
      rw [tasks]
      refine List.mem_map.mpr ⟨t, ht, ?_⟩
      exact if_neg hm
  · rintro ⟨t, ht, hp⟩
    rw [tasks]
    apply countP_rewrite_lt
    · intro u hu
      obtain ⟨hm, hs⟩ := mem_claimSelection hu
      exact ⟨hm, by simp [isPending, hs], rfl⟩
    · have due : claimable [.userRequest, .refresh] t = true := by
        rw [claimable_iff]
        exact beq_iff_eq.mpr hp
      unfold claimSelection
      rw [if_neg (by omega)]
      exact select_ne_nil (by omega) ht due

/-- A pending task is returned after at most as many claim steps as there are
pending tasks. -/
theorem claims_reach (first : Nat) (ht : t ∈ s.tasks) (hp : t.status = .pending) :
    ∃ j s' returned, j ≤ s.tasks.countP isPending ∧
      exec (serviceNext maxAttempts) s (d.claims first j) = some s' ∧
      s'.claimed = returned ++ s.claimed ∧ t.id ∈ returned := by
  induction measure : s.tasks.countP isPending using Nat.strong_induction_on
    generalizing s first with
  | _ n ih =>
    subst measure
    obtain ⟨returned, m, h⟩ := @claim_step maxAttempts d first s
    have less := h.progress ⟨t, ht, hp⟩
    rcases h.waiting t ht hp with hr | hm
    · exact ⟨1, m, returned, by omega, exec_cons h.step, h.claimed, hr⟩
    · obtain ⟨j, s', later, bound, run, claimed, hl⟩ := ih _ less (first + 1) hm rfl
      refine ⟨j + 1, s', later ++ returned, by omega, (exec_cons h.step).trans run, ?_,
        List.mem_append_left _ hl⟩
      rw [claimed, h.claimed, List.append_assoc]

theorem isPending_le_isOpen (rows : List Task) : rows.countP isPending ≤ rows.countP isOpen := by
  apply List.countP_mono_left
  intro u _ hp
  have pending : u.status = .pending := by simpa [isPending] using hp
  simp [isOpen, pending, TaskStatus.isOpen]

theorem isProcessing_le_isOpen (rows : List Task) :
    rows.countP isProcessing ≤ rows.countP isOpen := by
  apply List.countP_mono_left
  intro u _ hp
  have processing : u.status = .processing := by simpa [isProcessing] using hp
  simp [isOpen, processing, TaskStatus.isOpen]

/-- From every reachable state, once time has passed all leases, recovery until
nothing is found and then claims hand out any open task or fail it. -/
theorem no_task_lost (hmax : 1 ≤ maxAttempts) {trace : List (ServiceState × ServiceOp)}
    (run : ServiceRun maxAttempts .init trace s) (d : DrainSchedule)
    (beyond : ∀ u ∈ s.tasks, u.status = .processing → ∀ lease, u.leaseExpiresAt = some lease →
      ∀ i, lease < d.clock i)
    (ht : t ∈ s.tasks) (unfinished : t.status = .pending ∨ t.status = .processing) :
    ∃ k j s₁ s₂ returned, k + j ≤ 2 * s.tasks.countP isOpen + 1 ∧
      exec (serviceNext maxAttempts) s (d.recoveries 0 k) = some s₁ ∧
      (∀ i < k, ∃ u, exec (serviceNext maxAttempts) s (d.recoveries 0 i) = some u ∧
        (d.finds i u = [] ↔ i + 1 = k)) ∧
      exec (serviceNext maxAttempts) s₁ (d.claims 0 j) = some s₂ ∧
      s₂.claimed = returned ++ s.claimed ∧
      (t.id ∈ returned ∨ ∃ u ∈ s₂.tasks, u.id = t.id ∧ Exhausted maxAttempts u) := by
  have inv := serviceInv_run hmax run
  have expired : d.Expired s := by
    intro u hu hp
    obtain ⟨lease, hl⟩ := Option.isSome_iff_exists.mp ((inv.rows u hu).processing hp).1
    exact ⟨lease, hl, beyond u hu hp lease hl⟩
  have started : isOpen t = true := by
    rcases unfinished with h | h <;> simp [isOpen, h, TaskStatus.isOpen]
  obtain ⟨k, s₁, _, bound, recovered, last, claimed, done, opened, kept⟩ :=
    @recoveries_drain maxAttempts s d expired 0
  have processing := isProcessing_le_isOpen s.tasks
  obtain ⟨u, hu, hid, hopen | exhausted⟩ := kept t.id ⟨t, ht, rfl, Or.inl started⟩
  · have pending : u.status = .pending := by
      have not_processing := done u hu
      revert hopen not_processing
      cases hs : u.status <;> simp [isOpen, hs, TaskStatus.isOpen]
    obtain ⟨j, s₂, returned, few, handed, history, hr⟩ :=
      @claims_reach maxAttempts s₁ d u 0 hu pending
    have pendings := isPending_le_isOpen s₁.tasks
    refine ⟨k, j, s₁, s₂, returned, by omega, recovered, ?_, handed, claimed ▸ history,
      Or.inl (hid ▸ hr)⟩
    simpa only [Nat.zero_add] using last
  · refine ⟨k, 0, s₁, s₁, [], by omega, recovered, ?_, rfl, claimed, Or.inr ⟨u, hu, hid, exhausted⟩⟩
    simpa only [Nat.zero_add] using last

/-- A worker claims the task and crashes. -/
def crashOps : List ServiceOp := [.createJob oneTaskSubmission, .claimTasks 1 120 none 0]

def plainDrain : DrainSchedule :=
  { recoveryLimit := fun _ => 1, clock := fun i => 200 + i, updatedAt := fun i => 200 + i,
    draws := fun _ _ => .unjittered 200, claimLimit := fun _ => 1,
    leaseExpiresAt := fun _ => 900, claimedAt := fun _ => 300,
    recoveryLimit_pos := fun _ => by decide, claimLimit_pos := fun _ => by decide }

theorem no_task_lost_crash :
    ∃ s t, exec (serviceNext 3) .init crashOps = some s ∧ t ∈ s.tasks ∧ t.status = .processing ∧
      ∃ k j s₁ s₂ returned, k + j ≤ 3 ∧
        exec (serviceNext 3) s (plainDrain.recoveries 0 k) = some s₁ ∧
        exec (serviceNext 3) s₁ (plainDrain.claims 0 j) = some s₂ ∧
        s₂.claimed = returned ++ s.claimed ∧
        (t.id ∈ returned ∨ ∃ u ∈ s₂.tasks, u.id = t.id ∧ Exhausted 3 u) := by
  have enabled : (exec (serviceNext 3) .init crashOps).map (fun s => s.tasks.map fun t =>
      (t.status, t.leaseExpiresAt)) = some [(.processing, some 120)] := by
    decide
  obtain ⟨s, hs, rows⟩ := Option.map_eq_some_iff.mp enabled
  obtain ⟨t, only, ht⟩ := List.map_eq_singleton_iff.mp rows
  obtain ⟨status, lease⟩ := Prod.mk.inj ht
  have mem : t ∈ s.tasks := only ▸ List.mem_singleton_self t
  have beyond : ∀ u ∈ s.tasks, u.status = .processing → ∀ l, u.leaseExpiresAt = some l →
      ∀ i, l < plainDrain.clock i := by
    intro u hu _ l hl i
    rw [only, List.mem_singleton] at hu
    rw [hu, lease] at hl
    cases hl
    show (120 : Int) < 200 + i
    omega
  obtain ⟨k, j, s₁, s₂, returned, bound, recovered, _, handed, claimed, outcome⟩ :=
    no_task_lost (by decide) (exec_run hs) plainDrain beyond mem (Or.inr status)
  have one : s.tasks.countP isOpen = 1 := by
    rw [only]
    simp [isOpen, status, TaskStatus.isOpen]
  exact ⟨s, t, hs, mem, status, k, j, s₁, s₂, returned, by omega, recovered, handed, claimed,
    outcome⟩

end DomainProcessing
