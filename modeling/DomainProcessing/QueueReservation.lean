import DomainProcessing.BoundedQueue
import DomainProcessing.Runs
import DomainProcessing.TaskRepository

namespace DomainProcessing

open Tables OrderedSelection Runs

/-- The two loops of a `TaskManager`. -/
inductive ManagerLoop
  | polling
  | recovery
  deriving DecidableEq

def ManagerLoop.other : ManagerLoop → ManagerLoop
  | .polling => .recovery
  | .recovery => .polling

/-- Where the cycle of a loop is: between two cycles, with a batch size but before
the commit, or with tasks that it has claimed or recovered and not yet put. -/
inductive Cycle (α : Type*)
  | idle
  | sized (batchSize : Nat)
  | dispatching (tasks : List α)

structure ManagerCycles (α : Type*) where
  queue : BoundedQueue α
  claimCycle : Cycle α
  recoveryCycle : Cycle α

inductive CycleStep (α : Type*)
  | readCapacity (loop : ManagerLoop)
  | commit (loop : ManagerLoop) (tasks : List α)
  | put (loop : ManagerLoop)
  | get
  | ends (loop : ManagerLoop)

variable {α : Type*}

namespace ManagerCycles

def cycle (s : ManagerCycles α) : ManagerLoop → Cycle α
  | .polling => s.claimCycle
  | .recovery => s.recoveryCycle

def setCycle (s : ManagerCycles α) (loop : ManagerLoop) (cycle : Cycle α) : ManagerCycles α :=
  match loop with
  | .polling => { s with claimCycle := cycle }
  | .recovery => { s with recoveryCycle := cycle }

def batchSize (workerConcurrency : Nat) (s : ManagerCycles α) : Nat :=
  min s.queue.availableCapacity workerConcurrency

end ManagerCycles

/-- `_claim_cycle` and `_recovery_cycle` with the workers' gets. The tasks of a
commit are those that the cycle is going to put; a cycle may end early by an
exception. -/
def cyclesNext (workerConcurrency : Nat) (s : ManagerCycles α) :
    CycleStep α → Option (ManagerCycles α)
  | .readCapacity loop =>
    match s.cycle loop with
    | .idle =>
      let batchSize := s.batchSize workerConcurrency
      some (if 0 < batchSize then s.setCycle loop (.sized batchSize) else s)
    | _ => none
  | .commit loop tasks =>
    match s.cycle loop with
    | .sized batchSize =>
      if tasks.length ≤ batchSize then some (s.setCycle loop (.dispatching tasks)) else none
    | _ => none
  | .put loop =>
    match s.cycle loop with
    | .dispatching (task :: rest) =>
      (s.queue.put task).map fun queue =>
        { s with queue := queue }.setCycle loop (.dispatching rest)
    | _ => none
  | .get => s.queue.get.map fun p => { s with queue := p.2 }
  | .ends loop => some (s.setCycle loop .idle)

/-- No cycle is under way. -/
def ManagerCycles.start (queue : BoundedQueue α) : ManagerCycles α := ⟨queue, .idle, .idle⟩

/-- Tasks claimed or recovered, but not yet put. -/
def Cycle.outstanding : Cycle α → Nat
  | .dispatching tasks => tasks.length
  | _ => 0

/-- What a cycle may still come to put. -/
def Cycle.reserved : Cycle α → Nat
  | .idle => 0
  | .sized batchSize => batchSize
  | .dispatching tasks => tasks.length

namespace ManagerCycles

def Fits (s : ManagerCycles α) : Prop :=
  s.claimCycle.outstanding + s.recoveryCycle.outstanding ≤ s.queue.availableCapacity

/-- The free slots cover what both cycles may still come to put. -/
def Covered (s : ManagerCycles α) : Prop :=
  s.claimCycle.reserved + s.recoveryCycle.reserved ≤ s.queue.availableCapacity

end ManagerCycles

/-- A capacity reading leaves the other cycle the slots that it has counted on. -/
def LeavesRoom (workerConcurrency : Nat) (s : ManagerCycles α) : CycleStep α → Prop
  | .readCapacity loop =>
    s.batchSize workerConcurrency + (s.cycle loop.other).reserved ≤ s.queue.availableCapacity
  | _ => True

/-- What a step needs and does. -/
inductive CycleEffect (workerConcurrency : Nat) (s : ManagerCycles α) :
    CycleStep α → ManagerCycles α → Prop
  | read {loop} : s.cycle loop = .idle → 0 < s.batchSize workerConcurrency →
      CycleEffect workerConcurrency s (.readCapacity loop)
        (s.setCycle loop (.sized (s.batchSize workerConcurrency)))
  | full {loop} : s.cycle loop = .idle → s.batchSize workerConcurrency = 0 →
      CycleEffect workerConcurrency s (.readCapacity loop) s
  | commit {loop tasks batchSize} : s.cycle loop = .sized batchSize → tasks.length ≤ batchSize →
      CycleEffect workerConcurrency s (.commit loop tasks) (s.setCycle loop (.dispatching tasks))
  | put {loop task rest queue} : s.cycle loop = .dispatching (task :: rest) →
      s.queue.put task = some queue →
      CycleEffect workerConcurrency s (.put loop)
        ({ s with queue := queue }.setCycle loop (.dispatching rest))
  | get {task queue} : s.queue.get = some (task, queue) →
      CycleEffect workerConcurrency s .get { s with queue := queue }
  | ends {loop} : CycleEffect workerConcurrency s (.ends loop) (s.setCycle loop .idle)

variable {workerConcurrency : Nat} {s s' : ManagerCycles α} {loop : ManagerLoop} {a : CycleStep α}
  {cycle : Cycle α} {queue : BoundedQueue α}

theorem Cycle.outstanding_le_reserved (cycle : Cycle α) : cycle.outstanding ≤ cycle.reserved := by
  cases cycle with
  | dispatching tasks => exact Nat.le_refl _
  | _ => exact Nat.zero_le _

namespace ManagerCycles

@[simp] theorem setCycle_queue (s : ManagerCycles α) (loop : ManagerLoop) (cycle : Cycle α) :
    (s.setCycle loop cycle).queue = s.queue := by
  cases loop <;> rfl

@[simp] theorem setCycle_cycle (s : ManagerCycles α) (loop : ManagerLoop) (cycle : Cycle α) :
    (s.setCycle loop cycle).cycle loop = cycle := by
  cases loop <;> rfl

@[simp] theorem setCycle_other (s : ManagerCycles α) (loop : ManagerLoop) (cycle : Cycle α) :
    (s.setCycle loop cycle).cycle loop.other = s.cycle loop.other := by
  cases loop <;> rfl

@[simp] theorem withQueue_cycle (s : ManagerCycles α) (loop : ManagerLoop) :
    ({ s with queue := queue } : ManagerCycles α).cycle loop = s.cycle loop := by
  cases loop <;> rfl

theorem fits_iff (loop : ManagerLoop) : s.Fits ↔
    (s.cycle loop).outstanding + (s.cycle loop.other).outstanding ≤ s.queue.availableCapacity := by
  cases loop with
  | polling => exact Iff.rfl
  | recovery => rw [Nat.add_comm]; exact Iff.rfl

theorem covered_iff (loop : ManagerLoop) : s.Covered ↔
    (s.cycle loop).reserved + (s.cycle loop.other).reserved ≤ s.queue.availableCapacity := by
  cases loop with
  | polling => exact Iff.rfl
  | recovery => rw [Nat.add_comm]; exact Iff.rfl

theorem Covered.fits (covered : s.Covered) : s.Fits := by
  have claimed := s.claimCycle.outstanding_le_reserved
  have recovered := s.recoveryCycle.outstanding_le_reserved
  unfold Covered at covered
  unfold Fits
  omega

/-- A cycle that counts on fewer slots than before. -/
theorem Covered.shrink (covered : s.Covered) (le : cycle.reserved ≤ (s.cycle loop).reserved) :
    (s.setCycle loop cycle).Covered := by
  rw [covered_iff loop] at covered
  rw [covered_iff loop, setCycle_cycle, setCycle_other, setCycle_queue]
  omega

theorem Covered.read (room : LeavesRoom workerConcurrency s (.readCapacity loop)) :
    (s.setCycle loop (.sized (s.batchSize workerConcurrency))).Covered := by
  rw [covered_iff loop, setCycle_cycle, setCycle_other, setCycle_queue]
  exact room

theorem Covered.put {task : α} {rest : List α} (covered : s.Covered)
    (held : s.cycle loop = .dispatching (task :: rest)) (put : s.queue.put task = some queue) :
    ({ s with queue := queue }.setCycle loop (.dispatching rest)).Covered := by
  obtain ⟨room, items, capacity⟩ := BoundedQueue.put_eq put
  rw [covered_iff loop, held] at covered
  rw [covered_iff loop, setCycle_cycle, setCycle_other, setCycle_queue, withQueue_cycle]
  simp only [Cycle.reserved, List.length_cons, BoundedQueue.availableCapacity, BoundedQueue.size,
    items, capacity, List.length_append, List.length_nil] at covered ⊢
  omega

theorem Covered.get {task : α} (covered : s.Covered) (taken : s.queue.get = some (task, queue)) :
    ({ s with queue := queue } : ManagerCycles α).Covered := by
  obtain ⟨items, capacity⟩ := BoundedQueue.get_eq taken
  simp only [Covered, BoundedQueue.availableCapacity, BoundedQueue.size, items, capacity,
    List.length_cons] at covered ⊢
  omega

end ManagerCycles

open ManagerCycles

theorem cyclesNext_effect (h : cyclesNext workerConcurrency s a = some s') :
    CycleEffect workerConcurrency s a s' := by
  cases a with
  | readCapacity loop =>
    simp only [cyclesNext] at h
    split at h
    next idle =>
      cases Option.some.inj h
      split
      next positive => exact .read idle positive
      next none => exact .full idle (by omega)
    next => cases h
  | commit loop tasks =>
    simp only [cyclesNext] at h
    split at h
    next batchSize sized =>
      split at h
      next le =>
        cases Option.some.inj h
        exact .commit sized le
      next => cases h
    next => cases h
  | put loop =>
    simp only [cyclesNext] at h
    split at h
    next task rest held =>
      obtain ⟨queue, put, rfl⟩ := Option.map_eq_some_iff.mp h
      exact .put held put
    next => cases h
  | get =>
    obtain ⟨⟨task, queue⟩, taken, rfl⟩ := Option.map_eq_some_iff.mp h
    exact .get taken
  | ends loop =>
    cases Option.some.inj h
    exact .ends

theorem commit_of_sized {tasks : List α} {batchSize : Nat} (sized : s.cycle loop = .sized batchSize)
    (le : tasks.length ≤ batchSize) : cyclesNext workerConcurrency s (.commit loop tasks) =
      some (s.setCycle loop (.dispatching tasks)) := by
  simp only [cyclesNext, sized]
  rw [if_pos le]

/-- The claim query never returns more than the batch. -/
theorem commit_claimTasks {s : ManagerCycles Task} {batchSize : Nat}
    (sized : s.cycle .polling = .sized batchSize) (leaseExpiresAt now : Instant)
    (tasks : TaskTable) :
    let claimed := (claimTasks batchSize leaseExpiresAt none now tasks).2
    cyclesNext workerConcurrency s (.commit .polling claimed) =
      some (s.setCycle .polling (.dispatching claimed)) := by
  apply commit_of_sized sized
  rw [claimTasks, List.length_map]
  unfold claimSelection
  split
  · exact Nat.zero_le _
  · exact select_length_le _ _ _ _

/-- Of the recovered tasks only the pending ones are put. -/
theorem commit_recoverExpiredTasks {s : ManagerCycles Task} {batchSize : Nat}
    (sized : s.cycle .recovery = .sized batchSize) (maxAttempts : Nat) (now updatedAt : Instant)
    (draws : TaskId → RetryDraw) (tasks : TaskTable) :
    let recovered := (recoverExpiredTasks maxAttempts batchSize now updatedAt draws tasks).2
    let pending := recovered.filter (·.status == .pending)
    cyclesNext workerConcurrency s (.commit .recovery pending) =
      some (s.setCycle .recovery (.dispatching pending)) := by
  apply commit_of_sized sized
  refine (List.length_filter_le _ _).trans ?_
  rw [recoverExpiredTasks, List.length_map]
  unfold recoverySelection
  split
  · exact Nat.zero_le _
  · exact select_length_le _ _ _ _

theorem covered_step (covered : s.Covered) (room : LeavesRoom workerConcurrency s a)
    (h : cyclesNext workerConcurrency s a = some s') : s'.Covered := by
  cases cyclesNext_effect h with
  | read => exact Covered.read room
  | full => exact covered
  | commit sized le => exact covered.shrink (by rw [sized]; exact le)
  | put held put => exact covered.put held put
  | get taken => exact covered.get taken
  | ends => exact covered.shrink (Nat.zero_le _)

/-- While everything outstanding fits, no put waits. -/
theorem ManagerCycles.Fits.put_ready {task : α} {rest : List α} (fits : s.Fits)
    (held : s.cycle loop = .dispatching (task :: rest)) : (s.queue.put task).isSome := by
  rw [fits_iff loop, held] at fits
  have room : 0 < s.queue.availableCapacity := by
    simp only [Cycle.outstanding, List.length_cons] at fits
    omega
  obtain ⟨queue, put, -⟩ := BoundedQueue.put_of_room room task
  rw [put]
  rfl

/-- No cycle reads the capacity. -/
def NoReading (trace : List (ManagerCycles α × CycleStep α)) : Prop :=
  ∀ p ∈ trace, ∀ loop, p.2 ≠ .readCapacity loop

theorem covered_run {trace : List (ManagerCycles α × CycleStep α)}
    (run : Run (cyclesNext workerConcurrency) s trace s') (covered : s.Covered)
    (room : ∀ p ∈ trace, LeavesRoom workerConcurrency p.1 p.2) : s'.Covered :=
  run.guarded (LeavesRoom workerConcurrency) covered covered_step room

theorem NoReading.leavesRoom {trace : List (ManagerCycles α × CycleStep α)}
    (quiet : NoReading trace) : ∀ p ∈ trace, LeavesRoom workerConcurrency p.1 p.2 := by
  rintro ⟨t, a⟩ mem
  cases a with
  | readCapacity loop => exact absurd rfl (quiet _ mem loop)
  | _ => trivial

theorem commits_all (workerConcurrency : Nat) (rows : Nat → α) (s : ManagerCycles α)
    (loop : ManagerLoop) :
    ∃ trace u, Run (cyclesNext workerConcurrency) s trace u ∧ NoReading trace ∧
      u.queue = s.queue ∧ (u.cycle loop).outstanding = (s.cycle loop).reserved ∧
      u.cycle loop.other = s.cycle loop.other := by
  have none_yet : NoReading ([] : List (ManagerCycles α × CycleStep α)) := by simp [NoReading]
  cases at_loop : s.cycle loop with
  | idle => exact ⟨[], s, Run.start, none_yet, rfl, by rw [at_loop]; rfl, rfl⟩
  | dispatching tasks => exact ⟨[], s, Run.start, none_yet, rfl, by rw [at_loop]; rfl, rfl⟩
  | sized batchSize =>
    have count : ((List.range batchSize).map rows).length = batchSize := by simp
    have next : cyclesNext workerConcurrency s (.commit loop ((List.range batchSize).map rows)) = _ :=
      commit_of_sized at_loop (Nat.le_of_eq count)
    refine ⟨_, _, Run.step Run.start next, ?_, setCycle_queue .., ?_, setCycle_other ..⟩
    · simp [NoReading]
    · rw [setCycle_cycle]
      exact count

theorem fits_after_iff (workerConcurrency : Nat) (rows : Nat → α) (s : ManagerCycles α) :
    (∀ later u, Run (cyclesNext workerConcurrency) s later u → NoReading later → u.Fits) ↔
      s.Covered := by
  constructor
  · intro fits
    obtain ⟨first, t, run, quiet, queue, claimed, other⟩ :=
      commits_all workerConcurrency rows s .polling
    obtain ⟨second, u, run', quiet', queue', recovered, other'⟩ :=
      commits_all workerConcurrency (fun k => rows (s.claimCycle.reserved + k)) t .recovery
    have all := fits _ u (run.trans run') (by
      intro p mem
      rcases List.mem_append.mp mem with mem | mem
      · exact quiet' p mem
      · exact quiet p mem)
    rw [fits_iff .recovery, recovered, other', queue', queue] at all
    rw [covered_iff .recovery]
    change (t.cycle ManagerLoop.polling.other).reserved + (t.cycle .polling).outstanding ≤ _ at all
    rw [other, claimed] at all
    exact all
  · intro covered later u run quiet
    exact (covered_run run covered quiet.leavesRoom).fits

/-- All that is claimed or recovered fits the queue as long as every capacity
reading leaves the other cycle its slots; and after a reading that does not, the
commits under way can exceed them. `rows` are tasks for them to return. -/
theorem claimed_work_fits_iff (workerConcurrency : Nat) (queue : BoundedQueue α)
    (rows : Nat → α) :
    (∀ trace s, Run (cyclesNext workerConcurrency) (ManagerCycles.start queue) trace s →
      (∀ p ∈ trace, LeavesRoom workerConcurrency p.1 p.2) →
      s.Fits ∧ ∀ loop task rest, s.cycle loop = .dispatching (task :: rest) →
        (s.queue.put task).isSome) ∧
    (∀ trace s loop s', Run (cyclesNext workerConcurrency) (ManagerCycles.start queue) trace s →
      (∀ p ∈ trace, LeavesRoom workerConcurrency p.1 p.2) →
      cyclesNext workerConcurrency s (.readCapacity loop) = some s' →
      ((∀ later u, Run (cyclesNext workerConcurrency) s' later u → NoReading later → u.Fits) ↔
        LeavesRoom workerConcurrency s (.readCapacity loop))) := by
  have start : (ManagerCycles.start queue).Covered := Nat.zero_le _
  constructor
  · intro trace s run room
    have fits := (covered_run run start room).fits
    exact ⟨fits, fun loop task rest held => fits.put_ready held⟩
  · intro trace s loop s' run room reading
    have covered := covered_run run start room
    rw [fits_after_iff workerConcurrency rows]
    constructor
    · intro after
      cases cyclesNext_effect reading with
      | read =>
        rw [covered_iff loop, setCycle_cycle, setCycle_other, setCycle_queue] at after
        exact after
      | full _ none =>
        rw [covered_iff loop] at covered
        simp only [LeavesRoom, none]
        omega
    · exact fun leaves => covered_step covered leaves reading

/-- One slot, of which both cycles take their reading before either commits. -/
theorem both_cycles_take_slot :
    ∃ trace s, Run (cyclesNext 1)
        (ManagerCycles.start ⟨[], 1, ⟨1, 0, 0, 0, 0⟩, by decide, by decide⟩) trace s ∧
      s.claimCycle = .dispatching [1] ∧ s.recoveryCycle = .dispatching [2] ∧
      s.queue.availableCapacity = 1 ∧ ¬ s.Fits ∧
      ((cyclesNext 1 s (.put .polling)).bind fun t => cyclesNext 1 t (.put .recovery)).isNone := by
  have moved : exec (cyclesNext 1)
      (ManagerCycles.start ⟨[], 1, ⟨1, 0, 0, 0, 0⟩, by decide, by decide⟩)
      [.readCapacity .polling, .readCapacity .recovery, .commit .polling [1],
        .commit .recovery [2]] =
      some ⟨⟨[], 1, ⟨1, 0, 0, 0, 0⟩, by decide, by decide⟩, .dispatching [1], .dispatching [2]⟩ :=
    rfl
  refine ⟨_, _, exec_run moved, rfl, rfl, rfl, ?_, rfl⟩
  show ¬ 1 + 1 ≤ 1
  decide

theorem read_of_idle (loop : ManagerLoop) {n : Nat} (idle : s.cycle loop = .idle)
    (batch : s.batchSize workerConcurrency = n + 1) :
    cyclesNext workerConcurrency s (.readCapacity loop) =
      some (s.setCycle loop (.sized (n + 1))) := by
  simp only [cyclesNext, idle, batch]
  rw [if_pos (Nat.succ_pos n)]

/-- A claim cycle that finds one task. -/
theorem claim_one {available : Nat} (positive : 0 < workerConcurrency) (row : α)
    (free : queue.availableCapacity = available + 1) :
    ∃ trace queue', Run (cyclesNext workerConcurrency) (ManagerCycles.start queue) trace
      (ManagerCycles.start queue') ∧ queue'.availableCapacity = available := by
  have room : 0 < queue.availableCapacity := by omega
  obtain ⟨queue', put, items⟩ := BoundedQueue.put_of_room room row
  obtain ⟨n, batch⟩ : ∃ n, (ManagerCycles.start queue).batchSize workerConcurrency = n + 1 :=
    Nat.exists_eq_add_one.mpr (Nat.lt_min.mpr ⟨room, positive⟩)
  have read := read_of_idle .polling rfl batch
  have commit : cyclesNext workerConcurrency ⟨queue, .sized (n + 1), .idle⟩
      (.commit .polling [row]) = some ⟨queue, .dispatching [row], .idle⟩ :=
    commit_of_sized rfl (Nat.succ_le_succ (Nat.zero_le n))
  have dispatch : cyclesNext workerConcurrency ⟨queue, .dispatching [row], .idle⟩ (.put .polling) =
      some ⟨queue', .dispatching [], .idle⟩ := by
    simp only [cyclesNext, cycle, put, Option.map_some, setCycle]
  have ends : cyclesNext workerConcurrency ⟨queue', .dispatching [], .idle⟩ (.ends .polling) =
      some (ManagerCycles.start queue') := rfl
  refine ⟨_, queue', (((Run.start.step read).step commit).step dispatch).step ends, ?_⟩
  obtain ⟨-, -, capacity⟩ := BoundedQueue.put_eq put
  unfold BoundedQueue.availableCapacity BoundedQueue.size at free ⊢
  rw [items, capacity, List.length_append, List.length_singleton]
  omega

theorem one_slot_left (positive : 0 < workerConcurrency) (row : α) (queue : BoundedQueue α) :
    ∃ trace queue', Run (cyclesNext workerConcurrency) (ManagerCycles.start queue) trace
      (ManagerCycles.start queue') ∧ queue'.availableCapacity = 1 := by
  induction free : queue.availableCapacity generalizing queue with
  | zero =>
    have full := queue.size_add_available
    have some_capacity := queue.capacity_pos
    obtain ⟨task, rest, items⟩ : ∃ task rest, queue.items = task :: rest := by
      apply List.exists_cons_of_length_pos
      unfold BoundedQueue.size at full
      omega
    obtain ⟨queue', taken⟩ := BoundedQueue.get_of_items items
    obtain ⟨items', capacity⟩ := BoundedQueue.get_eq taken
    have next : cyclesNext workerConcurrency (ManagerCycles.start queue) .get =
        some (ManagerCycles.start queue') := by
      simp only [cyclesNext, ManagerCycles.start, taken, Option.map_some]
    refine ⟨_, queue', Run.start.step next, ?_⟩
    have before := queue.size_add_available
    unfold BoundedQueue.availableCapacity
    unfold BoundedQueue.size at before ⊢
    rw [items', List.length_cons, free] at before
    omega
  | succ available ih =>
    by_cases last : available = 0
    · exact ⟨[], queue, Run.start, by omega⟩
    · obtain ⟨first, queue', run, left⟩ := claim_one positive row free
      obtain ⟨rest, queue'', run', one⟩ := ih queue' left
      exact ⟨_, queue'', run.trans run', one⟩

theorem overcommit_reachable (positive : 0 < workerConcurrency) (rows : Nat → α)
    (queue : BoundedQueue α) :
    ∃ trace s, Run (cyclesNext workerConcurrency) (ManagerCycles.start queue) trace s ∧
      ¬ s.Fits := by
  obtain ⟨trace, queue', run, one⟩ := one_slot_left positive (rows 0) queue
  have batch : min queue'.availableCapacity workerConcurrency = 0 + 1 := by omega
  have first := read_of_idle (s := ManagerCycles.start queue') .polling rfl batch
  have second := read_of_idle (s := (ManagerCycles.start queue').setCycle .polling (.sized 1))
    .recovery rfl batch
  have short : ¬ (((ManagerCycles.start queue').setCycle .polling (.sized 1)).setCycle .recovery
      (.sized 1)).Covered := by
    show ¬ 1 + 1 ≤ queue'.availableCapacity
    omega
  rw [← fits_after_iff workerConcurrency rows] at short
  simp only [not_forall] at short
  obtain ⟨later, s, commits, -, exceeds⟩ := short
  exact ⟨_, s, ((run.step first).step second).trans commits, exceeds⟩

end DomainProcessing
