import DomainProcessing.TaskTransactions

namespace DomainProcessing

open Tables RowLocks Runs

/-- No domain has two open refresh tasks, so `get_pending_refresh_task_for_domain`
finds at most one. -/
def OneOpenRefresh (tasks : List Task) : Prop :=
  ∀ domainId, (tasks.filter (openRefresh domainId)).length ≤ 1

theorem length_le_one_iff {α : Type*} {xs : List α} (nodup : xs.Nodup) :
    xs.length ≤ 1 ↔ ∀ x ∈ xs, ∀ y ∈ xs, x = y := by
  match xs, nodup with
  | [], _ => simp
  | [x], _ => simp
  | x :: y :: rest, nodup =>
    constructor
    · intro short
      simp at short
    · intro equal
      have same := equal x (by simp) y (by simp)
      subst same
      simp at nodup

/-- Two open refresh tasks of one domain are one row. -/
theorem oneOpenRefresh_iff (tasks : TaskTable) :
    OneOpenRefresh tasks.rows ↔ ∀ domainId, ∀ t ∈ tasks.rows, ∀ u ∈ tasks.rows,
      openRefresh domainId t = true → openRefresh domainId u = true → t.id = u.id := by
  have distinct : tasks.rows.Nodup := tasks.nodup.of_map _
  refine forall_congr' fun domainId => ?_
  rw [length_le_one_iff (distinct.filter _)]
  constructor
  · intro h t ht u hu openT openU
    rw [h t (List.mem_filter.mpr ⟨ht, openT⟩) u (List.mem_filter.mpr ⟨hu, openU⟩)]
  · intro h t ht u hu
    obtain ⟨ht, openT⟩ := List.mem_filter.mp ht
    obtain ⟨hu, openU⟩ := List.mem_filter.mp hu
    exact Table.eq_of_key ht hu (h t ht u hu openT openU)

/-- No committed task of their domains is open when new refresh tasks are
committed, and no other one when a worker's write leaves its row open. -/
def TaskPhase.Undoubled (maxAttempts : Nat) (tasks : List Task) : TaskPhase → Prop
  | .checking _ _ created => ∀ t ∈ created, ∀ u ∈ tasks, openRefresh t.domainId u = false
  | .flushed write row => ∀ t ∈ tasks, t.id = row.id →
    openRefresh t.domainId (flushRow row (write.row maxAttempts row) t) = true →
      ∀ u ∈ tasks, u.id ≠ row.id → openRefresh t.domainId u = false
  | _ => True

instance (maxAttempts : Nat) (tasks : List Task) (phase : TaskPhase) :
    Decidable (phase.Undoubled maxAttempts tasks) :=
  match phase with
  | .checking _ _ created =>
    inferInstanceAs (Decidable (∀ t ∈ created, ∀ u ∈ tasks, openRefresh t.domainId u = false))
  | .flushed write row =>
    inferInstanceAs (Decidable (∀ t ∈ tasks, t.id = row.id →
      openRefresh t.domainId (flushRow row (write.row maxAttempts row) t) = true →
        ∀ u ∈ tasks, u.id ≠ row.id → openRefresh t.domainId u = false))
  | .idle | .running _ _ _ | .read _ _ | .finished => inferInstanceAs (Decidable True)

def Undoubled (maxAttempts : Nat) (s : TaskState) (step : TxId × TaskAction) : Prop :=
  match step.2 with
  | .commit => (s.phase step.1).Undoubled maxAttempts s.tasks.rows
  | _ => True

instance (maxAttempts : Nat) (s : TaskState) (step : TxId × TaskAction) :
    Decidable (Undoubled maxAttempts s step) :=
  match step with
  | (tx, .commit) => inferInstanceAs (Decidable ((s.phase tx).Undoubled maxAttempts s.tasks.rows))
  | (_, .discover _ _ _ _) | (_, .check _) | (_, .select _ _) | (_, .readTask _ _) | (_, .flush)
  | (_, .rollback) => inferInstanceAs (Decidable True)

def TaskOk (s : TaskState) (tx : TxId) : TaskPhase → Prop
  | .checking _ todo created =>
    (todo ++ created.map Task.domainId).Nodup ∧ ∀ t ∈ created, openRefresh t.domainId t = true
  | .running op rows _ => ∀ k ∈ rows, s.locks k = some tx ∧
    ∃ t, s.tasks.get k = some t ∧ op.wants t = true
  | .flushed _ row => s.locks row.id = some tx
  | .idle | .read _ _ | .finished => True

def TaskInv (s : TaskState) : Prop := ∀ tx, TaskOk s tx (s.phase tx)

theorem taskInv_init {tasks : TaskTable} : TaskInv (.init tasks) := fun _ => trivial

/-- A row that a batch operation takes was open before. -/
theorem openRefresh_of_row {op : QueueOp} {domainId : DomainId} {t : Task} (wants : op.wants t = true)
    (h : openRefresh domainId (op.row t) = true) : openRefresh domainId t = true := by
  rw [openRefresh_iff] at h ⊢
  cases op with
  | claimTasks limit leaseExpiresAt taskTypes now =>
    have pending : t.status = .pending := by
      simp only [QueueOp.wants, claimable, Bool.and_eq_true, beq_iff_eq] at wants
      exact wants.1
    exact ⟨h.1, h.2.1, by rw [pending]; rfl⟩
  | recoverExpiredTasks maxAttempts limit now updatedAt draws =>
    have processing : t.status = .processing := leaseExpired_processing wants
    have kept : (recoverRow maxAttempts updatedAt (draws t.id) t).domainId = t.domainId ∧
        (recoverRow maxAttempts updatedAt (draws t.id) t).type = t.type := by
      unfold recoverRow
      split <;> exact ⟨rfl, rfl⟩
    exact ⟨kept.1.symm.trans h.1, kept.2.symm.trans h.2.1, by rw [processing]; rfl⟩

section Steps

variable {maxAttempts : Nat} {s s' : TaskState} {tx tx' : TxId} {action : TaskAction}

theorem finish_locks_other {tasks : TaskTable} {k : TaskId} (hne : tx' ≠ tx)
    (h : s.locks k = some tx') : (s.finish tx tasks).locks k = some tx' := by
  show (s.locks k).filter _ = _
  rw [h]
  simp [hne]

/-- What a step leaves to another transaction. -/
structure TaskFrame (s s' : TaskState) (tx : TxId) : Prop where
  phase : ∀ tx', tx' ≠ tx → s'.phase tx' = s.phase tx'
  locks : ∀ k tx', tx' ≠ tx → s.locks k = some tx' → s'.locks k = some tx'
  rows : ∀ k tx', tx' ≠ tx → s.locks k = some tx' → ∀ t, s.tasks.get k = some t →
    s'.tasks.get k = some t

theorem taskFrame_move {phase : TaskPhase} : TaskFrame s (s.move tx phase) tx :=
  ⟨fun _ hne => Function.update_of_ne hne .., fun _ _ _ h => h, fun _ _ _ _ _ h => h⟩

theorem taskFrame_lock {phase : TaskPhase} {rows : List TaskId}
    (free : ∀ k ∈ rows, s.locks k = none) : TaskFrame s ((s.lock tx rows).move tx phase) tx := by
  refine ⟨fun _ hne => Function.update_of_ne hne .., fun k tx' _ h => ?_, fun _ _ _ _ _ h => h⟩
  have unlisted : k ∉ rows := by
    intro hk
    rw [free k hk] at h
    cases h
  exact (if_neg unlisted).trans h

theorem taskFrame_finish {tasks : TaskTable}
    (rows : ∀ k tx', tx' ≠ tx → s.locks k = some tx' → ∀ t, s.tasks.get k = some t →
      tasks.get k = some t) : TaskFrame s (s.finish tx tasks) tx :=
  ⟨fun _ hne => Function.update_of_ne hne .., fun _ _ hne h => finish_locks_other hne h, rows⟩

theorem taskStep_frame (inv : TaskInv s) (h : TaskStep maxAttempts s tx action s') :
    TaskFrame s s' tx := by
  cases h with
  | discover | create | skip | update | readTask => exact taskFrame_move
  | select hp returnable =>
    refine taskFrame_lock fun k hk => ?_
    have unlocked := (returnable.2.2 k hk).1
    exact Option.map_eq_none_iff.mp unlocked
  | flushWrite hp free =>
    refine taskFrame_lock fun k hk => ?_
    rw [List.mem_singleton.mp hk]
    exact free
  | commitTick hp inserted =>
    refine taskFrame_finish fun k tx' _ _ t ht => ?_
    rw [Table.get_insert inserted, ht, Option.some_or]
  | @commitQueue op rows claimed hp =>
    have kept := @taskFrame_finish s tx (queueWrite op rows s.tasks) fun k tx' hne hl t ht => by
      have unlisted : t.id ∉ rows := by
        intro hk
        have ok := inv tx
        rw [hp] at ok
        obtain ⟨own, _⟩ := ok t.id hk
        rw [(Table.get_eq_some_iff.mp ht).2, hl] at own
        exact hne (Option.some.inj own)
      rw [queueWrite, Table.get_update, ht, Option.map_some, if_neg unlisted]
    exact ⟨kept.phase, kept.locks, kept.rows⟩
  | @commitWrite write row hp =>
    refine taskFrame_finish fun k tx' hne hl t ht => ?_
    have other : k ≠ row.id := by
      rintro rfl
      have own := inv tx
      rw [hp] at own
      replace own : s.locks row.id = some tx := own
      rw [hl] at own
      exact hne (Option.some.inj own)
    rw [workerWrite, Table.get_set, if_neg other, ht]
  | ended => exact taskFrame_finish fun _ _ _ _ _ ht => ht

theorem TaskOk.other {phase : TaskPhase} (ok : TaskOk s tx' phase) (frame : TaskFrame s s' tx)
    (hne : tx' ≠ tx) : TaskOk s' tx' phase := by
  cases phase with
  | idle => trivial
  | checking now todo created => exact ok
  | running op rows updated =>
    intro k hk
    obtain ⟨held, t, ht, wants⟩ := ok k hk
    exact ⟨frame.locks k tx' hne held, t, frame.rows k tx' hne held t ht, wants⟩
  | read write row => trivial
  | flushed write row => exact frame.locks row.id tx' hne ok
  | finished => trivial

theorem phase_move {phase : TaskPhase} : (s.move tx phase).phase tx = phase := Function.update_self ..

theorem phase_finish {tasks : TaskTable} : (s.finish tx tasks).phase tx = .finished :=
  Function.update_self ..

theorem taskOk_own (inv : TaskInv s) (h : TaskStep maxAttempts s tx action s') :
    TaskOk s' tx (s'.phase tx) := by
  have ok := inv tx
  cases h with
  | @discover domains details maxTasks now hp =>
    rw [phase_move]
    refine ⟨?_, fun t ht => by cases ht⟩
    rw [List.map_nil, List.append_nil]
    exact getDomainsNeedingRefresh_nodup details.nodup
  | @create now domainId todo created uuid hp free =>
    rw [hp] at ok
    rw [phase_move]
    obtain ⟨distinct, opened⟩ := ok
    constructor
    · rw [List.map_append, List.map_singleton, ← List.append_assoc]
      exact (List.perm_append_singleton domainId (todo ++ created.map Task.domainId)).nodup_iff.mpr
        distinct
    · intro t ht
      rcases List.mem_append.mp ht with ht | ht
      · exact opened t ht
      · rw [List.mem_singleton.mp ht]
        simp [openRefresh, refreshTask, TaskStatus.isOpen]
  | skip hp =>
    rw [hp] at ok
    rw [phase_move]
    exact ⟨(List.nodup_cons.mp ok.1).2, ok.2⟩
  | @select op rows hp returnable =>
    rw [phase_move]
    intro k hk
    obtain ⟨_, t, ht, wants⟩ := returnable.2.2 k hk
    exact ⟨if_pos hk, t, ht, wants⟩
  | update hp =>
    rw [hp] at ok
    rw [phase_move]
    exact ok
  | readTask =>
    rw [phase_move]
    trivial
  | flushWrite hp free =>
    rw [phase_move]
    exact if_pos (List.mem_singleton_self _)
  | commitTick | commitQueue | commitWrite | ended =>
    have done : ∀ {tasks : TaskTable}, (s.finish tx tasks).phase tx = .finished := phase_finish
    simp only [done]
    trivial

theorem taskInv_step (inv : TaskInv s) (h : TaskStep maxAttempts s tx action s') : TaskInv s' := by
  have frame := taskStep_frame inv h
  intro tx'
  by_cases hr : tx' = tx
  · subst hr
    exact taskOk_own inv h
  · rw [frame.phase tx' hr]
    exact (inv tx').other frame hr

end Steps

section Commits

variable {maxAttempts : Nat} {tasks after : TaskTable} {created : List Task} {op : QueueOp}
variable {rows : List TaskId} {write : WorkerWrite} {row : Task}

theorem oneOpen_insert (one : OneOpenRefresh tasks.rows) (distinct : (created.map Task.domainId).Nodup)
    (opened : ∀ t ∈ created, openRefresh t.domainId t = true)
    (inserted : tasks.insert created = some after) :
    OneOpenRefresh after.rows ↔
      ∀ t ∈ created, ∀ u ∈ tasks.rows, openRefresh t.domainId u = false := by
  rw [oneOpenRefresh_iff] at one ⊢
  rw [Table.insert_rows inserted]
  constructor
  · intro h t ht u hu
    by_contra openU
    have same := h t.domainId t (List.mem_append_right _ ht) u (List.mem_append_left _ hu) (opened t ht)
      (by simpa using openU)
    exact Table.get_eq_none_iff.mp (Table.insert_fresh inserted ht) (same ▸ List.mem_map_of_mem hu)
  · intro h domainId t ht u hu openT openU
    have apart : ∀ x ∈ created, ∀ y ∈ tasks.rows, openRefresh domainId x = true →
        openRefresh domainId y = true → False := by
      intro x hx y hy openX openY
      have free := h x hx y hy
      rw [(openRefresh_iff.mp openX).1, openY] at free
      cases free
    rcases List.mem_append.mp ht with oldT | newT <;> rcases List.mem_append.mp hu with oldU | newU
    · exact one domainId t oldT u oldU openT openU
    · exact (apart u newU t oldT openU openT).elim
    · exact (apart t newT u oldU openT openU).elim
    · have same := (openRefresh_iff.mp openT).1.trans (openRefresh_iff.mp openU).1.symm
      rw [List.inj_on_of_nodup_map distinct newT newU same]

theorem oneOpen_queueWrite (one : OneOpenRefresh tasks.rows)
    (wanted : ∀ k ∈ rows, ∃ t, tasks.get k = some t ∧ op.wants t = true) :
    OneOpenRefresh (queueWrite op rows tasks).rows := by
  rw [oneOpenRefresh_iff] at one ⊢
  have before : ∀ domainId, ∀ t ∈ (queueWrite op rows tasks).rows, openRefresh domainId t = true →
      ∃ old ∈ tasks.rows, old.id = t.id ∧ openRefresh domainId old = true := by
    intro domainId t ht openT
    obtain ⟨old, hold, rfl⟩ := Table.mem_update.mp ht
    refine ⟨old, hold, ?_, ?_⟩
    · split
      next =>
        cases op with
        | claimTasks => rfl
        | recoverExpiredTasks => exact (recoverRow_id _ _ _ _).symm
      next => rfl
    · split at openT
      next taken =>
        obtain ⟨t, ht, wants⟩ := wanted old.id taken
        have same : t = old :=
          Table.eq_of_key (Table.get_eq_some_iff.mp ht).1 hold (Table.get_eq_some_iff.mp ht).2
        rw [same] at wants
        exact openRefresh_of_row wants openT
      next => exact openT
  intro domainId t ht u hu openT openU
  obtain ⟨oldT, ht, idT, openT⟩ := before domainId t ht openT
  obtain ⟨oldU, hu, idU, openU⟩ := before domainId u hu openU
  exact idT.symm.trans ((one domainId oldT ht oldU hu openT openU).trans idU)

theorem oneOpen_workerWrite (one : OneOpenRefresh tasks.rows) :
    OneOpenRefresh (workerWrite maxAttempts write row tasks).rows ↔
      (TaskPhase.flushed write row).Undoubled maxAttempts tasks.rows := by
  rw [oneOpenRefresh_iff] at one ⊢
  let after := flushRow row (write.row maxAttempts row)
  constructor
  · intro h t ht same openT u hu hne
    by_contra openU
    have written : after t ∈ (workerWrite maxAttempts write row tasks).rows :=
      Table.mem_set.mpr ⟨t, ht, if_pos same⟩
    have kept : u ∈ (workerWrite maxAttempts write row tasks).rows :=
      Table.mem_set.mpr ⟨u, hu, if_neg hne⟩
    have equal := h t.domainId (after t) written u kept openT (by simpa using openU)
    exact hne (equal.symm.trans same)
  · intro h domainId t ht u hu openT openU
    obtain ⟨oldT, hT, rfl⟩ := Table.mem_set.mp ht
    obtain ⟨oldU, hU, rfl⟩ := Table.mem_set.mp hu
    have apart : ∀ x ∈ tasks.rows, x.id = row.id → ∀ y ∈ tasks.rows, y.id ≠ row.id →
        openRefresh domainId (after x) = true → openRefresh domainId y = true → False := by
      intro x hx same y hy hne openX openY
      have subject : x.domainId = domainId := (openRefresh_iff.mp openX).1
      have free := h x hx same (by rw [subject]; exact openX) y hy hne
      rw [subject, openY] at free
      cases free
    split at openT
    next sameT =>
      split at openU
      next sameU => rw [if_pos sameT, if_pos sameU, flushRow_id, flushRow_id, sameT, sameU]
      next otherU => exact (apart oldT hT sameT oldU hU otherU openT openU).elim
    next otherT =>
      split at openU
      next sameU => exact (apart oldU hU sameU oldT hT otherT openU openT).elim
      next otherU =>
        rw [if_neg otherT, if_neg otherU]
        exact one domainId oldT hT oldU hU openT openU

end Commits

section Runs

variable {maxAttempts : Nat} {start : TaskTable} {s s' t : TaskState} {tx : TxId} {action : TaskAction}
variable {trace : List (TaskState × TxId × TaskAction)}

theorem undoubled_of_ne (h : action ≠ .commit) : Undoubled maxAttempts s (tx, action) := by
  cases action with
  | commit => exact absurd rfl h
  | _ => trivial

theorem oneOpen_step (inv : TaskInv s) (one : OneOpenRefresh s.tasks.rows)
    (h : TaskStep maxAttempts s tx action s') :
    OneOpenRefresh s'.tasks.rows ↔ Undoubled maxAttempts s (tx, action) := by
  have ok := inv tx
  cases h with
  | discover | create | skip | select | update | readTask | flushWrite =>
    exact iff_of_true one (undoubled_of_ne (by simp))
  | ended hne => exact iff_of_true one (undoubled_of_ne hne)
  | commitTick hp inserted =>
    rw [hp] at ok
    simp only [Undoubled, hp]
    exact oneOpen_insert one ok.1 ok.2 inserted
  | commitQueue hp =>
    rw [hp] at ok
    simp only [Undoubled, hp, TaskPhase.Undoubled, iff_true]
    exact oneOpen_queueWrite one fun k hk => (ok k hk).2
  | commitWrite hp =>
    simp only [Undoubled, hp]
    exact oneOpen_workerWrite one

theorem taskInv_run (run : TaskRun maxAttempts (.init start) trace t) : TaskInv t :=
  run.invariant taskInv_init fun inv h => taskInv_step inv (taskNext_cases h)

/-- What `get_pending_refresh_task_for_domain` finds in a check. -/
def foundOpen (s : TaskState) (step : TxId × TaskAction) : List Task :=
  match s.phase step.1, step.2 with
  | .checking _ (domainId :: _) created, .check _ =>
    (s.tasks.rows ++ created).filter (openRefresh domainId)
  | _, _ => []

theorem foundOpen_length (inv : TaskInv s) (one : OneOpenRefresh s.tasks.rows)
    (step : TxId × TaskAction) : (foundOpen s step).length ≤ 1 := by
  unfold foundOpen
  split
  next now domainId todo created _ hp _ =>
    have ok := inv step.1
    rw [hp] at ok
    have fresh : created.filter (openRefresh domainId) = [] := by
      refine List.filter_eq_nil_iff.mpr fun u hu openU => ?_
      have listed : domainId ∈ created.map Task.domainId :=
        (openRefresh_iff.mp openU).1 ▸ List.mem_map_of_mem hu
      exact (List.nodup_cons.mp ok.1).1 (List.mem_append_right _ listed)
    rw [List.filter_append, fresh, List.append_nil]
    exact one domainId
  next => exact Nat.zero_le 1

theorem single_refresh_iff (init : OneOpenRefresh start.rows)
    (run : TaskRun maxAttempts (.init start) trace t) :
    (((∀ p ∈ trace, OneOpenRefresh p.1.tasks.rows) ∧ OneOpenRefresh t.tasks.rows) ↔
      ∀ p ∈ trace, Undoubled maxAttempts p.1 p.2) ∧
    ((∀ p ∈ trace, Undoubled maxAttempts p.1 p.2) → ∀ p ∈ trace, (foundOpen p.1 p.2).length ≤ 1) := by
  have everywhere : ∀ p ∈ trace, TaskInv p.1 :=
    run.everywhere taskInv_init fun inv h => taskInv_step inv (taskNext_cases h)
  have exact_when : ((∀ p ∈ trace, TaskInv p.1 ∧ OneOpenRefresh p.1.tasks.rows) ∧
      TaskInv t ∧ OneOpenRefresh t.tasks.rows) ↔ ∀ p ∈ trace, Undoubled maxAttempts p.1 p.2 :=
    run.exact (P := fun s => TaskInv s ∧ OneOpenRefresh s.tasks.rows) (Undoubled maxAttempts)
      ⟨taskInv_init, init⟩ fun {_ a _} ⟨inv, one⟩ h => by
        obtain ⟨tx, action⟩ := a
        have step := taskNext_cases h
        exact (and_iff_right (taskInv_step inv step)).trans (oneOpen_step inv one step)
  constructor
  · constructor
    · rintro ⟨before, last⟩
      exact exact_when.mp ⟨fun p hp => ⟨everywhere p hp, before p hp⟩, taskInv_run run, last⟩
    · intro guard
      obtain ⟨before, _, last⟩ := exact_when.mpr guard
      exact ⟨fun p hp => (before p hp).2, last⟩
  · intro guard p hp
    exact foundOpen_length (everywhere p hp) ((exact_when.mpr guard).1 p hp).2 p.2

end Runs

/-- One active domain whose detail is due at the instant 10. -/
def dueDomains : Table Domain.id := ⟨[⟨1, "a.org", true, none, 0, 0⟩], by decide⟩

def dueDetails : Table DomainDetail.domainId :=
  ⟨[⟨1, [], [], 200, none, 10, [], 0, 5, 1⟩], by decide⟩

def tickSteps (tx : TxId) : List (TxId × TaskAction) :=
  [(tx, .discover dueDomains dueDetails 50 10), (tx, .check tx)]

/-- A tick, a claim of its task, a retry, and the next tick. -/
def retriedSteps : List (TxId × TaskAction) :=
  tickSteps 0 ++ [(0, .commit), (1, .select (.claimTasks 10 60 none 11) [0]), (1, .flush), (1, .commit),
    (2, .readTask 0 (.reschedule "timeout" 12 (.unjittered 12))), (2, .flush), (2, .commit)] ++
    tickSteps 3 ++ [(3, .commit)]

theorem single_refresh_iff_retried :
    ∃ t, exec (taskNext 3) (.init .empty) retriedSteps = some t ∧ t.tasks.rows.length = 1 ∧
      OneOpenRefresh t.tasks.rows ∧
      ∀ p ∈ steps (taskNext 3) (.init .empty) retriedSteps, (foundOpen p.1 p.2).length ≤ 1 := by
  have reached : (exec (taskNext 3) (.init .empty) retriedSteps).any
      (fun t => decide (t.tasks.rows.length = 1)) = true := by decide +kernel
  obtain ⟨t, ht, rows⟩ := (Option.any_eq_true _ _).mp reached
  have empty : OneOpenRefresh (Table.empty : TaskTable).rows := fun _ => Nat.zero_le 1
  obtain ⟨iff, found⟩ := single_refresh_iff empty (exec_run ht)
  have guard : ∀ p ∈ steps (taskNext 3) (.init .empty) retriedSteps, Undoubled 3 p.1 p.2 := by
    decide +kernel
  exact ⟨t, ht, of_decide_eq_true rows, (iff.mpr guard).2, found guard⟩

/-- Two ticks that check before either of them commits, and a third one. -/
def overlappingTicks : List (TxId × TaskAction) :=
  tickSteps 0 ++ tickSteps 1 ++ [(0, .commit), (1, .commit)] ++ tickSteps 2

theorem single_refresh_doubled :
    ∃ trace t, TaskRun 3 (.init .empty) trace t ∧
      (t.tasks.rows.filter (openRefresh 1)).length = 2 ∧
      (∃ p ∈ trace, (foundOpen p.1 p.2).length = 2) ∧ ¬OneOpenRefresh t.tasks.rows := by
  have reached : (exec (taskNext 3) (.init .empty) overlappingTicks).any
      (fun t => decide ((t.tasks.rows.filter (openRefresh 1)).length = 2)) = true := by
    decide +kernel
  obtain ⟨t, ht, rows⟩ := (Option.any_eq_true _ _).mp reached
  have two := of_decide_eq_true rows
  have found : ∃ p ∈ steps (taskNext 3) (.init .empty) overlappingTicks,
      (foundOpen p.1 p.2).length = 2 := by decide +kernel
  refine ⟨_, t, exec_run ht, two, found, fun one => ?_⟩
  have short := one 1
  omega

end DomainProcessing
