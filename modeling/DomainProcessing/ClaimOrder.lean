import DomainProcessing.TaskRepository

namespace DomainProcessing

open Tables OrderedSelection

/-- User requests before refreshes, then by age, then by the identifier. -/
def ClaimedBefore (t u : Task) : Prop :=
  t.type = .userRequest ∧ u.type = .refresh ∨
    t.type = u.type ∧ (t.createdAt < u.createdAt ∨ t.createdAt = u.createdAt ∧ t.id < u.id)

/-- A claim of these types may take the task. -/
def Eligible (taskTypes : Option (List TaskType)) (t : Task) : Prop :=
  t.status = .pending ∧ t.type ∈ taskTypes.getD [.userRequest, .refresh]

/-- The eligible tasks in the order in which they are claimed. -/
structure ClaimQueue (taskTypes : Option (List TaskType)) (tasks order : List Task) : Prop where
  members : ∀ t, t ∈ order ↔ t ∈ tasks ∧ Eligible taskTypes t
  sorted : order.Pairwise ClaimedBefore

theorem claimedBefore_iff {t u : Task} : ClaimedBefore t u ↔ t.claimKey < u.claimKey := by
  unfold ClaimedBefore Task.claimKey
  rw [Prod.Lex.toLex_lt_toLex, Prod.Lex.toLex_lt_toLex]
  cases t.type <;> cases u.type <;> simp [TaskType.priority]

theorem claimable_eq {taskTypes : Option (List TaskType)} {t : Task} :
    claimable (taskTypes.getD [.userRequest, .refresh]) t = true ↔ Eligible taskTypes t := by
  simp only [claimable, Eligible, Bool.and_eq_true, beq_iff_eq, List.contains_iff_mem]

theorem claimRow_not_eligible {taskTypes : Option (List TaskType)} {leaseExpiresAt now : Instant} {t : Task} :
    ¬Eligible taskTypes (claimRow leaseExpiresAt now t) := by
  rintro ⟨pending, _⟩
  cases pending

section Queue

variable {taskTypes : Option (List TaskType)} {tasks : TaskTable} {order : List Task}

theorem ClaimQueue.nodup (queue : ClaimQueue taskTypes tasks.rows order) : order.Nodup :=
  queue.sorted.imp fun {t u} before same => by
    rw [same, claimedBefore_iff] at before
    exact lt_irrefl _ before

theorem ClaimQueue.perm (queue : ClaimQueue taskTypes tasks.rows order) :
    order.Perm (tasks.rows.filter (claimable (taskTypes.getD [.userRequest, .refresh]))) := by
  have distinct : tasks.rows.Nodup := List.Nodup.of_map _ tasks.nodup
  rw [List.perm_ext_iff_of_nodup queue.nodup (distinct.filter _)]
  intro t
  rw [queue.members, List.mem_filter, claimable_eq]

theorem exists_claimQueue (taskTypes : Option (List TaskType)) (tasks : TaskTable) :
    ∃ order, ClaimQueue taskTypes tasks.rows order := by
  refine ⟨(tasks.rows.filter (claimable (taskTypes.getD [.userRequest, .refresh]))).insertionSort
    fun a b => a.claimKey ≤ b.claimKey, ?_, ?_⟩
  · intro t
    rw [(List.perm_insertionSort _ _).mem_iff, List.mem_filter, claimable_eq]
  · exact (sorted_strict (claimKey_nodup tasks)).imp fun before => claimedBefore_iff.mpr before

theorem ClaimQueue.keys (queue : ClaimQueue taskTypes tasks.rows order) :
    order.Pairwise fun t u => t.claimKey < u.claimKey :=
  queue.sorted.imp fun before => claimedBefore_iff.mp before

theorem ClaimQueue.selection (queue : ClaimQueue taskTypes tasks.rows order) (limit : Nat) :
    claimSelection limit taskTypes tasks.rows = order.take limit := by
  unfold claimSelection
  split
  next none =>
    have zero : limit = 0 := by omega
    rw [zero, List.take_zero]
  next => exact select_eq_take queue.perm queue.keys limit

theorem claimTasks_rows (limit : Int) (leaseExpiresAt now : Instant) :
    (claimTasks limit leaseExpiresAt taskTypes now tasks).1.rows = tasks.rows.map fun t =>
      if t ∈ claimSelection limit taskTypes tasks.rows then claimRow leaseExpiresAt now t else t := rfl

theorem claimTasks_claimed (limit : Int) (leaseExpiresAt now : Instant) :
    (claimTasks limit leaseExpiresAt taskTypes now tasks).2 =
      (claimSelection limit taskTypes tasks.rows).map (claimRow leaseExpiresAt now) := rfl

theorem ClaimQueue.next_selection (queue : ClaimQueue taskTypes tasks.rows order) (limit next : Nat)
    (leaseExpiresAt now : Instant) :
    claimSelection next taskTypes (claimTasks limit leaseExpiresAt taskTypes now tasks).1.rows =
      (order.drop limit).take next := by
  have left : ∀ t ∈ order.take limit,
      claimable (taskTypes.getD [.userRequest, .refresh]) (claimRow leaseExpiresAt now t) = false := by
    intro t _
    rw [Bool.eq_false_iff, Ne, claimable_eq]
    exact claimRow_not_eligible
  rw [claimTasks_rows, queue.selection]
  unfold claimSelection
  split
  next none =>
    have zero : next = 0 := by omega
    rw [zero, List.take_zero]
  next => exact select_after queue.perm queue.keys left next

/-- Claiming twice at one moment is claiming once. -/
theorem ClaimQueue.claim_twice (queue : ClaimQueue taskTypes tasks.rows order) (j k : Nat)
    (leaseExpiresAt now : Instant) :
    (claimTasks k leaseExpiresAt taskTypes now
        (claimTasks j leaseExpiresAt taskTypes now tasks).1).1 =
      (claimTasks (j + k : Nat) leaseExpiresAt taskTypes now tasks).1 := by
  apply Table.ext
  rw [claimTasks_rows, queue.next_selection, claimTasks_rows, claimTasks_rows, queue.selection,
    queue.selection, List.map_map]
  refine List.map_congr_left fun t _ => ?_
  rw [List.take_add, Function.comp_apply]
  by_cases taken : t ∈ order.take j
  · have gone : claimRow leaseExpiresAt now t ∉ (order.drop j).take k := by
      intro listed
      have member := List.mem_of_mem_drop (List.mem_of_mem_take listed)
      exact claimRow_not_eligible ((queue.members _).mp member).2
    rw [if_pos taken, if_neg gone, if_pos (List.mem_append_left _ taken)]
  · rw [if_neg taken]
    refine if_congr ?_ rfl rfl
    rw [List.mem_append]
    exact (or_iff_right taken).symm

/-- What comes before a claimed task is claimed as well. -/
theorem ClaimQueue.claimed_before (queue : ClaimQueue taskTypes tasks.rows order) {limit : Nat} {t u : Task}
    (claimed : t ∈ order.take limit) (listed : u ∈ order) (before : ClaimedBefore u t) :
    u ∈ order.take limit := by
  rw [← List.take_append_drop limit order, List.mem_append] at listed
  refine listed.resolve_right fun later => ?_
  have sorted := queue.sorted
  rw [← List.take_append_drop limit order] at sorted
  have after := (List.pairwise_append.mp sorted).2.2 t claimed u later
  rw [claimedBefore_iff] at before after
  exact lt_asymm before after

end Queue

/-- A claim takes the first eligible tasks, and two claims take what one of both
sizes would. -/
theorem claim_order (tasks : TaskTable) (taskTypes : Option (List TaskType)) (j k : Nat) :
    ∃ order, ClaimQueue taskTypes tasks.rows order ∧
      (∀ leaseExpiresAt now,
        (claimTasks j leaseExpiresAt taskTypes now tasks).2 =
            (order.take j).map (claimRow leaseExpiresAt now) ∧
          (claimTasks j leaseExpiresAt taskTypes now tasks).2.length = min j order.length ∧
          (claimTasks j leaseExpiresAt taskTypes now tasks).1.rows = tasks.rows.map fun t =>
            if t ∈ order.take j then claimRow leaseExpiresAt now t else t) ∧
      (∀ leaseExpiresAt now,
        (claimTasks j leaseExpiresAt taskTypes now tasks).2 ++
            (claimTasks k leaseExpiresAt taskTypes now
              (claimTasks j leaseExpiresAt taskTypes now tasks).1).2 =
            (claimTasks (j + k : Nat) leaseExpiresAt taskTypes now tasks).2 ∧
          (claimTasks k leaseExpiresAt taskTypes now
              (claimTasks j leaseExpiresAt taskTypes now tasks).1).1 =
            (claimTasks (j + k : Nat) leaseExpiresAt taskTypes now tasks).1) ∧
      (∀ lease now lease' now' leaseExpiresAt claimedAt,
        ((claimTasks j lease taskTypes now tasks).2 ++
            (claimTasks k lease' taskTypes now' (claimTasks j lease taskTypes now tasks).1).2).map Task.id =
          (claimTasks (j + k : Nat) leaseExpiresAt taskTypes claimedAt tasks).2.map Task.id) ∧
      ∀ t ∈ order.take j, ∀ u ∈ tasks.rows, t.type = .refresh → u.type = .userRequest →
        Eligible taskTypes u → u ∈ order.take j := by
  obtain ⟨order, queue⟩ := exists_claimQueue taskTypes tasks
  refine ⟨order, queue, ?_, ?_, ?_, ?_⟩
  · intro leaseExpiresAt now
    refine ⟨?_, ?_, ?_⟩
    · rw [claimTasks_claimed, queue.selection]
    · rw [claimTasks_claimed, queue.selection, List.length_map, List.length_take]
    · rw [claimTasks_rows, queue.selection]
  · intro leaseExpiresAt now
    refine ⟨?_, queue.claim_twice j k leaseExpiresAt now⟩
    rw [claimTasks_claimed, claimTasks_claimed, claimTasks_claimed, queue.selection, queue.next_selection,
      queue.selection, List.take_add, List.map_append]
  · intro lease now lease' now' leaseExpiresAt claimedAt
    rw [claimTasks_claimed, claimTasks_claimed, claimTasks_claimed, queue.selection, queue.next_selection,
      queue.selection, List.map_append, map_id_claimRow, map_id_claimRow, map_id_claimRow, List.take_add,
      List.map_append]
  · intro t taken u stored refresh request eligible
    exact queue.claimed_before taken ((queue.members u).mpr ⟨stored, eligible⟩) (Or.inl ⟨request, refresh⟩)

end DomainProcessing
