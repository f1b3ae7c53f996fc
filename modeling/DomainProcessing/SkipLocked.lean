import DomainProcessing.QueueInvariant

namespace DomainProcessing

open Tables OrderedSelection RowLocks Runs

variable {s : QueueState}

/-- Concurrent claims and recoveries: a task is claimed twice only after a
recovery put it back, no increment of `attempts` is lost, a rollback leaves the
rows as they were, and a recovery changes expired `PROCESSING` rows only. -/
theorem exclusive_claims {rows : TaskTable} {trace : List (QueueState × QueueStep)}
    (run : Run queueNext (queueInit rows) trace s) :
    ExclusiveClaims s.history ∧
    (∀ k, (s.tasks.committed k).map Task.attempts =
      (rows.get k).map (fun t => t.attempts + s.history.countP (QueueEvent.claims k))) ∧
    (∀ tx s', queueNext s (.rollback tx) = some s' → s'.tasks.committed = s.tasks.committed ∧
      ∀ k row, s'.tasks.locks k ≠ some (tx, row)) ∧
    (∀ tx maxAttempts limit now updatedAt draws recovered s' k,
      s.phase tx = .running (.recoverExpiredTasks maxAttempts limit now updatedAt draws) recovered
        true → queueNext s (.commit tx) = some s' →
      s'.tasks.committed k ≠ s.tasks.committed k →
      ∃ t, s.tasks.committed k = some t ∧ leaseExpired now t = true) := by
  have inv := queueInv_run run
  refine ⟨inv.exclusive, inv.counted, ?_, ?_⟩
  · intro tx s' h
    cases queueNext_cases h with
    | rollback =>
      refine ⟨rfl, ?_⟩
      intro k row hl
      exact (Store.release_eq_some_iff.mp hl).2 rfl
  · intro tx maxAttempts limit now updatedAt draws recovered s' k hp h hk
    obtain ⟨tx', op, rows', t, hstep, hp', _, ht, hw⟩ := committed_change inv h hk
    cases hstep
    rw [hp] at hp'
    cases hp'
    exact ⟨t, ht, hw⟩

/-- One claim rolled back, one committed, its recovery and a second claim. -/
def overlappingSteps : List QueueStep :=
  [.select 1 (.claimTasks 5 120 none 0) [1], .select 2 (.claimTasks 5 120 none 0) [], .update 1,
    .update 2, .commit 2, .rollback 1, .select 3 (.claimTasks 5 120 none 1) [1], .update 3, .commit 3,
    .select 4 (.recoverExpiredTasks 3 5 121 121 (fun _ => .unjittered 121)) [1], .update 4, .commit 4,
    .select 5 (.claimTasks 5 300 none 180) [1], .update 5, .commit 5]

theorem exclusive_claims_overlapping :
    ∃ s, exec queueNext (queueInit (createJob oneTaskSubmission .empty).1.tasks) overlappingSteps =
        some s ∧ s.history.countP (QueueEvent.claims 1) = 2 ∧
      (s.tasks.committed 1).map Task.attempts = some 2 := by
  have enabled : (exec queueNext (queueInit (createJob oneTaskSubmission .empty).1.tasks)
      overlappingSteps).map (fun s => s.history.countP (QueueEvent.claims 1)) = some 2 := by decide
  obtain ⟨s, hs, hc⟩ := Option.map_eq_some_iff.mp enabled
  have initially : ((createJob oneTaskSubmission .empty).1.tasks.get 1).map Task.attempts = some 0 := by
    decide
  obtain ⟨t, ht, ha⟩ := Option.map_eq_some_iff.mp initially
  refine ⟨s, hs, hc, ?_⟩
  rw [(exclusive_claims (exec_run hs)).2.1, ht, Option.map_some, hc, ha]

theorem QueueOp.selection_eq (op : QueueOp) (rows : List Task) :
    op.selection rows =
      if op.limit ≤ 0 then [] else select Task.claimKey op.wants op.limit.toNat rows := by
  cases op <;> rfl

theorem QueueOp.atomic_eq (op : QueueOp) (rows : TaskTable) (keep : ∀ t,
    (if t ∈ op.selection rows.rows then op.row t else t).id = t.id) :
    op.atomic rows =
      rows.update (fun t => if t ∈ op.selection rows.rows then op.row t else t) keep := by
  cases op <;> rfl

theorem QueueOp.row_id (op : QueueOp) (t : Task) : (op.row t).id = t.id := by
  cases op with
  | claimTasks => rfl
  | recoverExpiredTasks => exact recoverRow_id _ _ _ _

/-- What the code's own query selects may be returned. -/
theorem selection_returnable (op : QueueOp) (rows : TaskTable) :
    Returnable (Store.idle rows.get) op ((op.selection rows.rows).map Task.id) := by
  rw [QueueOp.selection_eq]
  by_cases hl : op.limit ≤ 0
  · rw [if_pos hl]
    exact ⟨List.nodup_nil, le_max_right _ _, by simp⟩
  · rw [if_neg hl]
    refine ⟨select_sublist_nodup rows.nodup, ?_, ?_⟩
    · have bound := select_length_le Task.claimKey op.wants op.limit.toNat rows.rows
      rw [List.length_map]
      omega
    · intro k hk
      obtain ⟨t, ht, rfl⟩ := List.mem_map.mp hk
      obtain ⟨hm, hw⟩ := mem_select ht
      exact ⟨rfl, t, Table.get_eq_some_iff.mpr ⟨hm, rfl⟩, hw⟩

theorem mem_selection {op : QueueOp} {rows : List Task} {t : Task} (h : t ∈ op.selection rows) :
    t ∈ rows := by
  rw [QueueOp.selection_eq] at h
  split at h
  next => simp at h
  next => exact (mem_select h).1

/-- Run without interruption, a transaction is the atomic operation. -/
theorem serial_eq_atomic (op : QueueOp) (rows : TaskTable) (tx : TxId) :
    ∃ s, exec queueNext (queueInit rows)
        [.select tx op ((op.selection rows.rows).map Task.id), .update tx, .commit tx] = some s ∧
      s.tasks.committed = (op.atomic rows).get := by
  let ids := (op.selection rows.rows).map Task.id
  let locked := (queueInit rows).tasks.lockAll tx ids
  let written := locked.writeAll tx ids op.row
  let p₁ := Function.update (queueInit rows).phase tx (.running op ids false)
  let p₂ := Function.update p₁ tx (.running op ids true)
  have returnable : Returnable (queueInit rows).tasks op ids := selection_returnable op rows
  have idle : (queueInit rows).phase tx = .idle := rfl
  have hp₁ : p₁ tx = .running op ids false := Function.update_self ..
  have hp₂ : p₂ tx = .running op ids true := Function.update_self ..
  have hselect : queueNext (queueInit rows) (.select tx op ids) =
      some ⟨locked, p₁, .selected tx :: (queueInit rows).history⟩ := by
    simp only [queueNext, idle, if_pos returnable, locked, p₁]
  have hupdate : queueNext ⟨locked, p₁, .selected tx :: (queueInit rows).history⟩ (.update tx) =
      some ⟨written, p₂, .selected tx :: (queueInit rows).history⟩ := by
    simp only [queueNext, hp₁, written, p₂]
  have hcommit : queueNext ⟨written, p₂, .selected tx :: (queueInit rows).history⟩ (.commit tx) =
      some ⟨written.commit tx, Function.update p₂ tx .finished,
        commitEvent written tx op ids :: .selected tx :: (queueInit rows).history⟩ := by
    simp only [queueNext, hp₂]
  refine ⟨_, (exec_cons hselect).trans ((exec_cons hupdate).trans (exec_cons hcommit)), ?_⟩
  have inv := queueInv_step (queueInv_step (QueueInv.init rows) hselect) hupdate
  funext k
  have after : written.view tx k = if k ∈ ids then (rows.get k).map op.row else rows.get k :=
    inv.committed_of_commit hp₂ k
  have keep : ∀ t, (if t ∈ op.selection rows.rows then op.row t else t).id = t.id := by
    intro t
    split
    · exact op.row_id t
    · rfl
  rw [QueueOp.atomic_eq op rows keep, Table.get_update]
  refine after.trans ?_
  cases hg : rows.get k with
  | none => simp
  | some t =>
    obtain ⟨ht, hid⟩ := Table.get_eq_some_iff.mp hg
    have same : k ∈ ids ↔ t ∈ op.selection rows.rows := by
      constructor
      · intro hk
        obtain ⟨r, hr, hrid⟩ := List.mem_map.mp hk
        have hrt : r = t := Table.eq_of_key (mem_selection hr) ht (hrid.trans hid.symm)
        rwa [← hrt]
      · intro hm
        exact hid ▸ List.mem_map_of_mem hm
    by_cases hm : t ∈ op.selection rows.rows
    · simp [same.mpr hm, hm]
    · simp [mt same.mp hm, hm]

end DomainProcessing
