import DomainProcessing.Dispatch

namespace DomainProcessing

open Tables OrderedSelection Runs

def DispatchState.copies (s : DispatchState) : List Task := s.claimCycle ++ s.queue ++ s.hands

structure DispatchInv (s : DispatchState) : Prop where
  distinct : (s.copies.map Task.id).Nodup
  taken : ∀ t ∈ s.copies, ∀ row ∈ s.db.tasks.rows, row.id = t.id → row.status ≠ .pending
  recovered : ∀ t ∈ s.recoveryCycle, t.status ≠ .pending
  log : s.claimed.map Prod.snd = s.dispatched ++ s.claimCycle
  lease : ∀ p ∈ s.claimed, p.2.status = .processing ∧
    ∃ lease, p.2.leaseExpiresAt = some lease ∧ p.1 < lease
  counted : ∀ p ∈ s.claimed, ∀ row ∈ s.db.tasks.rows, row.id = p.2.id →
    p.2.attempts ≤ row.attempts
  ownClaim : ((s.dispatched ++ s.claimCycle).map fun t => (t.id, t.attempts)).Nodup

variable {settings : ManagerSettings} {s s' : DispatchState} {t : Task}

theorem dispatched_logged (inv : DispatchInv s) (ht : t ∈ s.dispatched) :
    ∃ p ∈ s.claimed, p.2 = t := by
  have logged : t ∈ s.claimed.map Prod.snd := by
    rw [inv.log]
    exact List.mem_append_left _ ht
  exact List.mem_map.mp logged

theorem singleDispatch_of_inv (inv : DispatchInv s) : SingleDispatch s := by
  refine ⟨?_, ?_, ?_⟩
  · have sub : (s.queue ++ s.hands).Sublist s.copies := by
      rw [DispatchState.copies, List.append_assoc]
      exact List.sublist_append_right _ _
    exact inv.distinct.sublist (sub.map Task.id)
  · exact inv.ownClaim.sublist ((List.sublist_append_left _ _).map _)
  · intro t ht
    obtain ⟨p, hp, rfl⟩ := dispatched_logged inv ht
    obtain ⟨hs, lease, hl, hlt⟩ := inv.lease p hp
    exact ⟨p.1, lease, hp, hs, hl, hlt⟩

theorem dispatchInv_init (db : Db) : DispatchInv (dispatchInit db) := by
  refine ⟨?_, ?_, ?_, rfl, ?_, ?_, ?_⟩ <;> simp [dispatchInit, DispatchState.copies]

/-- A claim takes rows that nobody has a copy of. -/
theorem selected_unheld (inv : DispatchInv s) {limit : Int} {r : Task}
    (hr : r ∈ claimSelection limit none s.db.tasks.rows) : ∀ t ∈ s.copies, r.id ≠ t.id := by
  intro t ht he
  obtain ⟨hm, hp⟩ := mem_claimSelection hr
  exact inv.taken t ht r hm he hp

/-- The attempts of the claimed copies are not those of a copy dispatched before. -/
theorem claimed_ownClaim (inv : DispatchInv s) (idle : s.claimCycle = []) (limit : Int)
    (leaseExpiresAt now : Instant) :
    ((s.dispatched ++ (claimSelection limit none s.db.tasks.rows).map
      (claimRow leaseExpiresAt now)).map fun t => (t.id, t.attempts)).Nodup := by
  have before : (s.dispatched.map fun t => (t.id, t.attempts)).Nodup := by
    have own := inv.ownClaim
    rwa [idle, List.append_nil] at own
  have fresh : (((claimSelection limit none s.db.tasks.rows).map (claimRow leaseExpiresAt now)).map
      fun t => (t.id, t.attempts)).Nodup := by
    apply List.Nodup.of_map Prod.fst
    rw [List.map_map]
    show (((claimSelection limit none s.db.tasks.rows).map (claimRow leaseExpiresAt now)).map
      Task.id).Nodup
    rw [map_id_claimRow]
    exact claimSelection_nodup limit none s.db.tasks.nodup
  rw [List.map_append]
  refine before.append fresh ?_
  intro pair hpair hpair'
  obtain ⟨t, ht, rfl⟩ := List.mem_map.mp hpair
  obtain ⟨u, hu, he⟩ := List.mem_map.mp hpair'
  obtain ⟨r, hr, rfl⟩ := List.mem_map.mp hu
  obtain ⟨hid, hattempts⟩ := Prod.mk.inj he
  obtain ⟨p, hp, rfl⟩ := dispatched_logged inv ht
  have bound := inv.counted p hp r (mem_claimSelection hr).1 hid
  have counted : r.attempts + 1 = p.2.attempts := hattempts
  omega

theorem dispatchInv_claim (hlease : 1 ≤ settings.taskLeaseSeconds) (inv : DispatchInv s)
    (idle : s.claimCycle = []) (limit : Int) (now : Instant) :
    DispatchInv { s with
      db := { s.db with tasks :=
        (claimTasks limit (now + seconds settings.taskLeaseSeconds) none now s.db.tasks).1 }
      claimed := s.claimed ++
        (claimTasks limit (now + seconds settings.taskLeaseSeconds) none now s.db.tasks).2.map
          (fun t => (now, t))
      claimCycle :=
        (claimTasks limit (now + seconds settings.taskLeaseSeconds) none now s.db.tasks).2 } := by
  let selected := claimSelection limit none s.db.tasks.rows
  let claim := claimRow (now + seconds settings.taskLeaseSeconds) now
  have copiesBefore : s.copies = s.queue ++ s.hands := by
    simp [DispatchState.copies, idle]
  refine ⟨?_, ?_, inv.recovered, ?_, ?_, ?_, claimed_ownClaim inv idle limit _ now⟩
  · show ((selected.map claim ++ s.queue ++ s.hands).map Task.id).Nodup
    rw [List.append_assoc, ← copiesBefore, List.map_append, map_id_claimRow]
    refine (claimSelection_nodup limit none s.db.tasks.nodup).append inv.distinct ?_
    intro k hk hk'
    obtain ⟨r, hr, rfl⟩ := List.mem_map.mp hk
    obtain ⟨t, ht, he⟩ := List.mem_map.mp hk'
    exact selected_unheld inv hr t ht he.symm
  · intro t (ht : t ∈ selected.map claim ++ s.queue ++ s.hands) row' hrow he
    obtain ⟨row, hm, hid, _, hclaimed, hkept⟩ := mem_claimTasks hrow
    rw [List.append_assoc, ← copiesBefore] at ht
    rcases List.mem_append.mp ht with hnew | hold
    · obtain ⟨r, hr, rfl⟩ := List.mem_map.mp hnew
      have same : row = r := Table.eq_of_key hm (mem_claimSelection hr).1 (hid.symm.trans he)
      rw [hclaimed (same ▸ hr)]
      simp [claimRow]
    · have unselected : row ∉ selected :=
        fun hr => selected_unheld inv hr t hold (hid.symm.trans he)
      rw [hkept unselected]
      exact inv.taken t hold row hm (hid.symm.trans he)
  · show (s.claimed ++ (selected.map claim).map (fun t => (now, t))).map Prod.snd = _
    rw [List.map_append, inv.log, idle, List.append_nil, List.map_map]
    simp [Function.comp_def, claimTasks, selected, claim]
  · intro p hp
    rcases List.mem_append.mp hp with hold | hnew
    · exact inv.lease p hold
    · obtain ⟨t, ht, rfl⟩ := List.mem_map.mp hnew
      obtain ⟨r, _, rfl⟩ := List.mem_map.mp ht
      refine ⟨rfl, _, rfl, ?_⟩
      have positive : 0 < seconds settings.taskLeaseSeconds := by
        unfold seconds
        omega
      exact Int.lt_add_of_pos_right now positive
  · intro p hp row' hrow he
    obtain ⟨row, hm, hid, hle, hclaimed, _⟩ := mem_claimTasks hrow
    rcases List.mem_append.mp hp with hold | hnew
    · exact (inv.counted p hold row hm (hid.symm.trans he)).trans hle
    · obtain ⟨t, ht, rfl⟩ := List.mem_map.mp hnew
      obtain ⟨r, hr, rfl⟩ := List.mem_map.mp ht
      have same : row = r := Table.eq_of_key hm (mem_claimSelection hr).1 (hid.symm.trans he)
      rw [hclaimed (same ▸ hr), same]

theorem dispatchInv_putClaimed (inv : DispatchInv s) {task : Task} {rest : List Task}
    (h : s.claimCycle = task :: rest) (hput : { s with claimCycle := rest }.put settings task = some s') :
    DispatchInv s' := by
  obtain ⟨_, hput⟩ := Option.ite_none_right_eq_some.mp hput
  cases Option.some.inj hput
  have perm : (rest ++ (s.queue ++ [task]) ++ s.hands).Perm s.copies := by
    simp only [DispatchState.copies, h, List.append_assoc, List.cons_append]
    exact (List.perm_middle.append_left rest).trans List.perm_middle
  refine ⟨?_, ?_, inv.recovered, ?_, inv.lease, inv.counted, ?_⟩
  · exact (perm.map Task.id).nodup_iff.mpr inv.distinct
  · exact fun t ht => inv.taken t (perm.mem_iff.mp ht)
  · show s.claimed.map Prod.snd = s.dispatched ++ [task] ++ rest
    rw [inv.log, h, List.append_assoc, List.singleton_append]
  · show ((s.dispatched ++ [task] ++ rest).map fun t => (t.id, t.attempts)).Nodup
    have own := inv.ownClaim
    rwa [h, ← List.singleton_append, ← List.append_assoc] at own

/-- A recovery that finds exhausted tasks only leaves nothing `PENDING` behind. -/
theorem dispatchInv_recover (inv : DispatchInv s) (limit : Int) (now updatedAt : Instant)
    (draws : TaskId → RetryDraw)
    (exhausted : ∀ t ∈ recoverySelection limit now s.db.tasks.rows, settings.maxAttempts ≤ t.attempts) :
    DispatchInv { s with
      db := { s.db with tasks :=
        (recoverExpiredTasks settings.maxAttempts limit now updatedAt draws s.db.tasks).1 }
      recoveryCycle :=
        (recoverExpiredTasks settings.maxAttempts limit now updatedAt draws s.db.tasks).2 } := by
  have failed : ∀ t ∈ recoverySelection limit now s.db.tasks.rows,
      (recoverRow settings.maxAttempts updatedAt (draws t.id) t).status = .failed ∧
        (recoverRow settings.maxAttempts updatedAt (draws t.id) t).attempts = t.attempts := by
    intro t ht
    simp only [recoverRow, if_pos (exhausted t ht)]
    exact ⟨trivial, trivial⟩
  have rowsAfter : ∀ row' ∈
      (recoverExpiredTasks settings.maxAttempts limit now updatedAt draws s.db.tasks).1.rows,
      ∃ row ∈ s.db.tasks.rows, row'.id = row.id ∧ row'.attempts = row.attempts ∧
        (row.status ≠ .pending → row'.status ≠ .pending) := by
    intro row' hrow
    obtain ⟨row, hm, rfl⟩ := List.mem_map.mp hrow
    refine ⟨row, hm, ?_⟩
    by_cases hs : row ∈ recoverySelection limit now s.db.tasks.rows
    · rw [if_pos hs]
      obtain ⟨hf, ha⟩ := failed row hs
      exact ⟨recoverRow_id _ _ _ _, ha, fun _ => by rw [hf]; simp⟩
    · rw [if_neg hs]
      exact ⟨rfl, rfl, id⟩
  refine ⟨inv.distinct, ?_, ?_, inv.log, inv.lease, ?_, inv.ownClaim⟩
  · intro t ht row' hrow he
    obtain ⟨row, hm, hid, _, hkept⟩ := rowsAfter row' hrow
    exact hkept (inv.taken t ht row hm (hid.symm.trans he))
  · intro t ht
    obtain ⟨r, hr, rfl⟩ := List.mem_map.mp ht
    rw [(failed r hr).1]
    simp
  · intro p hp row' hrow he
    obtain ⟨row, hm, hid, ha, _⟩ := rowsAfter row' hrow
    rw [ha]
    exact inv.counted p hp row hm (hid.symm.trans he)

/-- A worker's last write touches the row of its own copy only. -/
theorem dispatchInv_finish (inv : DispatchInv s) {task : Task} (h : task ∈ s.hands)
    (write : WorkerWrite) :
    DispatchInv { s with
      db := write.apply settings.maxAttempts s.db task
      hands := s.hands.erase task } := by
  have perm : s.copies.Perm (task :: (s.claimCycle ++ s.queue ++ s.hands.erase task)) :=
    ((List.perm_cons_erase h).append_left _).trans List.perm_middle
  have distinct := (perm.map Task.id).nodup_iff.mp inv.distinct
  rw [List.map_cons, List.nodup_cons] at distinct
  have rowsAfter : ∀ row' ∈ (write.apply settings.maxAttempts s.db task).tasks.rows,
      ∃ row ∈ s.db.tasks.rows, row'.id = row.id ∧ row'.attempts = row.attempts ∧
        (row.id ≠ task.id → row' = row) := by
    intro row' hrow
    rw [WorkerWrite.apply_tasks] at hrow
    obtain ⟨row, hm, rfl⟩ := Table.mem_set.mp hrow
    refine ⟨row, hm, ?_⟩
    by_cases hk : row.id = task.id
    · rw [if_pos hk]
      exact ⟨write.row_id _ _, (write.row_subject _ _).2.2, fun hne => absurd hk hne⟩
    · rw [if_neg hk]
      exact ⟨rfl, rfl, fun _ => rfl⟩
  refine ⟨distinct.2, ?_, inv.recovered, inv.log, inv.lease, ?_, inv.ownClaim⟩
  · intro t ht row' hrow he
    obtain ⟨row, hm, hid, _, hkept⟩ := rowsAfter row' hrow
    have other : row.id ≠ task.id := by
      intro hk
      apply distinct.1
      rw [← hk, ← hid, he]
      exact List.mem_map_of_mem ht
    rw [hkept other]
    exact inv.taken t (perm.mem_iff.mpr (List.mem_cons_of_mem _ ht)) row hm (hid.symm.trans he)
  · intro p hp row' hrow he
    obtain ⟨row, hm, hid, ha, _⟩ := rowsAfter row' hrow
    rw [ha]
    exact inv.counted p hp row hm (hid.symm.trans he)

theorem dispatchInv_step (hlease : 1 ≤ settings.taskLeaseSeconds) {step : DispatchStep}
    (inv : DispatchInv s) (guard : RecoversExhausted settings s step)
    (h : dispatchNext settings s step = some s') : DispatchInv s' := by
  cases step with
  | claimCycle limit now =>
    simp only [dispatchNext] at h
    split at h
    next idle =>
      cases Option.some.inj h
      exact dispatchInv_claim hlease inv idle limit now
    next => simp at h
  | putClaimed =>
    simp only [dispatchNext] at h
    split at h
    next => simp at h
    next task rest hc => exact dispatchInv_putClaimed inv hc h
  | recoveryCycle limit now updatedAt draws =>
    simp only [dispatchNext] at h
    split at h
    next =>
      cases Option.some.inj h
      exact dispatchInv_recover inv limit now updatedAt draws guard
    next => simp at h
  | putRecovered =>
    simp only [dispatchNext] at h
    split at h
    next => simp at h
    next task rest hr =>
      have notPending : task.status ≠ .pending :=
        inv.recovered task (by rw [hr]; exact List.mem_cons_self)
      rw [if_neg notPending] at h
      cases Option.some.inj h
      refine ⟨inv.distinct, inv.taken, ?_, inv.log, inv.lease, inv.counted, inv.ownClaim⟩
      intro t ht
      exact inv.recovered t (by rw [hr]; exact List.mem_cons_of_mem _ ht)
  | get =>
    simp only [dispatchNext] at h
    split at h
    next => simp at h
    next task rest hq =>
      cases Option.some.inj h
      have perm : (s.claimCycle ++ rest ++ task :: s.hands).Perm s.copies := by
        rw [DispatchState.copies, hq, List.append_assoc, List.append_assoc]
        exact List.perm_middle.append_left _
      refine ⟨(perm.map Task.id).nodup_iff.mpr inv.distinct, ?_, inv.recovered, inv.log, inv.lease,
        inv.counted, inv.ownClaim⟩
      exact fun t ht => inv.taken t (perm.mem_iff.mp ht)
  | finish task write =>
    obtain ⟨hm, h⟩ := Option.ite_none_right_eq_some.mp h
    cases Option.some.inj h
    exact dispatchInv_finish inv hm write

/-- While every recovery finds exhausted tasks only, each dispatched copy is the
only one of its task and has a claim of its own. -/
theorem single_dispatch (hlease : 1 ≤ settings.taskLeaseSeconds) {db : Db}
    {trace : List (DispatchState × DispatchStep)}
    (run : Run (dispatchNext settings) (dispatchInit db) trace s)
    (guard : ∀ p ∈ trace, RecoversExhausted settings p.1 p.2) : SingleDispatch s :=
  singleDispatch_of_inv (run.guarded (RecoversExhausted settings) (dispatchInv_init db)
    (dispatchInv_step hlease) guard)

def oneSlot : ManagerSettings := ⟨100, 120, 3⟩

/-- A task is dispatched, rescheduled by its worker and dispatched again. -/
def redispatchSteps : List DispatchStep :=
  [.claimCycle 1 0, .putClaimed, .get, .finish
    { (oneTaskSubmission.pendingTask 1 11) with
      status := .processing
      attempts := 1
      leaseExpiresAt := some 120000000
      updatedAt := 0 } (.reschedule "timeout" 5 (.unjittered 5)), .claimCycle 1 70000000, .putClaimed]

theorem single_dispatch_again :
    ∃ s, exec (dispatchNext oneSlot) (dispatchInit (createJob oneTaskSubmission .empty).1)
        redispatchSteps = some s ∧ s.dispatched.map Task.attempts = [1, 2] ∧ SingleDispatch s := by
  have enabled : (exec (dispatchNext oneSlot) (dispatchInit (createJob oneTaskSubmission .empty).1)
      redispatchSteps).map (fun s => s.dispatched.map Task.attempts) = some [1, 2] := by decide
  obtain ⟨s, hs, hd⟩ := Option.map_eq_some_iff.mp enabled
  refine ⟨s, hs, hd, single_dispatch (by decide : 1 ≤ oneSlot.taskLeaseSeconds) (exec_run hs) ?_⟩
  apply steps_all (RecoversExhausted oneSlot)
  simp [redispatchSteps, RecoversExhausted]

/-- The table after a crash: one task `PROCESSING` whose lease runs out at 100. -/
def crashedDb : Db :=
  { (createJob oneTaskSubmission .empty).1 with
    tasks := (claimTasks 1 100 none 0 (createJob oneTaskSubmission .empty).1.tasks).1 }

/-- The recovered task is put on the queue while its row is `PENDING`, and the
claim loop then claims and queues it once more. -/
theorem single_dispatch_fails :
    ∃ s, exec (dispatchNext oneSlot) (dispatchInit crashedDb)
        [.recoveryCycle 1 101 101 (fun _ => .unjittered 101), .putRecovered, .claimCycle 1 102,
          .putClaimed] = some s ∧
      s.queue.map Task.id = [1, 1] ∧ s.hands = [] ∧ ¬SingleDispatch s := by
  have reached : (exec (dispatchNext oneSlot) (dispatchInit crashedDb)
      [.recoveryCycle 1 101 101 (fun _ => .unjittered 101), .putRecovered, .claimCycle 1 102,
        .putClaimed]).map (fun s => (s.queue.map Task.id, s.hands)) = some ([1, 1], []) := by decide
  obtain ⟨s, hs, he⟩ := Option.map_eq_some_iff.mp reached
  obtain ⟨hq, hh⟩ := Prod.mk.inj he
  refine ⟨s, hs, hq, hh, ?_⟩
  intro h
  have single := h.single
  simp [hh, hq] at single

end DomainProcessing
