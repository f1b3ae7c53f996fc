import DomainProcessing.QueueTransactions
import DomainProcessing.ServiceRuns

namespace DomainProcessing

open Tables OrderedSelection RowLocks Runs

/-- Since its last committed claim, if any, the task was put back to `PENDING`. -/
def Requeued (k : TaskId) (history : List QueueEvent) : Prop :=
  ∀ later e earlier, history = later ++ e :: earlier → e.claims k = true →
    ∃ r ∈ later, r.requeues k = true

/-- Between two committed claims of a task lies the commit of a recovery that
put it back, before the second claim's select. -/
def ExclusiveClaims (history : List QueueEvent) : Prop :=
  ∀ later tx rows mid e earlier k,
    history = later ++ .claimed tx rows :: (mid ++ e :: earlier) → k ∈ rows →
    e.claims k = true →
    ∃ after before, mid = after ++ .selected tx :: before ∧ ∃ r ∈ before, r.requeues k = true

abbrev QueuePhases := TxId → QueuePhase

variable {initial : TaskId → Option Task} {tasks : Store TxId TaskId Task} {phase : QueuePhases}
  {history : List QueueEvent} {tx : TxId} {op : QueueOp} {rows : List TaskId} {updated : Bool}
  {k : TaskId} {e : QueueEvent} {s s' : QueueState}

/-- The version of a row that a running transaction holds. -/
def heldVersion (op : QueueOp) (updated : Bool) (row : Option Task) : Option Task :=
  if updated then row.map op.row else row

structure QueueInv (initial : TaskId → Option Task) (tasks : Store TxId TaskId Task)
    (phase : QueuePhases) (history : List QueueEvent) : Prop where
  locked : ∀ k tx row, tasks.locks k = some (tx, row) →
    ∃ op rows updated, phase tx = .running op rows updated ∧ k ∈ rows
  holds : ∀ tx op rows updated, phase tx = .running op rows updated → ∀ k ∈ rows,
    tasks.locks k = some (tx, heldVersion op updated (tasks.committed k))
  wanted : ∀ tx op rows updated, phase tx = .running op rows updated → ∀ k ∈ rows,
    ∃ t, tasks.committed k = some t ∧ op.wants t = true
  since : ∀ tx op rows updated, phase tx = .running op rows updated →
    ∃ after before, history = after ++ .selected tx :: before ∧
      ∀ k ∈ rows, op.isClaim = true → Requeued k before ∧ ∀ e ∈ after, e.claims k = false
  waiting : ∀ k t, tasks.committed k = some t → t.status = .pending → Requeued k history
  counted : ∀ k, (tasks.committed k).map Task.attempts =
    (initial k).map (fun t => t.attempts + history.countP (QueueEvent.claims k))
  exclusive : ExclusiveClaims history

theorem requeued_cons (he : e.claims k = false) (h : e.requeues k = true ∨ Requeued k history) :
    Requeued k (e :: history) := by
  intro later e' earlier split claimed
  cases later with
  | nil =>
    obtain ⟨rfl, _⟩ := List.cons.inj split
    rw [he] at claimed
    cases claimed
  | cons first later =>
    obtain ⟨rfl, rest⟩ := List.cons.inj split
    rcases h with requeues | before
    · exact ⟨_, List.mem_cons_self, requeues⟩
    · obtain ⟨r, hr, hq⟩ := before later e' earlier rest claimed
      exact ⟨r, List.mem_cons_of_mem _ hr, hq⟩

theorem exclusiveClaims_cons (h : ExclusiveClaims history)
    (claims : ∀ tx rows mid e' earlier k, e = .claimed tx rows → history = mid ++ e' :: earlier →
      k ∈ rows → e'.claims k = true →
      ∃ after before, mid = after ++ .selected tx :: before ∧ ∃ r ∈ before, r.requeues k = true) :
    ExclusiveClaims (e :: history) := by
  intro later tx rows mid e' earlier k split hk claimed
  cases later with
  | nil =>
    obtain ⟨rfl, rest⟩ := List.cons.inj split
    exact claims tx rows mid e' earlier k rfl rest hk claimed
  | cons first later =>
    obtain ⟨_, rest⟩ := List.cons.inj split
    exact h later tx rows mid e' earlier k rest hk claimed

/-- Where a claim of the task lies in a history whose latest part has none. -/
theorem claim_before {after before mid earlier : List QueueEvent}
    (split : after ++ .selected tx :: before = mid ++ e :: earlier)
    (quiet : ∀ e ∈ after, e.claims k = false) (claimed : e.claims k = true) :
    ∃ between, mid = after ++ .selected tx :: between ∧ before = between ++ e :: earlier := by
  induction after generalizing mid with
  | nil =>
    cases mid with
    | nil =>
      obtain ⟨rfl, _⟩ := List.cons.inj split
      simp [QueueEvent.claims] at claimed
    | cons first mid =>
      obtain ⟨rfl, rest⟩ := List.cons.inj split
      exact ⟨mid, rfl, rest⟩
  | cons first after ih =>
    cases mid with
    | nil =>
      obtain ⟨rfl, _⟩ := List.cons.inj split
      rw [quiet first List.mem_cons_self] at claimed
      cases claimed
    | cons other mid =>
      obtain ⟨rfl, rest⟩ := List.cons.inj split
      obtain ⟨between, hmid, hbefore⟩ := ih rest (fun e he => quiet e (List.mem_cons_of_mem _ he))
      exact ⟨between, by rw [hmid]; rfl, hbefore⟩

namespace QueueInv

theorem init (rows : TaskTable) :
    QueueInv rows.get (queueInit rows).tasks (queueInit rows).phase (queueInit rows).history := by
  refine ⟨?_, ?_, ?_, ?_, ?_, ?_, ?_⟩
  · intro k tx row hl
    simp [queueInit, Store.idle] at hl
  · intro tx op rows updated hp
    simp [queueInit] at hp
  · intro tx op rows updated hp
    simp [queueInit] at hp
  · intro tx op rows updated hp
    simp [queueInit] at hp
  · intro k t _ _ later e earlier split
    simp [queueInit] at split
  · intro k
    simp [queueInit, Store.idle]
  · intro later tx rows mid e earlier k split
    simp [queueInit] at split

/-- Whoever runs after `tx` has moved is `tx` itself or ran before. -/
theorem running_of_update {moved : QueuePhase} {other : TxId}
    (h : Function.update phase tx moved other = .running op rows updated) :
    other = tx ∧ moved = .running op rows updated ∨
      other ≠ tx ∧ phase other = .running op rows updated := by
  by_cases same : other = tx
  · rw [same, Function.update_self] at h
    exact Or.inl ⟨same, h⟩
  · rw [Function.update_of_ne same] at h
    exact Or.inr ⟨same, h⟩

/-- Two transactions never hold the same row. -/
theorem disjoint (inv : QueueInv initial tasks phase history) {other : TxId} {op' : QueueOp}
    {rows' : List TaskId} {updated' : Bool} (hp : phase tx = .running op rows updated)
    (hp' : phase other = .running op' rows' updated') (hk : k ∈ rows) (hk' : k ∈ rows') :
    other = tx := by
  have first := inv.holds tx op rows updated hp k hk
  have second := inv.holds other op' rows' updated' hp' k hk'
  rw [first] at second
  exact (Prod.mk.inj (Option.some.inj second)).1.symm

theorem select (inv : QueueInv initial tasks phase history) (hp : phase tx = .idle)
    (hr : Returnable tasks op rows) :
    QueueInv initial (tasks.lockAll tx rows) (Function.update phase tx (.running op rows false))
      (.selected tx :: history) := by
  have keptLock : ∀ other op' rows' updated', phase other = .running op' rows' updated' →
      ∀ k ∈ rows', (tasks.lockAll tx rows).locks k = tasks.locks k := by
    intro other op' rows' updated' ho k hk
    apply Store.writeAll_locks_of_not_mem
    intro hm
    have held := inv.holds other op' rows' updated' ho k hk
    rw [(hr.2.2 k hm).1] at held
    cases held
  refine ⟨?_, ?_, ?_, ?_, ?_, ?_, ?_⟩
  · intro k other row hl
    by_cases hm : k ∈ rows
    · rw [Store.lockAll_locks_of_mem hm (hr.2.2 k hm).1] at hl
      obtain ⟨rfl, _⟩ := Prod.mk.inj (Option.some.inj hl)
      exact ⟨op, rows, false, Function.update_self .., hm⟩
    · have hl' : tasks.locks k = some (other, row) := by
        rw [← hl]
        exact (Store.writeAll_locks_of_not_mem hm).symm
      obtain ⟨op', rows', updated', ho, hk⟩ := inv.locked k other row hl'
      have hne : other ≠ tx := by
        rintro rfl
        rw [hp] at ho
        cases ho
      exact ⟨op', rows', updated', by rwa [Function.update_of_ne hne], hk⟩
  · intro other op' rows' updated' ho k hk
    rcases running_of_update ho with ⟨rfl, own⟩ | ⟨_, before⟩
    · cases own
      exact Store.lockAll_locks_of_mem hk (hr.2.2 k hk).1
    · rw [keptLock other op' rows' updated' before k hk]
      exact inv.holds other op' rows' updated' before k hk
  · intro other op' rows' updated' ho k hk
    rcases running_of_update ho with ⟨rfl, own⟩ | ⟨_, before⟩
    · cases own
      exact (hr.2.2 k hk).2
    · exact inv.wanted other op' rows' updated' before k hk
  · intro other op' rows' updated' ho
    rcases running_of_update ho with ⟨rfl, own⟩ | ⟨_, running⟩
    · cases own
      refine ⟨[], history, rfl, ?_⟩
      intro k hk hclaim
      obtain ⟨_, t, ht, hw⟩ := hr.2.2 k hk
      have pending : t.status = .pending := by
        cases op with
        | claimTasks =>
          simp only [QueueOp.wants, claimable, Bool.and_eq_true, beq_iff_eq] at hw
          exact hw.1
        | recoverExpiredTasks => cases hclaim
      exact ⟨inv.waiting k t ht pending, by simp⟩
    · obtain ⟨after, before, rfl, quiet⟩ := inv.since other op' rows' updated' running
      refine ⟨.selected tx :: after, before, rfl, ?_⟩
      intro k hk hclaim
      obtain ⟨requeued, none_claimed⟩ := quiet k hk hclaim
      refine ⟨requeued, ?_⟩
      intro e he
      rcases List.mem_cons.mp he with rfl | he
      · rfl
      · exact none_claimed e he
  · intro k t ht hpending
    exact requeued_cons rfl (Or.inr (inv.waiting k t ht hpending))
  · intro k
    rw [List.countP_cons_of_neg (by simp [QueueEvent.claims])]
    exact inv.counted k
  · apply exclusiveClaims_cons inv.exclusive
    intro _ _ _ _ _ _ he
    cases he

theorem update (inv : QueueInv initial tasks phase history) (hp : phase tx = .running op rows false) :
    QueueInv initial (tasks.writeAll tx rows op.row)
      (Function.update phase tx (.running op rows true)) history := by
  have old : ∀ other op' rows' updated',
      Function.update phase tx (.running op rows true) other = .running op' rows' updated' →
      ∃ before, phase other = .running op' rows' before := by
    intro other op' rows' updated' ho
    rcases running_of_update ho with ⟨rfl, own⟩ | ⟨_, before⟩
    · cases own
      exact ⟨false, hp⟩
    · exact ⟨updated', before⟩
  refine ⟨?_, ?_, ?_, ?_, inv.waiting, inv.counted, inv.exclusive⟩
  · intro k other row hl
    by_cases hm : k ∈ rows
    · rw [Store.writeAll_locks_of_mem hm] at hl
      obtain ⟨rfl, _⟩ := Prod.mk.inj (Option.some.inj hl)
      exact ⟨op, rows, true, Function.update_self .., hm⟩
    · rw [Store.writeAll_locks_of_not_mem hm] at hl
      obtain ⟨op', rows', updated', ho, hk⟩ := inv.locked k other row hl
      by_cases hne : other = tx
      · subst hne
        rw [hp] at ho
        cases ho
        exact absurd hk hm
      · exact ⟨op', rows', updated', by rwa [Function.update_of_ne hne], hk⟩
  · intro other op' rows' updated' ho k hk
    rcases running_of_update ho with ⟨rfl, own⟩ | ⟨hne, before⟩
    · cases own
      have held := inv.holds other op rows false hp k hk
      rw [Store.writeAll_locks_of_mem hk, Store.view_of_held held]
      rfl
    · have hm : k ∉ rows := fun hm => hne (inv.disjoint hp before hm hk)
      rw [Store.writeAll_locks_of_not_mem hm]
      exact inv.holds other op' rows' updated' before k hk
  · intro other op' rows' updated' ho k hk
    obtain ⟨before, ho'⟩ := old other op' rows' updated' ho
    exact inv.wanted other op' rows' before ho' k hk
  · intro other op' rows' updated' ho
    obtain ⟨before, ho'⟩ := old other op' rows' updated' ho
    exact inv.since other op' rows' before ho'

/-- What the other transactions keep when one ends and gives its locks back. -/
theorem finish (inv : QueueInv initial tasks phase history) {after : Store TxId TaskId Task}
    (later : List QueueEvent) (hp : phase tx = .running op rows updated)
    (hl : ∀ k, after.locks k = tasks.release tx k)
    (hc : ∀ k, k ∉ rows → after.committed k = tasks.committed k)
    (hlater : ∀ e ∈ later, ∀ k, e.claims k = true → k ∈ rows)
    (waiting : ∀ k t, after.committed k = some t → t.status = .pending → Requeued k (later ++ history))
    (counted : ∀ k, (after.committed k).map Task.attempts =
      (initial k).map (fun t => t.attempts + (later ++ history).countP (QueueEvent.claims k)))
    (exclusive : ExclusiveClaims (later ++ history)) :
    QueueInv initial after (Function.update phase tx .finished) (later ++ history) := by
  have other_running : ∀ other op' rows' updated',
      Function.update phase tx .finished other = .running op' rows' updated' →
      other ≠ tx ∧ phase other = .running op' rows' updated' := by
    intro other op' rows' updated' ho
    rcases running_of_update ho with ⟨_, own⟩ | before
    · cases own
    · exact before
  have apart : ∀ other op' rows' updated', other ≠ tx → phase other = .running op' rows' updated' →
      ∀ k ∈ rows', k ∉ rows :=
    fun other op' rows' updated' hne ho k hk hm => hne (inv.disjoint hp ho hm hk)
  refine ⟨?_, ?_, ?_, ?_, waiting, counted, exclusive⟩
  · intro k other row hk
    rw [hl] at hk
    obtain ⟨held, hne⟩ := Store.release_eq_some_iff.mp hk
    obtain ⟨op', rows', updated', ho, hm⟩ := inv.locked k other row held
    exact ⟨op', rows', updated', by rwa [Function.update_of_ne hne], hm⟩
  · intro other op' rows' updated' ho k hk
    obtain ⟨hne, ho'⟩ := other_running other op' rows' updated' ho
    rw [hl, hc k (apart other op' rows' updated' hne ho' k hk)]
    exact Store.release_eq_some_iff.mpr ⟨inv.holds other op' rows' updated' ho' k hk, hne⟩
  · intro other op' rows' updated' ho k hk
    obtain ⟨hne, ho'⟩ := other_running other op' rows' updated' ho
    rw [hc k (apart other op' rows' updated' hne ho' k hk)]
    exact inv.wanted other op' rows' updated' ho' k hk
  · intro other op' rows' updated' ho
    obtain ⟨hne, ho'⟩ := other_running other op' rows' updated' ho
    obtain ⟨since, before, hsplit, quiet⟩ := inv.since other op' rows' updated' ho'
    refine ⟨later ++ since, before, by rw [hsplit, List.append_assoc], ?_⟩
    intro k hk hclaim
    obtain ⟨requeued, none_claimed⟩ := quiet k hk hclaim
    refine ⟨requeued, ?_⟩
    intro e he
    rcases List.mem_append.mp he with he | he
    · by_contra claimed
      exact apart other op' rows' updated' hne ho' k hk (hlater e he k (by simpa using claimed))
    · exact none_claimed e he

theorem rollback (inv : QueueInv initial tasks phase history)
    (hp : phase tx = .running op rows updated) :
    QueueInv initial (tasks.rollback tx) (Function.update phase tx .finished) history :=
  inv.finish [] hp (fun _ => rfl) (fun _ _ => rfl) (by simp) inv.waiting inv.counted
    inv.exclusive

/-- What a transaction commits: its own rows, rewritten, and nothing else. -/
theorem committed_of_commit (inv : QueueInv initial tasks phase history)
    (hp : phase tx = .running op rows true) (k : TaskId) :
    tasks.view tx k = if k ∈ rows then (tasks.committed k).map op.row else tasks.committed k := by
  by_cases hk : k ∈ rows
  · rw [if_pos hk, Store.view_of_held (inv.holds tx op rows true hp k hk)]
    rfl
  · rw [if_neg hk]
    apply Store.view_of_unheld
    intro row hl
    obtain ⟨op', rows', updated', ho, hm⟩ := inv.locked k tx row hl
    rw [hp] at ho
    cases ho
    exact hk hm

theorem commit (inv : QueueInv initial tasks phase history) (hp : phase tx = .running op rows true) :
    QueueInv initial (tasks.commit tx) (Function.update phase tx .finished)
      (commitEvent tasks tx op rows :: history) := by
  have written := inv.committed_of_commit hp
  have kept : ∀ k, k ∉ rows → tasks.view tx k = tasks.committed k := by
    intro k hk
    rw [written k, if_neg hk]
  have own : ∀ k, (commitEvent tasks tx op rows).claims k = true → k ∈ rows := by
    intro k hk
    unfold commitEvent at hk
    split at hk
    · simpa [QueueEvent.claims] using hk
    · simp [QueueEvent.claims] at hk
  refine inv.finish [commitEvent tasks tx op rows] hp (fun _ => rfl) kept (by simpa using own) ?_ ?_ ?_
  · intro k t (ht : tasks.view tx k = some t) hpending
    by_cases hk : k ∈ rows
    · cases op with
      | claimTasks limit lease taskTypes now =>
        rw [written k, if_pos hk] at ht
        obtain ⟨old, _, rfl⟩ := Option.map_eq_some_iff.mp ht
        cases hpending
      | recoverExpiredTasks maxAttempts limit now updatedAt draws =>
        refine requeued_cons rfl (Or.inl ?_)
        simp [commitEvent, QueueOp.isClaim, QueueEvent.requeues, hk, ht, hpending]
    · rw [kept k hk] at ht
      have unclaimed : (commitEvent tasks tx op rows).claims k = false := by
        by_contra claimed
        exact hk (own k (by simpa using claimed))
      exact requeued_cons unclaimed (Or.inr (inv.waiting k t ht hpending))
  · intro k
    rw [List.singleton_append]
    show (tasks.view tx k).map Task.attempts = _
    have before := inv.counted k
    rw [written k]
    cases op with
    | claimTasks limit lease taskTypes now =>
      have event : commitEvent tasks tx (.claimTasks limit lease taskTypes now) rows =
          .claimed tx rows := rfl
      rw [event]
      by_cases hk : k ∈ rows
      · rw [if_pos hk, List.countP_cons_of_pos (by simpa [QueueEvent.claims] using hk)]
        cases hc : tasks.committed k with
        | none => simpa [hc] using before
        | some t =>
          rw [hc, Option.map_some] at before
          obtain ⟨t₀, hi, ha⟩ := Option.map_eq_some_iff.mp before.symm
          simp only [hi, Option.map_some, QueueOp.row, claimRow, Option.some.injEq]
          omega
      · rw [if_neg hk, List.countP_cons_of_neg (by simpa [QueueEvent.claims] using hk)]
        exact before
    | recoverExpiredTasks maxAttempts limit now updatedAt draws =>
      have event : (commitEvent tasks tx (.recoverExpiredTasks maxAttempts limit now updatedAt draws)
          rows).claims k = false := rfl
      rw [List.countP_cons_of_neg (by simp [event]), ← before]
      have same : ∀ t : Task, (QueueOp.row (.recoverExpiredTasks maxAttempts limit now updatedAt draws)
          t).attempts = t.attempts := by
        intro t
        simp only [QueueOp.row, recoverRow]
        split <;> rfl
      by_cases hk : k ∈ rows
      · rw [if_pos hk, Option.map_map]
        exact Option.map_congr fun t _ => same t
      · rw [if_neg hk]
  · apply exclusiveClaims_cons inv.exclusive
    intro tx' rows' mid e earlier k he split hk claimed
    have hclaim : op.isClaim = true := by
      by_contra hclaim
      simp [commitEvent, hclaim] at he
    have same : tx = tx' ∧ rows = rows' := by simpa [commitEvent, hclaim] using he
    obtain ⟨rfl, rfl⟩ := same
    obtain ⟨after, before, rfl, quiet⟩ := inv.since tx op rows true hp
    obtain ⟨requeued, none_claimed⟩ := quiet k hk hclaim
    obtain ⟨between, rfl, hbefore⟩ := claim_before split none_claimed claimed
    exact ⟨after, between, rfl, requeued between e earlier hbefore claimed⟩

end QueueInv

/-- The steps of a transaction on the queue. -/
inductive QueueMove (s : QueueState) : QueueStep → QueueState → Prop
  | select {tx : TxId} {op : QueueOp} {rows : List TaskId} : s.phase tx = .idle → Returnable s.tasks op rows →
      QueueMove s (.select tx op rows) ⟨s.tasks.lockAll tx rows,
        Function.update s.phase tx (.running op rows false), .selected tx :: s.history⟩
  | update {tx : TxId} {op : QueueOp} {rows : List TaskId} : s.phase tx = .running op rows false →
      QueueMove s (.update tx) { s with
        tasks := s.tasks.writeAll tx rows op.row
        phase := Function.update s.phase tx (.running op rows true) }
  | commit {tx : TxId} {op : QueueOp} {rows : List TaskId} : s.phase tx = .running op rows true →
      QueueMove s (.commit tx) ⟨s.tasks.commit tx, Function.update s.phase tx .finished,
        commitEvent s.tasks tx op rows :: s.history⟩
  | rollback {tx : TxId} {op : QueueOp} {rows : List TaskId} {updated : Bool} :
      s.phase tx = .running op rows updated →
      QueueMove s (.rollback tx) { s with
        tasks := s.tasks.rollback tx
        phase := Function.update s.phase tx .finished }

theorem queueNext_cases {step : QueueStep} (h : queueNext s step = some s') : QueueMove s step s' := by
  unfold queueNext at h
  split at h
  next tx op rows =>
    split at h
    next hp =>
      obtain ⟨hr, h⟩ := Option.ite_none_right_eq_some.mp h
      cases Option.some.inj h
      exact .select hp hr
    next => cases h
  next tx =>
    split at h
    next op rows hp =>
      cases Option.some.inj h
      exact .update hp
    next => cases h
  next tx =>
    split at h
    next op rows hp =>
      cases Option.some.inj h
      exact .commit hp
    next => cases h
  next tx =>
    split at h
    next op rows updated hp =>
      cases Option.some.inj h
      exact .rollback hp
    next => cases h

theorem queueInv_step {step : QueueStep} (inv : QueueInv initial s.tasks s.phase s.history)
    (h : queueNext s step = some s') : QueueInv initial s'.tasks s'.phase s'.history := by
  cases queueNext_cases h with
  | select hp hr => exact inv.select hp hr
  | update hp => exact inv.update hp
  | commit hp => exact inv.commit hp
  | rollback hp => exact inv.rollback hp

/-- A step changes committed rows only by committing an operation that wanted
them. -/
theorem committed_change {step : QueueStep} (inv : QueueInv initial s.tasks s.phase s.history)
    (h : queueNext s step = some s') (hk : s'.tasks.committed k ≠ s.tasks.committed k) :
    ∃ tx op rows t, step = .commit tx ∧ s.phase tx = .running op rows true ∧ k ∈ rows ∧
      s.tasks.committed k = some t ∧ op.wants t = true := by
  cases queueNext_cases h with
  | select | update | rollback => exact absurd rfl hk
  | @commit tx op rows hp =>
    have written := inv.committed_of_commit hp k
    by_cases hm : k ∈ rows
    · obtain ⟨t, ht, hw⟩ := inv.wanted tx op rows true hp k hm
      exact ⟨tx, op, rows, t, rfl, hp, hm, ht, hw⟩
    · rw [if_neg hm] at written
      exact absurd written hk

theorem queueInv_run {rows : TaskTable} {trace : List (QueueState × QueueStep)}
    (run : Run queueNext (queueInit rows) trace s) :
    QueueInv rows.get s.tasks s.phase s.history :=
  run.invariant (P := fun u => QueueInv rows.get u.tasks u.phase u.history) (QueueInv.init rows)
    queueInv_step

end DomainProcessing
