import DomainProcessing.Models
import DomainProcessing.OrderedSelection
import Mathlib.Data.Prod.Lex

namespace DomainProcessing

open Tables OrderedSelection

/-- The `CASE` expression of the two queue queries. -/
def TaskType.priority : TaskType → Nat
  | .userRequest => 0
  | .refresh => 1

/-- `ORDER BY type_priority, created_at, id` -/
def Task.claimKey (t : Task) : ℕ ×ₗ ℤ ×ₗ ℕ := toLex (t.type.priority, toLex (t.createdAt, t.id))

theorem Task.claimKey_id {t u : Task} (h : t.claimKey = u.claimKey) : t.id = u.id :=
  congrArg (fun k => (ofLex (ofLex k).2).2) h

theorem claimKey_nodup (tasks : TaskTable) : (tasks.rows.map Task.claimKey).Nodup := by
  have h := tasks.nodup
  rw [List.nodup_iff_pairwise_ne, List.pairwise_map] at h ⊢
  exact h.imp fun hne he => hne (Task.claimKey_id he)

def claimable (taskTypes : List TaskType) (t : Task) : Bool :=
  t.status == .pending && taskTypes.contains t.type

def claimRow (leaseExpiresAt now : Instant) (t : Task) : Task :=
  { t with
    status := .processing
    leaseExpiresAt := some leaseExpiresAt
    updatedAt := now
    attempts := t.attempts + 1 }

/-- The rows the claim query returns when no row is locked. -/
def claimSelection (limit : Int) (taskTypes : Option (List TaskType)) (tasks : List Task) :
    List Task :=
  if limit ≤ 0 then []
  else
    select Task.claimKey (claimable (taskTypes.getD [.userRequest, .refresh])) limit.toNat tasks

theorem mem_claimSelection {limit : Int} {taskTypes : Option (List TaskType)} {tasks : List Task}
    {t : Task} (h : t ∈ claimSelection limit taskTypes tasks) : t ∈ tasks ∧ t.status = .pending := by
  unfold claimSelection at h
  split at h
  next => simp at h
  next =>
    obtain ⟨hm, hc⟩ := mem_select h
    simp only [claimable, Bool.and_eq_true, beq_iff_eq] at hc
    exact ⟨hm, hc.1⟩

theorem claimSelection_nodup (limit : Int) (taskTypes : Option (List TaskType)) {tasks : List Task}
    (h : (tasks.map Task.id).Nodup) :
    ((claimSelection limit taskTypes tasks).map Task.id).Nodup := by
  unfold claimSelection
  split
  · exact List.nodup_nil
  · exact select_sublist_nodup h

/-- The table after the claim and the tasks it returns. -/
def claimTasks (limit : Int) (leaseExpiresAt : Instant) (taskTypes : Option (List TaskType))
    (now : Instant) (tasks : TaskTable) : TaskTable × List Task :=
  let selected := claimSelection limit taskTypes tasks.rows
  (tasks.update (fun t => if t ∈ selected then claimRow leaseExpiresAt now t else t)
      (fun t => by split <;> rfl),
    selected.map (claimRow leaseExpiresAt now))

/-- The table after a claim has the claimed rows in place of the selected ones. -/
theorem mem_claimTasks {limit : Int} {leaseExpiresAt now : Instant}
    {taskTypes : Option (List TaskType)} {tasks : TaskTable} {row' : Task}
    (h : row' ∈ (claimTasks limit leaseExpiresAt taskTypes now tasks).1.rows) :
    ∃ row ∈ tasks.rows, row'.id = row.id ∧ row.attempts ≤ row'.attempts ∧
      (row ∈ claimSelection limit taskTypes tasks.rows → row' = claimRow leaseExpiresAt now row) ∧
      (row ∉ claimSelection limit taskTypes tasks.rows → row' = row) := by
  obtain ⟨row, hm, rfl⟩ := List.mem_map.mp h
  refine ⟨row, hm, ?_⟩
  by_cases hs : row ∈ claimSelection limit taskTypes tasks.rows
  · rw [if_pos hs]
    exact ⟨rfl, Nat.le_succ _, fun _ => rfl, fun h => absurd hs h⟩
  · rw [if_neg hs]
    exact ⟨rfl, le_rfl, fun h => absurd h hs, fun _ => rfl⟩

theorem map_id_claimRow (leaseExpiresAt now : Instant) (tasks : List Task) :
    (tasks.map (claimRow leaseExpiresAt now)).map Task.id = tasks.map Task.id := by
  rw [List.map_map]
  rfl

/-- What one retry draws: its reading of the clock and `random.randint(0, 60)`. -/
structure RetryDraw where
  now : Instant
  jitter : Fin 61

def RetryDraw.unjittered (now : Instant) : RetryDraw := ⟨now, 0⟩

/-- `min(60 * 2 ** (attempts - 1), 3600)`, which is 30 for a task never claimed. -/
def retryDelay (attempts : Nat) : Nat := min (60 * 2 ^ attempts / 2) 3600

def RetryDraw.nextAttemptAt (draw : RetryDraw) (attempts : Nat) : Instant :=
  draw.now + seconds (retryDelay attempts + draw.jitter)

def maxAttemptsExceeded (message : String) : ErrorPayload :=
  ⟨"MAX_ATTEMPTS_EXCEEDED", message, false⟩

def leaseExpired (now : Instant) (t : Task) : Bool :=
  t.status == .processing && t.leaseExpiresAt.any (fun lease => decide (lease < now))

theorem leaseExpired_processing {now : Instant} (h : leaseExpired now t = true) :
    t.status = .processing := by
  simp only [leaseExpired, Bool.and_eq_true, beq_iff_eq] at h
  exact h.1

def recoverRow (maxAttempts : Nat) (now : Instant) (draw : RetryDraw) (t : Task) : Task :=
  if maxAttempts ≤ t.attempts then
    { t with
      updatedAt := now
      status := .failed
      errorPayload := some (maxAttemptsExceeded s!"Task exceeded maximum attempts ({maxAttempts})")
      leaseExpiresAt := none }
  else
    { t with
      updatedAt := now
      status := .pending
      leaseExpiresAt := none
      nextAttemptAt := draw.nextAttemptAt t.attempts }

theorem recoverRow_id (maxAttempts : Nat) (now : Instant) (draw : RetryDraw) (t : Task) :
    (recoverRow maxAttempts now draw t).id = t.id := by
  unfold recoverRow
  split <;> rfl

def recoverySelection (limit : Int) (now : Instant) (tasks : List Task) : List Task :=
  if limit ≤ 0 then [] else select Task.claimKey (leaseExpired now) limit.toNat tasks

theorem mem_recoverySelection {limit : Int} {now : Instant} {tasks : List Task} {t : Task}
    (h : t ∈ recoverySelection limit now tasks) : t ∈ tasks ∧ leaseExpired now t = true := by
  unfold recoverySelection at h
  split at h
  next => simp at h
  next => exact mem_select h

/-- `now` decides expiry, `updatedAt` stamps the rows, `draws` are the retries' draws. -/
def recoverExpiredTasks (maxAttempts : Nat) (limit : Int) (now updatedAt : Instant)
    (draws : TaskId → RetryDraw) (tasks : TaskTable) : TaskTable × List Task :=
  let selected := recoverySelection limit now tasks.rows
  (tasks.update
      (fun t => if t ∈ selected then recoverRow maxAttempts updatedAt (draws t.id) t else t)
      (fun t => by split; exacts [recoverRow_id _ _ _ _, rfl]),
    selected.map fun t => recoverRow maxAttempts updatedAt (draws t.id) t)

def openRefresh (domainId : DomainId) (t : Task) : Bool :=
  decide (t.domainId = domainId) && t.type == .refresh && t.status.isOpen

theorem openRefresh_iff {domainId : DomainId} {t : Task} :
    openRefresh domainId t = true ↔
      t.domainId = domainId ∧ t.type = .refresh ∧ t.status.isOpen = true := by
  simp [openRefresh, and_assoc]

def refreshTask (id : TaskId) (domainId : DomainId) (now : Instant) : Task :=
  { id := id, jobId := none, domainId := domainId, type := .refresh, status := .pending,
    attempts := 0, nextAttemptAt := now, leaseExpiresAt := none, errorPayload := none,
    createdAt := now, updatedAt := now }

/-- The tasks the loop adds, over the rows it sees. `scalar_one_or_none` raises
when two open refresh tasks match, which aborts the transaction. -/
def refreshTasksFor (uuid : DomainId → TaskId) (now : Instant) :
    List DomainId → List Task → Option (List Task)
  | [], _ => some []
  | domainId :: rest, seen =>
    match seen.filter (openRefresh domainId) with
    | [] => do
      let task := refreshTask (uuid domainId) domainId now
      let created ← refreshTasksFor uuid now rest (seen ++ [task])
      pure (task :: created)
    | [_] => refreshTasksFor uuid now rest seen
    | _ :: _ :: _ => none

def createRefreshTasks (uuid : DomainId → TaskId) (domainIds : List DomainId) (now : Instant)
    (tasks : TaskTable) : Option TaskTable := do
  let created ← refreshTasksFor uuid now domainIds tasks.rows
  tasks.insert created

end DomainProcessing
