import DomainProcessing.DomainProbing
import DomainProcessing.Runs

namespace DomainProcessing

open ExpiringLock Runs

/-- What an execution at this stage knows about a committed detail. -/
def Stage.knows (freshnessSeconds : Nat) (now : Instant) : Stage → DomainDetail → Prop
  | .reread found, detail => found = some detail
  | .stillStale, detail | .dnsStarted, detail | .ipValidated _, detail | .httpStarted _, detail =>
    seconds freshnessSeconds < now - detail.fetchedAt
  | .persisting _ existing, detail => detail.version = expectedVersion existing
  | _, _ => True

theorem seconds_lt_of_stale {freshnessSeconds : Nat} {now : Instant} {detail : DomainDetail}
    (h : ¬checkFreshness freshnessSeconds now (some detail) = true) :
    seconds freshnessSeconds < now - detail.fetchedAt := by
  have hle : ¬now - detail.fetchedAt ≤ seconds freshnessSeconds := by
    simpa [checkFreshness] using h
  exact Int.not_le.mp hle

theorem Stage.knows_tick {freshnessSeconds elapsed : Nat} {now : Instant} {stage : Stage}
    {detail : DomainDetail} (h : stage.knows freshnessSeconds now detail) :
    stage.knows freshnessSeconds (now + elapsed) detail := by
  have later : now - detail.fetchedAt ≤ now + elapsed - detail.fetchedAt := by
    have := Int.natCast_nonneg elapsed
    exact Int.sub_le_sub_right (Int.le_add_of_nonneg_right this) _
  cases stage <;> first | exact h | exact Int.lt_of_lt_of_le h later

section Worker

variable {τ : Type*} {freshnessSeconds : Nat} {domainId : DomainId} {now : Instant}
variable {token : τ} {cell cell' : DomainCell τ} {stage stage' : Stage} {step : WorkerStep}

theorem acquire_detail {call : RedisCall} (h : cell.acquire now token call = (cell', stage')) :
    cell'.detail = cell.detail := by
  unfold DomainCell.acquire at h
  split at h
  · split at h <;> cases h <;> rfl
  · split at h <;> cases h <;> rfl

/-- An acquire that changes the key has found it free. -/
theorem acquire_lock {call : RedisCall} (h : cell.acquire now token call = (cell', stage')) :
    cell' = cell ∧ stage' = .finished ∨
      ∃ key, setNx now (seconds lockTtlSeconds) token cell.lock = some key ∧
        cell'.lock = some key ∧ (stage' = .lockAcquired ∨ stage' = .finished) := by
  unfold DomainCell.acquire at h
  split at h
  · split at h
    next key hkey =>
      cases h
      exact Or.inr ⟨key, hkey, rfl, Or.inl rfl⟩
    next =>
      cases h
      exact Or.inl ⟨rfl, rfl⟩
  · split at h
    next key hkey =>
      cases h
      exact Or.inr ⟨key, hkey, rfl, Or.inr rfl⟩
    next =>
      cases h
      exact Or.inl ⟨rfl, rfl⟩

variable [DecidableEq τ]

theorem Stage.stale_of_work {result : DomainCell τ × Stage} {detail : DomainDetail}
    (work : step = .startDns ∨ step = .startHttp)
    (h : workerNext freshnessSeconds domainId now token cell stage step = some result)
    (known : stage.knows freshnessSeconds now detail) :
    seconds freshnessSeconds < now - detail.fetchedAt := by
  rcases work with rfl | rfl
  · cases stage <;> simp only [workerNext, reduceCtorEq] at h
    exact known
  · cases stage <;> simp only [workerNext, reduceCtorEq] at h
    exact known

/-- Apart from the acquire, the commit and the release, a step touches neither
the key nor the row, and enters no critical section. -/
theorem workerNext_cases
    (h : workerNext freshnessSeconds domainId now token cell stage step = some (cell', stage')) :
    (cell' = cell ∧ (stage'.insideLock = true → stage.insideLock = true) ∧
      ∀ detail, cell.detail = some detail → stage.knows freshnessSeconds now detail →
        stage'.knows freshnessSeconds now detail) ∨
    (stage = .needsProcessing ∧ ∃ call, cell.acquire now token call = (cell', stage')) ∨
    (∃ detail existing, stage = .persisting detail existing ∧ cell'.lock = cell.lock ∧
      stage' = .releasing) ∨
    (stage = .releasing ∧ stage' = .finished ∧ ∃ call, cell' = cell.release now token call) := by
  unfold workerNext at h
  split at h
  next =>
    cases Option.some.inj h
    exact Or.inl ⟨rfl, fun inside => Bool.noConfusion inside, fun _ _ _ => trivial⟩
  next =>
    cases Option.some.inj h
    refine Or.inl ⟨rfl, ?_, fun _ _ _ => ?_⟩
    · split <;> simp [Stage.insideLock]
    · split <;> trivial
  next call =>
    exact Or.inr (Or.inl ⟨rfl, call, Option.some.inj h⟩)
  next =>
    cases Option.some.inj h
    exact Or.inl ⟨rfl, fun _ => rfl, fun _ found _ => found⟩
  next found =>
    cases Option.some.inj h
    refine Or.inl ⟨rfl, fun _ => rfl, fun detail _ same => ?_⟩
    have same : found = some detail := same
    subst found
    split
    next => trivial
    next stale => exact seconds_lt_of_stale stale
  next =>
    cases Option.some.inj h
    exact Or.inl ⟨rfl, fun _ => rfl, fun _ _ known => known⟩
  next =>
    cases Option.some.inj h
    refine Or.inl ⟨rfl, fun _ => rfl, fun _ _ known => ?_⟩
    split
    · exact known
    · trivial
  next =>
    cases Option.some.inj h
    exact Or.inl ⟨rfl, fun _ => rfl, fun _ _ known => known⟩
  next =>
    cases Option.some.inj h
    refine Or.inl ⟨rfl, fun _ => rfl, fun _ _ _ => ?_⟩
    split <;> trivial
  next =>
    cases Option.some.inj h
    refine Or.inl ⟨rfl, fun _ => rfl, fun detail found _ => ?_⟩
    show detail.version = expectedVersion cell.detail
    rw [found]
    rfl
  next detail existing =>
    split at h <;> cases Option.some.inj h <;>
      exact Or.inr (Or.inr (Or.inl ⟨detail, existing, rfl, rfl, rfl⟩))
  next call =>
    cases Option.some.inj h
    exact Or.inr (Or.inr (Or.inr ⟨rfl, rfl, call, rfl⟩))
  next => cases h
  next => cases h
  next =>
    cases Option.some.inj h
    refine Or.inl ⟨rfl, ?_, fun _ _ _ => ?_⟩
    · split
      next inside => exact fun _ => inside
      next => exact fun inside => Bool.noConfusion inside
    · split <;> trivial
  next =>
    cases Option.some.inj h
    exact Or.inl ⟨rfl, fun inside => Bool.noConfusion inside, fun _ _ _ => trivial⟩
  next => cases h

/-- Inside the critical section the execution holds the key. -/
theorem workerNext_holds
    (h : workerNext freshnessSeconds domainId now token cell stage step = some (cell', stage'))
    (holds : stage.insideLock = true → Holds cell.lock token) (inside : stage'.insideLock = true) :
    Holds cell'.lock token := by
  rcases workerNext_cases h with ⟨rfl, hin, _⟩ | ⟨_, call, hacq⟩ | ⟨_, _, rfl, hlock, _⟩ |
      ⟨_, rfl, _⟩
  · exact holds (hin inside)
  · rcases acquire_lock hacq with ⟨_, rfl⟩ | ⟨key, hkey, hlock, _⟩
    · cases inside
    · rw [hlock]
      exact setNx_holds hkey
  · rw [hlock]
    exact holds rfl
  · cases inside

theorem workerNext_knows
    (h : workerNext freshnessSeconds domainId now token cell stage step = some (cell', stage'))
    (known : ∀ detail, cell.detail = some detail → stage.knows freshnessSeconds now detail)
    {detail : DomainDetail} (hd : cell'.detail = some detail) :
    stage'.knows freshnessSeconds now detail := by
  rcases workerNext_cases h with ⟨rfl, _, keeps⟩ | ⟨_, call, hacq⟩ | ⟨_, _, _, _, rfl⟩ |
      ⟨_, rfl, _⟩
  · exact keeps detail hd (known detail hd)
  · rcases acquire_lock hacq with ⟨_, rfl⟩ | ⟨_, _, _, rfl | rfl⟩ <;> trivial
  · trivial
  · trivial

/-- An execution outside the critical section leaves the row alone, and the key
of somebody else too. -/
theorem workerNext_outside
    (h : workerNext freshnessSeconds domainId now token cell stage step = some (cell', stage'))
    (outside : stage.insideLock = false) :
    cell'.detail = cell.detail ∧ ∀ other, Holds cell.lock other →
      Unexpired cell.lock now other → cell'.lock = cell.lock := by
  rcases workerNext_cases h with ⟨rfl, _⟩ | ⟨_, call, hacq⟩ | ⟨_, _, rfl, _⟩ | ⟨rfl, _⟩
  · exact ⟨rfl, fun _ _ _ => rfl⟩
  · refine ⟨acquire_detail hacq, fun other holds alive => ?_⟩
    rcases acquire_lock hacq with ⟨rfl, _⟩ | ⟨key, hkey, _⟩
    · rfl
    · rw [holds.setNx_eq_none alive] at hkey
      cases hkey
  · cases outside
  · cases outside

end Worker

section Probing

variable {ω τ : Type*} {freshnessSeconds : Nat}
variable {domainId : DomainId} {uuid4 : ω → τ} {s t : ProbingState ω τ} {step : ProbingStep ω}
variable {trace : List (ProbingState ω τ × ProbingStep ω)}

structure ProbingInv (freshnessSeconds : Nat) (uuid4 : ω → τ) (s : ProbingState ω τ) : Prop where
  holds : ∀ w, (s.stage w).insideLock = true → Holds s.cell.lock (uuid4 w)
  known : ∀ w detail, s.cell.detail = some detail →
    (s.stage w).knows freshnessSeconds s.now detail

/-- No lock reaches its TTL while its holder is still running. -/
def LockOutlivesHolder (uuid4 : ω → τ) (s : ProbingState ω τ) : Prop :=
  ∀ w, (s.stage w).insideLock = true → Unexpired s.cell.lock s.now (uuid4 w)

/-- The executions that are between a successful acquire and the release. -/
def Exclusive (s : ProbingState ω τ) : Prop :=
  ∀ w w', (s.stage w).insideLock = true → (s.stage w').insideLock = true → w = w'

theorem ProbingInv.exclusive (h : ProbingInv freshnessSeconds uuid4 s)
    (unique : Function.Injective uuid4) : Exclusive s :=
  fun _ _ inside inside' => ExpiringLock.exclusive unique h.holds inside inside'

/-- The lock leaves nobody for the OCC check to catch. -/
theorem commit_without_conflict (h : ProbingInv freshnessSeconds uuid4 s) {w : ω}
    {detail : DomainDetail} {existing : Option DomainDetail} (hs : s.stage w = .persisting detail existing) :
    upsertWithOcc detail (expectedVersion existing) s.cell.detail ≠ none := by
  cases hd : s.cell.detail with
  | none => exact Option.some_ne_none _
  | some current =>
    have known := h.known w current hd
    rw [hs] at known
    have same : current.version = expectedVersion existing := known
    simp [upsertWithOcc, same]

theorem probingInv_start (start : ∀ w, s.stage w = .started) :
    ProbingInv freshnessSeconds uuid4 s := by
  constructor
  · intro w inside
    rw [start w] at inside
    cases inside
  · intro w detail _
    rw [start w]
    trivial

variable [DecidableEq ω] [DecidableEq τ]

theorem probingInv_worker (unique : Function.Injective uuid4)
    (h : ProbingInv freshnessSeconds uuid4 s) (ttl : LockOutlivesHolder uuid4 s) {w : ω}
    {action : WorkerStep} {cell : DomainCell τ} {stage : Stage}
    (hw : workerNext freshnessSeconds domainId s.now (uuid4 w) s.cell (s.stage w) action =
      some (cell, stage)) :
    ProbingInv freshnessSeconds uuid4
      { s with cell := cell, stage := Function.update s.stage w stage } := by
  -- while somebody else is inside, the acting execution is outside and changes nothing
  have others : ∀ w', w' ≠ w → (s.stage w').insideLock = true →
      cell.detail = s.cell.detail ∧ cell.lock = s.cell.lock := by
    intro w' hne inside
    have outside : (s.stage w).insideLock = false := by
      by_contra hin
      exact hne (h.exclusive unique w' w inside (by simpa using hin))
    have frame := workerNext_outside hw outside
    exact ⟨frame.1, frame.2 _ (h.holds w' inside) (ttl w' inside)⟩
  constructor
  · intro w' inside
    by_cases hw' : w' = w
    · subst hw'
      simp only [Function.update_self] at inside
      exact workerNext_holds hw (h.holds w') inside
    · simp only [Function.update_of_ne hw'] at inside
      show Holds cell.lock (uuid4 w')
      rw [(others w' hw' inside).2]
      exact h.holds w' inside
  · intro w' detail hd
    by_cases hw' : w' = w
    · subst hw'
      simp only [Function.update_self]
      exact workerNext_knows hw (h.known w') hd
    · simp only [Function.update_of_ne hw']
      by_cases inside : (s.stage w').insideLock = true
      · have same : s.cell.detail = some detail := (others w' hw' inside).1.symm.trans hd
        exact h.known w' detail same
      · cases hs : s.stage w' <;> first | trivial | simp [hs, Stage.insideLock] at inside

theorem probingInv_step (unique : Function.Injective uuid4)
    (h : ProbingInv freshnessSeconds uuid4 s) (ttl : LockOutlivesHolder uuid4 s)
    (hs : probingNext freshnessSeconds domainId uuid4 s step = some t) :
    ProbingInv freshnessSeconds uuid4 t := by
  cases step with
  | worker w action =>
    obtain ⟨⟨cell, stage⟩, hw, rfl⟩ := Option.map_eq_some_iff.mp hs
    exact probingInv_worker unique h ttl hw
  | tick elapsed =>
    cases Option.some.inj hs
    exact ⟨h.holds, fun w detail hd => Stage.knows_tick (h.known w detail hd)⟩
  | clearDomainDetails =>
    cases Option.some.inj hs
    refine ⟨h.holds, fun w detail hd => ?_⟩
    cases hd

/-- The steps that start DNS or HTTP work. -/
def ProbingStep.startsWork : ProbingStep ω → Prop
  | .worker _ .startDns | .worker _ .startHttp => True
  | _ => False

theorem stale_of_startsWork (h : ProbingInv freshnessSeconds uuid4 s)
    (hs : probingNext freshnessSeconds domainId uuid4 s step = some t) (work : step.startsWork)
    {detail : DomainDetail} (hd : s.cell.detail = some detail) :
    seconds freshnessSeconds < s.now - detail.fetchedAt := by
  unfold ProbingStep.startsWork at work
  split at work
  next w =>
    obtain ⟨_, hw, _⟩ := Option.map_eq_some_iff.mp hs
    exact Stage.stale_of_work (Or.inl rfl) hw (h.known w detail hd)
  next w =>
    obtain ⟨_, hw, _⟩ := Option.map_eq_some_iff.mp hs
    exact Stage.stale_of_work (Or.inr rfl) hw (h.known w detail hd)
  next => exact work.elim

theorem probing_run (unique : Function.Injective uuid4) (start : ∀ w, s.stage w = .started)
    (run : Run (probingNext freshnessSeconds domainId uuid4) s trace t)
    (ttl : ∀ p ∈ trace, LockOutlivesHolder uuid4 p.1) : ProbingInv freshnessSeconds uuid4 t :=
  run.guarded (fun s _ => LockOutlivesHolder uuid4 s) (probingInv_start start)
    (fun h alive hs => probingInv_step unique h alive hs) ttl

/-- At most one execution at a time is between a successful acquire and its
release, and none starts DNS or HTTP work while a fresh detail is committed. -/
theorem double_checked_probing (unique : Function.Injective uuid4) (start : ∀ w, s.stage w = .started)
    (run : Run (probingNext freshnessSeconds domainId uuid4) s trace t)
    (ttl : ∀ p ∈ trace, LockOutlivesHolder uuid4 p.1) :
    Exclusive t ∧ ∀ p ∈ trace, p.2.startsWork → ∀ detail, p.1.cell.detail = some detail →
      ¬p.1.now - detail.fetchedAt ≤ seconds freshnessSeconds := by
  refine ⟨(probing_run unique start run ttl).exclusive unique, ?_⟩
  induction run with
  | start => simp
  | step run hs ih =>
    obtain ⟨_, before⟩ := List.forall_mem_cons.mp ttl
    refine List.forall_mem_cons.mpr ⟨fun work detail hd => ?_, ih before⟩
    have inv := probing_run unique start run before
    exact Int.not_le.mpr (stale_of_startsWork inv hs work hd)

end Probing

def probedDns : DnsResult := ⟨["192.0.2.1"], [], none, none⟩

def probedHttp : HttpResult := ⟨200, [], 120, some "Example", none⟩

def probeSteps (w : Fin 4) : List (ProbingStep (Fin 4)) :=
  [.worker w .readDetail, .worker w .judge, .worker w .startDns,
    .worker w (.dnsAnswered probedDns (.ok ⟨true, "192.0.2.1", none⟩)), .worker w .startHttp,
    .worker w (.httpAnswered probedHttp), .worker w .prepareDetail, .worker w .commit,
    .worker w (.release .answered)]

/-- Four executions: the first probes, the second finds the lock held, the third
finds the detail fresh under the lock, the fourth probes again a minute later. -/
def probingSteps : List (ProbingStep (Fin 4)) :=
  [.worker 0 .readDetail, .worker 1 .readDetail, .worker 2 .readDetail, .worker 0 .judge,
    .worker 1 .judge, .worker 0 (.acquire .answered), .worker 1 (.acquire .answered)] ++
  probeSteps 0 ++
  [.worker 2 .judge, .worker 2 (.acquire .answered), .worker 2 .readDetail, .worker 2 .judge,
    .worker 2 (.release .answered), .tick 60000001, .worker 3 .readDetail, .worker 3 .judge,
    .worker 3 (.acquire .answered)] ++
  probeSteps 3

def probingStart : ProbingState (Fin 4) (Fin 4) := ⟨0, ⟨none, none⟩, fun _ => .started⟩

instance (s : ProbingState (Fin 4) (Fin 4)) : Decidable (LockOutlivesHolder id s) :=
  inferInstanceAs (Decidable (∀ w, (s.stage w).insideLock = true → Unexpired s.cell.lock s.now w))

theorem double_checked_probing_four :
    ∃ t, exec (probingNext 60 7 id) probingStart probingSteps = some t ∧ Exclusive t ∧
      ∀ p ∈ steps (probingNext 60 7 id) probingStart probingSteps, p.2.startsWork →
        ∀ detail, p.1.cell.detail = some detail →
          ¬p.1.now - detail.fetchedAt ≤ seconds 60 := by
  have enabled : (exec (probingNext 60 7 id) probingStart probingSteps).isSome = true := by decide
  obtain ⟨t, ht⟩ := Option.isSome_iff_exists.mp enabled
  have ttl : ∀ p ∈ steps (probingNext 60 7 id) probingStart probingSteps,
      LockOutlivesHolder id p.1 := by decide
  exact ⟨t, ht, double_checked_probing Function.injective_id (fun _ => rfl) (exec_run ht) ttl⟩

end DomainProcessing
