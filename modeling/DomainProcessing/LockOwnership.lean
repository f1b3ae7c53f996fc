import DomainProcessing.DomainProbing
import DomainProcessing.Runs

namespace DomainProcessing

open ExpiringLock Runs

/-- What `acquire` yields; `is_acquired` asks for both fields. -/
structure LockContext (τ : Type*) where
  token : Option τ
  acquired : Bool

namespace DomainLock

variable {τ : Type*} [DecidableEq τ]

/-- The command of `acquire` and the context it yields. -/
def acquire (now : Instant) (token : τ) (stored : Option (Key τ)) : Option (Key τ) × LockContext τ :=
  match setNx now (seconds lockTtlSeconds) token stored with
  | some key => (some key, ⟨some token, true⟩)
  | none => (stored, ⟨none, false⟩)

/-- The script of `release`, with the answer of `release`. -/
def release (now : Instant) (token : τ) (stored : Option (Key τ)) : Option (Key τ) × Bool :=
  match live now stored with
  | some key => if key.token = token then (none, true) else (stored, false)
  | none => (stored, false)

omit [DecidableEq τ] in
theorem acquire_cases (now : Instant) (token : τ) (stored : Option (Key τ)) :
    acquire now token stored = (stored, ⟨none, false⟩) ∨ live now stored = none ∧
      acquire now token stored = (some ⟨token, now + seconds lockTtlSeconds⟩, ⟨some token, true⟩) := by
  unfold acquire
  cases hk : setNx now (seconds lockTtlSeconds) token stored with
  | none => exact Or.inl rfl
  | some key =>
    have new := setNx_eq_some hk
    subst new
    exact Or.inr ⟨setNx_free hk, rfl⟩

/-- A release that does not find its token does nothing. -/
theorem release_of_foreign {now : Instant} {token : τ} {stored : Option (Key τ)}
    (foreign : ∀ key, live now stored = some key → key.token ≠ token) :
    release now token stored = (stored, false) := by
  unfold release
  cases hk : live now stored with
  | none => rfl
  | some key => exact if_neg (foreign key hk)

theorem release_of_own {now : Instant} {token : τ} {stored : Option (Key τ)} {expiresAt : Int}
    (own : live now stored = some ⟨token, expiresAt⟩) : release now token stored = (none, true) := by
  simp [release, own]

theorem release_cases (now : Instant) (token : τ) (stored : Option (Key τ)) :
    (release now token stored = (stored, false) ∧ ∀ key, live now stored = some key → key.token ≠ token) ∨
      ∃ expiresAt, live now stored = some ⟨token, expiresAt⟩ ∧ release now token stored = (none, true) := by
  by_cases foreign : ∀ key, live now stored = some key → key.token ≠ token
  · exact Or.inl ⟨release_of_foreign foreign, foreign⟩
  · push Not at foreign
    obtain ⟨key, hk, rfl⟩ := foreign
    exact Or.inr ⟨key.expiresAt, hk, release_of_own hk⟩

/-- After a release its token is not stored. -/
theorem release_foreign {now : Instant} {token : τ} {stored : Option (Key τ)} {key : Key τ}
    (h : live now (release now token stored).1 = some key) :
    live now stored = some key ∧ key.token ≠ token := by
  rcases release_cases now token stored with ⟨same, foreign⟩ | ⟨_, _, gone⟩
  · rw [same] at h
    exact ⟨h, foreign key h⟩
  · rw [gone] at h
    cases h

/-- The script does what comparing and deleting in one step does. -/
theorem release_store (now : Instant) (token : τ) (stored : Option (Key τ)) :
    (release now token stored).1 = compareAndDelete now token stored := by
  unfold release compareAndDelete live
  cases stored with
  | none => rfl
  | some key =>
    by_cases alive : now < key.expiresAt
    · by_cases own : key.token = token
      · simp [Option.filter, alive, own]
      · simp [Option.filter, alive, own]
    · simp [Option.filter, alive]

end DomainLock

/-- An acquire context, from the call to the end of its `finally`. -/
inductive ContextStage (τ : Type*)
  | waiting
  | entered (context : LockContext τ)
  | exited (released : Option Bool)

structure LockState (δ ω κ τ : Type*) where
  now : Instant
  store : δ → Option (Key τ)
  stage : κ → ContextStage τ
  crashed : ω → Bool

/-- `leave` is `__aexit__` of a yielded context, which releases inside the body. -/
inductive LockStep (δ ω κ : Type*)
  | acquire (c : κ)
  | leave (c : κ)
  | exit (c : κ)
  | tick (elapsed : Nat)
  | evict (d : δ)
  | crash (w : ω)

def lockInit {δ ω κ τ : Type*} (now : Instant) : LockState δ ω κ τ :=
  ⟨now, fun _ => none, fun _ => .waiting, fun _ => false⟩

section Lock

variable {δ ω κ τ : Type*}

/-- Any number of contexts, each of a worker, for a domain, with a token of its own. -/
def lockNext [DecidableEq δ] [DecidableEq ω] [DecidableEq κ] [DecidableEq τ] (domain : κ → δ)
    (worker : κ → ω) (uuid4 : κ → τ) (s : LockState δ ω κ τ) : LockStep δ ω κ → Option (LockState δ ω κ τ)
  | .acquire c =>
    match s.crashed (worker c), s.stage c with
    | false, .waiting =>
      let result := DomainLock.acquire s.now (uuid4 c) (s.store (domain c))
      some { s with
        store := Function.update s.store (domain c) result.1
        stage := Function.update s.stage c (.entered result.2) }
    | _, _ => none
  | .leave c =>
    match s.crashed (worker c), s.stage c with
    | false, .entered ⟨some token, true⟩ =>
      let result := DomainLock.release s.now token (s.store (domain c))
      some { s with store := Function.update s.store (domain c) result.1 }
    | false, .entered _ => some s
    | _, _ => none
  | .exit c =>
    match s.crashed (worker c), s.stage c with
    | false, .entered context =>
      if context.acquired then
        let result := DomainLock.release s.now (uuid4 c) (s.store (domain c))
        some { s with
          store := Function.update s.store (domain c) result.1
          stage := Function.update s.stage c (.exited (some result.2)) }
      else some { s with stage := Function.update s.stage c (.exited none) }
    | _, _ => none
  | .tick elapsed => some { s with now := s.now + elapsed }
  | .evict d => some { s with store := Function.update s.store d (live s.now (s.store d)) }
  | .crash w => some { s with crashed := Function.update s.crashed w true }

variable {domain : κ → δ} {worker : κ → ω} {uuid4 : κ → τ} {s s' : LockState δ ω κ τ}

/-- The contexts that a token in the store may belong to: those that have not
exited, and those of crashed workers. -/
def OwnedBy (worker : κ → ω) (uuid4 : κ → τ) (s : LockState δ ω κ τ) (c : κ) : Prop :=
  s.crashed (worker c) = true ∨ s.stage c = .entered ⟨some (uuid4 c), true⟩

/-- Every stored token is one of an unfinished context for this domain. -/
structure StoreOwned (domain : κ → δ) (worker : κ → ω) (uuid4 : κ → τ) (s : LockState δ ω κ τ) : Prop where
  owner : ∀ d key, live s.now (s.store d) = some key →
    ∃ c, uuid4 c = key.token ∧ domain c = d ∧ OwnedBy worker uuid4 s c
  context : ∀ c context, s.stage c = .entered context →
    context = ⟨some (uuid4 c), true⟩ ∨ context = ⟨none, false⟩

theorem storeOwned_init (now : Instant) : StoreOwned domain worker uuid4 (lockInit (τ := τ) now) := by
  constructor
  · intro d key h
    cases h
  · intro c context h
    cases h

/-- The owner of a stored token, when the context `c` is not one. -/
theorem StoreOwned.other_owner (inv : StoreOwned domain worker uuid4 s) {c : κ} {d : δ} {key : Key τ}
    (h : live s.now (s.store d) = some key) (foreign : ¬(key.token = uuid4 c ∧ OwnedBy worker uuid4 s c)) :
    ∃ c', c' ≠ c ∧ uuid4 c' = key.token ∧ domain c' = d ∧ OwnedBy worker uuid4 s c' := by
  obtain ⟨c', token, place, owned⟩ := inv.owner d key h
  refine ⟨c', ?_, token, place, owned⟩
  rintro rfl
  exact foreign ⟨token.symm, owned⟩

variable [DecidableEq κ]

theorem OwnedBy.update {c c' : κ} {stage : ContextStage τ} (h : OwnedBy worker uuid4 s c') (ne : c' ≠ c) :
    OwnedBy worker uuid4 { s with stage := Function.update s.stage c stage } c' := by
  unfold OwnedBy at h ⊢
  simpa [Function.update_of_ne ne] using h

/-- A command on the key of one context that moves this context: the other
tokens keep their owners. -/
theorem StoreOwned.update [DecidableEq δ] (inv : StoreOwned domain worker uuid4 s) {c : κ} {stored : Option (Key τ)}
    {stage : ContextStage τ}
    (written : ∀ key, live s.now stored = some key → (∃ c', c' ≠ c ∧ uuid4 c' = key.token ∧
      domain c' = domain c ∧ OwnedBy worker uuid4 s c') ∨
      key.token = uuid4 c ∧ stage = .entered ⟨some (uuid4 c), true⟩)
    (context : ∀ context, stage = .entered context →
      context = ⟨some (uuid4 c), true⟩ ∨ context = ⟨none, false⟩) :
    StoreOwned domain worker uuid4 { s with
      store := Function.update s.store (domain c) stored
      stage := Function.update s.stage c stage } := by
  constructor
  · intro d key h
    by_cases same : d = domain c
    · subst same
      simp only [Function.update_self] at h
      rcases written key h with ⟨c', ne, token, place, owned⟩ | ⟨token, entered⟩
      · exact ⟨c', token, place, owned.update ne⟩
      · exact ⟨c, token.symm, rfl, Or.inr (by simp [entered])⟩
    · simp only [Function.update_of_ne same] at h
      obtain ⟨c', token, place, owned⟩ := inv.owner d key h
      have ne : c' ≠ c := by
        rintro rfl
        exact same place.symm
      exact ⟨c', token, place, owned.update ne⟩
  · intro c' ctx h
    by_cases same : c' = c
    · subst same
      simp only [Function.update_self] at h
      exact context ctx h
    · simp only [Function.update_of_ne same] at h
      exact inv.context c' ctx h

variable [DecidableEq δ] [DecidableEq ω] [DecidableEq τ]

theorem storeOwned_acquire (inv : StoreOwned domain worker uuid4 s) {c : κ}
    (h : lockNext domain worker uuid4 s (.acquire c) = some s') : StoreOwned domain worker uuid4 s' := by
  simp only [lockNext] at h
  split at h
  next alive waits =>
    cases Option.some.inj h
    rcases DomainLock.acquire_cases s.now (uuid4 c) (s.store (domain c)) with held | ⟨_, taken⟩
    · rw [held]
      refine inv.update ?_ ?_
      · intro key hk
        refine Or.inl (inv.other_owner hk ?_)
        rintro ⟨_, crashed | entered⟩
        · rw [alive] at crashed
          cases crashed
        · rw [waits] at entered
          cases entered
      · intro context he
        cases he
        exact Or.inr rfl
    · rw [taken]
      refine inv.update ?_ ?_
      · intro key hk
        cases (live_eq_some_iff.mp hk).1
        exact Or.inr ⟨rfl, rfl⟩
      · intro context he
        cases he
        exact Or.inl rfl
  next => cases h

theorem storeOwned_leave (inv : StoreOwned domain worker uuid4 s) {c : κ}
    (h : lockNext domain worker uuid4 s (.leave c) = some s') : StoreOwned domain worker uuid4 s' := by
  simp only [lockNext] at h
  split at h
  next token alive entered =>
    cases Option.some.inj h
    have kept : Function.update s.stage c (s.stage c) = s.stage := Function.update_eq_self c s.stage
    have moved : StoreOwned domain worker uuid4 { s with
        store := Function.update s.store (domain c) (DomainLock.release s.now token (s.store (domain c))).1
        stage := Function.update s.stage c (s.stage c) } := by
      refine inv.update ?_ (inv.context c)
      intro key hk
      obtain ⟨before, foreign⟩ := DomainLock.release_foreign hk
      refine Or.inl (inv.other_owner before ?_)
      rintro ⟨own, _⟩
      rcases inv.context c _ entered with same | same
      · cases same
        exact foreign own
      · cases same
    rwa [kept] at moved
  next => cases Option.some.inj h; exact inv
  next => cases h

theorem storeOwned_exit (inv : StoreOwned domain worker uuid4 s) {c : κ}
    (h : lockNext domain worker uuid4 s (.exit c) = some s') : StoreOwned domain worker uuid4 s' := by
  simp only [lockNext] at h
  split at h
  next context alive entered =>
    split at h
    next =>
      cases Option.some.inj h
      refine inv.update ?_ (by intro _ he; cases he)
      intro key hk
      obtain ⟨before, foreign⟩ := DomainLock.release_foreign hk
      exact Or.inl (inv.other_owner before fun own => foreign own.1)
    next refused =>
      cases Option.some.inj h
      have kept : Function.update s.store (domain c) (s.store (domain c)) = s.store :=
        Function.update_eq_self (domain c) s.store
      have moved : StoreOwned domain worker uuid4 { s with
          store := Function.update s.store (domain c) (s.store (domain c))
          stage := Function.update s.stage c (.exited none) } := by
        refine inv.update ?_ (by intro _ he; cases he)
        intro key hk
        refine Or.inl (inv.other_owner hk ?_)
        rintro ⟨_, crashed | inside⟩
        · rw [alive] at crashed
          cases crashed
        · rw [entered] at inside
          cases inside
          exact refused rfl
      rwa [kept] at moved
  next => cases h

theorem storeOwned_step (inv : StoreOwned domain worker uuid4 s) {step : LockStep δ ω κ}
    (h : lockNext domain worker uuid4 s step = some s') : StoreOwned domain worker uuid4 s' := by
  cases step with
  | acquire c => exact storeOwned_acquire inv h
  | leave c => exact storeOwned_leave inv h
  | exit c => exact storeOwned_exit inv h
  | tick elapsed =>
    cases Option.some.inj h
    refine ⟨?_, inv.context⟩
    intro d key hk
    have later : s.now ≤ s.now + elapsed := Int.le_add_of_nonneg_right (Int.natCast_nonneg elapsed)
    exact inv.owner d key (live_earlier later hk)
  | evict d =>
    cases Option.some.inj h
    refine ⟨?_, inv.context⟩
    intro d' key hk
    apply inv.owner d' key
    by_cases same : d' = d
    · subst same
      simp only [Function.update_self] at hk
      exact (live_eq_some_iff.mp hk).1
    · simpa only [Function.update_of_ne same] using hk
  | crash w =>
    cases Option.some.inj h
    refine ⟨?_, inv.context⟩
    intro d key hk
    obtain ⟨c, token, place, owned⟩ := inv.owner d key hk
    refine ⟨c, token, place, ?_⟩
    rcases owned with crashed | entered
    · left
      by_cases same : worker c = w
      · simp [same]
      · simpa [Function.update_of_ne same] using crashed
    · exact Or.inr entered

theorem storeOwned {now : Instant} {trace : List (LockState δ ω κ τ × LockStep δ ω κ)}
    (run : Run (lockNext domain worker uuid4) (lockInit now) trace s) : StoreOwned domain worker uuid4 s :=
  run.invariant (storeOwned_init now) fun inv h => storeOwned_step inv h

/-- A context whose token is the stored one, unexpired. -/
def Holder (domain : κ → δ) (uuid4 : κ → τ) (s : LockState δ ω κ τ) (c : κ) : Prop :=
  s.stage c = .entered ⟨some (uuid4 c), true⟩ ∧ ∃ expiresAt, live s.now (s.store (domain c)) = some ⟨uuid4 c, expiresAt⟩

/-- A worker that has crashed no more runs anything; of the others, all
contexts that were entered have exited. -/
def AllExited (worker : κ → ω) (s : LockState δ ω κ τ) (w : ω) : Prop :=
  s.crashed w = false ∧ ∀ c context, worker c = w → s.stage c ≠ .entered context

omit [DecidableEq κ] [DecidableEq ω] in
/-- A command that releases by the token of a context. -/
theorem released_store {token : τ} {c : κ} {d : δ}
    (changed : Function.update s.store (domain c)
      (DomainLock.release s.now token (s.store (domain c))).1 d ≠ s.store d) :
    d = domain c ∧ Function.update s.store (domain c)
        (DomainLock.release s.now token (s.store (domain c))).1 d = none ∧
      ∃ expiresAt, live s.now (s.store d) = some ⟨token, expiresAt⟩ := by
  by_cases same : d = domain c
  · subst same
    rw [Function.update_self] at changed ⊢
    rcases DomainLock.release_cases s.now token (s.store (domain c)) with ⟨kept, _⟩ | ⟨expiresAt, own, gone⟩
    · rw [kept] at changed
      exact absurd rfl changed
    · exact ⟨rfl, by rw [gone], expiresAt, own⟩
  · rw [Function.update_of_ne same] at changed
    exact absurd rfl changed

theorem exit_store {c : κ} (h : lockNext domain worker uuid4 s (.exit c) = some s') {d : δ}
    (changed : s'.store d ≠ s.store d) : d = domain c ∧ s'.store d = none ∧
      ∃ expiresAt, live s.now (s.store d) = some ⟨uuid4 c, expiresAt⟩ := by
  simp only [lockNext] at h
  split at h
  next =>
    split at h
    next =>
      cases Option.some.inj h
      exact released_store changed
    next =>
      cases Option.some.inj h
      exact absurd rfl changed
  next => cases h

theorem leave_store (inv : StoreOwned domain worker uuid4 s) {c : κ}
    (h : lockNext domain worker uuid4 s (.leave c) = some s') {d : δ} (changed : s'.store d ≠ s.store d) :
    d = domain c ∧ s'.store d = none ∧ ∃ expiresAt, live s.now (s.store d) = some ⟨uuid4 c, expiresAt⟩ := by
  simp only [lockNext] at h
  split at h
  next token _ entered =>
    cases Option.some.inj h
    rcases inv.context c _ entered with own | other
    · cases own
      exact released_store changed
    · cases other
  next =>
    cases Option.some.inj h
    exact absurd rfl changed
  next => cases h

/-- A release that comes too late answers False and leaves the store alone. -/
theorem exit_of_foreign {c : κ} {key : Key τ} (h : lockNext domain worker uuid4 s (.exit c) = some s')
    (entered : s.stage c = .entered ⟨some (uuid4 c), true⟩)
    (taken : live s.now (s.store (domain c)) = some key) (foreign : key.token ≠ uuid4 c) :
    s'.stage c = .exited (some false) ∧ s'.store = s.store := by
  have late : DomainLock.release s.now (uuid4 c) (s.store (domain c)) = (s.store (domain c), false) := by
    apply DomainLock.release_of_foreign
    intro found hf
    cases Option.some.inj (taken.symm.trans hf)
    exact foreign
  simp only [lockNext, entered] at h
  split at h
  next context _ same =>
    cases same
    rw [if_pos rfl, late] at h
    cases Option.some.inj h
    exact ⟨Function.update_self .., Function.update_eq_self ..⟩
  next => cases h

/-- Who owns the key of a domain, in every state that a run reaches. -/
theorem lock_ownership (unique : Function.Injective uuid4) {now : Instant}
    {trace : List (LockState δ ω κ τ × LockStep δ ω κ)}
    (run : Run (lockNext domain worker uuid4) (lockInit now) trace s) :
    (∀ c u, lockNext domain worker uuid4 s (.exit c) = some u ∨ lockNext domain worker uuid4 s (.leave c) = some u →
      ∀ d, u.store d ≠ s.store d → d = domain c ∧ u.store d = none ∧
        ∃ expiresAt, live s.now (s.store d) = some ⟨uuid4 c, expiresAt⟩) ∧
    (∀ c u key, lockNext domain worker uuid4 s (.exit c) = some u →
      s.stage c = .entered ⟨some (uuid4 c), true⟩ → live s.now (s.store (domain c)) = some key →
      key.token ≠ uuid4 c → u.stage c = .exited (some false) ∧ u.store = s.store) ∧
    (∀ c c', Holder domain uuid4 s c → Holder domain uuid4 s c' → domain c = domain c' → c = c') ∧
    (∀ w, AllExited worker s w → ∀ d key, live s.now (s.store d) = some key →
      ∀ c, worker c = w → key.token ≠ uuid4 c) := by
  have inv := storeOwned run
  refine ⟨?_, ?_, ?_, ?_⟩
  · rintro c u (h | h) d changed
    · exact exit_store h changed
    · exact leave_store inv h changed
  · intro c u key h entered taken foreign
    exact exit_of_foreign h entered taken foreign
  · rintro c c' ⟨_, _, h⟩ ⟨_, _, h'⟩ same
    rw [same] at h
    exact unique (congrArg Key.token (Option.some.inj (h.symm.trans h')))
  · rintro w ⟨alive, exited⟩ d key hk c mine own
    obtain ⟨c', token, _, owned⟩ := inv.owner d key hk
    have same : c' = c := unique (token.trans own)
    subst same
    rcases owned with crashed | entered
    · rw [mine, alive] at crashed
      cases crashed
    · exact exited c' _ mine entered

end Lock

/-- The first context stays until its lock has expired and another one has it. -/
def lateReleaseSteps {δ ω κ : Type*} (first second : κ) : List (LockStep δ ω κ) :=
  [.acquire first, .tick 60000000, .acquire second]

theorem lock_ownership_late : ∃ s u,
    exec (lockNext (fun _ => (11 : DomainId)) id id) (lockInit 0) (lateReleaseSteps (0 : Fin 2) 1) = some s ∧
      lockNext (fun _ => (11 : DomainId)) id id s (.exit 0) = some u ∧
      u.stage 0 = .exited (some false) ∧ u.store = s.store := by
  obtain ⟨s, reached⟩ : ∃ s, exec (lockNext (fun _ => (11 : DomainId)) id id) (lockInit 0)
      (lateReleaseSteps (0 : Fin 2) 1) = some s := ⟨_, rfl⟩
  have entered : (exec (lockNext (fun _ => (11 : DomainId)) id id) (lockInit 0)
      (lateReleaseSteps (0 : Fin 2) 1)).map (fun s => s.stage 0) = some (.entered ⟨some 0, true⟩) := rfl
  have taken : (exec (lockNext (fun _ => (11 : DomainId)) id id) (lockInit 0)
      (lateReleaseSteps (0 : Fin 2) 1)).map (fun s => (live s.now (s.store 11)).map Key.token) =
        some (some 1) := by decide +kernel
  have enabled : (exec (lockNext (fun _ => (11 : DomainId)) id id) (lockInit 0)
      (lateReleaseSteps (0 : Fin 2) 1)).map
        (fun s => (lockNext (fun _ => (11 : DomainId)) id id s (.exit 0)).isSome) = some true := by
    decide +kernel
  rw [reached] at entered taken enabled
  obtain ⟨u, exits⟩ := Option.isSome_iff_exists.mp (Option.some.inj enabled)
  obtain ⟨key, stored, token⟩ := Option.map_eq_some_iff.mp (Option.some.inj taken)
  have foreign : key.token ≠ id (0 : Fin 2) := by simp [token]
  exact ⟨s, u, reached, exits, (lock_ownership Function.injective_id (exec_run reached)).2.1 0 u key exits
    (Option.some.inj entered) stored foreign⟩

end DomainProcessing
