import Mathlib.Logic.Function.Basic

namespace ExpiringLock

/-- A key that holds the token of its owner until it expires. -/
structure Key (τ : Type*) where
  token : τ
  expiresAt : Int

variable {τ : Type*}

/-- `SET key token NX PX ttl`; `none` when the key exists. -/
def setNx (now ttl : Int) (token : τ) : Option (Key τ) → Option (Key τ)
  | none => some ⟨token, now + ttl⟩
  | some key => if now < key.expiresAt then none else some ⟨token, now + ttl⟩

/-- `GET`, then `DEL` when the stored token is the caller's. -/
def compareAndDelete [DecidableEq τ] (now : Int) (token : τ) (stored : Option (Key τ)) :
    Option (Key τ) :=
  stored.filter fun key => !(decide (now < key.expiresAt) && decide (key.token = token))

def Holds (stored : Option (Key τ)) (token : τ) : Prop := ∃ expiresAt, stored = some ⟨token, expiresAt⟩

/-- The key has not expired, if it is held with this token. -/
def Unexpired (stored : Option (Key τ)) (now : Int) (token : τ) : Prop :=
  ∀ key, stored = some key → key.token = token → now < key.expiresAt

instance [DecidableEq τ] (stored : Option (Key τ)) (now : Int) (token : τ) :
    Decidable (Unexpired stored now token) :=
  match stored with
  | none => isTrue (fun _ h => by cases h)
  | some key => decidable_of_iff (key.token = token → now < key.expiresAt)
      ⟨fun h k hk => by cases Option.some.inj hk; exact h, fun h => h key rfl⟩

variable {stored : Option (Key τ)} {key : Key τ} {now ttl : Int} {token other : τ}

theorem Holds.unique (h : Holds stored token) (h' : Holds stored other) : token = other := by
  obtain ⟨_, h⟩ := h
  obtain ⟨_, h'⟩ := h'
  exact congrArg Key.token (Option.some.inj (h.symm.trans h'))

theorem setNx_eq_some (h : setNx now ttl token stored = some key) : key = ⟨token, now + ttl⟩ := by
  unfold setNx at h
  split at h
  next => exact (Option.some.inj h).symm
  next =>
    split at h
    next => cases h
    next => exact (Option.some.inj h).symm

theorem setNx_holds (h : setNx now ttl token stored = some key) : Holds (some key) token := by
  rw [setNx_eq_some h]
  exact ⟨_, rfl⟩

/-- Nobody takes a lock that is held and has not expired. -/
theorem Holds.setNx_eq_none (h : Holds stored token) (alive : Unexpired stored now token) :
    setNx now ttl other stored = none := by
  obtain ⟨expiresAt, rfl⟩ := h
  have before : now < expiresAt := alive _ rfl rfl
  exact if_pos before

/-- Nobody releases the lock of somebody else. -/
theorem Holds.compareAndDelete [DecidableEq τ] (h : Holds stored token) (hne : token ≠ other) :
    Holds (compareAndDelete now other stored) token := by
  obtain ⟨expiresAt, rfl⟩ := h
  refine ⟨expiresAt, ?_⟩
  simp [ExpiringLock.compareAndDelete, hne]

/-- What `GET` sees: an expired key is gone. -/
def live (now : Int) (stored : Option (Key τ)) : Option (Key τ) :=
  stored.filter fun key => decide (now < key.expiresAt)

theorem live_eq_some_iff : live now stored = some key ↔ stored = some key ∧ now < key.expiresAt := by
  simp [live, Option.filter_eq_some_iff]

/-- A key that is seen later was there before. -/
theorem live_earlier {later : Int} (le : now ≤ later) (h : live later stored = some key) :
    live now stored = some key := by
  obtain ⟨same, alive⟩ := live_eq_some_iff.mp h
  exact live_eq_some_iff.mpr ⟨same, by omega⟩

/-- A key is taken only where none is seen. -/
theorem setNx_free (h : setNx now ttl token stored = some key) : live now stored = none := by
  unfold setNx at h
  split at h
  next => rfl
  next found =>
    split at h
    next => cases h
    next expired => simpa [live] using expired

/-- Sessions with distinct tokens exclude each other while each of them holds
the key. -/
theorem exclusive {ω : Type*} {tokenOf : ω → τ} (unique : Function.Injective tokenOf)
    {inside : ω → Prop} (holds : ∀ w, inside w → Holds stored (tokenOf w)) {w w' : ω}
    (h : inside w) (h' : inside w') : w = w' :=
  unique ((holds w h).unique (holds w' h'))

end ExpiringLock
