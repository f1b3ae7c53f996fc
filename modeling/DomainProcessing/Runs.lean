import Mathlib.Data.List.Basic
import Mathlib.Order.Bounds.Basic

namespace Runs

/-- Runs of a partial step function. The trace keeps every step with the state
it was taken in, the latest step first. -/
inductive Run {σ α : Type*} (next : σ → α → Option σ) (s : σ) : List (σ × α) → σ → Prop
  | start : Run next s [] s
  | step {trace t a u} : Run next s trace t → next t a = some u → Run next s ((t, a) :: trace) u

variable {σ α : Type*} {next : σ → α → Option σ} {s t u : σ} {a : α} {trace later : List (σ × α)}

/-- The state after the actions of a list, when each of them is enabled. -/
def exec (next : σ → α → Option σ) : σ → List α → Option σ
  | s, [] => some s
  | s, a :: rest => (next s a).bind fun t => exec next t rest

theorem Run.trans (h : Run next s trace t) (h' : Run next t later u) :
    Run next s (later ++ trace) u := by
  induction h' with
  | start => exact h
  | step _ hs ih => exact Run.step ih hs

theorem exec_cons {rest : List α} (h : next s a = some t) :
    exec next s (a :: rest) = exec next t rest := by
  simp only [exec, h, Option.bind_some]

theorem exec_append {first rest : List α} (h : exec next s first = some t) :
    exec next s (first ++ rest) = exec next t rest := by
  induction first generalizing s with
  | nil =>
    cases Option.some.inj h
    rfl
  | cons a first ih =>
    obtain ⟨m, hm, hr⟩ := Option.bind_eq_some_iff.mp h
    rw [List.cons_append, exec_cons hm]
    exact ih hr

/-- The trace that `exec` leaves, the latest step first. -/
def steps (next : σ → α → Option σ) : σ → List α → List (σ × α)
  | _, [] => []
  | s, a :: rest =>
    match next s a with
    | none => [(s, a)]
    | some t => steps next t rest ++ [(s, a)]

theorem exec_run {actions : List α} (h : exec next s actions = some t) :
    Run next s (steps next s actions) t := by
  induction actions generalizing s with
  | nil =>
    cases Option.some.inj h
    exact Run.start
  | cons a rest ih =>
    obtain ⟨m, hm, hr⟩ := Option.bind_eq_some_iff.mp h
    simp only [steps, hm]
    exact (Run.step Run.start hm).trans (ih hr)

theorem steps_append {first rest : List α} (h : exec next s first = some t) :
    steps next s (first ++ rest) = steps next t rest ++ steps next s first := by
  induction first generalizing s with
  | nil =>
    cases Option.some.inj h
    exact (List.append_nil _).symm
  | cons b first ih =>
    obtain ⟨m, hm, hr⟩ := Option.bind_eq_some_iff.mp h
    simp only [List.cons_append, steps, hm]
    rw [ih hr, List.append_assoc]

theorem steps_concat {actions : List α} (h : exec next s actions = some t) (a : α) :
    steps next s (actions ++ [a]) = (t, a) :: steps next s actions := by
  rw [steps_append h]
  simp only [steps]
  split <;> rfl

theorem steps_all (ok : σ → α → Prop) {actions : List α} (h : ∀ a ∈ actions, ∀ s, ok s a) :
    ∀ p ∈ steps next s actions, ok p.1 p.2 := by
  induction actions generalizing s with
  | nil => simp [steps]
  | cons a rest ih =>
    obtain ⟨ha, hrest⟩ := List.forall_mem_cons.mp h
    intro p hp
    unfold steps at hp
    split at hp
    next => rw [List.mem_singleton.mp hp]; exact ha s
    next =>
      rcases List.mem_append.mp hp with hp | hp
      · exact ih hrest p hp
      · rw [List.mem_singleton.mp hp]; exact ha s

/-- The invariant rule for runs all of whose steps meet a condition on the
action and the state before it. -/
theorem Run.guarded {P : σ → Prop} (ok : σ → α → Prop) (run : Run next s trace t) (init : P s)
    (keep : ∀ {t a u}, P t → ok t a → next t a = some u → P u)
    (guard : ∀ p ∈ trace, ok p.1 p.2) : P t := by
  induction run with
  | start => exact init
  | step _ hs ih =>
    have before := ih (fun p hp => guard p (List.mem_cons_of_mem _ hp))
    exact keep before (guard _ List.mem_cons_self) hs

theorem Run.invariant {P : σ → Prop} (run : Run next s trace t) (init : P s)
    (keep : ∀ {t a u}, P t → next t a = some u → P u) : P t :=
  run.guarded (fun _ _ => True) init (fun h _ hs => keep h hs) (fun _ _ => trivial)

theorem Run.everywhere {P : σ → Prop} (run : Run next s trace t) (init : P s)
    (keep : ∀ {t a u}, P t → next t a = some u → P u) : ∀ p ∈ trace, P p.1 := by
  induction run with
  | start => simp
  | step run h ih =>
    simp only [List.forall_mem_cons]
    exact ⟨run.invariant init keep, ih⟩

/-- When a step keeps `P` exactly if it meets a condition, `P` holds all along a
run exactly if every step meets it. -/
theorem Run.exact {P : σ → Prop} (ok : σ → α → Prop) (run : Run next s trace t) (init : P s)
    (keep : ∀ {t a u}, P t → next t a = some u → (P u ↔ ok t a)) :
    ((∀ p ∈ trace, P p.1) ∧ P t) ↔ ∀ p ∈ trace, ok p.1 p.2 := by
  induction run with
  | start => simp [init]
  | step run h ih =>
    simp only [List.forall_mem_cons]
    constructor
    · rintro ⟨⟨ht, before⟩, hu⟩
      exact ⟨(keep ht h).mp hu, ih.mp ⟨before, ht⟩⟩
    · rintro ⟨hok, guard⟩
      obtain ⟨before, ht⟩ := ih.mpr guard
      exact ⟨⟨ht, before⟩, (keep ht h).mpr hok⟩

/-- When a step leads to `P` exactly if it starts in `P` and meets a condition, a
run ends in `P` exactly if every step meets it. -/
theorem Run.ends_iff {I P : σ → Prop} (ok : σ → α → Prop) (run : Run next s trace t) (inv : I s)
    (init : P s) (keep : ∀ {t a u}, I t → next t a = some u → I u)
    (exact_step : ∀ {t a u}, I t → next t a = some u → (P u ↔ P t ∧ ok t a)) :
    P t ↔ ∀ p ∈ trace, ok p.1 p.2 := by
  induction run with
  | start => simp [init]
  | step run h ih =>
    have before := run.invariant inv keep
    simp only [List.forall_mem_cons]
    rw [exact_step before h, ih]
    exact and_comm

/-- A mark that every step raises to the measure of the state it leads to is the
greatest measure of all states so far. -/
theorem Run.isGreatest_mark {β : Type*} [LinearOrder β] {measure mark : σ → β}
    (run : Run next s trace t) (init : mark s = measure s)
    (raise : ∀ {t a u}, measure t ≤ mark t → next t a = some u → mark u = max (measure u) (mark t)) :
    IsGreatest {x | x ∈ measure t :: trace.map fun p => measure p.1} (mark t) := by
  induction run with
  | start =>
    rw [init]
    simp only [List.map_nil, List.mem_singleton]
    exact isGreatest_singleton
  | @step trace t a u _ h ih =>
    have below : measure t ≤ mark t := ih.2 List.mem_cons_self
    have split : {x | x ∈ measure u :: ((t, a) :: trace).map fun p => measure p.1} =
        insert (measure u) {x | x ∈ measure t :: trace.map fun p => measure p.1} :=
      Set.ext fun _ => List.mem_cons
    rw [split, raise below h]
    exact ih.insert (measure u)

/-- A run passes through the state that any earlier part of its trace leads to. -/
theorem Run.of_append (run : Run next s (later ++ trace) u) :
    ∃ t, Run next s trace t ∧ Run next t later u := by
  induction later generalizing u with
  | nil => exact ⟨u, run, Run.start⟩
  | cons p later ih =>
    cases run with
    | step run h =>
      obtain ⟨t, first, rest⟩ := ih run
      exact ⟨t, first, rest.step h⟩

/-- A run seen through a view of its states is a run of the system that takes
the seen steps. -/
theorem Run.map {σ' α' : Type*} {next' : σ' → α' → Option σ'} (view : σ → σ') (act : σ → α → α')
    (sim : ∀ {t a u}, next t a = some u → next' (view t) (act t a) = some (view u))
    (run : Run next s trace t) :
    Run next' (view s) (trace.map fun p => (view p.1, act p.1 p.2)) (view t) := by
  induction run with
  | start => exact Run.start
  | step _ h ih => exact ih.step (sim h)

end Runs
