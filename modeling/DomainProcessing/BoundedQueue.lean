import Mathlib.Data.List.Basic

namespace DomainProcessing

structure QueueStats where
  capacity : Nat
  size : Nat
  maxSizeReached : Nat
  totalEnqueued : Nat
  totalDequeued : Nat

/-- The queue between the `TaskManager` and its workers. `items` are those of the
`asyncio.Queue`, the oldest first. -/
structure BoundedQueue (α : Type*) where
  items : List α
  capacity : Nat
  stats : QueueStats
  capacity_pos : 0 < capacity
  bounded : items.length ≤ capacity

namespace BoundedQueue

variable {α : Type*} {q q' : BoundedQueue α} {item : α}

/-- `BoundedQueue.__init__`, which raises on a capacity that is not positive. -/
def new (α : Type*) (capacity : Nat) : Except String (BoundedQueue α) :=
  if positive : 0 < capacity then
    .ok ⟨[], capacity, ⟨capacity, 0, 0, 0, 0⟩, positive, Nat.zero_le capacity⟩
  else .error "Queue capacity must be positive"

def size (q : BoundedQueue α) : Nat := q.items.length

def availableCapacity (q : BoundedQueue α) : Nat := q.capacity - q.size

/-- `put`, which waits while the queue is full. -/
def put (q : BoundedQueue α) (item : α) : Option (BoundedQueue α) :=
  if room : q.items.length < q.capacity then
    let size := q.items.length + 1
    some { q with
      items := q.items ++ [item]
      stats := { q.stats with
        size := size
        totalEnqueued := q.stats.totalEnqueued + 1
        maxSizeReached := if q.stats.maxSizeReached < size then size else q.stats.maxSizeReached }
      bounded := by
        rw [List.length_append, List.length_singleton]
        exact room }
  else none

/-- `get`, which waits while the queue is empty. -/
def get (q : BoundedQueue α) : Option (α × BoundedQueue α) :=
  match some_items : q.items with
  | [] => none
  | item :: rest => some (item, { q with
      items := rest
      stats := { q.stats with
        size := rest.length
        totalDequeued := q.stats.totalDequeued + 1 }
      bounded := by
        have bound := q.bounded
        rw [some_items, List.length_cons] at bound
        omega })

theorem new_eq {capacity : Nat} (made : new α capacity = .ok q) :
    ∃ positive : 0 < capacity,
      q = ⟨[], capacity, ⟨capacity, 0, 0, 0, 0⟩, positive, Nat.zero_le capacity⟩ := by
  unfold new at made
  split at made
  next positive => exact ⟨positive, (Except.ok.inj made).symm⟩
  next => cases made

theorem size_add_available (q : BoundedQueue α) : q.size + q.availableCapacity = q.capacity :=
  Nat.add_sub_cancel' q.bounded

theorem put_eq (h : q.put item = some q') :
    q.items.length < q.capacity ∧ q'.items = q.items ++ [item] ∧ q'.capacity = q.capacity := by
  unfold put at h
  split at h
  next room =>
    cases Option.some.inj h
    exact ⟨room, rfl, rfl⟩
  next => cases h

theorem put_of_room (room : 0 < q.availableCapacity) (item : α) :
    ∃ q', q.put item = some q' ∧ q'.items = q.items ++ [item] := by
  have free : q.items.length < q.capacity := by
    unfold availableCapacity size at room
    omega
  exact ⟨_, dif_pos free, rfl⟩

theorem get_eq (h : q.get = some (item, q')) :
    q.items = item :: q'.items ∧ q'.capacity = q.capacity := by
  unfold get at h
  split at h
  next => cases h
  next items =>
    cases Option.some.inj h
    exact ⟨items, rfl⟩

theorem get_of_items {rest : List α} (items : q.items = item :: rest) :
    ∃ q', q.get = some (item, q') := by
  unfold get
  split
  next none_left => rw [items] at none_left; cases none_left
  next first others all =>
    rw [items] at all
    cases all
    exact ⟨_, rfl⟩

end BoundedQueue

end DomainProcessing
