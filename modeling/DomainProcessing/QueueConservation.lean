import DomainProcessing.BoundedQueue
import DomainProcessing.Runs
import Mathlib.Data.List.Perm.Basic
import Mathlib.Order.Bounds.Basic

open Runs

namespace DomainProcessing

/-- What a call on the queue can raise; a call that waits can be cancelled. -/
inductive QueueException where
  | queueFull
  | queueEmpty
  | cancelledError
  deriving DecidableEq

namespace BoundedQueue

variable {α : Type*} {q q' : BoundedQueue α} {item : α}

theorem concat_bounded (room : q.items.length < q.capacity) (item : α) :
    (q.items ++ [item]).length ≤ q.capacity := by
  rw [List.length_append, List.length_singleton]
  exact room

theorem rest_bounded {rest : List α} (items : q.items = item :: rest) :
    rest.length ≤ q.capacity := by
  have bound := q.bounded
  rw [items, List.length_cons] at bound
  omega

/-- `self._queue.put_nowait(item)` -/
def queuePutNowait (q : BoundedQueue α) (item : α) : BoundedQueue α × Except QueueException Unit :=
  if room : q.items.length < q.capacity then
    ({ q with items := q.items ++ [item], bounded := concat_bounded room item }, .ok ())
  else (q, .error .queueFull)

/-- `self._queue.get_nowait()` -/
def queueGetNowait (q : BoundedQueue α) : BoundedQueue α × Except QueueException α :=
  match some_items : q.items with
  | [] => (q, .error .queueEmpty)
  | item :: rest => ({ q with items := rest, bounded := rest_bounded some_items }, .ok item)

def countPut (q : BoundedQueue α) : BoundedQueue α :=
  { q with
    stats := { q.stats with
      size := q.size
      totalEnqueued := q.stats.totalEnqueued + 1
      maxSizeReached :=
        if q.stats.maxSizeReached < q.size then q.size else q.stats.maxSizeReached } }

def countGet (q : BoundedQueue α) : BoundedQueue α :=
  { q with
    stats := { q.stats with
      size := q.size
      totalDequeued := q.stats.totalDequeued + 1 } }

/-- The exception of the inner queue passes through before the statistics are
touched. -/
def putNowait (q : BoundedQueue α) (item : α) : BoundedQueue α × Except QueueException Unit :=
  match q.queuePutNowait item with
  | (q, .ok ()) => (q.countPut, .ok ())
  | (q, .error e) => (q, .error e)

def getNowait (q : BoundedQueue α) : BoundedQueue α × Except QueueException α :=
  match q.queueGetNowait with
  | (q, .ok item) => (q.countGet, .ok item)
  | (q, .error e) => (q, .error e)

theorem putNowait_of_put (h : q.put item = some q') : q.putNowait item = (q', .ok ()) := by
  obtain ⟨room, _, _⟩ := put_eq h
  unfold put at h
  rw [dif_pos room] at h
  cases Option.some.inj h
  unfold putNowait queuePutNowait
  rw [dif_pos room]
  simp only [countPut, size, List.length_append, List.length_singleton]

theorem putNowait_of_full (h : q.put item = none) :
    q.putNowait item = (q, .error .queueFull) := by
  unfold put at h
  split at h
  next => cases h
  next full =>
    unfold putNowait queuePutNowait
    rw [dif_neg full]

theorem getNowait_of_get (h : q.get = some (item, q')) : q.getNowait = (q', .ok item) := by
  obtain ⟨items, capacity, stats, capacity_pos, bounded⟩ := q
  cases items with
  | nil => cases h
  | cons first rest =>
    cases Option.some.inj h
    rfl

theorem getNowait_of_empty (h : q.get = none) : q.getNowait = (q, .error .queueEmpty) := by
  obtain ⟨items, capacity, stats, capacity_pos, bounded⟩ := q
  cases items with
  | nil => rfl
  | cons first rest => cases h

/-- The statistics after an item went in. -/
theorem put_stats (h : q.put item = some q') :
    q'.stats.size = q'.size ∧ q'.stats.totalEnqueued = q.stats.totalEnqueued + 1 ∧
      q'.stats.totalDequeued = q.stats.totalDequeued ∧
      q'.stats.maxSizeReached = max q'.size q.stats.maxSizeReached := by
  unfold put at h
  split at h
  next room =>
    cases Option.some.inj h
    have length : (q.items ++ [item]).length = q.items.length + 1 := by
      rw [List.length_append, List.length_singleton]
    refine ⟨length.symm, rfl, rfl, ?_⟩
    simp only [size, length]
    split <;> omega
  next => cases h

theorem get_stats (h : q.get = some (item, q')) :
    q'.stats.size = q'.size ∧ q'.stats.totalEnqueued = q.stats.totalEnqueued ∧
      q'.stats.totalDequeued = q.stats.totalDequeued + 1 ∧
      q'.stats.maxSizeReached = q.stats.maxSizeReached := by
  obtain ⟨items, capacity, stats, capacity_pos, bounded⟩ := q
  cases items with
  | nil => cases h
  | cons first rest =>
    cases Option.some.inj h
    exact ⟨rfl, rfl, rfl, rfl⟩

end BoundedQueue

/-- What a call has come to. -/
inductive CallResult (α : Type*) where
  | put (item : α)
  | got (item : α)
  | putRaised (item : α) (e : QueueException)
  | getRaised (e : QueueException)

namespace CallResult

variable {α : Type*}

def entered : CallResult α → Option α
  | .put item => some item
  | _ => none

def left : CallResult α → Option α
  | .got item => some item
  | _ => none

def refused : CallResult α → Option α
  | .putRaised item _ => some item
  | _ => none

def raised : CallResult α → Option QueueException
  | .putRaised _ e | .getRaised e => some e
  | _ => none

end CallResult

/-- A queue in use: the items of the puts that wait, the number of gets that
wait, and what the calls have come to, the first result first. -/
structure QueueUse (α : Type*) where
  queue : BoundedQueue α
  putters : List α
  getters : Nat
  results : List (CallResult α)

/-- The calls on the queue, and what the event loop does to those that wait. -/
inductive QueueCall (α : Type*) where
  | put (item : α)
  | get
  | putNowait (item : α)
  | getNowait
  | wakePut (putter : Nat)
  | wakeGet
  | cancelPut (putter : Nat)
  | cancelGet

def QueueCall.item {α : Type*} : QueueCall α → Option α
  | .put item | .putNowait item => some item
  | _ => none

namespace QueueUse

variable {α : Type*}

def start (queue : BoundedQueue α) : QueueUse α := ⟨queue, [], 0, []⟩

def wentIn (s : QueueUse α) : List α := s.results.filterMap CallResult.entered

def cameOut (s : QueueUse α) : List α := s.results.filterMap CallResult.left

def turnedAway (s : QueueUse α) : List α := s.results.filterMap CallResult.refused

def finish (s : QueueUse α) (queue : BoundedQueue α) (result : CallResult α) : QueueUse α :=
  { s with queue := queue, results := s.results ++ [result] }

end QueueUse

variable {α : Type*} {s t u : QueueUse α} {call : QueueCall α}

/-- `put` with the loop of `asyncio.Queue.put`, which waits as long as the queue
is full: `waiting` is the state in which the call waits. Nothing is awaited between
the insertion and the statistics. -/
def callPut (s : QueueUse α) (item : α) (waiting : QueueUse α) : QueueUse α :=
  match s.queue.put item with
  | some queue => s.finish queue (.put item)
  | none => waiting

def callGet (s waiting : QueueUse α) : QueueUse α :=
  match s.queue.get with
  | some (item, queue) => s.finish queue (.got item)
  | none => waiting

def callPutNowait (s : QueueUse α) (item : α) : QueueUse α :=
  match s.queue.putNowait item with
  | (queue, .ok ()) => s.finish queue (.put item)
  | (queue, .error e) => s.finish queue (.putRaised item e)

def callGetNowait (s : QueueUse α) : QueueUse α :=
  match s.queue.getNowait with
  | (queue, .ok item) => s.finish queue (.got item)
  | (queue, .error e) => s.finish queue (.getRaised e)

/-- The event loop may wake any call that waits, which goes on waiting when the
queue is full, or empty, again. -/
def callNext (s : QueueUse α) : QueueCall α → Option (QueueUse α)
  | .put item => some (callPut s item { s with putters := s.putters ++ [item] })
  | .get => some (callGet s { s with getters := s.getters + 1 })
  | .putNowait item => some (callPutNowait s item)
  | .getNowait => some (callGetNowait s)
  | .wakePut putter => s.putters[putter]?.map fun item =>
      callPut { s with putters := s.putters.eraseIdx putter } item s
  | .wakeGet =>
    if 0 < s.getters then some (callGet { s with getters := s.getters - 1 } s) else none
  | .cancelPut putter => s.putters[putter]?.map fun item =>
      { s with putters := s.putters.eraseIdx putter }.finish s.queue (.putRaised item .cancelledError)
  | .cancelGet =>
    if 0 < s.getters then
      some ({ s with getters := s.getters - 1 }.finish s.queue (.getRaised .cancelledError))
    else none

/-- All that a step can do to the queue and the results. -/
inductive CallEffect (s u : QueueUse α) : Prop
  | waits (queue : u.queue = s.queue) (results : u.results = s.results)
  | raises (result : CallResult α) (e : QueueException) (raised : result.raised = some e)
      (queue : u.queue = s.queue) (results : u.results = s.results ++ [result])
  | enters (item : α) (queue : s.queue.put item = some u.queue)
      (results : u.results = s.results ++ [.put item])
  | leaves (item : α) (queue : s.queue.get = some (item, u.queue))
      (results : u.results = s.results ++ [.got item])

theorem callPut_effect {item : α} (queue : t.queue = s.queue) (results : t.results = s.results)
    (waiting : CallEffect s u) : CallEffect s (callPut t item u) := by
  unfold callPut
  split
  next next_queue put =>
    rw [queue] at put
    exact .enters item put (by rw [QueueUse.finish, results])
  next => exact waiting

theorem callGet_effect (queue : t.queue = s.queue) (results : t.results = s.results)
    (waiting : CallEffect s u) : CallEffect s (callGet t u) := by
  unfold callGet
  split
  next item next_queue get =>
    rw [queue] at get
    exact .leaves item get (by rw [QueueUse.finish, results])
  next => exact waiting

theorem callPutNowait_effect (s : QueueUse α) (item : α) :
    CallEffect s (callPutNowait s item) := by
  unfold callPutNowait
  cases put : s.queue.put item with
  | some queue =>
    rw [BoundedQueue.putNowait_of_put put]
    exact .enters item put rfl
  | none =>
    rw [BoundedQueue.putNowait_of_full put]
    exact .raises (.putRaised item .queueFull) .queueFull rfl rfl rfl

theorem callGetNowait_effect (s : QueueUse α) : CallEffect s (callGetNowait s) := by
  unfold callGetNowait
  cases get : s.queue.get with
  | some pair =>
    obtain ⟨item, queue⟩ := pair
    rw [BoundedQueue.getNowait_of_get get]
    exact .leaves item get rfl
  | none =>
    rw [BoundedQueue.getNowait_of_empty get]
    exact .raises (.getRaised .queueEmpty) .queueEmpty rfl rfl rfl

theorem callNext_effect (h : callNext s call = some u) : CallEffect s u := by
  cases call with
  | put item =>
    cases Option.some.inj h
    exact callPut_effect rfl rfl (.waits rfl rfl)
  | get =>
    cases Option.some.inj h
    exact callGet_effect rfl rfl (.waits rfl rfl)
  | putNowait item =>
    cases Option.some.inj h
    exact callPutNowait_effect s item
  | getNowait =>
    cases Option.some.inj h
    exact callGetNowait_effect s
  | wakePut putter =>
    obtain ⟨item, _, rfl⟩ := Option.map_eq_some_iff.mp h
    exact callPut_effect rfl rfl (.waits rfl rfl)
  | wakeGet =>
    obtain ⟨_, woken⟩ := Option.ite_none_right_eq_some.mp h
    cases woken
    exact callGet_effect rfl rfl (.waits rfl rfl)
  | cancelPut putter =>
    obtain ⟨item, _, rfl⟩ := Option.map_eq_some_iff.mp h
    exact .raises (.putRaised item .cancelledError) .cancelledError rfl rfl rfl
  | cancelGet =>
    obtain ⟨_, cancelled⟩ := Option.ite_none_right_eq_some.mp h
    cases cancelled
    exact .raises (.getRaised .cancelledError) .cancelledError rfl rfl rfl

/-- What went in has come out, in the same order, but for what the queue holds,
and the statistics count it. -/
structure Conserved (capacity : Nat) (s : QueueUse α) : Prop where
  capacity_eq : s.queue.capacity = capacity
  order : s.wentIn = s.cameOut ++ s.queue.items
  enqueued : s.queue.stats.totalEnqueued = s.wentIn.length
  dequeued : s.queue.stats.totalDequeued = s.cameOut.length
  size : s.queue.stats.size = s.queue.size

theorem filterMap_results {β : Type*} {result : CallResult α} (f : CallResult α → Option β)
    (h : u.results = s.results ++ [result]) :
    u.results.filterMap f = s.results.filterMap f ++ (f result).toList := by
  rw [h, List.filterMap_append]
  cases value : f result with
  | none => rw [List.filterMap_cons_none value, List.filterMap_nil, Option.toList_none]
  | some b => rw [List.filterMap_cons_some value, List.filterMap_nil, Option.toList_some]

theorem conserved_start {capacity : Nat} {queue : BoundedQueue α}
    (made : BoundedQueue.new α capacity = .ok queue) : Conserved capacity (QueueUse.start queue) := by
  obtain ⟨positive, rfl⟩ := BoundedQueue.new_eq made
  exact ⟨rfl, rfl, rfl, rfl, rfl⟩

theorem conserved_of_same {capacity : Nat} (kept : Conserved capacity s) (queue : u.queue = s.queue)
    (wentIn : u.wentIn = s.wentIn) (cameOut : u.cameOut = s.cameOut) : Conserved capacity u := by
  constructor
  · rw [queue, kept.capacity_eq]
  · rw [queue, wentIn, cameOut, kept.order]
  · rw [queue, wentIn, kept.enqueued]
  · rw [queue, cameOut, kept.dequeued]
  · rw [queue, kept.size]

theorem entered_none_of_raised {result : CallResult α} {e : QueueException}
    (raised : result.raised = some e) : result.entered = none ∧ result.left = none := by
  cases result with
  | put item => cases raised
  | got item => cases raised
  | putRaised item e => exact ⟨rfl, rfl⟩
  | getRaised e => exact ⟨rfl, rfl⟩

theorem conserved_next {capacity : Nat} (kept : Conserved capacity s)
    (h : callNext s call = some u) : Conserved capacity u := by
  cases callNext_effect h with
  | waits queue results =>
    have wentIn : u.wentIn = s.wentIn := by rw [QueueUse.wentIn, results, QueueUse.wentIn]
    have cameOut : u.cameOut = s.cameOut := by rw [QueueUse.cameOut, results, QueueUse.cameOut]
    exact conserved_of_same kept queue wentIn cameOut
  | raises result e raised queue results =>
    obtain ⟨entered, left⟩ := entered_none_of_raised raised
    have wentIn : u.wentIn = s.wentIn ++ result.entered.toList := filterMap_results _ results
    have cameOut : u.cameOut = s.cameOut ++ result.left.toList := filterMap_results _ results
    rw [entered, Option.toList_none, List.append_nil] at wentIn
    rw [left, Option.toList_none, List.append_nil] at cameOut
    exact conserved_of_same kept queue wentIn cameOut
  | enters item queue results =>
    obtain ⟨_, items, capacity_eq⟩ := BoundedQueue.put_eq queue
    obtain ⟨size, enqueued, dequeued, _⟩ := BoundedQueue.put_stats queue
    have wentIn : u.wentIn = s.wentIn ++ [item] := filterMap_results _ results
    have cameOut : u.cameOut = s.cameOut ++ [] := filterMap_results _ results
    rw [List.append_nil] at cameOut
    constructor
    · rw [capacity_eq, kept.capacity_eq]
    · rw [wentIn, cameOut, items, kept.order, List.append_assoc]
    · rw [enqueued, wentIn, kept.enqueued, List.length_append, List.length_singleton]
    · rw [dequeued, cameOut, kept.dequeued]
    · exact size
  | leaves item queue results =>
    obtain ⟨items, capacity_eq⟩ := BoundedQueue.get_eq queue
    obtain ⟨size, enqueued, dequeued, _⟩ := BoundedQueue.get_stats queue
    have wentIn : u.wentIn = s.wentIn ++ [] := filterMap_results _ results
    have cameOut : u.cameOut = s.cameOut ++ [item] := filterMap_results _ results
    rw [List.append_nil] at wentIn
    constructor
    · rw [capacity_eq, kept.capacity_eq]
    · rw [wentIn, cameOut, kept.order, items, List.append_assoc, List.singleton_append]
    · rw [enqueued, wentIn, kept.enqueued]
    · rw [dequeued, cameOut, kept.dequeued, List.length_append, List.length_singleton]
    · exact size

theorem maxSizeReached_next (below : s.queue.size ≤ s.queue.stats.maxSizeReached)
    (h : callNext s call = some u) :
    u.queue.stats.maxSizeReached = max u.queue.size s.queue.stats.maxSizeReached := by
  cases callNext_effect h with
  | waits queue _ => rw [queue, max_eq_right below]
  | raises _ _ _ queue _ => rw [queue, max_eq_right below]
  | enters item queue _ => exact (BoundedQueue.put_stats queue).2.2.2
  | leaves item queue _ =>
    obtain ⟨items, _⟩ := BoundedQueue.get_eq queue
    have fewer : u.queue.size ≤ s.queue.size := by
      unfold BoundedQueue.size
      rw [items, List.length_cons]
      exact Nat.le_succ _
    rw [(BoundedQueue.get_stats queue).2.2.2, max_eq_right (fewer.trans below)]

theorem queue_of_raised {result : CallResult α} {e : QueueException} (h : callNext s call = some u)
    (results : u.results = s.results ++ [result]) (raised : result.raised = some e) :
    u.queue = s.queue := by
  cases callNext_effect h with
  | waits queue _ => exact queue
  | raises _ _ _ queue _ => exact queue
  | enters item _ entered =>
    rw [results] at entered
    cases List.append_cancel_left entered
    cases raised
  | leaves item _ left =>
    rw [results] at left
    cases List.append_cancel_left left
    cases raised

/-- The items of all puts, by where they are. -/
def QueueUse.places (s : QueueUse α) : List α := s.wentIn ++ s.putters ++ s.turnedAway

theorem finish_places (s : QueueUse α) (queue : BoundedQueue α) (result : CallResult α) :
    (s.finish queue result).places.Perm
      (result.entered.toList ++ result.refused.toList ++ s.places) := by
  have wentIn : (s.finish queue result).wentIn = s.wentIn ++ result.entered.toList :=
    filterMap_results _ rfl
  have turnedAway : (s.finish queue result).turnedAway = s.turnedAway ++ result.refused.toList :=
    filterMap_results _ rfl
  unfold QueueUse.places
  rw [wentIn, turnedAway]
  cases result with
  | put item =>
    simp only [CallResult.entered, CallResult.refused, Option.toList_some, Option.toList_none,
      List.append_nil, List.append_assoc]
    exact List.perm_middle
  | got item =>
    simp only [CallResult.entered, CallResult.refused, Option.toList_none, List.append_nil,
      List.nil_append]
    exact .refl _
  | putRaised item e =>
    simp only [CallResult.entered, CallResult.refused, Option.toList_some, Option.toList_none,
      List.append_nil, List.nil_append]
    rw [← List.append_assoc]
    exact List.perm_append_comm
  | getRaised e =>
    simp only [CallResult.entered, CallResult.refused, Option.toList_none, List.append_nil,
      List.nil_append]
    exact .refl _

theorem joining_places (s : QueueUse α) (item : α) :
    ({ s with putters := s.putters ++ [item] } : QueueUse α).places.Perm (item :: s.places) := by
  have joined : s.wentIn ++ (s.putters ++ [item]) ++ s.turnedAway =
      s.wentIn ++ s.putters ++ item :: s.turnedAway := by
    simp only [List.append_assoc, List.singleton_append]
  exact (List.Perm.of_eq joined).trans List.perm_middle

theorem waiting_places {putter : Nat} {item : α} (h : s.putters[putter]? = some item) :
    (item :: ({ s with putters := s.putters.eraseIdx putter } : QueueUse α).places).Perm s.places := by
  obtain ⟨within, rfl⟩ := List.getElem?_eq_some_iff.mp h
  have picked := List.getElem_cons_eraseIdx_perm within
  unfold QueueUse.places
  rw [List.append_assoc, List.append_assoc]
  have moved : (s.putters[putter] :: (s.wentIn ++ (s.putters.eraseIdx putter ++ s.turnedAway))).Perm
      (s.wentIn ++ s.putters[putter] :: (s.putters.eraseIdx putter ++ s.turnedAway)) :=
    List.perm_middle.symm
  exact moved.trans ((picked.append_right s.turnedAway).append_left s.wentIn)

theorem callPut_places {item : α} (waiting : u.places.Perm (item :: t.places)) :
    (callPut t item u).places.Perm (item :: t.places) := by
  unfold callPut
  split
  next queue _ => exact finish_places t queue (.put item)
  next => exact waiting

theorem callGet_places (waiting : u.places = t.places) :
    (callGet t u).places.Perm t.places := by
  unfold callGet
  split
  next item queue _ => exact finish_places t queue (.got item)
  next => exact .of_eq waiting

theorem callPutNowait_places (s : QueueUse α) (item : α) :
    (callPutNowait s item).places.Perm (item :: s.places) := by
  unfold callPutNowait
  split
  next queue _ => exact finish_places s queue (.put item)
  next queue e _ => exact finish_places s queue (.putRaised item e)

theorem callGetNowait_places (s : QueueUse α) : (callGetNowait s).places.Perm s.places := by
  unfold callGetNowait
  split
  next queue item _ => exact finish_places s queue (.got item)
  next queue e _ => exact finish_places s queue (.getRaised e)

theorem callNext_places (h : callNext s call = some u) :
    u.places.Perm (call.item.toList ++ s.places) := by
  cases call with
  | put item =>
    cases Option.some.inj h
    exact callPut_places (joining_places s item)
  | get =>
    cases Option.some.inj h
    exact callGet_places rfl
  | putNowait item =>
    cases Option.some.inj h
    exact callPutNowait_places s item
  | getNowait =>
    cases Option.some.inj h
    exact callGetNowait_places s
  | wakePut putter =>
    obtain ⟨item, waiting, rfl⟩ := Option.map_eq_some_iff.mp h
    have picked := waiting_places waiting
    exact (callPut_places picked.symm).trans picked
  | wakeGet =>
    obtain ⟨_, woken⟩ := Option.ite_none_right_eq_some.mp h
    cases woken
    exact callGet_places rfl
  | cancelPut putter =>
    obtain ⟨item, waiting, rfl⟩ := Option.map_eq_some_iff.mp h
    exact (finish_places _ s.queue (.putRaised item .cancelledError)).trans (waiting_places waiting)
  | cancelGet =>
    obtain ⟨_, cancelled⟩ := Option.ite_none_right_eq_some.mp h
    cases cancelled
    exact finish_places _ s.queue (.getRaised .cancelledError)

variable {capacity : Nat} {queue : BoundedQueue α} {trace : List (QueueUse α × QueueCall α)}

theorem run_conserved (made : BoundedQueue.new α capacity = .ok queue)
    (run : Run callNext (QueueUse.start queue) trace s) : Conserved capacity s :=
  run.invariant (conserved_start made) conserved_next

theorem run_places (run : Run callNext (QueueUse.start queue) trace s) :
    (trace.filterMap fun p => p.2.item).Perm s.places := by
  induction run with
  | start => exact .refl _
  | @step trace t call u _ h ih =>
    have placed := callNext_places h
    cases item : call.item with
    | none =>
      rw [item] at placed
      simp only [List.filterMap_cons, item]
      exact ih.trans placed.symm
    | some put =>
      rw [item] at placed
      simp only [List.filterMap_cons, item]
      exact (ih.cons put).trans placed.symm

theorem run_maxSizeReached (made : BoundedQueue.new α capacity = .ok queue)
    (run : Run callNext (QueueUse.start queue) trace s) :
    IsGreatest {n | n ∈ s.queue.size :: trace.map fun p => p.1.queue.size}
      s.queue.stats.maxSizeReached := by
  obtain ⟨positive, rfl⟩ := BoundedQueue.new_eq made
  refine run.isGreatest_mark ?_ maxSizeReached_next
  rfl

/-- Over every run of calls: what went in is what came out followed by what the
queue holds, every item that was to be put is in one place, the statistics agree
with the queue, and a call that raises changes neither. -/
theorem queue_conserved (made : BoundedQueue.new α capacity = .ok queue)
    (run : Run callNext (QueueUse.start queue) trace s) :
    s.wentIn = s.cameOut ++ s.queue.items ∧
      (trace.filterMap fun p => p.2.item).Perm (s.wentIn ++ s.putters ++ s.turnedAway) ∧
      s.queue.stats.totalEnqueued = s.queue.stats.totalDequeued + s.queue.stats.size ∧
      s.queue.stats.size = s.queue.size ∧
      s.queue.size ≤ capacity ∧
      IsGreatest {n | n ∈ s.queue.size :: trace.map fun p => p.1.queue.size}
        s.queue.stats.maxSizeReached ∧
      ∀ call u result e, callNext s call = some u → u.results = s.results ++ [result] →
        result.raised = some e → u.queue = s.queue := by
  have kept := run_conserved made run
  have counted : s.queue.stats.totalEnqueued = s.queue.stats.totalDequeued + s.queue.stats.size := by
    rw [kept.enqueued, kept.dequeued, kept.size, kept.order, List.length_append]
    rfl
  have bound : s.queue.size ≤ capacity := by
    rw [← kept.capacity_eq]
    exact s.queue.bounded
  refine ⟨kept.order, run_places run, counted, kept.size, bound, run_maxSizeReached made run, ?_⟩
  intro call u result e h results raised
  exact queue_of_raised h results raised

/-- A put that waits, one that raises, and a get that raises. -/
theorem queue_conserved_waiting :
    ∃ queue trace s, BoundedQueue.new Nat 2 = .ok queue ∧
      Run callNext (QueueUse.start queue) trace s ∧
      s.results = [.put 1, .put 2, .putRaised 4 .queueFull, .got 1, .put 3, .got 2, .got 3,
        .getRaised .queueEmpty] ∧
      s.cameOut = [1, 2, 3] ∧ s.wentIn = s.cameOut ++ s.queue.items ∧
      s.queue.stats.totalEnqueued = s.queue.stats.totalDequeued + s.queue.stats.size ∧
      IsGreatest {n | n ∈ s.queue.size :: trace.map fun p => p.1.queue.size}
        s.queue.stats.maxSizeReached := by
  have made : BoundedQueue.new Nat 2 =
      .ok ⟨[], 2, ⟨2, 0, 0, 0, 0⟩, by decide, by decide⟩ := rfl
  have moved : exec callNext
      (QueueUse.start ⟨[], 2, ⟨2, 0, 0, 0, 0⟩, by decide, by decide⟩)
      [.put 1, .put 2, .put 3, .putNowait 4, .get, .wakePut 0, .get, .getNowait, .getNowait] =
      some ⟨⟨[], 2, ⟨2, 0, 2, 3, 3⟩, by decide, by decide⟩, [], 0, [.put 1, .put 2,
        .putRaised 4 .queueFull, .got 1, .put 3, .got 2, .got 3, .getRaised .queueEmpty]⟩ := rfl
  obtain ⟨order, _, counted, _, _, greatest, _⟩ := queue_conserved made (exec_run moved)
  exact ⟨_, _, _, made, exec_run moved, rfl, rfl, order, counted, greatest⟩

end DomainProcessing
