/-
`crofqueue`: a queue of messages with a size beyond which only an enforced
`store` succeeds, and the four queues `crofsock` and `crofconn` keep in a
vector.

Both classes mean to empty their queues with
`for (auto queue : queues) queue.clear()`. The loop variable is a copy of the
queue, so what is emptied is the copy (`clearCopies`). The messages themselves
are freed with it, so that a queue which was not empty goes on with dangling
pointers: a run with leftovers is as modelled only while the process lives.
-/
import RoflCommon.Openflow
import Mathlib.Logic.Function.Basic

namespace RoflCommon

structure Crofqueue (α : Type) where
  queue : List α
  queueMaxSize : Nat
deriving DecidableEq, Repr

namespace Crofqueue

variable {α : Type}

/-- The constructor. -/
def new : Crofqueue α := ⟨[], 128⟩

def empty (q : Crofqueue α) : Bool := q.queue.isEmpty

def size (q : Crofqueue α) : Nat := q.queue.length

def clear (q : Crofqueue α) : Crofqueue α := { q with queue := [] }

/-- `store`; `none` stands for `eRofQueueFull`. -/
def store (q : Crofqueue α) (msg : α) (enforce : Bool) : Option (Crofqueue α) :=
  if ¬ enforce ∧ q.size ≥ q.queueMaxSize then none
  else some { q with queue := q.queue ++ [msg] }

/-- `retrieve`; `none` stands for the null pointer. -/
def retrieve (q : Crofqueue α) : Option (α × Crofqueue α) :=
  match q.queue with
  | [] => none
  | msg :: rest => some (msg, { q with queue := rest })

def capacity (q : Crofqueue α) : Nat := if q.size < q.queueMaxSize then q.queueMaxSize - q.size else 0

theorem empty_iff {q : Crofqueue α} : q.empty = true ↔ q.queue = [] := List.isEmpty_iff

theorem store_queue {q q' : Crofqueue α} {msg : α} {enforce : Bool} (h : q.store msg enforce = some q') :
    q'.queue = q.queue ++ [msg] := by
  unfold store at h
  split at h
  · cases h
  · obtain rfl := Option.some.inj h
    rfl

theorem store_enforce (q : Crofqueue α) (msg : α) :
    q.store msg true = some { q with queue := q.queue ++ [msg] } := by
  simp [store]

theorem retrieve_eq_some {q q' : Crofqueue α} {msg : α} (h : q.retrieve = some (msg, q')) :
    q.queue = msg :: q'.queue := by
  unfold retrieve at h
  split at h
  · cases h
  next hq =>
    obtain ⟨rfl, rfl⟩ := Prod.mk.inj (Option.some.inj h)
    exact hq

theorem retrieve_eq_none {q : Crofqueue α} : q.retrieve = none ↔ q.queue = [] := by
  unfold retrieve
  split <;> simp_all

theorem capacity_eq_zero {q : Crofqueue α} : q.capacity = 0 ↔ q.queueMaxSize ≤ q.size := by
  unfold capacity
  split <;> omega

end Crofqueue

/-- `std::vector<crofqueue>` of `QUEUE_MAX` queues. -/
abbrev Crofqueues (α : Type) := QueueId → Crofqueue α

namespace Crofqueues

variable {α : Type}

/-- `for (auto queue : queues) queue.clear()`: what the loop leaves of the
vector and of the copies it made. -/
def clearCopies (qs : Crofqueues α) : Crofqueues α × Crofqueues α := (qs, fun q => (qs q).clear)

/-- **The queues keep their entries.** -/
@[simp] theorem clearCopies_fst (qs : Crofqueues α) : qs.clearCopies.1 = qs := rfl

end Crofqueues

end RoflCommon
