import Webroar.App.Queueing

/-! # Removing workers when the load is low

While the load is low a timer has the largest worker of an application removed. A free worker is
freed at once; a busy one is marked and stays in the queue until its response is complete. The
callback compares the length of the queue with the minimum, and the marked workers are in it.
-/

namespace Pool

/-- The worker that a process id is taken for. -/
def victim (pool : Pool) (pid : Nat) : Option Nat :=
  (pool.freeWorkers.find? fun worker => (pool.wkr worker).pid = pid).or
    (pool.workers.find? fun worker => (pool.wkr worker).pid = pid)

variable {config : Config} {pool : Pool} {worker req : Nat}

/-- A worker that a process id is taken for is registered. -/
theorem victim_registered (order : pool.Order config none) {pid : Nat}
    (found : pool.victim pid = some worker) : worker ∈ pool.workers := by
  rcases Option.or_eq_some_iff.mp found with free | ⟨-, listed⟩
  · exact order.free_worker worker (List.mem_of_find?_eq_some free)
  · exact List.mem_of_find?_eq_some listed

end Pool

namespace App

variable {config : Config} {fork : Nat → Int} {app : App}

end App
