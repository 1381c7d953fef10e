import XttsServer.Runs.Worker

/-!
The reply protocol of a worker process, for any requests and any behaviour of the
model on each of them.
-/

set_option autoImplicit false
set_option relaxedAutoImplicit false

namespace XttsServer.Guarantees

open XttsServer.Model XttsServer.Foundations.Transition

variable {σ κ : Type}

/-- `worker_main` handles the requests before the sentinel in order. Each leaves one block of
acts, in which it gets its chunks, if it is a stream, and then one terminal message, on its own
queue: with what the model made of it when every step has returned, and else with the exception that
a step has raised. The loop returns at the sentinel and leaves the rest unread; as long as there is
none it waits. -/
theorem worker_replies (py : Runtime σ κ) (args : WorkerArgs) (entries : List QueueEntry) (s : σ) :
    ∃ blocks, List.Forall₂ (Served py args) (requestsBefore entries) blocks ∧
      (workerMain py args entries s).log = blocks.flatten ∧
      ∃ final, (workerMain py args entries s).result = .ok final ∧
        final.unread? = afterSentinel entries := by
  have serves := requestLoop_serves py args {} entries s
  obtain ⟨blocks, each, told⟩ := serves.blocks
  exact ⟨blocks, each, told, serves.leaves⟩

end XttsServer.Guarantees
