import XttsServer.Model.Pool
import XttsServer.Model.Worker

/-!
The server with its worker processes, each of which runs `worker_main`: what a process puts
is what its handlers put for the request it has taken, in their order. A process that comes
to a request too late may end over it.
-/

set_option autoImplicit false
set_option relaxedAutoImplicit false

namespace XttsServer.Model

open XttsServer.Foundations.Transition

def Event.ofWorker : Event → Bool
  | .workerTake _ => true
  | .workerChunk _ _ => true
  | .workerReply _ _ => true
  | _ => false

def PoolEvent.ofWorker : PoolEvent → Bool
  | .server e => e.ofWorker
  | _ => false

structure DeployedState (threads : Nat) where
  pool : PoolState threads
  stats : WorkerRef → WorkerStats
  /-- What the handler of the current request has still to put. -/
  pending : WorkerRef → List (QueueId × Message)
  /-- The processes that ended when their `request_queue.get()` raised. -/
  lost : WorkerRef → Bool

inductive DeployedEvent (σ : Type)
  | pool (event : PoolEvent)
  /-- `request_queue.get()` returns, with the world as the handler finds it. -/
  | take (worker : WorkerRef) (world : σ)
  | getRaises (worker : WorkerRef)
  | put (worker : WorkerRef)

variable {σ κ : Type} {threads : Nat}

abbrev DeployedEffect (threads : Nat) := DeployedState threads × List PoolObs

def DeployedState.init (cfg : Config) : DeployedState threads where
  pool := .init cfg
  stats := fun _ => {}
  pending := fun _ => []
  lost := fun _ => false

def PoolState.setProcess (s : PoolState threads) (worker : WorkerRef) (p : Process) :
    PoolState threads :=
  { s with server := { s.server with processes := Function.update s.server.processes worker p } }

/-- The loop has a request and its handler makes its calls; what these return nobody else sees
before the handler puts it. -/
def takeRequest (py : Runtime σ κ) (args : WorkerRef → WorkerArgs) (s : DeployedState threads)
    (worker : WorkerRef) (world : σ) : Option (DeployedEffect threads) :=
  match s.lost worker, s.pool.server.processes worker with
  | false, ⟨r :: rest, none⟩ =>
      let handled := handle py (args worker) (s.stats worker) r world
      some ({ s with
        pool := s.pool.setProcess worker ⟨rest, some r⟩
        stats := match handled.result with
          | .ok stats => Function.update s.stats worker stats
          | .error _ => s.stats
        pending := Function.update s.pending worker (puts handled.log) }, [])
  | _, _ => none

/-- The server process may have given up its last proxy of the request's result queue: the task that
waited there has ended, and the drain loop is past the request. -/
def State.dropped (s : State) (r : Request) : Bool :=
  (s.tasks r.jobId).any Task.finished && match s.drain with
    | .put item _ => item.request ≠ r
    | _ => true

/-- `request_queue.get()` unpickles the request's proxy of its result queue, which raises when the
Manager has dropped the queue. `worker_main` does not catch that: its process ends, and what is in
the `request_queue` stays there for nobody. -/
def getRaises (s : DeployedState threads) (worker : WorkerRef) : Option (DeployedEffect threads) :=
  match s.lost worker, s.pool.server.processes worker with
  | false, ⟨r :: _, none⟩ =>
      if s.pool.server.dropped r then
        some ({ s with lost := Function.update s.lost worker true }, [])
      else none
  | _, _ => none

/-- `result_queue.put(message)`, after the last of which the loop is back in its `get()`. -/
def putNext (s : DeployedState threads) (worker : WorkerRef) : Option (DeployedEffect threads) :=
  match s.pool.server.processes worker, s.pending worker with
  | ⟨queue, some r⟩, (q, m) :: rest =>
      let process : Process := if rest = [] then ⟨queue, none⟩ else ⟨queue, some r⟩
      let server := { s.pool.server with
        resultQueues := Function.update s.pool.server.resultQueues q
          (s.pool.server.resultQueues q ++ [m]) }
      some ({ s with
        pool := { s.pool with server }.setProcess worker process
        pending := Function.update s.pending worker rest }, [.server (.replied worker r m)])
  | _, _ => none

def deployedStep (py : Runtime σ κ) (args : WorkerRef → WorkerArgs) (cfg : Config)
    (s : DeployedState threads) : DeployedEvent σ → Option (DeployedEffect threads)
  | .pool event =>
      if event.ofWorker then none
      else (poolStep cfg s.pool event).map fun effect => ({ s with pool := effect.1 }, effect.2)
  | .take worker world => takeRequest py args s worker world
  | .getRaises worker => getRaises s worker
  | .put worker => putNext s worker

def deployed (py : Runtime σ κ) (args : WorkerRef → WorkerArgs) (cfg : Config) (threads : Nat) :
    Machine (DeployedState threads) (DeployedEvent σ) PoolObs :=
  ⟨.init cfg, deployedStep py args cfg⟩

end XttsServer.Model
