import XttsServer.Model.Step

/-!
The server from its `yield` in `lifespan` to the end of the shutdown: the drain loop is
cancelled, each worker is sent a sentinel and joined, what does not exit is sent a SIGTERM,
and the Manager goes last. Worker processes may also die at any time.
-/

set_option autoImplicit false
set_option relaxedAutoImplicit false

namespace XttsServer.Model

open XttsServer.Foundations.Transition

/-- Where `lifespan` is suspended. -/
inductive StopPc
  /-- At its `yield`: the application runs. -/
  | serving
  /-- In `await self._drain_task`, the loop being about to see its cancellation. -/
  | cancelling
  /-- In `await self._drain_task`, after that. -/
  | drainEnded
  /-- In `await self._status_task`. -/
  | statusEnding
  /-- Before an executor thread has run `w.request_queue.put(None)`. -/
  | sending (worker : WorkerRef)
  | sent (worker : WorkerRef)
  /-- In `w.process.join(15)`, called at `t0`. -/
  | joining (worker : WorkerRef) (t0 : ℚ)
  | joined (worker : WorkerRef)
  /-- In `await self._cleanup_task`, the Manager having been shut down. -/
  | cleanupEnding
  | complete
  /-- Ended by the exception that `await self._drain_task` passes on. -/
  | raised
  deriving DecidableEq

/-- How a worker process came to its end. -/
inductive Exit
  /-- It left its loop at the sentinel. -/
  | sentinel
  /-- By the SIGTERM it was sent. -/
  | terminated
  /-- It crashed, was killed from outside or never came up. -/
  | died
  deriving DecidableEq

structure LifespanState where
  server : State
  pc : StopPc
  /-- For a queue that the sentinel is in, or was in: the number of requests still before it. -/
  sentinels : WorkerRef → Option Nat
  /-- The processes that have been sent a SIGTERM. -/
  signalled : WorkerRef → Bool
  exits : WorkerRef → Option Exit

def LifespanState.init (cfg : Config) : LifespanState where
  server := State.init cfg
  pc := .serving
  sentinels := fun _ => none
  signalled := fun _ => false
  exits := fun _ => none

inductive LifespanEvent
  | server (event : Event)
  /-- The application is told to stop. -/
  | shutdown
  /-- The drain loop sees its cancellation. -/
  | cancelled
  | resume
  | putSentinel
  | joinReturns
  | takeSentinel (worker : WorkerRef)
  /-- The SIGTERM ends the process. -/
  | sigterm (worker : WorkerRef)
  | dies (worker : WorkerRef)

inductive LifespanObs
  | server (obs : Obs)
  /-- An executor thread put the request on the `request_queue` of the worker. -/
  | put (request : Request) (worker : WorkerRef)
  | cancelled
  /-- An executor thread put `None` there. -/
  | sentinel (worker : WorkerRef)
  | signalled (worker : WorkerRef)
  | exited (worker : WorkerRef) (how : Exit)
  | managerDown
  | complete
  deriving DecidableEq

abbrev LifespanEffect := LifespanState × List LifespanObs

/-- The Manager goes down with the last join, and the cleanup loop is cancelled in that step. -/
def StopPc.managerUp : StopPc → Bool
  | .cleanupEnding => false
  | .complete => false
  | _ => true

/-- What the server may still do. The cancelled loop does not run on, but a thread that has been
given its `put` does. What has come to its end takes no step, and nobody gets through to a Manager
that is down: not with a `get` or a `put` on a result queue, and not to unpickle one. -/
def LifespanState.allows (z : LifespanState) : Event → Bool
  | .resumeDrain => z.pc = .serving
  | .workerTake w => z.pc.managerUp ∧ z.exits w = none ∧ z.sentinels w ≠ some 0
  | .workerChunk w _ => z.pc.managerUp ∧ z.exits w = none
  | .workerReply w _ => z.pc.managerUp ∧ z.exits w = none
  | .getReply _ => z.pc.managerUp
  | .getTimeout _ => z.pc.managerUp
  | .evict _ => z.pc.managerUp
  | _ => true

/-- The put that a step of an executor thread makes. -/
def State.puts (s : State) : Event → Option (Request × WorkerRef)
  | .drainPut =>
      match s.drain with
      | .putting item w => some (item.request, w)
      | _ => none
  | .clonePut jobId =>
      match s.tasks jobId with
      | some (.clone w r .putting) => some (r, w)
      | _ => none
  | _ => none

def countTaken (sentinels : WorkerRef → Option Nat) : Event → WorkerRef → Option Nat
  | .workerTake w => Function.update sentinels w ((sentinels w).map (· - 1))
  | _ => sentinels

/-- A step of the server, which makes no queue any more once the Manager is down. -/
def serverGoesOn (cfg : Config) (z : LifespanState) (e : Event) : Option LifespanEffect :=
  if z.allows e then
    match step cfg z.server e with
    | some (s, o) =>
        if z.pc.managerUp || s.nextQueue = z.server.nextQueue then
          some ({ z with server := s, sentinels := countTaken z.sentinels e },
            (z.server.puts e).toList.map (fun p => .put p.1 p.2) ++ o.map .server)
        else none
    | none => none
  else none

/-! ### The shutdown -/

/-- The second loop of `Dispatcher.shutdown` from the worker on, `self._manager.shutdown()` and
`JobStore.shutdown` up to its suspension. -/
def LifespanState.joinFrom (z : LifespanState) (worker : WorkerRef) : LifespanEffect :=
  if worker < z.server.workers.length then
    ({ z with pc := .joining worker z.server.now }, [])
  else ({ z with pc := .cleanupEnding }, [.managerDown])

/-- The first loop of `Dispatcher.shutdown` from the worker on. -/
def LifespanState.sendFrom (z : LifespanState) (worker : WorkerRef) : LifespanEffect :=
  if worker < z.server.workers.length then ({ z with pc := .sending worker }, [])
  else z.joinFrom 0

def LifespanState.exit (z : LifespanState) (worker : WorkerRef) (how : Exit) : LifespanEffect :=
  ({ z with exits := Function.update z.exits worker (some how) }, [.exited worker how])

/-- `if w.process.is_alive(): w.process.terminate()`, which does not wait for the process to end. -/
def LifespanState.terminate (z : LifespanState) (worker : WorkerRef) : LifespanEffect :=
  if z.exits worker = none then
    ({ z with signalled := Function.update z.signalled worker true }, [.signalled worker])
  else (z, [])

/-- Run `lifespan` until it suspends again. -/
def LifespanState.resume (z : LifespanState) : Option LifespanEffect :=
  match z.pc with
  | .drainEnded => some ({ z with pc := .statusEnding }, [])
  | .statusEnding => some (z.sendFrom 0)
  | .sent w => some (z.sendFrom (w + 1))
  | .joined w =>
      let (z₁, o) := z.terminate w
      let (z₂, o') := z₁.joinFrom (w + 1)
      some (z₂, o ++ o')
  | .cleanupEnding => some ({ z with pc := .complete }, [.complete])
  | _ => none

/-- The cancellation reaches the loop at the `await` it is suspended in. A loop that has ended
before has an exception for those who await it. -/
def LifespanState.cancelDrain (z : LifespanState) : Option LifespanEffect :=
  match z.pc, z.server.drain with
  | .cancelling, .raised _ => some ({ z with pc := .raised }, [])
  | .cancelling, _ => some ({ z with pc := .drainEnded }, [.cancelled])
  | _, _ => none

def LifespanState.putSentinel (z : LifespanState) : Option LifespanEffect :=
  match z.pc with
  | .sending w =>
      some ({ z with
          pc := .sent w
          sentinels := Function.update z.sentinels w
            (some (z.server.processes w).requestQueue.length) }, [.sentinel w])
  | _ => none

def joinTimeoutSeconds : ℚ := 15

def LifespanState.joinReturns (z : LifespanState) : Option LifespanEffect :=
  match z.pc with
  | .joining w t0 =>
      if z.exits w ≠ none ∨ t0 + joinTimeoutSeconds ≤ z.server.now then
        some ({ z with pc := .joined w }, [])
      else none
  | _ => none

/-- `request_queue.get()` of `worker_main` returns `None`, and the process ends. -/
def LifespanState.takeSentinel (z : LifespanState) (worker : WorkerRef) : Option LifespanEffect :=
  if z.exits worker = none ∧ z.sentinels worker = some 0 ∧
      (z.server.processes worker).current = none then
    some (z.exit worker .sentinel)
  else none

def LifespanState.sigterm (z : LifespanState) (worker : WorkerRef) : Option LifespanEffect :=
  if z.exits worker = none ∧ z.signalled worker = true then some
    (z.exit worker .terminated) else none

def LifespanState.dies (z : LifespanState) (worker : WorkerRef) : Option LifespanEffect :=
  if z.exits worker = none ∧ worker < z.server.workers.length then some (z.exit worker .died)
  else none

def lifespanStep (cfg : Config) (z : LifespanState) : LifespanEvent → Option LifespanEffect
  | .server e => serverGoesOn cfg z e
  | .shutdown => if z.pc = .serving then some ({ z with pc := .cancelling }, []) else none
  | .cancelled => z.cancelDrain
  | .resume => z.resume
  | .putSentinel => z.putSentinel
  | .joinReturns => z.joinReturns
  | .takeSentinel w => z.takeSentinel w
  | .sigterm w => z.sigterm w
  | .dies w => z.dies w

/-- `lifespan` from its `yield` on, around the server. -/
def lifespan (cfg : Config) : Machine LifespanState LifespanEvent LifespanObs :=
  ⟨LifespanState.init cfg, lifespanStep cfg⟩

end XttsServer.Model
