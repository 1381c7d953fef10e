import XttsServer.Model.Step

/-!
The server with its `_cleanup_loop`: the passes of the TTL eviction are no longer
taken at any time, but when the loop wakes from its sleep.
-/

set_option autoImplicit false
set_option relaxedAutoImplicit false

namespace XttsServer.Model

open XttsServer.Foundations.Transition

/-- The argument of `asyncio.sleep` in `_cleanup_loop`, in seconds. -/
def cleanupPeriod : ℚ := 60

structure CleanupState where
  server : State
  /-- When the sleep of the loop is over. -/
  wake : ℚ

inductive CleanupEvent
  | server (event : Event)
  /-- The loop wakes, runs `_evict_expired` and goes to sleep again. -/
  | pass (failures : List Path)

def Event.evicts : Event → Bool
  | .evict _ => true
  | _ => false

def cleanupStep (cfg : Config) (s : CleanupState) : CleanupEvent → Option (CleanupState × List Obs)
  | .server event =>
      if event.evicts then none
      else (step cfg s.server event).map fun (server, o) => ({ s with server }, o)
  | .pass failures =>
      if s.server.now < s.wake then none
      else
        let (server, o) := evict cfg s.server failures
        some ({ server, wake := server.now + cleanupPeriod }, o)

/-- `JobStore.start` has just created the task. -/
def CleanupState.init (cfg : Config) : CleanupState where
  server := .init cfg
  wake := (State.init cfg).now + cleanupPeriod

def cleaned (cfg : Config) : Machine CleanupState CleanupEvent Obs :=
  ⟨CleanupState.init cfg, cleanupStep cfg⟩

/-- The event loop runs the pass no later than `slack` seconds after it is due. -/
def punctual (slack : ℚ) (s : CleanupState) : CleanupEvent → Prop
  | .server (.tick dt) => s.server.now + dt ≤ s.wake + slack
  | _ => True

instance (slack : ℚ) (s : CleanupState) (e : CleanupEvent) : Decidable (punctual slack s e) := by
  unfold punctual
  split <;> infer_instance

end XttsServer.Model
