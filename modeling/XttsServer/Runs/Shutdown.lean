import XttsServer.Foundations.Refinement
import XttsServer.Model.Shutdown
import XttsServer.Runs.Delivery

/-!
Runs of the server that may end in a shutdown. What the server does in them is a run
of the server; on top of that, each worker serves its queue in order, up to the sentinel.
-/

set_option autoImplicit false
set_option relaxedAutoImplicit false

namespace XttsServer.Model

open XttsServer.Foundations XttsServer.Foundations.Transition

variable {cfg : Config}

/-! ### Steps -/

/-- The process of a worker that `join` has given up is sent a SIGTERM, if it is alive. -/
def LifespanState.Terminates (z : LifespanState) (w : WorkerRef) (signalled : WorkerRef → Bool)
    (o : List LifespanObs) : Prop :=
  z.exits w ≠ none ∧ signalled = z.signalled ∧ o = [] ∨
    z.exits w = none ∧ signalled = Function.update z.signalled w true ∧ o = [.signalled w]

inductive LifespanChange (cfg : Config) (z : LifespanState) :
    LifespanEvent → LifespanState → List LifespanObs → Prop
  | server {e : Event} {s : State} {o : List Obs} (allowed : z.allows e = true)
      (taken : step cfg z.server e = some (s, o))
      (queue : z.pc.managerUp = true ∨ s.nextQueue = z.server.nextQueue) :
      LifespanChange cfg z (.server e)
        { z with server := s, sentinels := countTaken z.sentinels e }
        ((z.server.puts e).toList.map (fun p => .put p.1 p.2) ++ o.map .server)
  | shutdown (pc : z.pc = .serving) :
      LifespanChange cfg z .shutdown { z with pc := .cancelling } []
  | cancelled (pc : z.pc = .cancelling) (runs : ∀ item, z.server.drain ≠ .raised item) :
      LifespanChange cfg z .cancelled { z with pc := .drainEnded } [.cancelled]
  | raised {item : QueuedItem} (pc : z.pc = .cancelling) (loop : z.server.drain = .raised item) :
      LifespanChange cfg z .cancelled { z with pc := .raised } []
  | drainEnded (pc : z.pc = .drainEnded) :
      LifespanChange cfg z .resume { z with pc := .statusEnding } []
  | sendFirst (pc : z.pc = .statusEnding) (inside : 0 < z.server.workers.length) :
      LifespanChange cfg z .resume { z with pc := .sending 0 } []
  | sendNext {w : WorkerRef} (pc : z.pc = .sent w) (inside : w + 1 < z.server.workers.length) :
      LifespanChange cfg z .resume { z with pc := .sending (w + 1) } []
  | joinFirst {w : WorkerRef} (pc : z.pc = .sent w) (last : z.server.workers.length ≤ w + 1)
      (inside : 0 < z.server.workers.length) :
      LifespanChange cfg z .resume { z with pc := .joining 0 z.server.now } []
  | joinNext {w : WorkerRef} {signalled : WorkerRef → Bool} {o : List LifespanObs}
      (pc : z.pc = .joined w) (ended : z.Terminates w signalled o)
      (inside : w + 1 < z.server.workers.length) :
      LifespanChange cfg z .resume { z with pc := .joining (w + 1) z.server.now, signalled } o
  | joinLast {w : WorkerRef} {signalled : WorkerRef → Bool} {o : List LifespanObs}
      (pc : z.pc = .joined w) (ended : z.Terminates w signalled o)
      (last : z.server.workers.length ≤ w + 1) :
      LifespanChange cfg z .resume { z with pc := .cleanupEnding, signalled } (o ++ [.managerDown])
  | complete (pc : z.pc = .cleanupEnding) :
      LifespanChange cfg z .resume { z with pc := .complete } [.complete]
  | putSentinel {w : WorkerRef} (pc : z.pc = .sending w) :
      LifespanChange cfg z .putSentinel
        { z with
          pc := .sent w
          sentinels := Function.update z.sentinels w
            (some (z.server.processes w).requestQueue.length) } [.sentinel w]
  | joinReturns {w : WorkerRef} {t0 : ℚ} (pc : z.pc = .joining w t0)
      (ended : z.exits w ≠ none ∨ t0 + joinTimeoutSeconds ≤ z.server.now) :
      LifespanChange cfg z .joinReturns { z with pc := .joined w } []
  | takeSentinel {w : WorkerRef} (alive : z.exits w = none) (next : z.sentinels w = some 0)
      (idle : (z.server.processes w).current = none) :
      LifespanChange cfg z (.takeSentinel w)
        { z with exits := Function.update z.exits w (some .sentinel) } [.exited w .sentinel]
  | sigterm {w : WorkerRef} (alive : z.exits w = none) (told : z.signalled w = true) :
      LifespanChange cfg z (.sigterm w)
        { z with exits := Function.update z.exits w (some .terminated) } [.exited w .terminated]
  | dies {w : WorkerRef} (alive : z.exits w = none) (inside : w < z.server.workers.length) :
      LifespanChange cfg z (.dies w)
        { z with exits := Function.update z.exits w (some .died) } [.exited w .died]

variable {P : LifespanState → LifespanEvent → Prop} {z z' : LifespanState} {e : LifespanEvent}
  {tr o : List LifespanObs}

theorem LifespanState.terminates_of {z₁ : LifespanState} {w : WorkerRef}
    (h : z.terminate w = (z₁, o)) :
    z₁ = { z with signalled := z₁.signalled } ∧ z.Terminates w z₁.signalled o := by
  unfold LifespanState.terminate at h
  split at h <;> rename_i alive <;> obtain ⟨rfl, rfl⟩ := Prod.mk.inj h
  · exact ⟨rfl, .inr ⟨alive, rfl, rfl⟩⟩
  · exact ⟨rfl, .inl ⟨alive, rfl, rfl⟩⟩

private theorem resume_change (some_worker : 0 < z.server.workers.length)
    (h : z.resume = some (z', o)) : LifespanChange cfg z .resume z' o := by
  unfold LifespanState.resume at h
  split at h
  · rename_i pc
    obtain ⟨rfl, rfl⟩ := Prod.mk.inj (Option.some.inj h)
    exact .drainEnded pc
  · rename_i pc
    rw [LifespanState.sendFrom, if_pos some_worker] at h
    obtain ⟨rfl, rfl⟩ := Prod.mk.inj (Option.some.inj h)
    exact .sendFirst pc some_worker
  · rename_i w pc
    unfold LifespanState.sendFrom LifespanState.joinFrom at h
    split at h <;> rename_i inside
    · obtain ⟨rfl, rfl⟩ := Prod.mk.inj (Option.some.inj h)
      exact .sendNext pc inside
    · obtain ⟨rfl, rfl⟩ := Prod.mk.inj (Option.some.inj h)
      exact .joinFirst pc (not_lt.mp inside) some_worker
  · rename_i w pc
    rcases ended : z.terminate w with ⟨z₁, o₁⟩
    obtain ⟨frame, terminates⟩ := LifespanState.terminates_of ended
    rw [ended] at h
    dsimp only at h
    rw [frame] at h
    unfold LifespanState.joinFrom at h
    split at h <;> rename_i inside
    · obtain ⟨rfl, rfl⟩ := Prod.mk.inj (Option.some.inj h)
      rw [List.append_nil]
      exact .joinNext pc terminates inside
    · obtain ⟨rfl, rfl⟩ := Prod.mk.inj (Option.some.inj h)
      exact .joinLast pc terminates (not_lt.mp inside)
  · rename_i pc
    obtain ⟨rfl, rfl⟩ := Prod.mk.inj (Option.some.inj h)
    exact .complete pc
  · cases h

private theorem lifespanStep_cases (some_worker : 0 < z.server.workers.length)
    (h : lifespanStep cfg z e = some (z', o)) : LifespanChange cfg z e z' o := by
  cases e with
  | server e =>
    simp only [lifespanStep, serverGoesOn] at h
    split_ifs at h with allowed
    split at h
    · rename_i s o' taken
      split_ifs at h with queue
      obtain ⟨rfl, rfl⟩ := Prod.mk.inj (Option.some.inj h)
      exact .server allowed taken (by simpa using queue)
    · cases h
  | shutdown =>
    simp only [lifespanStep] at h
    split_ifs at h with pc
    obtain ⟨rfl, rfl⟩ := Prod.mk.inj (Option.some.inj h)
    exact .shutdown pc
  | cancelled =>
    simp only [lifespanStep, LifespanState.cancelDrain] at h
    split at h
    · rename_i item pc loop
      obtain ⟨rfl, rfl⟩ := Prod.mk.inj (Option.some.inj h)
      exact .raised pc loop
    · rename_i pc runs
      obtain ⟨rfl, rfl⟩ := Prod.mk.inj (Option.some.inj h)
      exact .cancelled pc runs
    · cases h
  | resume => exact resume_change some_worker h
  | putSentinel =>
    simp only [lifespanStep, LifespanState.putSentinel] at h
    split at h
    · rename_i w pc
      obtain ⟨rfl, rfl⟩ := Prod.mk.inj (Option.some.inj h)
      exact .putSentinel pc
    · cases h
  | joinReturns =>
    simp only [lifespanStep, LifespanState.joinReturns] at h
    split at h
    · rename_i w t0 pc
      split_ifs at h with ended
      obtain ⟨rfl, rfl⟩ := Prod.mk.inj (Option.some.inj h)
      exact .joinReturns pc ended
    · cases h
  | takeSentinel w =>
    simp only [lifespanStep, LifespanState.takeSentinel] at h
    split_ifs at h with ready
    obtain ⟨rfl, rfl⟩ := Prod.mk.inj (Option.some.inj h)
    exact .takeSentinel ready.1 ready.2.1 ready.2.2
  | sigterm w =>
    simp only [lifespanStep, LifespanState.sigterm] at h
    split_ifs at h with ready
    obtain ⟨rfl, rfl⟩ := Prod.mk.inj (Option.some.inj h)
    exact .sigterm ready.1 ready.2
  | dies w =>
    simp only [lifespanStep, LifespanState.dies] at h
    split_ifs at h with ready
    obtain ⟨rfl, rfl⟩ := Prod.mk.inj (Option.some.inj h)
    exact .dies ready.1 ready.2

/-! ### The server in it -/

@[simp] def LifespanObs.server? : LifespanObs → Option Obs
  | .server obs => some obs
  | _ => none

def ofServer (tr : List LifespanObs) : List Obs := tr.filterMap LifespanObs.server?

@[simp] theorem ofServer_append (tr tr' : List LifespanObs) :
    ofServer (tr ++ tr') = ofServer tr ++ ofServer tr' := List.filterMap_append

theorem mem_ofServer {obs : Obs} : obs ∈ ofServer tr ↔ .server obs ∈ tr := by
  rw [ofServer, List.mem_filterMap]
  constructor
  · rintro ⟨x, member, same⟩
    cases x <;> simp at same
    exact same ▸ member
  · exact fun member => ⟨_, member, rfl⟩

theorem ofServer_step (puts : Option (Request × WorkerRef)) (o : List Obs) :
    ofServer (puts.toList.map (fun p => .put p.1 p.2) ++ o.map .server) = o := by
  have back : (o.map LifespanObs.server).filterMap LifespanObs.server? = o := by
    rw [List.filterMap_map]
    exact List.filterMap_some
  cases puts <;> simpa [ofServer] using back

/-- The server's state and what the server does come from one of its steps, or stay. -/
theorem LifespanChange.seen (change : LifespanChange cfg z e z' o) :
    z'.server = z.server ∧ ofServer o = [] ∨
      ∃ event, e = .server event ∧ step cfg z.server event = some (z'.server, ofServer o) := by
  cases change with
  | @server event s o _ taken => exact .inr ⟨event, rfl, by rwa [ofServer_step]⟩
  | joinNext _ ended => rcases ended with ⟨-, -, rfl⟩ | ⟨-, -, rfl⟩ <;> exact .inl ⟨rfl, rfl⟩
  | joinLast _ ended => rcases ended with ⟨-, -, rfl⟩ | ⟨-, -, rfl⟩ <;> exact .inl ⟨rfl, rfl⟩
  | _ => exact .inl ⟨rfl, rfl⟩

def serverSteps (Q : State → Event → Prop) (z : LifespanState) : LifespanEvent → Prop
  | .server e => Q z.server e
  | _ => True

theorem lifespan_reaches {Q : State → Event → Prop}
    (h : Reach (lifespan cfg) (serverSteps Q) tr z) :
    Reach (server cfg) Q (ofServer tr) z.server ∧ 0 < z.server.workers.length := by
  induction h with
  | refl => exact ⟨.refl, List.length_pos_of_ne_nil (workers_ne_nil (P := Q) .refl)⟩
  | @tail z z' tr o e before meets taken ih =>
    obtain ⟨reached, some_worker⟩ := ih
    have reached' : Reach (server cfg) Q (ofServer (tr ++ o)) z'.server := by
      rw [ofServer_append]
      rcases (lifespanStep_cases some_worker taken).seen with ⟨same, silent⟩ | ⟨event, rfl, moves⟩
      · rwa [same, silent, List.append_nil]
      · exact reached.tail meets moves
    exact ⟨reached', List.length_pos_of_ne_nil (workers_ne_nil (visit_of_reach reached'))⟩

/-- The server in the lifespan is a server: a shutdown takes from it what it may do, and deaths of
workers what they do. -/
private theorem lifespan_simulates (cfg : Config) (Q : State → Event → Prop) :
    Simulation (lifespan cfg) (serverSteps Q) (server cfg) Q LifespanState.server
      LifespanObs.server? where
  init := rfl
  step := by
    intro tr z z' e o before meets taken
    have change := lifespanStep_cases (lifespan_reaches before).2 taken
    rcases change.seen with ⟨same, silent⟩ | ⟨event, rfl, moves⟩
    · rw [same, show o.filterMap LifespanObs.server? = [] from silent]
      exact .refl
    · exact .single meets moves

theorem lifespan_visits (h : Reach (lifespan cfg) P tr z) :
    Visit cfg anyStep (ofServer tr) z.server :=
  visit_of_reach ((lifespan_simulates cfg anyStep).reach
    (h.mono fun _ e _ => by cases e <;> trivial))

theorem lifespan_change (h : Reach (lifespan cfg) P tr z)
    (taken : (lifespan cfg).step z e = some (z', o)) : LifespanChange cfg z e z' o :=
  lifespanStep_cases (List.length_pos_of_ne_nil (workers_ne_nil (lifespan_visits h))) taken

/-! ### Where the shutdown stands -/

/-- The steps that the shutdown takes by itself, once it has begun. -/
def LifespanEvent.own : LifespanEvent → Bool
  | .cancelled => true
  | .resume => true
  | .putSentinel => true
  | .joinReturns => true
  | _ => false

def LifespanEvent.passes : LifespanEvent → Option ℚ
  | .server (.tick dt) => some dt
  | _ => none

def LifespanState.after (z : LifespanState) (d : ℚ) : LifespanState :=
  { z with server := { z.server with now := z.server.now + d } }

/-- The workers before this one have been sent the sentinel. -/
def StopPc.sentBelow (n : Nat) : StopPc → Nat
  | .sending w => w
  | .sent w => w + 1
  | .joining _ _ => n
  | .joined _ => n
  | .cleanupEnding => n
  | .complete => n
  | _ => 0

def StopPc.joinedBelow (n : Nat) : StopPc → Nat
  | .joining w _ => w
  | .joined w => w
  | .cleanupEnding => n
  | .complete => n
  | _ => 0

def StopPc.worker? : StopPc → Option WorkerRef
  | .sending w => some w
  | .sent w => some w
  | .joining w _ => some w
  | .joined w => some w
  | _ => none

/-- How far the shutdown has come, in its sentinels and its joins. -/
structure Staged (z : LifespanState) : Prop where
  inside : ∀ w : Nat, z.pc.worker? = some w → w < z.server.workers.length
  sent : ∀ w : Nat, z.sentinels w ≠ none ↔ w < z.pc.sentBelow z.server.workers.length
  joined : ∀ w : Nat, w < z.pc.joinedBelow z.server.workers.length →
    z.exits w ≠ none ∨ z.signalled w = true

theorem length_workers (h : Reach (lifespan cfg) P tr z) :
    z.server.workers.length = (start cfg.cudaOk cfg.settings.workersPerGpuList).length := by
  have ids := congrArg List.length (ids_fixed (lifespan_visits h))
  simpa using ids

private theorem countTaken_isSome (sentinels : WorkerRef → Option Nat) (e : Event) (w : WorkerRef) :
    countTaken sentinels e w ≠ none ↔ sentinels w ≠ none := by
  cases e with
  | workerTake v =>
    by_cases here : w = v
    · subst here
      simp [countTaken]
    · simp [countTaken, Function.update_of_ne here]
  | _ => rfl

private theorem exits_update {exits : WorkerRef → Option Exit} {v : WorkerRef} (how : Exit)
    (w : WorkerRef) (ended : exits w ≠ none) : Function.update exits v (some how) w ≠ none := by
  by_cases here : w = v
  · subst here
    simp
  · rwa [Function.update_of_ne here]

private theorem LifespanState.Terminates.ended {w : WorkerRef} {signalled : WorkerRef → Bool}
    (h : z.Terminates w signalled o) (v : WorkerRef)
    (ended : (z.exits v ≠ none ∨ z.signalled v = true) ∨ v = w) :
    z.exits v ≠ none ∨ signalled v = true := by
  rcases h with ⟨gone, rfl, -⟩ | ⟨alive, rfl, -⟩
  · rcases ended with before | rfl
    · exact before
    · exact .inl gone
  · by_cases here : v = w
    · subst here
      exact .inr (Function.update_self ..)
    · rw [Function.update_of_ne here]
      exact ended.resolve_right here

theorem staged (h : Reach (lifespan cfg) P tr z) : Staged z := by
  induction h with
  | refl => exact ⟨by simp [lifespan, LifespanState.init, StopPc.worker?],
      by simp [lifespan, LifespanState.init, StopPc.sentBelow],
      by simp [lifespan, LifespanState.init, StopPc.joinedBelow]⟩
  | @tail z z' tr o e before meets taken ih =>
    have length : z'.server.workers.length = z.server.workers.length :=
      (length_workers (before.tail meets taken)).trans (length_workers before).symm
    have change := lifespan_change before taken
    obtain ⟨inside, sent, joined⟩ := ih
    cases change with
    | server allowed moves queue =>
      refine ⟨fun w here => length ▸ inside w here, fun w => ?_, fun w below => ?_⟩
      · rw [countTaken_isSome, sent, ← length]
      · rw [length] at below
        exact joined w below
    | cancelled pc | raised pc | shutdown pc | drainEnded pc =>
      exact ⟨by simp [StopPc.worker?], by simpa [pc, StopPc.sentBelow] using sent,
        by simp [StopPc.joinedBelow]⟩
    | sendFirst pc some_worker =>
      exact ⟨by simpa [StopPc.worker?] using some_worker,
        by simpa [pc, StopPc.sentBelow] using sent, by simp [StopPc.joinedBelow]⟩
    | sendNext pc next =>
      exact ⟨by simpa [StopPc.worker?] using next,
        by simpa [pc, StopPc.sentBelow] using sent, by simp [StopPc.joinedBelow]⟩
    | @joinFirst w pc last some_worker =>
      have here := inside w (by simp [pc, StopPc.worker?])
      have all : w + 1 = z.server.workers.length := le_antisymm (Nat.succ_le_of_lt here) last
      refine ⟨by simpa [StopPc.worker?] using some_worker, ?_, by simp [StopPc.joinedBelow]⟩
      simpa [pc, StopPc.sentBelow, all] using sent
    | @joinNext w signalled o pc ended next =>
      refine ⟨by simpa [StopPc.worker?] using next, by simpa [pc, StopPc.sentBelow] using sent, ?_⟩
      intro v below
      have below : v < w + 1 := below
      refine ended.ended v ?_
      rcases Nat.lt_succ_iff_lt_or_eq.mp below with before | rfl
      · exact .inl (joined v (by simpa [pc, StopPc.joinedBelow] using before))
      · exact .inr rfl
    | @joinLast w signalled o pc ended last =>
      refine ⟨by simp [StopPc.worker?], by simpa [pc, StopPc.sentBelow] using sent, ?_⟩
      intro v below
      have here := inside w (by simp [pc, StopPc.worker?])
      have below : v < w + 1 := lt_of_lt_of_le below last
      refine ended.ended v ?_
      rcases Nat.lt_succ_iff_lt_or_eq.mp below with before | rfl
      · exact .inl (joined v (by simpa [pc, StopPc.joinedBelow] using before))
      · exact .inr rfl
    | complete pc =>
      exact ⟨by simp [StopPc.worker?], by simpa [pc, StopPc.sentBelow] using sent,
        by simpa [pc, StopPc.joinedBelow] using joined⟩
    | @putSentinel w pc =>
      refine ⟨by simpa [pc, StopPc.worker?] using inside, fun v => ?_, by simp [StopPc.joinedBelow]⟩
      have sent := sent v
      simp only [pc, StopPc.sentBelow] at sent ⊢
      by_cases here : v = w
      · subst here
        simp
      · rw [Function.update_of_ne here, sent]
        omega
    | joinReturns pc ended =>
      exact ⟨by simpa [pc, StopPc.worker?] using inside, by simpa [pc, StopPc.sentBelow] using sent,
        by simpa [pc, StopPc.joinedBelow] using joined⟩
    | takeSentinel | sigterm | dies =>
      exact ⟨inside, sent, fun w below => (joined w below).imp_left (exits_update _ w)⟩

/-! ### The queue of a worker -/

/-- The steps that a `request_queue` or a worker process takes part in. -/
def Event.works : Event → Bool
  | .drainPut => true
  | .clonePut _ => true
  | .workerTake _ => true
  | .workerChunk _ _ => true
  | .workerReply _ _ => true
  | _ => false

private theorem Change.idle {s₀ s s' : State} {e : Event} {o : List Obs}
    (change : Change cfg s₀ e s s' o)
    (elsewhere : e.works = false) : s'.processes = s.processes ∧ ∀ v r m, .replied v r m ∉ o := by
  cases change with
  | jobTurnedAway _ _ told => rcases told with rfl | rfl <;> exact ⟨rfl, by simp⟩
  | @answered _ a answer =>
    refine ⟨rfl, ?_⟩
    cases a <;> simp [Obs.isAnswer] at answer ⊢
  | drainPut _ event | clonePut _ event | workerTake _ event | workerChunk event
  | workerReply event => simp [event, Event.works] at elsewhere
  | _ => exact ⟨rfl, by simp [marks_eq_map]⟩

private theorem step_idle {s s' : State} {e : Event} {o : List Obs}
    (taken : step cfg s e = some (s', o)) (elsewhere : e.works = false) :
    s'.processes = s.processes ∧ ∀ v r m, .replied v r m ∉ o := by
  have changes := step_changes taken
  clear taken
  induction changes with
  | refl => exact ⟨rfl, by simp⟩
  | tail _ change ih =>
    obtain ⟨same, silent⟩ := change.idle elsewhere
    refine ⟨same.trans ih.1, fun v r m told => ?_⟩
    rcases List.mem_append.mp told with old | new
    · exact ih.2 v r m old
    · exact silent v r m new

/-- What a step of the server does to the queue and the process of a worker. -/
inductive ProcessStep (s s' : State) (e : Event) (o : List Obs) (w : WorkerRef) : Prop
  | same (process : s'.processes w = s.processes w) (elsewhere : ∀ r, s.puts e ≠ some (r, w))
      (open' : ∀ r m, .replied w r m ∈ o → m.terminal = false)
  | put {r : Request} (puts : s.puts e = some (r, w))
      (process : s'.processes w = { s.processes w with
        requestQueue := (s.processes w).requestQueue ++ [r] }) (silent : o = [])
  | take {r : Request} {rest : List Request} (event : e = .workerTake w)
      (ready : s.processes w = ⟨r :: rest, none⟩) (process : s'.processes w = ⟨rest, some r⟩)
      (silent : o = [])
  | reply {r : Request} {rest : List Request} {m : Message} {outcome : ModelOutcome}
      (event : e = .workerReply w outcome) (busy : s.processes w = ⟨rest, some r⟩)
      (process : s'.processes w = ⟨rest, none⟩) (told : o = [.replied w r m])
      (last : m.terminal = true)

private theorem closingMessage_terminal (r : Request) (outcome : ModelOutcome) :
    (closingMessage r outcome).terminal = true := by
  cases r <;> cases outcome <;> rfl

private theorem step_process {s s' : State} {e : Event} {o : List Obs}
    (taken : step cfg s e = some (s', o)) (w : WorkerRef) : ProcessStep s s' e o w := by
  cases e with
  | drainPut =>
    simp only [step, drainPut] at taken
    split at taken
    · rename_i item v loop
      obtain ⟨rfl, rfl⟩ := Prod.mk.inj (Option.some.inj taken)
      by_cases here : w = v
      · subst here
        exact .put (r := item.request) (by simp [State.puts, loop]) (by simp [putRequest]) rfl
      · refine .same (by simp [putRequest, Function.update_of_ne here]) ?_ (by simp)
        simpa [State.puts, loop] using Ne.symm here
    · cases taken
  | clonePut j =>
    simp only [step, clonePut] at taken
    split at taken
    · rename_i v r task
      obtain ⟨rfl, rfl⟩ := Prod.mk.inj (Option.some.inj taken)
      by_cases here : w = v
      · subst here
        exact .put (r := r) (by simp [State.puts, task]) (by simp [putRequest, State.setTask]) rfl
      · refine .same (by simp [putRequest, State.setTask, Function.update_of_ne here]) ?_ (by simp)
        simpa [State.puts, task] using Ne.symm here
    · cases taken
  | workerTake v =>
    simp only [step, workerTake] at taken
    split at taken
    · rename_i r rest ready
      obtain ⟨rfl, rfl⟩ := Prod.mk.inj (Option.some.inj taken)
      by_cases here : w = v
      · subst here
        exact .take rfl ready (by simp) rfl
      · exact .same (by simp [Function.update_of_ne here]) (by simp [State.puts]) (by simp)
    · cases taken
  | workerChunk v chunk =>
    simp only [step, workerChunk] at taken
    split at taken
    · obtain ⟨rfl, rfl⟩ := Prod.mk.inj (Option.some.inj taken)
      refine .same rfl (by simp [State.puts]) fun r m told => ?_
      obtain ⟨-, -, rfl⟩ : w = v ∧ r = _ ∧ m = _ := by simpa using told
      rfl
    · cases taken
  | workerReply v outcome =>
    simp only [step, workerReply] at taken
    split at taken
    · rename_i rest r busy
      split_ifs at taken
      obtain ⟨rfl, rfl⟩ := Prod.mk.inj (Option.some.inj taken)
      by_cases here : w = v
      · subst here
        exact .reply rfl busy (by simp) rfl (closingMessage_terminal r outcome)
      · refine .same (by simp [Function.update_of_ne here]) (by simp [State.puts]) ?_
        intro r' m told
        exact absurd (by simpa [putMessage] using told : w = v ∧ r' = r ∧ _).1 here
    · cases taken
  | _ =>
    obtain ⟨same, silent⟩ := step_idle taken rfl
    exact .same (congrFun same w) (by simp [State.puts]) fun r m told => absurd told (silent w r m)

@[simp] def LifespanObs.putTo? (w : WorkerRef) : LifespanObs → Option Request
  | .put r v => if v = w then some r else none
  | _ => none

@[simp] def LifespanObs.closedBy? (w : WorkerRef) : LifespanObs → Option Request
  | .server (.replied v r m) => if v = w ∧ m.terminal = true then some r else none
  | _ => none

/-- The requests that were put on the queue of the worker, in this order. -/
def putTo (w : WorkerRef) (tr : List LifespanObs) : List Request :=
  tr.filterMap (LifespanObs.putTo? w)

/-- The requests that the worker has closed with a last message, in this order. -/
def closedBy (w : WorkerRef) (tr : List LifespanObs) : List Request :=
  tr.filterMap (LifespanObs.closedBy? w)

@[simp] theorem putTo_append (w : WorkerRef) (tr tr' : List LifespanObs) :
    putTo w (tr ++ tr') = putTo w tr ++ putTo w tr' := List.filterMap_append

@[simp] theorem closedBy_append (w : WorkerRef) (tr tr' : List LifespanObs) :
    closedBy w (tr ++ tr') = closedBy w tr ++ closedBy w tr' := List.filterMap_append

@[simp] theorem putTo_nil (w : WorkerRef) : putTo w [] = [] := rfl

@[simp] theorem closedBy_nil (w : WorkerRef) : closedBy w [] = [] := rfl

@[simp] theorem putTo_cons (w : WorkerRef) (x : LifespanObs) (tr : List LifespanObs) :
    putTo w (x :: tr) = (x.putTo? w).toList ++ putTo w tr := by
  rw [putTo, List.filterMap_cons]
  cases x.putTo? w <;> rfl

@[simp] theorem closedBy_cons (w : WorkerRef) (x : LifespanObs) (tr : List LifespanObs) :
    closedBy w (x :: tr) = (x.closedBy? w).toList ++ closedBy w tr := by
  rw [closedBy, List.filterMap_cons]
  cases x.closedBy? w <;> rfl

private theorem putTo_step (w : WorkerRef) (puts : Option (Request × WorkerRef)) (o : List Obs) :
    putTo w (puts.toList.map (fun p => .put p.1 p.2) ++ o.map .server) =
      (puts.filter fun p => p.2 = w).toList.map Prod.fst := by
  have none : putTo w (o.map .server) = [] := by
    rw [putTo, List.filterMap_eq_nil_iff]
    intro x member
    obtain ⟨obs, -, rfl⟩ := List.mem_map.mp member
    rfl
  rw [putTo_append, none, List.append_nil]
  cases puts with
  | none => rfl
  | some p => by_cases here : p.2 = w <;> simp [Option.filter, here]

private theorem closedBy_step (w : WorkerRef) (puts : Option (Request × WorkerRef)) (o : List Obs) :
    closedBy w (puts.toList.map (fun p => .put p.1 p.2) ++ o.map .server) =
      closedBy w (o.map .server) := by
  cases puts <;> simp

private theorem closedBy_eq_nil {w : WorkerRef} {o : List Obs}
    (more : ∀ r m, .replied w r m ∈ o → m.terminal = false) : closedBy w (o.map .server) = [] := by
  rw [closedBy, List.filterMap_eq_nil_iff]
  intro x member
  obtain ⟨obs, told, rfl⟩ := List.mem_map.mp member
  cases obs with
  | replied v r m =>
    by_cases here : v = w
    · subst here
      simp [more r m told]
    · simp [here]
  | _ => rfl

/-- What a step of the lifespan does to the queue of a worker, up to the sentinel and after it. -/
inductive QueueStep (z z' : LifespanState) (o : List LifespanObs) (w : WorkerRef) : Prop
  | same (process : z'.server.processes w = z.server.processes w)
      (sentinel : z'.sentinels w = z.sentinels w) (unput : putTo w o = [])
      (silent : closedBy w o = []) (unsent : .sentinel w ∉ o)
  | put {r : Request} (process : z'.server.processes w = { z.server.processes w with
        requestQueue := (z.server.processes w).requestQueue ++ [r] })
      (sentinel : z'.sentinels w = z.sentinels w) (put : putTo w o = [r])
      (silent : closedBy w o = []) (unsent : .sentinel w ∉ o)
  | take {r : Request} {rest : List Request} (alive : z.exits w = none)
      (before : z.sentinels w ≠ some 0) (ready : z.server.processes w = ⟨r :: rest, none⟩)
      (process : z'.server.processes w = ⟨rest, some r⟩)
      (sentinel : z'.sentinels w = (z.sentinels w).map (· - 1)) (silent : o = [])
  | reply {r : Request} {rest : List Request} (alive : z.exits w = none)
      (busy : z.server.processes w = ⟨rest, some r⟩)
      (process : z'.server.processes w = ⟨rest, none⟩) (sentinel : z'.sentinels w = z.sentinels w)
      (unput : putTo w o = []) (told : closedBy w o = [r]) (unsent : .sentinel w ∉ o)
  | sentinel (process : z'.server.processes w = z.server.processes w)
      (before : z.sentinels w = none)
      (sent : z'.sentinels w = some (z.server.processes w).requestQueue.length)
      (told : o = [.sentinel w])

private theorem LifespanState.Terminates.silent {v : WorkerRef} {signalled : WorkerRef → Bool}
    (h : z.Terminates v signalled o) (w : WorkerRef) :
    putTo w o = [] ∧ closedBy w o = [] ∧ .sentinel w ∉ o := by
  rcases h with ⟨-, -, rfl⟩ | ⟨-, -, rfl⟩ <;> simp

private theorem LifespanChange.queue (stage : Staged z) (change : LifespanChange cfg z e z' o)
    (w : WorkerRef) : QueueStep z z' o w := by
  cases change with
  | @server event s o allowed taken =>
    have unsent : LifespanObs.sentinel w ∉
        (z.server.puts event).toList.map (fun p => .put p.1 p.2) ++ o.map .server := by simp
    cases step_process taken w with
    | same process elsewhere more =>
      refine .same process ?_ ?_ ?_ unsent
      · cases event with
        | workerTake v =>
          refine Function.update_of_ne (fun here => ?_) _ _
          subst here
          simp only [step, workerTake] at taken
          split at taken
          · obtain ⟨rfl, rfl⟩ := Prod.mk.inj (Option.some.inj taken)
            simp_all
          · cases taken
        | _ => rfl
      · rw [putTo_step]
        cases puts : z.server.puts event with
        | none => rfl
        | some p =>
          have other : p.2 ≠ w := fun here => elsewhere p.1 (by rw [puts, ← here])
          simp [other]
      · rw [closedBy_step, closedBy_eq_nil more]
    | @put r puts process silent =>
      subst silent
      refine .put (r := r) process ?_ (by simp [puts]) (by simp [puts]) unsent
      cases event <;> first | rfl | simp [State.puts] at puts
    | @take r rest event ready process silent =>
      subst event silent
      obtain ⟨-, alive, before⟩ : z.pc.managerUp = true ∧ z.exits w = none ∧
        z.sentinels w ≠ some 0 := by
        simpa [LifespanState.allows] using allowed
      exact .take alive before ready process (by simp [countTaken]) (by simp [State.puts])
    | @reply r rest m outcome event busy process told last =>
      subst event told
      have alive : z.pc.managerUp = true ∧ z.exits w = none := by
        simpa [LifespanState.allows] using allowed
      exact .reply alive.2 busy process rfl (by simp [State.puts])
        (by simp [State.puts, last]) unsent
  | @putSentinel v pc =>
    by_cases here : w = v
    · subst here
      have unsent : ¬ z.sentinels w ≠ none := by
        rw [stage.sent w, pc]
        exact lt_irrefl w
      exact .sentinel rfl (not_not.mp unsent) (by simp) rfl
    · exact .same rfl (Function.update_of_ne here _ _) rfl rfl (by simp [here])
  | joinNext pc ended =>
    obtain ⟨unput, silent, unsent⟩ := ended.silent w
    exact .same rfl rfl unput silent unsent
  | joinLast pc ended =>
    obtain ⟨unput, silent, unsent⟩ := ended.silent w
    exact .same rfl rfl (by simp [unput]) (by simp [silent]) (by simp [unsent])
  | _ => exact .same rfl rfl rfl rfl (by simp)

/-- Before the sentinel is sent, the worker has closed a part of what was put, and the rest is in
its backlog. Afterwards this is so of what was put before the sentinel; what was put behind it
stays there. -/
inductive QueueServed (z : LifespanState) (w : WorkerRef) (tr : List LifespanObs) : Prop
  | unsent (unsent : z.sentinels w = none) (untold : .sentinel w ∉ tr)
      (order : putTo w tr = closedBy w tr ++ (z.server.processes w).backlog)
  | sent {n : Nat} {before after : List LifespanObs} (sent : z.sentinels w = some n)
      (split : tr = before ++ .sentinel w :: after)
      (once : .sentinel w ∉ before ∧ .sentinel w ∉ after)
      (bound : n ≤ (z.server.processes w).requestQueue.length)
      (order : putTo w before = closedBy w tr ++ ((z.server.processes w).current.toList ++
        (z.server.processes w).requestQueue.take n))
      (behind : putTo w after = (z.server.processes w).requestQueue.drop n)

private theorem QueueServed.next {w : WorkerRef} (h : QueueServed z w tr)
    (step : QueueStep z z' o w) : QueueServed z' w (tr ++ o) := by
  cases h with
  | unsent unsent untold order =>
    cases step with
    | same process sentinel unput silent unsent' =>
      refine .unsent (sentinel.trans unsent) (by simp [untold, unsent']) ?_
      simp [unput, silent, process, order]
    | put process sentinel put silent unsent' =>
      refine .unsent (sentinel.trans unsent) (by simp [untold, unsent']) ?_
      simp [put, silent, process, order, Process.backlog]
    | take alive before ready process sentinel silent =>
      subst silent
      refine .unsent (by simp [sentinel, unsent]) (by simpa using untold) ?_
      simpa [process, ready, Process.backlog] using order
    | reply alive busy process sentinel unput told unsent' =>
      refine .unsent (sentinel.trans unsent) (by simp [untold, unsent']) ?_
      simp [unput, told, process, order, busy, Process.backlog]
    | sentinel process before sent told =>
      subst told
      refine @QueueServed.sent _ _ _ _ tr [] sent rfl ⟨untold, by simp⟩ (by rw [process]) ?_ ?_
      · simp [order, process, Process.backlog]
      · simp [process]
  | @sent n before after sent split once bound order behind =>
    cases step with
    | same process sentinel unput silent unsent' =>
      refine @QueueServed.sent _ _ _ n before (after ++ o) (sentinel.trans sent) (by simp [split])
        ⟨once.1, by simp [once.2, unsent']⟩ (by rwa [process]) ?_ ?_
      · simp [silent, process, order]
      · simp [unput, process, behind]
    | put process sentinel put silent unsent' =>
      refine @QueueServed.sent _ _ _ n before (after ++ o) (sentinel.trans sent) (by simp [split])
        ⟨once.1, by simp [once.2, unsent']⟩ ?_ ?_ ?_
      · rw [process]
        exact bound.trans (by simp)
      · simp [silent, process, order, List.take_append_of_le_length bound]
      · simp [put, process, behind, List.drop_append_of_le_length bound]
    | @take r rest alive some_left ready process sentinel silent =>
      subst silent
      obtain ⟨k, rfl⟩ : ∃ k, n = k + 1 := by
        refine Nat.exists_eq_succ_of_ne_zero fun zero => some_left ?_
        rw [sent, zero]
      refine @QueueServed.sent _ _ _ k before after (by simp [sentinel, sent])
        (by simp [split]) once ?_ ?_ ?_
      · simpa [process, ready] using bound
      · simpa [process, ready] using order
      · simpa [process, ready] using behind
    | reply alive busy process sentinel unput told unsent' =>
      refine @QueueServed.sent _ _ _ n before (after ++ o) (sentinel.trans sent) (by simp [split])
        ⟨once.1, by simp [once.2, unsent']⟩ ?_ ?_ ?_
      · simpa [process, busy] using bound
      · simp [told, process, order, busy]
      · simp [unput, process, behind, busy]
    | sentinel process unsent => simp [unsent] at sent

/-- Every worker serves its queue first-in first-out, up to the sentinel and no further. -/
theorem queue_served (h : Reach (lifespan cfg) P tr z) (w : WorkerRef) : QueueServed z w tr := by
  induction h with
  | refl => exact .unsent rfl (by simp) rfl
  | tail before meets taken ih =>
    exact ih.next ((lifespan_change before taken).queue (staged before) w)

private theorem mem_closedBy {w : WorkerRef} {r : Request} :
    r ∈ closedBy w tr ↔ ∃ m, .server (.replied w r m) ∈ tr ∧ m.terminal = true := by
  rw [closedBy, List.mem_filterMap]
  constructor
  · rintro ⟨x, member, same⟩
    cases x with
    | server obs =>
      cases obs with
      | replied v r' m =>
        obtain ⟨⟨rfl, last⟩, rfl⟩ : (v = w ∧ m.terminal = true) ∧ r' = r := by simpa using same
        exact ⟨m, member, last⟩
      | _ => cases same
    | _ => cases same
  · rintro ⟨m, member, last⟩
    exact ⟨_, member, by simp [last]⟩

private theorem QueueServed.cases {w : WorkerRef} (h : QueueServed z w tr) {r : Request}
    (put : r ∈ putTo w tr) :
    r ∈ closedBy w tr ∨ r ∈ (z.server.processes w).backlog := by
  cases h with
  | unsent _ _ order => simpa [order] using put
  | @sent n before after _ split _ _ order behind =>
    have put' : r ∈ putTo w before ∨ r ∈ putTo w after := by simpa [split] using put
    rw [order, behind] at put'
    rcases put' with early | late
    · rcases List.mem_append.mp early with closed | rest
      · exact .inl closed
      · rcases List.mem_append.mp rest with now | waits
        · exact .inr (List.mem_append_left _ now)
        · exact .inr (List.mem_append_right _ (List.mem_of_mem_take waits))
    · exact .inr (List.mem_append_right _ (List.mem_of_mem_drop late))

private theorem State.unput_of_puts {s : State} {e : Event} {r : Request} {w : WorkerRef}
    (puts : s.puts e = some (r, w)) : Unput s r w := by
  cases e with
  | drainPut =>
    simp only [State.puts] at puts
    split at puts
    · rename_i item v loop
      obtain ⟨rfl, rfl⟩ := Prod.mk.inj (Option.some.inj puts)
      exact .drain loop
    · cases puts
  | clonePut j =>
    simp only [State.puts] at puts
    split at puts
    · rename_i v r' task
      obtain ⟨rfl, rfl⟩ := Prod.mk.inj (Option.some.inj puts)
      exact .clone task
    · cases puts
  | _ => cases puts

theorem putTo_nodup (h : Reach (lifespan cfg) P tr z) (w : WorkerRef) : (putTo w tr).Nodup := by
  induction h with
  | refl => exact List.nodup_nil
  | @tail z z' tr o e before meets taken ih =>
    rw [putTo_append]
    cases lifespan_change before taken with
    | @server event s o allowed moves =>
      rw [putTo_step]
      cases puts : z.server.puts event with
      | none => simpa using ih
      | some p =>
        obtain ⟨r, v⟩ := p
        by_cases here : v = w
        · subst here
          have unput := (handled (lifespan_visits before)).unput r v (State.unput_of_puts puts)
          have new : r ∉ putTo v tr := by
            intro put
            rcases (queue_served before v).cases put with closed | waits
            · obtain ⟨m, told, -⟩ := mem_closedBy.mp closed
              exact unput.2 v m (mem_ofServer.mpr told)
            · exact unput.1 v waits
          have apart : ∀ x ∈ putTo v tr, x ≠ r := fun x put same => new (same ▸ put)
          simpa [Option.filter, List.nodup_append, ih] using apart
        · simpa [Option.filter, here] using ih
    | joinNext _ terminates | joinLast _ terminates =>
      simpa [(terminates.silent w).1] using ih
    | _ => simpa using ih

/-! ### Ends of processes -/

theorem exits_of_exited (h : Reach (lifespan cfg) P tr z) {w : WorkerRef} {how : Exit}
    (told : .exited w how ∈ tr) : z.exits w = some how := by
  induction h with
  | refl => cases told
  | @tail z z' tr o e before meets taken ih =>
    have kept : ∀ {v : WorkerRef} {how' : Exit}, z.exits v = none → z.exits w = some how →
        Function.update z.exits v (some how') w = some how := by
      intro v how' alive ended
      rw [Function.update_of_ne (fun here => ?_), ended]
      simp [← here, ended] at alive
    have change := lifespan_change before taken
    rcases List.mem_append.mp told with old | new
    · have ended := ih old
      cases change with
      | takeSentinel alive | sigterm alive | dies alive => exact kept alive ended
      | _ => exact ended
    · cases change with
      | server => simp at new
      | joinNext _ terminates | joinLast _ terminates =>
        rcases terminates with ⟨-, -, rfl⟩ | ⟨-, -, rfl⟩ <;> simp at new
      | takeSentinel | sigterm | dies =>
        obtain ⟨rfl, rfl⟩ := LifespanObs.exited.inj (List.mem_singleton.mp new)
        simp
      | _ => simp at new

/-- A process that left its loop at the sentinel had nothing left before it. -/
theorem served_all (h : Reach (lifespan cfg) P tr z) {w : WorkerRef}
    (ended : z.exits w = some .sentinel) :
    z.sentinels w = some 0 ∧ (z.server.processes w).current = none := by
  induction h with
  | refl => cases ended
  | @tail z z' tr o e before meets taken ih =>
    have change := lifespan_change before taken
    have update : ∀ {v : WorkerRef} {how : Exit}, how ≠ .sentinel →
        Function.update z.exits v (some how) w = some .sentinel → z.exits w = some .sentinel := by
      intro v how other now
      by_cases here : w = v
      · subst here
        exact absurd (by simpa using now) other
      · rwa [Function.update_of_ne here] at now
    cases change with
    | @server event s o allowed moves =>
      obtain ⟨none_left, idle⟩ := ih ended
      cases step_process moves w with
      | same process =>
        refine ⟨?_, by rw [process, idle]⟩
        cases event with
        | workerTake v =>
          by_cases here : w = v
          · subst here
            simp [countTaken, none_left]
          · simp [countTaken, Function.update_of_ne here, none_left]
        | _ => exact none_left
      | put puts process =>
        refine ⟨?_, by rw [process]; exact idle⟩
        cases event <;> first | exact none_left | simp [State.puts] at puts
      | take event =>
        subst event
        simp [LifespanState.allows, none_left] at allowed
      | reply event busy =>
        simp [busy] at idle
    | sigterm | dies => exact ih (update (by simp) ended)
    | @takeSentinel v alive next idle =>
      by_cases here : w = v
      · subst here
        exact ⟨next, idle⟩
      · exact ih ((Function.update_of_ne here _ _).symm.trans ended)
    | @putSentinel v pc =>
      obtain ⟨none_left, idle⟩ := ih ended
      have unsent : ¬ z.sentinels v ≠ none := by
        rw [(staged before).sent v, pc]
        exact lt_irrefl v
      have apart : w ≠ v := by
        rintro rfl
        exact unsent (by simp [none_left])
      exact ⟨by simp [Function.update_of_ne apart, none_left], idle⟩
    | _ => exact ih ended

end XttsServer.Model
