import Mathlib.Data.List.Basic

/-!
Procedures over a world that write to a log and may raise, with the rules for
what their log and their result satisfy from every world. An exception keeps the
world and the log that the procedure had made until then.
-/

set_option autoImplicit false
set_option relaxedAutoImplicit false

namespace XttsServer.Foundations.Effects

variable {σ ω ε α β : Type}

structure Outcome (σ ω ε α : Type) where
  result : Except ε α
  world : σ
  log : List ω

def Proc (σ ω ε α : Type) : Type := σ → Outcome σ ω ε α

namespace Proc

protected def pure (a : α) : Proc σ ω ε α := fun s => ⟨.ok a, s, []⟩

/-- Go on with another procedure, whose log comes after what has been written. -/
def resume (o : Outcome σ ω ε α) (next : Proc σ ω ε β) : Outcome σ ω ε β :=
  let p := next o.world
  ⟨p.result, p.world, o.log ++ p.log⟩

protected def bind (x : Proc σ ω ε α) (f : α → Proc σ ω ε β) : Proc σ ω ε β := fun s =>
  let o := x s
  match o.result with
  | .ok a => resume o (f a)
  | .error e => ⟨.error e, o.world, o.log⟩

protected def throw (e : ε) : Proc σ ω ε α := fun s => ⟨.error e, s, []⟩

/-- `try x except Exception as e: h(e)`. -/
protected def tryCatch (x : Proc σ ω ε α) (h : ε → Proc σ ω ε α) : Proc σ ω ε α := fun s =>
  let o := x s
  match o.result with
  | .ok _ => o
  | .error e => resume o (h e)

instance : Monad (Proc σ ω ε) where
  pure := Proc.pure
  bind := Proc.bind

instance : MonadExcept ε (Proc σ ω ε) where
  throw := Proc.throw
  tryCatch := Proc.tryCatch

def tell (entry : ω) : Proc σ ω ε Unit := fun s => ⟨.ok (), s, [entry]⟩

/-- A call from outside, which may change the world; an exception it raises is noted. -/
def call (note : ε → ω) (f : σ → Except ε α × σ) : Proc σ ω ε α := fun s =>
  let (result, t) := f s
  match result with
  | .ok a => ⟨.ok a, t, []⟩
  | .error e => ⟨.error e, t, [note e]⟩

/-- `with`: `leave` is run whether the body returns or raises, and swallows nothing. -/
def within (enter leave : Proc σ ω ε Unit) (body : Proc σ ω ε α) : Proc σ ω ε α := do
  enter
  let a ← tryCatch body fun e => do
    leave
    throw e
  leave
  return a

variable {x : Proc σ ω ε α} {s : σ}

theorem bind_ok {f : α → Proc σ ω ε β} {a : α} (h : (x s).result = .ok a) :
    (x >>= f) s = resume (x s) (f a) := by
  change Proc.bind x f s = _
  simp only [Proc.bind, h]

theorem bind_error {f : α → Proc σ ω ε β} {e : ε} (h : (x s).result = .error e) :
    (x >>= f) s = ⟨.error e, (x s).world, (x s).log⟩ := by
  change Proc.bind x f s = _
  simp only [Proc.bind, h]

private theorem tryCatch_ok {handler : ε → Proc σ ω ε α} {a : α} (h : (x s).result = .ok a) :
    tryCatch x handler s = x s := by
  change Proc.tryCatch x handler s = _
  simp only [Proc.tryCatch, h]

private theorem tryCatch_error {handler : ε → Proc σ ω ε α} {e : ε} (h : (x s).result = .error e) :
    tryCatch x handler s = resume (x s) (handler e) := by
  change Proc.tryCatch x handler s = _
  simp only [Proc.tryCatch, h]

end Proc

/-! ### What holds of a log and a result -/

/-- From every world, the log and the result of the procedure are related by `Q`. -/
def Sat (x : Proc σ ω ε α) (Q : List ω → Except ε α → Prop) : Prop :=
  ∀ s, Q (x s).log (x s).result

variable {x : Proc σ ω ε α} {P Q : List ω → Except ε α → Prop}

theorem Sat.mono (h : Sat x P) (weaker : ∀ o r, P o r → Q o r) : Sat x Q :=
  fun s => weaker _ _ (h s)

theorem Sat.and (h : Sat x P) (h' : Sat x Q) : Sat x fun o r => P o r ∧ Q o r :=
  fun s => ⟨h s, h' s⟩

theorem sat_pure {a : α} (h : Q [] (.ok a)) : Sat (pure a : Proc σ ω ε α) Q :=
  fun _ => h

private theorem sat_throw {e : ε} (h : Q [] (.error e)) : Sat (throw e : Proc σ ω ε α) Q :=
  fun _ => h

theorem sat_tell {entry : ω} {Q : List ω → Except ε Unit → Prop} (h : Q [entry] (.ok ())) :
    Sat (Proc.tell entry : Proc σ ω ε Unit) Q :=
  fun _ => h

theorem sat_call {note : ε → ω} {f : σ → Except ε α × σ} (returns : ∀ a, Q [] (.ok a))
    (raises : ∀ e, Q [note e] (.error e)) : Sat (Proc.call note f) Q := by
  intro s
  unfold Proc.call
  cases h : (f s).1 with
  | ok a => simpa only [h] using returns a
  | error e => simpa only [h] using raises e

theorem Sat.bind {f : α → Proc σ ω ε β} {Q : List ω → Except ε β → Prop} (first : Sat x P)
    (goes : ∀ o a, P o (.ok a) → Sat (f a) fun o' r => Q (o ++ o') r)
    (stops : ∀ o e, P o (.error e) → Q o (.error e)) : Sat (x >>= f) Q := by
  intro s
  have here := first s
  cases h : (x s).result with
  | ok a =>
    rw [Proc.bind_ok h]
    exact goes _ a (h ▸ here) (x s).world
  | error e =>
    rw [Proc.bind_error h]
    exact stops _ e (h ▸ here)

theorem sat_tell_bind {entry : ω} {f : Unit → Proc σ ω ε α}
    (next : Sat (f ()) fun o r => Q (entry :: o) r) : Sat (Proc.tell entry >>= f) Q := by
  refine Sat.bind (sat_tell (Q := fun o r => o = [entry] ∧ r = .ok ()) ⟨rfl, rfl⟩) ?_ ?_
  · rintro _ _ ⟨rfl, -⟩
    exact next
  · rintro _ _ ⟨-, ended⟩
    cases ended

theorem Sat.tryCatch {handler : ε → Proc σ ω ε α} (first : Sat x P)
    (returns : ∀ o a, P o (.ok a) → Q o (.ok a))
    (caught : ∀ o e, P o (.error e) → Sat (handler e) fun o' r => Q (o ++ o') r) :
    Sat (tryCatch x handler) Q := by
  intro s
  have here := first s
  cases h : (x s).result with
  | ok a =>
    rw [Proc.tryCatch_ok h, h]
    exact returns _ a (h ▸ here)
  | error e =>
    rw [Proc.tryCatch_error h]
    exact caught _ e (h ▸ here) (x s).world

/-- What a `with` leaves: its two ends stand around what the body leaves, and it may end with an
exception of theirs. -/
theorem Sat.within {E L : List ω → Except ε Unit → Prop} {enter leave : Proc σ ω ε Unit}
    (opens : Sat enter E) (closes : Sat leave L) (inner : Sat x P)
    (fails : ∀ o e, E o (.error e) → Q o (.error e))
    (ends : ∀ o o' o'' r, E o (.ok ()) → P o' r → L o'' (.ok ()) → Q (o ++ (o' ++ o'')) r)
    (replaces : ∀ o o' o'' r e, E o (.ok ()) → P o' r → L o'' (.error e) →
      Q (o ++ (o' ++ o'')) (.error e)) :
    Sat (Proc.within enter leave x) Q := by
  refine opens.bind (fun o _ before => ?_) fails
  refine Sat.bind (P := fun o' r => (∃ a, r = .ok a ∧ P o' (.ok a)) ∨
    ∃ e, r = .error e ∧ Q (o ++ o') (.error e)) (inner.tryCatch
      (fun _ a h => .inl ⟨a, rfl, h⟩) ?_) ?_ ?_
  · refine fun o' e h => closes.bind (fun o'' _ after => sat_throw ?_) fun o'' e' after => ?_
    · rw [List.append_nil]
      exact .inr ⟨e, rfl, ends o o' o'' _ before h after⟩
    · exact .inr ⟨e', rfl, replaces o o' o'' _ e' before h after⟩
  · rintro o' a (⟨b, same, h⟩ | ⟨_, raised, -⟩)
    · obtain rfl := Except.ok.inj same
      refine closes.bind (fun o'' _ after => sat_pure ?_) fun o'' e after =>
        replaces o o' o'' _ e before h after
      rw [List.append_nil]
      exact ends o o' o'' _ before h after
    · cases raised
  · rintro o' e (⟨_, returned, -⟩ | ⟨e', same, h⟩)
    · cases returned
    · obtain rfl := Except.error.inj same
      exact h

/-! ### What a procedure returns and raises -/

/-- From every world, what the procedure returns meets `U`, and what it raises meets `V`. -/
def Finishes (x : Proc σ ω ε α) (U : α → Prop) (V : ε → Prop) : Prop :=
  Sat x fun _ r => (∀ a, r = .ok a → U a) ∧ ∀ e, r = .error e → V e

variable {U : α → Prop} {V : ε → Prop}

private theorem finishes_ok {a : α} (h : U a) : (∀ b, (.ok a : Except ε α) = .ok b → U b) ∧
    ∀ e, (.ok a : Except ε α) = .error e → V e :=
  ⟨fun _ same => Except.ok.inj same ▸ h, fun _ => nofun⟩

private theorem finishes_error {e : ε} (h : V e) : (∀ a, (.error e : Except ε α) = .ok a → U a) ∧
    ∀ e', (.error e : Except ε α) = .error e' → V e' :=
  ⟨fun _ => nofun, fun _ same => Except.error.inj same ▸ h⟩

theorem finishes_pure {a : α} (h : U a) : Finishes (pure a : Proc σ ω ε α) U V :=
  sat_pure (finishes_ok h)

theorem Finishes.bind {W : β → Prop} {f : α → Proc σ ω ε β} (first : Finishes x U V)
    (next : ∀ a, U a → Finishes (f a) W V) : Finishes (x >>= f) W V :=
  Sat.bind first (fun _ a h => next a (h.1 a rfl)) fun _ e h => finishes_error (h.2 e rfl)

theorem finishes_call {note : ε → ω} {f : σ → Except ε α × σ}
    (returns : ∀ s a, (f s).1 = .ok a → U a) (raises : ∀ s e, (f s).1 = .error e → V e) :
    Finishes (Proc.call note f) U V := by
  intro s
  unfold Proc.call
  cases h : (f s).1 with
  | ok a => simpa only [h] using finishes_ok (returns s a h)
  | error e => simpa only [h] using finishes_error (raises s e h)

/-- A body in a `with` returns what it returns by itself. -/
theorem Finishes.within {A B : Unit → Prop} {enter leave : Proc σ ω ε Unit}
    (opens : Finishes enter A V) (closes : Finishes leave B V) (inner : Finishes x U V) :
    Finishes (Proc.within enter leave x) U V :=
  Sat.within opens closes inner (fun _ e h => finishes_error (h.2 e rfl)) (fun _ _ _ _ _ h _ => h)
    fun _ _ _ _ e _ _ h => finishes_error (h.2 e rfl)

/-! ### Relations that procedures compose -/

/-- A relation that holds of a sequence of procedures when it holds of its parts, however
these end, and of a body with what is run on the way out of it. -/
structure Compositional (R : ∀ α : Type, List ω → Except ε α → Prop) : Prop where
  done : ∀ {α : Type} (a : α), R α [] (.ok a)
  goes : ∀ {α β : Type} {o o' : List ω} {a : α} {r : Except ε β},
    R α o (.ok a) → R β o' r → R β (o ++ o') r
  stops : ∀ {α β : Type} {o : List ω} {e : ε}, R α o (.error e) → R β o (.error e)
  cleans : ∀ {α : Type} {o o' : List ω} {e : ε},
    R α o (.error e) → R Unit o' (.ok ()) → R α (o ++ o') (.error e)
  replaces : ∀ {α : Type} {o o' : List ω} {e e' : ε},
    R α o (.error e) → R Unit o' (.error e') → R α (o ++ o') (.error e')

namespace Compositional

variable {R : ∀ α : Type, List ω → Except ε α → Prop} (closed : Compositional R)
include closed

protected theorem pure (a : α) : Sat (pure a : Proc σ ω ε α) (R α) :=
  sat_pure (closed.done a)

theorem bind {f : α → Proc σ ω ε β} (first : Sat x (R α)) (next : ∀ a, Sat (f a) (R β)) :
    Sat (x >>= f) (R β) :=
  first.bind (fun _ a h => (next a).mono fun _ _ h' => closed.goes h h') fun _ _ h => closed.stops h

theorem within {enter leave : Proc σ ω ε Unit} (opens : Sat enter (R Unit))
    (closes : Sat leave (R Unit)) (inner : Sat x (R α)) :
    Sat (Proc.within enter leave x) (R α) := by
  refine closed.bind opens fun _ => closed.bind (inner.tryCatch (fun _ _ h => h) ?_) fun a =>
    closed.bind closes fun _ => closed.pure a
  intro o e h
  refine closes.bind (fun o' _ h' => sat_throw ?_) fun o' e' h' => closed.replaces h h'
  rw [List.append_nil]
  exact closed.cleans h h'

end Compositional

end XttsServer.Foundations.Effects
