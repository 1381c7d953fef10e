import XttsServer.Guarantees.Endpoints

/-!
A batch is the same as its items one by one: what `submit_batch` leaves behind when it
accepts is what `submit_tts` leaves behind, called for each item in turn.
-/

set_option autoImplicit false
set_option relaxedAutoImplicit false

namespace XttsServer.Guarantees

open XttsServer.Model XttsServer.Foundations.Transition

variable {cfg : Config} {s s' : State} {speakers : SpeakerView} {o told : List Obs}

def answersSubmission : Obs → Bool
  | .batch _ _ => true
  | .tts _ _ => true
  | _ => false

def answersIn (o : List Obs) : List Obs := o.filter answersSubmission

def doingsIn (o : List Obs) : List Obs := o.filter fun obs => !answersSubmission obs

/-- The items as single requests, with the ids that the batch would draw. -/
def singles (speakers : SpeakerView) (items : List BatchItem) (ids : List JobId) : List Event :=
  (items.zip ids).map fun p => .submitTts p.1 speakers p.2 false

/-- The batch is accepted, comes to `s'` and does this. -/
def BatchComesTo (cfg : Config) (s : State) (speakers : SpeakerView) (items : List BatchItem)
    (ids : List JobId) (s' : State) (told : List Obs) : Prop :=
  ∃ o, step cfg s (.submitBatch items speakers ids none) = some (s', o) ∧
    answersIn o = [.batch ids (.ok ())] ∧ doingsIn o = told

/-- The single requests are all accepted, come to `s'` and do this. -/
def SinglesComeTo (cfg : Config) (s : State) (speakers : SpeakerView) (items : List BatchItem)
    (ids : List JobId) (s' : State) (told : List Obs) : Prop :=
  ∃ o, exec (server cfg) anyStep s (singles speakers items ids) = some (s', o) ∧
    answersIn o = ids.map (fun j => .tts j (.ok ())) ∧ doingsIn o = told

/-! ### What both of them do -/

def afterOne (cfg : Config) (s : State) (r : Resolved) (j : JobId) : State :=
  { makeQueue (createJob s r j) with queue := s.queue ++ [storeItem cfg s r j] }

/-- The validated items are enqueued one after the other, each of them finding room. -/
inductive Enqueued (cfg : Config) : State → List (Resolved × JobId) → State → List Obs → Prop
  | nil {s : State} : Enqueued cfg s [] s []
  | cons {s s' : State} {r : Resolved} {j : JobId} {rest : List (Resolved × JobId)} {o : List Obs}
      (room : queueFull cfg s = false) (tail : Enqueued cfg (afterOne cfg s r j) rest s' o) :
      Enqueued cfg s ((r, j) :: rest) s' (.created j :: .accepted (storeItem cfg s r j) :: o)

private theorem Enqueued.doings {rest : List (Resolved × JobId)} (h : Enqueued cfg s rest s' o) :
    answersIn o = [] ∧ doingsIn o = o := by
  induction h with
  | nil => exact ⟨rfl, rfl⟩
  | cons room tail ih => exact ⟨ih.1, congrArg (_ :: _ :: ·) ih.2⟩

private theorem submitOne_afterOne (room : queueFull cfg s = false) (r : Resolved) (j : JobId) :
    submitOne cfg s r j false =
      ((afterOne cfg s r j, [.created j, .accepted (storeItem cfg s r j)]), .enqueued) :=
  submitOne_room room r

private theorem nowhere : decide ((none : Option Nat) = some 0) = false := rfl

private theorem submitLoop_of_enqueued {rest : List (Resolved × JobId)}
    (h : Enqueued cfg s rest s' o) (created : List JobId) :
    submitLoop cfg s created rest none = ((s', o), created ++ rest.map Prod.snd, .ok ()) := by
  induction h generalizing created with
  | nil => simp [submitLoop]
  | cons room tail ih =>
    rw [submitLoop, nowhere, submitOne_afterOne room]
    simp only [Option.map_none, ih, List.map_cons, List.append_assoc]
    rfl

private theorem enqueued_of_submitLoop {rest : List (Resolved × JobId)} {created all : List JobId}
    (run : submitLoop cfg s created rest none = ((s', o), all, .ok ())) :
    Enqueued cfg s rest s' o := by
  induction rest generalizing s created o with
  | nil =>
    simp only [submitLoop, Prod.mk.injEq] at run
    obtain ⟨⟨rfl, rfl⟩, -⟩ := run
    exact .nil
  | cons p rest ih =>
    obtain ⟨r, j⟩ := p
    by_cases room : queueFull cfg s = false
    · rw [submitLoop, nowhere, submitOne_afterOne room] at run
      rcases loop : submitLoop cfg (afterOne cfg s r j) (created ++ [j]) rest none with
        ⟨⟨s₂, o₂⟩, all₂, answer₂⟩
      simp only [Option.map_none, loop, Prod.mk.injEq] at run
      obtain ⟨⟨rfl, rfl⟩, rfl, rfl⟩ := run
      exact .cons room (ih loop)
    · rcases one : submitOne cfg s r j false with ⟨⟨s₁, o₁⟩, answer⟩
      rcases submitOne_cases one with ⟨raised, -⟩ | ⟨found, -⟩ | ⟨-, rfl, -⟩
      · cases raised
      · exact absurd found room
      · rw [submitLoop, nowhere, one] at run
        simp at run

/-! ### One by one -/

/-- Each item passes the checks of `submit_tts`, with this outcome. -/
def Passes (cfg : Config) (speakers : SpeakerView) (items : List BatchItem) (rs : List Resolved) :
    Prop :=
  List.Forall₂ (fun item r => resolveTts cfg.settings speakers item = .ok r) items rs

private theorem fresh_cons {j : JobId} {ids : List JobId} (s₁ : State)
    (fresh : s.fresh (j :: ids) = true) (used : s₁.used = j :: s.used) :
    s.fresh [j] = true ∧ s₁.fresh ids = true := by
  simp only [State.fresh, Bool.and_eq_true, decide_eq_true_eq, List.nodup_cons, List.all_cons,
    List.all_eq_true, used, List.mem_cons] at fresh ⊢
  obtain ⟨⟨absent, nodup⟩, ⟨uuid, unused⟩, others⟩ := fresh
  refine ⟨⟨by simp, ⟨uuid, unused⟩, by simp⟩, nodup, fun k member => ⟨(others k member).1, ?_⟩⟩
  rintro (rfl | old)
  · exact absent member
  · exact (others k member).2 old

/-- A single request that passes the checks and finds room. -/
private theorem step_accepts {item : BatchItem} {r : Resolved} {j : JobId}
    (fresh : s.fresh [j] = true) (checked : resolveTts cfg.settings speakers item = .ok r)
    (room : queueFull cfg s = false) :
    step cfg s (.submitTts item speakers j false) = some (afterOne cfg s r j,
      [.created j, .accepted (storeItem cfg s r j), .tts j (.ok ())]) := by
  simp [step, fresh, submitTts, checked, submitOne_afterOne room]

private theorem step_refuses {item : BatchItem} {j : JobId}
    (refused : ∀ r, resolveTts cfg.settings speakers item = .ok r → queueFull cfg s ≠ false)
    (taken : step cfg s (.submitTts item speakers j false) = some (s', o)) :
    ∃ e, answersIn o = [.tts j (.error e)] := by
  simp only [step] at taken
  split_ifs at taken
  unfold submitTts at taken
  split at taken
  · rename_i e _
    obtain ⟨-, rfl⟩ := Prod.mk.inj (Option.some.inj taken)
    exact ⟨e, rfl⟩
  · rename_i r checked
    rcases one : submitOne cfg s r j false with ⟨⟨s₁, o₁⟩, answer⟩
    rcases submitOne_cases one with ⟨raised, -⟩ | ⟨found, -⟩ | ⟨-, rfl, -, rfl⟩
    · cases raised
    · exact absurd found (refused r checked)
    · simp only [one, markFailed] at taken
      obtain ⟨-, rfl⟩ := Prod.mk.inj (Option.some.inj taken)
      refine ⟨.http 503 (queueFullText cfg s), ?_⟩
      split_ifs <;> rfl

private theorem exec_singles (item : BatchItem) (items : List BatchItem) (j : JobId)
    (ids : List JobId) :
    exec (server cfg) anyStep s (singles speakers (item :: items) (j :: ids)) =
      (step cfg s (.submitTts item speakers j false)).bind fun (t, o) =>
        (exec (server cfg) anyStep t (singles speakers items ids)).map fun (u, o') =>
          (u, o ++ o') :=
  if_pos trivial

private theorem singles_of_enqueued {items : List BatchItem} {rs : List Resolved} {ids : List JobId}
    (passes : Passes cfg speakers items rs) (length : ids.length = items.length)
    (fresh : s.fresh ids = true) (h : Enqueued cfg s (rs.zip ids) s' told) :
    SinglesComeTo cfg s speakers items ids s' told := by
  induction passes generalizing s ids told with
  | nil =>
    obtain rfl := List.length_eq_zero_iff.mp length
    cases h
    exact ⟨[], rfl, rfl, rfl⟩
  | @cons item r items rs checked passes ih =>
    obtain ⟨j, ids, rfl⟩ : ∃ j rest, ids = j :: rest := List.exists_cons_of_length_eq_add_one length
    cases h with
    | cons room tail =>
      obtain ⟨now, later⟩ := fresh_cons (afterOne cfg s r j) fresh rfl
      obtain ⟨o, run, answers, doings⟩ := ih (Nat.succ.inj length) later tail
      refine ⟨[.created j, .accepted (storeItem cfg s r j), .tts j (.ok ())] ++ o, ?_, ?_, ?_⟩
      · simp only [exec_singles, step_accepts now checked room, Option.bind_some, run,
          Option.map_some]
      · rw [List.map_cons, ← answers]
        rfl
      · rw [← doings]
        rfl

private theorem enqueued_of_singles {items : List BatchItem} {ids : List JobId}
    (length : ids.length = items.length) (fresh : s.fresh ids = true)
    (h : SinglesComeTo cfg s speakers items ids s' told) :
    ∃ rs, Passes cfg speakers items rs ∧ Enqueued cfg s (rs.zip ids) s' told := by
  obtain ⟨o, run, answers, rfl⟩ := h
  induction items generalizing s ids o with
  | nil =>
    obtain ⟨rfl, rfl⟩ : s = s' ∧ [] = o := by simpa [singles, exec] using run
    exact ⟨[], .nil, .nil⟩
  | cons item items ih =>
    obtain ⟨j, ids, rfl⟩ : ∃ j rest, ids = j :: rest := List.exists_cons_of_length_eq_add_one length
    rw [exec_singles] at run
    obtain ⟨⟨s₁, o₁⟩, first, rest⟩ := Option.bind_eq_some_iff.mp run
    obtain ⟨⟨s₂, o₂⟩, tail, same⟩ := Option.map_eq_some_iff.mp rest
    obtain ⟨rfl, rfl⟩ := Prod.mk.inj same
    rw [answersIn, List.filter_append, ← answersIn, ← answersIn] at answers
    by_cases accepts : ∃ r, resolveTts cfg.settings speakers item = .ok r ∧ queueFull cfg s = false
    · obtain ⟨r, checked, room⟩ := accepts
      obtain ⟨now, later⟩ := fresh_cons (afterOne cfg s r j) fresh rfl
      rw [step_accepts now checked room] at first
      obtain ⟨rfl, rfl⟩ := Prod.mk.inj (Option.some.inj first)
      obtain ⟨rs, passes, enqueued⟩ := ih (Nat.succ.inj length) later o₂ tail
        (List.cons.inj answers).2
      exact ⟨r :: rs, .cons checked passes, .cons room enqueued⟩
    · obtain ⟨e, told⟩ := step_refuses (fun r checked room => accepts ⟨r, checked, room⟩) first
      rw [told] at answers
      cases (List.cons.inj answers).1

/-! ### All at once -/

private theorem resolveBatchItem_alike {settings : Settings} {item : BatchItem}
    (supported : settings.defaultLanguage ∈ supportedLanguages)
    (stated : item.language ≠ some "") (idx : Nat) (r : Resolved) :
    resolveBatchItem settings speakers idx item = .ok r ↔
      resolveTts settings speakers item = .ok r := by
  have passed : ∀ outcome : Except Exc Resolved, outcome = .ok r ↔ outcome.toOption = some r := by
    rintro (e | r') <;> simp [Except.toOption]
  have alike := (language_checks_agree_iff item.language settings.defaultLanguage).mpr
    ⟨fun _ => supported, fun empty => absurd empty stated⟩
  rw [passed, passed, resolveBatchItem_eq, resolveTts_eq, if_congr alike rfl rfl]

private theorem resolveItems_ok_iff {items : List BatchItem}
    (supported : cfg.settings.defaultLanguage ∈ supportedLanguages)
    (stated : ∀ item ∈ items, item.language ≠ some "") (idx : Nat) (rs : List Resolved) :
    resolveItems cfg.settings speakers idx items = .ok rs ↔ Passes cfg speakers items rs := by
  induction items generalizing idx rs with
  | nil =>
    rw [Passes, List.forall₂_nil_left_iff, resolveItems, Except.ok.injEq, eq_comm]
  | cons item items ih =>
    have first : ∀ idx r, resolveBatchItem cfg.settings speakers idx item = .ok r ↔
        resolveTts cfg.settings speakers item = .ok r :=
      resolveBatchItem_alike supported (stated item List.mem_cons_self)
    have others := ih fun item member => stated item (List.mem_cons_of_mem _ member)
    constructor
    · intro checked
      obtain ⟨r, tail, rfl, head, rest⟩ := resolveItems_cons checked
      exact .cons ((first idx r).mp head) ((others (idx + 1) tail).mp rest)
    · rintro (_ | @⟨_, r, _, tail, head, rest⟩)
      rw [resolveItems, (first idx r).mpr head, ok_bind, (others (idx + 1) tail).mpr rest, ok_bind]
      rfl

/-- An accepted batch and its items one by one: the one is accepted if and only if all the others
are, they come to the very same state, and on the way they create the same records and enqueue
the same requests in the same order. -/
theorem batch_as_singles {items : List BatchItem} {ids : List JobId} (some_item : 1 ≤ items.length)
    (few : items.length ≤ maxBatchSize) (length : ids.length = items.length)
    (fresh : s.fresh ids = true) (supported : cfg.settings.defaultLanguage ∈ supportedLanguages)
    (stated : ∀ item ∈ items, item.language ≠ some "") (s' : State) (told : List Obs) :
    BatchComesTo cfg s speakers items ids s' told ↔
      SinglesComeTo cfg s speakers items ids s' told := by
  have checks : ∀ rs, resolveBatch cfg.settings speakers items = .ok rs ↔
      Passes cfg speakers items rs := fun rs => by
    rw [resolveBatch, if_neg (Nat.not_lt.mpr some_item), if_neg (Nat.not_lt.mpr few)]
    exact resolveItems_ok_iff supported stated 0 rs
  have named : ∀ {rs : List Resolved}, Passes cfg speakers items rs →
      (rs.zip ids).map Prod.snd = ids :=
    fun passes => List.map_snd_zip (by rw [length, passes.length_eq])
  constructor
  · rintro ⟨o, taken, answers, rfl⟩
    simp only [step] at taken
    split_ifs at taken
    unfold submitBatch at taken
    split at taken
    · obtain ⟨-, rfl⟩ := Prod.mk.inj (Option.some.inj taken)
      cases (List.cons.inj answers).1
    · rename_i rs checked
      have passes := (checks rs).mp checked
      rcases loop : submitLoop cfg s [] (rs.zip ids) none with ⟨⟨s₁, o₁⟩, all, answer⟩
      rw [loop] at taken
      obtain ⟨rfl, rfl⟩ := Prod.mk.inj (Option.some.inj taken)
      have last : answersIn (o₁ ++ [.batch all answer]) = answersIn o₁ ++ [.batch all answer] :=
        List.filter_append ..
      obtain ⟨-, same⟩ := List.append_inj' (last.symm.trans answers : _ = [] ++ [_]) rfl
      obtain ⟨rfl, rfl⟩ : all = ids ∧ answer = .ok () := by simpa using same
      have enqueued := enqueued_of_submitLoop loop
      have doings : doingsIn (o₁ ++ [.batch all (.ok ())]) = o₁ := by
        rw [doingsIn, List.filter_append, ← doingsIn, enqueued.doings.2]
        exact List.append_nil o₁
      rw [doings]
      exact singles_of_enqueued passes length fresh enqueued
  · intro single
    obtain ⟨rs, passes, enqueued⟩ := enqueued_of_singles length fresh single
    have loop := submitLoop_of_enqueued enqueued []
    rw [List.nil_append, named passes] at loop
    refine ⟨told ++ [.batch ids (.ok ())], ?_, ?_, ?_⟩
    · simp [step, fresh, length, submitBatch, (checks rs).mpr passes, loop]
    · rw [answersIn, List.filter_append, ← answersIn, enqueued.doings.1]
      rfl
    · rw [doingsIn, List.filter_append, ← doingsIn, enqueued.doings.2]
      exact List.append_nil told

def greetings : List BatchItem := [sayHello, { sayHello with language := some "fr" }]

private theorem greetings_run : (exec (server oneWorker) anyStep (State.init oneWorker)
    (singles noSpeakers greetings ["a", "b"])).isSome = true := by decide +kernel

theorem batch_as_singles_greetings : ∃ s' told,
    SinglesComeTo oneWorker (State.init oneWorker) noSpeakers greetings ["a", "b"] s' told ∧
      BatchComesTo oneWorker (State.init oneWorker) noSpeakers greetings ["a", "b"] s' told := by
  have single :
      SinglesComeTo oneWorker (State.init oneWorker) noSpeakers greetings ["a", "b"] _ _ :=
    ⟨_, (Option.some_get greetings_run).symm, by decide +kernel, rfl⟩
  exact ⟨_, _, single, (batch_as_singles (by decide) (by decide) rfl (by decide +kernel) (by decide)
    (by decide) _ _).mpr single⟩

end XttsServer.Guarantees
