import XttsServer.Guarantees.Slots

/-!
Whether the three endpoints that synthesise accept the same items, and pass the
same on to the workers.
-/

set_option autoImplicit false
set_option relaxedAutoImplicit false

namespace XttsServer.Guarantees

open XttsServer.Model

variable {cfg : Config} {s : State} {speakers : SpeakerView} {item : TtsRequest} {jobId : JobId}

/-- What a worker gets of an item. -/
structure Payload where
  text : String
  language : String
  gptCondLatent : Ndarray
  speakerEmbedding : Ndarray
  params : InferenceParams
  deriving DecidableEq

def payload? : Request → Option Payload
  | .synthesis r => some ⟨r.text, r.language, r.gptCondLatent, r.speakerEmbedding, r.params⟩
  | .stream r => some ⟨r.text, r.language, r.gptCondLatent, r.speakerEmbedding, r.params⟩
  | .computeLatents _ => none

def payloads (o : List Obs) :
    List Payload := (accepted o).filterMap fun item => payload? item.request

/-- The item as `POST /v1/tts` gets it, with its answer. -/
def byTts (cfg : Config) (s : State) (speakers : SpeakerView) (item : TtsRequest) (jobId : JobId) :
    Effect × Except Exc Unit := submitTts cfg s item speakers jobId false

def byBatch (cfg : Config) (s : State) (speakers : SpeakerView) (item : TtsRequest)
    (jobId : JobId) :
    Effect × Except Exc Unit := submitBatch cfg s [item] speakers [jobId] none

/-- The stream of that item, without its format. -/
def byStream (cfg : Config) (s : State) (speakers : SpeakerView) (item : TtsRequest)
    (jobId : JobId) :
    Effect :=
  streamTts cfg s
    { text := item.text, language := item.language, speaker := item.speaker, params := item.params }
    speakers jobId

/-- The endpoints accept the item or none of them does, and they pass on the same. -/
structure AcceptAlike (cfg : Config) (s : State) (speakers : SpeakerView) (item : TtsRequest)
    (jobId : JobId) : Prop where
  answers : (byTts cfg s speakers item jobId).2 = .ok () ↔
    (byBatch cfg s speakers item jobId).2 = .ok ()
  batch : payloads (byTts cfg s speakers item jobId).1.2 = payloads
    (byBatch cfg s speakers item jobId).1.2
  stream : payloads (byTts cfg s speakers item jobId).1.2 = payloads
    (byStream cfg s speakers item jobId).2
  accepted : (byTts cfg s speakers item jobId).2 = .ok () ↔
    payloads (byTts cfg s speakers item jobId).1.2 ≠ []
  supported : ∀ p ∈ payloads (byTts cfg s speakers item jobId).1.2, p.language ∈ supportedLanguages

/-- An item that is let through otherwise has a language, or leaves it to a supported default. -/
def languageClear (settings : Settings) (speakers : SpeakerView) (item : TtsRequest) : Prop :=
  (item.text.length : Int) ≤ settings.maxTextLength →
    (∃ found, resolveSpeaker speakers item.speaker = .ok found) →
    (item.language = none → settings.defaultLanguage ∈ supportedLanguages) ∧
      (item.language = some "" → settings.defaultLanguage ∉ supportedLanguages)

/-! ### What the checks let through -/

/-- The text fits, and the speaker has latents. -/
def loads (settings : Settings) (speakers : SpeakerView) (item : TtsRequest) :
    Option (Ndarray × Ndarray × String) :=
  if (item.text.length : Int) ≤ settings.maxTextLength then
    (resolveSpeaker speakers item.speaker).toOption
  else none

def resolvedBy (settings : Settings) (item : TtsRequest) : Ndarray × Ndarray × String → Resolved
  | (gpt, emb, speakerId) =>
    ⟨item.text, orDefault item.language settings.defaultLanguage, gpt, emb, speakerId, item.format,
      item.params⟩

private theorem checkLanguage_ok_iff {language : Option String} :
    checkLanguage language = .ok () ↔ ∀ v, language = some v → v ∈ supportedLanguages := by
  cases language with
  | none => simp [checkLanguage]
  | some v =>
    by_cases known : v ∈ supportedLanguages <;> simp [checkLanguage, known]

theorem resolveTts_eq (settings : Settings) (speakers : SpeakerView) (item : TtsRequest) :
    (resolveTts settings speakers item).toOption =
      if ∀ v, item.language = some v → v ∈ supportedLanguages then
        (loads settings speakers item).map (resolvedBy settings item)
      else none := by
  rw [resolveTts, loads]
  by_cases fits : (item.text.length : Int) ≤ settings.maxTextLength
  · rw [if_pos fits, if_neg (Int.not_lt.mpr fits)]
    cases check : checkLanguage item.language with
    | error e =>
      rw [if_neg (fun known => by rw [checkLanguage_ok_iff.mpr known] at check; cases check)]
      rfl
    | ok u =>
      rw [if_pos (checkLanguage_ok_iff.mp check)]
      cases resolveSpeaker speakers item.speaker <;> rfl
  · rw [if_neg fits, if_pos (Int.not_le.mp fits)]
    cases checkLanguage item.language with
    | error e => simp [error_bind, Except.toOption]
    | ok u => simp [throw_bind, ok_bind, Except.toOption]

theorem resolveBatchItem_eq (settings : Settings) (speakers : SpeakerView) (item : TtsRequest)
    (idx : Nat) :
    (resolveBatchItem settings speakers idx item).toOption =
      if orDefault item.language settings.defaultLanguage ∈ supportedLanguages then
        (loads settings speakers item).map (resolvedBy settings item)
      else none := by
  have format : item.format ∈ supportedFormats := by cases item.format <;> decide
  rw [resolveBatchItem, loads]
  by_cases fits : (item.text.length : Int) ≤ settings.maxTextLength
  · rw [if_pos fits, if_neg (Int.not_lt.mpr fits)]
    by_cases known : orDefault item.language settings.defaultLanguage ∈ supportedLanguages
    · simp only [if_pos known, not_not.mpr known, not_not.mpr format, if_false]
      cases resolveSpeaker speakers item.speaker with
      | ok found => rfl
      | error e => cases e <;> rfl
    · simp [if_neg known, throw_bind, Except.toOption]
  · rw [if_neg fits, if_pos (Int.not_le.mp fits)]
    simp [throw_bind, Except.toOption]

private theorem resolveStream_eq (settings : Settings) (speakers : SpeakerView)
    (item : TtsRequest) :
    (resolveStream settings speakers
        { text := item.text, language := item.language, speaker := item.speaker,
          params := item.params }).toOption =
      if orDefault item.language settings.defaultLanguage ∈ supportedLanguages then
        (loads settings speakers item).map fun found =>
          (orDefault item.language settings.defaultLanguage, found.1, found.2.1)
      else none := by
  rw [resolveStream, loads]
  by_cases fits : (item.text.length : Int) ≤ settings.maxTextLength
  · rw [if_pos fits, if_neg (Int.not_lt.mpr fits)]
    by_cases known : orDefault item.language settings.defaultLanguage ∈ supportedLanguages
    · simp only [if_pos known, not_not.mpr known, if_false]
      cases resolveSpeaker speakers item.speaker <;> rfl
    · simp [if_neg known, throw_bind, Except.toOption]
  · rw [if_neg fits, if_pos (Int.not_le.mp fits)]
    simp [throw_bind, Except.toOption]

/-! ### What is passed on -/

def carried (r : Resolved) : Payload :=
  ⟨r.text, r.language, r.gptCondLatent, r.speakerEmbedding, r.params⟩

theorem submitOne_room (room : queueFull cfg s = false) (r : Resolved) :
    submitOne cfg s r jobId false =
      (({ makeQueue (createJob s r jobId) with queue := s.queue ++ [storeItem cfg s r jobId] },
        [.created jobId, .accepted (storeItem cfg s r jobId)]), .enqueued) := by
  cases one : submitOne cfg s r jobId false with
  | mk effect answer =>
    obtain ⟨s', o⟩ := effect
    rcases submitOne_cases one with ⟨raised, -⟩ | ⟨-, rfl, rfl, rfl⟩ | ⟨full, -⟩
    · cases raised
    · rfl
    · rw [room] at full
      cases full

private theorem payloads_storeItem (r : Resolved) (o : List Obs) :
    payloads (.created jobId :: .accepted (storeItem cfg s r jobId) :: o) =
      carried r :: payloads o := rfl

private theorem byTts_eq (room : queueFull cfg s = false) (speakers : SpeakerView)
    (item : TtsRequest) (jobId : JobId) :
    payloads (byTts cfg s speakers item jobId).1.2 =
        ((resolveTts cfg.settings speakers item).toOption.map carried).toList ∧
      ((byTts cfg s speakers item jobId).2 = .ok () ↔
        (resolveTts cfg.settings speakers item).toOption ≠ none) := by
  unfold byTts submitTts
  cases resolveTts cfg.settings speakers item with
  | error e => simp [payloads, Except.toOption]
  | ok r =>
    simp only [submitOne_room room]
    exact ⟨payloads_storeItem r _, iff_of_true trivial (Option.some_ne_none _)⟩

private theorem byBatch_eq (room : queueFull cfg s = false) (speakers : SpeakerView)
    (item : TtsRequest) (jobId : JobId) :
    payloads (byBatch cfg s speakers item jobId).1.2 =
        ((resolveBatchItem cfg.settings speakers 0 item).toOption.map carried).toList ∧
      ((byBatch cfg s speakers item jobId).2 = .ok () ↔
        (resolveBatchItem cfg.settings speakers 0 item).toOption ≠ none) := by
  have single : resolveBatch cfg.settings speakers [item] =
      (resolveBatchItem cfg.settings speakers 0 item).map fun r => [r] := by
    rw [resolveBatch, if_neg (by simp), if_neg (by simp [maxBatchSize])]
    cases first : resolveBatchItem cfg.settings speakers 0 item <;>
      simp [resolveItems, first, bind, Except.bind, pure, Except.pure, Except.map]
  unfold byBatch submitBatch
  rw [single]
  cases resolveBatchItem cfg.settings speakers 0 item with
  | error e => simp [payloads, Except.toOption, Except.map]
  | ok r =>
    have quiet : decide ((none : Option Nat) = some 0) = false := rfl
    simp only [Except.map, List.zip_cons_cons, List.zip_nil_left, submitLoop, quiet,
      submitOne_room room]
    exact ⟨payloads_storeItem r _, iff_of_true trivial (Option.some_ne_none _)⟩

private theorem byStream_eq (room : queueFull cfg s = false) (speakers : SpeakerView)
    (item : TtsRequest) (jobId : JobId) :
    payloads (byStream cfg s speakers item jobId).2 =
      ((resolveStream cfg.settings speakers
          { text := item.text, language := item.language, speaker := item.speaker,
            params := item.params }).toOption.map fun found =>
        ⟨item.text, found.1, found.2.1, found.2.2, item.params⟩).toList := by
  unfold byStream streamTts
  cases resolveStream cfg.settings speakers
      { text := item.text, language := item.language, speaker := item.speaker,
        params := item.params } with
  | error e => simp [payloads, Except.toOption]
  | ok found =>
    obtain ⟨language, gpt, emb⟩ := found
    have still : queueFull cfg (makeQueue { s with used := jobId :: s.used }) = false := room
    simp only [enqueue, still, Bool.false_eq_true, if_false]
    rfl

/-! ### Agreement -/

private theorem loads_some_iff {settings : Settings} :
    (∃ found, loads settings speakers item = some found) ↔
      (item.text.length : Int) ≤ settings.maxTextLength ∧
        ∃ found, resolveSpeaker speakers item.speaker = .ok found := by
  rw [loads]
  split_ifs with fits
  · cases resolveSpeaker speakers item.speaker <;> simp [Except.toOption, fits]
  · simp [fits]

/-- The validator of `TtsRequest` looks at the language that is given, the other two at the one
that is used. -/
theorem language_checks_agree_iff (language : Option String) (default : String) :
    ((∀ v, language = some v → v ∈ supportedLanguages) ↔
        orDefault language default ∈ supportedLanguages) ↔
      (language = none → default ∈ supportedLanguages) ∧
        (language = some "" → default ∉ supportedLanguages) := by
  have empty : "" ∉ supportedLanguages := by decide
  cases language with
  | none => simp [orDefault]
  | some v =>
    by_cases omitted : v = ""
    · subst omitted
      simp [orDefault, empty]
    · simp [orDefault, omitted]

private theorem alike_of_rejected (tts : payloads (byTts cfg s speakers item jobId).1.2 = [])
    (batch : payloads (byBatch cfg s speakers item jobId).1.2 = [])
    (stream : payloads (byStream cfg s speakers item jobId).2 = [])
    (ttsAnswer : (byTts cfg s speakers item jobId).2 ≠ .ok ())
    (batchAnswer : (byBatch cfg s speakers item jobId).2 ≠ .ok ()) :
    AcceptAlike cfg s speakers item jobId := by
  refine ⟨iff_of_false ttsAnswer batchAnswer, tts.trans batch.symm, tts.trans stream.symm,
    iff_of_false ttsAnswer (not_not.mpr tts), fun p member => ?_⟩
  rw [tts] at member
  cases member

/-- The three endpoints agree on an item exactly where its language is clear. -/
theorem accept_alike_iff (room : queueFull cfg s = false) :
    AcceptAlike cfg s speakers item jobId ↔ languageClear cfg.settings speakers item := by
  obtain ⟨tts, ttsAnswer⟩ := byTts_eq room speakers item jobId
  obtain ⟨batch, batchAnswer⟩ := byBatch_eq room speakers item jobId
  have stream := byStream_eq room speakers item jobId
  rw [resolveTts_eq] at tts ttsAnswer
  rw [resolveBatchItem_eq] at batch batchAnswer
  rw [resolveStream_eq] at stream
  have clear := language_checks_agree_iff item.language cfg.settings.defaultLanguage
  cases found : loads cfg.settings speakers item with
  | none =>
    have unheard : ¬ ∃ found, loads cfg.settings speakers item = some found := by simp [found]
    rw [loads_some_iff] at unheard
    simp only [found, Option.map_none, ite_self, Option.toList_none, ne_eq, not_true,
      iff_false] at tts ttsAnswer batch batchAnswer stream
    exact iff_of_true (alike_of_rejected tts batch stream ttsAnswer batchAnswer)
      fun fits heard => absurd ⟨fits, heard⟩ unheard
  | some latents =>
    obtain ⟨fits, heard⟩ := loads_some_iff.mp ⟨latents, found⟩
    have here : languageClear cfg.settings speakers item ↔
        ((∀ v, item.language = some v → v ∈ supportedLanguages) ↔
          orDefault item.language cfg.settings.defaultLanguage ∈ supportedLanguages) :=
      (forall_prop_of_true fits).trans ((forall_prop_of_true heard).trans clear.symm)
    rw [here]
    simp only [found, Option.map_some] at tts ttsAnswer batch batchAnswer stream
    by_cases allowed : ∀ v, item.language = some v → v ∈ supportedLanguages <;>
      by_cases known : orDefault item.language cfg.settings.defaultLanguage ∈ supportedLanguages
    · rw [if_pos allowed] at tts ttsAnswer
      rw [if_pos known] at batch batchAnswer stream
      have ttsOk := ttsAnswer.mpr (Option.some_ne_none _)
      refine iff_of_true ⟨?_, ?_, ?_, ?_, ?_⟩ (iff_of_true allowed known)
      · exact iff_of_true ttsOk (batchAnswer.mpr (Option.some_ne_none _))
      · rw [tts, batch]
      · rw [tts, stream]
        rfl
      · rw [tts]
        exact iff_of_true ttsOk (List.cons_ne_nil _ _)
      · intro p member
        rw [tts, Option.map_some, Option.toList_some, List.mem_singleton] at member
        rw [member]
        exact known
    · rw [if_pos allowed] at tts
      rw [if_neg known] at batch
      refine iff_of_false (fun alike => ?_) fun same => known (same.mp allowed)
      have differs := alike.batch
      rw [tts, batch] at differs
      cases differs
    · rw [if_neg allowed] at tts
      rw [if_pos known] at batch
      refine iff_of_false (fun alike => ?_) fun same => allowed (same.mpr known)
      have differs := alike.batch
      rw [tts, batch] at differs
      cases differs
    · rw [if_neg allowed] at tts ttsAnswer
      rw [if_neg known] at batch batchAnswer stream
      exact iff_of_true (alike_of_rejected tts batch stream (mt ttsAnswer.mp (not_not.mpr rfl))
        (mt batchAnswer.mp (not_not.mpr rfl))) (iff_of_false allowed known)

theorem accept_alike_iff_say_hello :
    AcceptAlike oneWorker (State.init oneWorker) noSpeakers sayHello "a" ↔
      languageClear oneWorker.settings noSpeakers sayHello := accept_alike_iff (by decide)

/-- An item whose language is the empty string. -/
def sayHelloInNoLanguage : TtsRequest := { sayHello with language := some "" }

/-- A batch takes the empty language for an omitted one, `POST /v1/tts` turns it away. -/
theorem not_accept_alike : ¬ ∀ cfg s speakers item jobId, queueFull cfg s = false →
    AcceptAlike cfg s speakers item jobId := by
  intro all
  have alike := all oneWorker (State.init oneWorker) noSpeakers sayHelloInNoLanguage "a" (by decide)
  have differs :
      payloads (byTts oneWorker (State.init oneWorker) noSpeakers sayHelloInNoLanguage "a").1.2 ≠
        payloads (byBatch oneWorker (State.init oneWorker) noSpeakers sayHelloInNoLanguage
          "a").1.2 := by
    decide +kernel
  exact differs alike.batch

-- Nor do they agree on an omitted language where the default is not supported.
example : ¬ languageClear { defaultLanguage := "xx" } noSpeakers sayHello := by
  intro clear
  have default := (clear (by decide) ⟨_, rfl⟩).1 rfl
  exact absurd default (by decide)

end XttsServer.Guarantees
