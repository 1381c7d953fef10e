import XttsServer.Foundations.Refinement
import XttsServer.Model.Responses
import XttsServer.Runs.Files
import XttsServer.Runs.Threads

/-!
Responses with audio: how the path of a job tells its format, what an opened download
sends, and what becomes of a `_run_synthesis` call.
-/

set_option autoImplicit false
set_option relaxedAutoImplicit false

namespace XttsServer.Model

open XttsServer.Foundations XttsServer.Foundations.Transition

/-! ### The path of a job's audio -/

private theorem rtakeWhile_append {α : Type} {p : α → Bool} {l r : List α}
    (all : ∀ a ∈ r, p a = true) :
    (l ++ r).rtakeWhile p = l.rtakeWhile p ++ r := by
  have reversed : ∀ a ∈ r.reverse, p a = true := fun a member => all a (List.mem_reverse.mp member)
  rw [List.rtakeWhile, List.reverse_append, List.takeWhile_append_of_pos reversed,
    List.reverse_append, List.reverse_reverse, List.rtakeWhile]

private theorem osPathJoin_eq {a b : Path} (relative : b.toList.head? ≠ some '/') :
    ∃ front : List Char, (osPathJoin a b).toList = front ++ b.toList ∧
      (front = [] ∨ ∃ rest, front = rest ++ ['/']) := by
  rw [osPathJoin, if_neg relative]
  split_ifs with ended
  · refine ⟨a.toList, String.toList_append, ?_⟩
    rcases ended with rfl | last
    · exact .inl rfl
    · obtain ⟨rest, same⟩ := List.getLast?_eq_some_iff.mp last
      exact .inr ⟨rest, same⟩
  · exact ⟨a.toList ++ ['/'], by rw [String.toList_append, String.toList_append]; rfl,
      .inr ⟨a.toList, rfl⟩⟩

private theorem basename_osPathJoin {a b : Path} (plain : '/' ∉ b.toList) :
    basename (osPathJoin a b) = b := by
  have relative : b.toList.head? ≠ some '/' := fun head => plain (List.mem_of_head? head)
  obtain ⟨front, chars, ended⟩ := osPathJoin_eq (a := a) relative
  have all : ∀ c ∈ b.toList, decide (c ≠ '/') = true := fun c member =>
    decide_eq_true fun same => plain (same ▸ member)
  have none : front.rtakeWhile (fun c => decide (c ≠ '/')) = [] := by
    rcases ended with rfl | ⟨rest, rfl⟩
    · rfl
    · exact List.rtakeWhile_concat_neg _ _ _ (by simp)
  rw [basename, chars, rtakeWhile_append all, none, List.nil_append, String.ofList_toList]

private theorem splitext_of_basename {p : Path} {stem ext : List Char}
    (name : (basename p).toList = stem ++ '.' :: ext) (some_stem : stem ≠ [])
    (plainStem : '.' ∉ stem) (plainExt : '.' ∉ ext) :
    (splitext p).2 = String.ofList ('.' :: ext) := by
  have all : ∀ c ∈ ext, decide (c ≠ '.') = true := fun c member =>
    decide_eq_true fun same => plainExt (same ▸ member)
  have last : (stem ++ '.' :: ext).rtakeWhile (fun c => decide (c ≠ '.')) = ext := by
    rw [← List.singleton_append, ← List.append_assoc, rtakeWhile_append all,
      List.rtakeWhile_concat_neg _ _ _ (by simp), List.nil_append]
  have front : (stem ++ '.' :: ext).take ((stem ++ '.' :: ext).length - ext.length - 1) = stem := by
    have short : (stem ++ '.' :: ext).length - ext.length - 1 = stem.length := by
      simp only [List.length_append, List.length_cons]
      omega
    rw [short, List.take_left]
  obtain ⟨c, rest, rfl⟩ := List.exists_cons_of_ne_nil some_stem
  have other : c ≠ '.' := fun same => plainStem (same ▸ List.mem_cons_self)
  simp only [splitext, name, last, front]
  rw [if_pos ⟨by simp, by simp [other]⟩]

theorem fileHeaders_audioPath (dir : Path) {j : JobId} (uuid : isUuid j = true)
    (fmt : AudioFormat) :
    fileHeaders (audioPath dir j fmt) =
      (mimeType fmt.name).map fun mediaType => { mediaType, filename := outputFilename j fmt } := by
  have dot := notMem_of_uuid uuid (c := '.') (by decide)
  have slash := notMem_of_uuid uuid (c := '/') (by decide)
  have some_char : j.toList ≠ [] := by
    simp only [isUuid, Bool.and_eq_true, decide_eq_true_eq] at uuid
    simpa using uuid.1
  have chars : (outputFilename j fmt).toList = j.toList ++ '.' :: fmt.name.toList := by
    rw [outputFilename, String.toList_append, String.toList_append, List.append_assoc]
    rfl
  have name : basename (audioPath dir j fmt) = outputFilename j fmt := by
    refine basename_osPathJoin ?_
    rw [chars, List.mem_append, not_or]
    exact ⟨slash, by cases fmt <;> decide⟩
  have ext : (splitext (audioPath dir j fmt)).2 = String.ofList ('.' :: fmt.name.toList) :=
    splitext_of_basename (by rw [name, chars]) some_char dot (by cases fmt <;> decide)
  rw [fileHeaders, ext, name]
  cases fmt <;> rfl

/-! ### Downloads -/

section Downloads

variable {cfg : Config} {P : State → Event → Prop} {s s' : State} {e : Event} {tr o : List Obs}

/-- The file of a response that is not over is the audio of its job for as long as it is there. -/
theorem downloads_hold (h : Visit cfg P tr s) : ∀ pc ∈ s.downloads, ∀ j p, pc.file? = some (j, p) →
    s.files.isFile p = true → HoldsAudio cfg tr s.files j p := by
  induction h using visit_induction with
  | start => simp [State.init]
  | @change s₀ e s s' tr o before ih meets change =>
    intro pc member j p mine there
    have shelved := shelf before
    rcases (change.audio before).file_source member mine with ⟨pc', old, same, -⟩ | ⟨path, -⟩
    · have owner := shelved.download pc' old j p same
      have content := change.content before owner.named owner.closed.1
        (unsaving_of_closed before owner.closed)
      have kept : s'.files p = s.files p := content.resolve_right fun gone => by
        rw [Files.isFile, gone] at there
        cases there
      refine (ih pc' old j p same ?_).keep content there
      rwa [Files.isFile, ← kept]
    · have owner := (shelved.record j p path).1
      exact ((contents before).record j p path).keep (change.content before owner.named
        owner.closed.1 (unsaving_of_closed before owner.closed)) there

theorem opening_answered (h : Visit cfg P tr s) {g : Nat} {j : JobId} {p : Path}
    (download : s.downloads[g]? = some (.opening j p)) : .audio g j (.ok p) ∈ tr := by
  induction h using visit_induction with
  | start => simp [State.init] at download
  | @change s₀ e s s' tr o before ih meets change =>
    have was : s.downloads[g]? = some (.opening j p) → .audio g j (.ok p) ∈ tr ++ o :=
      fun old => List.mem_append_left _ (ih old)
    have moved : ∀ {k : Nat} {pc : DownloadPc}, s'.downloads = s.downloads.set k pc →
        (∀ i q, pc ≠ .opening i q) → .audio g j (.ok p) ∈ tr ++ o := fun {k pc} downloads past => by
      rw [downloads, List.getElem?_set] at download
      split_ifs at download with here inside
      · exact absurd (Option.some.inj download) (past j p)
      · exact was download
    cases change.audio before with
    | aside downloads | saved _ _ _ downloads | evicted _ _ downloads =>
      exact was (downloads ▸ download)
    | opened _ downloads | vanished _ _ downloads | deleted _ downloads =>
      exact moved downloads (by simp)
    | @asked i pc answer _ _ _ next downloads _ _ told =>
      rw [downloads, List.getElem?_append] at download
      split_ifs at download with inside
      · exact was download
      · have last : g = s.downloads.length := by
          have bound := (List.getElem?_eq_some_iff.mp download).1
          simp only [List.length_singleton] at bound
          omega
        subst last
        rw [Nat.sub_self, List.getElem?_cons_zero] at download
        rcases next with ⟨rfl, -⟩ | ⟨q, -, rfl, rfl⟩
        · cases download
        · cases download
          rw [told]
          exact List.mem_append_right _ List.mem_cons_self

end Downloads

/-! ### Calls of `_run_synthesis` -/

section Speech

variable {cfg : Config} {threads : Nat} {s s' : PoolState threads} {e : PoolEvent} {j : JobId}
  {tr tr' o : List PoolObs}

/-- What a step does to one of the calls. -/
inductive SpeechStep (cfg : Config) (s s' : PoolState threads) (j : JobId) (e : PoolEvent)
    (o : List PoolObs) : Prop
  | aside (same : s'.speech j = s.speech j) (silent : ∀ answer, .speech j answer ∉ o)
  | opened {body : TtsRequest} {speakers : SpeakerView}
      (event : e = .server (.runSynthesis body speakers j))
      (next : s'.speech j = some
        { fmt := body.format, language := orDefault body.language cfg.settings.defaultLanguage
          tSubmit := s.server.now })
      (accepted : ∃ item, .server (.accepted item) ∈ o ∧ item.jobId = j)
      (silent : ∀ answer, .speech j answer ∉ o)
  | failed {fmt : AudioFormat} {language error : String} {t : ℚ} {result : SynthesisResult}
      (here : s.speech j = some ⟨fmt, language, t, .awaiting⟩)
      (future : s.server.resultFutures j = some result) (reason : result.error = some error)
      (filled : error ≠ "") (next : s'.speech j = some ⟨fmt, language, t, .ended⟩)
      (told : o = [.speech j (.error (.http 500 s!"Synthesis failed: {pyTake error 300}"))])
  | encodes {fmt : AudioFormat} {language : String} {t : ℚ} {result : SynthesisResult}
      (here : s.speech j = some ⟨fmt, language, t, .awaiting⟩)
      (future : s.server.resultFutures j = some result) (fine : orDefault result.error "" = "")
      (next : s'.speech j = some ⟨fmt, language, t, .encoding ((s.server.now - t) * 1000) result⟩)
      (silent : ∀ answer, .speech j answer ∉ o)
  | encoded {fmt : AudioFormat} {language : String} {t ms : ℚ} {result : SynthesisResult}
      {data : Except String AudioBytes}
      (here : s.speech j = some ⟨fmt, language, t, .encoding ms result⟩)
      (next : s'.speech j = some ⟨fmt, language, t, .encoded ms data⟩)
      (bytes : ∀ b, data = .ok b → ∃ audio, result.audio = some audio ∧
        b = ⟨audio, fmt, result.sampleRate⟩)
      (silent : ∀ answer, .speech j answer ∉ o)
  | answered {fmt : AudioFormat} {language : String} {t ms : ℚ} {audioData : AudioBytes}
      (here : s.speech j = some ⟨fmt, language, t, .encoded ms (.ok audioData)⟩)
      (next : s'.speech j = some ⟨fmt, language, t, .ended⟩)
      (told : o = [.speech j (.ok { audioData, synthesisMs := ms, language, fmt })])
  | raised {fmt : AudioFormat} {language : String} {t ms : ℚ} {text : String}
      (here : s.speech j = some ⟨fmt, language, t, .encoded ms (.error text)⟩)
      (next : s'.speech j = some ⟨fmt, language, t, .ended⟩)
      (told : o = [.speech j (.error (.other text))])

private theorem some_of_orDefault {value : Option String} (filled : orDefault value "" ≠ "") :
    ∃ v, value = some v ∧ v ≠ "" ∧ orDefault value "" = v := by
  cases value with
  | none => exact absurd rfl filled
  | some v =>
    have own : v ≠ "" := fun empty => filled (by rw [empty]; rfl)
    exact ⟨v, rfl, own, if_neg own⟩

private theorem SpeechStep.other {k : JobId} {speech : Speech} (apart : j ≠ k)
    (next : s'.speech = (s.setSpeech k speech).speech)
    (answers : ∀ i answer, .speech i answer ∈ o → i = k) :
    SpeechStep cfg s s' j e o :=
  .aside (by rw [next, speech_setSpeech, if_neg apart]) fun answer told =>
    apart (answers j answer told)

private theorem resumeSpeech_step {k : JobId} (taken : resumeSpeech s k = some (s', o))
    (j : JobId) :
    SpeechStep cfg s s' j (.resumeSpeech k) o := by
  have own : ∀ speech, (s.setSpeech k speech).speech k = some speech := fun speech => by
    rw [speech_setSpeech, if_pos rfl]
  unfold resumeSpeech at taken
  split at taken
  · rename_i fmt language t here
    split at taken
    · cases taken
    · rename_i result future
      dsimp only at taken
      split_ifs at taken with error <;> obtain ⟨rfl, rfl⟩ := Prod.mk.inj (Option.some.inj taken) <;>
        by_cases mine : j = k
      · subst mine
        obtain ⟨text, reason, filled, same⟩ := some_of_orDefault error
        exact .failed here future reason filled (own _) (by rw [same])
      · exact .other mine rfl (by simp)
      · subst mine
        exact .encodes here future (not_not.mp error) (own _) (by simp)
      · exact .other mine rfl (by simp)
  · rename_i fmt language t ms audioData here
    obtain ⟨rfl, rfl⟩ := Prod.mk.inj (Option.some.inj taken)
    by_cases mine : j = k
    · subst mine
      exact .answered here (own _) rfl
    · exact .other mine rfl (by simp)
  · rename_i fmt language t ms text here
    obtain ⟨rfl, rfl⟩ := Prod.mk.inj (Option.some.inj taken)
    by_cases mine : j = k
    · subst mine
      exact .raised here (own _) rfl
    · exact .other mine rfl (by simp)
  · cases taken

private theorem encode_step {k : JobId} {raised : Option String}
    (taken : encode s k raised = some (s', o)) (j : JobId) :
    SpeechStep cfg s s' j (.encode k raised) o := by
  unfold encode at taken
  dsimp only at taken
  split at taken
  · rename_i fmt language t ms result started here running
    have ends : ∀ data, (∀ b, data = .ok b → ∃ audio, result.audio = some audio ∧
          b = ⟨audio, fmt, result.sampleRate⟩) →
        some ({ s.setSpeech k ⟨fmt, language, t, .encoded ms data⟩ with
          executor := s.executor.finish ⟨.encode, k⟩ }, [PoolObs.returned ⟨.encode, k⟩]) =
            some (s', o) →
        SpeechStep cfg s s' j (.encode k raised) o := fun data bytes value => by
      obtain ⟨rfl, rfl⟩ := Prod.mk.inj (Option.some.inj value)
      by_cases mine : j = k
      · subst mine
        exact .encoded here ((speech_setSpeech ..).trans (if_pos rfl)) bytes (by simp)
      · exact .other mine rfl (by simp)
    split at taken
    · exact ends _ (by simp) taken
    · rename_i audio array
      exact ends _ (fun b same => ⟨audio, array, (Except.ok.inj same).symm⟩) taken
    · cases taken
  · cases taken

/-- What a step of the server does to the pool: a thread takes it, or the event loop, which may
submit a call. -/
inductive ServerMove (cfg : Config) (s : PoolState threads) (e : Event) (a : State)
    (told : List Obs) : PoolState threads → Prop
  | inThread {c : Call} {executor : Executor Call ℚ threads}
      (thread : e.threadOf s.server = some c) (load : executor.load ≤ s.executor.load) :
      ServerMove cfg s e a told { s with server := a, executor }
  | inLoop {executor : Executor Call ℚ threads} (load : executor.load ≤ s.executor.load) :
      ServerMove cfg s e a told ⟨a, executor, openSpeech cfg s told e⟩
  | submits {c : Call} {executor : Executor Call ℚ threads} (submitted : e.submitted a = some c)
      (load : executor.load ≤ s.executor.load + 2) :
      ServerMove cfg s e a told ⟨a, executor, openSpeech cfg s told e⟩

theorem serverStep_moves {e : Event} (taken : serverStep cfg s e = some (s', o)) :
    ∃ a told calls, step cfg s.server e = some (a, told) ∧ o = told.map .server ++ calls ∧
      (∀ x ∈ calls, ∃ c, x = .returned c ∨ x = .submitted c) ∧ ServerMove cfg s e a told s' := by
  unfold serverStep at taken
  split at taken
  · cases taken
  · rename_i a told stepped
    split at taken
    · rename_i c thread
      split at taken
      · cases taken
      · split_ifs at taken <;> obtain ⟨rfl, rfl⟩ := Prod.mk.inj (Option.some.inj taken)
        · exact ⟨a, told, [.returned c], stepped, rfl, by simp,
            .inThread thread (Executor.load_finish ..)⟩
        · exact ⟨a, told, [], stepped, (List.append_nil _).symm, by simp,
            .inThread thread (Nat.le_refl _)⟩
    · dsimp only at taken
      split at taken <;> obtain ⟨rfl, rfl⟩ := Prod.mk.inj (Option.some.inj taken)
      · rename_i c submitted
        refine ⟨a, told, [.submitted c], stepped, rfl, by simp,
          .submits submitted ((Executor.load_submit ..).trans (Nat.add_le_add_right ?_ 2))⟩
        split
        · exact Executor.load_cancel ..
        · exact Nat.le_refl _
      · refine ⟨a, told, [], stepped, (List.append_nil _).symm, by simp, .inLoop ?_⟩
        split
        · exact Executor.load_cancel ..
        · exact Nat.le_refl _

theorem serverTrace_calls (told : List Obs) {calls : List PoolObs}
    (only : ∀ x ∈ calls, ∃ c, x = .returned c ∨ x = .submitted c) :
    serverTrace (told.map .server ++ calls) = told := by
  have silent : serverTrace calls = [] := by
    refine List.filterMap_eq_nil_iff.mpr fun x member => ?_
    obtain ⟨c, rfl | rfl⟩ := only x member <;> rfl
  rw [serverTrace_append, serverTrace_server, silent, List.append_nil]

private theorem openSpeech_step {e : Event} {o : List Obs} {a : PoolState threads}
    {told : List PoolObs} {server : State} (taken : step cfg s.server e = some (server, o))
    (next : a.speech = openSpeech cfg s o e) (shown : o.map .server ⊆ told)
    (silent : ∀ i answer, .speech i answer ∉ told) (j : JobId) :
    SpeechStep cfg s a j (.server e) told := by
  have same : a.speech = s.speech → SpeechStep cfg s a j (.server e) told := fun same =>
    .aside (congrFun same j) (silent j)
  unfold openSpeech at next
  split at next
  · rename_i body speakers k
    split_ifs at next with accepts
    · by_cases mine : j = k
      · subst mine
        obtain ⟨obs, member, is⟩ := List.any_eq_true.mp accepts
        have accepted : ∃ item, .server (.accepted item) ∈ told ∧ item.jobId = j := by
          cases obs with
          | accepted item =>
            exact ⟨item, shown (List.mem_map_of_mem member),
              (runSynthesis_accepted taken member).2.2⟩
          | _ => cases is
        exact .opened rfl (by rw [next, Function.update_self]) accepted (silent j)
      · exact .aside (by rw [next, Function.update_of_ne mine]) (silent j)
    · exact same next
  · exact same next

private theorem serverStep_step {e : Event} (taken : serverStep cfg s e = some (s', o))
    (j : JobId) :
    SpeechStep cfg s s' j (.server e) o := by
  obtain ⟨a, told, calls, stepped, rfl, only, move⟩ := serverStep_moves taken
  have silent : ∀ i answer, .speech i answer ∉ told.map .server ++ calls := by
    intro i answer member
    rcases List.mem_append.mp member with there | there
    · simp at there
    · obtain ⟨c, is | is⟩ := only _ there <;> cases is
  cases move with
  | inThread => exact .aside rfl (silent j)
  | inLoop | submits => exact openSpeech_step stepped rfl (List.subset_append_left _ _) silent j

theorem poolStep_speech (taken : poolStep cfg s e = some (s', o)) (j : JobId) :
    SpeechStep cfg s s' j e o := by
  cases e with
  | server e => exact serverStep_step taken j
  | start =>
    cases poolStep_changes (by trivial) taken with
    | starts _ next =>
      subst next
      exact .aside rfl (by simp)
  | resumeSpeech k => exact resumeSpeech_step taken j
  | encode k raised => exact encode_step taken j
  | abandoned k =>
    cases poolStep_changes (by trivial) taken with
    | abandoned _ _ _ next =>
      subst next
      exact .aside rfl (by simp)

theorem poolStep_server (taken : poolStep cfg s e = some (s', o)) :
    (∃ event told, e = .server event ∧ step cfg s.server event = some (s'.server, told) ∧
      serverTrace o = told) ∨ s'.server = s.server ∧ serverTrace o = [] := by
  cases e with
  | server event =>
    obtain ⟨a, told, calls, stepped, rfl, only, move⟩ := serverStep_moves taken
    refine .inl ⟨event, told, rfl, ?_, serverTrace_calls told only⟩
    cases move <;> exact stepped
  | _ =>
    right
    cases poolStep_changes (by trivial) taken <;> rename_i next <;> subst next <;> exact ⟨rfl, rfl⟩

/-- The executor decides when the server takes its steps, not what they do. -/
theorem pool_simulates (cfg : Config) (threads : Nat) :
    Simulation (pooled cfg threads) anyStep (server cfg) anyStep PoolState.server
      PoolObs.server? where
  init := rfl
  step := by
    intro tr s s' e o _ _ taken
    change Run (server cfg) anyStep s.server (serverTrace o) s'.server
    rcases poolStep_server taken with ⟨event, told, -, stepped, same⟩ | ⟨same, silent⟩
    · rw [same]
      exact .single trivial stepped
    · rw [same, silent]
      exact .refl

theorem pool_visits (h : Reach (pooled cfg threads) anyStep tr s) :
    Visit cfg anyStep (serverTrace tr) s.server :=
  visit_of_reach ((pool_simulates cfg threads).reach h)

private theorem onComplete_result {a b : State} {cb : OnComplete} {w : WorkerRef}
    {result result' : SynthesisResult} {ms : ℚ} {o : List Obs} {next : CollectPc}
    (call : onComplete a cb w result ms = ((b, o), next))
    (future : b.resultFutures j = some result') :
    a.resultFutures j = some result' ∨ cb = .bridge j ∧ result = result' := by
  cases cb with
  | bridge k =>
    simp only [onComplete, Prod.mk.injEq] at call
    obtain ⟨⟨rfl, -⟩, -⟩ := call
    cases was : a.resultFutures k with
    | some _ =>
      simp only [was] at future
      exact .inl future
    | none =>
      simp only [was] at future
      by_cases mine : j = k
      · subst mine
        rw [Function.update_self] at future
        exact .inr ⟨rfl, Option.some.inj future⟩
      · rw [Function.update_of_ne mine] at future
        exact .inl future
  | store k fmt dir =>
    have kept : (onComplete a (.store k fmt dir) w result ms).1.1.resultFutures =
        a.resultFutures := by
      simp only [onComplete, markRunning, markFailed]
      repeat' split
      all_goals rfl
    rw [call] at kept
    exact .inl (kept ▸ future)

theorem future_completed {P : State → Event → Prop} {a : State} {tr : List Obs}
    (h : Visit cfg P tr a) {result : SynthesisResult} (future : a.resultFutures j = some result) :
    ∃ w, .completed (.bridge j) w result ∈ tr := by
  induction h using visit_induction with
  | start => simp [State.init] at future
  | @change s₀ e a b tr o before ih meets change =>
    have old : b.resultFutures = a.resultFutures → ∃ w, .completed (.bridge j) w result ∈ tr ++ o :=
      fun same => by
        obtain ⟨w, told⟩ := ih (same ▸ future)
        exact ⟨w, List.mem_append_left _ told⟩
    cases change with
    | @collected k w r cb t t0 outcome result' workers drain i next jobs futures
        statuses _ task value slot call =>
      rcases onComplete_result call future with was | ⟨rfl, rfl⟩
      · obtain ⟨v, told⟩ := ih was
        exact ⟨v, List.mem_append_left _ told⟩
      · exact ⟨w, List.mem_append_right _ (by simp)⟩
    | _ => exact old rfl

end Speech

end XttsServer.Model
