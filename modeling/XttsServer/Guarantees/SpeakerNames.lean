import XttsServer.Runs.Speakers
import XttsServer.Runs.SpeakerViews

/-!
The names of speakers: which ones the check of the endpoints accepts, and that an
accepted name stands for the one directory that it spells.
-/

set_option autoImplicit false
set_option relaxedAutoImplicit false

namespace XttsServer.Guarantees

open XttsServer.Model XttsServer.Foundations XttsServer.Foundations.Transition

variable {cfg : SpeakerConfig} {s s' : SpeakerState} {tr o : List SpeakerObs} {name : String}

def WordChar (c : Char) : Prop :=
  'a' ≤ c ∧ c ≤ 'z' ∨ 'A' ≤ c ∧ c ≤ 'Z' ∨ '0' ≤ c ∧ c ≤ '9' ∨ c = '-' ∨ c = '_'

instance (c : Char) : Decidable (WordChar c) := by
  unfold WordChar
  infer_instance

/-- The documented grammar of names: 1 to 64 of these characters. -/
def InGrammar (name : String) : Prop :=
  1 ≤ name.length ∧ name.length ≤ 64 ∧ ∀ c ∈ name.toList, WordChar c

instance (name : String) : Decidable (InGrammar name) :=
  have : Decidable (∀ c ∈ name.toList, WordChar c) := List.decidableBAll WordChar name.toList
  inferInstanceAs (Decidable (_ ∧ _ ∧ ∀ c ∈ name.toList, WordChar c))

/-- A name of at most 63 characters with a newline after it. -/
def EndsInNewline (name : String) : Prop :=
  ∃ body, InGrammar body ∧ body.length ≤ 63 ∧ name = body ++ "\n"

/-! ### The check -/

theorem isNameChar_iff (c : Char) : isNameChar c = true ↔ WordChar c := by
  have capital : c.isUpper = true ↔ 'A' ≤ c ∧ c ≤ 'Z' := by
    change decide ('A' ≤ c ∧ c ≤ 'Z') = true ↔ _
    rw [decide_eq_true_eq]
  have small : c.isLower = true ↔ 'a' ≤ c ∧ c ≤ 'z' := by
    change (decide ('a' ≤ c) && decide (c ≤ 'z')) = true ↔ _
    rw [Bool.and_eq_true, decide_eq_true_eq, decide_eq_true_eq]
  have letter : c.isAlpha = true ↔ 'A' ≤ c ∧ c ≤ 'Z' ∨ 'a' ≤ c ∧ c ≤ 'z' := by
    change (c.isUpper || c.isLower) = true ↔ _
    rw [Bool.or_eq_true, capital, small]
  have digit : c.isDigit = true ↔ '0' ≤ c ∧ c ≤ '9' := by
    rw [Char.isDigit]
    simp only [Bool.and_eq_true, decide_eq_true_eq, ge_iff_le, Char.le_def]
  rw [isNameChar, Char.isAlphanum, Bool.or_eq_true, Bool.or_eq_true, Bool.or_eq_true, letter, digit,
    decide_eq_true_eq, decide_eq_true_eq, WordChar]
  constructor
  · rintro ((((upper | lower) | number) | rfl) | rfl)
    · exact .inr (.inl upper)
    · exact .inl lower
    · exact .inr (.inr (.inl number))
    · exact .inr (.inr (.inr (.inr rfl)))
    · exact .inr (.inr (.inr (.inl rfl)))
  · rintro (lower | upper | number | rfl | rfl)
    · exact .inl (.inl (.inl (.inr lower)))
    · exact .inl (.inl (.inl (.inl upper)))
    · exact .inl (.inl (.inr number))
    · exact .inr rfl
    · exact .inl (.inr rfl)

private theorem wordChar_ne_newline {c : Char} (word : WordChar c) : c ≠ '\n' := by
  rintro rfl
  revert word
  decide

private theorem ends_in_newline_iff :
    name.toList.getLast? = some '\n' ↔ ∃ body, name = body ++ "\n" := by
  rw [List.getLast?_eq_some_iff]
  constructor
  · rintro ⟨front, ending⟩
    exact ⟨String.ofList front, String.toList_injective (by simp [ending])⟩
  · rintro ⟨body, rfl⟩
    exact ⟨body.toList, by simp⟩

/-- The pattern by itself: the dollar lets one newline through. -/
private theorem matchesName_iff :
    matchesName name = true ↔
      ∃ body, body ≠ "" ∧ (∀ c ∈ body.toList, WordChar c) ∧
        (name = body ∨ name = body ++ "\n") := by
  have chars (cs : List Char) : (cs ≠ [] ∧ cs.all isNameChar = true) ↔
      String.ofList cs ≠ "" ∧ ∀ c ∈ (String.ofList cs).toList, WordChar c := by
    rw [String.toList_ofList, List.all_eq_true]
    simp only [isNameChar_iff, Ne, ← String.toList_eq_nil_iff, String.toList_ofList]
  simp only [matchesName, Bool.and_eq_true, decide_eq_true_eq]
  split_ifs with newline
  · obtain ⟨front, rfl⟩ := ends_in_newline_iff.mp newline
    have whole : (front ++ "\n").toList.dropLast = front.toList := by simp
    rw [whole, chars, String.ofList_toList]
    constructor
    · rintro ⟨some_char, words⟩
      exact ⟨front, some_char, words, .inr rfl⟩
    · rintro ⟨body, some_char, words, rfl | same⟩
      · exact absurd rfl (wordChar_ne_newline (words '\n' (by simp)))
      · have equal : front.toList = body.toList := by simpa using congrArg String.toList same
        obtain rfl := String.toList_injective equal
        exact ⟨some_char, words⟩
  · rw [chars, String.ofList_toList]
    constructor
    · rintro ⟨some_char, words⟩
      exact ⟨name, some_char, words, .inl rfl⟩
    · rintro ⟨body, some_char, words, rfl | rfl⟩
      · exact ⟨some_char, words⟩
      · exact absurd (ends_in_newline_iff.mpr ⟨body, rfl⟩) newline

private theorem length_newline (body : String) : (body ++ "\n").length = body.length + 1 := by
  rw [String.length_append]
  rfl

/-- What the check accepts: the documented names, and with a newline those that leave room for
it. -/
private theorem validate_iff :
    validateSpeakerName name = .ok () ↔ InGrammar name ∨ EndsInNewline name := by
  have positive {body : String} : 1 ≤ body.length ↔ body ≠ "" := by
    rw [Nat.one_le_iff_ne_zero, Ne, String.length_eq_zero_iff]
  rw [validateSpeakerName]
  split_ifs with empty long matched
  · refine iff_of_false (by simp) ?_
    rintro (⟨some_char, -⟩ | ⟨body, -, -, rfl⟩)
    · exact positive.mp some_char empty
    · simpa using congrArg String.length empty
  · refine iff_of_false (by simp) ?_
    rintro (⟨-, short, -⟩ | ⟨body, -, short, rfl⟩)
    · omega
    · rw [length_newline] at long
      omega
  · refine iff_of_true rfl ?_
    obtain ⟨body, some_char, words, rfl | rfl⟩ := matchesName_iff.mp matched
    · exact .inl ⟨positive.mpr some_char, by omega, words⟩
    · rw [length_newline] at long
      have short : body.length ≤ 63 := by omega
      exact .inr ⟨body, ⟨positive.mpr some_char, by omega, words⟩, short, rfl⟩
  · refine iff_of_false (by simp) fun named => matched (matchesName_iff.mpr ?_)
    rcases named with ⟨some_char, -, words⟩ | ⟨body, ⟨some_char, -, words⟩, -, same⟩
    · exact ⟨name, positive.mp some_char, words, .inl rfl⟩
    · exact ⟨body, positive.mp some_char, words, .inr same⟩

private theorem not_inGrammar_of_newline (h : EndsInNewline name) : ¬ InGrammar name := by
  obtain ⟨body, -, -, rfl⟩ := h
  rintro ⟨-, -, words⟩
  exact wordChar_ne_newline (words '\n' (by simp)) rfl

/-! ### What an accepted name stands for -/

/-- A record in memory has the name that it is kept under, and what is kept under a name that
passes the check is from the directory of this name. -/
def Named (cfg : SpeakerConfig) (s : SpeakerState) : Prop :=
  ∀ k record, s.store.cache.get? k = some record →
    record.name = k ∧ ∀ n : SpeakerName, n.name = k → s.origin k = cfg.dir.speakerDir n

namespace Named

private theorem smaller (named : Named cfg s)
    (less : ∀ k record, s'.store.cache.get? k = some record → s.store.cache.get? k = some record)
    (origin : s'.origin = s.origin) : Named cfg s' :=
  fun k record cached => origin ▸ named k record (less k record cached)

private theorem set (named : Named cfg s) {record : SpeakerRecord} {disk : Disk}
    {p : List Component} (own : record.name = name)
    (leads : ∀ n : SpeakerName, n.name = name → p = cfg.dir.speakerDir n) :
    Named cfg { s with
      store := ⟨disk, s.store.cache.set name record⟩
      origin := Function.update s.origin name p } := by
  intro k record' cached
  dsimp only at cached ⊢
  rw [Dict.get?_set] at cached
  split_ifs at cached with same
  · subst same
    obtain rfl := Option.some.inj cached
    rw [Function.update_self]
    exact ⟨own, leads⟩
  · rw [Function.update_of_ne same]
    exact named k record' cached

private theorem change {names : SpeakerStore → String → Prop} (named : Named cfg s)
    (change : SpeakerChange cfg names s s' o) : Named cfg s' := by
  cases change with
  | loaded allowed absent leads found =>
    refine named.set (latents_of_loadFiles found).2 fun n own => ?_
    rw [← own, show n.name = n.component.name from rfl, resolve_component] at leads
    split_ifs at leads
    exact (Option.some.inj leads).symm
  | registered frame own =>
    refine named.set own fun n same => ?_
    rw [SpeakersDir.speakerDir, SpeakersDir.speakerDir, component_of_name same]
  | deleted there =>
    refine named.smaller (fun k record cached => ?_) rfl
    rw [Dict.get?_erase] at cached
    split_ifs at cached
    exact cached
  | removed less =>
    refine named.smaller (fun k record cached => ?_) rfl
    rw [Dict.get?_erase] at cached
    split_ifs at cached
    exact cached
  | restarted => exact fun k record cached => (by cases cached)
  | _ => exact named

end Named

theorem named_of_reach {disk : Disk} (h : Reach (speakerServer cfg disk) anyStep tr s) :
    Named cfg s := by
  induction h with
  | refl => exact fun k record cached => (by cases cached)
  | tail _ _ taken ih =>
    have chain := speakerStep_changes taken
    clear taken
    induction chain with
    | refl => exact ih
    | tail _ change earlier => exact earlier.change change

section requests

variable (cfg : SpeakerConfig) (s : SpeakerState) (name : String) (c : Component)

/-- `GET` gives a record of that name from that directory, and it does so where the directory has
complete files. -/
structure GetsFrom : Prop where
  record : ∀ k record origin, .got k record origin ∈ (s.getSpeaker cfg name).2 →
    k = name ∧ record.name = name ∧ origin = cfg.dir.root ++ [c]
  answer : ∀ k createdAt, .answered (.ok (.info k createdAt)) ∈ (s.getSpeaker cfg name).2 → k = name
  found : (∃ gpt emb, cfg.dir.entryFile s.store.disk c latentsNpz = some (.npz gpt emb)) →
    cfg.dir.metaReadable s.store.disk c = true →
      ∃ createdAt, .answered (.ok (.info name createdAt)) ∈ (s.getSpeaker cfg name).2

/-- `DELETE` changes nothing but that directory and what is in memory under the name. It succeeds
where the directory is there, unless `shutil.rmtree` raises, and then nothing of it is left. -/
structure DeletesOnly : Prop where
  frame : ∀ gone s' o, s.deleteSpeaker cfg name gone = some (s', o) →
    (∀ q, ¬ cfg.dir.root ++ [c] <+: q → s'.store.disk.node q = s.store.disk.node q) ∧
      ∀ k, k ≠ name → s'.store.cache.get? k = s.store.cache.get? k
  answer : ∀ gone s' o answer, s.deleteSpeaker cfg name gone = some (s', o) →
    .answered (.ok answer) ∈ o →
      (∀ q, cfg.dir.root ++ [c] <+: q → s'.store.disk.node q = none) ∧
        s'.store.cache.get? name = none
  found : s.store.disk.isDir (cfg.dir.root ++ [c]) = true →
    ∃ s' o message, s.deleteSpeaker cfg name none = some (s', o) ∧
      .answered (.ok (.deleted message)) ∈ o

end requests

/-- The name is that of the directory `c` of SPEAKERS_DIR, and of nothing else. -/
structure Denotes (name : String) (c : Component) : Prop where
  spells : c.name = name
  /-- The path that the store builds is one component longer, however SPEAKERS_DIR is written. -/
  component : ∀ dir, normpath (osPathJoin dir name) = (normpath dir).child c
  get : ∀ cfg disk tr s, Reach (speakerServer cfg disk) anyStep tr s → GetsFrom cfg s name c
  delete : ∀ cfg s, DeletesOnly cfg s name c

theorem loads_of_complete {d : SpeakersDir} {disk : Disk} {c : Component}
    (complete : ∃ gpt emb, d.entryFile disk c latentsNpz = some (.npz gpt emb))
    (readable : d.metaReadable disk c = true) :
    d.resolve disk c.name = some (d.root ++ [c]) ∧
      ∃ record, d.loadFromDisk disk c.name = .ok (some record) := by
  obtain ⟨gpt, emb, latents⟩ := complete
  obtain ⟨found, loads⟩ : ∃ found, d.loadFromDisk disk c.name = .ok found := by
    rw [loadFromDisk_component, loadFiles_ok_iff, latents]
    exact ⟨rfl, fun _ => readable⟩
  cases found with
  | none =>
    rw [loadFromDisk_component, loadFiles_ok_none_iff, latents] at loads
    cases loads
  | some record =>
    obtain ⟨p, leads, -⟩ := latents_of_loadFromDisk loads
    refine ⟨?_, record, loads⟩
    rw [resolve_component] at leads ⊢
    split_ifs at leads with there
    rw [if_pos there]

theorem getsFrom_of_named (named : Named cfg s) (n : SpeakerName) :
    GetsFrom cfg s n.name n.component := by
  have asked := s.getSpeaker_eq cfg n
  rcases s.get_cases cfg n.name with
    ⟨record, cached, same⟩ | ⟨record, p, absent, leads, found, same⟩ | ⟨e, absent, same⟩
  · obtain ⟨name, origin⟩ := named _ _ cached
    rw [same] at asked
    refine ⟨fun k record' p told => ?_, fun k createdAt told => ?_, fun _ _ =>
      ⟨record.createdAt, ?_⟩⟩
    · obtain ⟨rfl, rfl, rfl⟩ : k = n.name ∧ record' = record ∧ p = s.origin n.name := by
        simpa [asked] using told
      exact ⟨rfl, name, origin n rfl⟩
    · obtain ⟨rfl, -⟩ : k = record.name ∧ createdAt = record.createdAt := by
        simpa [asked] using told
      exact name
    · simp [asked, name]
  · have name := (latents_of_loadFiles found).2
    rw [same] at asked
    refine ⟨fun k record' p' told => ?_, fun k createdAt told => ?_, fun _ _ =>
      ⟨record.createdAt, ?_⟩⟩
    · obtain ⟨rfl, rfl, rfl⟩ : k = n.name ∧ record' = record ∧ p' = p := by
        simpa [asked] using told
      rw [show n.name = n.component.name from rfl, resolve_component] at leads
      split_ifs at leads
      exact ⟨rfl, name, (Option.some.inj leads).symm⟩
    · obtain ⟨rfl, -⟩ : k = record.name ∧ createdAt = record.createdAt := by
        simpa [asked] using told
      exact name
    · simp [asked, name]
  · rw [same] at asked
    refine ⟨fun k record p told => ?_, fun k createdAt told => ?_, fun complete readable => ?_⟩
    · simp [asked] at told
    · simp [asked] at told
    · obtain ⟨leads, record, loads⟩ := loads_of_complete complete readable
      rw [SpeakerState.get_of_loaded absent leads loads] at same
      cases congrArg Prod.snd same

theorem deletesOnly (cfg : SpeakerConfig) (s : SpeakerState) (n : SpeakerName) :
    DeletesOnly cfg s n.name n.component := by
  refine ⟨fun gone s' o taken => ?_, fun gone s' o answer taken told => ?_, fun there => ?_⟩
  · cases SpeakerState.deleteSpeaker_cases taken with
    | refused e => exact ⟨fun q _ => rfl, fun k _ => rfl⟩
    | absent e => exact ⟨fun q _ => rfl, fun k _ => rfl⟩
    | deleted same answer there =>
      refine ⟨fun q outside => ?_, fun k other => ?_⟩
      · rw [FileTree.node_rmtree, component_of_name same, if_neg outside]
      · rw [Dict.get?_erase, if_neg (same ▸ other)]
    | raised same e there removed =>
      refine ⟨fun q outside => ?_, fun k other => ?_⟩
      · rw [node_of_removeBelow removed, if_neg]
        intro member
        obtain ⟨g, -, rfl⟩ := List.mem_map.mp member
        rw [SpeakersDir.speakerDir, component_of_name same, List.append_assoc] at outside
        exact outside (List.prefix_append _ _)
      · rw [Dict.get?_erase, if_neg (same ▸ other)]
  · cases SpeakerState.deleteSpeaker_cases taken with
    | refused e => simp at told
    | absent e => simp at told
    | deleted same answer' there =>
      refine ⟨fun q inside => ?_, ?_⟩
      · rw [FileTree.node_rmtree, component_of_name same, if_pos inside]
      · rw [Dict.get?_erase, if_pos same.symm]
    | raised same e there removed => simp at told
  · exact ⟨_, _, s!"Speaker '{n.name}' deleted.", SpeakerState.deleteSpeaker_of_isDir
      there, by simp⟩

private theorem normpath_component (dir : Path) (c : Component) :
    normpath (osPathJoin dir c.name) = (normpath dir).child c := by
  rw [normpath_osPathJoin (isAbsolute_component c), hops_component]
  rfl

/-- Every name that is accepted is that of one directory of SPEAKERS_DIR. -/
private theorem denotes_component (n : SpeakerName) : Denotes n.name n.component where
  spells := rfl
  component dir := normpath_component dir n.component
  get _ _ _ _ h := getsFrom_of_named (named_of_reach h) n
  delete cfg s := deletesOnly cfg s n

/-- The check accepts the documented grammar, and what it accepts is a safe component, exactly for
the names that are not one of the grammar with a newline after it. -/
theorem names_checked_iff (name : String) :
    ((validateSpeakerName name = .ok () ↔ InGrammar name) ∧
        (validateSpeakerName name = .ok () → ∃ c, Denotes name c)) ↔
      ¬ EndsInNewline name := by
  constructor
  · rintro ⟨exact_grammar, -⟩ newline
    exact not_inGrammar_of_newline newline (exact_grammar.mp (validate_iff.mpr (.inr newline)))
  · intro none
    refine ⟨validate_iff.trans (or_iff_left none), fun valid => ?_⟩
    exact ⟨_, denotes_component ⟨name, valid⟩⟩

/-- A name with a newline at its end is accepted. -/
theorem newline_accepted : ¬ ∀ name, (validateSpeakerName name = .ok () ↔ InGrammar name) ∧
    (validateSpeakerName name = .ok () → ∃ c, Denotes name c) := by
  intro all
  obtain ⟨-, -, words⟩ := (all "alice\n").1.mp (by decide +kernel)
  exact wordChar_ne_newline (words '\n' (by decide)) rfl

end XttsServer.Guarantees
