import XttsServer.Runs.Speakers

/-!
The paths that requests make the speaker store build, against SPEAKERS_DIR. The
endpoints that check a name keep to it; `_resolve_speaker` takes any name.
-/

set_option autoImplicit false
set_option relaxedAutoImplicit false

namespace XttsServer.Guarantees

open XttsServer.Model XttsServer.Foundations XttsServer.Foundations.Transition

variable {s s' : SpeakerState} {e : SpeakerEvent} {o : List SpeakerObs}

/-- Every path built is a direct child of SPEAKERS_DIR. -/
def PathsInside (cfg : SpeakerConfig) (tr : List SpeakerObs) : Prop :=
  ∀ path, .built path ∈ tr → DirectChild cfg.dir.path path

/-- A name that is looked up is cached, so that no path is built, or it leads to a child. -/
def staysInside (cfg : SpeakerConfig) (s : SpeakerState) : SpeakerEvent → Prop
  | .resolve (.name name) =>
      (s.store.cache.get? name).isSome = true ∨ LeadsToChild cfg.dir.path name
  | _ => True

private theorem looksUp_of_built {cfg : SpeakerConfig} (h : speakerStep cfg s e = some (s', o))
    {path : Path} (member : .built path ∈ o) :
    ∃ store name, e.looksUp s.store store name ∧ path = osPathJoin cfg.dir.path name := by
  obtain ⟨_, _, _, o', _, _, change, told, -⟩ := (speakerStep_changes h).exists_change member
  cases change with
  | built allowed =>
    obtain rfl := SpeakerObs.built.inj (List.mem_singleton.mp told)
    exact ⟨_, _, allowed, rfl⟩
  | _ => simp at told

private theorem pathsInside_step_iff {cfg : SpeakerConfig}
    (h : speakerStep cfg s e = some (s', o)) :
    PathsInside cfg o ↔ staysInside cfg s e := by
  by_cases guarded : ∀ name, e ≠ .resolve (.name name)
  · have checked : staysInside cfg s e := by
      unfold staysInside
      split
      · exact absurd rfl (guarded _)
      · trivial
    refine iff_of_true (fun path member => ?_) checked
    obtain ⟨store, name, looked, rfl⟩ := looksUp_of_built h member
    rw [directChild_osPathJoin_iff]
    unfold SpeakerEvent.looksUp at looked
    split at looked
    · exact absurd rfl (guarded _)
    · obtain ⟨c, rfl⟩ := looked
      exact leadsToChild_component _ c
  · push Not at guarded
    obtain ⟨name, rfl⟩ := guarded
    obtain ⟨answer, resolved⟩ := s.resolve_name cfg name
    obtain ⟨rfl, rfl⟩ := Prod.mk.inj (resolved.symm.trans (Option.some.inj h))
    rw [staysInside, ← directChild_osPathJoin_iff]
    rcases s.get_cases cfg name with ⟨record, cached, same⟩ | ⟨record, p, absent, -, -, same⟩ |
      ⟨e, absent, same⟩
    · simp [PathsInside, same, cached]
    · simp [PathsInside, same, absent]
    · simp [PathsInside, same, absent]

/-- In a run whose lookups stay inside all paths are direct children of SPEAKERS_DIR, and a step
builds only such paths exactly when its lookup stays inside. -/
theorem paths_inside (cfg : SpeakerConfig) :
    (∀ disk tr s, Reach (speakerServer cfg disk) (staysInside cfg) tr s → PathsInside cfg tr) ∧
      ∀ s e s' o, speakerStep cfg s e = some (s', o) →
        (PathsInside cfg o ↔ staysInside cfg s e) := by
  refine ⟨fun disk tr s reach => ?_, fun s e s' o taken => pathsInside_step_iff taken⟩
  induction reach with
  | refl =>
    intro path member
    cases member
  | tail _ meets taken ih =>
    intro path member
    rcases List.mem_append.mp member with old | new
    · exact ih path old
    · exact (pathsInside_step_iff taken).mpr meets path new

/-- SPEAKERS_DIR as it is by default, under the directory that the server runs in. -/
def speakersConfig : SpeakerConfig := ⟨⟨"./speakers", [⟨"speakers", by decide⟩]⟩, fun _ => ""⟩

def alice : SpeakerName := ⟨"alice", by decide +kernel⟩

def aliceDisk : Disk :=
  let dir := speakersConfig.dir.speakerDir alice
  (runActions .bare [.mkdir [] ⟨"speakers", by decide⟩, .mkdir speakersConfig.dir.root
    alice.component, .fill dir latentsNpz (.npz ⟨[1, 1, 1], [7]⟩ ⟨[1, 1, 1], [9]⟩),
    .fill dir metaJson (.json (Dict.empty.set "name" "alice"))]).getD .bare

/-- Up to the parent of SPEAKERS_DIR and down again. -/
def backInside : SpeakerEvent := .resolve (.name "../speakers/alice")

private theorem backInside_stays (s : SpeakerState) : staysInside speakersConfig s backInside := by
  refine .inr ?_
  unfold LeadsToChild
  rw [if_neg (by decide +kernel)]
  exact ⟨.inr (by decide +kernel), alice.component, by decide +kernel⟩

private theorem backInside_runs :
    (speakerStep speakersConfig (speakerServer speakersConfig aliceDisk).init
    backInside).isSome = true := by decide +kernel

theorem paths_inside_back_inside :
    let start := (speakerServer speakersConfig aliceDisk).init
    ∃ s' o, speakerStep speakersConfig start backInside = some (s', o) ∧
      .built "./speakers/../speakers/alice" ∈ o ∧ PathsInside speakersConfig ([] ++ o) ∧
        (PathsInside speakersConfig o ↔ staysInside speakersConfig start backInside) := by
  have taken := (Option.some_get backInside_runs).symm
  exact ⟨_, _, taken, by decide +kernel,
    (paths_inside speakersConfig).1 aliceDisk _ _ (.tail .refl (backInside_stays _) taken),
    (paths_inside speakersConfig).2 _ _ _ _ taken⟩

def outside : List SpeakerEvent := [.resolve (.name "../secret")]

private theorem outside_runs : (exec (speakerServer speakersConfig aliceDisk) anyStep
    (speakerServer speakersConfig aliceDisk).init outside).isSome = true := by decide +kernel

/-- `POST /v1/tts` with such a name makes the store look for latents next to SPEAKERS_DIR. -/
theorem speakersDir_escaped : ¬ ∀ cfg disk tr s,
    Reach (speakerServer cfg disk) anyStep tr s → PathsInside cfg tr := by
  intro all
  obtain ⟨c, same⟩ := all speakersConfig aliceDisk _ _ (reach_of_exec outside_runs)
    "./speakers/../secret" (by decide +kernel)
  have one_name : (normpath "./speakers/../secret").route.names.length = 1 ∧
      (normpath speakersConfig.dir.path).route.names.length = 1 := by decide +kernel
  rw [same, NormPath.child, List.length_append, one_name.2] at one_name
  simp at one_name

end XttsServer.Guarantees
