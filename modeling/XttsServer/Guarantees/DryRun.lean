import XttsServer.Guarantees.SpeakerPaths
import XttsServer.Runs.Seeding

/-!
The dry run of the seeding script beside the real one. Every round of the dry run sees
SPEAKERS_DIR as it was, and a round of the real run what the rounds before have written.
-/

set_option autoImplicit false
set_option relaxedAutoImplicit false

namespace XttsServer.Guarantees

open XttsServer.Model XttsServer.Foundations XttsServer.Foundations.Transition

variable {cfg : SeedConfig} {force : Bool} {env : SeedEnv} {disk : Disk}
  {speakers : List (String × StudioTensors)}

/-- The slug and the display name of a speaker that a line reports as registered. -/
def registers? : SeedLine → Option (String × String)
  | .announced _ slug _ _ displayName => some (slug, displayName)
  | _ => none

def isSkip : SeedLine → Bool
  | .noSlug _ => true
  | .alreadyExists _ => true
  | _ => false

/-- What a run reports: the registered speakers, the lines for the skipped ones, and the counts. -/
structure Report where
  speakers : List (String × String)
  skips : List SeedLine
  registered : Nat
  skipped : Nat
  errors : Nat
  deriving DecidableEq

def report (s : SeedState) : Report :=
  ⟨s.lines.filterMap registers?, s.lines.filter isSkip, s.registered, s.skipped, s.errors⟩

structure Predicts (force : Bool) (disk : Disk) (dry real : SeedState) : Prop where
  report : report dry = report real
  unchanged : dry.disk = disk
  /-- With `--force` no two display names are written under one slug. -/
  apart : force = true → ((real.lines.filterMap registers?).map Prod.fst).Nodup

/-- Two speakers of the file have one slug, and the first gets written: with `--force` over each
other, and without it so that the second is found to exist. -/
def Clash (cfg : SeedConfig) (force : Bool) (disk : Disk) (a b : String × StudioTensors) : Prop :=
  match cfg.slug? a.1, cfg.slug? b.1 with
  | some n, some m => n.name = m.name ∧ a.2.convert.isOk = true ∧
      if force then b.2.convert.isOk = true else ¬ cfg.present disk n
  | _, _ => False

private theorem clash_iff {a b : String × StudioTensors} :
    Clash cfg force disk a b ↔ ∃ n, cfg.slug? a.1 = some n ∧ cfg.slug? b.1 = some n ∧
      a.2.convert.isOk = true ∧ if force then b.2.convert.isOk =
        true else ¬ cfg.present disk n := by
  unfold Clash
  split
  · rename_i n m slug slug'
    constructor
    · rintro ⟨same, rest⟩
      obtain rfl := eq_of_name same
      exact ⟨n, slug, slug', rest⟩
    · rintro ⟨k, first, second, rest⟩
      obtain rfl := Option.some.inj (first.symm.trans slug)
      obtain rfl := Option.some.inj (second.symm.trans slug')
      exact ⟨rfl, rest⟩
  · rename_i other
    refine iff_of_false id ?_
    rintro ⟨n, first, second, -⟩
    exact other n n first second

/-! ### What the rounds see -/

private theorem disk_of_dry_run (cfg : SeedConfig) (force : Bool) (env : SeedEnv) (disk : Disk)
    (speakers : List (String × StudioTensors)) :
    (cfg.rounds ⟨force, true⟩ env disk speakers).disk = disk := by
  refine rounds_induct (P := fun _ s => s.disk = disk) speakers rfl ?_
  intro _ _ s t same round
  cases round with
  | written slug goes converts real tried => cases real
  | failed slug goes converts real tried => cases real
  | _ => exact same

def isFailure : SeedLine → Bool
  | .writeFailed _ _ => true
  | _ => false

def AllWritten (s : SeedState) : Prop := ∀ line ∈ s.lines, isFailure line = false

instance (s : SeedState) : Decidable (AllWritten s) := by
  unfold AllWritten
  infer_instance

/-- What is there after some rounds that failed at no write: what was, and what they have
written. -/
private theorem present_of_rounds
    (written : AllWritten (cfg.rounds ⟨force, false⟩ env disk speakers)) (n : SpeakerName) :
    cfg.present (cfg.rounds ⟨force, false⟩ env disk speakers).disk n ↔
      cfg.present disk n ∨
        ∃ a ∈ speakers, cfg.slug? a.1 = some n ∧ a.2.convert.isOk = true := by
  revert written
  refine rounds_induct (P := fun speakers s => AllWritten s → (cfg.present s.disk n ↔
    cfg.present disk n ∨ ∃ a ∈ speakers, cfg.slug? a.1 = some n ∧ a.2.convert.isOk = true))
    speakers (by simp) ?_
  intro speakers speaker s t before round all
  have earlier {line : SeedLine} (lines : t.lines = s.lines ++ [line]) :=
    before fun line' member => all line' (lines ▸ List.mem_append_left _ member)
  simp only [List.mem_append, List.mem_singleton, or_and_right, exists_or, exists_eq_left]
  rw [← or_assoc]
  cases round with
  | noSlug none =>
    have other : cfg.slug? speaker.1 ≠ some n := fun own => by cases none.symm.trans own
    simpa [other] using earlier rfl
  | @present m slug there keeps =>
    rw [← earlier rfl]
    refine (or_iff_left_of_imp fun own => ?_).symm
    obtain rfl := Option.some.inj (slug.symm.trans own.1)
    exact there
  | unconverted slug goes raises =>
    have fails : speaker.2.convert.isOk = false := congrArg Except.isOk raises
    simpa [fails] using earlier rfl
  | planned slug goes converts dry => cases dry
  | @written m gpt emb disk' slug goes converts real tried =>
    rw [← earlier rfl, present_of_written (runActions_of_attempt tried), or_comm]
    refine or_congr_right ⟨?_, fun own => ?_⟩
    · rintro rfl
      exact ⟨slug, by simp [SeedEnv.entry] at converts; simp [converts]; rfl⟩
    · exact Option.some.inj (own.1.symm.trans slug)
  | @failed m gpt emb disk' slug goes converts real tried =>
    cases all _ (List.mem_append_right _ (List.mem_singleton.mpr rfl))

/-! ### What the rounds report -/

/-- What a round makes of a speaker, as far as it is reported and no write fails. -/
inductive Verdict
  | skip (line : SeedLine)
  | register (slug displayName : String)
  | error

def verdict (cfg : SeedConfig) (force : Bool) (disk : Disk) (e : SeedEntry) : Verdict :=
  match cfg.slug? e.displayName with
  | none => .skip (.noSlug e.displayName)
  | some n =>
      if cfg.present disk n ∧ force = false then .skip (.alreadyExists n.name)
      else if e.tensors.convert.isOk = true then .register n.name e.displayName
      else .error

private theorem verdict_of_slug {e : SeedEntry} {n : SpeakerName}
    (slug : cfg.slug? e.displayName = some n) :
    verdict cfg force disk e =
      if cfg.present disk n ∧ force = false then .skip (.alreadyExists n.name)
      else if e.tensors.convert.isOk = true then .register n.name e.displayName
      else .error := by simp only [verdict, slug]

def Report.add (r : Report) : Verdict → Report
  | .skip line => { r with skips := r.skips ++ [line], skipped := r.skipped + 1 }
  | .register slug displayName =>
      { r with
        speakers := r.speakers ++ [(slug, displayName)]
        registered := r.registered + 1 }
  | .error => { r with errors := r.errors + 1 }

def Verdict.skips : Verdict → Nat
  | .skip _ => 1
  | _ => 0

def Verdict.slug? : Verdict → Option String
  | .register slug _ => some slug
  | _ => none

private theorem skipped_add (r : Report) (v : Verdict) :
    (r.add v).skipped = r.skipped + v.skips := by
  cases v <;> rfl

private theorem speakers_add (r : Report) (v : Verdict) :
    (r.add v).speakers.map Prod.fst = r.speakers.map Prod.fst ++ v.slug?.toList := by
  cases v <;> simp [Report.add, Verdict.slug?]

private theorem report_of_round {dry : Bool} {s t : SeedState} {e : SeedEntry}
    (round : SeedRound cfg ⟨force, dry⟩ s e t) (written : AllWritten t) :
    report t = (report s).add (verdict cfg force s.disk e) := by
  have goes_on {n : SpeakerName} (goes : cfg.present s.disk n → force = true) :
      ¬ (cfg.present s.disk n ∧ force = false) := fun ⟨there, keeps⟩ => by
    rw [goes there] at keeps
    cases keeps
  cases round with
  | noSlug none => simp [verdict, none, report, Report.add, registers?, isSkip]
  | present slug there keeps =>
    rw [verdict_of_slug slug, if_pos ⟨there, keeps⟩]
    simp [report, Report.add, registers?, isSkip]
  | unconverted slug goes raises =>
    have fails : e.tensors.convert.isOk = false := congrArg Except.isOk raises
    rw [verdict_of_slug slug, if_neg (goes_on goes), fails]
    simp [report, Report.add, registers?, isSkip]
  | planned slug goes converts dry =>
    have well : e.tensors.convert.isOk = true := congrArg Except.isOk converts
    rw [verdict_of_slug slug, if_neg (goes_on goes), well]
    simp [report, Report.add, registers?, isSkip]
  | written slug goes converts real tried =>
    have well : e.tensors.convert.isOk = true := congrArg Except.isOk converts
    rw [verdict_of_slug slug, if_neg (goes_on goes), well]
    simp [report, Report.add, registers?, isSkip]
  | failed slug goes converts real tried =>
    cases written _ (List.mem_append_right _ (List.mem_singleton.mpr rfl))

private theorem allWritten_of_dry_run (cfg : SeedConfig) (force : Bool) (env : SeedEnv)
    (disk : Disk) (speakers : List (String × StudioTensors)) :
    AllWritten (cfg.rounds ⟨force, true⟩ env disk speakers) := by
  refine rounds_induct (P := fun _ s => AllWritten s) speakers (by simp [AllWritten]) ?_
  intro _ _ s t before round line member
  cases round with
  | written slug goes converts real tried => cases real
  | failed slug goes converts real tried => cases real
  | _ =>
    rcases List.mem_append.mp member with earlier | now
    · exact before line earlier
    · rw [List.mem_singleton.mp now]
      rfl

private theorem report_concat {dry : Bool} {speaker : String × StudioTensors}
    (written : AllWritten (cfg.rounds ⟨force, dry⟩ env disk (speakers ++ [speaker]))) :
    AllWritten (cfg.rounds ⟨force, dry⟩ env disk speakers) ∧
      report (cfg.rounds ⟨force, dry⟩ env disk (speakers ++ [speaker])) =
        (report (cfg.rounds ⟨force, dry⟩ env disk speakers)).add
          (verdict cfg force (cfg.rounds ⟨force, dry⟩ env disk speakers).disk
            (env.entry speaker)) := by
  rw [rounds_concat] at written ⊢
  have round := seedOne_round cfg ⟨force, dry⟩ (cfg.rounds ⟨force, dry⟩ env disk speakers)
    (env.entry speaker)
  generalize cfg.rounds ⟨force, dry⟩ env disk speakers = s at written round ⊢
  generalize s.seedOne cfg ⟨force, dry⟩ (env.entry speaker) = t at written round ⊢
  refine ⟨fun line member => ?_, report_of_round round written⟩
  have later : ∃ lines, t.lines = s.lines ++ lines := by
    cases round with
    | failed slug goes converts real tried => exact ⟨_, List.append_assoc ..⟩
    | _ => exact ⟨_, rfl⟩
  obtain ⟨lines, same⟩ := later
  exact written line (same ▸ List.mem_append_left _ member)

private theorem verdict_force (disk' : Disk) (e : SeedEntry) :
    verdict cfg true disk' e = verdict cfg true disk e := by
  simp [verdict]

/-- Without it the real run goes on as the dry run does, unless it skips what the dry run does not:
a speaker that clashes with an earlier one. -/
private theorem verdict_beside (written : AllWritten (cfg.rounds ⟨false, false⟩ env disk speakers))
    (speaker : String × StudioTensors) :
    (∀ a ∈ speakers, ¬ Clash cfg false disk a speaker) ∧
        verdict cfg false (cfg.rounds ⟨false, false⟩ env disk speakers).disk (env.entry speaker) =
          verdict cfg false disk (env.entry speaker) ∨
      (∃ a ∈ speakers, Clash cfg false disk a speaker) ∧
        (verdict cfg false (cfg.rounds ⟨false, false⟩ env disk speakers).disk
          (env.entry speaker)).skips = 1 ∧
            (verdict cfg false disk (env.entry speaker)).skips = 0 := by
  have there := present_of_rounds written
  generalize cfg.rounds ⟨false, false⟩ env disk speakers = s at there ⊢
  cases slug : cfg.slug? speaker.1 with
  | none =>
    have own : cfg.slug? (env.entry speaker).displayName = none := slug
    refine .inl ⟨fun a _ clash => ?_, by simp only [verdict, own]⟩
    obtain ⟨n, -, named, -⟩ := clash_iff.mp clash
    cases slug.symm.trans named
  | some n =>
    have own : cfg.slug? (env.entry speaker).displayName = some n := slug
    have clash (a : String × StudioTensors) : Clash cfg false disk a speaker ↔
        (cfg.slug? a.1 = some n ∧ a.2.convert.isOk = true) ∧ ¬ cfg.present disk n := by
      rw [clash_iff]
      constructor
      · rintro ⟨m, first, second, well, absent⟩
        obtain rfl := Option.some.inj (second.symm.trans slug)
        exact ⟨⟨first, well⟩, absent⟩
      · exact fun ⟨⟨first, well⟩, absent⟩ => ⟨n, first, slug, well, absent⟩
    by_cases clashes : ∃ a ∈ speakers, Clash cfg false disk a speaker
    · refine .inr ⟨clashes, ?_, ?_⟩
      · obtain ⟨a, member, bad⟩ := clashes
        have found := (there n).mpr (.inr ⟨a, member, ((clash a).mp bad).1⟩)
        rw [verdict_of_slug own, if_pos ⟨found, rfl⟩]
        rfl
      · obtain ⟨a, member, bad⟩ := clashes
        have absent := ((clash a).mp bad).2
        rw [verdict_of_slug own, if_neg fun both => absent both.1]
        split_ifs
        · rfl
        · rfl
    · have none : ∀ a ∈ speakers, ¬ Clash cfg false disk a speaker :=
        fun a member bad => clashes ⟨a, member, bad⟩
      refine .inl ⟨none, ?_⟩
      have same : cfg.present s.disk n ↔ cfg.present disk n := by
        refine (there n).trans (or_iff_left_of_imp ?_)
        rintro ⟨a, member, own⟩
        by_contra absent
        exact none a member ((clash a).mpr ⟨own, absent⟩)
      simp only [verdict_of_slug own, same]

/-! ### Whole runs -/

private theorem report_of_dry_run
    (written : AllWritten (cfg.rounds ⟨force, false⟩ env disk speakers))
    (apart : force = false → speakers.Pairwise fun a b => ¬ Clash cfg force disk a b) :
    report (cfg.rounds ⟨force, true⟩ env disk speakers) =
      report (cfg.rounds ⟨force, false⟩ env disk speakers) := by
  induction speakers using List.reverseRecOn with
  | nil => rw [rounds_nil, rounds_nil]
  | append_singleton speakers speaker ih =>
    obtain ⟨earlier, real⟩ := report_concat written
    obtain ⟨-, dry⟩ := report_concat (allWritten_of_dry_run cfg force env disk
      (speakers ++ [speaker]))
    rw [disk_of_dry_run] at dry
    have before := ih earlier fun keeps => (List.pairwise_append.mp (apart keeps)).1
    rw [dry, real, before]
    refine congrArg _ ?_
    cases force with
    | true => exact verdict_force disk _
    | false =>
      rcases verdict_beside earlier speaker with ⟨-, same⟩ | ⟨⟨a, member, clash⟩, -⟩
      · exact same.symm
      · exact absurd clash ((List.pairwise_append.mp (apart rfl)).2.2 a member _ (by simp))

/-- Without `--force` the real run skips as many as the dry run, and one more for each clash. -/
private theorem skipped_of_dry_run
    (written : AllWritten (cfg.rounds ⟨false, false⟩ env disk speakers)) :
    (cfg.rounds ⟨false, true⟩ env disk speakers).skipped ≤
        (cfg.rounds ⟨false, false⟩ env disk speakers).skipped ∧
      ((cfg.rounds ⟨false, true⟩ env disk speakers).skipped =
        (cfg.rounds ⟨false, false⟩ env disk speakers).skipped →
          speakers.Pairwise fun a b => ¬ Clash cfg false disk a b) := by
  induction speakers using List.reverseRecOn with
  | nil =>
    rw [rounds_nil, rounds_nil]
    exact ⟨Nat.le_refl _, fun _ => .nil⟩
  | append_singleton speakers speaker ih =>
    obtain ⟨earlier, real⟩ := report_concat written
    obtain ⟨-, dry⟩ := report_concat (allWritten_of_dry_run cfg false env disk
      (speakers ++ [speaker]))
    rw [disk_of_dry_run] at dry
    have more := congrArg Report.skipped real
    have more' := congrArg Report.skipped dry
    rw [skipped_add] at more more'
    dsimp only [report] at more more'
    obtain ⟨fewer, apart⟩ := ih earlier
    rcases verdict_beside earlier speaker with ⟨none, same⟩ | ⟨-, skips, goes⟩
    · rw [same] at more
      refine ⟨by omega, fun equal => List.pairwise_append.mpr ⟨apart (by omega), by simp, ?_⟩⟩
      intro a member b last
      obtain rfl := List.mem_singleton.mp last
      exact none a member
    · rw [skips] at more
      rw [goes] at more'
      exact ⟨by omega, fun equal => by omega⟩

private theorem slug?_of_verdict {speaker : String × StudioTensors} {slug : String} :
    (verdict cfg true disk (env.entry speaker)).slug? = some slug ↔
      ∃ n, cfg.slug? speaker.1 = some n ∧ n.name = slug ∧ speaker.2.convert.isOk = true := by
  cases found : cfg.slug? speaker.1 with
  | none =>
    have own : cfg.slug? (env.entry speaker).displayName = none := found
    simp [verdict, own, Verdict.slug?]
  | some n =>
    have own : cfg.slug? (env.entry speaker).displayName = some n := found
    rw [verdict_of_slug own, if_neg (by simp)]
    split_ifs with well
    · have well' : speaker.2.convert.isOk = true := well
      simp [Verdict.slug?, well']
    · have fails : ¬ speaker.2.convert.isOk = true := well
      simp [Verdict.slug?, fails]

private theorem speakers_of_force
    (written : AllWritten (cfg.rounds ⟨true, false⟩ env disk speakers)) :
    (report (cfg.rounds ⟨true, false⟩ env disk speakers)).speakers.map Prod.fst =
      speakers.filterMap fun a => (verdict cfg true disk (env.entry a)).slug? := by
  induction speakers using List.reverseRecOn with
  | nil => rw [rounds_nil]; rfl
  | append_singleton speakers speaker ih =>
    obtain ⟨earlier, real⟩ := report_concat written
    rw [real, speakers_add, ih earlier, verdict_force, List.filterMap_append]
    refine congrArg _ ?_
    cases slug : (verdict cfg true disk (env.entry speaker)).slug? <;> simp [slug]

private theorem nodup_speakers_iff
    (written : AllWritten (cfg.rounds ⟨true, false⟩ env disk speakers)) :
    ((report (cfg.rounds ⟨true, false⟩ env disk speakers)).speakers.map Prod.fst).Nodup ↔
      speakers.Pairwise fun a b => ¬ Clash cfg true disk a b := by
  rw [speakers_of_force written, List.Nodup, List.pairwise_filterMap]
  refine List.Pairwise.iff fun a b => ?_
  rw [clash_iff]
  constructor
  · rintro apart ⟨n, first, second, well, well'⟩
    exact apart _ (slug?_of_verdict.mpr ⟨n, first, rfl, well⟩) _
      (slug?_of_verdict.mpr ⟨n, second, rfl, well'⟩) rfl
  · rintro none slug first slug' second rfl
    obtain ⟨n, own, named, well⟩ := slug?_of_verdict.mp first
    obtain ⟨m, own', named', well'⟩ := slug?_of_verdict.mp second
    obtain rfl := eq_of_name (named.trans named'.symm)
    exact none ⟨n, own, own', well, well'⟩

/-- The dry run predicts a real run in which no write fails exactly when no speaker of the file
clashes with a later one. -/
theorem dry_run_predicts (cfg : SeedConfig) (force : Bool) (env : SeedEnv)
    (speakers : Dict String StudioTensors) (disk : Disk)
    (written : AllWritten (seedMain cfg ⟨force, false⟩ env speakers disk)) :
    Predicts force disk (seedMain cfg ⟨force, true⟩ env speakers disk)
        (seedMain cfg ⟨force, false⟩ env speakers disk) ↔
      speakers.entries.Pairwise fun a b => ¬ Clash cfg force disk a b := by
  rw [seedMain_eq] at written
  rw [seedMain_eq, seedMain_eq]
  constructor
  · intro predicts
    cases force with
    | true => exact (nodup_speakers_iff written).mp (predicts.apart rfl)
    | false => exact (skipped_of_dry_run written).2 (congrArg Report.skipped predicts.report)
  · intro none
    refine ⟨report_of_dry_run written fun _ => none, disk_of_dry_run .., fun overwrites => ?_⟩
    subst overwrites
    exact (nodup_speakers_iff written).mpr none

/-- The script over the default SPEAKERS_DIR, for names that are ASCII already. -/
def seedConfig : SeedConfig := { speakersConfig with nfkd := id }

def studioTensors : StudioTensors := ⟨.ok ⟨[1, 1], [7]⟩, .ok ⟨[1], [9]⟩⟩

def noStops : SeedEnv := ⟨fun _ => "2024-01-01", fun _ => none⟩

/-- Two speakers of the model with different slugs. -/
def twoSpeakers : Dict String StudioTensors :=
  (Dict.empty.set "Claribel Dervla" studioTensors).set "Daisy Studious" studioTensors

/-- Two display names that differ in a character that the slug does not have. -/
def spacedTwice : Dict String StudioTensors :=
  (Dict.empty.set "Claribel Dervla" studioTensors).set "Claribel_Dervla" studioTensors

instance (cfg : SeedConfig) (force : Bool) (disk : Disk) (a b : String × StudioTensors) :
    Decidable (Clash cfg force disk a b) := by
  unfold Clash
  split <;> infer_instance

theorem dry_run_predicts_two_speakers :
    twoSpeakers.entries.Pairwise (fun a b => ¬ Clash seedConfig false aliceDisk a b) ∧
      (Predicts false aliceDisk (seedMain seedConfig ⟨false, true⟩ noStops twoSpeakers aliceDisk)
          (seedMain seedConfig ⟨false, false⟩ noStops twoSpeakers aliceDisk) ↔
        twoSpeakers.entries.Pairwise fun a b => ¬ Clash seedConfig false aliceDisk a b) :=
  ⟨by decide +kernel,
    dry_run_predicts seedConfig false noStops twoSpeakers aliceDisk (by decide +kernel)⟩

/-- The dry run announces both, and the real one skips the second. -/
theorem dry_run_announces_more : ¬ ∀ cfg force env speakers disk,
    AllWritten (seedMain cfg ⟨force, false⟩ env speakers disk) →
      Predicts force disk (seedMain cfg ⟨force, true⟩ env speakers disk)
        (seedMain cfg ⟨force, false⟩ env speakers disk) := by
  intro all
  have same := (all seedConfig false noStops spacedTwice aliceDisk (by decide +kernel)).report
  revert same
  decide +kernel

end XttsServer.Guarantees
