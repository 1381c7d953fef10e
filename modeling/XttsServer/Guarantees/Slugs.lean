import XttsServer.Guarantees.SpeakerNames
import XttsServer.Guarantees.DryRun

/-!
The slugs of the seeding script are names of speakers: the endpoints accept them, a
slug is its own slug, and what is written under one is served under it.
-/

set_option autoImplicit false
set_option relaxedAutoImplicit false

namespace XttsServer.Guarantees

open XttsServer.Model XttsServer.Foundations XttsServer.Foundations.Transition

variable {cfg : SeedConfig}

def Ascii (text : String) : Prop := ∀ c ∈ text.toList, c.toNat < 128

def onDisk (s : SpeakerState) (disk : Disk) :
    SpeakerState := { s with store := { s.store with disk } }

/-- The name of the entry is the one in its `meta.json`, and as long as the entry stays as it is on
this disk every server, whatever it has in memory, can fetch and delete the speaker by this name. -/
structure Offered (cfg : SpeakerConfig) (disk : Disk) (c : Component) : Prop where
  recorded : ∃ fields, cfg.dir.entryFile disk c metaJson = some (.json fields) ∧
    fields.get? "name" = some c.name
  fetched : ∀ start tr s disk', Reach (speakerServer cfg start) anyStep tr s →
    (∀ q, cfg.dir.root ++ [c] <+: q → disk'.node q = disk.node q) →
      ∃ createdAt,
        .answered (.ok (.info c.name createdAt)) ∈ ((onDisk s disk').getSpeaker cfg c.name).2
  deleted : ∀ (s : SpeakerState) disk',
    (∀ q, cfg.dir.root ++ [c] <+: q → disk'.node q = disk.node q) →
      ∃ s' o message, (onDisk s disk').deleteSpeaker cfg c.name none = some (s', o) ∧
        .answered (.ok (.deleted message)) ∈ o ∧
          ∀ q, cfg.dir.root ++ [c] <+: q → s'.store.disk.node q = none

/-- The slug of the display name is a name of speakers, or empty; it is stable; and the speaker that
a round of the script has registered is served under it. -/
structure SlugFits (cfg : SeedConfig) (displayName : String) : Prop where
  accepted : slugOf cfg.nfkd displayName = "" ∨
    validateSpeakerName (slugOf cfg.nfkd displayName) = .ok ()
  stable : slugOf cfg.nfkd (slugOf cfg.nfkd displayName) = slugOf cfg.nfkd displayName
  served : ∀ args s e, e.displayName = displayName → args.dryRun = false →
    (SeedState.seedOne cfg args s e).registered = s.registered + 1 →
      ∃ c : Component, c.name = slugOf cfg.nfkd displayName ∧
        Offered cfg.toSpeakerConfig (SeedState.seedOne cfg args s e).disk c

/-! ### Slugs of slugs -/

private theorem ascii_of_wordChar {c : Char} (word : WordChar c) : c.toNat < 128 := by
  have bound {a b : Char} (le : a ≤ b) : a.toNat ≤ b.toNat := le
  rcases word with ⟨-, le⟩ | ⟨-, le⟩ | ⟨-, le⟩ | rfl | rfl
  · exact lt_of_le_of_lt (bound le) (by decide)
  · exact lt_of_le_of_lt (bound le) (by decide)
  · exact lt_of_le_of_lt (bound le) (by decide)
  · decide
  · decide

private theorem wordChar_of_slugify (ascii : String) : ∀ c ∈ (slugify ascii).toList, WordChar c :=
  fun c member => (isNameChar_iff c).mp (isNameChar_of_slugify member)

private theorem encodeAscii_of_ascii {text : String} (ascii : Ascii text) :
    encodeAscii text = text := by
  rw [encodeAscii, List.filter_eq_self.mpr fun c member => by simpa using ascii c member,
    String.ofList_toList]

private theorem slugify_of_words {text : String} (words : ∀ c ∈ text.toList, WordChar c)
    (short : text.length ≤ 64) : slugify text = text := by
  have kept : text.toList.filterMap (fun c =>
      if c.isAlphanum ∨ c = '-' ∨ c = '_' then some c else if c = ' ' then some '_' else none) =
        text.toList := by
    have each : ∀ c ∈ text.toList, (if c.isAlphanum ∨ c = '-' ∨ c = '_' then some c
        else if c = ' ' then some '_' else none) = some c := by
      intro c member
      have named := (isNameChar_iff c).mpr (words c member)
      simp only [isNameChar, Bool.or_eq_true, decide_eq_true_eq] at named
      exact if_pos (by tauto)
    rw [List.filterMap_congr each, List.filterMap_some]
  rw [slugify, kept, List.take_of_length_le (String.length_toList ▸ short), String.ofList_toList]

private theorem length_slugify (ascii : String) : (slugify ascii).length ≤ 64 := by
  rw [slugify, String.length_ofList]
  exact List.length_take_le _ _

private theorem slugOf_slugOf (unchanged : ∀ text, Ascii text → cfg.nfkd text = text)
    (displayName : String) :
    slugOf cfg.nfkd (slugOf cfg.nfkd displayName) = slugOf cfg.nfkd displayName := by
  have words := wordChar_of_slugify (encodeAscii (cfg.nfkd displayName))
  have ascii : Ascii (slugOf cfg.nfkd displayName) :=
    fun c member => ascii_of_wordChar (words c member)
  rw [slugOf, unchanged _ ascii, encodeAscii_of_ascii ascii]
  exact slugify_of_words words (length_slugify _)

/-! ### What is written -/

private theorem served_of_written {d : SpeakerConfig} {disk disk' : Disk} {n : SpeakerName}
    {sp : StudioSpeaker} (named : slugify sp.ascii = n.name)
    (ran : runActions disk (seedWrites d.dir n sp) = some disk') : Offered d disk' n.component := by
  obtain ⟨latents, info⟩ := entryFiles_of_seed ran
  have keeps {disk'' : Disk} {file : Component}
      (same : ∀ q, d.dir.root ++ [n.component] <+: q → disk''.node q = disk'.node q) :
      d.dir.entryFile disk'' n.component file = d.dir.entryFile disk' n.component file :=
    entryFile_of_node (same _ (List.prefix_append _ _))
  refine ⟨⟨_, info, sp.fields_name.trans (congrArg some named)⟩, ?_, ?_⟩
  · intro start tr s disk'' reach same
    have named : Named d s := named_of_reach reach
    have inMemory : Named d (onDisk s disk'') := named
    refine (getsFrom_of_named inMemory n).found ⟨_, _, (keeps same).trans latents⟩ ?_
    rw [SpeakersDir.metaReadable]
    change ((d.dir.entryFile disk'' n.component metaJson).all _) = true
    rw [keeps same, info]
    rfl
  · intro s disk'' same
    have there : disk''.isDir (d.dir.root ++ [n.component]) = true :=
      isDir_of_entryFile ((keeps same).trans latents)
    have deletes := deletesOnly d (onDisk s disk'') n
    obtain ⟨s', o, message, taken, told⟩ := deletes.found there
    exact ⟨s', o, message, taken, told, (deletes.answer _ _ _ _ taken told).1⟩

/-- For every display name, when the normalisation leaves ASCII text as it is. -/
theorem slugs_are_names (cfg : SeedConfig) (unchanged : ∀ text, Ascii text → cfg.nfkd text = text)
    (displayName : String) : SlugFits cfg displayName := by
  refine ⟨or_iff_not_imp_left.mpr validate_slugify, slugOf_slugOf unchanged displayName, ?_⟩
  rintro args s e rfl real more
  have round := seedOne_round cfg args s e
  generalize s.seedOne cfg args e = t at round more
  cases round with
  | planned slug goes converts dry => simp [dry] at real
  | @written n gpt emb disk slug goes converts real tried =>
    have named := name_of_slug? slug
    have own : slugify (cfg.studio e gpt emb).ascii = n.name := named.symm
    exact ⟨n.component, named, served_of_written own (runActions_of_attempt tried)⟩
  | _ => simp at more

theorem slugs_are_names_claribel :
    slugOf seedConfig.nfkd "Claribel Dervla" = "Claribel_Dervla" ∧
      SlugFits seedConfig "Claribel Dervla" :=
  ⟨by decide +kernel, slugs_are_names seedConfig (fun _ _ => rfl) "Claribel Dervla"⟩

end XttsServer.Guarantees
