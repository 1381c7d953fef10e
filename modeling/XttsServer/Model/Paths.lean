import Mathlib.Data.List.TakeWhile
import Mathlib.Data.String.Basic
import XttsServer.Foundations.Route
import XttsServer.Model.Requests

/-!
Paths and the names that become components of them: what `os.path.normpath` and
`os.path.join` make of them, and the check that the endpoints make on a speaker's name.
-/

set_option autoImplicit false
set_option relaxedAutoImplicit false

namespace XttsServer.Model

open XttsServer.Foundations

/-! ### Paths -/

/-- A name that a directory can hold. -/
def isPlain (name : String) : Bool :=
  name ≠ "" && name ≠ "." && name ≠ ".." && '/' ∉ name.toList

structure Component where
  name : String
  plain : isPlain name = true
  deriving DecidableEq

/-- `path.split("/")`. -/
def components (path : Path) : List String := (path.toList.splitOn '/').map String.ofList

/-- What a component of a split path does; none of them has a slash in it. -/
def hopOf (c : String) : Hop Component :=
  if c = ".." then .up else if plain : isPlain c = true then .down ⟨c, plain⟩ else .stay

def hops (path : Path) : List (Hop Component) := (components path).map hopOf

/-- How many slashes `os.path.normpath` keeps at the beginning of a path: two stay two, any other
number is one. -/
def leadingSlashes (path : Path) : Nat :=
  let n := (path.toList.takeWhile (· = '/')).length
  if n = 2 then 2 else min n 1

/-- What `os.path.normpath` writes out: slashes, then `..` components, then names. -/
structure NormPath where
  slashes : Nat
  route : Route Component
  deriving DecidableEq

def normpath (path : Path) : NormPath :=
  let slashes := leadingSlashes path
  ⟨slashes, Route.start.follow (0 < slashes) (hops path)⟩

def isAbsolute (path : Path) : Bool := path.toList.head? = some '/'

def NormPath.child (p : NormPath) (c : Component) : NormPath :=
  ⟨p.slashes, ⟨p.route.ups, p.route.names ++ [c]⟩⟩

/-- After lexical normalisation the path is one name longer than the directory. -/
def DirectChild (dir path : Path) : Prop := ∃ c, normpath path = (normpath dir).child c

private theorem slash_not_mem (c : Component) : '/' ∉ c.name.toList := by
  have plain := c.plain
  simp only [isPlain, Bool.and_eq_true, decide_eq_true_eq] at plain
  exact plain.2

theorem hops_component (c : Component) : hops c.name = [.down c] := by
  have up : c.name ≠ ".." := fun same => absurd c.plain (by rw [same]; decide)
  rw [hops, components, List.splitOn_eq_singleton (slash_not_mem c)]
  simp [hopOf, up, c.plain]

theorem isAbsolute_component (c : Component) : isAbsolute c.name = false := by
  rw [isAbsolute, decide_eq_false_iff_not]
  exact fun first => slash_not_mem c (List.mem_of_head? first)

private theorem osPathJoin_of_absolute {b : Path} (absolute : isAbsolute b = true) (a : Path) :
    osPathJoin a b = b := by
  rw [osPathJoin, if_pos (by simpa [isAbsolute] using absolute)]

private theorem hops_append_slash (a b : Path) : hops (a ++ "/" ++ b) = hops a ++ hops b := by
  have chars : (a ++ "/" ++ b).toList = a.toList ++ '/' :: b.toList := by simp
  rw [hops, components, chars, List.splitOn_append_cons_self]
  simp [hops, components]

/-- Joining a relative path makes its hops after those of the directory. -/
private theorem follow_hops_osPathJoin {b : Path} (relative : isAbsolute b = false) (a : Path)
    (anchored : Bool) (r : Route Component) :
    r.follow anchored (hops (osPathJoin a b)) =
      (r.follow anchored (hops a)).follow anchored (hops b) := by
  rw [osPathJoin, if_neg (by simpa [isAbsolute] using relative)]
  split_ifs with open_end
  · rcases open_end with rfl | slash
    · have here : hops "" = [.stay] := by decide
      rw [here, String.empty_append]
      rfl
    · obtain ⟨front, ending⟩ := List.getLast?_eq_some_iff.mp slash
      have shape : a = String.ofList front ++ "/" := String.toList_injective (by simp [ending])
      have here : hops "" = [.stay] := by decide
      have trailing := hops_append_slash (String.ofList front) ""
      rw [String.append_empty] at trailing
      rw [shape, hops_append_slash, trailing, here, Route.follow_append, Route.follow_append]
      rfl
  · rw [hops_append_slash, Route.follow_append]

private theorem leadingSlashes_pos_iff (path : Path) :
    0 < leadingSlashes path ↔ isAbsolute path = true := by
  have first : 0 < (path.toList.takeWhile (· = '/')).length ↔ path.toList.head? = some '/' := by
    cases path.toList with
    | nil => simp
    | cons c cs => by_cases same : c = '/' <;> simp [same]
  rw [isAbsolute, decide_eq_true_eq, ← first, leadingSlashes]
  generalize (path.toList.takeWhile (· = '/')).length = n
  split_ifs <;> omega

private theorem takeWhile_append_of_head_ne {as bs : List Char} (other : bs.head? ≠ some '/') :
    (as ++ bs).takeWhile (· = '/') = as.takeWhile (· = '/') := by
  have stops : bs.takeWhile (· = '/') = [] := by
    cases bs with
    | nil => rfl
    | cons c cs => exact List.takeWhile_cons_of_neg (by simpa using other)
  rw [List.takeWhile_append, stops, List.append_nil]
  split_ifs with all
  · exact ((List.takeWhile_prefix _).eq_of_length all).symm
  · rfl

private theorem leadingSlashes_osPathJoin {b : Path} (relative : isAbsolute b = false) (a : Path) :
    leadingSlashes (osPathJoin a b) = leadingSlashes a := by
  have other : b.toList.head? ≠ some '/' := by simpa [isAbsolute] using relative
  have same : (osPathJoin a b).toList.takeWhile (· = '/') = a.toList.takeWhile (· = '/') := by
    rw [osPathJoin, if_neg other]
    split_ifs with open_end
    · rw [String.toList_append, takeWhile_append_of_head_ne other]
    · rw [String.toList_append, takeWhile_append_of_head_ne other, String.toList_append,
        List.takeWhile_append, if_neg]
      -- a path of slashes only would end with one
      intro all
      have whole := List.takeWhile_eq_self_iff.mp ((List.takeWhile_prefix _).eq_of_length all)
      have some_char : a.toList ≠ [] :=
        fun none => open_end (.inl (String.toList_eq_nil_iff.mp none))
      have slash := whole _ (List.getLast_mem some_char)
      exact open_end (.inr (by simpa [List.getLast?_eq_some_getLast some_char] using slash))
  rw [leadingSlashes, leadingSlashes, same]

theorem normpath_osPathJoin {b : Path} (relative : isAbsolute b = false) (a : Path) :
    normpath (osPathJoin a b) =
      ⟨(normpath a).slashes, (normpath a).route.follow (0 < (normpath a).slashes) (hops b)⟩ := by
  unfold normpath
  dsimp only
  rw [leadingSlashes_osPathJoin relative, follow_hops_osPathJoin relative]

/-- The names that lead to a direct child of a directory: a relative one leads back down as far as
it leads up, and one name further; an absolute one is the path of a child. -/
def LeadsToChild (dir : Path) (name : String) : Prop :=
  if isAbsolute name then ∃ c, normpath name = (normpath dir).child c
  else
    let out := Route.start.follow false (hops name)
    let names := (normpath dir).route.names
    (isAbsolute dir = true ∨ out.ups ≤ names.length) ∧
      ∃ c, out.names = names.drop (names.length - out.ups) ++ [c]

theorem directChild_osPathJoin_iff (dir : Path) (name : String) :
    DirectChild dir (osPathJoin dir name) ↔ LeadsToChild dir name := by
  unfold LeadsToChild
  split_ifs with absolute
  · rw [DirectChild, osPathJoin_of_absolute absolute]
  · have anchored : decide (0 < (normpath dir).slashes) = true ↔ isAbsolute dir = true := by
      rw [decide_eq_true_eq]
      exact leadingSlashes_pos_iff dir
    have child (c : Component) := Route.follow_eq_child_iff (0 < (normpath dir).slashes)
      (normpath dir).route (hops name) c
    simp only [anchored] at child
    simp only [DirectChild, normpath_osPathJoin (Bool.eq_false_of_not_eq_true absolute),
      NormPath.child, NormPath.mk.injEq, true_and, child, exists_and_left]

theorem leadsToChild_component (dir : Path) (c : Component) : LeadsToChild dir c.name := by
  unfold LeadsToChild
  rw [if_neg (by simp [isAbsolute_component]), hops_component]
  exact ⟨.inr (Nat.zero_le _), c, by simp [Route.follow, Route.hop, Route.start]⟩

/-! ### Names -/

/-- `[a-zA-Z0-9_\-]`. -/
def isNameChar (c : Char) : Bool := c.isAlphanum || c = '_' || c = '-'

/-- `re.match(r"^[a-zA-Z0-9_\-]+$", name)`: the dollar also matches before a last newline. -/
def matchesName (name : String) : Bool :=
  let cs := name.toList
  let body := if cs.getLast? = some '\n' then cs.dropLast else cs
  body ≠ [] && body.all isNameChar

def validateSpeakerName (name : String) : Except Exc Unit :=
  if name = "" then .error (.http 422 "speaker_name must not be empty.")
  else if name.length > 64 then
    .error (.http 422 "speaker_name must be 64 characters or fewer.")
  else if matchesName name then .ok ()
  else
    .error (.http 422
      "speaker_name may only contain letters, digits, hyphens (-), and underscores (_).")

/-- A name that has been validated. -/
structure SpeakerName where
  name : String
  valid : validateSpeakerName name = .ok ()

theorem SpeakerName.matches (n : SpeakerName) : matchesName n.name = true := by
  have valid := n.valid
  unfold validateSpeakerName at valid
  split_ifs at valid
  assumption

private theorem isPlain_of_matches {name : String} (h : matchesName name = true) :
    isPlain name = true := by
  obtain ⟨cs, rfl⟩ : ∃ cs, name = String.ofList cs := ⟨name.toList, String.ofList_toList.symm⟩
  have chars : ∀ c ∈ cs, c = '\n' ∨ isNameChar c = true := by
    intro c member
    simp only [matchesName, String.toList_ofList, Bool.and_eq_true, List.all_eq_true] at h
    split_ifs at h with newline
    · obtain ⟨rest, rfl⟩ := List.getLast?_eq_some_iff.mp newline
      rw [List.dropLast_concat] at h
      rcases List.mem_append.mp member with inside | last
      · exact .inr (h.2 c inside)
      · exact .inl (List.mem_singleton.mp last)
    · exact .inr (h.2 c member)
  have without : ∀ c : Char, c ≠ '\n' → isNameChar c = false → c ∉ cs :=
    fun c other bad member => by
    rcases chars c member with newline | good
    · exact other newline
    · rw [bad] at good
      cases good
  have dot := without '.' (by decide) (by decide)
  have slash := without '/' (by decide) (by decide)
  have some_char : cs ≠ [] := by
    rintro rfl
    revert h
    decide
  simp only [isPlain, Bool.and_eq_true, decide_eq_true_eq, ne_eq, String.toList_ofList]
  refine ⟨⟨⟨?_, ?_⟩, ?_⟩, slash⟩
  · intro empty
    exact some_char (by simpa using congrArg String.toList empty)
  · intro same
    have list : cs = ['.'] := by simpa using congrArg String.toList same
    exact dot (list ▸ List.mem_cons_self)
  · intro same
    have list : cs = ['.', '.'] := by simpa using congrArg String.toList same
    exact dot (list ▸ List.mem_cons_self)

def SpeakerName.component (n : SpeakerName) : Component :=
  ⟨n.name, isPlain_of_matches n.matches⟩

end XttsServer.Model
