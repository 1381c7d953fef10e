import Mathlib.Data.List.Infix
import XttsServer.Foundations.Dict
import XttsServer.Foundations.Route

/-!
Trees of directories and files. A tree knows the nodes by the names that lead to
them from its root, and every node but the root stands in a directory.
-/

set_option autoImplicit false
set_option relaxedAutoImplicit false

namespace XttsServer.Foundations

universe u v

inductive Node (α : Type v)
  | dir
  | file (content : α)
  deriving DecidableEq

structure FileTree (ν : Type u) (α : Type v) [DecidableEq ν] where
  nodes : Dict (List ν) (Node α)
  rooted : nodes.get? [] = some .dir
  closed : ∀ p c, nodes.get? (p ++ [c]) ≠ none → nodes.get? p = some .dir

namespace FileTree

variable {ν : Type u} {α : Type v} [DecidableEq ν]

def node (t : FileTree ν α) (p : List ν) : Option (Node α) := t.nodes.get? p

def isDir (t : FileTree ν α) (p : List ν) : Bool :=
  match t.node p with
  | some .dir => true
  | _ => false

def read (t : FileTree ν α) (p : List ν) : Option α :=
  match t.node p with
  | some (.file a) => some a
  | _ => none

def isFile (t : FileTree ν α) (p : List ν) : Bool := (t.read p).isSome

/-- The name under which the directory `p` holds the node at `q`. -/
def childName (p q : List ν) : Option ν := if q.dropLast = p then q.getLast? else none

def children (t : FileTree ν α) (p : List ν) : List ν := t.nodes.keys.filterMap (childName p)

/-- Where a path leads from a directory. Each component but the last has to be a directory. -/
def walk (t : FileTree ν α) (at' : List ν) : List (Hop ν) → Option (List ν)
  | [] => some at'
  | h :: rest =>
      if t.isDir at' then
        match h with
        | .stay => t.walk at' rest
        | .up => t.walk at'.dropLast rest
        | .down c => t.walk (at' ++ [c]) rest
      else none

@[simp] theorem isDir_iff {t : FileTree ν α} {p : List ν} :
    t.isDir p = true ↔ t.node p = some .dir := by
  unfold isDir
  split <;> simp_all

theorem read_eq_some_iff {t : FileTree ν α} {p : List ν} {a : α} :
    t.read p = some a ↔ t.node p = some (.file a) := by
  unfold read
  split <;> simp_all

theorem node_congr {t t' : FileTree ν α} {p : List ν} (same : t'.node p = t.node p) :
    t'.isDir p = t.isDir p ∧ t'.read p = t.read p := by
  rw [isDir, isDir, read, read, same]
  exact ⟨rfl, rfl⟩

theorem node_append_eq_none {t : FileTree ν α} {p : List ν} (other : t.node p ≠ some .dir) (c : ν)
    (q : List ν) : t.node (p ++ c :: q) = none := by
  induction q using List.reverseRecOn with
  | nil =>
    by_contra there
    exact other (t.closed p c there)
  | append_singleton q d ih =>
    by_contra there
    have parent := t.closed (p ++ c :: q) d (by simpa [node] using there)
    simp [node] at ih
    rw [ih] at parent
    cases parent

theorem node_of_below {t : FileTree ν α} {p q : List ν} (there : t.node q ≠ none) (above : p <+: q)
    (apart : p ≠ q) : t.node p = some .dir := by
  obtain ⟨rest, rfl⟩ := above
  cases rest with
  | nil => exact absurd (List.append_nil p).symm apart
  | cons c rest =>
    by_contra other
    exact there (node_append_eq_none other c rest)

private theorem childName_eq_some_iff {p q : List ν} {c : ν} :
    childName p q = some c ↔ q = p ++ [c] := by
  unfold childName
  constructor
  · intro h
    split_ifs at h with parent
    obtain ⟨rest, rfl⟩ := List.getLast?_eq_some_iff.mp h
    rw [← parent, List.dropLast_concat]
  · rintro rfl
    simp

theorem mem_children {t : FileTree ν α} {p : List ν} {c : ν} :
    c ∈ t.children p ↔ t.node (p ++ [c]) ≠ none := by
  rw [children, List.mem_filterMap, node, Ne, Dict.get?_eq_none_iff, not_not]
  constructor
  · rintro ⟨q, member, name⟩
    exact childName_eq_some_iff.mp name ▸ member
  · exact fun member => ⟨_, member, childName_eq_some_iff.mpr rfl⟩

theorem nodup_children (t : FileTree ν α) (p : List ν) : (t.children p).Nodup := by
  refine List.Nodup.filterMap (fun q q' c here there => ?_) t.nodes.keys_nodup
  rw [childName_eq_some_iff.mp here, childName_eq_some_iff.mp there]

/-! ### Changes -/

def bare : FileTree ν α where
  nodes := Dict.empty.set [] .dir
  rooted := by rw [Dict.get?_set, if_pos rfl]
  closed p c there := absurd (by rw [Dict.get?_set, if_neg (by simp), Dict.get?_empty]) there

/-- A node at a place whose parent is a directory. A directory stays one. -/
def put (t : FileTree ν α) (p : List ν) (c : ν) (x : Node α) (parent : t.node p = some .dir)
    (stays : x = .dir ∨ t.node (p ++ [c]) ≠ some .dir) : FileTree ν α where
  nodes := t.nodes.set (p ++ [c]) x
  rooted := by rw [Dict.get?_set, if_neg (by simp), t.rooted]
  closed q d := by
    rw [Dict.get?_set, Dict.get?_set]
    have apart : p ≠ p ++ [c] := by simp
    split_ifs with same above above
    · obtain rfl : q = p := (List.append_inj' same rfl).1
      exact absurd above apart
    · obtain rfl : q = p := (List.append_inj' same rfl).1
      exact fun _ => parent
    · subst above
      intro there
      rcases stays with rfl | other
      · rfl
      · exact absurd (t.closed _ d there) other
    · exact t.closed q d

/-- `mkdir`; a directory that is there is fine. -/
def mkdir (t : FileTree ν α) (p : List ν) (c : ν) : Option (FileTree ν α) :=
  match t.node (p ++ [c]) with
  | some .dir => some t
  | some (.file _) => none
  | none =>
      if parent : t.isDir p = true then some (t.put p c .dir (isDir_iff.mp parent) (.inl rfl))
      else none

def write (t : FileTree ν α) (p : List ν) (c : ν) (a : α) : Option (FileTree ν α) :=
  if h : t.isDir p = true ∧ t.isDir (p ++ [c]) ≠ true then
    some (t.put p c (.file a) (isDir_iff.mp h.1) (.inr fun there => h.2 (isDir_iff.mpr there)))
  else none

/-- The tree without what is at the place and below it. -/
def rmtree (t : FileTree ν α) (p : List ν) (c : ν) : FileTree ν α where
  nodes := t.nodes.filterKeys fun q => ¬ (p ++ [c]) <+: q
  rooted := by
    rw [Dict.get?_filterKeys, if_pos (by simp), t.rooted]
  closed q d := by
    rw [Dict.get?_filterKeys, Dict.get?_filterKeys]
    split_ifs with outside above above
    · exact t.closed q d
    · have below : (p ++ [c]) <+: q := by simpa using above
      exact absurd (below.trans (List.prefix_append q [d])) (by simpa using outside)
    · exact fun there => absurd rfl there
    · exact fun there => absurd rfl there

def remove (t : FileTree ν α) (p : List ν) (c : ν) : Option (FileTree ν α) :=
  if (t.node (p ++ [c])).isSome ∧ t.children (p ++ [c]) = [] then some (t.rmtree p c) else none

private theorem node_put (t : FileTree ν α) (p : List ν) (c : ν) (x : Node α)
    (parent : t.node p = some .dir) (stays : x = .dir ∨ t.node (p ++ [c]) ≠ some .dir)
    (q : List ν) :
    (t.put p c x parent stays).node q = if q = p ++ [c] then some x else t.node q :=
  Dict.get?_set ..

theorem node_rmtree (t : FileTree ν α) (p : List ν) (c : ν) (q : List ν) :
    (t.rmtree p c).node q = if (p ++ [c]) <+: q then none else t.node q := by
  rw [node, rmtree, Dict.get?_filterKeys]
  by_cases below : (p ++ [c]) <+: q <;> simp [below, node]

theorem mkdir_eq_some {t t' : FileTree ν α} {p : List ν} {c : ν} (h : t.mkdir p c = some t') :
    t.read (p ++ [c]) = none ∧
      ∀ q, t'.node q = if q = p ++ [c] then some .dir else t.node q := by
  unfold mkdir at h
  split at h
  · rename_i there
    obtain rfl := Option.some.inj h
    refine ⟨by rw [read, there], fun q => ?_⟩
    split_ifs with same
    · rw [same, there]
    · rfl
  · cases h
  · rename_i absent
    split_ifs at h
    obtain rfl := Option.some.inj h
    exact ⟨by rw [read, absent], fun q => node_put ..⟩

theorem write_eq_some {t t' : FileTree ν α} {p : List ν} {c : ν} {a : α}
    (h : t.write p c a = some t') :
    t.node (p ++ [c]) ≠ some .dir ∧
      ∀ q, t'.node q = if q = p ++ [c] then some (.file a) else t.node q := by
  unfold write at h
  split_ifs at h with fits
  obtain rfl := Option.some.inj h
  exact ⟨fun there => fits.2 (isDir_iff.mpr there), fun q => node_put ..⟩

theorem remove_eq_some {t t' : FileTree ν α} {p : List ν} {c : ν} (h : t.remove p c = some t') :
    ∀ q, t'.node q = if q = p ++ [c] then none else t.node q := by
  unfold remove at h
  split_ifs at h with bare
  obtain rfl := Option.some.inj h
  intro q
  rw [node_rmtree]
  by_cases below : (p ++ [c]) <+: q
  · rw [if_pos below]
    obtain ⟨rest, rfl⟩ := below
    cases rest with
    | nil => simp
    | cons d rest =>
      rw [if_neg (by simp)]
      have absent : t.node (p ++ [c] ++ [d]) = none := by
        by_contra there
        have member := mem_children.mpr there
        rw [bare.2] at member
        cases member
      cases rest with
      | nil => exact absent.symm
      | cons d' rest =>
        have deeper : p ++ [c] ++ d :: d' :: rest = p ++ [c] ++ [d] ++ d' :: rest := by simp
        rw [deeper]
        exact (node_append_eq_none (by rw [absent]; simp) d' rest).symm
  · rw [if_neg below, if_neg]
    rintro rfl
    exact below (List.prefix_refl _)

end FileTree

end XttsServer.Foundations
