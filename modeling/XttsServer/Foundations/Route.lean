import Mathlib.Data.List.Induction

/-!
Paths as walks in a tree of named children, normalised by their text alone: what is
left of a walk is how far it leads up and along which names it then leads down.
-/

set_option autoImplicit false
set_option relaxedAutoImplicit false

namespace XttsServer.Foundations

universe u

inductive Hop (ν : Type u)
  | stay
  | up
  | down (name : ν)
  deriving DecidableEq

/-- A normalised walk: so many levels up, then down along the names. -/
structure Route (ν : Type u) where
  ups : Nat
  names : List ν
  deriving DecidableEq

namespace Route

variable {ν : Type u}

/-- One hop further. An anchored route starts at the root, which is its own parent. -/
def hop (anchored : Bool) (r : Route ν) : Hop ν → Route ν
  | .stay => r
  | .up =>
      match r.names with
      | [] => if anchored then r else ⟨r.ups + 1, []⟩
      | _ => ⟨r.ups, r.names.dropLast⟩
  | .down c => ⟨r.ups, r.names ++ [c]⟩

def follow (anchored : Bool) (r : Route ν) (hops : List (Hop ν)) : Route ν :=
  hops.foldl (hop anchored) r

def start : Route ν := ⟨0, []⟩

/-- `k` levels up. -/
def climb (anchored : Bool) (r : Route ν) (k : Nat) : Route ν :=
  ⟨if anchored then r.ups else r.ups + (k - r.names.length), r.names.take (r.names.length - k)⟩

@[simp] theorem follow_nil (anchored : Bool) (r : Route ν) : r.follow anchored [] = r := rfl

theorem follow_append (anchored : Bool) (r : Route ν) (hops more : List (Hop ν)) :
    r.follow anchored (hops ++ more) = (r.follow anchored hops).follow anchored more :=
  List.foldl_append

private theorem follow_concat (anchored : Bool) (r : Route ν) (hops : List (Hop ν)) (h : Hop ν) :
    r.follow anchored (hops ++ [h]) = (r.follow anchored hops).hop anchored h := by
  rw [follow_append]
  rfl

private theorem hop_up_of_nil {r : Route ν} (none : r.names = []) (anchored : Bool) :
    r.hop anchored .up = if anchored then r else ⟨r.ups + 1, []⟩ := by
  simp only [hop, none]

private theorem hop_up_of_ne_nil {r : Route ν} (some_name : r.names ≠ []) (anchored : Bool) :
    r.hop anchored .up = ⟨r.ups, r.names.dropLast⟩ := by
  obtain ⟨c, rest, names⟩ := List.exists_cons_of_ne_nil some_name
  simp only [hop, names]

@[simp] theorem climb_zero (anchored : Bool) (r : Route ν) : r.climb anchored 0 = r := by
  cases anchored <;> simp [climb]

private theorem climb_succ (anchored : Bool) (r : Route ν) (k : Nat) :
    r.climb anchored (k + 1) = (r.climb anchored k).hop anchored .up := by
  by_cases more : k < r.names.length
  · have left : (r.climb anchored k).names ≠ [] := by
      rw [climb, Ne, List.take_eq_nil_iff]
      rintro (short | none)
      · omega
      · simp [none] at more
    rw [hop_up_of_ne_nil left]
    have shorter : (r.names.take (r.names.length - k)).dropLast =
        r.names.take (r.names.length - (k + 1)) := by
      rw [List.dropLast_eq_take, List.take_take, List.length_take]
      congr 1
      omega
    have both : k + 1 - r.names.length = k - r.names.length := by omega
    simp only [climb, shorter, both]
  · have none : (r.climb anchored k).names = [] := by
      rw [climb, List.take_eq_nil_iff]
      omega
    rw [hop_up_of_nil none]
    have short : r.names.length - k = 0 ∧ r.names.length - (k + 1) = 0 := by omega
    cases anchored with
    | true => simp [climb, short.1, short.2]
    | false =>
      simp only [climb, short.2, Bool.false_eq_true, if_false, List.take_zero]
      congr 1
      omega

/-- A walk from a route does what the normalised walk says. -/
private theorem follow_eq (anchored : Bool) (r : Route ν) (hops : List (Hop ν)) :
    r.follow anchored hops =
      ⟨(r.climb anchored (start.follow false hops).ups).ups,
        (r.climb anchored (start.follow false hops).ups).names ++
          (start.follow false hops).names⟩ := by
  induction hops using List.reverseRecOn with
  | nil => simp [start]
  | append_singleton hops h ih =>
    rw [follow_concat, follow_concat, ih]
    generalize start.follow false hops = rel
    cases h with
    | stay => rfl
    | down c => simp [hop]
    | up =>
      by_cases none : rel.names = []
      · rw [hop_up_of_nil none, none]
        simp [climb_succ]
      · rw [hop_up_of_ne_nil none, hop_up_of_ne_nil (by simp [none]),
          List.dropLast_append_of_ne_nil none]

/-- A walk leads to a child iff it leads back in as far as it leads out, and one name further. -/
theorem follow_eq_child_iff (anchored : Bool) (r : Route ν) (hops : List (Hop ν)) (c : ν) :
    r.follow anchored hops = ⟨r.ups, r.names ++ [c]⟩ ↔
      (anchored = true ∨ (start.follow false hops).ups ≤ r.names.length) ∧
        (start.follow false hops).names =
          r.names.drop (r.names.length - (start.follow false hops).ups) ++ [c] := by
  rw [follow_eq]
  generalize start.follow false hops = rel
  have split := List.take_append_drop (r.names.length - rel.ups) r.names
  have names : r.names.take (r.names.length - rel.ups) ++ rel.names = r.names ++ [c] ↔
      rel.names = r.names.drop (r.names.length - rel.ups) ++ [c] := by
    conv_lhs => rhs; rw [← split, List.append_assoc]
    exact List.append_right_inj _
  simp only [climb, mk.injEq, names]
  refine and_congr_left fun _ => ?_
  cases anchored with
  | true => simp
  | false =>
    simp only [Bool.false_eq_true, if_false, false_or]
    omega

end Route

end XttsServer.Foundations
