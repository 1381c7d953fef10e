import Mathlib.Data.List.DropRight
import XttsServer.Model.State

/-!
How `Settings` arrives at `workers_per_gpu_list`: the parser of WORKERS_PER_GPU,
and its check against NUM_GPUS.
-/

set_option autoImplicit false
set_option relaxedAutoImplicit false

namespace XttsServer.Model

/-! ### Python strings -/

/-- What the character database of the interpreter says: `isspace`, `isdigit`, and the value of
a decimal digit. Its version depends on the one of Python. -/
structure CharacterDatabase where
  isSpace : Char → Bool
  isDigit : Char → Bool
  decimal : Char → Option Nat

namespace CharacterDatabase

variable (db : CharacterDatabase)

def strip (text : List Char) : List Char := (text.dropWhile db.isSpace).rdropWhile db.isSpace

def isdigit (text : List Char) : Bool := !text.isEmpty && text.all db.isDigit

/-- `sys.get_int_max_str_digits()`. -/
def intMaxStrDigits : Nat := 4300

/-- `int(text)` of a text for which `isdigit` holds. Not every digit is a decimal one; those
before the first that is not are counted against the limit. -/
def int (text : List Char) : Except String Nat :=
  let scanned := text.takeWhile fun c => (db.decimal c).isSome
  if intMaxStrDigits < scanned.length then
    .error (s!"Exceeds the limit ({intMaxStrDigits} digits) for integer string conversion: " ++
      s!"value has {scanned.length} digits; use sys.set_int_max_str_digits() to increase the limit")
  else
    match text.mapM db.decimal with
    | some digits => .ok (digits.foldl (fun n digit => 10 * n + digit) 0)
    | none => .error s!"invalid literal for int() with base 10: '{String.ofList text}'"

end CharacterDatabase

def workerParts (db : CharacterDatabase) (v : String) : List (List Char) :=
  (v.toList.splitOn ',').map db.strip

/-! ### The validators of `Settings` -/

/-- The check that `_validate_workers_str` makes on each part. -/
def validatePart (db : CharacterDatabase) (p : List Char) : Except String Unit := do
  let failure : Except String Unit :=
    .error s!"WORKERS_PER_GPU must be positive integers, got: '{String.ofList p}'"
  if db.isdigit p then
    let n ← db.int p
    if n < 1 then failure else .ok ()
  else failure

def validateWorkersStr (db : CharacterDatabase) (v : String) : Except String String := do
  (workerParts db v).forM (validatePart db)
  return v

/-- What `torch.cuda` tells of the machine. -/
structure Torch where
  isAvailable : Bool
  deviceCount : Nat

/-- The NUM_GPUS that a server goes on with. -/
def detectGpus (torch : Torch) (numGpus : Option Int) : Int :=
  match numGpus with
  | some n => n
  | none => if torch.isAvailable then torch.deviceCount else 0

/-- `_parse_and_validate_worker_list`, with the `workers_per_gpu_list` that it sets. -/
def parseAndValidateWorkerList (db : CharacterDatabase) (numGpus : Int) (workersPerGpu : String) :
    Except String (List Nat) := do
  let parts ← (workerParts db workersPerGpu).mapM db.int
  if parts.length = 1 then
    -- `parts * count`
    return (List.replicate (max numGpus 1).toNat parts).flatten
  else if (parts.length : Int) ≠ numGpus then
    throw (s!"WORKERS_PER_GPU has {parts.length} entries but NUM_GPUS={numGpus}. " ++
      "They must match.")
  else return parts

/-- The fields that the validators read, as the environment gives them, and all others. -/
structure Environment where
  numGpus : Option Int := none
  workersPerGpu : String := "1"
  others : Settings := {}

/-- `Settings()`, with the NUM_GPUS it has filled in. -/
def Environment.load (env : Environment) (db : CharacterDatabase) (torch : Torch) :
    Except String (Int × Settings) := do
  let workersPerGpu ← validateWorkersStr db env.workersPerGpu
  let numGpus := detectGpus torch env.numGpus
  let workersPerGpuList ← parseAndValidateWorkerList db numGpus workersPerGpu
  return (numGpus, { env.others with workersPerGpuList })

/-! ### What the validators make sure of -/

variable {db : CharacterDatabase} {torch : Torch} {env : Environment} {n : Int}
  {settings : Settings}

private theorem bind_ok {α β : Type} {x : Except String α} {f : α → Except String β} {b : β}
    (h : (x >>= f) = .ok b) : ∃ a, x = .ok a ∧ f a = .ok b := by
  cases x with
  | error e => cases h
  | ok a => exact ⟨a, rfl, h⟩

private theorem forM_ok {α : Type} {l : List α} {f : α → Except String Unit}
    (h : l.forM f = .ok ()) : ∀ a ∈ l, f a = .ok () := by
  induction l with
  | nil => simp
  | cons a l ih =>
    obtain ⟨u, first, rest⟩ := bind_ok h
    intro b member
    rcases List.mem_cons.mp member with rfl | later
    · exact first
    · exact ih rest b later

private theorem mapM_ok {α β : Type} {l : List α} {f : α → Except String β} {ys : List β}
    (h : l.mapM f = .ok ys) : ys.length = l.length ∧ ∀ y ∈ ys, ∃ a ∈ l, f a = .ok y := by
  induction l generalizing ys with
  | nil =>
    cases h
    simp
  | cons a l ih =>
    rw [List.mapM_cons] at h
    obtain ⟨y, first, more⟩ := bind_ok h
    obtain ⟨zs, rest, same⟩ := bind_ok more
    cases same
    obtain ⟨length, from_l⟩ := ih rest
    refine ⟨by rw [List.length_cons, List.length_cons, length], fun z member => ?_⟩
    rcases List.mem_cons.mp member with rfl | later
    · exact ⟨a, List.mem_cons_self, first⟩
    · obtain ⟨b, in_l, value⟩ := from_l z later
      exact ⟨b, List.mem_cons_of_mem _ in_l, value⟩

private theorem validatePart_ok {p : List Char} (h : validatePart db p = .ok ()) {m : Nat}
    (value : db.int p = .ok m) : 1 ≤ m := by
  unfold validatePart at h
  by_cases digits : db.isdigit p = true
  · simp only [if_pos digits] at h
    obtain ⟨m', same, positive⟩ := bind_ok h
    obtain rfl : m = m' := Except.ok.inj (value.symm.trans same)
    by_contra small
    rw [if_pos (Nat.lt_of_not_le small)] at positive
    cases positive
  · simp [if_neg digits] at h

/-- A slot for each GPU, or a single one without any, and a worker in each slot. -/
theorem Environment.load_ok (h : env.load db torch = .ok (n, settings)) :
    n = detectGpus torch env.numGpus ∧ (settings.workersPerGpuList.length : Int) = max n 1 ∧
      ∀ m ∈ settings.workersPerGpuList, 1 ≤ m := by
  obtain ⟨v, checked, h⟩ := bind_ok h
  obtain ⟨u, each, same⟩ := bind_ok checked
  cases same
  obtain ⟨counts, parsed, same⟩ := bind_ok h
  cases same
  obtain ⟨parts, values, rest⟩ := bind_ok parsed
  obtain ⟨length, from_parts⟩ := mapM_ok values
  have positive : ∀ m ∈ parts, 1 ≤ m := by
    intro m member
    obtain ⟨p, part, value⟩ := from_parts m member
    exact validatePart_ok (forM_ok each p part) value
  have some_part : parts.length ≠ 0 := by
    rw [length, workerParts, List.length_map]
    exact mt List.length_eq_zero_iff.mp (List.splitOnP_ne_nil _ _)
  refine ⟨rfl, ?_⟩
  generalize detectGpus torch env.numGpus = gpus at rest ⊢
  split_ifs at rest with single mismatch
  · cases rest
    constructor
    · simp [single]
    · intro m member
      obtain ⟨l, copy, here⟩ := List.mem_flatten.mp member
      rw [List.eq_of_mem_replicate copy] at here
      exact positive m here
  · obtain rfl : parts = counts := Except.ok.inj rest
    refine ⟨?_, positive⟩
    change (parts.length : Int) = max gpus 1
    omega

/-- The configuration of a server whose settings were accepted. -/
def Environment.config (h : env.load db torch = .ok (n, settings)) (cudaOk : Bool) : Config where
  settings
  cudaOk
  workers_valid := by
    obtain ⟨-, length, positive⟩ := Environment.load_ok h
    refine ⟨fun none => ?_, positive⟩
    rw [none, List.length_nil] at length
    omega

end XttsServer.Model
