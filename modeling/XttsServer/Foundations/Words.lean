import Mathlib.Data.List.Basic

/-!
Words of 32 bits in bytes, the least significant first: what is written is read back, and
nothing else is read as it.
-/

set_option autoImplicit false
set_option relaxedAutoImplicit false

namespace XttsServer.Foundations.Words

def encodeWord (x : UInt32) : List UInt8 :=
  [x.toUInt8, (x >>> 8).toUInt8, (x >>> 16).toUInt8, (x >>> 24).toUInt8]

def encode (xs : List UInt32) : List UInt8 := xs.flatMap encodeWord

def wordOf (a b c d : UInt8) : UInt32 :=
  UInt32.ofNat (a.toNat + 256 * b.toNat + 65536 * c.toNat + 16777216 * d.toNat)

/-- The words that the bytes make up, if these are a whole number of words. -/
def decode : List UInt8 → Option (List UInt32)
  | [] => some []
  | a :: b :: c :: d :: rest => (decode rest).map (wordOf a b c d :: ·)
  | _ => none

private theorem wordOf_encode (x : UInt32) :
    wordOf x.toUInt8 (x >>> 8).toUInt8 (x >>> 16).toUInt8 (x >>> 24).toUInt8 = x := by
  apply UInt32.toNat_inj.mp
  have small := x.toNat_lt
  simp only [wordOf, UInt32.toNat_ofNat', UInt32.toNat_toUInt8, UInt32.toNat_shiftRight,
    Nat.shiftRight_eq_div_pow, UInt32.reduceToNat, Nat.reduceMod, Nat.reducePow] at small ⊢
  omega

private theorem encodeWord_of (a b c d : UInt8) : encodeWord (wordOf a b c d) = [a, b, c, d] := by
  have ha := a.toNat_lt
  have hb := b.toNat_lt
  have hc := c.toNat_lt
  have hd := d.toNat_lt
  simp only [encodeWord, List.cons.injEq, and_true, ← UInt8.toNat_inj]
  simp only [wordOf, UInt32.toNat_ofNat', UInt32.toNat_toUInt8, UInt32.toNat_shiftRight,
    Nat.shiftRight_eq_div_pow, UInt32.reduceToNat, Nat.reduceMod, Nat.reducePow] at ha hb hc hd ⊢
  omega

theorem encode_append (xs ys : List UInt32) : encode (xs ++ ys) = encode xs ++ encode ys :=
  List.flatMap_append

theorem decode_encode (xs : List UInt32) : decode (encode xs) = some xs := by
  induction xs with
  | nil => rfl
  | cons x xs ih =>
    change decode (_ :: _ :: _ :: _ :: encode xs) = _
    rw [decode, ih, Option.map_some, wordOf_encode]

/-- Only what has been written is read. -/
theorem decode_eq_some_iff {bytes : List UInt8} {xs : List UInt32} :
    decode bytes = some xs ↔ bytes = encode xs := by
  refine ⟨fun read => ?_, fun written => written ▸ decode_encode xs⟩
  induction bytes using decode.induct generalizing xs with
  | case1 =>
    obtain rfl : [] = xs := by simpa [decode] using read
    rfl
  | case2 a b c d rest ih =>
    rw [decode] at read
    obtain ⟨ys, inner, rfl⟩ := Option.map_eq_some_iff.mp read
    rw [encode, List.flatMap_cons, encodeWord_of, ← encode, ← ih inner]
    rfl
  | case3 bytes some_left few =>
    unfold decode at read
    split at read
    · exact absurd rfl some_left
    · exact absurd rfl (few _ _ _ _ _)
    · cases read

end XttsServer.Foundations.Words
