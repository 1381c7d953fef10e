import Mathlib.Data.List.Basic

/-!
Base64 with padding: three bytes as four digits, and a decoder that refuses what has
no canonical form.
-/

set_option autoImplicit false
set_option relaxedAutoImplicit false

namespace XttsServer.Foundations.Base64

/-! ### Digits -/

/-- The digits `A-Z`, `a-z`, `0-9`, `+` and `/`, in this order. -/
def digit (n : Nat) : Char :=
  if n < 26 then Char.ofNat (n + 65)
  else if n < 52 then Char.ofNat (n + 71)
  else if n < 62 then Char.ofNat (n - 4)
  else if n = 62 then '+'
  else '/'

def value (c : Char) : Option Nat :=
  if 65 ≤ c.toNat ∧ c.toNat ≤ 90 then some (c.toNat - 65)
  else if 97 ≤ c.toNat ∧ c.toNat ≤ 122 then some (c.toNat - 71)
  else if 48 ≤ c.toNat ∧ c.toNat ≤ 57 then some (c.toNat + 4)
  else if c = '+' then some 62
  else if c = '/' then some 63
  else none

def pad : Char := '='

private theorem value_digit {n : Nat} (small : n < 64) : value (digit n) = some n := by
  have all : ∀ i : Fin 64, value (digit i) = some i.val := by decide
  exact all ⟨n, small⟩

private theorem digit_ne_pad {n : Nat} (small : n < 64) : digit n ≠ pad := by
  have all : ∀ i : Fin 64, digit i ≠ pad := by decide
  exact all ⟨n, small⟩

/-! ### Bytes -/

def encode : List UInt8 → List Char
  | [] => []
  | [a] => [digit (a.toNat / 4), digit (a.toNat % 4 * 16), pad, pad]
  | [a, b] =>
      [digit (a.toNat / 4), digit (a.toNat % 4 * 16 + b.toNat / 16), digit (b.toNat % 16 * 4), pad]
  | a :: b :: c :: rest =>
      digit (a.toNat / 4) :: digit (a.toNat % 4 * 16 + b.toNat / 16) ::
        digit (b.toNat % 16 * 4 + c.toNat / 64) :: digit (c.toNat % 64) :: encode rest

/-- The bytes of four digits. What is left over of the last digit before the padding is zero. -/
def decode : List Char → Option (List UInt8)
  | [] => some []
  | w :: x :: y :: z :: rest => do
      let v ← value w
      let u ← value x
      let a := UInt8.ofNat (v * 4 + u / 16)
      if z = pad then
        if rest ≠ [] then none
        else if y = pad then
          if u % 16 = 0 then some [a] else none
        else
          let t ← value y
          if t % 4 = 0 then some [a, UInt8.ofNat (u % 16 * 16 + t / 4)] else none
      else
        let t ← value y
        let r ← value z
        let bytes ← decode rest
        some (a :: UInt8.ofNat (u % 16 * 16 + t / 4) :: UInt8.ofNat (t % 4 * 64 + r) :: bytes)
  | _ => none

private theorem ofNat_eq {a : UInt8} {n : Nat} (same : n = a.toNat) : UInt8.ofNat n = a := by
  rw [same, UInt8.ofNat_toNat]

theorem decode_encode (bs : List UInt8) : decode (encode bs) = some bs := by
  induction bs using encode.induct with
  | case1 => rfl
  | case2 a =>
    have := a.toNat_lt
    rw [encode, decode, value_digit (by omega), value_digit (by omega)]
    simp only [Option.bind_eq_bind, Option.bind_some, if_true, ne_eq, not_true, if_false]
    rw [if_pos (by omega), ofNat_eq (a := a) (by omega)]
  | case3 a b =>
    have := a.toNat_lt
    have := b.toNat_lt
    rw [encode, decode, value_digit (by omega), value_digit (by omega), value_digit (by omega)]
    simp only [Option.bind_eq_bind, Option.bind_some, if_true, ne_eq, not_true, if_false]
    rw [if_neg (digit_ne_pad (by omega)), if_pos (by omega), ofNat_eq (a := a) (by omega),
      ofNat_eq (a := b) (by omega)]
  | case4 a b c rest ih =>
    have := a.toNat_lt
    have := b.toNat_lt
    have := c.toNat_lt
    rw [encode, decode, value_digit (by omega), value_digit (by omega), value_digit (by omega),
      value_digit (by omega)]
    simp only [Option.bind_eq_bind, Option.bind_some]
    rw [if_neg (digit_ne_pad (by omega)), ih, Option.bind_some, ofNat_eq (a := a) (by omega),
      ofNat_eq (a := b) (by omega), ofNat_eq (a := c) (by omega)]

end XttsServer.Foundations.Base64
