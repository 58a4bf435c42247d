/-!
# Floating-point numbers of 64 bits

A finite number is a mantissa times a power of two, kept as the pair, so that reading a decimal and
writing one back are exact arithmetic on natural numbers.

**Results.**
* `roundDiv_mul_le`, `le_roundDiv_mul`: a rounded quotient is within half a unit of the exact one.
-/
namespace Erd

/-- A number of the 64-bit format. A finite one is `mantissa * 2 ^ exponent` with a mantissa below
`2 ^ 53` and an exponent from -1074 to 971. -/
inductive Binary64 where
  | finite (negative : Bool) (mantissa : Nat) (exponent : Int)
  | infinite (negative : Bool)
  | notANumber
  deriving DecidableEq, Repr

namespace Binary64

/-- The least exponent of a finite number. -/
def minExponent : Int := -1074

/-- The greatest exponent of a finite number. -/
def maxExponent : Int := 971

/-- Zero with a sign. -/
def zero (negative : Bool) : Binary64 := .finite negative 0 minExponent

/-- Zero of either sign. -/
def isZero : Binary64 → Bool
  | .finite _ 0 _ => true
  | _ => false

/-! ## Rounding -/

/-- The quotient rounded to the nearest number, a half to the even one. -/
def roundDiv (num den : Nat) : Nat :=
  let q := num / den
  let r := num % den
  if 2 * r < den then q else if den < 2 * r then q + 1 else q + q % 2

theorem roundDiv_mul_le (num den : Nat) (h : 0 < den) :
    2 * (roundDiv num den * den) ≤ 2 * num + den := by
  have e := Nat.div_add_mod num den
  have l := Nat.mod_lt num h
  have c := Nat.mul_comm den (num / den)
  unfold roundDiv
  dsimp only
  split
  · omega
  · have s : (num / den + 1) * den = num / den * den + den := Nat.succ_mul ..
    split
    · omega
    · have b : num / den % 2 ≤ 1 := by omega
      have m : (num / den + num / den % 2) * den ≤ (num / den + 1) * den :=
        Nat.mul_le_mul_right _ (by omega)
      omega

theorem le_roundDiv_mul (num den : Nat) (h : 0 < den) :
    2 * num ≤ 2 * (roundDiv num den * den) + den := by
  have e := Nat.div_add_mod num den
  have l := Nat.mod_lt num h
  have c := Nat.mul_comm den (num / den)
  unfold roundDiv
  dsimp only
  split
  · omega
  · have s : (num / den + 1) * den = num / den * den + den := Nat.succ_mul ..
    split
    · omega
    · have m : num / den * den ≤ (num / den + num / den % 2) * den :=
        Nat.mul_le_mul_right _ (by omega)
      omega

/-- The ratio `num / den` divided by `2 ^ q`, as a ratio. -/
def scaled (num den : Nat) (q : Int) : Nat × Nat :=
  if 0 ≤ q then (num, den * Nat.pow 2 q.toNat) else (num * Nat.pow 2 (-q).toNat, den)

/-- The number nearest to a positive ratio, of two equally near ones the one with an even mantissa. -/
def ofRatio (negative : Bool) (num den : Nat) : Binary64 :=
  let k : Int := (num.log2 : Int) - den.log2
  let atLeast := scaled num den k
  let top := if atLeast.2 ≤ atLeast.1 then k else k - 1
  let q := max (top - 52) minExponent
  let ratio := scaled num den q
  let m := roundDiv ratio.1 ratio.2
  let (m, q) := if m = Nat.pow 2 53 then (Nat.pow 2 52, q + 1) else (m, q)
  if maxExponent < q then .infinite negative
  else if m = 0 then zero negative
  else .finite negative m q

/-- How many decimal digits a natural number has. -/
def digitCount (n : Nat) : Nat := (Nat.toDigits 10 n).length

/-- The number nearest to `digits * 10 ^ exponent`. Magnitudes far outside the range are settled first, so
that no power is formed for them. -/
def ofDecimal (negative : Bool) (digits : Nat) (exponent : Int) : Binary64 :=
  if digits = 0 then zero negative
  else if 310 < digitCount digits + exponent then .infinite negative
  else if digitCount digits + exponent < -400 then zero negative
  else if 0 ≤ exponent then ofRatio negative (digits * Nat.pow 10 exponent.toNat) 1
  else ofRatio negative digits (Nat.pow 10 (-exponent).toNat)

end Binary64

end Erd
