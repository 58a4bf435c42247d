import Erd.Number.Binary64

/-!
# The fewest digits that read back

A floating-point number is written with as few decimal digits as still name it and no other: of the
decimals with that many digits the nearest one. The search tries one digit, then two, and looks only at
the two neighbours of the number on the decimal grid of that size, in exact arithmetic.
-/
namespace Erd.Binary64

/-- `num / den` is at least `10 ^ e`. -/
def atLeastPow (num den : Nat) (e : Int) : Bool :=
  if 0 ≤ e then den * Nat.pow 10 e.toNat ≤ num else den ≤ num * Nat.pow 10 (-e).toNat

/-- The exponent of the first decimal digit of a positive ratio whose binary exponent is `b`. -/
def leadingExponent (num den : Nat) (b : Int) : Int :=
  let e := Int.fdiv (b * 30103) 100000
  if atLeastPow num den (e + 1) then e + 1 else if atLeastPow num den e then e else e - 1

/-- The numbers that round to a given one, in quarters of its last binary place: the ends `low` and `high`
and the number itself, and whether the ends belong to it. -/
structure Reach where
  low : Nat
  value : Nat
  high : Nat
  closed : Bool

/-- The reach of a mantissa. Below a power of two the neighbours are twice as close. -/
def reach (mantissa : Nat) (exponent : Int) : Reach where
  low := if mantissa = Nat.pow 2 52 ∧ minExponent < exponent then 4 * mantissa - 1 else 4 * mantissa - 2
  value := 4 * mantissa
  high := 4 * mantissa + 2
  closed := mantissa % 2 = 0

/-- `n * 10 ^ p` as a ratio over quarters of `2 ^ q`. -/
def decimalQuarters (n : Nat) (p q : Int) : Nat × Nat :=
  let (a, b) := if 0 ≤ p then (n * Nat.pow 10 p.toNat, 1) else (n, Nat.pow 10 (-p).toNat)
  if 0 ≤ q then (4 * a, b * Nat.pow 2 q.toNat) else (4 * a * Nat.pow 2 (-q).toNat, b)

/-- The decimal `n * 10 ^ p` rounds to the number. -/
def Reach.holds (r : Reach) (n : Nat) (p q : Int) : Bool :=
  let (a, b) := decimalQuarters n p q
  if r.closed then r.low * b ≤ a && a ≤ r.high * b else r.low * b < a && a < r.high * b

/-- The nearer of `n` and `n + 1`, both in the reach, to the number; a half goes to the even one. -/
def Reach.nearer (r : Reach) (n : Nat) (p q : Int) : Nat :=
  let (a, b) := decimalQuarters n p q
  let (a', _) := decimalQuarters (n + 1) p q
  let below := r.value * b - a
  let above := a' - r.value * b
  if below < above then n else if above < below then n + 1 else n + n % 2

/-- The greatest `n` with `n * 10 ^ p` at most the number. -/
def floorAt (mantissa : Nat) (p q : Int) : Nat :=
  let num :=
    mantissa * (if 0 ≤ q then Nat.pow 2 q.toNat else 1) * (if 0 ≤ p then 1 else Nat.pow 10 (-p).toNat)
  let den := (if 0 ≤ q then 1 else Nat.pow 2 (-q).toNat) * (if 0 ≤ p then Nat.pow 10 p.toNat else 1)
  num / den

/-- The decimal in the reach with the last digit at `10 ^ p`, if there is one. -/
def Reach.decimalAt? (r : Reach) (mantissa : Nat) (p q : Int) : Option Nat :=
  let n := floorAt mantissa p q
  match r.holds n p q, r.holds (n + 1) p q with
  | true, true => some (r.nearer n p q)
  | true, false => some n
  | false, true => some (n + 1)
  | false, false => none

/-- The first grid, from `p` on downwards in `steps` steps, that holds a decimal in the reach. -/
def Reach.firstDecimal (r : Reach) (mantissa : Nat) (q : Int) : Nat → Int → Nat × Int
  | 0, p => (floorAt mantissa p q, p)
  | steps + 1, p =>
    match r.decimalAt? mantissa p q with
    | some n => (n, p)
    | none => r.firstDecimal mantissa q steps (p - 1)

/-- The shortest decimal `n * 10 ^ p` of a positive number. Seventeen digits always suffice. -/
def shortest (mantissa : Nat) (exponent : Int) : Nat × Int :=
  let (num, den) := if 0 ≤ exponent then (mantissa * Nat.pow 2 exponent.toNat, 1)
    else (mantissa, Nat.pow 2 (-exponent).toNat)
  (reach mantissa exponent).firstDecimal mantissa exponent 17
    (leadingExponent num den (mantissa.log2 + exponent))

/-! ## Text -/

/-- Without the zeros at the end. -/
def dropEndZeros (ds : List Char) : List Char := (ds.reverse.dropWhile (· == '0')).reverse

/-- An exponent with its sign and at least two digits. -/
def exponentText (e : Int) : List Char :=
  let ds := Nat.toDigits 10 e.natAbs
  (if e < 0 then '-' else '+') :: (if ds.length < 2 then '0' :: ds else ds)

/-- Digits with the decimal point after `point` of them: in full from a ten-thousandth up to sixteen
places before the point, with an exponent beyond. -/
def placed (ds : List Char) (point : Int) : List Char :=
  if -4 < point ∧ point ≤ 16 then
    if point ≤ 0 then '0' :: '.' :: List.replicate (-point).toNat '0' ++ ds
    else if ds.length ≤ point then
      ds ++ List.replicate (point.toNat - ds.length) '0' ++ ['.', '0']
    else ds.take point.toNat ++ '.' :: ds.drop point.toNat
  else
    match ds with
    | [d] => d :: 'e' :: exponentText (point - 1)
    | d :: rest => d :: '.' :: rest ++ 'e' :: exponentText (point - 1)
    | [] => []

/-- A finite number in decimal. -/
def finiteText (negative : Bool) (mantissa : Nat) (exponent : Int) : List Char :=
  let sign := if negative then ['-'] else []
  if mantissa = 0 then sign ++ ['0', '.', '0']
  else
    let (n, p) := shortest mantissa exponent
    let ds := Nat.toDigits 10 n
    sign ++ placed (dropEndZeros ds) (ds.length + p)

end Erd.Binary64
