import Mathlib.Data.Rat.Floor
import Mathlib.Tactic.Common

/-!
# Decimal digits of binary64 floats

The exact value of a float and the shortest decimal that reads as it, on which the texts of
numbers rest in Python as in JavaScript.
-/

namespace Binary64

/-- The exact value of a finite float. -/
def exact (x : Float) : ℚ :=
  let bits := x.toBits.toNat
  let exponent : Int := bits / 2 ^ 52 % 2 ^ 11
  let fraction : Int := bits % 2 ^ 52
  let magnitude : ℚ :=
    if exponent = 0 then fraction / 2 ^ 1074
    else if exponent < 1075 then (2 ^ 52 + fraction) / 2 ^ (1075 - exponent).toNat
    else (2 ^ 52 + fraction) * 2 ^ (exponent - 1075).toNat
  if bits < 2 ^ 63 then magnitude else -magnitude

/-- The nearest integer, and of two the even one. -/
def roundHalfEven (q : ℚ) : Int :=
  let r := q - ⌊q⌋
  if r < 1 / 2 ∨ (r = 1 / 2 ∧ ⌊q⌋ % 2 = 0) then ⌊q⌋ else ⌊q⌋ + 1

/-- The float that the decimal `s * 10 ^ e` reads as. -/
def ofDecimal (s : Nat) (e : Int) : Float :=
  Float.ofScientific s (decide (e < 0)) e.natAbs

/-- Multiplies or divides by 10 until `1 / 10 ≤ q < 1`, and counts. -/
def scaleDown : Nat → ℚ → Int → ℚ × Int
  | 0, q, n => (q, n)
  | fuel + 1, q, n => if 1 ≤ q then scaleDown fuel (q / 10) (n + 1) else (q, n)

def scaleUp : Nat → ℚ → Int → ℚ × Int
  | 0, q, n => (q, n)
  | fuel + 1, q, n => if q < 1 / 10 then scaleUp fuel (q * 10) (n - 1) else (q, n)

/-- A decimal of `k` digits that reads as `x`, for `x = q * 10 ^ n`; the nearest one first. -/
def digitsOfLength (x : Float) (q : ℚ) (n : Int) (k : Nat) : Option (Nat × Int) :=
  let t := q * 10 ^ k
  let nearest := (roundHalfEven t).toNat
  let other := if (nearest : ℚ) ≤ t then nearest + 1 else nearest - 1
  [nearest, other].findSome? fun s =>
    if ofDecimal s (n - k) == x then some (s, n - k) else none

def dropZeros : Nat → Nat → Int → Nat × Int
  | 0, s, e => (s, e)
  | fuel + 1, s, e => if s % 10 = 0 then dropZeros fuel (s / 10) (e + 1) else (s, e)

/-- The shortest decimal `s * 10 ^ e` that reads as the positive finite `x`. -/
def shortest (x : Float) : Nat × Int :=
  let (q, n) := scaleDown 310 (exact x) 0
  let (q, n) := scaleUp 330 q n
  let (s, e) := ((List.range 18).drop 1).findSome? (digitsOfLength x q n) |>.getD (0, 0)
  dropZeros 20 s e

end Binary64
