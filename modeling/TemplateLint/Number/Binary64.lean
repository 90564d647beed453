/-!
Nonnegative binary64 numbers as exact pairs: a mantissa times a power of two. Arithmetic is exact
on rationals and then rounded once to the nearest number, a tie going to the even mantissa.
-/

namespace TemplateLint.Number

/-- The number `mantissa * 2 ^ exponent`. -/
structure Binary64 where
  mantissa : Nat
  exponent : Int
deriving Repr, DecidableEq

namespace Binary64

/-- The least exponent; numbers below `2 ^ 52` units of it are subnormal. -/
def minExponent : Int := -1074

def zero : Binary64 := ⟨0, minExponent⟩

/-- The quotient rounded to the nearest natural number, a tie to the even one. -/
def roundHalfEven (num den : Nat) : Nat :=
  let floor := num / den
  let rest := num % den
  if den < 2 * rest || (2 * rest == den && floor % 2 == 1) then floor + 1 else floor

/-- Numerator and denominator of `num / den / 2 ^ q`. -/
def scaled (num den : Nat) (q : Int) : Nat × Nat :=
  if 0 ≤ q then (num, den * Nat.pow 2 q.toNat) else (num * Nat.pow 2 (-q).toNat, den)

/-- The nearest number to `num / den`, as if there were no largest exponent. -/
def nearest (num den : Nat) : Binary64 :=
  if num = 0 then zero
  else
    let estimate : Int := (num.log2 : Int) - (den.log2 : Int) - 52
    let (n, d) := scaled num den estimate
    let exponent := max (if n < Nat.pow 2 52 * d then estimate - 1 else estimate) minExponent
    let (n, d) := scaled num den exponent
    let mantissa := roundHalfEven n d
    if mantissa = Nat.pow 2 53 then ⟨Nat.pow 2 52, exponent + 1⟩ else ⟨mantissa, exponent⟩

/-- Past the largest finite number. -/
def isInfinite (x : Binary64) : Bool := x.mantissa ≠ 0 && 971 < x.exponent

/-- Numerator and denominator of the exact value. -/
def ratio (x : Binary64) : Nat × Nat := scaled x.mantissa 1 (-x.exponent)

def mul (x y : Binary64) : Binary64 :=
  let (n₁, d₁) := x.ratio
  let (n₂, d₂) := y.ratio
  nearest (n₁ * n₂) (d₁ * d₂)

/-- The divisor is not zero. -/
def div (x y : Binary64) : Binary64 :=
  let (n₁, d₁) := x.ratio
  let (n₂, d₂) := y.ratio
  nearest (n₁ * d₂) (d₁ * n₂)

def ofNat (n : Nat) : Binary64 := nearest n 1

def powerOfTen (e : Nat) : Binary64 := ofNat (Nat.pow 10 e)

end Binary64

end TemplateLint.Number
