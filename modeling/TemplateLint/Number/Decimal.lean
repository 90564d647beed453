import TemplateLint.Number.Binary64

/-!
Decimal numbers as written, and the value they are taken for. A power of ten is multiplied or
divided in after the digits have been rounded, so the result may differ from the nearest number in
its last bit.
-/

namespace TemplateLint.Number

/-- The number `± significand * 10 ^ exponent`. -/
structure Decimal where
  isNegative : Bool
  significand : Nat
  exponent : Int
deriving Repr, DecidableEq

/-- Powers of ten up to this one are finite. -/
def maxPowerOfTen : Nat := 308

/-- Divides by `10 ^ e`, in steps when the power itself is too large. -/
def divideByTens (x : Binary64) (e : Nat) : Binary64 :=
  if e ≤ maxPowerOfTen then x.div (.powerOfTen e)
  else if x.mantissa = 0 then x
  else divideByTens (x.div (.powerOfTen maxPowerOfTen)) (e - maxPowerOfTen)
termination_by e
decreasing_by simp only [maxPowerOfTen] at *; omega

/-- Multiplies by `10 ^ e`; nothing when the result is too large. -/
def multiplyByTens? (x : Binary64) (e : Nat) : Option Binary64 :=
  if e ≤ maxPowerOfTen then
    let y := x.mul (.powerOfTen e)
    if y.isInfinite then none else some y
  else if x.mantissa = 0 then some x
  else none

namespace Decimal

/-- The magnitude; nothing when it is too large for a finite number. -/
def magnitude? (d : Decimal) : Option Binary64 :=
  let x := Binary64.ofNat d.significand
  if 0 ≤ d.exponent then multiplyByTens? x d.exponent.toNat
  else some (divideByTens x (-d.exponent).toNat)

def isFinite (d : Decimal) : Bool := d.magnitude?.isSome

end Decimal

end TemplateLint.Number
