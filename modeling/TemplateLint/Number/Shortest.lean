import TemplateLint.Number.Decimal

/-!
Shortest text of a binary64 number: the fewest digits that read back as the same number, and of
those the nearest to it. For each number of digits the two neighbours of the value on that decimal
grid are tried.
-/

namespace TemplateLint.Number

/-- Digits `d₁d₂…` standing for `d₁.d₂… * 10 ^ exponent`. -/
structure Digits where
  digits : List Char
  exponent : Int
deriving Repr, DecidableEq

namespace Binary64

/-- The decimal exponent of `num / den`, which is not zero. -/
def decimalExponent (num den : Nat) : Int :=
  if den ≤ num then ((Nat.toDigits 10 (num / den)).length : Int) - 1
  else
    match (List.range 400).find? fun e => decide (den ≤ num * Nat.pow 10 e) with
    | some e => -(e : Int)
    | none => 0

/-- Whether `a / b` lies in the interval of reals that round to `x`. -/
def rounds (x : Binary64) (a b : Nat) : Bool :=
  let (high, d) := scaled (2 * x.mantissa + 1) 1 (1 - x.exponent)
  let (low, e) :=
    if x.mantissa = Nat.pow 2 52 && minExponent < x.exponent then
      scaled (4 * x.mantissa - 1) 1 (2 - x.exponent)
    else scaled (2 * x.mantissa - 1) 1 (1 - x.exponent)
  if x.mantissa % 2 = 0 then a * d ≤ high * b && low * b ≤ a * e
  else a * d < high * b && low * b < a * e

/-- The best number with `count` digits that reads back as `x`. -/
def digitsOf? (x : Binary64) (exponent : Int) (count : Nat) : Option Nat :=
  let (num, den) := x.ratio
  let shift := (count : Int) - 1 - exponent
  let up := Nat.pow 10 shift.toNat
  let down := Nat.pow 10 (-shift).toNat
  let (num, den) := if 0 ≤ shift then (num * up, den) else (num, den * down)
  let readsBack (w : Nat) : Bool := if 0 ≤ shift then x.rounds w up else x.rounds (w * down) 1
  let low := num / den
  match readsBack low, readsBack (low + 1) with
  | true, true =>
    let rest := num % den
    if den < 2 * rest || (2 * rest == den && low % 2 == 1) then some (low + 1) else some low
  | true, false => some low
  | false, true => some (low + 1)
  | false, false => none

/-- Digits without the zeros at their end. -/
def stripZeros (digits : List Char) : List Char :=
  match (digits.reverse.dropWhile (· = '0')).reverse with
  | [] => ['0']
  | ds => ds

def shortest (x : Binary64) : Digits :=
  if x.mantissa = 0 then ⟨['0'], 0⟩
  else
    let (num, den) := x.ratio
    let exponent := decimalExponent num den
    match (List.range 17).findSome? fun k => (x.digitsOf? exponent (k + 1)).map (k + 1, ·) with
    | some (count, w) =>
      let digits := Nat.toDigits 10 w
      ⟨stripZeros digits, if digits.length = count then exponent else exponent + 1⟩
    | none => ⟨['0'], 0⟩

end Binary64

/-- Where positional notation begins and ends, by decimal exponent. -/
def positionalRange : Int × Int := (-5, 15)

/-- An exponent with its sign and at least two digits. -/
def exponentText (e : Int) : List Char :=
  let digits := Nat.toDigits 10 e.natAbs
  (if e < 0 then '-' else '+') :: (List.replicate (2 - digits.length) '0' ++ digits)

/-- Positional with at least one place after the point, or scientific outside the positional
range. -/
def Digits.text (d : Digits) : List Char :=
  let (low, high) := positionalRange
  if low ≤ d.exponent && d.exponent ≤ high then
    if d.exponent < 0 then
      ['0', '.'] ++ List.replicate (d.exponent.natAbs - 1) '0' ++ d.digits
    else
      let places := d.exponent.toNat + 1
      let whole := d.digits.take places ++ List.replicate (places - d.digits.length) '0'
      let fraction := d.digits.drop places
      whole ++ ['.'] ++ if fraction.isEmpty then ['0'] else fraction
  else
    let (first, rest) := d.digits.splitAt 1
    first ++ (if rest.isEmpty then [] else '.' :: rest) ++ ['e'] ++ exponentText d.exponent

/-- The text of the number that a decimal is taken for. -/
def Decimal.text (d : Decimal) : String :=
  let magnitude :=
    match d.magnitude? with
    | some x => x.shortest.text
    | none => "inf".toList
  String.ofList (if d.isNegative then '-' :: magnitude else magnitude)

end TemplateLint.Number
