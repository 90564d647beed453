/-!
Spans of time as text.
-/

namespace TemplateLint.Command

/-- A number of units with four decimals, the last one rounded. -/
def decimals (amount unit : Nat) : String :=
  let tenThousandths := (2 * 10000 * amount + unit) / (2 * unit)
  let fraction := toString (tenThousandths % 10000)
  toString (tenThousandths / 10000) ++ "." ++ "".pushn '0' (4 - fraction.length) ++ fraction

/-- A span of time in the largest unit that it reaches. -/
def elapsedText (nanoseconds : Nat) : String :=
  if 1000000000 ≤ nanoseconds then decimals nanoseconds 1000000000 ++ "s"
  else if 1000000 ≤ nanoseconds then decimals nanoseconds 1000000 ++ "ms"
  else if 1000 ≤ nanoseconds then decimals nanoseconds 1000 ++ "µs"
  else decimals nanoseconds 1 ++ "ns"

end TemplateLint.Command
