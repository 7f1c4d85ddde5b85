/-
This file writes shares of a total as percentages.
-/

namespace ShaderAnalysis

/-- The quotient rounded to the nearest number, halves to the even one. -/
def roundedQuotient (numerator denominator : Nat) : Nat :=
  let quotient := numerator / denominator
  let doubled := 2 * (numerator % denominator)
  if doubled < denominator then quotient
  else if denominator < doubled then quotient + 1
  else quotient + quotient % 2

namespace Share

/-- A share is computed in double precision. -/
def percent (count total : Nat) : Float := count.toFloat / total.toFloat * 100.0

/-- The hundredths of a finite number that is not negative, rounded from its exact binary value. -/
def hundredths (value : Float) : Nat :=
  let bits := value.toBits.toNat
  let exponent := (bits >>> 52) % (1 <<< 11)
  let fraction := bits % (1 <<< 52)
  let significand := if exponent = 0 then fraction else (1 <<< 52) + fraction
  let scale := max exponent 1
  roundedQuotient ((100 * significand) <<< (scale - 1075)) (1 <<< (1075 - scale))

/-- A percentage has two places. -/
def render (count total : Nat) : String :=
  let value := hundredths (percent count total)
  let places := value % 100
  toString (value / 100) ++ "." ++ toString (places / 10) ++ toString (places % 10)

end Share

end ShaderAnalysis
