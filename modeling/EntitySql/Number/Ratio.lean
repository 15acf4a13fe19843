/-
  Nearest whole number to a ratio, and the place of a ratio between the powers of ten.
-/

namespace EntitySql.Ratio

/-- The whole number nearest to `num / den`, the even one of two equally near. -/
def nearestEven (num den : Nat) : Nat :=
  let q := num / den
  let twice := 2 * (num % den)
  if twice < den then q else if den < twice then q + 1 else q + q % 2

/-- The whole number nearest to `num / den`, the greater one of two equally near. -/
def nearestUp (num den : Nat) : Nat := (2 * num + den) / (2 * den)

/-- Number of decimal digits of `n`, at least one. -/
def digitCount (n : Nat) : Nat := (Nat.toDigits 10 n).length

/-- The exponent `p` with `10^(p-1) ≤ num / den < 10^p`, for a positive ratio. -/
def decade (num den : Nat) : Int :=
  if den ≤ num then digitCount (num / den)
  else
    let below := digitCount (den / num)
    if num * Nat.pow 10 (below - 1) = den then 2 - below else 1 - below

end EntitySql.Ratio
