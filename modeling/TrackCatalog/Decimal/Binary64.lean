/-!
# Binary fractions of 53 bits

A finite number of the 64-bit binary format is `mantissa * 2 ^ exponent` with a mantissa below
`2 ^ 53` and an exponent of at least -1074. Numbers are kept in this form, so that reading and
writing them is exact arithmetic on whole numbers.

* `Binary64.ofDecimal?`: the number nearest to a decimal, ties going to the even mantissa.
-/

namespace TrackCatalog

/-- A number of the 64-bit binary format. -/
inductive Binary64 where
  | finite (negative : Bool) (mantissa : Nat) (exponent : Int)
  | infinite (negative : Bool)
  | nan
  deriving DecidableEq, Repr

namespace Binary64

/-- The whole number nearest to `num / den`, ties going to the even one. -/
def roundDiv (num den : Nat) : Nat :=
  let q := num / den
  let r := num % den
  if 2 * r < den then q else if den < 2 * r then q + 1 else q + q % 2

/-- The greatest `s` with `2 ^ s * den ≤ num`, for positive `num` and `den`. -/
def log2Ratio (num den : Nat) : Int :=
  let s : Int := (num.log2 : Int) - den.log2
  if num * Nat.pow 2 (-s).toNat < den * Nat.pow 2 s.toNat then s - 1 else s

/-- The mantissa and exponent nearest to a positive ratio; none when it is too great. -/
def roundRatio? (num den : Nat) : Option (Nat × Int) :=
  let exponent := max (log2Ratio num den - 52) (-1074)
  let mantissa :=
    roundDiv (num * Nat.pow 2 (-exponent).toNat) (den * Nat.pow 2 exponent.toNat)
  let (mantissa, exponent) :=
    if mantissa = Nat.pow 2 53 then (Nat.pow 2 52, exponent + 1) else (mantissa, exponent)
  if 971 < exponent then none else some (mantissa, exponent)

/-- The mantissa and exponent nearest to `digits * 10 ^ power`; none when it is too great. -/
def roundDecimal? (digits : Nat) (power : Int) : Option (Nat × Int) :=
  -- the number of decimal digits is at most this
  let size : Int := digits.log2 + 1
  if digits = 0 ∨ power + size < -400 then some (0, -1074)
  else if 400 < power then none
  else roundRatio? (digits * Nat.pow 10 power.toNat) (Nat.pow 10 (-power).toNat)

/-- The number nearest to `± digits * 10 ^ power`; none when it is too great. -/
def ofDecimal? (negative : Bool) (digits : Nat) (power : Int) : Option Binary64 :=
  (roundDecimal? digits power).map fun (mantissa, exponent) => .finite negative mantissa exponent

example : ofDecimal? false 15 (-1) = some (.finite false (3 * 2 ^ 51) (-52)) := by decide

end Binary64

end TrackCatalog
