import TrackCatalog.Decimal.Binary64

/-!
# Shortest decimals

A binary fraction is written with the fewest digits that read back as the same number, and among
those with the ones nearest to it. Every number is written out in place, however many zeros that
takes, and shows at least one digit after the point.

* `Binary64.shortest`: the digits and the power of ten.
* `Binary64.text`: the number in words.
-/

namespace TrackCatalog.Binary64

/-- The reals that read back as `mantissa * 2 ^ exponent`: their ends in units of
`2 ^ (exponent - 2)`, and whether the ends belong to them. -/
structure Interval where
  low : Nat
  value : Nat
  high : Nat
  closed : Bool

/-- The interval of a positive number. The gap below a power of two is half as wide. -/
def interval (mantissa : Nat) (exponent : Int) : Interval where
  low := if mantissa = Nat.pow 2 52 ∧ -1074 < exponent then 4 * mantissa - 1 else 4 * mantissa - 2
  value := 4 * mantissa
  high := 4 * mantissa + 2
  closed := mantissa % 2 = 0

/-- The decimal `digits * 10 ^ power` in units of `2 ^ (exponent - 2)`, as a ratio. -/
def inUnits (digits : Nat) (power exponent : Int) : Nat × Nat :=
  let e := exponent - 2
  (digits * Nat.pow 10 power.toNat * Nat.pow 2 (-e).toNat,
    Nat.pow 10 (-power).toNat * Nat.pow 2 e.toNat)

/-- The ratio lies in the interval. -/
def Interval.contains (i : Interval) (r : Nat × Nat) : Bool :=
  if i.closed then i.low * r.2 ≤ r.1 && r.1 ≤ i.high * r.2
  else i.low * r.2 < r.1 && r.1 < i.high * r.2

/-- The greatest `k` with `10 ^ k` at most the value, starting from a guess that is not less. -/
def log10From (i : Interval) (exponent : Int) : Nat → Int → Int
  | 0, k => k
  | steps + 1, k =>
    let r := inUnits 1 k exponent
    if r.1 ≤ i.value * r.2 then k else log10From i exponent steps (k - 1)

/-- The nearer of the two neighbours of the value on the grid of multiples of `10 ^ power`, if it
reads back; a tie goes up. -/
def onGrid? (i : Interval) (power exponent : Int) : Option Nat :=
  let unit := inUnits 1 power exponent
  let below := i.value * unit.2 / unit.1
  let down := inUnits below power exponent
  let up := inUnits (below + 1) power exponent
  let downOk := i.contains down
  let upOk := i.contains up
  -- both neighbours are ratios over one denominator
  let upNearer := up.1 + down.1 ≤ 2 * i.value * unit.2
  if upOk && (!downOk || upNearer) then some (below + 1)
  else if downOk then some below
  else none

/-- Tries finer and finer grids. -/
def searchGrid (i : Interval) (exponent : Int) : Nat → Int → Nat × Int
  | 0, power => (i.value, power)
  | steps + 1, power =>
    match onGrid? i power exponent with
    | some digits => (digits, power)
    | none => searchGrid i exponent steps (power - 1)

/-- The fewest digits, and their power of ten, that read back as a positive number. -/
def shortest (mantissa : Nat) (exponent : Int) : Nat × Int :=
  let i := interval mantissa exponent
  let bits : Int := mantissa.log2 + 1 + exponent
  -- three tenths of a binary digit count are a decimal one; start above and come down
  let k := log10From i exponent 8 (bits * 30103 / 100000 + 3)
  -- a number just below a power of ten may read back from that power
  searchGrid i exponent 19 (k + 1)

/-- The digits of `digits * 10 ^ power` written out in place. -/
def positional (digits : Nat) (power : Int) : List Char :=
  let ds := Nat.toDigits 10 digits
  if 0 ≤ power then ds ++ List.replicate power.toNat '0' ++ ['.', '0']
  else
    let places := (-power).toNat
    let ds := List.replicate (places + 1 - ds.length) '0' ++ ds
    ds.take (ds.length - places) ++ '.' :: ds.drop (ds.length - places)

/-- The number in words. -/
def text : Binary64 → String
  | .nan => "NaN"
  | .infinite negative => if negative then "-inf" else "inf"
  | .finite negative mantissa exponent =>
    let sign := if negative then ['-'] else []
    if mantissa = 0 then .ofList (sign ++ ['0', '.', '0'])
    else
      let (digits, power) := shortest mantissa exponent
      .ofList (sign ++ positional digits power)

end TrackCatalog.Binary64
