import TrackCatalog.Toml.Value

/-!
# Scalars in TOML

Numbers, dates and truth values are written without quotes. A token is read as a whole: it is one
of these or it is refused. Some spellings are taken for numbers though they name none.

* `Scalar.ofToken?`: the value of a token.
-/

namespace TrackCatalog.Toml.Scalar

/-- The value of a digit up to `f`. -/
def digitValue (c : Char) : Nat :=
  if c.isDigit then c.toNat - 48 else if c.isLower then c.toNat - 87 else c.toNat - 55

/-- The value of digits in a base. -/
def valueIn (base : Nat) (digits : List Char) : Nat :=
  digits.foldl (fun n c => base * n + digitValue c) 0

/-- A sign, if there is one, and what follows it; true for a minus. -/
def splitSign : List Char → Option Bool × List Char
  | '+' :: cs => (some false, cs)
  | '-' :: cs => (some true, cs)
  | cs => (none, cs)

/-- The whole number that decimal digits and a sign before them stand for. -/
def signed (sign : Option Bool) (digits : List Char) : Int :=
  let n : Int := (valueIn 10 digits : Nat)
  if sign = some true then -n else n

/-- The character is an octal digit. -/
def isOctal (c : Char) : Bool := '0' ≤ c && c ≤ '7'

/-- The character is a binary digit. -/
def isBinary (c : Char) : Bool := c = '0' || c = '1'

/-- The character is a hexadecimal digit. -/
def isHex (c : Char) : Bool := c.isDigit || ('a' ≤ c && c ≤ 'f') || ('A' ≤ c && c ≤ 'F')

/-- The characters of a number without the underscores. -/
def withoutUnderscores (cs : List Char) : List Char := cs.filter (· ≠ '_')

/-- Each underscore stands between two digits. -/
def underscoresStand (isDigit : Char → Bool) (cs : List Char) : Bool :=
  let groups := cs.splitOn '_'
  (groups.dropLast.all fun g => g.getLast?.any isDigit) &&
    groups.tail.all fun g => g.head?.any isDigit

/-- Further digits follow a zero at the front. -/
def hasLeadingZero : List Char → Bool
  | '0' :: c :: _ => c.isDigit || c = '_'
  | _ => false

/-- Reads what follows the mark of a base. The mark alone is taken, but names no number. -/
def based? (base : Nat) (isDigit : Char → Bool) (cs : List Char) : Option (Option Int) :=
  let digits := withoutUnderscores cs
  if cs.isEmpty then some none
  else if !underscoresStand isDigit cs || !digits.all isDigit then none
  else some (some (valueIn base digits : Nat))

/-- Reads a whole number in base ten. Behind an underscore any characters but spaces are taken, but
only digits name a number. -/
def decimal? (cs : List Char) : Option (Option Int) :=
  let (sign, body) := splitSign cs
  let rest := body.dropWhile Char.isDigit
  let digits := withoutUnderscores body
  if body.isEmpty || !(rest.isEmpty || rest.head? = some '_') || hasLeadingZero body ||
      !underscoresStand isHex cs || rest.contains ' ' then none
  else some (if digits.all Char.isDigit then some (signed sign digits) else none)

/-- Reads a whole number: decimal with a sign, or in another base without one. -/
def integer? : List Char → Option (Option Int)
  | '0' :: 'x' :: cs => based? 16 isHex cs
  | '0' :: 'o' :: cs => based? 8 isOctal cs
  | '0' :: 'b' :: cs => based? 2 isBinary cs
  | cs => decimal? cs

/-- The digits, if there are any and nothing else. -/
def digits? (cs : List Char) : Option (List Char) :=
  if cs.isEmpty || !cs.all Char.isDigit then none else some cs

/-- The power of ten after an `e`. -/
def exponent? (cs : List Char) : Option Int :=
  let (sign, cs) := splitSign cs
  (digits? cs).map (signed sign)

/-- Reads a number with a fraction or a power of ten; it has no value when it is too great. -/
def float? (cs : List Char) : Option (Option Binary64) :=
  let (sign, body) := splitSign cs
  let negative := sign = some true
  if body = ['i', 'n', 'f'] then some (some (.infinite negative))
  else if body = ['n', 'a', 'n'] then some (some .nan)
  else if hasLeadingZero body || !underscoresStand Char.isDigit cs then none
  else do
    let (mantissa, power) := (withoutUnderscores body).span fun c => c ≠ 'e' && c ≠ 'E'
    let (whole, fraction) := mantissa.span fun c => c ≠ '.'
    if power.isEmpty && fraction.isEmpty then none
    let whole ← digits? whole
    let fraction ← if fraction.isEmpty then some [] else digits? fraction.tail
    let power ← if power.isEmpty then some 0 else exponent? power.tail
    some (Binary64.ofDecimal? negative (valueIn 10 (whole ++ fraction)) (power - fraction.length))

/-- The token has a mark of a fraction or of a power of ten, and no mark of a base. -/
def isFractional : List Char → Bool
  | '0' :: c :: cs => !(c = 'x' || c = 'o' || c = 'b') && hasMark (c :: cs)
  | cs => hasMark cs
where
  /-- A point or an `e` is among the characters. -/
  hasMark (cs : List Char) : Bool := cs.any fun c => c = '.' || c = 'e' || c = 'E'

/-- A number of exactly `n` digits and what follows it. -/
def fixed? (n : Nat) (cs : List Char) : Option (Nat × List Char) :=
  let ds := cs.take n
  if ds.length = n ∧ ds.all Char.isDigit then some (valueIn 10 ds, cs.drop n) else none

/-- What follows a given character. -/
def after? (c : Char) : List Char → Option (List Char)
  | d :: cs => if c = d then some cs else none
  | [] => none

/-- The number of days in a month of the Gregorian calendar. -/
def daysInMonth (year month : Nat) : Nat :=
  if month = 2 then
    if year % 4 = 0 ∧ (year % 100 ≠ 0 ∨ year % 400 = 0) then 29 else 28
  else if month = 4 ∨ month = 6 ∨ month = 9 ∨ month = 11 then 30
  else 31

/-- Reads a date and gives what follows it. -/
def date? (cs : List Char) : Option (List Char) := do
  let (year, cs) ← fixed? 4 cs
  let (month, cs) ← fixed? 2 (← after? '-' cs)
  let (day, cs) ← fixed? 2 (← after? '-' cs)
  if 1 ≤ month ∧ month ≤ 12 ∧ 1 ≤ day ∧ day ≤ daysInMonth year month then some cs else none

/-- Reads the fraction of a second, if there is one. -/
def fraction? : List Char → Option (List Char)
  | '.' :: cs => if (cs.head?.any Char.isDigit) then some (cs.dropWhile Char.isDigit) else none
  | cs => some cs

/-- Reads the seconds of a time, if there are any. -/
def seconds? : List Char → Option (List Char)
  | ':' :: cs => do
    let (second, cs) ← fixed? 2 cs
    if second ≤ 60 then fraction? cs else none
  | cs => some cs

/-- Reads a time of day and gives what follows it. -/
def time? (cs : List Char) : Option (List Char) := do
  let (hour, cs) ← fixed? 2 cs
  let (minute, cs) ← fixed? 2 (← after? ':' cs)
  if hour ≤ 23 ∧ minute ≤ 59 then seconds? cs else none

/-- Reads a distance from universal time up to the end of the token. -/
def isOffset : List Char → Bool
  | ['Z'] => true
  | ['z'] => true
  | c :: cs =>
    (c = '+' || c = '-') &&
      match fixed? 2 cs with
      | some (hour, ':' :: cs) =>
        match fixed? 2 cs with
        | some (minute, []) => hour ≤ 23 && minute ≤ 59
        | _ => false
      | _ => false
  | [] => false

/-- The token is a time of day and perhaps a distance from universal time. -/
def isTimeWithOffset (cs : List Char) : Bool :=
  match time? cs with
  | some rest => rest.isEmpty || isOffset rest
  | none => false

/-- The token is a date, a time, or both. -/
def isDatetime (cs : List Char) : Bool :=
  match date? cs with
  | some [] => true
  | some (c :: rest) => (c = 'T' || c = 't' || c = ' ') && isTimeWithOffset rest
  | none => time? cs = some []

/-- The value of a token. -/
def ofToken? (cs : List Char) : Option Value :=
  if cs = "true".toList then some (.boolean true)
  else if cs = "false".toList then some (.boolean false)
  else if isDatetime cs then some .datetime
  else if isFractional cs then (float? cs).map .float
  else (integer? cs).map .integer <|> (float? cs).map .float

end TrackCatalog.Toml.Scalar
