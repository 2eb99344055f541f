/-
# StorageFlow.Number.Decimal — the shortest decimal that reads back.

A number is written with the fewest digits that read back as the same number; of several such decimals
the one nearest to it is taken, a tie going to the even digit.  The numbers that read back as a given one
form an interval that reaches half way to its two neighbours; the ends belong to it exactly if the number
has an even significand.  For one digit, two digits, and so on, only the two decimals next to the number
on that grid need to be tried.

The digits are written positionally for numbers from `10 ^ -6` up to, but not including, `10 ^ 21`, and
with an exponent otherwise.
-/
import StorageFlow.Number
import StorageFlow.Text

namespace StorageFlow.Number

/-- A decimal: its digits as an integer, and the power of ten they are scaled by. -/
structure Decimal where
  digits : Nat
  -- The exponent of the power of ten.
  exponent : Int
  deriving DecidableEq, Repr

/-- The greatest `k` with `10 ^ k` not above the number of a positive multiple. -/
def decimalExponent (multiple : Nat) : Int :=
  if unit ≤ multiple then digitCount (multiple / unit) - 1
  else
    -- The reciprocal has `k` digits, so it lies from `10 ^ (k - 1)` up to, but not including, `10 ^ k`.
    let k := digitCount (unit / multiple)
    if multiple * tenPow (k - 1) = unit then 1 - k else -k

/-- A quotient scaled by a power of ten, as numerator and denominator. -/
def scale (numerator denominator : Nat) (exponent : Int) : Nat × Nat :=
  if 0 ≤ exponent then (numerator * tenPow exponent.toNat, denominator)
  else (numerator, denominator * tenPow (-exponent).toNat)

/-- The ends of the interval of decimals that read back as a positive multiple, in quarters of multiples,
and whether the ends belong to it. -/
def readBack (multiple : Nat) : Nat × Nat × Bool :=
  let step := spacing multiple
  -- Below a power of two the neighbours stand half as far apart, except among the smallest numbers.
  let below := if multiple = twoPow multiple.log2 && 1 < step then step else 2 * step
  (4 * multiple - below, 4 * multiple + 2 * step, multiple / step % 2 == 0)

/-- Tells whether a decimal reads back as a positive multiple. -/
def readsBackAs (multiple : Nat) (d : Decimal) : Bool :=
  let (low, high, closed) := readBack multiple
  let (num, den) := scale (d.digits * 4 * unit) 1 d.exponent
  if closed then low * den ≤ num && num ≤ high * den else low * den < num && num < high * den

/-- Of two neighbouring decimals on one grid, the nearer to a multiple; a tie goes to even digits. -/
def nearer (multiple : Nat) (d : Decimal) : Decimal :=
  let up := { d with digits := d.digits + 1 }
  let (num, den) := scale ((2 * d.digits + 1) * unit) 1 d.exponent
  match compare (2 * multiple * den) num with
  | .lt => d
  | .gt => up
  | .eq => if d.digits % 2 = 0 then d else up

/-- The decimals with a given number of digits that read back: at most one of the two next to the
multiple, the nearer one if both do. -/
def withDigits? (multiple count : Nat) : Option Decimal :=
  let exponent := decimalExponent multiple + 1 - count
  let (num, den) := scale multiple unit (-exponent)
  let down : Decimal := ⟨num / den, exponent⟩
  let up : Decimal := ⟨num / den + 1, exponent⟩
  match readsBackAs multiple down, readsBackAs multiple up with
  | true, true => some (nearer multiple down)
  | true, false => some down
  | false, true => some up
  | false, false => none

/-- The decimal without zeros at its end. -/
def Decimal.stripZeros : Nat → Decimal → Decimal
  | 0, d => d
  | fuel + 1, d =>
    if d.digits ≠ 0 && d.digits % 10 = 0 then stripZeros fuel ⟨d.digits / 10, d.exponent + 1⟩ else d

/-- The shortest decimal that reads back as a positive multiple.  Seventeen digits always do. -/
def shortest (multiple : Nat) : Decimal :=
  let found := (List.range 17).findSome? fun n => withDigits? multiple (n + 1)
  (found.getD ⟨multiple / unit, 0⟩).stripZeros 400

/-- Zeros. -/
def zeros (count : Nat) : List Char := List.replicate count '0'

/-- Digits with the decimal point after the first `point` of them. -/
def positional (digits : List Char) (point : Int) : List Char :=
  if digits.length ≤ point then digits ++ zeros (point - digits.length).toNat
  else if 0 < point then digits.take point.toNat ++ '.' :: digits.drop point.toNat
  else '0' :: '.' :: zeros (-point).toNat ++ digits

/-- Digits with a point after the first of them, and a signed exponent. -/
def scientific (digits : List Char) (exponent : Int) : List Char :=
  let mantissa := match digits with
    | d :: e :: rest => d :: '.' :: e :: rest
    | short => short
  mantissa ++ 'e' :: (if exponent < 0 then '-' else '+') :: Nat.toDigits 10 exponent.natAbs

/-- A decimal in characters: positional for numbers from `10 ^ -6` to `10 ^ 21`, else with an exponent. -/
def Decimal.chars (d : Decimal) : List Char :=
  let digits := Nat.toDigits 10 d.digits
  -- The decimal point stands behind this many digits; it may lie outside the digits.
  let point := digits.length + d.exponent
  if -6 < point && point ≤ 21 then positional digits point else scientific digits (point - 1)

/-- The characters of a number without its sign.  Up to `2 ^ 53` the shortest digits of an integer are all
its digits. -/
def magnitudeChars (x : Number) : List Char :=
  match x.toInt?.filter fun i => i.natAbs ≤ twoPow precision with
  | some i => Nat.toDigits 10 i.natAbs
  | none => (shortest x.multiple.natAbs).chars

/-- The text of a number. -/
def text (x : Number) : Text :=
  Text.ofChars (if x.isNegative then '-' :: x.magnitudeChars else x.magnitudeChars)

end StorageFlow.Number
