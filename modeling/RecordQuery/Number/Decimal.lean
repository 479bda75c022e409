import RecordQuery.Number

/-!
# Decimal numbers: reading and shortest writing

A `Decimal` is a signed whole coefficient times a power of ten.

* `Decimal.read?` reads the usual written form: a sign, digits with at most one point, an exponent;
* `Decimal.toNumber` is the nearest double;
* `Double.text` writes a double with the fewest digits that read back as the same double. Of two
  such texts with equally many digits it takes the nearer one, and the even one on a tie. The
  candidates are checked with `Decimal.toNumber` itself, and the exact expansion stands behind them,
  so what is written always reads back.
-/

namespace RecordQuery

/-- The number `coefficient * 10 ^ exponent` with a sign. -/
structure Decimal where
  negative : Bool
  coefficient : Nat
  exponent : Int
  deriving DecidableEq, Repr

/-! ## Reading -/

/-- One of the ten digits. -/
def isDigit (c : Char) : Bool :=
  decide ('0' ≤ c) && decide (c ≤ '9')

/-- The value of a digit. -/
def digitValue (c : Char) : Nat :=
  c.toNat - 48

/-- The whole number that a row of digits writes, continuing from `n`. -/
def digitsValue (n : Nat) (ds : List Char) : Nat :=
  ds.foldl (fun n c => 10 * n + digitValue c) n

/-- An optional sign and what follows it. -/
def takeSign : List Char → Bool × List Char
  | '-' :: r => (true, r)
  | '+' :: r => (false, r)
  | r => (false, r)

/-- An exponent mark with a signed row of digits, and nothing after it; no text is the exponent
zero. -/
def readExponent? : List Char → Option Int
  | [] => some 0
  | c :: r =>
    if c = 'e' ∨ c = 'E' then
      let (negative, ds) := takeSign r
      if !ds.isEmpty && ds.all isDigit then
        let n : Int := digitsValue 0 ds
        some (if negative then -n else n)
      else none
    else none

namespace Decimal

/-- A sign, digits with at most one point among or around them, and an exponent. -/
def read? (text : List Char) : Option Decimal :=
  let (negative, r) := takeSign text
  let whole := r.takeWhile isDigit
  let (fraction, r) := match r.dropWhile isDigit with
    | '.' :: r => (r.takeWhile isDigit, r.dropWhile isDigit)
    | r => ([], r)
  if whole.isEmpty && fraction.isEmpty then none
  else (readExponent? r).map fun e =>
    ⟨negative, digitsValue (digitsValue 0 whole) fraction, e - fraction.length⟩

/-- The double nearest to a decimal. Powers of ten that are out of reach of every double are not
computed. -/
def toNumber (d : Decimal) : Number :=
  if d.coefficient = 0 then .finite (.zero d.negative)
  else if 400 < d.exponent then .infinite d.negative
  else if d.exponent + (d.coefficient.log2 / 3 + 1 : Nat) < -330 then .finite (.zero d.negative)
  else if 0 ≤ d.exponent then
    .nearest d.negative (d.coefficient * 10 ^ d.exponent.toNat * unitsPerOne) 1
  else
    .nearest d.negative (d.coefficient * unitsPerOne) (10 ^ (-d.exponent).toNat)

end Decimal

/-- A sign and digits, and nothing else: a whole number that is safe as a double. -/
def readSafeInteger? (text : List Char) : Option Double :=
  let (negative, ds) := takeSign text
  if !ds.isEmpty && ds.all isDigit then
    match Decimal.toNumber ⟨negative, digitsValue 0 ds, 0⟩ with
    | .finite x => if x.isSafeInteger then some x else none
    | _ => none
  else none

/-! ## Writing -/

/-- The digits of a whole number. -/
def digits (n : Nat) : List Char :=
  Nat.toDigits 10 n

/-- The count of decimal digits of a whole number. -/
def digitCount (n : Nat) : Nat :=
  if n < 10 then 1
  else if n < 10 ^ 32 then digitCount (n / 10) + 1
  else digitCount (n / 10 ^ 32) + 32
termination_by n
decreasing_by
  · omega
  · exact Nat.div_lt_self (by omega) (by decide)

/-- A unit, counted in `10 ^ -1074`. -/
@[irreducible] def unitCoefficient : Nat := 5 ^ 1074

namespace Double

/-- A double as an exact decimal. -/
def exact (x : Double) : Decimal :=
  ⟨x.negative, x.units * unitCoefficient, -1074⟩

/-- The decimal with at most `count` digits next to the exact one that reads back as `x`, if there
is one: of the two neighbours the nearer, or the even one if both are equally near. -/
def withDigits? (x : Double) (size count : Nat) : Option Decimal :=
  let n := x.units * unitCoefficient
  let step := 10 ^ (size - count)
  let exponent : Int := ((size - count : Nat) : Int) - 1074
  let low : Decimal := ⟨x.negative, n / step, exponent⟩
  let high : Decimal := ⟨x.negative, n / step + 1, exponent⟩
  let reads (d : Decimal) : Bool := decide (d.toNumber = .finite x)
  let rest := n % step
  let lowFirst := decide (2 * rest < step) || (2 * rest == step && n / step % 2 == 0)
  if reads low && (lowFirst || !reads high) then some low
  else if reads high then some high
  else none

/-- The decimal with the fewest digits that reads back as `x`; the exact one if 17 digits did not
suffice. -/
def shortest (x : Double) : Decimal :=
  let size := digitCount (x.units * unitCoefficient)
  ((List.range' 1 17).findSome? (x.withDigits? size)).getD x.exact

end Double

/-- How numbers are laid out: the least and the greatest place of the decimal point, counted from
the first digit, for which all places are written out. -/
structure NumberLayout where
  leastPoint : Int
  greatestPoint : Int

/-- Places are written out from `0.000001` up to 21 digits before the point. -/
def numberLayout : NumberLayout := ⟨-5, 21⟩

/-- A whole exponent with its sign. -/
def signedExponent (e : Int) : List Char :=
  (if e < 0 then '-' else '+') :: digits e.natAbs

/-- The text of `0.ds * 10 ^ point`, for digits `ds` that neither start nor end in zero. -/
def layOut (layout : NumberLayout) (ds : List Char) (point : Int) : List Char :=
  if point < layout.leastPoint ∨ layout.greatestPoint < point then
    match ds with
    | [] => ['0']
    | [d] => d :: 'e' :: signedExponent (point - 1)
    | d :: ds => d :: '.' :: ds ++ 'e' :: signedExponent (point - 1)
  else if point ≤ 0 then
    '0' :: '.' :: List.replicate (-point).toNat '0' ++ ds
  else
    let n := point.toNat
    if ds.length ≤ n then ds ++ List.replicate (n - ds.length) '0'
    else ds.take n ++ '.' :: ds.drop n

/-- The digits without the zeros at their end. -/
def trimZeros (ds : List Char) : List Char :=
  (ds.reverse.dropWhile (· = '0')).reverse

namespace Double

/-- The text of a double; zero has one text. -/
def chars (x : Double) : List Char :=
  if x.units = 0 then ['0']
  else
    let d := x.shortest
    let ds := digits d.coefficient
    let body := layOut numberLayout (trimZeros ds) (ds.length + d.exponent)
    if x.negative then '-' :: body else body

/-- The text of a double: the fewest digits that read back. -/
def text (x : Double) : String :=
  .ofList x.chars

end Double

/-- The text of a number. -/
def Number.text : Number → String
  | .nan => "NaN"
  | .infinite negative => if negative then "-Infinity" else "Infinity"
  | .finite x => x.text

end RecordQuery
