import BlockConfig.Number.Binary

set_option autoImplicit false

/-!
Decimal numerals of binary floating-point numbers: which texts are numerals, which number each one
denotes, and the fewest digits that denote a given number.
-/

namespace BlockConfig

structure Decimal where
  digits : Nat
  exponent : Int
  deriving DecidableEq

namespace Decimal

def ratio (d : Decimal) : Ratio := (Ratio.ofNat d.digits).scale 10 d.exponent

def readExponent? : Text → Option Int
  | [] => some 0
  | c :: rest => if c = 'e' ∨ c = 'E' then Text.toInt? rest else none

def read? (t : Text) : Option Decimal :=
  let whole := t.takeWhile Char.isDigit
  let (fraction, rest) :=
    match t.dropWhile Char.isDigit with
    | '.' :: after => (after.takeWhile Char.isDigit, after.dropWhile Char.isDigit)
    | after => ([], after)
  if whole.isEmpty && fraction.isEmpty then none
  else (readExponent? rest).map fun power =>
    ⟨Nat.ofDigitChars 10 (whole ++ fraction) 0, power - fraction.length⟩

/-- The position of the first digit: the number is below `10 ^ top`. -/
def top (d : Decimal) : Int := (Nat.toDigits 10 d.digits).length + d.exponent

def positional (d : Decimal) : Text :=
  let digits := Text.ofNat d.digits
  if 0 ≤ d.exponent then digits ++ List.replicate d.exponent.toNat '0'
  else
    let places := (-d.exponent).toNat
    let padded := List.replicate (places + 1 - digits.length) '0' ++ digits
    let whole := padded.length - places
    padded.take whole ++ '.' :: padded.drop whole

end Decimal

/-- What is chosen between two shortest numerals that are equally near. -/
inductive TieRule where
  | up
  | even

namespace Magnitude

variable {f : Format}

def lowerEnd (m : Magnitude f) : Ratio :=
  if m.significand = Nat.pow 2 (f.precision - 1) ∧ f.least < m.exponent then
    (Ratio.ofNat (4 * m.significand - 1)).scale 2 (m.exponent - 2)
  else (Ratio.ofNat (2 * m.significand - 1)).scale 2 (m.exponent - 1)

def upperEnd (m : Magnitude f) : Ratio :=
  (Ratio.ofNat (2 * m.significand + 1)).scale 2 (m.exponent - 1)

/-- Whether a numeral rounds to `m`. The ends do exactly when the significand is even. -/
def holds (m : Magnitude f) (d : Decimal) : Bool :=
  if m.significand % 2 = 0 then m.lowerEnd.le d.ratio && d.ratio.le m.upperEnd
  else m.lowerEnd.lt d.ratio && d.ratio.lt m.upperEnd

/-- The numeral of `count` digits for `m`, if one of the two beside it rounds to it: the nearer
one where both do. -/
def numeral? (m : Magnitude f) (tie : TieRule) (count : Nat) : Option Decimal :=
  let exponent := m.ratio.floorLog10 - (count - 1)
  let scaled := m.ratio.scale 10 (-exponent)
  let lower := scaled.floor
  let upper := lower + 1
  let below : Decimal := ⟨lower, exponent⟩
  let above : Decimal :=
    if upper = Nat.pow 10 count then ⟨1, exponent + count⟩ else ⟨upper, exponent⟩
  let twice := 2 * (scaled.num % scaled.den)
  match m.holds below, m.holds above with
  | false, false => none
  | true, false => some below
  | false, true => some above
  | true, true =>
    if twice < scaled.den then some below
    else if scaled.den < twice then some above
    else match tie with
      | .up => some above
      | .even => if lower % 2 = 0 then some below else some above

def exact (m : Magnitude f) : Decimal :=
  ⟨m.significand * Nat.pow 2 m.exponent.toNat * Nat.pow 5 (-m.exponent).toNat, min m.exponent 0⟩

def shortest (m : Magnitude f) (tie : TieRule) : Decimal :=
  ((List.range 17).findSome? fun i => m.numeral? tie (i + 1)).getD m.exact

end Magnitude

namespace Binary

variable {f : Format}

/-- Numerals beyond this power of ten are infinite in every format, and zero below its inverse. -/
def decimalReach : Int := 400

def ofDecimal (f : Format) (negative : Bool) (d : Decimal) : Binary f :=
  if d.digits = 0 ∨ d.top < -decimalReach then ofRatio f negative (.ofNat 0)
  else if decimalReach < d.top then .infinite negative
  else ofRatio f negative d.ratio

def read? (f : Format) (t : Text) : Option (Binary f) :=
  let (negative, body) := t.takeSign
  let name := body.map Char.toLower
  if name = "inf" ∨ name = "infinity" then some (.infinite negative)
  else if name = "nan" then some .nan
  else (Decimal.read? body).map (ofDecimal f negative)

def text : Binary f → Text
  | .nan => "NaN"
  | .infinite negative => if negative then "-inf" else "inf"
  | .finite negative m =>
    let body : Text := if m.significand = 0 then "0" else (m.shortest .up).positional
    if negative then '-' :: body else body

def convertText (g : Format) : Binary f → Binary g
  | .nan => .nan
  | .infinite negative => .infinite negative
  | .finite negative m =>
    if m.significand = 0 then ofRatio g negative (.ofNat 0)
    else ofDecimal g negative (m.shortest .up)

end Binary
end BlockConfig
