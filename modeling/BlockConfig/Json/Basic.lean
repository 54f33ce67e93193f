import BlockConfig.Number.Decimal

set_option autoImplicit false

namespace BlockConfig

inductive Json where
  | null
  | boolean (b : Bool)
  | integer (n : Int64)
  | single (x : Single)
  | double (x : Double)
  | string (t : Text)
  | array (items : List Json)
  | object (entries : List (Text × Json))

namespace Json

def ofSingle (x : Single) : Json := if x.isFinite then .single x else .null

def ofDouble (x : Double) : Json := if x.isFinite then .double x else .null

def get? (key : Text) : Json → Option Json
  | .object entries => (entries.find? fun e => e.1 == key).map Prod.snd
  | _ => none

end Json

/-- The exponents of the first digit from which and up to which a format writes numerals without a
power of ten. -/
structure PlainRange where
  least : Int
  greatest : Int

def PlainRange.single : PlainRange := ⟨-6, 12⟩

def PlainRange.double : PlainRange := ⟨-5, 15⟩

namespace Decimal

def scientific (d : Decimal) : Text :=
  let power := d.top - 1
  let mantissa : Text :=
    match Text.ofNat d.digits with
    | first :: second :: rest => first :: '.' :: second :: rest
    | digits => digits
  let sign : Text := if power < 0 then "e-" else "e+"
  mantissa ++ sign ++ .ofNat power.natAbs

def jsonText (plain : PlainRange) (d : Decimal) : Text :=
  let power := d.top - 1
  if plain.least ≤ power ∧ power ≤ plain.greatest then
    if 0 ≤ d.exponent then d.positional ++ ['.', '0'] else d.positional
  else d.scientific

end Decimal

def Binary.jsonText {f : Format} (plain : PlainRange) : Binary f → Text
  | .finite negative m =>
    let body : Text :=
      if m.significand = 0 then "0.0" else (m.shortest .even).jsonText plain
    if negative then '-' :: body else body
  | _ => "null"

end BlockConfig
