import BlockConfig.Call

set_option autoImplicit false

/-!
The functions on integers. Powers and floored quotients are computed in double precision and cut
back to 64 bits; remainders are exact.
-/

namespace BlockConfig

inductive MathFunction where
  | power
  | floor
  | remainder
  deriving DecidableEq

namespace MathFunction

def name : MathFunction → Text
  | .power => "power"
  | .floor => "floor"
  | .remainder => "remainder"

def all : List MathFunction := [.power, .floor, .remainder]

def ofName? (name : Text) : Option MathFunction := all.find? fun f => f.name == name

end MathFunction

def roundToDouble (n : Int64) : Int := (Binary.ofInt .double n.toInt).truncate

/-- The power as the machine's own double-precision function computes it. -/
def machinePower (base exponent : Nat) : Nat :=
  (Float.pow (.ofNat base) (.ofNat exponent)).toUInt64.toNat

/-- The power rounded to 53 binary digits. One that lies within 1/32 of a unit from the middle of
its two neighbours is rounded as the machine does it; any other becomes the nearer neighbour. -/
def roundPower (base exponent : Nat) : Nat :=
  let exact := base.pow exponent
  let unit := Nat.pow 2 (exact.log2 + 1 - Format.double.precision)
  let lower := exact / unit * unit
  let rest := exact % unit
  if 31 * unit ≤ 64 * rest ∧ 64 * rest ≤ 33 * unit then
    if lower + unit ≤ machinePower base exponent then lower + unit else lower
  else if 2 * rest < unit then lower
  else lower + unit

def power (a b : Int64) : Int64 :=
  let base := roundToDouble a
  let exponent := roundToDouble b
  let negative := base < 0 ∧ exponent % 2 = 1
  if exponent = 0 then 1
  else if base = 0 then if exponent < 0 then .maxValue else 0
  else if base.natAbs = 1 then if negative then -1 else 1
  else if exponent < 0 then 0
  else if exponent < 64 then
    let size : Int := roundPower base.natAbs exponent.toNat
    clampInt64 (if negative then -size else size)
  else if negative then .minValue
  else .maxValue

def floorQuotient (a b : Int64) : Int64 :=
  ((Binary.ofInt .double a.toInt).divide (Binary.ofInt .double b.toInt)).floorInt64

def MathFunction.result? : MathFunction → Int64 → Int64 → Option Int64
  | .power, a, b => some (BlockConfig.power a b)
  | .floor, a, b => if b = 0 then none else some (floorQuotient a b)
  | .remainder, a, b => if b = 0 then none else some (a % b)

def Call.integerArgument (call : Call) (scope : Scope) (argument : Text) : Except Error Int64 :=
  match scope.find? argument with
  | some found =>
    match found.value with
    | .scalar (.integer n) => .ok n
    | _ => .error (call.mismatch argument "integer")
  | none =>
    match argument.toInt64? with
    | some n => .ok n
    | none =>
      if (readSingle? argument).isSome then
        .error (.hinted (.nonIntegerOperand argument call.expression)
          "Math functions only take integers")
      else .error (call.unknownArgument argument)

def callOnIntegers (expression : Text) (scope : Scope) : Except Error Int64 := do
  let call ← Call.read expression
  match MathFunction.ofName? call.name with
  | none => throw (Call.unknown expression)
  | some function =>
    let (a, b) ← call.pair
    let m ← call.integerArgument scope a
    let n ← call.integerArgument scope b
    match function.result? m n with
    | some result => return result
    | none => throw (.plain (.divisionByZero expression))

end BlockConfig
