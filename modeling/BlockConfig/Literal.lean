import BlockConfig.Error
import BlockConfig.Value

set_option autoImplicit false

namespace BlockConfig

def trueSpellings : List Text := ["1", "t", "T", "TRUE", "true", "True"]

def falseSpellings : List Text := ["0", "f", "F", "FALSE", "false", "False"]

def readBoolean? (t : Text) : Option Bool :=
  if t ∈ trueSpellings then some true else if t ∈ falseSpellings then some false else none

def hasDecimalMark (t : Text) : Bool := t.any fun c => c == '.' || c == ','

/-- A decimal numeral, in which the first comma stands for the point. -/
def readSingle? (t : Text) : Option Single := Binary.read? .single (t.replaceFirst ',' '.')

def integerRangeHint : Text :=
  "Integers must lie between " ++ .ofInt64 .minValue ++ " and " ++ .ofInt64 .maxValue

/-- A number: an integer if it has no decimal mark and is one, else a float. Whole numbers beyond
64 bits are refused. -/
def readNumber (t : Text) : Except Error Scalar :=
  let float : Except Error Scalar :=
    match readSingle? t with
    | some x => .ok (.float x)
    | none => .error (.plain (.unclassifiable t))
  if hasDecimalMark t then float
  else match t.toInt64? with
    | some n => .ok (.integer n)
    | none =>
      if t.toInt?.isSome then .error (.hinted (.unclassifiable t) integerRangeHint) else float

end BlockConfig
