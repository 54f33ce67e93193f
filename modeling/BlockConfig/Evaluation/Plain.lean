import BlockConfig.Call.OnBooleans
import BlockConfig.Call.OnIntegers
import BlockConfig.Call.OnText
import BlockConfig.Form
import BlockConfig.Operator

set_option autoImplicit false

namespace BlockConfig

/-- The scalar that a text of a given form stands for. A text that only mentions a truth value is
false. -/
def evaluateAs (form : Form) (t : Text) (scope : Scope) : Except Error Scalar :=
  match form with
  | .string => .ok (.string t.unquote)
  | .array =>
    .error (.hinted (.nestedArray t) "Array elements must be strings, numbers or booleans")
  | .comparison => (compare t scope).map .boolean
  | .arithmetic => (calculate t scope).map .integer
  | .textCall => callOnText t scope
  | .mathCall => (callOnIntegers t scope).map .integer
  | .logicCall => (callOnBooleans t scope).map .boolean
  | .boolean => .ok (.boolean ((readBoolean? t).getD false))
  | .number => readNumber t

/-- The scalar that a text stands for; `nested` is the error if the text is an array. -/
def evaluateScalar (nested : Error) (t : Text) (scope : Scope) : Except Error Scalar := do
  match ← classify t with
  | .array => throw nested
  | form => evaluateAs form t scope

/-- The texts of the elements of a bracketed text. A last comma may stand after the last one. -/
def elementTexts (t : Text) : List Text :=
  let inner := Text.trim (t.drop 1).dropLast
  if inner.isEmpty then []
  else
    let parts := inner.splitCommas.map Text.trim
    if 1 < parts.length ∧ parts.getLast? = some [] then parts.dropLast else parts

def evaluateArray (t : Text) (scope : Scope) : Except Error (List Scalar) :=
  let nested : Error := .hinted (.nestedArray t) "Arrays can't contain other arrays"
  (elementTexts t).mapM fun part => evaluateScalar nested part scope

def evaluatePlain (t : Text) (scope : Scope) : Except Error Value := do
  match ← classify t with
  | .array => return .array (← evaluateArray t scope)
  | form => return .scalar (← evaluateAs form t scope)

end BlockConfig
