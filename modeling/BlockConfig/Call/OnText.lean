import BlockConfig.Call

set_option autoImplicit false

namespace BlockConfig

inductive TextFunction where
  | upper
  | lower
  | concat
  | contains
  | length
  deriving DecidableEq

namespace TextFunction

def name : TextFunction → Text
  | .upper => "upper"
  | .lower => "lower"
  | .concat => "concat"
  | .contains => "contains"
  | .length => "length"

def all : List TextFunction := [.upper, .lower, .concat, .contains, .length]

def ofName? (name : Text) : Option TextFunction := all.find? fun f => f.name == name

end TextFunction

def Call.textArgument (call : Call) (scope : Scope) (argument : Text) : Except Error Text :=
  match scope.find? argument with
  | none => .ok argument.unquote
  | some found =>
    match found.value with
    | .scalar (.string t) => .ok t
    | _ => .error (call.mismatch argument "string")

/-- The value of a call of a function on text. Functions of one argument take all that stands
between the parentheses, commas too. -/
def callOnText (expression : Text) (scope : Scope) : Except Error Scalar := do
  let call ← Call.read expression
  match TextFunction.ofName? call.name with
  | none => throw (Call.unknown expression)
  | some .upper => return .string (← call.textArgument scope call.inner).upper
  | some .lower => return .string (← call.textArgument scope call.inner).lower
  | some .length =>
    return .integer (.ofNat (← call.textArgument scope call.inner).length)
  | some .concat =>
    let (a, b) ← call.pair
    let s ← call.textArgument scope a
    let t ← call.textArgument scope b
    return .string (s ++ " " ++ t)
  | some .contains =>
    let (a, b) ← call.pair
    let s ← call.textArgument scope a
    let t ← call.textArgument scope b
    return .boolean (s.contains t)

end BlockConfig
