import BlockConfig.Call

set_option autoImplicit false

namespace BlockConfig

inductive LogicFunction where
  | and
  | or
  | nand
  | nor
  | xor
  | xnor
  deriving DecidableEq

namespace LogicFunction

def name : LogicFunction → Text
  | .and => "and"
  | .or => "or"
  | .nand => "nand"
  | .nor => "nor"
  | .xor => "xor"
  | .xnor => "xnor"

def all : List LogicFunction := [.and, .or, .nand, .nor, .xor, .xnor]

def ofName? (name : Text) : Option LogicFunction := all.find? fun f => f.name == name

/-- The truth tables of the language: `and` and `xnor` test for equal values, `nand` and `xor` for
different ones. -/
def apply : LogicFunction → Bool → Bool → Bool
  | .and, a, b | .xnor, a, b => a == b
  | .or, a, b => a || b
  | .nand, a, b | .xor, a, b => a != b
  | .nor, a, b => !(a || b)

end LogicFunction

def Call.booleanArgument (call : Call) (scope : Scope) (argument : Text) : Except Error Bool :=
  match scope.find? argument with
  | some found =>
    match found.value with
    | .scalar (.boolean b) => .ok b
    | _ => .error (call.mismatch argument "boolean")
  | none =>
    match readBoolean? argument with
    | some b => .ok b
    | none => .error (call.unknownArgument argument)

def callOnBooleans (expression : Text) (scope : Scope) : Except Error Bool := do
  let call ← Call.read expression
  match LogicFunction.ofName? call.name with
  | none => throw (Call.unknown expression)
  | some function =>
    let (a, b) ← call.pair
    let p ← call.booleanArgument scope a
    let q ← call.booleanArgument scope b
    return function.apply p q

end BlockConfig
