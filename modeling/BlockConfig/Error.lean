import BlockConfig.Number.Integer

set_option autoImplicit false

namespace BlockConfig

inductive Cause where
  | fileExtension (path : Text)
  | file (path message : Text)
  | unclassifiable (value : Text)
  | emptyAttributeName
  | emptyBlockName
  | unbalancedBraces (message : Text)
  | nestedArray (value : Text)
  | inlineContent (name content : Text)
  | argumentCount (function : Text) (expected found : Nat)
  | unknownReference (name expression : Text)
  | nonIntegerOperand (operand expression : Text)
  | argumentType (function argument expected : Text)
  | functionInCondition (function expression : Text)
  | conditionType (kind expression : Text)
  | missingOutcome (expression : Text)
  | projectionSource (source : Text)
  | unknownComparator (expression : Text)
  | unknownOperator (expression : Text)
  | unknownFunction (expression : Text)
  | divisionByZero (expression : Text)
  | pathNotFound (path : Text)
  | typeMismatch (message : Text)
  | validation (message : Text)
  | rendering (message : Text)
  deriving DecidableEq

namespace Cause

def code : Cause → Nat
  | .fileExtension _ => 100
  | .file _ _ => 101
  | .unclassifiable _ => 200
  | .emptyAttributeName => 201
  | .emptyBlockName => 202
  | .unbalancedBraces _ => 203
  | .nestedArray _ => 204
  | .inlineContent _ _ => 205
  | .argumentCount _ _ _ => 300
  | .unknownReference _ _ => 301
  | .nonIntegerOperand _ _ => 302
  | .argumentType _ _ _ => 303
  | .functionInCondition _ _ => 304
  | .conditionType _ _ => 305
  | .missingOutcome _ => 306
  | .projectionSource _ => 307
  | .unknownComparator _ => 308
  | .unknownOperator _ => 309
  | .unknownFunction _ => 310
  | .divisionByZero _ => 311
  | .pathNotFound _ => 400
  | .typeMismatch _ => 401
  | .validation _ => 450
  | .rendering _ => 500

def hasLine : Cause → Bool
  | .fileExtension _ | .file _ _ | .pathNotFound _ | .rendering _ => false
  | _ => true

def report (place : Text) : Cause → Text
  | .fileExtension path => "Invalid file extension '" ++ path ++ "': expected a .necl file"
  | .file path message => "File Error '" ++ path ++ "': " ++ message
  | .unclassifiable value => "Type Error" ++ place ++ ": no valid type found for '" ++ value ++ "'"
  | .emptyAttributeName => "Syntax Error" ++ place ++ ": attribute name cannot be empty"
  | .emptyBlockName => "Syntax Error" ++ place ++ ": block name cannot be empty"
  | .unbalancedBraces message => "Syntax Error" ++ place ++ ": " ++ message
  | .nestedArray value => "Type Error" ++ place ++ ": nested arrays not allowed in '" ++ value ++ "'"
  | .inlineContent name content =>
    "Syntax Error" ++ place ++ ": block '" ++ name ++ "' has '" ++ content ++ "' on its opening line"
  | .argumentCount function expected found =>
    "Function Error" ++ place ++ ": " ++ function ++ "() takes " ++ .ofNat expected ++
      " argument(s), got " ++ .ofNat found
  | .unknownReference name expression =>
    "Reference Error" ++ place ++ ": no attribute named '" ++ name ++ "' in '" ++ expression ++ "'"
  | .nonIntegerOperand operand expression =>
    "Type Error" ++ place ++ ": operand '" ++ operand ++ "' in '" ++ expression ++
      "' is not an integer"
  | .argumentType function argument expected =>
    "Type Error" ++ place ++ ": argument '" ++ argument ++ "' of " ++ function ++
      "() must be a " ++ expected
  | .functionInCondition function expression =>
    "Condition Error" ++ place ++ ": " ++ function ++ "() is not allowed in condition '" ++
      expression ++ "'"
  | .conditionType kind expression =>
    "Condition Error" ++ place ++ ": invalid type " ++ kind ++ " for condition '" ++ expression ++
      "'"
  | .missingOutcome expression =>
    "Expression Error" ++ place ++ ": missing outcome in '" ++ expression ++ "'"
  | .projectionSource source =>
    "Expression Error" ++ place ++ ": '" ++ source ++
      "' is neither an array attribute nor an array literal"
  | .unknownComparator expression =>
    "Expression Error" ++ place ++ ": unknown comparator in '" ++ expression ++ "'"
  | .unknownOperator expression =>
    "Expression Error" ++ place ++ ": unknown operator in '" ++ expression ++ "'"
  | .unknownFunction expression =>
    "Function Error" ++ place ++ ": unknown function in '" ++ expression ++ "'"
  | .divisionByZero expression =>
    "Arithmetic Error" ++ place ++ ": division by zero in '" ++ expression ++ "'"
  | .pathNotFound path => "Path '" ++ path ++ "' not found in configuration"
  | .typeMismatch message => "Type Error" ++ place ++ ": " ++ message
  | .validation message => "Validation Error" ++ place ++ ": " ++ message
  | .rendering message => "Export Error: " ++ message

end Cause

structure Error where
  cause : Cause
  line : Nat
  hint : Option Text
  deriving DecidableEq

namespace Error

/-- An error at a line; a cause that has no place in the source keeps line 0. -/
def located (cause : Cause) (line : Nat) (hint : Option Text) : Error :=
  ⟨cause, if cause.hasLine then line else 0, hint⟩

def plain (cause : Cause) : Error := ⟨cause, 0, none⟩

def hinted (cause : Cause) (hint : Text) : Error := ⟨cause, 0, some hint⟩

def unknownReference (name expression : Text) : Error :=
  hinted (.unknownReference name expression) "Attributes must be defined earlier in the same block"

def atLine (e : Error) (line : Nat) : Error :=
  if e.cause.hasLine ∧ e.line = 0 then { e with line := line } else e

def code (e : Error) : Nat := e.cause.code

def message (e : Error) : Text :=
  let place : Text := if e.line = 0 then [] else " at line " ++ .ofNat e.line
  let advice : Text := match e.hint with
    | some hint => " Hint: " ++ hint
    | none => []
  "[NECL] " ++ e.cause.report place ++ advice ++ " Code: " ++ .ofNat e.code

@[simp] theorem cause_atLine (e : Error) (line : Nat) : (e.atLine line).cause = e.cause := by
  unfold atLine
  split <;> rfl

end Error
end BlockConfig
