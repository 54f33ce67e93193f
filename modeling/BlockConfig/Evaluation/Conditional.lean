import BlockConfig.Evaluation.Plain

set_option autoImplicit false

/-!
Conditional values, `if condition ? positive : negative`. The condition is evaluated; the outcome
it selects is taken as it is written, a truth value still to be computed as its text.
-/

namespace BlockConfig

inductive Outcome where
  /-- The type and the value of an attribute in scope. -/
  | reference (kind : Kind) (value : Value)
  /-- The text of a comparison, of a containment test or of a function on truth values. -/
  | deferred (text : Text)
  | literal (s : Scalar)
  deriving DecidableEq

namespace Outcome

def kind : Outcome → Kind
  | .reference kind _ => kind
  | .deferred _ => .boolean
  | .literal s => s.kind

def value : Outcome → Value
  | .reference _ value => value
  | .deferred t => .scalar (.expression t)
  | .literal s => .scalar s

def isDeferred (t : Text) : Bool :=
  t.containsAny comparisonTokens || t.contains "contains(" || t.containsAny logicCallMarks

def read (t : Text) (scope : Scope) : Except Error Outcome :=
  match scope.find? t with
  | some found => .ok (.reference found.kind found.value)
  | none =>
    if t.isQuoted then .ok (.literal (.string t.unquote))
    else if isDeferred t then .ok (.deferred t)
    else if mentionsBoolean t then .ok (.literal (.boolean ((readBoolean? t).getD false)))
    else match readNumber t with
      | .ok number => .ok (.literal number)
      | .error _ => .error (.hinted (.unclassifiable t)
          ("Outcomes are attributes, strings, comparisons, contains(), logic functions, " ++
            "booleans or numbers"))

end Outcome

def evaluateDeferred (t : Text) (scope : Scope) : Except Error Bool :=
  if t.containsAny comparisonTokens then compare t scope
  else if t.contains "contains(" then do
    match ← callOnText t scope with
    | .boolean b => return b
    | other => throw (.plain (.conditionType other.kind.text t))
  else callOnBooleans t scope

/-- Functions on text that do not yield a truth value. -/
def forbiddenInCondition : List Text := ["upper", "lower", "concat", "length"]

def evaluateCondition (condition whole : Text) (scope : Scope) : Except Error Bool :=
  match forbiddenInCondition.find? fun name => condition.contains (name ++ "(") with
  | some name => .error (.hinted (.functionInCondition name whole)
      "contains() is the only string function allowed in a condition")
  | none => do
    let outcome ← Outcome.read condition scope
    match outcome with
    | .deferred t => evaluateDeferred t scope
    | .reference _ (.scalar (.expression t)) => evaluateDeferred t scope
    | .reference _ (.scalar (.boolean b)) => return b
    | .literal (.boolean b) => return b
    | _ => throw (.hinted (.conditionType outcome.kind.text whole)
        "Conditions must be booleans, comparisons, contains() or logic functions")

/-- The three parts of a conditional, trimmed: the last colon ends the positive outcome, and the
nearest question mark before it ends the condition. No part is empty. -/
def conditionalParts? (body : Text) : Option (Text × Text × Text) := do
  let (front, negative) ← Text.cutLast? ':' body
  let (condition, positive) ← Text.cutLast? '?' front
  let parts := (condition.trim, positive.trim, negative.trim)
  if parts.1.isEmpty || parts.2.1.isEmpty || parts.2.2.isEmpty then none else some parts

/-- The value of the conditional `whole`, which is `if` and `body`. Both outcomes have to be
readable, and are read before the condition. -/
def evaluateConditional (whole body : Text) (scope : Scope) : Except Error Outcome := do
  match conditionalParts? body with
  | none => throw (.hinted (.missingOutcome whole)
      "Write it as: if <condition> ? <then> : <else>")
  | some (condition, positive, negative) =>
    let positive ← Outcome.read positive scope
    let negative ← Outcome.read negative scope
    return if ← evaluateCondition condition whole scope then positive else negative

end BlockConfig
