import BlockConfig.Evaluation.Plain

set_option autoImplicit false

/-!
Projections, `for source : outcome`. The outcome is evaluated once for each element of the source,
with its position and the element bound in the scope, and the bindings stay there afterwards.
-/

namespace BlockConfig

def indexName : Text := "index"

def valueName : Text := "value"

def Scope.bind (scope : Scope) (index : Nat) (element : Scalar) : Scope :=
  (scope.add ⟨indexName, .number, .scalar (.integer (.ofNat index))⟩).add
    ⟨valueName, element.kind, .scalar element⟩

def projectionSource (source : Text) (scope : Scope) : Except Error (List Scalar) :=
  let invalid : Error := .hinted (.projectionSource source)
    "Iterate over an array attribute or an inline [..] literal"
  match scope.find? source with
  | some found =>
    match found.value with
    | .array items => .ok items
    | .scalar _ => .error invalid
  | none => if isBracketed source then evaluateArray source scope else .error invalid

def projectionOutcome (outcome : Text) (scope : Scope) : Except Error Scalar :=
  let nested : Error :=
    .hinted (.nestedArray outcome) "A projection outcome can't be an array"
  match scope.find? outcome with
  | some found =>
    match found.value with
    | .scalar s => .ok s
    | .array _ => .error nested
  | none => evaluateScalar nested outcome scope

/-- The outcomes for elements from position `index` on, up to the first that fails, and the scope
with the bindings of the last element that was tried. -/
def projectFrom (outcome : Text) (index : Nat) :
    List Scalar → Scope → Except Error (List Scalar) × Scope
  | [], scope => (.ok [], scope)
  | element :: rest, scope =>
    let bound := scope.bind index element
    match projectionOutcome outcome bound with
    | .error e => (.error e, bound)
    | .ok result =>
      let (results, last) := projectFrom outcome (index + 1) rest bound
      (results.map (result :: ·), last)

def projectionParts? (body : Text) : Option (Text × Text) := do
  let (source, outcome) ← Text.cutLast? ':' body
  let parts := (source.trim, outcome.trim)
  if parts.1.isEmpty || parts.2.isEmpty then none else some parts

def evaluateProjection (whole body : Text) (scope : Scope) :
    Except Error (List Scalar) × Scope :=
  match projectionParts? body with
  | none =>
    (.error (.hinted (.missingOutcome whole) "Write it as: for <array> : <outcome>"), scope)
  | some (source, outcome) =>
    match projectionSource source scope with
    | .error e => (.error e, scope)
    | .ok elements => projectFrom outcome 0 elements scope

end BlockConfig
