import BlockConfig.Evaluation.Conditional
import BlockConfig.Evaluation.Projection

set_option autoImplicit false

namespace BlockConfig

def keywordBody? (keyword t : Text) : Option Text :=
  if keyword.isPrefixOf t then
    match t.drop keyword.length with
    | c :: rest => if isBlank c then some (c :: rest) else none
    | [] => none
  else none

/-- The type and the value that a trimmed text stands for, and the scope afterwards, which only a
projection changes. -/
def evaluate (t : Text) (scope : Scope) : Except Error (Kind × Value) × Scope :=
  match keywordBody? "if" t with
  | some body => ((evaluateConditional t body scope).map fun o => (o.kind, o.value), scope)
  | none =>
    match keywordBody? "for" t with
    | some body =>
      let (items, last) := evaluateProjection t body scope
      (items.map fun xs => (.array, .array xs), last)
    | none => ((evaluatePlain t scope).map fun v => (v.kind, v), scope)

def evaluateAttribute (t : Text) (scope : Scope) : Except Error Attribute × Scope :=
  let (result, last) := evaluate t.trim scope
  (result.map fun (kind, value) => ⟨[], kind, value⟩, last)

end BlockConfig
