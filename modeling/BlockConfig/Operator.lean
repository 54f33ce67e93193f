import BlockConfig.Document
import BlockConfig.Error

set_option autoImplicit false

/-!
Comparison and arithmetic of two integers, each written out or named. An expression has one
operator: of those that occur in it, the last in a fixed order, at its first occurrence.
-/

namespace BlockConfig

/-- The integer that an operand stands for: a decimal literal, or an attribute of the scope. A
float attribute counts, without its fraction, where `truncating` allows it. -/
def Scope.operand (scope : Scope) (truncating : Bool) (expression name : Text) :
    Except Error Int64 :=
  match name.toInt64? with
  | some n => .ok n
  | none =>
    match scope.find? name with
    | none => .error (.unknownReference name expression)
    | some found =>
      match found.value, truncating with
      | .scalar (.integer n), _ => .ok n
      | .scalar (.float x), true => .ok x.toInt64
      | _, _ => .error (.hinted (.nonIntegerOperand name expression)
          "Only integer values can be compared or combined")

inductive Comparator where
  | eq
  | ne
  | lt
  | le
  | gt
  | ge
  deriving DecidableEq

namespace Comparator

/-- All comparators in scan order: a later one that occurs overrides an earlier one. -/
def all : List Comparator := [.eq, .ne, .lt, .le, .gt, .ge]

def token : Comparator → Text
  | .eq => "=="
  | .ne => "!="
  | .lt => "<"
  | .le => "<="
  | .gt => ">"
  | .ge => ">="

def apply : Comparator → Int64 → Int64 → Bool
  | .eq, m, n => m == n
  | .ne, m, n => m != n
  | .lt, m, n => m < n
  | .le, m, n => m ≤ n
  | .gt, m, n => n < m
  | .ge, m, n => n ≤ m

def select? (expression : Text) : Option Comparator :=
  all.reverse.find? fun c => expression.contains c.token

end Comparator

inductive Operator where
  | add
  | sub
  | mul
  | div
  deriving DecidableEq

namespace Operator

def all : List Operator := [.add, .sub, .mul, .div]

def token : Operator → Text
  | .add => "+"
  | .sub => "-"
  | .mul => "*"
  | .div => "/"

def select? (expression : Text) : Option Operator :=
  all.reverse.find? fun o => expression.contains o.token

def result? : Operator → Int64 → Int64 → Option Int64
  | .add, m, n => some (m + n)
  | .sub, m, n => some (m - n)
  | .mul, m, n => some (m * n)
  | .div, m, n => if n = 0 then none else some (m / n)

end Operator

def operandsAt (token expression : Text) : Text × Text :=
  match expression.cut? token with
  | some (left, right) => (left.trim, right.trim)
  | none => (expression.trim, [])

def compare (expression : Text) (scope : Scope) : Except Error Bool :=
  match Comparator.select? expression with
  | none => .error (.hinted (.unknownComparator expression) "Use one of ==, !=, <, <=, >, >=")
  | some comparator => do
    let (left, right) := operandsAt comparator.token expression
    let m ← scope.operand false expression left
    let n ← scope.operand false expression right
    return comparator.apply m n

def calculate (expression : Text) (scope : Scope) : Except Error Int64 :=
  match Operator.select? expression with
  | none => .error (.hinted (.unknownOperator expression) "Use one of +, -, *, /")
  | some operator => do
    let (left, right) := operandsAt operator.token expression
    let m ← scope.operand true expression left
    let n ← scope.operand true expression right
    match operator.result? m n with
    | some result => return result
    | none => throw (.plain (.divisionByZero expression))

end BlockConfig
