import BlockConfig.Number.Decimal
import BlockConfig.Text.Quoted

set_option autoImplicit false

namespace BlockConfig

inductive Kind where
  | string
  | number
  | boolean
  | array
  deriving DecidableEq

def Kind.text : Kind → Text
  | .string => "string"
  | .number => "number"
  | .boolean => "boolean"
  | .array => "array"

inductive Scalar where
  | string (text : Text)
  | integer (n : Int64)
  | float (x : Single)
  | boolean (b : Bool)
  /-- Source text of a truth value that is stored without being evaluated. -/
  | expression (text : Text)
  deriving DecidableEq

namespace Scalar

def kind : Scalar → Kind
  | .string _ => .string
  | .integer _ | .float _ => .number
  | .boolean _ | .expression _ => .boolean

def text : Scalar → Text
  | .string t | .expression t => t
  | .integer n => .ofInt64 n
  | .float x => x.text
  | .boolean b => if b then "true" else "false"

/-- The text that stands for the scalar in a source: strings in double quotes, or in single ones if
they hold a double quote, and floats always with a point. -/
def source : Scalar → Text
  | .string t => if '"' ∈ t then '\'' :: (t ++ ['\'']) else '"' :: (t ++ ['"'])
  | .float x => if '.' ∈ x.text then x.text else x.text ++ ['.', '0']
  | s => s.text

def string? : Scalar → Option Text
  | .string t => some t
  | _ => none

def integer? : Scalar → Option Int64
  | .integer n => some n
  | _ => none

def double? : Scalar → Option Double
  | .integer n => some (.ofInt .double n.toInt)
  | .float x => some (x.convert .double)
  | _ => none

def boolean? : Scalar → Option Bool
  | .boolean b => some b
  | _ => none

/-- Equality of the language, which differs from identity on floats alone. -/
def same : Scalar → Scalar → Bool
  | .float x, .float y => x.same y
  | s, t => s == t

end Scalar

inductive Value where
  | scalar (s : Scalar)
  | array (items : List Scalar)
  deriving DecidableEq

namespace Value

def kind : Value → Kind
  | .scalar s => s.kind
  | .array _ => .array

def source : Value → Text
  | .scalar s => s.source
  | .array items => "[" ++ List.intercalate ", ".toList (items.map Scalar.source) ++ "]"

def scalar? : Value → Option Scalar
  | .scalar s => some s
  | .array _ => none

def array? : Value → Option (List Scalar)
  | .array items => some items
  | .scalar _ => none

def same : Value → Value → Bool
  | .scalar s, .scalar t => s.same t
  | .array xs, .array ys => xs.length == ys.length && (xs.zip ys).all fun (x, y) => x.same y
  | _, _ => false

end Value
end BlockConfig
