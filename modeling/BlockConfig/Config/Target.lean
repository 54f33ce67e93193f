import BlockConfig.Error
import BlockConfig.Value

set_option autoImplicit false

/-!
Types that a value can be read as, and the conversion to them. No conversion changes a number.
-/

namespace BlockConfig

inductive IntegerType where
  | int32
  | int64
  | uint16
  | uint32
  | uint64
  deriving DecidableEq

namespace IntegerType

def name : IntegerType → Text
  | .int32 => "i32"
  | .int64 => "i64"
  | .uint16 => "u16"
  | .uint32 => "u32"
  | .uint64 => "u64"

def least : IntegerType → Int
  | .int32 => Int32.minValue.toInt
  | .int64 => Int64.minValue.toInt
  | .uint16 | .uint32 | .uint64 => 0

def greatest : IntegerType → Int
  | .int32 => Int32.maxValue.toInt
  | .int64 => Int64.maxValue.toInt
  | .uint16 => UInt16.size - 1
  | .uint32 => UInt32.size - 1
  | .uint64 => UInt64.size - 1

end IntegerType

inductive Target where
  | string
  | boolean
  | integer (type : IntegerType)
  | single
  | double
  | list (item : Target)
  deriving DecidableEq

inductive Converted where
  | string (t : Text)
  | boolean (b : Bool)
  | integer (n : Int)
  | single (x : Single)
  | double (x : Double)
  | list (items : List Converted)

def Value.describe : Value → Text
  | .scalar s => s.kind.text ++ " '" ++ s.text ++ "'"
  | .array items => "array of " ++ .ofNat items.length ++ " element(s)"

def Value.mismatch (v : Value) (expected hint : Text) : Error :=
  .hinted (.typeMismatch ("Expected " ++ expected ++ ", got " ++ v.describe)) hint

namespace Target

def toText (v : Value) : Except Error Text :=
  match v.scalar?.bind Scalar.string? with
  | some t => .ok t
  | none => .error (v.mismatch "string" "Use a quoted string value in your config")

def toInteger (type : IntegerType) (v : Value) : Except Error Int :=
  match v.scalar?.bind Scalar.integer? with
  | none => .error (v.mismatch "integer" "Use a whole number in your config")
  | some n =>
    if type.least ≤ n.toInt ∧ n.toInt ≤ type.greatest then .ok n.toInt
    else .error (.hinted
      (.typeMismatch ("Number " ++ .ofInt64 n ++ " out of range for " ++ type.name))
      ("Use a number that fits in " ++ type.name))

def toBoolean (v : Value) : Except Error Bool :=
  match v with
  | .scalar (.boolean b) => .ok b
  | .scalar (.expression t) => .error (.hinted
      (.typeMismatch ("'" ++ t ++ "' is an unevaluated conditional outcome"))
      "Conditional outcomes that are comparisons or function calls are stored as text")
  | _ => .error (v.mismatch "boolean" "Use true or false in your config")

def toSingle (v : Value) : Except Error Single :=
  match v with
  | .scalar (.float x) => .ok x
  | .scalar (.integer n) => .ok (.ofInt .single n.toInt)
  | _ => .error (v.mismatch "number" "Use a number value in your config")

def toDouble (v : Value) : Except Error Double :=
  match v.scalar?.bind Scalar.double? with
  | some x => .ok x
  | none => .error (v.mismatch "number" "Use a number value in your config")

def convert : Target → Value → Except Error Converted
  | .string, v => (toText v).map .string
  | .boolean, v => (toBoolean v).map .boolean
  | .integer type, v => (toInteger type v).map .integer
  | .single, v => (toSingle v).map .single
  | .double, v => (toDouble v).map .double
  | .list item, .array items => (items.mapM fun s => item.convert (.scalar s)).map .list
  | .list _, v => .error (v.mismatch "array" "Use an array [...] in your config")

end Target
end BlockConfig
