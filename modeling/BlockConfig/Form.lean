import BlockConfig.Literal
import BlockConfig.Text.Case

set_option autoImplicit false

namespace BlockConfig

inductive Form where
  | string
  | array
  | comparison
  | arithmetic
  | textCall
  | mathCall
  | logicCall
  | boolean
  | number
  deriving DecidableEq

def comparisonTokens : List Text := ["==", "!=", "<", "<=", ">", ">="]

def arithmeticTokens : List Text := ["+", "-", "*", "/"]

def textCallMarks : List Text := ["upper(", "lower(", "concat(", "contains(", "length("]

def mathCallMarks : List Text := ["power(", "floor(", "remainder("]

def logicCallMarks : List Text := ["and(", "or(", "nand(", "nor(", "xor(", "xnor("]

def mentionsBoolean (t : Text) : Bool := t.lower.containsAny ["true", "false"]

def isBracketed (t : Text) : Bool := t.head? == some '[' && t.getLast? == some ']'

/-- The form of a trimmed text: the first that applies, in a fixed order. -/
def classify (t : Text) : Except Error Form :=
  if t.isQuoted then .ok .string
  else if isBracketed t then .ok .array
  else if t.containsAny comparisonTokens then .ok .comparison
  else if t.containsAny arithmeticTokens then .ok .arithmetic
  else if t.containsAny textCallMarks then .ok .textCall
  else if t.containsAny mathCallMarks then .ok .mathCall
  else if t.containsAny logicCallMarks then .ok .logicCall
  else if mentionsBoolean t then .ok .boolean
  else if (readSingle? t).isSome then .ok .number
  else .error (.hinted (.unclassifiable t)
    "Quote strings, use [..] for arrays, or write a number/boolean")

end BlockConfig
