import BlockConfig.Document
import BlockConfig.Error
import BlockConfig.Literal
import BlockConfig.Text.Case

set_option autoImplicit false

/-!
Calls of the built-in functions on text, on integers and on truth values. Arguments are not
evaluated: each is the name of an attribute in scope, or else a literal.
-/

namespace BlockConfig

structure Call where
  name : Text
  inner : Text
  expression : Text
  deriving DecidableEq

def isNameStart (c : Char) : Bool := c.isAlpha || c == '_'

def isNameChar (c : Char) : Bool := c.isAlphanum || c == '_'

namespace Call

def unknown (expression : Text) : Error :=
  .hinted (.unknownFunction expression)
    ("Available: upper, lower, concat, contains, length, power, floor, remainder, and, or, nand, " ++
      "nor, xor, xnor")

/-- Reads `name(inner)`, with white space allowed around the name and after the last parenthesis,
and no newline inside. -/
def read? (expression : Text) : Option Call :=
  let start := expression.trimStart
  let name := start.takeWhile isNameChar
  match name, Text.trimStart (start.dropWhile isNameChar) with
  | c :: _, '(' :: rest =>
    match Text.dropEnd? ')' (Text.trimEnd rest) with
    | some inner =>
      if isNameStart c && !List.elem '\n' inner then some ⟨name, inner.trim, expression⟩ else none
    | none => none
  | _, _ => none

def read (expression : Text) : Except Error Call :=
  match read? expression with
  | some call => .ok call
  | none => .error (unknown expression)

def arguments (call : Call) : List Text :=
  if call.inner.isEmpty then [] else call.inner.splitCommas.map Text.trim

def pair (call : Call) : Except Error (Text × Text) :=
  let wrong : Error :=
    .hinted (.argumentCount call.name 2 (call.arguments.filter (! ·.isEmpty)).length)
      ("Call it as " ++ call.name ++ "(a, b)")
  match call.arguments with
  | [a, b] => if b.isEmpty then .error wrong else .ok (a, b)
  | _ => .error wrong

def mismatch (call : Call) (argument expected : Text) : Error :=
  .plain (.argumentType call.name argument expected)

def unknownArgument (call : Call) (argument : Text) : Error :=
  .unknownReference argument call.expression

end Call
end BlockConfig
