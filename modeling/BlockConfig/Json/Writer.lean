import BlockConfig.Json.Basic

set_option autoImplicit false

namespace BlockConfig.Json

def hexDigit (n : Nat) : Char := Nat.digitChar n

/-- A character inside a string. Quotes, backslashes and control characters below the space are
escaped, all else stands for itself. -/
def escape (c : Char) : Text :=
  if c = '"' then ['\\', '"']
  else if c = '\\' then ['\\', '\\']
  else if c = '\n' then ['\\', 'n']
  else if c = '\r' then ['\\', 'r']
  else if c = '\t' then ['\\', 't']
  else if c.toNat = 8 then ['\\', 'b']
  else if c.toNat = 12 then ['\\', 'f']
  else if c.toNat < 32 then
    ['\\', 'u', '0', '0', hexDigit (c.toNat / 16), hexDigit (c.toNat % 16)]
  else [c]

def quote (t : Text) : Text := '"' :: (t.flatMap escape ++ ['"'])

mutual

def compact : Json → Text
  | .null => "null"
  | .boolean b => if b then "true" else "false"
  | .integer n => .ofInt64 n
  | .single x => x.jsonText .single
  | .double x => x.jsonText .double
  | .string t => quote t
  | .array items => '[' :: (compactItems items ++ [']'])
  | .object entries => '{' :: (compactEntries entries ++ ['}'])

def compactItems : List Json → Text
  | [] => []
  | [item] => item.compact
  | item :: rest => item.compact ++ ',' :: compactItems rest

def compactEntries : List (Text × Json) → Text
  | [] => []
  | [(key, value)] => quote key ++ ':' :: value.compact
  | (key, value) :: rest => quote key ++ ':' :: value.compact ++ ',' :: compactEntries rest

end

def newLine (depth : Nat) : Text := '\n' :: List.replicate (2 * depth) ' '

mutual

def prettyAt (depth : Nat) : Json → Text
  | .array (item :: rest) =>
    '[' :: (prettyItems (depth + 1) (item :: rest) ++ newLine depth ++ [']'])
  | .object (entry :: rest) =>
    '{' :: (prettyEntries (depth + 1) (entry :: rest) ++ newLine depth ++ ['}'])
  | .array [] => "[]"
  | .object [] => ['{', '}']
  | value => value.compact

def prettyItems (depth : Nat) : List Json → Text
  | [] => []
  | [item] => newLine depth ++ item.prettyAt depth
  | item :: rest => newLine depth ++ item.prettyAt depth ++ ',' :: prettyItems depth rest

def prettyEntries (depth : Nat) : List (Text × Json) → Text
  | [] => []
  | [(key, value)] => newLine depth ++ quote key ++ ": " ++ value.prettyAt depth
  | (key, value) :: rest =>
    newLine depth ++ quote key ++ ": " ++ value.prettyAt depth ++ ',' :: prettyEntries depth rest

end

def pretty (value : Json) : Text := value.prettyAt 0

end BlockConfig.Json
