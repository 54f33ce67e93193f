import BlockConfig.Config.Basic
import BlockConfig.Config.Locate
import BlockConfig.Config.Path
import BlockConfig.Config.Target
import BlockConfig.Text.Case

set_option autoImplicit false

namespace BlockConfig.Config

def lookup (c : Config) (path : Text) : Option Entry := c.document.lookup path

def place (c : Config) (path : Text) : Place := locate path c.source

def notFound (path : Text) : Error :=
  .hinted (.pathNotFound path) "Check that the path exists in your config file"

def locateError (c : Config) (path : Text) (e : Error) : Error :=
  match e.cause, (c.place path).line with
  | .typeMismatch message, line + 1 =>
    ⟨.typeMismatch (message ++ "\n  → " ++ (c.place path).text), line + 1, e.hint⟩
  | _, _ => e

def read {α : Type} (c : Config) (convert : Value → Except Error α) (path : Text) :
    Except Error α :=
  match c.lookup path with
  | none => .error (notFound path)
  | some (.block _) =>
    .error ⟨.typeMismatch ("Path '" ++ path ++ "' is a block, not an attribute"),
      (c.place path).line, some "Add an attribute name after the block path"⟩
  | some (.attribute a) => (convert a.value).mapError (c.locateError path)

def get (c : Config) (target : Target) (path : Text) : Except Error Converted :=
  c.read target.convert path

def getOptional (c : Config) (target : Target) (path : Text) :
    Except Error (Option Converted) :=
  match c.get target path with
  | .ok v => .ok (some v)
  | .error e =>
    match e.cause with
    | .pathNotFound _ => .ok none
    | _ => .error e

def getOr (c : Config) (target : Target) (path : Text) (default : Converted) : Converted :=
  match c.get target path with
  | .ok v => v
  | .error _ => default

def getValidated (c : Config) (target : Target) (path : Text) (valid : Converted → Bool)
    (validValues : Text) : Except Error Converted := do
  let v ← c.get target path
  if valid v then return v
  else
    let place := c.place path
    throw ⟨.validation ("Invalid value for `" ++ path ++ "`\nExpected: " ++ validValues),
      place.line, some ("Valid values are: " ++ validValues ++ "\n  → " ++ place.text)⟩

def getChoice (c : Config) (path : Text) (allowed : List Text) : Except Error Text := do
  let t ← c.read Target.toText path
  if allowed.any fun choice => choice.lower == t.lower then return t
  else
    let place := c.place path
    throw ⟨.validation ("Invalid value '" ++ t ++ "' for `" ++ path ++ "`"), place.line,
      some ("Expected one of: " ++ List.intercalate ", ".toList allowed ++ "\n  → " ++
        place.text)⟩

def has (c : Config) (path : Text) : Bool := (c.lookup path).isSome

def attribute? (c : Config) (path : Text) : Option Attribute :=
  match c.lookup path with
  | some (.attribute a) => some a
  | _ => none

def block? (c : Config) (path : Text) : Option Block :=
  match c.lookup path with
  | some (.block b) => some b
  | _ => none

/-- The names of the attributes and then of the blocks in the block at a path, or in the document
for the empty path. -/
def keys (c : Config) (path : Text) : Except Error (List Text) :=
  if path.trim.isEmpty then
    .ok (Table.names c.document.attributes ++ Table.names c.document.blocks)
  else match c.lookup path with
    | some (.block b) => .ok (Table.names b.attributes ++ Table.names b.blocks)
    | some (.attribute _) =>
      .error ⟨.typeMismatch ("Path '" ++ path ++ "' is an attribute, not a block"),
        (c.place path).line, some "Only blocks have keys"⟩
    | none => .error (notFound path)

end BlockConfig.Config
