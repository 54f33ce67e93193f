import BlockConfig.Document
import BlockConfig.Json.Writer

set_option autoImplicit false

namespace BlockConfig

namespace Scalar

/-- The bare value. A float becomes the double that its shortest numeral denotes. -/
def plainJson : Scalar → Json
  | .string t | .expression t => .string t
  | .integer n => .integer n
  | .float x => .ofDouble (x.convertText .double)
  | .boolean b => .boolean b

def typedJson (float : Single → Json) : Scalar → Json
  | .string t | .expression t => .string t
  | .integer n => .integer n
  | .float x => float x
  | .boolean b => .boolean b

end Scalar

namespace Value

def plainJson : Value → Json
  | .scalar s => s.plainJson
  | .array items => .array (items.map Scalar.plainJson)

def typedJson (float : Single → Json) : Value → Json
  | .scalar s => s.typedJson float
  | .array items => .array (items.map (Scalar.typedJson float))

end Value

def Attribute.typedJson (float : Single → Json) (a : Attribute) : Json :=
  .object [("name", .string a.name), ("type", .string a.kind.text),
    ("value", a.value.typedJson float)]

def plainAttributes (t : Table Attribute) : Json :=
  .object (t.map fun (_, a) => (a.name, a.value.plainJson))

def typedAttributes (float : Single → Json) (t : Table Attribute) : Json :=
  .object (t.map fun (name, a) => (name, a.typedJson float))

mutual

def Block.plainJson : Block → Json
  | ⟨_, attributes, blocks⟩ =>
    .object [("attributes", plainAttributes attributes), ("blocks", .object (plainBlocks blocks))]

def plainBlocks : List (Text × Block) → List (Text × Json)
  | [] => []
  | (_, b) :: rest => (b.name, b.plainJson) :: plainBlocks rest

end

mutual

def Block.typedJson (float : Single → Json) : Block → Json
  | ⟨name, attributes, blocks⟩ =>
    .object [("name", .string name), ("attributes", typedAttributes float attributes),
      ("blocks", .object (typedBlocks float blocks))]

def typedBlocks (float : Single → Json) : List (Text × Block) → List (Text × Json)
  | [] => []
  | (name, b) :: rest => (name, b.typedJson float) :: typedBlocks float rest

end

namespace Document

def plainJson (d : Document) : Json :=
  .object [("attributes", plainAttributes d.attributes),
    ("blocks", .object (plainBlocks d.blocks))]

def typedJson (float : Single → Json) (d : Document) : Json :=
  .object [("attributes", typedAttributes float d.attributes),
    ("blocks", .object (typedBlocks float d.blocks))]

end Document

def widenedJson (x : Single) : Json := .ofDouble (x.convert .double)

end BlockConfig
