import BlockConfig.Reader

set_option autoImplicit false

namespace BlockConfig

mutual

def Block.allAttributes : Block → List Attribute
  | ⟨_, attributes, blocks⟩ => attributes.map Prod.snd ++ attributesOfBlocks blocks

def attributesOfBlocks : List (Text × Block) → List Attribute
  | [] => []
  | (_, b) :: rest => b.allAttributes ++ attributesOfBlocks rest

end

def Document.allAttributes (d : Document) : List Attribute :=
  d.attributes.map Prod.snd ++ attributesOfBlocks d.blocks

/-- What a source denotes in which the value is all there is. -/
def Value.reread (v : Value) : Except Error Document := Document.ofSource ("x = " ++ v.source)

def Value.survives (v : Value) (kind : Kind) : Bool :=
  match v.reread with
  | .ok d =>
    match Table.get? d.attributes "x" with
    | some a => a.kind == kind && a.value.same v
    | none => false
  | .error _ => false

end BlockConfig
