import BlockConfig.Table
import BlockConfig.Value

set_option autoImplicit false

namespace BlockConfig

structure Attribute where
  name : Text
  kind : Kind
  value : Value
  deriving DecidableEq

/-- The attributes that a value may refer to: those of the block it stands in, so far. -/
abbrev Scope := Table Attribute

namespace Scope

def find? (s : Scope) (name : Text) : Option Attribute := Table.get? s name

def add (s : Scope) (a : Attribute) : Scope := Table.insert s a.name a

theorem find?_add (s : Scope) (a : Attribute) (name : Text) :
    (s.add a).find? name = if a.name = name then some a else s.find? name :=
  Table.get?_insert s a.name name a

end Scope

structure Block where
  name : Text
  attributes : Table Attribute
  blocks : List (Text × Block)

structure Document where
  attributes : Table Attribute
  blocks : Table Block

namespace Document

def empty : Document := ⟨[], []⟩

end Document
end BlockConfig
