import BlockConfig.Document

set_option autoImplicit false

/-!
Dotted paths into a document. Each segment may be spelled with hyphens or with underscores.
-/

namespace BlockConfig

inductive Entry where
  | attribute (a : Attribute)
  | block (b : Block)

def spellings (segment : Text) : List Text :=
  let underscored := segment.replace '-' '_'
  let hyphenated := segment.replace '_' '-'
  segment :: ([underscored, hyphenated].filter (· ≠ segment))

def segments? (path : Text) : Option (List Text) :=
  let segments := (path.parts '.').map Text.trim
  if segments.any List.isEmpty then none else some segments

def entryOf? (attributes : Table Attribute) (blocks : Table Block) (name : Text) : Option Entry :=
  match Table.get? attributes name with
  | some a => some (.attribute a)
  | none => (Table.get? blocks name).map .block

def lookupFrom (attributes : Table Attribute) (blocks : Table Block) : List Text → Option Entry
  | [] => none
  | [last] => (spellings last).findSome? (entryOf? attributes blocks)
  | segment :: next :: rest =>
    (spellings segment).findSome? fun name =>
      match Table.get? blocks name with
      | some b => lookupFrom b.attributes b.blocks (next :: rest)
      | none => none

def Document.lookup (d : Document) (path : Text) : Option Entry :=
  (segments? path).bind (lookupFrom d.attributes d.blocks)

end BlockConfig
