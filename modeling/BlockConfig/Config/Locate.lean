import BlockConfig.Line

set_option autoImplicit false

namespace BlockConfig

/-- A line of a source by its number, with its text. Line 0 is none. -/
structure Place where
  line : Nat
  text : Text
  deriving DecidableEq

def Place.unknown : Place := ⟨0, "<key not found>"⟩

/-- The place of `key` in the lines that follow line `line`, inside the blocks named by `path`. If
no line opens or defines it, the first one that defines its last segment, or else `fallback`. -/
def locateFrom (key last : Text) (line : Nat) (path : List Text) (fallback : Option Place) :
    List Text → Place
  | [] => fallback.getD .unknown
  | source :: rest =>
    let line := line + 1
    let stripped := stripComment source
    let here : Place := ⟨line, stripped.trim⟩
    let isKey (name : Text) : Bool := List.intercalate ".".toList (path ++ [name]) == key
    match LineShape.of stripped with
    | .blank => locateFrom key last line path fallback rest
    | .closing => locateFrom key last line path.dropLast fallback rest
    | .opening name body =>
      if isKey name then here
      else if body.isSome then locateFrom key last line path fallback rest
      else locateFrom key last line (path ++ [name]) fallback rest
    | .content =>
      match stripped.cut? "=" with
      | none => locateFrom key last line path fallback rest
      | some (front, _) =>
        let name := front.trim
        if isKey name then here
        else
          let fallback := if name = last then fallback.or (some here) else fallback
          locateFrom key last line path fallback rest

def locate (key source : Text) : Place :=
  let last := ((key.parts '.').getLast?).getD key
  locateFrom key last 0 [] none source.lines

end BlockConfig
