import BlockConfig.Text.Quoted

set_option autoImplicit false

namespace BlockConfig

/-- A line without its comment, which starts at the first `//` outside quotes, and without the
white space at its end. A line that begins with `//` is all comment, quotes or not. -/
def stripComment (line : Text) : Text :=
  if "//".toList.isPrefixOf line.trimStart then []
  else match line.cutUnquoted? "//" with
    | some (before, _) => before.trimEnd
    | none => line.trimEnd

inductive LineShape where
  | blank
  /-- A name and an opening brace; `body` is the text up to a closing brace of the same line, if
  the line has one. -/
  | opening (name : Text) (body : Option Text)
  | closing
  | content
  deriving DecidableEq

def LineShape.of (line : Text) : LineShape :=
  let text := line.trim
  if text.isEmpty then .blank
  else match text.cutUnquoted? ['{'] with
    | some (name, rest) => .opening name.trim ((rest.cutUnquoted? ['}']).map fun p => p.1.trim)
    | none => if (text.cutUnquoted? ['}']).isSome then .closing else .content

end BlockConfig
