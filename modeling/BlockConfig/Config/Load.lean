import BlockConfig.Config.Basic

set_option autoImplicit false

namespace BlockConfig

def fileExtension : Text := "necl"

def fileName? (path : Text) : Option Text :=
  match ((path.parts '/').filter fun p => p ≠ [] ∧ p ≠ ".").getLast? with
  | some name => if name = ".." then none else some name
  | none => none

/-- What follows the last dot of the file name, if something comes before the dot. -/
def extension? (path : Text) : Option Text :=
  (fileName? path).bind fun name =>
    match Text.cutLast? '.' name with
    | some (_ :: _, extension) => some extension
    | _ => none

/-- The path with a leading `~/` replaced by the home directory. An absolute path after it is taken
as it stands. -/
def expandHome (home path : Text) : Text :=
  match path with
  | '~' :: '/' :: rest =>
    match rest with
    | '/' :: _ => rest
    | _ => home ++ '/' :: rest
  | _ => path

structure FileSource where
  home : Text
  read : Text → Except Text Text

namespace Config

/-- The configuration in a file. The extension is checked before anything is read. -/
def load (files : FileSource) (path : Text) : Except Error Config :=
  if extension? path ≠ some fileExtension then
    .error (.hinted (.fileExtension path) ("Rename the file to end in ." ++ fileExtension))
  else match files.read (expandHome files.home path) with
    | .error message => .error (.hinted (.file path ("Failed to read file: " ++ message))
        "Check that the file exists and is readable")
    | .ok source => ofSource source

end Config
end BlockConfig
