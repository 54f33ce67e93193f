import BlockConfig.CommandLine
import BlockConfig.FileTree

set_option autoImplicit false

namespace BlockConfig

def systemMessage : IO.Error → Text
  | .noFileOrDirectory .. => ReadFailure.notFound.message
  | .inappropriateType _ code _ =>
    if code = 21 then ReadFailure.isADirectory.message else ReadFailure.notADirectory.message
  | .invalidArgument _ _ "name too long" => ReadFailure.nameTooLong.message
  | .invalidArgument _ _ "too many symbolic links encountered" =>
    "Too many levels of symbolic links (os error 40)"
  | .permissionDenied .. => "Permission denied (os error 13)"
  | e => e.toString

def readText (path : Text) : IO (Except Text Text) := do
  try
    let bytes ← IO.FS.readBinFile (String.ofList path)
    match String.fromUTF8? bytes with
    | some s => return .ok s.toList
    | none => return .error ReadFailure.notText.message
  catch e => return .error (systemMessage e)

def readNamed (home : Text) (arguments : List Text) : IO (Except Text Text) := do
  match CommandOptions.ofArguments? arguments with
  | some o =>
    if extension? o.file = some fileExtension then readText (expandHome home o.file)
    else return .error []
  | none => return .error []

end BlockConfig

def main (args : List String) : IO UInt32 := do
  let home := ((← IO.getEnv "HOME").getD "/").toList
  let arguments := args.map String.toList
  let answer ← BlockConfig.readNamed home arguments
  let result := BlockConfig.runCommand arguments ⟨home, fun _ => answer⟩
  (← IO.getStdout).putStr (String.ofList result.stdout)
  (← IO.getStderr).putStr (String.ofList result.stderr)
  return result.code.toUInt32
