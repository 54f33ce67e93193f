import BlockConfig.Config.Access
import BlockConfig.Config.Load
import BlockConfig.Export

set_option autoImplicit false

namespace BlockConfig

structure CommandOptions where
  file : Text
  /-- The path of what is printed; all if there is none. -/
  path : Option Text
  typed : Bool
  compact : Bool
  deriving DecidableEq

structure CommandResult where
  code : Nat
  stdout : Text
  stderr : Text
  deriving DecidableEq

namespace CommandOptions

structure Partial where
  file : Option Text
  path : Option Text
  typed : Bool
  compact : Bool

def isOption : Text → Bool
  | '-' :: _ :: _ => true
  | _ => false

/-- Takes the letters of a joined short option, and the argument behind it if one needs it. The
result is the settings and whether that argument was taken. -/
def takeLetters (p : Partial) (next : Option Text) : Text → Option (Partial × Bool)
  | [] => some (p, false)
  | 'c' :: rest => if p.compact then none else takeLetters { p with compact := true } next rest
  | 't' :: rest => if p.typed then none else takeLetters { p with typed := true } next rest
  | ['g'] =>
    match p.path, next with
    | none, some path =>
      if isOption path then none else some ({ p with path := some path }, true)
    | _, _ => none
  | 'g' :: '=' :: path => if p.path.isSome then none else some ({ p with path := some path }, false)
  | 'g' :: path => if p.path.isSome then none else some ({ p with path := some path }, false)
  | _ => none

def takeFile (p : Partial) (file : Text) : Option Partial :=
  if p.file.isSome ∨ file = [] then none else some { p with file := some file }

def takeOne (p : Partial) (next : Option Text) (argument : Text) : Option (Partial × Bool) :=
  if argument = "--compact" then takeLetters p next ['c']
  else if argument = "--typed" then takeLetters p next ['t']
  else if argument = "--get" then takeLetters p next ['g']
  else if "--get=".toList.isPrefixOf argument then takeLetters p next ('g' :: argument.drop 5)
  else match argument with
    | '-' :: '-' :: _ => none
    | '-' :: c :: letters => takeLetters p next (c :: letters)
    | file => (takeFile p file).map (·, false)

def takeAll (p : Partial) : List Text → Option Partial
  | [] => some p
  | [argument] => (takeOne p none argument).map Prod.fst
  | argument :: next :: rest =>
    match takeOne p (some next) argument with
    | none => none
    | some (q, true) => takeAll q rest
    | some (q, false) => takeAll q (next :: rest)

/-- The settings that arguments ask for. Behind a lone `--` there are only files. -/
def ofArguments? (arguments : List Text) : Option CommandOptions := do
  let options := arguments.takeWhile (· ≠ ("--" : Text))
  let files := (arguments.drop options.length).drop 1
  let p ← files.foldlM takeFile (← takeAll ⟨none, none, false, false⟩ options)
  let file ← p.file
  return ⟨file, p.path, p.typed, p.compact⟩

def entryJson (o : CommandOptions) : Entry → Json
  | .attribute a => if o.typed then a.typedJson widenedJson else a.value.plainJson
  | .block b => if o.typed then b.typedJson widenedJson else b.plainJson

def select? (o : CommandOptions) (c : Config) : Option Json :=
  match o.path with
  | none => some (if o.typed then c.document.typedJson widenedJson else c.document.plainJson)
  | some path => (c.lookup path).map o.entryJson

def run (o : CommandOptions) (files : FileSource) : CommandResult :=
  match Config.load files o.file with
  | .error e => ⟨1, [], e.message ++ ['\n']⟩
  | .ok c =>
    match o.select? c with
    | none => ⟨1, [], "nothing at '" ++ o.path.getD [] ++ "' in " ++ o.file ++ ['\n']⟩
    | some value => ⟨0, (if o.compact then value.compact else value.pretty) ++ ['\n'], []⟩

end CommandOptions

def runCommand (arguments : List Text) (files : FileSource) : CommandResult :=
  match CommandOptions.ofArguments? arguments with
  | none => ⟨2, [], "Usage: necl [OPTIONS] <FILE>\n"⟩
  | some o => o.run files

end BlockConfig
