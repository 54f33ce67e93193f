import BlockConfig.Text.Basic

set_option autoImplicit false

namespace BlockConfig

inductive ReadFailure where
  | notFound
  | notADirectory
  | isADirectory
  | nameTooLong
  | notText
  | zeroByte
  deriving DecidableEq

def ReadFailure.message : ReadFailure → Text
  | .notFound => "No such file or directory (os error 2)"
  | .notADirectory => "Not a directory (os error 20)"
  | .isADirectory => "Is a directory (os error 21)"
  | .nameTooLong => "File name too long (os error 36)"
  | .notText => "stream did not contain valid UTF-8"
  | .zeroByte => "file name contained an unexpected NUL byte"

inductive FileNode where
  | file (content : ByteArray)
  | directory

def longestName : Nat := 255

/-- The most bytes that a whole path may have, its empty parts counted too. -/
def longestPath : Nat := 4095

def pathNames (path : Text) : List Text := (path.parts '/').filter fun p => p ≠ [] ∧ p ≠ "."

structure FileTree where
  entries : List (List Text × FileNode)

namespace FileTree

def empty : FileTree := ⟨[]⟩

def add (t : FileTree) (path : Text) (node : FileNode) : FileTree :=
  ⟨(pathNames path, node) :: t.entries⟩

/-- What the names lead to. What leads to an entry is a directory. -/
def node? (t : FileTree) (names : List Text) : Option FileNode :=
  match t.entries.find? fun e => e.1 == names with
  | some (_, node) => some node
  | none =>
    if t.entries.any fun e => names.isPrefixOf e.1 then some .directory else none

def walk (t : FileTree) (names : List Text) : List Text → Except ReadFailure FileNode
  | [] =>
    match t.node? names with
    | some node => .ok node
    | none => .error .notFound
  | part :: rest =>
    match t.node? names with
    | none => .error .notFound
    | some (.file _) => .error .notADirectory
    | some .directory =>
      if part = [] ∨ part = "." then t.walk names rest
      else if part = ".." then t.walk names.dropLast rest
      else if longestName < (String.ofList part).utf8ByteSize then .error .nameTooLong
      else t.walk (names ++ [part]) rest

/-- The text of the file at an absolute path. A path with a zero byte, or longer than
`longestPath`, is refused before any of its parts is looked up. -/
def read (t : FileTree) (path : Text) : Except ReadFailure Text := do
  if Char.ofNat 0 ∈ path then throw .zeroByte
  if longestPath < (String.ofList path).utf8ByteSize then throw .nameTooLong
  match ← t.walk [] (path.parts '/') with
  | .directory => throw .isADirectory
  | .file content =>
    match String.fromUTF8? content with
    | some s => return s.toList
    | none => throw .notText

end FileTree
end BlockConfig
