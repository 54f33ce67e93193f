import BlockConfig.Evaluation
import BlockConfig.Line

set_option autoImplicit false

/-!
Reading a source line by line. What is read so far is a value, the state; a line takes it to the
next one or ends the reading with an error. A reader keeps its place after an error, so that
reading can go on behind it.
-/

namespace BlockConfig

structure Level where
  scope : Scope
  blocks : Table Block

structure OpenBlock where
  name : Text
  start : Nat
  level : Level

inductive Pending where
  | string (name : Text) (pieces : List Text)
  | array (name joined : Text) (start : Nat)

structure State where
  /-- Lines taken so far. -/
  line : Nat
  root : Level
  /-- The open blocks, innermost first. -/
  opened : List OpenBlock
  pending : Option Pending

namespace Level

def empty : Level := ⟨[], []⟩

/-- Enters the attribute that a name and the text of its value define; `start` is the first line
of the attribute. -/
def define (level : Level) (name raw : Text) (start : Nat) : Except Error Level :=
  match evaluate raw level.scope with
  | (.ok (kind, value), last) => .ok { level with scope := last.add ⟨name, kind, value⟩ }
  | (.error e, _) => .error (e.atLine start)

def defineString (level : Level) (name : Text) (pieces : List Text) : Level :=
  let joined := List.intercalate " ".toList pieces
  { level with scope := level.scope.add ⟨name, .string, .scalar (.string joined)⟩ }

end Level

def continues (line : Text) : Bool := line.getLast? == some '\\'

def stringPiece (line : Text) : Text :=
  let text := line.trim
  Text.unquote (((text.dropEnd? '\\').getD text).trim)

namespace State

def initial (line : Nat) : State := ⟨line, .empty, [], none⟩

def level (s : State) : Level :=
  match s.opened with
  | [] => s.root
  | b :: _ => b.level

def setLevel (s : State) (level : Level) : State :=
  match s.opened with
  | [] => { s with root := level }
  | b :: rest => { s with opened := { b with level := level } :: rest }

def openBlock (s : State) (name : Text) : State :=
  { s with opened := ⟨name, s.line, .empty⟩ :: s.opened }

def closeBlock (s : State) : Except Error State :=
  match s.opened with
  | [] => .error ⟨.unbalancedBraces "'\x7d' without a matching '\x7b'", s.line, none⟩
  | b :: rest =>
    let outer := { s with opened := rest }
    let block : Block := ⟨b.name, b.level.scope, b.level.blocks⟩
    .ok (outer.setLevel
      { outer.level with blocks := Table.insert outer.level.blocks b.name block })

/-- Takes the first line of an attribute. A line without an equals sign holds none. -/
def takeContent (s : State) (line : Text) : Except Error State :=
  match line.cut? "=" with
  | none => .ok s
  | some (front, back) =>
    let name := front.trim
    let raw := back.trim
    if name.isEmpty then
      .error ⟨.emptyAttributeName, s.line, some "Write attributes as: name = value"⟩
    else if continues raw then
      .ok { s with pending := some (.string name [stringPiece raw]) }
    else if raw.head? = some '[' ∧ ']' ∉ raw then
      .ok { s with pending := some (.array name raw s.line) }
    else (s.level.define name raw s.line).map s.setLevel

def takeLine (s : State) (line : Text) : Except Error State :=
  match LineShape.of line with
  | .blank => .ok s
  | .closing => s.closeBlock
  | .content => s.takeContent line
  | .opening name body =>
    if name.isEmpty then
      .error ⟨.emptyBlockName, s.line, some "Open blocks with: name \x7b"⟩
    else match body with
      | none => .ok (s.openBlock name)
      | some [] => (s.openBlock name).closeBlock
      | some content => .error ⟨.inlineContent name content, s.line,
          some "Put each attribute of the block on its own line"⟩

def takePending (s : State) (pending : Pending) (line : Text) : Except Error State :=
  match pending with
  | .string name pieces =>
    let all := pieces ++ [stringPiece line]
    if continues line.trim then .ok { s with pending := some (.string name all) }
    else .ok ({ s with pending := none }.setLevel (s.level.defineString name all))
  | .array name joined start =>
    let all := joined ++ ' ' :: line.trim
    if ']' ∈ line then
      (s.level.define name all start).map { s with pending := none }.setLevel
    else .ok { s with pending := some (.array name all start) }

def step (s : State) (line : Text) : Except Error State :=
  let s := { s with line := s.line + 1 }
  match s.pending with
  | some pending => s.takePending pending line
  | none => s.takeLine line

/-- What has been read when there is no more line. A string may end here, an array or a block may
not. -/
def finish (s : State) : Except Error Document :=
  match s.pending, s.opened with
  | some (.array _ joined start), _ => .error ⟨.unclassifiable joined, start,
      some "Multi-line array is missing its closing ']'"⟩
  | _, b :: _ => .error ⟨.unbalancedBraces ("block '" ++ b.name ++ "' is never closed"), b.start,
      some "Add a closing '\x7d'"⟩
  | some (.string name pieces), [] =>
    let level := s.root.defineString name pieces
    .ok ⟨level.scope, level.blocks⟩
  | none, [] => .ok ⟨s.root.scope, s.root.blocks⟩

end State

/-- A place in a source: the lines still to come, free of comments, and the number of lines
before them. -/
structure Reader where
  rest : List Text
  taken : Nat
  deriving DecidableEq

def State.run (s : State) : List Text → Except Error Document × Reader
  | [] => (s.finish, ⟨[], s.line⟩)
  | line :: rest =>
    match s.step line with
    | .ok next => next.run rest
    | .error e => (.error e, ⟨rest, s.line + 1⟩)

namespace Reader

def ofLines (lines : List Text) : Reader := ⟨lines.map stripComment, 0⟩

def ofSource (source : Text) : Reader := ofLines source.lines

def read (r : Reader) : Except Error Document × Reader := (State.initial r.taken).run r.rest

def readTimes (r : Reader) : Nat → List (Except Error Document)
  | 0 => []
  | n + 1 => r.read.1 :: r.read.2.readTimes n

end Reader

def Document.ofLines (lines : List Text) : Except Error Document := (Reader.ofLines lines).read.1

def Document.ofSource (source : Text) : Except Error Document := ofLines source.lines

end BlockConfig
