import BlockConfig.Reader

set_option autoImplicit false

/-!
The source as a grammar, read by recursive descent: a document is a sequence of items, and a block
is an item that holds a sequence of items up to its own closing brace. The reader, which takes the
same lines in one pass with a stack of open blocks, denotes the same documents and the same errors.
-/

namespace BlockConfig

namespace Level

def enter (level : Level) (name : Text) (inner : Level) : Level :=
  { level with blocks := Table.insert level.blocks name ⟨name, inner.scope, inner.blocks⟩ }

/-- Puts a value under a name, in the scope that evaluating it has left. -/
def assign (level : Level) (last : Scope) (name : Text) (kind : Kind) (value : Value) : Level :=
  { level with scope := Table.insert last name ⟨name, kind, value⟩ }

end Level

def stringLines : List Text → List Text
  | [] => []
  | line :: rest =>
    if continues line.trim then stringPiece line :: stringLines rest else [stringPiece line]

/-- The text of an array up to the first line with a closing bracket, and the number of lines it
takes; the text up to the end if no line has one. -/
def arrayLines (joined : Text) : List Text → Except Text (Text × Nat)
  | [] => .error joined
  | line :: rest =>
    let all := joined ++ ' ' :: line.trim
    if ']' ∈ line then .ok (all, 1)
    else (arrayLines all rest).map fun (text, n) => (text, n + 1)

def valueText (start : Nat) (raw : Text) (rest : List Text) : Except Error (Text × Nat) :=
  if raw.head? = some '[' ∧ ']' ∉ raw then
    match arrayLines raw rest with
    | .ok found => .ok found
    | .error all => .error ⟨.unclassifiable all, start,
        some "Multi-line array is missing its closing ']'"⟩
  else .ok (raw, 0)

/-- Reads the attribute that starts on the line `start` into the level it stands in, and counts the
lines of `rest` that go on with it. -/
def readAttribute (level : Level) (start : Nat) (line : Text) (rest : List Text) :
    Except Error (Level × Nat) :=
  match line.cut? "=" with
  | none => .ok (level, 0)
  | some (front, back) =>
    let name := front.trim
    let raw := back.trim
    if name.isEmpty then
      .error ⟨.emptyAttributeName, start, some "Write attributes as: name = value"⟩
    else if continues raw then
      let more := stringLines rest
      let joined := List.intercalate " ".toList (stringPiece raw :: more)
      .ok (level.assign level.scope name .string (.scalar (.string joined)), more.length)
    else
      match valueText start raw rest with
      | .error e => .error e
      | .ok (text, n) =>
        match evaluate text level.scope with
        | (.ok (kind, value), last) => .ok (level.assign last name kind value, n)
        | (.error e, _) => .error (e.atLine start)

/-- The reader defines a name as the grammar assigns it what its text evaluates to. -/
theorem Level.define_eq (level : Level) (name raw : Text) (start : Nat) :
    level.define name raw start =
      match evaluate raw level.scope with
      | (.ok (kind, value), last) => .ok (level.assign last name kind value)
      | (.error e, _) => .error (e.atLine start) := rfl

theorem Level.defineString_eq (level : Level) (name : Text) (pieces : List Text) :
    level.defineString name pieces = level.assign level.scope name .string
      (.scalar (.string (List.intercalate " ".toList pieces))) := rfl

theorem readAttribute_eq (level : Level) (start : Nat) (line : Text) (rest : List Text) :
    readAttribute level start line rest =
      match line.cut? "=" with
      | none => .ok (level, 0)
      | some (front, back) =>
        if front.trim.isEmpty then
          .error ⟨.emptyAttributeName, start, some "Write attributes as: name = value"⟩
        else if continues back.trim then
          .ok (level.defineString front.trim (stringPiece back.trim :: stringLines rest),
            (stringLines rest).length)
        else
          match valueText start back.trim rest with
          | .error e => .error e
          | .ok (text, n) => (level.define front.trim text start).map fun next => (next, n) := by
  unfold readAttribute
  cases line.cut? "=" with
  | none => rfl
  | some parts =>
    obtain ⟨front, back⟩ := parts
    by_cases hname : front.trim.isEmpty
    · simp only [if_pos hname]
    by_cases hcont : continues back.trim
    · simp only [if_neg hname, if_pos hcont, Level.defineString_eq]
    simp only [if_neg hname, if_neg hcont]
    cases valueText start back.trim rest with
    | error e => rfl
    | ok found =>
      simp only [Level.define_eq]
      rcases evaluate found.1 level.scope with ⟨result, last⟩
      cases result <;> rfl

def skipping (k : Nat) (result : Except Error (Level × Nat)) : Except Error (Level × Nat) :=
  result.map fun (last, n) => (last, k + n)

@[simp] theorem skipping_error (k : Nat) (e : Error) : skipping k (.error e) = .error e := rfl

@[simp] theorem skipping_ok (k n : Nat) (last : Level) :
    skipping k (.ok (last, n)) = .ok (last, k + n) := rfl

/-- Reads items into a level, `taken` lines into the source: those of the block `outer`, given by
its name and its first line, up to and with its closing brace, or those of the document up to the
end. Counts the lines it takes. -/
def readItems (outer : Option (Text × Nat)) (level : Level) (taken : Nat) (lines : List Text) :
    Except Error (Level × Nat) :=
  match lines with
  | [] =>
    match outer with
    | none => .ok (level, 0)
    | some (name, start) => .error ⟨.unbalancedBraces ("block '" ++ name ++ "' is never closed"),
        start, some "Add a closing '\x7d'"⟩
  | line :: rest =>
    match LineShape.of line with
    | .blank => skipping 1 (readItems outer level (taken + 1) rest)
    | .closing =>
      match outer with
      | none =>
        .error ⟨.unbalancedBraces "'\x7d' without a matching '\x7b'", taken + 1, none⟩
      | some _ => .ok (level, 1)
    | .content =>
      match readAttribute level (taken + 1) line rest with
      | .error e => .error e
      | .ok (next, k) =>
        skipping (1 + k) (readItems outer next (taken + 1 + k) (rest.drop k))
    | .opening name body =>
      if name.isEmpty then
        .error ⟨.emptyBlockName, taken + 1, some "Open blocks with: name \x7b"⟩
      else match body with
        | some [] => skipping 1 (readItems outer (level.enter name .empty) (taken + 1) rest)
        | some content => .error ⟨.inlineContent name content, taken + 1,
            some "Put each attribute of the block on its own line"⟩
        | none =>
          match readItems (some (name, taken + 1)) .empty (taken + 1) rest with
          | .error e => .error e
          | .ok (inner, k) =>
            skipping (1 + k)
              (readItems outer (level.enter name inner) (taken + 1 + k) (rest.drop k))
termination_by lines.length
decreasing_by all_goals simp only [List.length_drop, List.length_cons]; omega

def Document.ofItems (lines : List Text) : Except Error Document :=
  (readItems none .empty 0 lines).map fun (level, _) => ⟨level.scope, level.blocks⟩

section Items

variable {outer : Option (Text × Nat)} {level : Level} {taken : Nat} {line : Text}
  {rest : List Text}

theorem readItems_of_blank (h : LineShape.of line = .blank) :
    readItems outer level taken (line :: rest) =
      skipping 1 (readItems outer level (taken + 1) rest) := by
  rw [readItems.eq_def]
  simp only [h]

theorem readItems_of_closing (h : LineShape.of line = .closing) :
    readItems outer level taken (line :: rest) =
      match outer with
      | none => .error ⟨.unbalancedBraces "'\x7d' without a matching '\x7b'", taken + 1, none⟩
      | some _ => .ok (level, 1) := by
  rw [readItems.eq_def]
  simp only [h]

theorem readItems_of_content (h : LineShape.of line = .content) :
    readItems outer level taken (line :: rest) =
      match readAttribute level (taken + 1) line rest with
      | .error e => .error e
      | .ok (next, k) =>
        skipping (1 + k) (readItems outer next (taken + 1 + k) (rest.drop k)) := by
  rw [readItems.eq_def]
  simp only [h]

theorem readItems_of_emptyName {name : Text} {body : Option Text}
    (h : LineShape.of line = .opening name body) (hn : name.isEmpty = true) :
    readItems outer level taken (line :: rest) =
      .error ⟨.emptyBlockName, taken + 1, some "Open blocks with: name \x7b"⟩ := by
  rw [readItems.eq_def]
  simp only [h, if_pos hn]

theorem readItems_of_bothBraces {name : Text} (h : LineShape.of line = .opening name (some []))
    (hn : ¬ name.isEmpty = true) :
    readItems outer level taken (line :: rest) =
      skipping 1 (readItems outer (level.enter name .empty) (taken + 1) rest) := by
  rw [readItems.eq_def]
  simp only [h, if_neg hn]

theorem readItems_of_inlineContent {name content : Text}
    (h : LineShape.of line = .opening name (some content)) (hn : ¬ name.isEmpty = true)
    (hc : content ≠ []) :
    readItems outer level taken (line :: rest) =
      .error ⟨.inlineContent name content, taken + 1,
        some "Put each attribute of the block on its own line"⟩ := by
  rw [readItems.eq_def]
  cases content with
  | nil => exact absurd rfl hc
  | cons c more => simp only [h, if_neg hn]

theorem readItems_of_block {name : Text} (h : LineShape.of line = .opening name none)
    (hn : ¬ name.isEmpty = true) :
    readItems outer level taken (line :: rest) =
      match readItems (some (name, taken + 1)) .empty (taken + 1) rest with
      | .error e => .error e
      | .ok (inner, k) =>
        skipping (1 + k)
          (readItems outer (level.enter name inner) (taken + 1 + k) (rest.drop k)) := by
  rw [readItems.eq_def]
  simp only [h, if_neg hn]

end Items

namespace State

def outer? (s : State) : Option (Text × Nat) := s.opened.head?.map fun b => (b.name, b.start)

def atLine (s : State) (line : Nat) : State := { s with line := line }

def awaiting (s : State) (pending : Pending) : State := { s with pending := some pending }

/-- The state behind the items of its level, which is then `last`, at line `taken`; none outside
every block. -/
def leave? (s : State) (last : Level) (taken : Nat) : Option State :=
  match s.opened with
  | [] => none
  | b :: rest =>
    let up : State := { s with opened := rest, line := taken }
    some (up.setLevel (up.level.enter b.name last))

def resume (s : State) (taken : Nat) (lines : List Text) :
    Except Error (Level × Nat) → Except Error Document
  | .error e => .error e
  | .ok (last, n) =>
    match s.leave? last (taken + n) with
    | none => .ok ⟨last.scope, last.blocks⟩
    | some up => (up.run (lines.drop n)).1

@[simp] theorem level_setLevel (s : State) (level : Level) : (s.setLevel level).level = level := by
  unfold setLevel State.level
  cases s.opened <;> rfl

@[simp] theorem outer?_setLevel (s : State) (level : Level) :
    (s.setLevel level).outer? = s.outer? := by
  unfold setLevel outer?
  cases s.opened <;> rfl

@[simp] theorem pending_setLevel (s : State) (level : Level) :
    (s.setLevel level).pending = s.pending := by
  unfold setLevel
  cases s.opened <;> rfl

@[simp] theorem level_atLine (s : State) (line : Nat) : (s.atLine line).level = s.level := rfl

@[simp] theorem outer?_atLine (s : State) (line : Nat) : (s.atLine line).outer? = s.outer? := rfl

@[simp] theorem pending_atLine (s : State) (line : Nat) : (s.atLine line).pending = s.pending := rfl

@[simp] theorem line_atLine (s : State) (line : Nat) : (s.atLine line).line = line := rfl

@[simp] theorem atLine_atLine (s : State) (m n : Nat) : (s.atLine m).atLine n = s.atLine n := rfl

@[simp] theorem level_awaiting (s : State) (p : Pending) : (s.awaiting p).level = s.level := rfl

theorem setLevel_atLine (s : State) (line : Nat) (level : Level) :
    (s.atLine line).setLevel level = (s.setLevel level).atLine line := by
  unfold setLevel atLine
  cases s.opened <;> rfl

theorem settle_awaiting {s : State} (hs : s.pending = none) (p : Pending) :
    ({ s.awaiting p with pending := none } : State) = s := by
  cases s
  simp_all [awaiting]

theorem step_awaiting_string {s : State} (hs : s.pending = none) (name : Text)
    (pieces : List Text) (line : Text) :
    (s.awaiting (.string name pieces)).step line =
      .ok (if continues line.trim then
        (s.atLine (s.line + 1)).awaiting (.string name (pieces ++ [stringPiece line]))
      else (s.setLevel (s.level.defineString name (pieces ++ [stringPiece line]))).atLine
        (s.line + 1)) := by
  have h := settle_awaiting (s := s.atLine (s.line + 1)) hs (.string name pieces)
  rw [← setLevel_atLine, ← h]
  by_cases hc : continues line.trim <;> simp [step, takePending, awaiting, atLine, level, hc]

theorem step_awaiting_array {s : State} (hs : s.pending = none) (name joined : Text)
    (start : Nat) (line : Text) :
    (s.awaiting (.array name joined start)).step line =
      if ']' ∈ line then
        (s.level.define name (joined ++ ' ' :: line.trim) start).map
          (s.atLine (s.line + 1)).setLevel
      else .ok ((s.atLine (s.line + 1)).awaiting
        (.array name (joined ++ ' ' :: line.trim) start)) := by
  have h := settle_awaiting (s := s.atLine (s.line + 1)) hs (.array name joined start)
  rw [← h]
  by_cases hc : ']' ∈ line <;> simp [step, takePending, awaiting, atLine, level, hc]

@[simp] theorem resume_error (s : State) (taken : Nat) (lines : List Text) (e : Error) :
    s.resume taken lines (.error e) = .error e := rfl

@[simp] theorem resume_atLine (s : State) (line : Nat) : (s.atLine line).resume = s.resume := rfl

@[simp] theorem resume_setLevel (s : State) (level : Level) :
    (s.setLevel level).resume = s.resume := by
  funext taken lines result
  cases hs : s.opened <;> cases result <;> simp [resume, leave?, setLevel, hs]

theorem resume_skipping (s : State) (taken k : Nat) (lines : List Text)
    (result : Except Error (Level × Nat)) :
    s.resume taken lines (skipping k result) = s.resume (taken + k) (lines.drop k) result := by
  cases result with
  | error e => rfl
  | ok found =>
    obtain ⟨last, n⟩ := found
    simp [resume, Nat.add_assoc]

/-- A string that is pending takes its lines one by one, the grammar takes them at once. -/
theorem run_string {s : State} (hs : s.pending = none) (name : Text) (pieces rest : List Text) :
    ((s.awaiting (.string name pieces)).run rest).1 =
      (((s.setLevel (s.level.defineString name (pieces ++ stringLines rest))).atLine
        (s.line + (stringLines rest).length)).run (rest.drop (stringLines rest).length)).1 := by
  induction rest generalizing s pieces with
  | nil =>
    cases ho : s.opened with
    | nil => simp [run, finish, stringLines, setLevel, State.level, atLine, awaiting, ho, hs]
    | cons b outer => simp [run, finish, stringLines, setLevel, atLine, awaiting, ho, hs]
  | cons line rest ih =>
    simp only [run, step_awaiting_string hs, stringLines]
    by_cases hc : continues line.trim
    · have hi := ih (s := s.atLine (s.line + 1)) hs (pieces ++ [stringPiece line])
      have hl : s.line + 1 + (stringLines rest).length =
          s.line + ((stringLines rest).length + 1) := by omega
      simp only [hc, if_true, List.length_cons, List.drop_succ_cons]
      rw [hi]
      simp [setLevel_atLine, hl]
    · simp [hc]

theorem run_array {s : State} (hs : s.pending = none) (name joined : Text) (start : Nat)
    (rest : List Text) :
    ((s.awaiting (.array name joined start)).run rest).1 =
      match arrayLines joined rest with
      | .error all => .error ⟨.unclassifiable all, start,
          some "Multi-line array is missing its closing ']'"⟩
      | .ok (all, n) =>
        match s.level.define name all start with
        | .error e => .error e
        | .ok next => (((s.setLevel next).atLine (s.line + n)).run (rest.drop n)).1 := by
  induction rest generalizing s joined with
  | nil => simp [run, finish, arrayLines, awaiting]
  | cons line rest ih =>
    simp only [run, step_awaiting_array hs, arrayLines]
    by_cases hc : ']' ∈ line
    · simp only [hc, if_true]
      cases s.level.define name (joined ++ ' ' :: line.trim) start with
      | error e => simp [Except.map]
      | ok next => simp [Except.map, setLevel_atLine]
    · have hi := ih (s := s.atLine (s.line + 1)) hs (joined ++ ' ' :: line.trim)
      simp only [hc, if_false]
      rw [hi]
      cases arrayLines (joined ++ ' ' :: line.trim) rest with
      | error all => simp [Except.map]
      | ok found =>
        have hl : s.line + 1 + found.2 = s.line + (found.2 + 1) := by omega
        simp [Except.map, setLevel_atLine, hl]

theorem setLevel_level (s : State) : s.setLevel s.level = s := by
  unfold setLevel level
  cases s with
  | mk line root opened pending => cases opened <;> rfl

theorem setLevel_atLine_line (s : State) (level : Level) :
    (s.setLevel level).atLine s.line = s.setLevel level := by
  rw [← setLevel_atLine]
  rfl

theorem run_content {s : State} (hs : s.pending = none) (line : Text) (rest : List Text) :
    (match s.takeContent line with
      | .error e => Except.error e
      | .ok next => (next.run rest).1) =
      match readAttribute s.level s.line line rest with
      | .error e => .error e
      | .ok (next, k) => (((s.setLevel next).atLine (s.line + k)).run (rest.drop k)).1 := by
  rw [readAttribute_eq]
  unfold takeContent
  cases line.cut? "=" with
  | none =>
    simp only [Nat.add_zero, List.drop_zero, setLevel_atLine_line]
    rw [setLevel_level]
  | some parts =>
    obtain ⟨front, back⟩ := parts
    by_cases hname : front.trim.isEmpty
    · simp only [if_pos hname]
    by_cases hcont : continues back.trim
    · simp only [if_neg hname, if_pos hcont]
      exact run_string hs front.trim [stringPiece back.trim] rest
    by_cases harray : back.trim.head? = some '[' ∧ ']' ∉ back.trim
    · simp only [if_neg hname, if_neg hcont, valueText, if_pos harray]
      have h := run_array hs front.trim back.trim s.line rest
      rw [awaiting] at h
      rw [h]
      cases arrayLines back.trim rest with
      | error all => rfl
      | ok found =>
        obtain ⟨all, n⟩ := found
        cases hd : s.level.define front.trim all s.line <;> simp [hd, Except.map]
    · simp only [if_neg hname, if_neg hcont, valueText, if_neg harray]
      cases s.level.define front.trim back.trim s.line with
      | error e => rfl
      | ok next => simp [Except.map, setLevel_atLine_line]

theorem run_cons {s : State} (hs : s.pending = none) (line : Text) (rest : List Text) :
    (s.run (line :: rest)).1 =
      match (s.atLine (s.line + 1)).takeLine line with
      | .error e => .error e
      | .ok next => (next.run rest).1 := by
  have hstep : s.step line = (s.atLine (s.line + 1)).takeLine line := by simp [step, atLine, hs]
  rw [run, hstep]
  cases (s.atLine (s.line + 1)).takeLine line <;> rfl

theorem closeBlock_eq (s : State) :
    s.closeBlock =
      match s.leave? s.level s.line with
      | some next => .ok next
      | none => .error ⟨.unbalancedBraces "'\x7d' without a matching '\x7b'", s.line, none⟩ := by
  unfold closeBlock leave? Level.enter
  cases hs : s.opened with
  | nil => rfl
  | cons b rest => simp [level, hs]

theorem leave?_openBlock (s : State) (name : Text) (inner : Level) (taken : Nat) :
    (s.openBlock name).leave? inner taken =
      some ((s.setLevel (s.level.enter name inner)).atLine taken) := by
  rw [← setLevel_atLine]
  rfl

theorem closeBlock_openBlock (s : State) (name : Text) :
    (s.openBlock name).closeBlock = .ok (s.setLevel (s.level.enter name .empty)) := by
  have hl : (s.openBlock name).level = .empty := rfl
  have ht : (s.openBlock name).line = s.line := rfl
  rw [closeBlock_eq, hl, ht, leave?_openBlock, setLevel_atLine_line]

/-- Going on with the lines is reading all items of the level and going on behind them. -/
theorem run_items {s : State} (hs : s.pending = none) (lines : List Text) :
    (s.run lines).1 =
      s.resume s.line lines (readItems s.outer? s.level s.line lines) := by
  generalize ho : s.outer? = outer
  generalize hl : s.level = level
  generalize ht : s.line = taken
  induction outer, level, taken, lines using readItems.induct generalizing s with
  | case1 level taken =>
    have : s.opened = [] := by simpa [outer?] using ho
    subst hl
    simp [readItems, run, finish, resume, leave?, this, hs, State.level]
  | case2 level taken name start =>
    cases hb : s.opened with
    | nil => simp [outer?, hb] at ho
    | cons b rest =>
      simp only [outer?, hb, List.head?_cons, Option.map_some, Option.some.injEq,
        Prod.mk.injEq] at ho
      simp [readItems, run, finish, hs, hb, ho]
  | case3 outer level taken line rest hshape ih =>
    have hi := ih (s := s.atLine (taken + 1)) hs ho hl rfl
    rw [run_cons hs, takeLine, readItems_of_blank hshape, resume_skipping]
    simpa [hshape, ht] using hi
  | case4 level taken line rest hshape =>
    have : s.opened = [] := by simpa [outer?] using ho
    rw [run_cons hs, takeLine, readItems_of_closing hshape]
    simp [hshape, closeBlock, atLine, this, ht]
  | case5 level taken line rest hshape opened =>
    rw [run_cons hs, takeLine, readItems_of_closing hshape]
    have hleave : (s.atLine (taken + 1)).leave? level (taken + 1) = s.leave? level (taken + 1) := rfl
    simp only [hshape, ht, closeBlock_eq, level_atLine, line_atLine, hl, hleave, resume]
    cases hopened : s.opened with
    | nil => simp [outer?, hopened] at ho
    | cons b outer => simp [leave?, hopened]
  | case6 outer level taken line rest hshape e he =>
    have hc := run_content (s := s.atLine (taken + 1)) hs line rest
    rw [run_cons hs, takeLine, readItems_of_content hshape]
    simp only [level_atLine, line_atLine, hl, he] at hc
    simpa [hshape, ht, he] using hc
  | case7 outer level taken line rest hshape next k hk ih =>
    have hc := run_content (s := s.atLine (taken + 1)) hs line rest
    have hi := ih (s := (s.setLevel next).atLine (taken + 1 + k)) (by simpa using hs)
      (by simpa using ho) (by simp) rfl
    rw [run_cons hs, takeLine, readItems_of_content hshape]
    simp only [level_atLine, line_atLine, hl, hk, setLevel_atLine, atLine_atLine, hi] at hc
    simp only [hshape, ht, hc, hk, resume_skipping]
    simp [Nat.add_assoc, Nat.add_comm 1]
  | case8 outer level taken line rest name body hshape hname =>
    rw [run_cons hs, takeLine, readItems_of_emptyName hshape hname]
    simp [hshape, hname, ht]
  | case9 outer level taken line rest name hname hshape ih =>
    have hi := ih (s := (s.setLevel (level.enter name .empty)).atLine (taken + 1))
      (by simpa using hs) (by simpa using ho) (by simp) rfl
    rw [run_cons hs, takeLine, readItems_of_bothBraces hshape hname, resume_skipping]
    simp only [hshape, if_neg hname, ht, closeBlock_openBlock, level_atLine, hl, setLevel_atLine]
    simpa using hi
  | case10 outer level taken line rest name hname content hne hshape =>
    rw [run_cons hs, takeLine, readItems_of_inlineContent hshape hname hne]
    simp [hshape, hname, ht]
  | case11 outer level taken line rest name hname e he hshape ih =>
    have hi := ih (s := (s.atLine (taken + 1)).openBlock name) hs rfl rfl rfl
    rw [run_cons hs, takeLine, readItems_of_block hshape hname]
    simpa [hshape, hname, ht, he] using hi
  | case12 outer level taken line rest name hname inner k hk hshape ih₁ ih₂ =>
    have hi := ih₁ (s := (s.atLine (taken + 1)).openBlock name) hs rfl rfl rfl
    have hj := ih₂ (s := (s.setLevel (level.enter name inner)).atLine (taken + 1 + k))
      (by simpa using hs) (by simpa using ho) (by simp) rfl
    rw [run_cons hs, takeLine, readItems_of_block hshape hname]
    simp only [hk, resume, leave?_openBlock, setLevel_atLine, level_atLine, hl] at hi
    simp only [hshape, if_neg hname, ht, hk, hi, resume_skipping]
    simpa [Nat.add_assoc, Nat.add_comm 1] using hj

end State

/-- Reading lines in one pass is reading them by recursive descent, errors included. -/
theorem ofLines_eq_ofItems (lines : List Text) :
    Document.ofLines lines = Document.ofItems (lines.map stripComment) := by
  have h := State.run_items (s := State.initial 0) rfl (lines.map stripComment)
  unfold Document.ofLines Reader.ofLines Reader.read Document.ofItems
  rw [h]
  change State.resume _ 0 _ (readItems none .empty 0 _) = _
  cases readItems none .empty 0 (lines.map stripComment) <;> rfl

end BlockConfig
