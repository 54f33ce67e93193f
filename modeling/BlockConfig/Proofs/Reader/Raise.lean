import BlockConfig.Proofs.Evaluation.Results
import BlockConfig.Reader.Progress

set_option autoImplicit false

/-!
Lines that come in between raise the lines of everything behind them, and change nothing else of
what the reader does.
-/

namespace BlockConfig

def raiseLine (after k line : Nat) : Nat := if after < line then line + k else line

def Error.raise (after k : Nat) (e : Error) : Error := { e with line := raiseLine after k e.line }

def OpenBlock.raise (after k : Nat) (b : OpenBlock) : OpenBlock :=
  { b with start := raiseLine after k b.start }

def Pending.raise (after k : Nat) : Pending → Pending
  | .string name pieces => .string name pieces
  | .array name joined start => .array name joined (raiseLine after k start)

theorem raiseLine_of_lt {after line : Nat} (h : after < line) (k : Nat) :
    raiseLine after k line = line + k := if_pos h

theorem raiseLine_of_le {after line : Nat} (h : line ≤ after) (k : Nat) :
    raiseLine after k line = line := if_neg (by omega)

theorem OpenBlock.raise_of_le {after : Nat} {b : OpenBlock} (h : b.start ≤ after) (k : Nat) :
    b.raise after k = b := by
  unfold raise
  rw [raiseLine_of_le h]

theorem Level.define_raiseLine (level : Level) (name raw : Text) (start after k : Nat) :
    level.define name raw (raiseLine after k start) =
      (level.define name raw start).mapError (Error.raise after k) := by
  unfold define
  rcases he : evaluate raw level.scope with ⟨result, last⟩
  cases result with
  | ok found => rfl
  | error e =>
    have hfails : (evaluate raw level.scope).1 = .error e := by rw [he]
    have hu := unplaced_of_evaluate hfails
    change Except.error (e.atLine _) = .error ((e.atLine start).raise after k)
    rw [hu.atLine, hu.atLine]
    rfl

namespace State

def raise (after k : Nat) (s : State) : State :=
  ⟨s.line + k, s.root, s.opened.map (OpenBlock.raise after k), s.pending.map (Pending.raise after k)⟩

def raiseResult (after k : Nat) : Except Error State → Except Error State
  | .ok s => .ok (s.raise after k)
  | .error e => .error (e.raise after k)

section Raise

variable (after k : Nat) (s : State)

@[simp] theorem raiseResult_ok : raiseResult after k (.ok s) = .ok (s.raise after k) := rfl

@[simp] theorem raiseResult_error (e : Error) :
    raiseResult after k (.error e) = .error (e.raise after k) := rfl

@[simp] theorem line_raise : (s.raise after k).line = s.line + k := rfl

@[simp] theorem level_raise : (s.raise after k).level = s.level := by
  unfold level raise
  cases s.opened <;> rfl

theorem setLevel_raise (level : Level) :
    (s.raise after k).setLevel level = (s.setLevel level).raise after k := by
  unfold setLevel raise
  cases s.opened <;> rfl

theorem map_setLevel_raise (result : Except Error Level) :
    (result.mapError (Error.raise after k)).map (s.raise after k).setLevel =
      raiseResult after k (result.map s.setLevel) := by
  cases result with
  | error e => rfl
  | ok level => exact congrArg Except.ok (setLevel_raise after k s level)

variable {after s}

theorem openBlock_raise (h : after < s.line) (name : Text) :
    (s.raise after k).openBlock name = (s.openBlock name).raise after k := by
  simp [openBlock, raise, OpenBlock.raise, raiseLine_of_lt h]

theorem closeBlock_raise (h : after < s.line) :
    (s.raise after k).closeBlock = raiseResult after k s.closeBlock := by
  unfold closeBlock
  cases hs : s.opened with
  | nil => simp [raise, hs, Error.raise, raiseLine_of_lt h]
  | cons b rest =>
    have houter : ({ s.raise after k with opened := rest.map (OpenBlock.raise after k) } : State) =
        ({ s with opened := rest } : State).raise after k := rfl
    have hopened : (s.raise after k).opened =
        b.raise after k :: rest.map (OpenBlock.raise after k) := by simp [raise, hs]
    simp only [hopened, houter, level_raise, setLevel_raise, raiseResult_ok, OpenBlock.raise]

theorem takeContent_raise (h : after < s.line) (line : Text) :
    (s.raise after k).takeContent line = raiseResult after k (s.takeContent line) := by
  unfold takeContent
  cases line.cut? "=" with
  | none => rfl
  | some parts =>
    obtain ⟨front, back⟩ := parts
    have hdefine := s.level.define_raiseLine front.trim back.trim s.line after k
    rw [raiseLine_of_lt h] at hdefine
    by_cases hname : front.trim.isEmpty
    · simp [hname, Error.raise, raiseLine_of_lt h]
    by_cases hcont : continues back.trim
    · simp [hname, hcont, raise, Pending.raise]
    by_cases harray : back.trim.head? = some '[' ∧ ']' ∉ back.trim
    · simp [hname, hcont, harray, raise, Pending.raise, raiseLine_of_lt h]
    · simp only [if_neg hname, if_neg hcont, if_neg harray, level_raise, line_raise, hdefine,
        map_setLevel_raise]

theorem takeLine_raise (h : after < s.line) (line : Text) :
    (s.raise after k).takeLine line = raiseResult after k (s.takeLine line) := by
  unfold takeLine
  cases LineShape.of line with
  | blank => rfl
  | closing => exact closeBlock_raise k h
  | content => exact takeContent_raise k h line
  | opening name body =>
    by_cases hname : name.isEmpty
    · simp [hname, Error.raise, raiseLine_of_lt h]
    cases body with
    | none => simp [hname, openBlock_raise k h]
    | some content =>
      cases content with
      | nil =>
        have hopen : after < (s.openBlock name).line := h
        simp [hname, openBlock_raise k h, closeBlock_raise k hopen]
      | cons c rest => simp [hname, Error.raise, raiseLine_of_lt h]

variable (after s)

theorem takePending_raise (pending : Pending) (line : Text) :
    (s.raise after k).takePending (pending.raise after k) line =
      raiseResult after k (s.takePending pending line) := by
  have hsettle : ({ s.raise after k with pending := none } : State) =
      ({ s with pending := none } : State).raise after k := rfl
  cases pending with
  | string name pieces =>
    simp only [takePending, Pending.raise, level_raise, hsettle, setLevel_raise]
    split <;> rfl
  | array name joined start =>
    simp only [takePending, Pending.raise, level_raise, Level.define_raiseLine, hsettle,
      map_setLevel_raise]
    split <;> rfl

variable {after s}

theorem step_raise (h : after ≤ s.line) (line : Text) :
    (s.raise after k).step line = raiseResult after k (s.step line) := by
  obtain ⟨count, root, opened, pending⟩ := s
  have hnext : count + k + 1 = count + 1 + k := by omega
  cases pending with
  | none =>
    have htake := takeLine_raise k (s := ⟨count + 1, root, opened, none⟩) (Nat.lt_succ_of_le h) line
    simpa [step, raise, hnext] using htake
  | some pending =>
    have htake := takePending_raise after k ⟨count + 1, root, opened, some pending⟩ pending line
    simpa [step, raise, hnext] using htake

theorem finish_raise : (s.raise after k).finish = s.finish.mapError (Error.raise after k) := by
  unfold finish raise
  cases s.opened with
  | nil =>
    cases s.pending with
    | none => rfl
    | some pending => cases pending <;> rfl
  | cons b rest =>
    cases s.pending with
    | none => rfl
    | some pending => cases pending <;> rfl

/-- The same lines denote the same, wherever they start, but for the lines of errors. -/
theorem run_raise (h : after ≤ s.line) (lines : List Text) :
    ((s.raise after k).run lines).1 = (s.run lines).1.mapError (Error.raise after k) := by
  induction lines generalizing s with
  | nil => exact finish_raise k
  | cons line rest ih =>
    simp only [run, step_raise k h]
    cases hs : s.step line with
    | error e => rfl
    | ok next =>
      have hline := line_of_step hs
      exact ih (by omega)

theorem run_initial (lines : List Text) :
    ((initial k).run lines).1 = ((initial 0).run lines).1.mapError (Error.raise 0 k) := by
  have hinitial : (initial 0).raise 0 k = initial k := by simp [initial, raise]
  rw [← hinitial]
  exact run_raise k (Nat.zero_le _) lines

theorem stepAll_raise (h : after ≤ s.line) (lines : List Text) :
    (s.raise after k).stepAll lines = raiseResult after k (s.stepAll lines) := by
  induction lines generalizing s with
  | nil => rfl
  | cons line rest ih =>
    simp only [stepAll, step_raise k h]
    cases hs : s.step line with
    | error e => rfl
    | ok next =>
      have hline := line_of_step hs
      exact ih (by omega)

end Raise

end State

end BlockConfig
