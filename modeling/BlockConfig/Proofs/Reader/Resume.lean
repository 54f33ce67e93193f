import BlockConfig.Proofs.Reader.Failure

set_option autoImplicit false

namespace BlockConfig

namespace State

theorem line_le_taken_run (s : State) (lines : List Text) : s.line ≤ (s.run lines).2.taken := by
  have hcount := taken_add_length_rest_run s lines
  have hrest := (rest_run_suffix s lines).length_le
  omega

theorem line_lt_taken_run (s : State) (line : Text) (rest : List Text) :
    s.line < (s.run (line :: rest)).2.taken := by
  rw [run]
  cases hs : s.step line with
  | error e => exact Nat.lt_succ_self _
  | ok next =>
    have hnext := line_le_taken_run next rest
    rw [line_of_step hs] at hnext
    exact hnext

theorem rest_run_of_ok {s : State} {lines : List Text} {d : Document}
    (h : (s.run lines).1 = .ok d) : (s.run lines).2.rest = [] := by
  induction lines generalizing s with
  | nil => rfl
  | cons line rest ih =>
    rw [run] at h ⊢
    cases hs : s.step line with
    | error e => simp [hs] at h
    | ok next =>
      simp only [hs] at h ⊢
      exact ih h

end State

namespace Reader

def afterReads (r : Reader) : Nat → Reader
  | 0 => r
  | n + 1 => r.read.2.afterReads n

/-- Errors, then a document, then empty documents, `times` of them. -/
def draining (errors : List Error) (d : Document) (times : Nat) : List (Except Error Document) :=
  errors.map .error ++ .ok d :: List.replicate times (.ok .empty)

theorem draining_prefix_succ (errors : List Error) (d : Document) (times : Nat) :
    draining errors d times <+: draining errors d (times + 1) := by
  unfold draining
  rw [List.replicate_succ', ← List.cons_append, ← List.append_assoc]
  exact List.prefix_append _ _

structure Behind (r : Reader) (lines : List Text) : Prop where
  taken_le : r.taken ≤ lines.length
  rest_eq : r.rest = (lines.drop r.taken).map stripComment

/-- The next reading takes the lines that are left as a document of their own, but that the lines
of errors are counted from the beginning. An error takes a line, a document takes all of them. -/
structure ReadsOn (r : Reader) (lines : List Text) : Prop extends r.Behind lines where
  read_eq : r.read.1 =
    (Document.ofLines (lines.drop r.taken)).mapError fun e => { e with line := e.line + r.taken }
  taken_lt : ∀ e, r.read.1 = .error e → r.taken < r.read.2.taken
  drained : ∀ d, r.read.1 = .ok d → r.read.2 = ⟨[], lines.length⟩

section Read

variable {r : Reader} {lines : List Text}

theorem behind_ofLines (lines : List Text) : (ofLines lines).Behind lines :=
  ⟨Nat.zero_le _, rfl⟩

theorem Behind.taken_add_length_rest (h : r.Behind lines) :
    r.taken + r.rest.length = lines.length := by
  have hle := h.taken_le
  rw [h.rest_eq, List.length_map, List.length_drop]
  omega

theorem taken_add_length_rest_read (r : Reader) :
    r.read.2.taken + r.read.2.rest.length = r.taken + r.rest.length :=
  State.taken_add_length_rest_run (State.initial r.taken) r.rest

theorem Behind.read (h : r.Behind lines) : r.read.2.Behind lines := by
  have hbefore := h.taken_add_length_rest
  have hafter := taken_add_length_rest_read r
  have hsuffix : r.read.2.rest <:+ r.rest := State.rest_run_suffix (State.initial r.taken) r.rest
  have hle := hsuffix.length_le
  refine ⟨by omega, ?_⟩
  have hcount : r.taken + (r.rest.length - r.read.2.rest.length) = r.read.2.taken := by omega
  calc r.read.2.rest
      = r.rest.drop (r.rest.length - r.read.2.rest.length) := List.suffix_iff_eq_drop.1 hsuffix
    _ = ((lines.drop r.taken).drop (r.rest.length - r.read.2.rest.length)).map stripComment := by
      rw [List.map_drop, ← h.rest_eq]
    _ = (lines.drop r.read.2.taken).map stripComment := by rw [List.drop_drop, hcount]

theorem Behind.afterReads (h : r.Behind lines) (n : Nat) : (r.afterReads n).Behind lines := by
  induction n generalizing r with
  | zero => exact h
  | succ n ih => exact ih h.read

theorem taken_lt_of_read_error {e : Error} (h : r.read.1 = .error e) :
    r.taken < r.read.2.taken := by
  obtain ⟨rest, taken⟩ := r
  cases rest with
  | nil => cases h
  | cons line rest => exact State.line_lt_taken_run (State.initial taken) line rest

theorem Behind.read_eq (h : r.Behind lines) :
    r.read.1 = (Document.ofLines (lines.drop r.taken)).mapError
      fun e => { e with line := e.line + r.taken } := by
  have hraise := State.run_initial r.taken r.rest
  rw [h.rest_eq] at hraise
  have hread : r.read.1 =
      (Document.ofLines (lines.drop r.taken)).mapError (Error.raise 0 r.taken) := by
    rw [Reader.read, h.rest_eq]
    exact hraise
  rw [hread]
  cases hdoc : Document.ofLines (lines.drop r.taken) with
  | ok d => rfl
  | error e =>
    simp only [Except.mapError, Error.raise, raiseLine_of_lt (located_of_ofLines hdoc).line_pos]

theorem Behind.readsOn (h : r.Behind lines) : r.ReadsOn lines where
  toBehind := h
  read_eq := h.read_eq
  taken_lt _ he := taken_lt_of_read_error he
  drained _ hd := by
    have hrest : r.read.2.rest = [] := State.rest_run_of_ok hd
    have hcount := h.read.taken_add_length_rest
    rw [hrest, List.length_nil, Nat.add_zero] at hcount
    rw [← hrest, ← hcount]

theorem readTimes_eq_map_range (r : Reader) (times : Nat) :
    r.readTimes times = (List.range times).map fun i => (r.afterReads i).read.1 := by
  induction times generalizing r with
  | zero => rfl
  | succ n ih =>
    rw [readTimes, ih, List.range_succ_eq_map, List.map_cons, List.map_map]
    rfl

theorem readTimes_of_rest_nil (h : r.rest = []) (times : Nat) :
    r.readTimes times = List.replicate times (.ok .empty) := by
  obtain ⟨rest, taken⟩ := r
  subst h
  induction times with
  | zero => rfl
  | succ n ih => exact congrArg (_ :: ·) ih

theorem exists_readTimes_prefix (r : Reader) :
    ∃ (errors : List Error) (d : Document), errors.length ≤ r.rest.length ∧ ∀ times,
      r.readTimes times <+: draining errors d times := by
  -- an error leaves fewer lines
  induction hlength : r.rest.length using Nat.strongRecOn generalizing r with
  | ind count ih =>
    cases hread : r.read.1 with
    | ok d =>
      have hrest : r.read.2.rest = [] := State.rest_run_of_ok hread
      refine ⟨[], d, Nat.zero_le _, fun times => ?_⟩
      cases times with
      | zero => exact List.nil_prefix
      | succ n =>
        rw [readTimes, hread, readTimes_of_rest_nil hrest]
        exact draining_prefix_succ [] d n
    | error e =>
      have htaken := taken_lt_of_read_error hread
      have hcount := taken_add_length_rest_read r
      obtain ⟨errors, d, hle, hbegins⟩ := ih r.read.2.rest.length (by omega) r.read.2 rfl
      refine ⟨e :: errors, d, by rw [List.length_cons]; omega, fun times => ?_⟩
      cases times with
      | zero => exact List.nil_prefix
      | succ n =>
        rw [readTimes, hread, draining, List.map_cons, List.cons_append, List.cons_prefix_cons]
        exact ⟨rfl, (hbegins n).trans (draining_prefix_succ errors d n)⟩

end Read

/-- Read on and on, lines yield errors, at most as many as they are, then a document, then nothing
but empty documents; and each reading takes what those before it have left. -/
theorem readTimes_ofLines (lines : List Text) :
    (∃ (errors : List Error) (d : Document), errors.length ≤ lines.length ∧ ∀ times,
      (ofLines lines).readTimes times <+: draining errors d times) ∧
    (∀ times, (ofLines lines).readTimes times =
      (List.range times).map fun i => ((ofLines lines).afterReads i).read.1) ∧
    ∀ i, ((ofLines lines).afterReads i).ReadsOn lines := by
  refine ⟨?_, readTimes_eq_map_range _, fun i => ((behind_ofLines lines).afterReads i).readsOn⟩
  obtain ⟨errors, d, hle, hbegins⟩ := exists_readTimes_prefix (ofLines lines)
  rw [ofLines, List.length_map] at hle
  exact ⟨errors, d, hle, hbegins⟩

end Reader

end BlockConfig
