import BlockConfig.Reader

set_option autoImplicit false

namespace BlockConfig

namespace State

@[simp] theorem line_setLevel (s : State) (level : Level) : (s.setLevel level).line = s.line := by
  unfold setLevel
  split <;> rfl

theorem line_of_map_setLevel {s next : State} {result : Except Error Level}
    (h : result.map s.setLevel = .ok next) : next.line = s.line := by
  cases result with
  | error e => simp [Except.map] at h
  | ok level =>
    simp only [Except.map, Except.ok.injEq] at h
    simp [← h]

theorem line_of_closeBlock {s next : State} (h : s.closeBlock = .ok next) :
    next.line = s.line := by
  unfold closeBlock at h
  split at h
  · simp at h
  · simp only [Except.ok.injEq] at h
    simp [← h]

theorem line_of_takeContent {s next : State} {line : Text} (h : s.takeContent line = .ok next) :
    next.line = s.line := by
  unfold takeContent at h
  split at h
  · simp_all
  · simp only at h
    split at h
    · simp at h
    · split at h
      · simp only [Except.ok.injEq] at h
        simp [← h]
      · split at h
        · simp only [Except.ok.injEq] at h
          simp [← h]
        · exact line_of_map_setLevel h

theorem line_of_takeLine {s next : State} {line : Text} (h : s.takeLine line = .ok next) :
    next.line = s.line := by
  unfold takeLine at h
  split at h
  · simp_all
  · exact line_of_closeBlock h
  · exact line_of_takeContent h
  · split at h
    · simp at h
    · split at h
      · simp only [Except.ok.injEq] at h
        simp [← h, openBlock]
      · simpa [openBlock] using line_of_closeBlock h
      · simp at h

theorem line_of_takePending {s next : State} {pending : Pending} {line : Text}
    (h : s.takePending pending line = .ok next) : next.line = s.line := by
  unfold takePending at h
  split at h
  · simp only at h
    split at h <;> simp only [Except.ok.injEq] at h <;> simp [← h]
  · simp only at h
    split at h
    · simpa using line_of_map_setLevel h
    · simp only [Except.ok.injEq] at h
      simp [← h]

theorem line_of_step {s next : State} {line : Text} (h : s.step line = .ok next) :
    next.line = s.line + 1 := by
  unfold step at h
  simp only at h
  split at h
  · simpa using line_of_takePending h
  · simpa using line_of_takeLine h

/-- A run neither loses lines nor makes any. -/
theorem taken_add_length_rest_run (s : State) (lines : List Text) :
    (s.run lines).2.taken + (s.run lines).2.rest.length = s.line + lines.length := by
  induction lines generalizing s with
  | nil => simp [run]
  | cons line rest ih =>
    simp only [run]
    split
    · rename_i next h
      have hl := line_of_step h
      have hi := ih next
      simp only [List.length_cons]
      omega
    · simp only [List.length_cons]
      omega

theorem rest_run_suffix (s : State) (lines : List Text) : (s.run lines).2.rest <:+ lines := by
  induction lines generalizing s with
  | nil => simp [run]
  | cons line rest ih =>
    simp only [run]
    split
    · rename_i next h
      exact (ih next).trans (List.suffix_cons line rest)
    · exact List.suffix_cons line rest

def stepAll (s : State) : List Text → Except Error State
  | [] => .ok s
  | line :: rest =>
    match s.step line with
    | .ok next => next.stepAll rest
    | .error e => .error e

theorem exists_step_of_stepAll {s last : State} {line : Text} {rest : List Text}
    (h : s.stepAll (line :: rest) = .ok last) :
    ∃ next, s.step line = .ok next ∧ next.stepAll rest = .ok last := by
  rw [stepAll] at h
  cases hs : s.step line with
  | error e => simp [hs] at h
  | ok next => exact ⟨next, rfl, by simpa [hs] using h⟩

theorem run_append_of_stepAll_ok {s next : State} {first : List Text}
    (h : s.stepAll first = .ok next) (last : List Text) : s.run (first ++ last) = next.run last := by
  induction first generalizing s with
  | nil =>
    simp only [stepAll, Except.ok.injEq] at h
    simp [h]
  | cons line rest ih =>
    obtain ⟨next, hnext, hrest⟩ := exists_step_of_stepAll h
    simp only [List.cons_append, run, hnext]
    exact ih hrest

theorem run_append_of_stepAll_error {s : State} {first : List Text} {e : Error}
    (h : s.stepAll first = .error e) (last : List Text) :
    (s.run (first ++ last)).1 = .error e := by
  induction first generalizing s with
  | nil => simp [stepAll] at h
  | cons line rest ih =>
    simp only [stepAll] at h
    split at h
    · rename_i t ht
      simp only [List.cons_append, run, ht]
      exact ih h
    · rename_i e' ht
      simp only [Except.error.injEq] at h
      simp [run, ht, h]

end State

end BlockConfig
