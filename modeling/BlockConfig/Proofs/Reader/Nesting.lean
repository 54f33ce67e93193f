import BlockConfig.Proofs.Evaluation.Results
import BlockConfig.Reader.Progress

set_option autoImplicit false

/-!
Reading the inside of a block is reading its lines as a document of their own, on top of what is
open already.
-/

namespace BlockConfig

namespace State

/-- What `s` has read as a document, read instead as the inside of a block that `base` opened. -/
def inside (s base : State) (name : Text) (start : Nat) : State :=
  ⟨s.line, base.root, s.opened ++ ⟨name, start, s.root⟩ :: base.opened, s.pending⟩

theorem length_opened_setLevel (s : State) (level : Level) :
    (s.setLevel level).opened.length = s.opened.length := by
  unfold setLevel
  cases s.opened <;> rfl

section Inside

variable (s base : State) (name : Text) (start : Nat)

@[simp] theorem line_inside : (s.inside base name start).line = s.line := rfl

@[simp] theorem level_inside : (s.inside base name start).level = s.level := by
  unfold level inside
  cases s.opened <;> rfl

theorem setLevel_inside (level : Level) :
    (s.inside base name start).setLevel level = (s.setLevel level).inside base name start := by
  unfold setLevel inside
  cases s.opened <;> rfl

theorem map_setLevel_inside (result : Except Error Level) :
    result.map (s.inside base name start).setLevel =
      (result.map s.setLevel).map fun next => next.inside base name start := by
  cases result with
  | error e => rfl
  | ok level => simp [Except.map, setLevel_inside]

theorem openBlock_inside (inner : Text) :
    (s.inside base name start).openBlock inner = (s.openBlock inner).inside base name start := rfl

theorem takeContent_inside (line : Text) :
    (s.inside base name start).takeContent line =
      (s.takeContent line).map fun next => next.inside base name start := by
  unfold takeContent
  cases line.cut? "=" with
  | none => rfl
  | some parts =>
    obtain ⟨front, back⟩ := parts
    by_cases hname : front.trim.isEmpty
    · simp [hname, Except.map]
    by_cases hcont : continues back.trim
    · simp [hname, hcont, Except.map, inside]
    by_cases harray : back.trim.head? = some '[' ∧ ']' ∉ back.trim
    · simp [hname, hcont, harray, Except.map, inside]
    · simp only [if_neg hname, if_neg hcont, if_neg harray, level_inside, line_inside,
        map_setLevel_inside]

theorem takePending_inside (pending : Pending) (line : Text) :
    (s.inside base name start).takePending pending line =
      (s.takePending pending line).map fun next => next.inside base name start := by
  have hsettle : ({ s.inside base name start with pending := none } : State) =
      ({ s with pending := none } : State).inside base name start := rfl
  cases pending with
  | string key pieces =>
    simp only [takePending, level_inside, hsettle, setLevel_inside]
    split <;> rfl
  | array key joined first =>
    simp only [takePending, level_inside, hsettle, map_setLevel_inside]
    split <;> rfl

variable {s}

theorem closeBlock_inside {next : State} (h : s.closeBlock = .ok next) :
    (s.inside base name start).closeBlock = .ok (next.inside base name start) := by
  unfold closeBlock at h ⊢
  cases hs : s.opened with
  | nil => simp [hs] at h
  | cons b rest =>
    have hopened : (s.inside base name start).opened =
        b :: (rest ++ ⟨name, start, s.root⟩ :: base.opened) := by simp [inside, hs]
    have houter : ({ s.inside base name start with
        opened := rest ++ ⟨name, start, s.root⟩ :: base.opened } : State) =
        ({ s with opened := rest } : State).inside base name start := rfl
    simp only [hs, Except.ok.injEq] at h
    simp only [hopened, houter, level_inside, setLevel_inside, h]

theorem takeLine_inside {next : State} {line : Text} (h : s.takeLine line = .ok next) :
    (s.inside base name start).takeLine line = .ok (next.inside base name start) := by
  unfold takeLine at h ⊢
  cases hshape : LineShape.of line with
  | blank =>
    simp only [hshape, Except.ok.injEq] at h
    simp [h]
  | closing =>
    simp only [hshape] at h
    exact closeBlock_inside base name start h
  | content =>
    simp only [hshape] at h
    simp only [takeContent_inside, h, Except.map]
  | opening inner body =>
    simp only [hshape] at h
    by_cases hname : inner.isEmpty
    · simp [hname] at h
    simp only [if_neg hname] at h ⊢
    cases body with
    | none =>
      simp only [Except.ok.injEq] at h
      simp [openBlock_inside, h]
    | some content =>
      cases content with
      | nil => exact closeBlock_inside (s := s.openBlock inner) base name start h
      | cons c rest => simp at h

theorem step_inside {next : State} {line : Text} (h : s.step line = .ok next) :
    (s.inside base name start).step line = .ok (next.inside base name start) := by
  unfold step at h ⊢
  cases hp : s.pending with
  | none =>
    simp only [hp] at h
    have htake := takeLine_inside base name start h
    simpa [inside, hp] using htake
  | some pending =>
    simp only [hp] at h
    have htake := takePending_inside { s with line := s.line + 1 } base name start pending line
    simp only [hp, h] at htake
    simpa [inside, hp, Except.map] using htake

theorem closeBlock_of_inside {next : State}
    (h : (s.inside base name start).closeBlock = .ok next) :
    (∃ inner, s.closeBlock = .ok inner ∧ next = inner.inside base name start) ∨
      next.opened.length = base.opened.length := by
  cases hs : s.closeBlock with
  | ok inner =>
    rw [closeBlock_inside base name start hs] at h
    exact .inl ⟨inner, rfl, (Except.ok.inj h).symm⟩
  | error e =>
    have hopened : s.opened = [] := by
      unfold closeBlock at hs
      split at hs
      · assumption
      · cases hs
    simp only [closeBlock, inside, hopened, List.nil_append, Except.ok.injEq] at h
    exact .inr (by rw [← h, length_opened_setLevel])

theorem takeLine_of_inside {next : State} {line : Text}
    (h : (s.inside base name start).takeLine line = .ok next) :
    (∃ inner, s.takeLine line = .ok inner ∧ next = inner.inside base name start) ∨
      next.opened.length = base.opened.length := by
  unfold takeLine at h ⊢
  cases hshape : LineShape.of line with
  | blank =>
    simp only [hshape, Except.ok.injEq] at h ⊢
    exact .inl ⟨s, rfl, h.symm⟩
  | closing =>
    simp only [hshape] at h ⊢
    exact closeBlock_of_inside base name start h
  | content =>
    simp only [hshape, takeContent_inside] at h ⊢
    obtain ⟨inner, hinner, hnext⟩ := exists_of_map_ok h
    exact .inl ⟨inner, hinner, hnext.symm⟩
  | opening inner body =>
    simp only [hshape] at h ⊢
    by_cases hname : inner.isEmpty
    · simp [hname] at h
    simp only [if_neg hname] at h ⊢
    cases body with
    | none =>
      simp only [openBlock_inside, Except.ok.injEq] at h ⊢
      exact .inl ⟨s.openBlock inner, rfl, h.symm⟩
    | some content =>
      cases content with
      | nil => exact closeBlock_of_inside (s := s.openBlock inner) base name start h
      | cons c rest => simp at h

theorem step_of_inside {next : State} {line : Text}
    (h : (s.inside base name start).step line = .ok next) :
    (∃ inner, s.step line = .ok inner ∧ next = inner.inside base name start) ∨
      next.opened.length = base.opened.length := by
  unfold step at h ⊢
  cases hp : s.pending with
  | none =>
    have htake : (({ s with line := s.line + 1 } : State).inside base name start).takeLine line =
        .ok next := by simpa [inside, hp] using h
    simpa [hp] using takeLine_of_inside base name start htake
  | some pending =>
    have htake : (({ s with line := s.line + 1 } : State).inside base name start).takePending
        pending line = .ok next := by simpa [inside, hp] using h
    rw [takePending_inside] at htake
    obtain ⟨inner, hinner, hnext⟩ := exists_of_map_ok htake
    exact .inl ⟨inner, by simpa [hp] using hinner, hnext.symm⟩

theorem stepAll_inside {next : State} {lines : List Text} (h : s.stepAll lines = .ok next) :
    (s.inside base name start).stepAll lines = .ok (next.inside base name start) := by
  induction lines generalizing s with
  | nil =>
    simp only [stepAll, Except.ok.injEq] at h
    simp [stepAll, h]
  | cons line rest ih =>
    obtain ⟨first, hfirst, hrest⟩ := exists_step_of_stepAll h
    rw [stepAll, step_inside base name start hfirst]
    exact ih hrest

end Inside

end State

end BlockConfig
