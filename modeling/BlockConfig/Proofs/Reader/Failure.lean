import BlockConfig.Proofs.Reader.Nesting
import BlockConfig.Proofs.Reader.Open
import BlockConfig.Proofs.Reader.Raise
import Mathlib.Data.List.Induction

set_option autoImplicit false

/-!
Where reading fails, and what for. An error names the first line of the item in which reading
stopped, or of the innermost block that is still open at the end; unless the end raised it, no line
behind the item matters.
-/

namespace BlockConfig

/-- What can be wrong with a source. Files, paths, the types asked for and the export are no part
of it, and no operator is looked for where none is. -/
def Cause.ofSource : Cause → Bool
  | .unknownComparator _ | .unknownOperator _ | .pathNotFound _ | .typeMismatch _ => false
  | .validation _ | .rendering _ | .file _ _ | .fileExtension _ => false
  | _ => true

theorem Cause.ofSource_of_ofLine {cause : Cause} (h : cause.ofLine = true) :
    cause.ofSource = true := by
  cases cause <;> simp_all [ofLine, ofValue, ofSource]

inductive Error.AtEnd : Error → Prop
  | block (b : OpenBlock) : AtEnd b.unclosed
  | array (joined : Text) (start : Nat) : AtEnd (unfinishedArray joined start)

theorem Error.AtEnd.ofSource {e : Error} (h : e.AtEnd) : e.cause.ofSource = true := by
  cases h <;> rfl

namespace State

def NoArray (s : State) : Prop :=
  ∀ name joined start, s.pending ≠ some (.array name joined start)

inductive ItemFails (e : Error) : State → List Text → Prop
  | now {s : State} {line : Text} {rest : List Text} (h : s.step line = .error e) :
      ItemFails e s (line :: rest)
  | later {s next : State} {line : Text} {rest : List Text} {pending : Pending}
      (h : s.step line = .ok next) (hpending : next.pending = some pending)
      (hrest : ItemFails e next rest) : ItemFails e s (line :: rest)
  | atEnd {s : State} {name joined : Text} {start : Nat}
      (hpending : s.pending = some (.array name joined start))
      (h : e = unfinishedArray joined start) : ItemFails e s []

section Fails

variable {s : State} {lines : List Text} {e : Error}

theorem exists_step_of_string {name : Text} {pieces : List Text}
    (hs : s.pending = some (.string name pieces)) (line : Text) :
    ∃ next, s.step line = .ok next ∧ next.NoArray := by
  unfold step NoArray
  simp only [hs, takePending]
  by_cases hcont : continues line.trim
  · exact ⟨_, if_pos hcont, by simp⟩
  · exact ⟨_, if_neg hcont, by simp⟩

theorem not_itemFails_of_string {name : Text} {pieces : List Text}
    (hs : s.pending = some (.string name pieces)) : ¬ ItemFails e s lines := by
  intro h
  induction h generalizing name pieces with
  | now h =>
    obtain ⟨next, hnext, -⟩ := exists_step_of_string hs _
    rw [h] at hnext
    cases hnext
  | @later s next line rest pending h hpending hrest ih =>
    obtain ⟨other, hother, hnot⟩ := exists_step_of_string hs line
    rw [h] at hother
    cases hother
    cases pending with
    | string key more => exact ih hpending
    | array key joined start => exact hnot key joined start hpending
  | atEnd hpending h =>
    rw [hs] at hpending
    cases hpending

theorem itemLine_of_step {next : State} {line name joined : Text} {start : Nat}
    (h : s.step line = .ok next) (hpending : next.pending = some (.array name joined start)) :
    next.itemLine = s.itemLine := by
  have hnext : next.itemLine = start := by rw [itemLine, hpending]
  rw [hnext]
  cases change_of_step h with
  | fill level => simp [advance] at hpending
  | opening inner _ _ => simp [advance, openBlock] at hpending
  | closing b outer level _ => simp [advance] at hpending
  | suspend pending _ harray => exact harray name joined start (by simpa [awaiting] using hpending)

theorem ItemFails.line_eq (h : ItemFails e s lines) : e.line = s.itemLine := by
  induction h with
  | now h => exact (fault_of_step h).line_eq
  | @later s next line rest pending h hpending hrest ih =>
    cases pending with
    | string name pieces => exact absurd hrest (not_itemFails_of_string hpending)
    | array name joined start => exact ih.trans (itemLine_of_step h hpending)
  | atEnd hpending h =>
    rw [h, itemLine, hpending]
    rfl

theorem ItemFails.ofSource (h : ItemFails e s lines) : e.cause.ofSource = true := by
  induction h with
  | now h => exact Cause.ofSource_of_ofLine (fault_of_step h).ofLine
  | later _ _ _ ih => exact ih
  | atEnd _ h => exact h ▸ (Error.AtEnd.array _ _).ofSource

theorem finish_error (h : s.finish = .error e) :
    (∃ name joined start, s.pending = some (.array name joined start) ∧
      e = unfinishedArray joined start) ∨
    ∃ b outer, s.opened = b :: outer ∧ s.NoArray ∧ e = b.unclosed := by
  unfold finish at h
  split at h
  · rename_i name joined start hpending
    exact .inl ⟨name, joined, start, hpending, (Except.error.inj h).symm⟩
  · rename_i b outer hopened hnot
    exact .inr ⟨b, outer, hopened, hnot, (Except.error.inj h).symm⟩
  · cases h
  · cases h

theorem exists_document_of_finish (hopened : s.opened = []) (hs : s.NoArray) :
    ∃ d, s.finish = .ok d := by
  cases hf : s.finish with
  | ok d => exact ⟨d, rfl⟩
  | error e =>
    rcases finish_error hf with ⟨name, joined, start, hpending, -⟩ | ⟨b, outer, hb, -, -⟩
    · exact absurd hpending (hs name joined start)
    · rw [hopened] at hb
      cases hb

/-- Lines fail in the item they go on with, in one that starts behind some of them, or for a block
that they leave open. -/
theorem run_fails (h : (s.run lines).1 = .error e) :
    ItemFails e s lines ∨
    (∃ before line rest t, lines = before ++ line :: rest ∧ s.stepAll before = .ok t ∧
      t.pending = none ∧ ItemFails e t (line :: rest)) ∨
    ∃ t b outer, s.stepAll lines = .ok t ∧ t.opened = b :: outer ∧ t.NoArray ∧ e = b.unclosed := by
  induction lines generalizing s with
  | nil =>
    rcases finish_error h with ⟨name, joined, start, hpending, he⟩ | ⟨b, outer, hb, hnot, he⟩
    · exact .inl (.atEnd hpending he)
    · exact .inr (.inr ⟨s, b, outer, rfl, hb, hnot, he⟩)
  | cons line rest ih =>
    rw [run] at h
    cases hstep : s.step line with
    | error fault =>
      simp only [hstep, Except.error.injEq] at h
      exact .inl (.now (h ▸ hstep))
    | ok next =>
      simp only [hstep] at h
      rcases ih h with hitem | ⟨before, first, more, t, rfl, ht, hpending, hitem⟩ |
        ⟨t, b, outer, ht, hb⟩
      · cases hpending : next.pending with
        | some pending => exact .inl (.later hstep hpending hitem)
        | none =>
          -- the item starts on the line behind this one
          cases rest with
          | nil =>
            cases hitem with
            | atEnd hsome _ => rw [hpending] at hsome; cases hsome
          | cons first more =>
            exact .inr (.inl ⟨[line], first, more, next, rfl, by simp [stepAll, hstep], hpending,
              hitem⟩)
      · refine .inr (.inl ⟨line :: before, first, more, t, rfl, ?_, hpending, hitem⟩)
        rw [stepAll, hstep]
        exact ht
      · refine .inr (.inr ⟨t, b, outer, ?_, hb⟩)
        rw [stepAll, hstep]
        exact ht

end Fails

/-- The lines open a block and leave it open: `line` opens it where `before` ends, and `rest`
stands in it as in a document of its own. -/
structure Opens (lines : List Text) (s : State) (name : Text) (before : List Text) (line : Text)
    (rest : List Text) (base inner : State) : Prop where
  lines_eq : lines = before ++ line :: rest
  taken : (initial 0).stepAll before = .ok base
  pending : base.pending = none
  shape : LineShape.of line = .opening name none
  filled : (initial (before.length + 1)).stepAll rest = .ok inner
  eq_inside : s = inner.inside base name (before.length + 1)

def Traced (lines : List Text) (s : State) : Prop :=
  ∀ top b outer, s.opened = top ++ b :: outer → ∃ before line rest base inner,
    Opens lines s b.name before line rest base inner ∧ base.opened.length = outer.length

theorem exists_eq_append_cons {α : Type} {l : List α} {n : Nat} (h : n < l.length) :
    ∃ front a back, l = front ++ a :: back ∧ back.length = n := by
  have hdrop := List.drop_eq_getElem_cons (l := l) (i := l.length - n - 1) (by omega)
  refine ⟨_, _, _, (List.take_append_drop _ l).symm.trans (congrArg _ hdrop), ?_⟩
  rw [List.length_drop]
  omega

theorem exists_opening_of_step {s next : State} {line : Text} (h : s.step line = .ok next)
    (hlonger : s.opened.length < next.opened.length) :
    ∃ name, LineShape.of line = .opening name none ∧ s.pending = none ∧
      next = s.advance.openBlock name := by
  cases change_of_step h with
  | fill level =>
    rw [length_opened_setLevel] at hlonger
    exact absurd hlonger (Nat.lt_irrefl _)
  | suspend pending _ _ => exact absurd hlonger (Nat.lt_irrefl _)
  | opening name hshape hpending => exact ⟨name, hshape, hpending, rfl⟩
  | closing b outer level hopened =>
    rw [length_opened_setLevel, hopened, List.length_cons] at hlonger
    exact absurd hlonger (by simp)

section Traced

variable {s next : State} {lines : List Text} {line : Text}

theorem Opens.step {name : Text} {before rest : List Text} {first : Text} {base inner : State}
    (hopens : Opens lines s name before first rest base inner) (h : s.step line = .ok next)
    (hdeeper : base.opened.length < next.opened.length) :
    ∃ last, Opens (lines ++ [line]) next name before first (rest ++ [line]) base last := by
  rw [hopens.eq_inside] at h
  rcases step_of_inside base name (before.length + 1) h with ⟨last, hlast, hnext⟩ | hclosed
  · refine ⟨last, ⟨by simp [hopens.lines_eq], hopens.taken, hopens.pending, hopens.shape, ?_, hnext⟩⟩
    rw [stepAll_append, hopens.filled]
    simp [stepAll, hlast]
  · omega

theorem opens_of_openBlock (hs : (initial 0).stepAll lines = .ok s) (hpending : s.pending = none)
    {name : Text} (hshape : LineShape.of line = .opening name none) :
    Opens (lines ++ [line]) (s.advance.openBlock name) name lines line [] s
      (initial (lines.length + 1)) := by
  have hcount := line_of_stepAll_initial hs
  refine ⟨rfl, hs, hpending, hshape, rfl, ?_⟩
  rw [openBlock, advance, hcount]
  rfl

theorem traced_of_step (htraced : s.Traced lines) (hs : (initial 0).stepAll lines = .ok s)
    (h : s.step line = .ok next) : next.Traced (lines ++ [line]) := by
  intro top b outer hopened
  have hdeeper : outer.length < next.opened.length := by
    rw [hopened, List.length_append, List.length_cons]
    omega
  by_cases hdepth : outer.length < s.opened.length
  · -- the block that was open at this depth before is the same
    obtain ⟨front, c, back, hsplit, hback⟩ := exists_eq_append_cons hdepth
    obtain ⟨before, first, rest, base, inner, hopens, hbase⟩ := htraced front c back hsplit
    obtain ⟨last, hlast⟩ := hopens.step h (by omega)
    have hsame : top ++ b :: outer =
        last.opened ++ ⟨c.name, before.length + 1, last.root⟩ :: base.opened := by
      rw [← hopened, hlast.eq_inside]
      rfl
    obtain ⟨-, hb⟩ := List.append_inj' hsame (by simp [hbase, hback])
    have hname : b.name = c.name := by rw [(List.cons.inj hb).1]
    exact ⟨before, first, rest ++ [line], base, last, hname ▸ hlast, hbase.trans hback⟩
  · -- only an opening makes the blocks more, and it is the block itself
    obtain ⟨name, hshape, hpending, rfl⟩ := exists_opening_of_step h (by omega)
    have hframe : top ++ b :: outer = [] ++ ⟨name, s.advance.line, .empty⟩ :: s.opened :=
      hopened.symm
    have hlength := congrArg List.length hframe
    simp only [List.length_append, List.length_cons, List.length_nil] at hlength
    obtain ⟨-, hb⟩ := List.append_inj' hframe (by simp only [List.length_cons]; omega)
    obtain ⟨rfl, rfl⟩ := List.cons.inj hb
    exact ⟨lines, line, [], s, _, opens_of_openBlock hs hpending hshape, rfl⟩

end Traced

theorem traced_of_stepAll {s : State} {lines : List Text}
    (h : (initial 0).stepAll lines = .ok s) : s.Traced lines := by
  induction lines using List.reverseRecOn generalizing s with
  | nil =>
    cases h
    intro top b outer hopened
    simp [initial] at hopened
  | append_singleton lines line ih =>
    rw [stepAll_append] at h
    cases hlines : (initial 0).stepAll lines with
    | error e => simp [hlines] at h
    | ok before =>
      simp only [hlines] at h
      obtain ⟨next, hstep, hnext⟩ := exists_step_of_stepAll h
      cases hnext
      exact traced_of_step (ih hlines) hlines hstep

end State

structure Error.LiesAt (e : Error) (lines before : List Text) (line : Text) (rest : List Text)
    (s : State) : Prop where
  lines_eq : lines = before ++ line :: rest
  line_eq : e.line = before.length + 1
  taken : (State.initial 0).stepAll (before.map stripComment) = .ok s
  pending : s.pending = none

/-- The item that starts on the line of the error fails, or a block that starts there is left open,
and the lines behind it are a document of their own: no other is left open in it. -/
def Error.Located (e : Error) (lines : List Text) : Prop :=
  ∃ before line rest s, e.LiesAt lines before line rest s ∧
    (s.ItemFails e ((line :: rest).map stripComment) ∨
      ∃ b : OpenBlock, e = b.unclosed ∧
        LineShape.of (stripComment line) = .opening b.name none ∧
        ∃ d, Document.ofLines rest = .ok d)

structure Error.IsFirstOf (e : Error) (lines : List Text) : Prop where
  line_pos : 1 ≤ e.line
  line_le : e.line ≤ lines.length
  located : e.Located lines
  ofSource : e.cause.ofSource = true
  /-- Further lines change nothing unless the end raised the error. -/
  settled : (∀ more, Document.ofLines (lines ++ more) = .error e) ∨
    (∃ s, (State.initial 0).stepAll (lines.map stripComment) = .ok s ∧ s.finish = .error e) ∧
      e.AtEnd

section Located

variable {lines : List Text} {e : Error}

theorem Error.Located.line_pos (h : e.Located lines) : 1 ≤ e.line := by
  obtain ⟨before, line, rest, s, hlies, -⟩ := h
  rw [hlies.line_eq]
  exact Nat.succ_pos _

theorem Error.Located.line_le (h : e.Located lines) : e.line ≤ lines.length := by
  obtain ⟨before, line, rest, s, hlies, -⟩ := h
  rw [hlies.line_eq, hlies.lines_eq, List.length_append, List.length_cons]
  omega

theorem Error.Located.ofSource (h : e.Located lines) : e.cause.ofSource = true := by
  obtain ⟨before, line, rest, s, -, hitem | ⟨b, rfl, -⟩⟩ := h
  · exact hitem.ofSource
  · rfl

theorem exists_of_map_eq_append_cons {before rest : List Text} {line : Text}
    (h : lines.map stripComment = before ++ line :: rest) :
    ∃ front first back, lines = front ++ first :: back ∧ front.map stripComment = before ∧
      stripComment first = line ∧ back.map stripComment = rest := by
  obtain ⟨front, tail, rfl, hfront, htail⟩ := List.map_eq_append_iff.1 h
  obtain ⟨first, back, rfl, hfirst, hback⟩ := List.map_eq_cons_iff.1 htail
  exact ⟨front, first, back, rfl, hfront, hfirst, hback⟩

/-- The block that lines leave open as their innermost begins on one of them, and those behind it
are a document of their own. -/
theorem exists_opening_of_unclosed {s : State} {b : OpenBlock} {outer : List OpenBlock}
    (hs : (State.initial 0).stepAll (lines.map stripComment) = .ok s)
    (hopened : s.opened = b :: outer) (hnot : s.NoArray) :
    ∃ before line rest base d, b.unclosed.LiesAt lines before line rest base ∧
      LineShape.of (stripComment line) = .opening b.name none ∧ Document.ofLines rest = .ok d := by
  obtain ⟨before, line, rest, base, inner, hopens, hbase⟩ :=
    State.traced_of_stepAll hs [] b outer hopened
  obtain ⟨front, first, back, rfl, rfl, rfl, rfl⟩ := exists_of_map_eq_append_cons hopens.lines_eq
  have hinside := hopens.eq_inside
  have hfilled := hopens.filled
  rw [List.length_map] at hinside hfilled
  have hframe : inner.opened ++ ⟨b.name, front.length + 1, inner.root⟩ :: base.opened =
      b :: outer := by
    rw [← hopened, hinside]
    rfl
  have hinner : inner.opened = [] := by
    have hlength := congrArg List.length hframe
    simp only [List.length_append, List.length_cons] at hlength
    exact List.length_eq_zero_iff.1 (by omega)
  have hstart : b.start = front.length + 1 := by
    rw [hinner, List.nil_append] at hframe
    rw [← (List.cons.inj hframe).1]
  obtain ⟨d, hd⟩ := State.exists_document_of_finish hinner (by rwa [hinside] at hnot)
  -- the lines behind the opening denote the same, wherever they start
  have hback := State.run_initial (front.length + 1) (back.map stripComment)
  rw [State.run_of_stepAll hfilled, hd] at hback
  cases hdoc : Document.ofLines back with
  | error fault =>
    have hfault : ((State.initial 0).run (back.map stripComment)).1 = .error fault := hdoc
    rw [hfault] at hback
    cases hback
  | ok document =>
    exact ⟨front, first, back, base, document, ⟨rfl, hstart, hopens.taken, hopens.pending⟩,
      hopens.shape, hdoc⟩

theorem located_of_ofLines (h : Document.ofLines lines = .error e) : e.Located lines := by
  rcases State.run_fails h with hitem | ⟨before, line, rest, s, hlines, hs, hpending, hitem⟩ |
    ⟨s, b, outer, hs, hopened, hnot, rfl⟩
  · cases lines with
    | nil => cases hitem with | atEnd hpending _ => cases hpending
    | cons line rest =>
      exact ⟨[], line, rest, State.initial 0, ⟨rfl, hitem.line_eq, rfl, rfl⟩, .inl hitem⟩
  · obtain ⟨front, first, back, rfl, rfl, rfl, rfl⟩ := exists_of_map_eq_append_cons hlines
    refine ⟨front, first, back, s, ⟨rfl, ?_, hs, hpending⟩, .inl hitem⟩
    rw [hitem.line_eq, State.itemLine_of_none hpending, State.line_of_stepAll_initial hs,
      List.length_map]
  · obtain ⟨before, line, rest, base, d, hlies, hshape, hd⟩ :=
      exists_opening_of_unclosed hs hopened hnot
    exact ⟨before, line, rest, base, hlies, .inr ⟨b, rfl, hshape, d, hd⟩⟩

theorem settled_of_ofLines (h : Document.ofLines lines = .error e) :
    (∀ more, Document.ofLines (lines ++ more) = .error e) ∨
      (∃ s, (State.initial 0).stepAll (lines.map stripComment) = .ok s ∧ s.finish = .error e) ∧
        e.AtEnd := by
  cases hs : (State.initial 0).stepAll (lines.map stripComment) with
  | ok s =>
    have hend : s.finish = .error e := (State.run_of_stepAll hs).symm.trans h
    refine .inr ⟨⟨s, rfl, hend⟩, ?_⟩
    rcases State.finish_error hend with ⟨_, joined, start, -, rfl⟩ | ⟨b, _, -, -, rfl⟩
    · exact .array joined start
    · exact .block b
  | error fault =>
    have hall : ∀ more, Document.ofLines (lines ++ more) = .error fault := fun more => by
      rw [Document.ofLines, Reader.ofLines, Reader.read, List.map_append]
      exact State.run_append_of_stepAll_error hs _
    have hfault := hall []
    rw [List.append_nil, h] at hfault
    cases hfault
    exact .inl hall

/-- An error of a source names the first line of the item that fails, or the line that opens the
innermost block left open; it has a cause that a source can have; and unless the end raises it,
lines behind the source change nothing. -/
theorem ofLines_error (h : Document.ofLines lines = .error e) : e.IsFirstOf lines :=
  have hlocated := located_of_ofLines h
  ⟨hlocated.line_pos, hlocated.line_le, hlocated, hlocated.ofSource, settled_of_ofLines h⟩

end Located

theorem ofLines_error_array :
    let lines : List Text := ["p \x7b", "a = [1,", "[2]]", "\x7d"]
    let e : Error := ⟨.nestedArray "[1, [2]]", 2, some "Arrays can't contain other arrays"⟩
    Document.ofLines lines = .error e ∧ e.IsFirstOf lines :=
  ⟨rfl, ofLines_error rfl⟩

end BlockConfig
