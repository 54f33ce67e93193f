import BlockConfig.Proofs.Comment
import BlockConfig.Proofs.Evaluation.Results
import BlockConfig.Proofs.Grammar
import BlockConfig.Reader.Progress

set_option autoImplicit false

namespace BlockConfig

def OpenBlock.unclosed (b : OpenBlock) : Error :=
  ⟨.unbalancedBraces ("block '" ++ b.name ++ "' is never closed"), b.start,
    some "Add a closing '\x7d'"⟩

def unfinishedArray (joined : Text) (start : Nat) : Error :=
  ⟨.unclassifiable joined, start, some "Multi-line array is missing its closing ']'"⟩

def Cause.ofLine (cause : Cause) : Bool :=
  match cause with
  | .emptyAttributeName | .emptyBlockName | .inlineContent _ _ => true
  | .unbalancedBraces message => message == "'\x7d' without a matching '\x7b'".toList
  | _ => cause.ofValue

structure Error.IsFault (e : Error) (start : Nat) : Prop where
  line_eq : e.line = start
  ofLine : e.cause.ofLine = true

theorem Cause.ofLine_of_ofValue {cause : Cause} (h : cause.ofValue = true) :
    cause.ofLine = true := by
  cases cause <;> simp_all [ofLine, ofValue]

theorem Error.IsFault.ne_unclosed {e : Error} {start : Nat} (h : e.IsFault start) (b : OpenBlock) :
    e ≠ b.unclosed := by
  rintro rfl
  have hmessage := congrArg (List.take 1) (eq_of_beq h.ofLine)
  rw [List.append_assoc, List.take_append_of_le_length (by decide)] at hmessage
  exact absurd hmessage (by decide)

namespace State

theorem stepAll_append (s : State) (first last : List Text) :
    s.stepAll (first ++ last) =
      match s.stepAll first with
      | .ok next => next.stepAll last
      | .error e => .error e := by
  induction first generalizing s with
  | nil => rfl
  | cons line rest ih =>
    simp only [List.cons_append, stepAll]
    cases s.step line with
    | error e => rfl
    | ok next => exact ih next

theorem line_of_stepAll {s next : State} {lines : List Text} (h : s.stepAll lines = .ok next) :
    next.line = s.line + lines.length := by
  induction lines generalizing s with
  | nil =>
    simp only [stepAll, Except.ok.injEq] at h
    simp [h]
  | cons line rest ih =>
    obtain ⟨first, hfirst, hrest⟩ := exists_step_of_stepAll h
    have hline := line_of_step hfirst
    have hi := ih hrest
    simp only [List.length_cons]
    omega

theorem line_of_stepAll_initial {s : State} {lines : List Text}
    (h : (initial 0).stepAll lines = .ok s) : s.line = lines.length := by
  simpa [initial] using line_of_stepAll h

theorem run_of_stepAll {s t : State} {lines : List Text} (h : s.stepAll lines = .ok t) :
    (s.run lines).1 = t.finish := by
  have hrun := congrArg Prod.fst (run_append_of_stepAll_ok h [])
  rwa [List.append_nil] at hrun

def advance (s : State) : State := { s with line := s.line + 1, pending := none }

/-- The first line of what the next line belongs to: of the array that goes on, or itself. -/
def itemLine (s : State) : Nat :=
  match s.pending with
  | some (.array _ _ start) => start
  | _ => s.line + 1

theorem itemLine_of_none {s : State} (h : s.pending = none) : s.itemLine = s.line + 1 := by
  rw [itemLine, h]

inductive Change (s : State) (line : Text) : State → Prop
  | fill (level : Level) : Change s line (s.advance.setLevel level)
  | suspend (pending : Pending)
      (hstring : ∀ name pieces, pending = .string name pieces → continues line.trim = true)
      (harray : ∀ name joined start, pending = .array name joined start → start = s.itemLine) :
      Change s line (s.advance.awaiting pending)
  | opening (name : Text) (hshape : LineShape.of line = .opening name none)
      (hpending : s.pending = none) : Change s line (s.advance.openBlock name)
  | closing (b : OpenBlock) (outer : List OpenBlock) (level : Level) (h : s.opened = b :: outer) :
      Change s line ({ s.advance with opened := outer }.setLevel level)

section Change

variable {s next : State} {line : Text}

theorem change_of_skip : s.Change line s.advance := by
  have hchange : s.Change line (s.advance.setLevel s.advance.level) := .fill s.advance.level
  rwa [setLevel_level] at hchange

theorem change_of_map_setLevel {result : Except Error Level}
    (h : result.map s.advance.setLevel = .ok next) : s.Change line next := by
  cases result with
  | error e => simp [Except.map] at h
  | ok level =>
    simp only [Except.map, Except.ok.injEq] at h
    exact h ▸ .fill level

theorem change_of_closeBlock (h : s.advance.closeBlock = .ok next) : s.Change line next := by
  unfold closeBlock at h
  split at h
  · simp at h
  · rename_i b outer hopened
    simp only [Except.ok.injEq] at h
    exact h ▸ .closing b outer _ hopened

theorem change_of_takeContent (hs : s.pending = none)
    (h : s.advance.takeContent line = .ok next) : s.Change line next := by
  unfold takeContent at h
  cases hcut : line.cut? "=" with
  | none =>
    simp only [hcut, Except.ok.injEq] at h
    exact h ▸ change_of_skip
  | some parts =>
    obtain ⟨front, back⟩ := parts
    simp only [hcut] at h
    by_cases hname : front.trim.isEmpty
    · simp [hname] at h
    by_cases hcont : continues back.trim
    · have hline : continues line.trim = true := by
        simp only [continues, beq_iff_eq, Text.getLast?_trim] at hcont ⊢
        exact Text.lastSolid?_of_suffix (Text.suffix_of_cut? hcut) hcont
      simp only [if_neg hname, if_pos hcont, Except.ok.injEq] at h
      exact h ▸ .suspend (.string front.trim _) (fun _ _ _ => hline) (by simp)
    by_cases harray : back.trim.head? = some '[' ∧ ']' ∉ back.trim
    · simp only [if_neg hname, if_neg hcont, if_pos harray, Except.ok.injEq] at h
      refine h ▸ .suspend (.array front.trim back.trim _) (by simp) fun name joined start he => ?_
      rw [itemLine_of_none hs]
      exact (Pending.array.inj he).2.2.symm
    · simp only [if_neg hname, if_neg hcont, if_neg harray] at h
      exact change_of_map_setLevel h

theorem change_of_takeLine (hs : s.pending = none) (h : s.advance.takeLine line = .ok next) :
    s.Change line next := by
  unfold takeLine at h
  cases hshape : LineShape.of line with
  | blank =>
    simp only [hshape, Except.ok.injEq] at h
    exact h ▸ change_of_skip
  | closing =>
    simp only [hshape] at h
    exact change_of_closeBlock h
  | content =>
    simp only [hshape] at h
    exact change_of_takeContent hs h
  | opening inner body =>
    simp only [hshape] at h
    by_cases hname : inner.isEmpty
    · simp [hname] at h
    simp only [if_neg hname] at h
    cases body with
    | none =>
      simp only [Except.ok.injEq] at h
      exact h ▸ .opening inner hshape hs
    | some content =>
      cases content with
      | nil =>
        simp only [closeBlock_openBlock, Except.ok.injEq] at h
        exact h ▸ .fill _
      | cons c rest => simp at h

theorem change_of_takePending {pending : Pending} (hs : s.pending = some pending)
    (h : { s with line := s.line + 1 }.takePending pending line = .ok next) :
    s.Change line next := by
  cases pending with
  | string name pieces =>
    simp only [takePending] at h
    split at h
    · rename_i hcont
      simp only [Except.ok.injEq] at h
      exact h ▸ .suspend (.string name _) (fun _ _ _ => hcont) (by simp)
    · simp only [Except.ok.injEq] at h
      exact h ▸ .fill _
  | array name joined start =>
    simp only [takePending] at h
    split at h
    · exact change_of_map_setLevel h
    · simp only [Except.ok.injEq] at h
      refine h ▸ .suspend (.array name _ start) (by simp) fun _ _ first he => ?_
      rw [itemLine, hs]
      exact (Pending.array.inj he).2.2.symm

theorem change_of_step (h : s.step line = .ok next) : s.Change line next := by
  unfold step at h
  cases hs : s.pending with
  | none =>
    simp only [hs] at h
    exact change_of_takeLine hs h
  | some pending =>
    simp only [hs] at h
    have htake : { s with line := s.line + 1 }.takePending pending line = .ok next := by
      simpa [hs] using h
    exact change_of_takePending hs htake

end Change

theorem not_string_of_stepAll {s next : State} {lines : List Text} (hs : s.pending = none)
    (h : s.stepAll lines = .ok next) (hlast : ∀ line ∈ lines.getLast?, continues line.trim = false)
    (name : Text) (pieces : List Text) : next.pending ≠ some (.string name pieces) := by
  intro hp
  rcases List.eq_nil_or_concat lines with rfl | ⟨front, line, rfl⟩
  · simp only [stepAll, Except.ok.injEq] at h
    rw [← h, hs] at hp
    simp at hp
  · rw [List.concat_eq_append] at h hlast
    rw [stepAll_append] at h
    cases hfront : s.stepAll front with
    | error e => simp [hfront] at h
    | ok before =>
      simp only [hfront] at h
      obtain ⟨after, hstep, hafter⟩ := exists_step_of_stepAll h
      cases hafter
      cases change_of_step hstep with
      | fill level => simp [advance] at hp
      | opening name _ _ => simp [advance, openBlock] at hp
      | closing b outer level hopened => simp [advance] at hp
      | suspend pending hcont _ =>
        have hcont := hcont name pieces (by simpa [awaiting] using hp)
        rw [hlast line (by simp)] at hcont
        simp at hcont

def StartsBehind (s : State) : Prop := ∀ b ∈ s.opened, b.start ≤ s.line

theorem startsBehind_setLevel {s : State} (h : s.StartsBehind) (level : Level) :
    (s.setLevel level).StartsBehind := by
  unfold StartsBehind setLevel at *
  cases hs : s.opened with
  | nil => simp
  | cons b rest =>
    simp only [hs, List.mem_cons, forall_eq_or_imp] at h ⊢
    exact h

theorem startsBehind_of_step {s next : State} {line : Text} (hs : s.StartsBehind)
    (h : s.step line = .ok next) : next.StartsBehind := by
  have hadvance : s.advance.StartsBehind := fun b hb => Nat.le_succ_of_le (hs b hb)
  cases change_of_step h with
  | fill level => exact startsBehind_setLevel hadvance level
  | suspend pending _ _ => exact hadvance
  | opening name _ _ =>
    intro b hb
    rcases List.mem_cons.1 hb with rfl | hb
    · exact Nat.le_refl _
    · exact hadvance b hb
  | closing b outer level hopened =>
    refine startsBehind_setLevel (s := { s.advance with opened := outer }) ?_ level
    intro c hc
    exact hadvance c (by simpa [advance, hopened] using .inr hc)

theorem startsBehind_of_stepAll {s next : State} {lines : List Text} (hs : s.StartsBehind)
    (h : s.stepAll lines = .ok next) : next.StartsBehind := by
  induction lines generalizing s with
  | nil =>
    simp only [stepAll, Except.ok.injEq] at h
    exact h ▸ hs
  | cons line rest ih =>
    obtain ⟨first, hfirst, hrest⟩ := exists_step_of_stepAll h
    exact ih (startsBehind_of_step hs hfirst) hrest

theorem fault_of_define {level : Level} {name raw : Text} {start : Nat} {e : Error}
    (h : level.define name raw start = .error e) : e.IsFault start := by
  unfold Level.define at h
  rcases he : evaluate raw level.scope with ⟨result, last⟩
  cases result with
  | ok found => simp [he] at h
  | error unplaced =>
    have hfails : (evaluate raw level.scope).1 = .error unplaced := by rw [he]
    have hu := unplaced_of_evaluate hfails
    simp only [he, hu.atLine, Except.error.injEq] at h
    exact h ▸ ⟨rfl, Cause.ofLine_of_ofValue hu.ofValue⟩

theorem fault_of_map_setLevel {s : State} {result : Except Error Level} {start : Nat} {e : Error}
    (hresult : ∀ e, result = .error e → e.IsFault start) (h : result.map s.setLevel = .error e) :
    e.IsFault start := by
  cases result with
  | ok level => simp [Except.map] at h
  | error fault =>
    simp only [Except.map, Except.error.injEq] at h
    exact h ▸ hresult fault rfl

theorem fault_of_closeBlock {s : State} {e : Error} (h : s.closeBlock = .error e) :
    e.IsFault s.line := by
  unfold closeBlock at h
  split at h
  · rw [← Except.error.inj h]
    exact ⟨rfl, beq_self_eq_true _⟩
  · simp at h

theorem fault_of_takeContent {s : State} {line : Text} {e : Error}
    (h : s.takeContent line = .error e) : e.IsFault s.line := by
  unfold takeContent at h
  cases hcut : line.cut? "=" with
  | none =>
    rw [hcut] at h
    cases h
  | some parts =>
    simp only [hcut] at h
    split at h
    · rw [← Except.error.inj h]
      exact ⟨rfl, rfl⟩
    · split at h
      · simp at h
      · split at h
        · simp at h
        · exact fault_of_map_setLevel (fun e he => fault_of_define he) h

theorem fault_of_takeLine {s : State} {line : Text} {e : Error} (h : s.takeLine line = .error e) :
    e.IsFault s.line := by
  unfold takeLine at h
  cases hshape : LineShape.of line with
  | blank => simp [hshape] at h
  | closing =>
    simp only [hshape] at h
    exact fault_of_closeBlock h
  | content =>
    simp only [hshape] at h
    exact fault_of_takeContent h
  | opening inner body =>
    simp only [hshape] at h
    by_cases hname : inner.isEmpty
    · simp only [if_pos hname, Except.error.injEq] at h
      exact h ▸ ⟨rfl, rfl⟩
    simp only [if_neg hname] at h
    cases body with
    | none => simp at h
    | some content =>
      cases content with
      | nil => exact fault_of_closeBlock (s := s.openBlock inner) h
      | cons c rest =>
        simp only [Except.error.injEq] at h
        exact h ▸ ⟨rfl, rfl⟩

theorem fault_of_step {s : State} {line : Text} {e : Error} (h : s.step line = .error e) :
    e.IsFault s.itemLine := by
  unfold step at h
  unfold itemLine
  cases hs : s.pending with
  | none =>
    simp only [hs] at h
    exact fault_of_takeLine h
  | some pending =>
    simp only [hs] at h
    cases pending with
    | string name pieces =>
      simp only [takePending] at h
      split at h <;> simp at h
    | array name joined start =>
      simp only [takePending] at h
      split at h
      · exact fault_of_map_setLevel (fun e he => fault_of_define he) h
      · simp at h

theorem stepAll_ne_unclosed {s : State} {lines : List Text} {e : Error}
    (h : s.stepAll lines = .error e) (b : OpenBlock) : e ≠ b.unclosed := by
  induction lines generalizing s with
  | nil => simp [stepAll] at h
  | cons line rest ih =>
    simp only [stepAll] at h
    cases hstep : s.step line with
    | error e' =>
      simp only [hstep, Except.error.injEq] at h
      exact h ▸ (fault_of_step hstep).ne_unclosed b
    | ok first =>
      simp only [hstep] at h
      exact ih h

end State

/-- Lines that raise no error but that of a block left open are all taken, and leave no attribute
to go on with unless the last of them ends in a backslash. -/
theorem exists_state_of_lines {lines : List Text}
    (h : ∀ e, Document.ofLines lines = .error e → ∃ b : OpenBlock, e = b.unclosed)
    (hlast : ∀ line ∈ (lines.map stripComment).getLast?, continues line = false) :
    ∃ s, (State.initial 0).stepAll (lines.map stripComment) = .ok s ∧ s.pending = none ∧
      s.line = lines.length ∧ s.StartsBehind := by
  cases hs : (State.initial 0).stepAll (lines.map stripComment) with
  | error e =>
    have hrun := State.run_append_of_stepAll_error hs []
    rw [List.append_nil] at hrun
    obtain ⟨b, hb⟩ := h e hrun
    exact absurd hb (State.stepAll_ne_unclosed hs b)
  | ok s =>
    have hfinish : Document.ofLines lines = s.finish := State.run_of_stepAll hs
    have hstring := State.not_string_of_stepAll rfl hs (by
      intro line hline
      obtain ⟨raw, -, rfl⟩ := List.mem_map.1 (List.mem_of_getLast? hline)
      rw [continues_trim_stripComment]
      exact hlast _ hline)
    have hinitial : (State.initial 0).StartsBehind := by
      simp [State.StartsBehind, State.initial]
    refine ⟨s, rfl, ?_, ?_, State.startsBehind_of_stepAll hinitial hs⟩
    · cases hp : s.pending with
      | none => rfl
      | some pending =>
        cases pending with
        | string name pieces => exact absurd hp (hstring name pieces)
        | array name joined start =>
          have herror : s.finish = .error (unfinishedArray joined start) := by
            simp [State.finish, hp, unfinishedArray]
          obtain ⟨b, hb⟩ := h _ (hfinish.trans herror)
          simp [OpenBlock.unclosed, unfinishedArray] at hb
    · rw [State.line_of_stepAll_initial hs, List.length_map]

theorem exists_closed_state_of_lines {lines : List Text} {d : Document}
    (h : Document.ofLines lines = .ok d)
    (hlast : ∀ line ∈ (lines.map stripComment).getLast?, continues line = false) :
    ∃ s, (State.initial 0).stepAll (lines.map stripComment) = .ok s ∧ s.pending = none ∧
      s.opened = [] ∧ d = ⟨s.root.scope, s.root.blocks⟩ := by
  have hnone : ∀ e, Document.ofLines lines = .error e → ∃ b : OpenBlock, e = b.unclosed := by
    intro e he
    rw [h] at he
    cases he
  obtain ⟨s, hs, hpending, -, -⟩ := exists_state_of_lines hnone hlast
  have hfinish : s.finish = .ok d := (State.run_of_stepAll hs).symm.trans h
  unfold State.finish at hfinish
  rw [hpending] at hfinish
  refine ⟨s, hs, hpending, ?_⟩
  cases ho : s.opened with
  | nil => simpa [ho, eq_comm] using hfinish
  | cons b outer => simp [ho] at hfinish

end BlockConfig
