import BlockConfig.Proofs.Reader.Spread

set_option autoImplicit false

/-!
A source as its items, one behind the other: a line that opens or closes a block or does nothing,
or an attribute with all the lines that it goes on over.
-/

namespace BlockConfig

namespace State

def path (s : State) : List Text := (s.opened.map OpenBlock.name).reverse

@[simp] theorem path_atLine (s : State) (line : Nat) : (s.atLine line).path = s.path := rfl

@[simp] theorem path_setLevel (s : State) (level : Level) : (s.setLevel level).path = s.path := by
  unfold setLevel path
  cases s.opened <;> simp

/-- Takes the item that starts with a line, and counts the lines of `rest` that go on with it. -/
def takeItem (s : State) (line : Text) (rest : List Text) : Except Error (State × Nat) :=
  match LineShape.of line with
  | .content => (readAttribute s.level (s.line + 1) line rest).map fun (next, k) =>
      ((s.setLevel next).atLine (s.line + 1 + k), k)
  | _ => ((s.atLine (s.line + 1)).takeLine line).map fun next => (next, 0)

theorem run_item {s : State} (hs : s.pending = none) (line : Text) (rest : List Text) :
    (s.run (line :: rest)).1 =
      match s.takeItem line rest with
      | .error e => .error e
      | .ok (next, k) => (next.run (rest.drop k)).1 := by
  cases hshape : LineShape.of line with
  | content =>
    rw [run_attribute hs hshape, takeItem, hshape]
    cases readAttribute s.level (s.line + 1) line rest <;> rfl
  | blank | closing | opening =>
    rw [run_cons hs, takeItem, hshape]
    cases (s.atLine (s.line + 1)).takeLine line <;> rfl

inductive Takes (s : State) (line : Text) (rest : List Text) : State → Nat → Prop
  | blank (hshape : LineShape.of line = .blank) : Takes s line rest (s.atLine (s.line + 1)) 0
  | closing (hshape : LineShape.of line = .closing) (next : State)
      (hleave : s.leave? s.level (s.line + 1) = some next) : Takes s line rest next 0
  | opening (name : Text) (hshape : LineShape.of line = .opening name none) (hname : name ≠ []) :
      Takes s line rest ((s.atLine (s.line + 1)).openBlock name) 0
  | bothBraces (name : Text) (hshape : LineShape.of line = .opening name (some []))
      (hname : name ≠ []) :
      Takes s line rest ((s.setLevel (s.level.enter name .empty)).atLine (s.line + 1)) 0
  | content (hshape : LineShape.of line = .content) (next : Level) (k : Nat)
      (hread : readAttribute s.level (s.line + 1) line rest = .ok (next, k)) :
      Takes s line rest ((s.setLevel next).atLine (s.line + 1 + k)) k

section Takes

variable {s next : State} {line : Text} {rest : List Text} {k : Nat}

theorem takes_of_takeItem (h : s.takeItem line rest = .ok (next, k)) :
    s.Takes line rest next k := by
  unfold takeItem at h
  cases hshape : LineShape.of line with
  | content =>
    simp only [hshape] at h
    obtain ⟨⟨level, n⟩, hread, heq⟩ := exists_of_map_ok h
    cases heq
    exact .content hshape level n hread
  | blank =>
    simp only [hshape, takeLine] at h
    cases h
    exact .blank hshape
  | closing =>
    simp only [hshape, takeLine, closeBlock_eq] at h
    obtain ⟨closed, hclosed, heq⟩ := exists_of_map_ok h
    cases heq
    refine .closing hshape next ?_
    cases hleave : (s.atLine (s.line + 1)).leave? s.level (s.line + 1) with
    | none => simp [hleave] at hclosed
    | some up =>
      simp only [level_atLine, line_atLine, hleave, Except.ok.injEq] at hclosed
      exact hclosed ▸ hleave
  | opening name body =>
    simp only [hshape, takeLine] at h
    by_cases hname : name.isEmpty
    · simp [hname, Except.map] at h
    have hne : name ≠ [] := by simpa using hname
    simp only [if_neg hname] at h
    cases body with
    | none =>
      cases h
      exact .opening name hshape hne
    | some content =>
      cases content with
      | nil =>
        simp only [closeBlock_openBlock] at h
        cases h
        rw [setLevel_atLine]
        exact .bothBraces name hshape hne
      | cons c more => cases h

theorem exists_of_leave? {last : Level} {taken : Nat} (h : s.leave? last taken = some next) :
    ∃ b outer, s.opened = b :: outer ∧ next =
      ({ s with opened := outer, line := taken } : State).setLevel
        (({ s with opened := outer } : State).level.enter b.name last) := by
  unfold leave? at h
  cases hopened : s.opened with
  | nil => simp [hopened] at h
  | cons b outer =>
    simp only [hopened, Option.some.injEq] at h
    exact ⟨b, outer, rfl, h.symm⟩

theorem Takes.pending (h : s.Takes line rest next k) (hs : s.pending = none) :
    next.pending = none := by
  cases h with
  | closing hshape next hleave =>
    obtain ⟨b, outer, -, rfl⟩ := exists_of_leave? hleave
    simpa using hs
  | blank | opening => exact hs
  | bothBraces | content => simpa using hs

theorem Takes.line_eq (h : s.Takes line rest next k) : next.line = s.line + 1 + k := by
  cases h with
  | closing hshape next hleave =>
    obtain ⟨b, outer, -, rfl⟩ := exists_of_leave? hleave
    simp
  | blank | opening | bothBraces | content => rfl

end Takes

end State

/-- A place in the reading of a source where an item starts: the state before it, its first line
and the lines behind that one. -/
structure Item where
  before : State
  line : Text
  rest : List Text

def State.items (s : State) (lines : List Text) : List Item :=
  match lines with
  | [] => []
  | line :: rest => ⟨s, line, rest⟩ ::
    match s.takeItem line rest with
    | .ok (next, k) => next.items (rest.drop k)
    | .error _ => []
termination_by lines.length
decreasing_by simp only [List.length_drop, List.length_cons]; omega

def itemsOf (source : Text) : List Item := (State.initial 0).items (source.lines.map stripComment)

namespace Item

def start (item : Item) : Nat := item.before.line + 1

def more (item : Item) : List Text :=
  match item.before.takeItem item.line item.rest with
  | .ok (_, k) => item.rest.take k
  | .error _ => []

end Item

namespace State

@[simp] theorem items_nil (s : State) : s.items [] = [] := by rw [items]

theorem items_cons {s next : State} {line : Text} {rest : List Text} {k : Nat}
    (h : s.takeItem line rest = .ok (next, k)) :
    s.items (line :: rest) = ⟨s, line, rest⟩ :: next.items (rest.drop k) := by
  rw [items, h]

/-- What holds at the end of a source, and before an item if it holds behind it, holds of every
reading that gives a document. -/
theorem items_induction {d : Document} {motive : State → List Text → Prop}
    (done : ∀ s : State, s.opened = [] → d = ⟨s.root.scope, s.root.blocks⟩ → motive s [])
    (item : ∀ (s next : State) (line : Text) (rest : List Text) (k : Nat),
      s.takeItem line rest = .ok (next, k) → motive next (rest.drop k) → motive s (line :: rest))
    {s : State} {lines : List Text} (hs : s.pending = none) (hrun : (s.run lines).1 = .ok d) :
    motive s lines := by
  induction s, lines using items.induct with
  | case1 s =>
    rw [run, finish, hs] at hrun
    cases hopened : s.opened with
    | nil =>
      simp only [hopened, Except.ok.injEq] at hrun
      exact done s hopened hrun.symm
    | cons b outer => simp [hopened] at hrun
  | case2 s line rest ih =>
    rw [run_item hs] at hrun
    cases htake : s.takeItem line rest with
    | error e => simp [htake] at hrun
    | ok found =>
      obtain ⟨next, k⟩ := found
      simp only [htake] at hrun
      exact item s next line rest k htake
        (ih next k ((takes_of_takeItem htake).pending hs) hrun)

theorem drop_of_mem_items {s : State} {lines : List Text} {item : Item}
    (h : item ∈ s.items lines) :
    s.line < item.start ∧ lines.drop (item.start - (s.line + 1)) = item.line :: item.rest := by
  induction s, lines using items.induct with
  | case1 s => simp at h
  | case2 s line rest ih =>
    rw [items, List.mem_cons] at h
    rcases h with rfl | h
    · simp [Item.start]
    · cases htake : s.takeItem line rest with
      | error e => simp [htake] at h
      | ok found =>
        obtain ⟨next, k⟩ := found
        simp only [htake] at h
        obtain ⟨hlt, hdrop⟩ := ih next k h
        have hline := (takes_of_takeItem htake).line_eq
        have hcount : item.start - (s.line + 1) = k + (item.start - (next.line + 1)) + 1 := by omega
        refine ⟨by omega, ?_⟩
        rw [hcount, List.drop_succ_cons, ← List.drop_drop, hdrop]

theorem pairwise_items (s : State) (lines : List Text) :
    (s.items lines).Pairwise fun first later => first.start < later.start := by
  induction s, lines using items.induct with
  | case1 s => simp
  | case2 s line rest ih =>
    cases htake : s.takeItem line rest with
    | error e => simp [items, htake]
    | ok found =>
      obtain ⟨next, k⟩ := found
      rw [items_cons htake, List.pairwise_cons]
      refine ⟨fun later hlater => ?_, ih next k⟩
      have hline := (takes_of_takeItem htake).line_eq
      have hlt := (drop_of_mem_items hlater).1
      simp only [Item.start] at hlt ⊢
      omega

end State

end BlockConfig
