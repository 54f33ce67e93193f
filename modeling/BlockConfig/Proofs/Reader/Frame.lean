import BlockConfig.Proofs.Reader.Nesting
import BlockConfig.Proofs.Reader.Open
import BlockConfig.Proofs.Reader.Raise
import BlockConfig.Proofs.Table

set_option autoImplicit false

/-!
A block among other lines is a frame. What it holds is what its lines denote on their own, and what
the source denotes around it is what it denotes without it.
-/

namespace BlockConfig

theorem readAttribute_withBlocks (level : Level) (blocks : Table Block) (start : Nat) (line : Text)
    (rest : List Text) :
    readAttribute ⟨level.scope, blocks⟩ start line rest =
      (readAttribute level start line rest).map fun (next, k) => (⟨next.scope, blocks⟩, k) := by
  unfold readAttribute
  cases line.cut? "=" with
  | none => rfl
  | some parts =>
    obtain ⟨front, back⟩ := parts
    by_cases hname : front.trim.isEmpty
    · simp only [if_pos hname, Except.map]
    by_cases hcont : continues back.trim
    · simp only [if_neg hname, if_pos hcont]
      rfl
    simp only [if_neg hname, if_neg hcont]
    cases valueText start back.trim rest with
    | error e => rfl
    | ok found =>
      obtain ⟨text, n⟩ := found
      simp only
      rcases evaluate text level.scope with ⟨result, last⟩
      cases result <;> rfl

def entered (blocks : Table Block) : Scope × Table Block × Nat → Level × Nat
  | (scope, added, n) => (⟨scope, Table.insertAll blocks added⟩, n)

theorem skipping_map_entered (k : Nat) (blocks : Table Block)
    (result : Except Error (Scope × Table Block × Nat)) :
    skipping k (result.map (entered blocks)) =
      (result.map fun (scope, added, n) => (scope, added, k + n)).map (entered blocks) := by
  cases result <;> rfl

theorem map_entered_insert (k : Nat) (blocks : Table Block) (name : Text) (b : Block)
    (result : Except Error (Scope × Table Block × Nat)) :
    skipping k (result.map (entered (Table.insert blocks name b))) =
      (result.map fun (scope, added, n) => (scope, (name, b) :: added, k + n)).map
        (entered blocks) := by
  cases result <;> rfl

theorem exists_entered_of_error {read : Table Block → Except Error (Level × Nat)} {e : Error}
    (h : ∀ blocks, read blocks = .error e) :
    ∃ result : Except Error (Scope × Table Block × Nat), ∀ blocks,
      read blocks = result.map (entered blocks) := ⟨.error e, h⟩

theorem exists_entered (outer : Option (Text × Nat)) (level : Level) (taken : Nat)
    (lines : List Text) : ∃ result : Except Error (Scope × Table Block × Nat), ∀ blocks,
      readItems outer ⟨level.scope, blocks⟩ taken lines = result.map (entered blocks) := by
  induction outer, level, taken, lines using readItems.induct with
  | case1 level taken =>
    refine ⟨.ok (level.scope, [], 0), fun blocks => ?_⟩
    rw [readItems.eq_def]
    rfl
  | case2 level taken name start =>
    refine ⟨.error (OpenBlock.unclosed ⟨name, start, .empty⟩), fun blocks => ?_⟩
    rw [readItems.eq_def]
    rfl
  | case3 outer level taken line rest hshape ih =>
    obtain ⟨result, hresult⟩ := ih
    refine ⟨result.map fun (scope, added, n) => (scope, added, 1 + n), fun blocks => ?_⟩
    rw [readItems_of_blank hshape, hresult, skipping_map_entered]
  | case4 level taken line rest hshape =>
    exact exists_entered_of_error fun _ => readItems_of_closing hshape
  | case5 level taken line rest hshape opened =>
    refine ⟨.ok (level.scope, [], 1), fun blocks => ?_⟩
    rw [readItems_of_closing hshape]
    rfl
  | case6 outer level taken line rest hshape e he =>
    refine ⟨.error e, fun blocks => ?_⟩
    rw [readItems_of_content hshape, readAttribute_withBlocks, he]
    rfl
  | case7 outer level taken line rest hshape next k hk ih =>
    obtain ⟨result, hresult⟩ := ih
    refine ⟨result.map fun (scope, added, n) => (scope, added, 1 + k + n), fun blocks => ?_⟩
    rw [readItems_of_content hshape, readAttribute_withBlocks, hk]
    exact (congrArg (skipping (1 + k)) (hresult blocks)).trans (skipping_map_entered ..)
  | case8 outer level taken line rest name body hshape hname =>
    exact exists_entered_of_error fun _ => readItems_of_emptyName hshape hname
  | case9 outer level taken line rest name hname hshape ih =>
    obtain ⟨result, hresult⟩ := ih
    refine ⟨result.map fun (scope, added, n) =>
      (scope, (name, ⟨name, [], []⟩) :: added, 1 + n), fun blocks => ?_⟩
    rw [readItems_of_bothBraces hshape hname]
    exact (congrArg (skipping 1) (hresult _)).trans (map_entered_insert ..)
  | case10 outer level taken line rest name hname content hne hshape =>
    exact exists_entered_of_error fun _ => readItems_of_inlineContent hshape hname hne
  | case11 outer level taken line rest name hname e he hshape ih =>
    refine ⟨.error e, fun blocks => ?_⟩
    rw [readItems_of_block hshape hname, he]
    rfl
  | case12 outer level taken line rest name hname inner k hk hshape ih₁ ih₂ =>
    obtain ⟨result, hresult⟩ := ih₂
    refine ⟨result.map fun (scope, added, n) =>
      (scope, (name, ⟨name, inner.scope, inner.blocks⟩) :: added, 1 + k + n), fun blocks => ?_⟩
    rw [readItems_of_block hshape hname, hk]
    exact (congrArg (skipping (1 + k)) (hresult _)).trans (map_entered_insert ..)

/-- Two tables of blocks differ in the table that stands in the blocks of the path, outermost
first: there in the entry `name` alone, which is `block` where it is new. -/
inductive DiffersAt (name : Text) (block : Block) : List Text → Table Block → Table Block → Prop
  | here {t t' : Table Block} (hothers : Table.without t' name = Table.without t name)
      (hnew : Table.get? t name = none → Table.get? t' name = some block) :
      DiffersAt name block [] t t'
  | inside {outer : Text} {path : List Text} {key : Text} {attributes : Table Attribute}
      {before after t t' : Table Block} (hfirst : outer ∉ Table.names before)
      (h : DiffersAt name block path t t') :
      DiffersAt name block (outer :: path) (before ++ (outer, ⟨key, attributes, t⟩) :: after)
        (before ++ (outer, ⟨key, attributes, t'⟩) :: after)

namespace DiffersAt

variable {name : Text} {block : Block} {path : List Text} {t t' : Table Block}

theorem insert_block (t : Table Block) (name : Text) (block : Block) :
    DiffersAt name block [] t (Table.insert t name block) := by
  refine .here (Table.without_insert_self t name block) fun _ => ?_
  rw [Table.get?_insert, if_pos rfl]

theorem enter (h : DiffersAt name block path t t') (u : Table Block) (outer : Text)
    (attributes : Table Attribute) :
    DiffersAt name block (outer :: path) (Table.insert u outer ⟨outer, attributes, t⟩)
      (Table.insert u outer ⟨outer, attributes, t'⟩) := by
  obtain ⟨before, after, hfirst, hinsert⟩ := Table.exists_insert_eq u outer
  rw [hinsert, hinsert]
  exact .inside hfirst h

theorem insert_of_ne (h : DiffersAt name block path t t') {other : Text}
    (hne : ∀ outer ∈ path.head?, outer ≠ other) (b : Block) :
    DiffersAt name block path (Table.insert t other b) (Table.insert t' other b) := by
  cases h with
  | here hothers hnew =>
    by_cases ho : other = name
    · subst ho
      refine .here ?_ fun hnone => ?_
      · rw [Table.without_insert_self, Table.without_insert_self, hothers]
      · rw [Table.get?_insert, if_pos rfl] at hnone
        simp at hnone
    · refine .here ?_ fun hnone => ?_
      · rw [Table.without_insert_of_ne ho, Table.without_insert_of_ne ho, hothers]
      · rw [Table.get?_insert, if_neg ho] at hnone ⊢
        exact hnew hnone
  | @inside outer _ key attributes before after u u' hfirst hu =>
    have ho : other ≠ outer := fun he => hne outer rfl he.symm
    obtain ⟨before', after', hfirst', hinsert⟩ :=
      Table.exists_insert_append hfirst ho after b
    rw [hinsert, hinsert]
    exact .inside hfirst' hu

theorem get? {outer : Text} (h : DiffersAt name block (outer :: path) t t') :
    ∃ b b', Table.get? t outer = some b ∧ Table.get? t' outer = some b' ∧
      b'.name = b.name ∧ b'.attributes = b.attributes ∧
      DiffersAt name block path b.blocks b'.blocks := by
  cases h with
  | inside hfirst hu =>
    exact ⟨_, _, Table.get?_append_self hfirst _ _, Table.get?_append_self hfirst _ _, rfl, rfl, hu⟩

theorem get?_new (h : DiffersAt name block [] t t') (hnew : Table.get? t name = none) :
    Table.get? t' name = some block := by
  cases h with
  | here _ h => exact h hnew

theorem insert_eq {outer : Text} (h : DiffersAt name block (outer :: path) t t') (b : Block) :
    Table.insert t' outer b = Table.insert t outer b := by
  cases h with
  | inside hfirst hu =>
    rw [Table.insert_append_self hfirst, Table.insert_append_self hfirst]

theorem insertAll_of_not_mem (h : DiffersAt name block path t t') {added : Table Block}
    (hnot : ∀ outer ∈ path.head?, outer ∉ Table.names added) :
    DiffersAt name block path (Table.insertAll t added) (Table.insertAll t' added) := by
  induction added generalizing t t' with
  | nil => exact h
  | cons e rest ih =>
    refine ih (h.insert_of_ne (fun outer ho he => hnot outer ho ?_) e.2) fun outer ho hm =>
      hnot outer ho (List.mem_cons_of_mem _ hm)
    simp [Table.names, he]

theorem insertAll_eq {outer : Text} (h : DiffersAt name block (outer :: path) t t')
    {added : Table Block} (hmem : outer ∈ Table.names added) :
    Table.insertAll t' added = Table.insertAll t added := by
  induction added generalizing t t' with
  | nil => simp [Table.names] at hmem
  | cons e rest ih =>
    by_cases he : outer = e.1
    · rw [Table.insertAll_cons, Table.insertAll_cons, ← he, h.insert_eq]
    · refine ih (h.insert_of_ne (fun other ho heq => ?_) e.2) ?_
      · rw [List.head?_cons, Option.mem_some_iff] at ho
        exact he (ho.trans heq)
      · simpa [Table.names, he] using hmem

theorem insertAll_eq_of_any (h : DiffersAt name block path t t') {added : Table Block}
    (hany : path.head?.any (Table.names (Table.insertAll [] added)).contains = true) :
    Table.insertAll t' added = Table.insertAll t added := by
  cases path with
  | nil => simp at hany
  | cons outer path =>
    have hmem : outer ∈ Table.names (Table.insertAll [] added) := by simpa using hany
    rw [Table.mem_names_insertAll] at hmem
    exact h.insertAll_eq (hmem.resolve_left (by simp [Table.names]))

theorem insertAll_of_any_eq_false (h : DiffersAt name block path t t') {added : Table Block}
    (hany : path.head?.any (Table.names (Table.insertAll [] added)).contains = false) :
    DiffersAt name block path (Table.insertAll t added) (Table.insertAll t' added) := by
  refine h.insertAll_of_not_mem fun outer houter hmem => ?_
  have hthere : outer ∈ Table.names (Table.insertAll [] added) :=
    (Table.mem_names_insertAll ..).2 (.inr hmem)
  rw [Option.mem_def.1 houter] at hany
  simp [hthere] at hany

end DiffersAt

namespace State

def withBlocks (s : State) (blocks : Table Block) : State := s.setLevel ⟨s.level.scope, blocks⟩

theorem setLevel_setLevel (s : State) (first last : Level) :
    (s.setLevel first).setLevel last = s.setLevel last := by
  unfold setLevel
  cases s.opened <;> rfl

theorem names_opened_setLevel (s : State) (level : Level) :
    (s.setLevel level).opened.map OpenBlock.name = s.opened.map OpenBlock.name := by
  unfold setLevel
  cases s.opened <;> rfl

/-- Whether lines replace an open block once they have closed it: the items behind it, in the level
around it, define another block of its name. `closed` is the block closed last. -/
def displaces (root : Level) : List OpenBlock → Option Text → Nat → List Text → Bool
  | [], closed, taken, lines =>
    match readItems none ⟨root.scope, []⟩ taken lines with
    | .error _ => false
    | .ok (last, _) => closed.any (Table.names last.blocks).contains
  | b :: outer, closed, taken, lines =>
    match readItems (some (b.name, b.start)) ⟨b.level.scope, []⟩ taken lines with
    | .error _ => false
    | .ok (last, n) => closed.any (Table.names last.blocks).contains ||
        displaces root outer (some b.name) (taken + n) (lines.drop n)

theorem displaces_setLevel (s : State) {level : Level} (h : level.scope = s.level.scope)
    (closed : Option Text) (taken : Nat) (lines : List Text) :
    displaces (s.setLevel level).root (s.setLevel level).opened closed taken lines =
      displaces s.root s.opened closed taken lines := by
  unfold setLevel
  unfold State.level at h
  cases hs : s.opened with
  | nil =>
    simp only [hs] at h
    simp only [displaces, h]
  | cons b outer =>
    simp only [hs] at h
    simp only [displaces, h]

theorem displaces_eq {s : State} {lines : List Text} {last : Level} {n : Nat}
    (h : readItems s.outer? ⟨s.level.scope, []⟩ s.line lines = .ok (last, n))
    (closed : Option Text) :
    displaces s.root s.opened closed s.line lines =
      (closed.any (Table.names last.blocks).contains ||
        match s.opened with
        | [] => false
        | b :: outer => displaces s.root outer (some b.name) (s.line + n) (lines.drop n)) := by
  unfold outer? State.level at h
  cases hs : s.opened with
  | nil =>
    simp only [hs, List.head?_nil, Option.map_none] at h
    simp [displaces, h]
  | cons b outer =>
    simp only [hs, List.head?_cons, Option.map_some] at h
    simp [displaces, h]

/-- How the results of two readings relate, the second of which knows more of one block. -/
def Framed (name : Text) (block : Block) (path : List Text) (displaced : Bool)
    (short long : Except Error Document) : Prop :=
  match short with
  | .error e => long = .error e
  | .ok d => ∃ d', long = .ok d' ∧ d'.attributes = d.attributes ∧
      if displaced then d'.blocks = d.blocks else DiffersAt name block path d.blocks d'.blocks

theorem framed_of_eq {name : Text} {block : Block} {path : List Text}
    (result : Except Error Document) : Framed name block path true result result := by
  cases result with
  | error e => rfl
  | ok d => exact ⟨d, rfl, rfl, rfl⟩

theorem Framed.mapError {name : Text} {block : Block} {path : List Text} {displaced : Bool}
    {short long : Except Error Document} (h : Framed name block path displaced short long)
    (f : Error → Error) :
    Framed name block path displaced (short.mapError f) (long.mapError f) := by
  cases short with
  | error e => exact congrArg (Except.mapError f) h
  | ok d =>
    obtain ⟨d', rfl, h⟩ := h
    exact ⟨d', rfl, h⟩

theorem run_entered {s : State} (hs : s.pending = none) {lines : List Text}
    {result : Except Error (Scope × Table Block × Nat)}
    (hresult : ∀ blocks,
      readItems s.outer? ⟨s.level.scope, blocks⟩ s.line lines = result.map (entered blocks))
    (blocks : Table Block) :
    ((s.withBlocks blocks).run lines).1 =
      s.resume s.line lines (result.map (entered blocks)) := by
  have hrun := run_items (s := s.withBlocks blocks) (by simpa [withBlocks] using hs) lines
  have hline : (s.withBlocks blocks).line = s.line := by simp [withBlocks]
  rw [hrun, withBlocks, resume_setLevel, outer?_setLevel, level_setLevel, ← withBlocks, hline,
    hresult]

theorem withBlocks_blocks (s : State) : s.withBlocks s.level.blocks = s := setLevel_level s

theorem withBlocks_setLevel_enter (s : State) (name : Text) (scope : Scope) (t t' : Table Block) :
    (s.setLevel (s.level.enter name ⟨scope, t⟩)).withBlocks
        (Table.insert s.level.blocks name ⟨name, scope, t'⟩) =
      s.setLevel (s.level.enter name ⟨scope, t'⟩) := by
  rw [withBlocks, setLevel_setLevel, level_setLevel]
  rfl

/-- What the lines denote differs in the same place as the blocks that are there, unless they
displace it. -/
theorem run_withBlocks {name : Text} {block : Block} {path : List Text} {s : State}
    (hs : s.pending = none) {blocks : Table Block}
    (hd : DiffersAt name block path s.level.blocks blocks) (lines : List Text) :
    Framed name block (s.opened.reverse.map OpenBlock.name ++ path)
      (displaces s.root s.opened path.head? s.line lines)
      (s.run lines).1 ((s.withBlocks blocks).run lines).1 := by
  induction hlength : s.opened.length using Nat.strongRecOn generalizing s path blocks lines with
  | ind count ih =>
    obtain ⟨result, hresult⟩ := exists_entered s.outer? s.level s.line lines
    have hshort := run_entered hs hresult s.level.blocks
    rw [withBlocks_blocks] at hshort
    rw [hshort, run_entered hs hresult blocks]
    have hempty := hresult []
    cases result with
    | error e => rfl
    | ok found =>
      obtain ⟨scope, added, n⟩ := found
      simp only [Except.map, entered] at hempty ⊢
      rw [displaces_eq hempty]
      cases hany : path.head?.any (Table.names (Table.insertAll [] added)).contains with
      | true =>
        -- The block that differs is replaced among the items of this level.
        rw [Bool.true_or, hd.insertAll_eq_of_any hany]
        exact framed_of_eq _
      | false =>
        have hlast := hd.insertAll_of_any_eq_false hany
        rw [Bool.false_or]
        cases hopened : s.opened with
        | nil =>
          simp only [resume, leave?, hopened]
          exact ⟨_, rfl, rfl, hlast⟩
        | cons b outer =>
          let up : State := ⟨s.line + n, s.root, outer, s.pending⟩
          let around := up.level.enter b.name ⟨scope, Table.insertAll s.level.blocks added⟩
          have hentered := hlast.enter up.level.blocks b.name scope
          have hcount : (up.setLevel around).opened.length = outer.length := by
            simpa using congrArg List.length (names_opened_setLevel up around)
          have hi := ih outer.length (by simp [← hlength, hopened]) (s := up.setLevel around)
            (by simpa using hs) (by rw [level_setLevel]; exact hentered) (lines.drop n) hcount
          have hpath : (up.setLevel around).opened.reverse.map OpenBlock.name ++ b.name :: path =
              (b :: outer).reverse.map OpenBlock.name ++ path := by
            rw [List.map_reverse, names_opened_setLevel]
            simp [up]
          have hscope : around.scope = up.level.scope := rfl
          have hdisplaces : displaces (up.setLevel around).root (up.setLevel around).opened
              (some b.name) (s.line + n) (lines.drop n) =
                displaces s.root outer (some b.name) (s.line + n) (lines.drop n) :=
            displaces_setLevel up hscope (some b.name) (s.line + n) (lines.drop n)
          rw [withBlocks_setLevel_enter, hpath, line_setLevel, List.head?_cons, hdisplaces] at hi
          simp only [resume, leave?, hopened]
          exact hi

theorem raise_of_startsBehind {s : State} (hs : s.pending = none) (hstarts : s.StartsBehind)
    (k : Nat) : s.raise s.line k = s.atLine (s.line + k) := by
  have hopened : s.opened.map (OpenBlock.raise s.line k) = s.opened := by
    rw [List.map_congr_left fun b hb => OpenBlock.raise_of_le (hstarts b hb) k]
    exact List.map_id _
  simp only [raise, atLine, hopened, hs, Option.map_none]

theorem step_closingLine_inside {s inner : State} (hs : s.pending = none)
    (hstarts : s.StartsBehind) (name : Text) {count : Nat} (hline : inner.line = count)
    (hopened : inner.opened = []) (hpending : inner.pending = none) :
    ((inner.raise 0 (s.line + 1)).inside s name (s.line + 1)).step closingLine =
      .ok ((s.withBlocks (Table.insert s.level.blocks name
        ⟨name, inner.root.scope, inner.root.blocks⟩)).raise s.line (count + 2)) := by
  obtain ⟨line, root, opened, pending⟩ := inner
  simp only at hline hopened hpending
  subst hline hopened hpending
  have hbelow : (⟨line + (s.line + 1) + 1, s.root, s.opened, none⟩ : State) =
      s.atLine (s.line + (line + 2)) := by
    rw [atLine, hs]
    congr 1
    omega
  have hlater := raise_of_startsBehind (s := s.withBlocks (Table.insert s.level.blocks name
    ⟨name, root.scope, root.blocks⟩)) (by simpa [withBlocks] using hs)
    (startsBehind_setLevel hstarts _) (line + 2)
  simp only [withBlocks, line_setLevel] at hlater
  have hstep : (((⟨line, root, [], none⟩ : State).raise 0 (s.line + 1)).inside s name
      (s.line + 1)).step closingLine =
        (⟨line + (s.line + 1) + 1, s.root, ⟨name, s.line + 1, root⟩ :: s.opened, none⟩ :
          State).closeBlock := by
    simp only [step, inside, raise, List.map_nil, List.nil_append, Option.map_none, takeLine,
      shape_closingLine]
  rw [hstep, closeBlock]
  simp only [hbelow, level_atLine, setLevel_atLine, withBlocks, hlater]

theorem stepAll_block {s : State} (hs : s.pending = none) (hstarts : s.StartsBehind) {name : Text}
    (hname : name.IsBlockName) {inner : State} {lines : List Text}
    (hinner : (initial 0).stepAll lines = .ok inner) (hopened : inner.opened = [])
    (hpending : inner.pending = none) :
    s.stepAll (openingLine name :: lines ++ [closingLine]) =
      .ok ((s.withBlocks (Table.insert s.level.blocks name
        ⟨name, inner.root.scope, inner.root.blocks⟩)).raise s.line (lines.length + 2)) := by
  have hshape := hname.shape_openingLine
  have hne : ¬ name.isEmpty = true := by
    simpa using hname.ne_nil
  have hopen : s.step (openingLine name) =
      .ok (((initial 0).raise 0 (s.line + 1)).inside s name (s.line + 1)) := by
    simp [step, hs, takeLine, hshape, hne, openBlock, inside, initial, raise]
  have hfill : (((initial 0).raise 0 (s.line + 1)).inside s name (s.line + 1)).stepAll lines =
      .ok ((inner.raise 0 (s.line + 1)).inside s name (s.line + 1)) := by
    refine stepAll_inside s name (s.line + 1) ?_
    rw [stepAll_raise (s.line + 1) (Nat.zero_le _), hinner]
    rfl
  have hline := line_of_stepAll_initial hinner
  have hclose := step_closingLine_inside hs hstarts name hline hopened hpending
  rw [List.cons_append, stepAll, hopen]
  simp only
  rw [stepAll_append, hfill]
  simp only [stepAll, hclose]

end State

/-- A block in a source is a frame: it holds what its lines denote on their own, and the source
around it denotes what it denotes without the block. -/
theorem ofLines_insert_block {first lines last : List Text} {name : Text} {inner : Document}
    (hfirst : ∀ e, Document.ofLines first = .error e → ∃ b : OpenBlock, e = b.unclosed)
    (hfirstEnd : ∀ line ∈ (first.map stripComment).getLast?, continues line = false)
    (hlines : Document.ofLines lines = .ok inner)
    (hlinesEnd : ∀ line ∈ (lines.map stripComment).getLast?, continues line = false)
    (hname : name.IsBlockName) :
    ∃ s, (State.initial 0).stepAll (first.map stripComment) = .ok s ∧
      State.Framed name ⟨name, inner.attributes, inner.blocks⟩
        (s.opened.reverse.map OpenBlock.name)
        (State.displaces s.root s.opened none s.line (last.map stripComment))
        ((Document.ofLines (first ++ last)).mapError
          (Error.raise first.length (lines.length + 2)))
        (Document.ofLines (first ++ openingLine name :: lines ++ closingLine :: last)) := by
  obtain ⟨s, hs, hpending, hline, hstarts⟩ := exists_state_of_lines hfirst hfirstEnd
  refine ⟨s, hs, ?_⟩
  obtain ⟨t, ht, htpending, htopened, rfl⟩ := exists_closed_state_of_lines hlines hlinesEnd
  have hshort : Document.ofLines (first ++ last) = (s.run (last.map stripComment)).1 := by
    unfold Document.ofLines Reader.ofLines Reader.read
    rw [List.map_append]
    exact congrArg Prod.fst (State.run_append_of_stepAll_ok hs _)
  have hblock := State.stepAll_block hpending hstarts hname ht htopened htpending
  have hlong : Document.ofLines (first ++ openingLine name :: lines ++ closingLine :: last) =
      ((s.withBlocks (Table.insert s.level.blocks name ⟨name, t.root.scope, t.root.blocks⟩)).run
        (last.map stripComment)).1.mapError (Error.raise first.length (lines.length + 2)) := by
    have hmap : (first ++ openingLine name :: lines ++ closingLine :: last).map stripComment =
        first.map stripComment ++
          ((openingLine name :: lines.map stripComment ++ [closingLine]) ++
            last.map stripComment) := by
      simp [hname.stripComment_openingLine, stripComment_closingLine]
    unfold Document.ofLines Reader.ofLines Reader.read
    rw [hmap, State.run_append_of_stepAll_ok hs, State.run_append_of_stepAll_ok hblock,
      List.length_map, ← hline]
    exact State.run_raise _ (by simp [State.withBlocks]) _
  rw [hshort, hlong]
  have hframed := State.run_withBlocks hpending
    (DiffersAt.insert_block s.level.blocks name ⟨name, t.root.scope, t.root.blocks⟩)
    (last.map stripComment)
  rw [List.append_nil] at hframed
  exact hframed.mapError _

theorem ofLines_insert_block_nested :
    let first : List Text := ["a = 1", "p \x7b"]
    let lines : List Text := ["x = 2"]
    let last : List Text := ["y = 3 // three", "\x7d"]
    ∃ s, (State.initial 0).stepAll (first.map stripComment) = .ok s ∧
      State.Framed "n" ⟨"n", [("x", ⟨"x", .number, .scalar (.integer 2)⟩)], []⟩
        (s.opened.reverse.map OpenBlock.name)
        (State.displaces s.root s.opened none s.line (last.map stripComment))
        ((Document.ofLines (first ++ last)).mapError (Error.raise 2 3))
        (Document.ofLines (first ++ openingLine "n" :: lines ++ closingLine :: last)) := by
  intro first lines last
  have hopen : Document.ofLines first = .error (OpenBlock.unclosed ⟨"p", 2, .empty⟩) := rfl
  have hfirst : ∀ e, Document.ofLines first = .error e → ∃ b : OpenBlock, e = b.unclosed := by
    intro e he
    rw [hopen] at he
    exact ⟨_, (Except.error.inj he).symm⟩
  have hlines : Document.ofLines lines = .ok ⟨[("x", ⟨"x", .number, .scalar (.integer 2)⟩)], []⟩ :=
    rfl
  exact ofLines_insert_block hfirst (by decide) hlines (by decide)
    ⟨by decide, by decide, by simp [isQuote], by decide, by decide⟩

/-- A block of the same name beside the block left open takes its place, and the block in it is
lost. -/
theorem displaced_block_lost :
    let first : List Text := ["p \x7b"]
    let last : List Text := ["\x7d", "p \x7b \x7d"]
    Document.ofLines first = .error (OpenBlock.unclosed ⟨"p", 1, .empty⟩) ∧
      Document.ofLines [] = .ok .empty ∧ Text.IsBlockName "n" ∧
      ∃ s d d', (State.initial 0).stepAll (first.map stripComment) = .ok s ∧
        Document.ofLines (first ++ last) = .ok d ∧
        Document.ofLines (first ++ openingLine "n" :: [] ++ closingLine :: last) = .ok d' ∧
        ¬ DiffersAt "n" ⟨"n", [], []⟩ (s.opened.reverse.map OpenBlock.name) d.blocks d'.blocks := by
  intro first last
  refine ⟨rfl, rfl, ⟨by decide, by decide, by simp [isQuote], by decide, by decide⟩,
    ⟨1, .empty, [⟨"p", 1, .empty⟩], none⟩, ⟨[], [("p", ⟨"p", [], []⟩)]⟩,
    ⟨[], [("p", ⟨"p", [], []⟩)]⟩, rfl, rfl, rfl, fun h => ?_⟩
  obtain ⟨b, b', hb, hb', -, -, h⟩ := h.get?
  rw [← Option.some.inj hb, ← Option.some.inj hb'] at h
  cases h.get?_new rfl

end BlockConfig
