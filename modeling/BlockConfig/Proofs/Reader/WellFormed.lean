import BlockConfig.Proofs.Reader.Invariant

set_option autoImplicit false

namespace BlockConfig

structure Text.IsAttributeName (t : Text) : Prop extends t.IsName where
  no_equals : '=' ∉ t

/-- The type is array where the value is one, and otherwise that of its scalar. -/
structure Attribute.IsTagged (a : Attribute) : Prop where
  array_iff : a.kind = .array ↔ ∃ items, a.value = .array items
  kind_eq : ∀ s, a.value = .scalar s → a.kind = s.kind

theorem Scalar.kind_ne_array (s : Scalar) : s.kind ≠ .array := by
  cases s <;> simp [kind]

theorem Attribute.isTagged_iff (a : Attribute) : a.IsTagged ↔ a.kind = a.value.kind := by
  obtain ⟨name, kind, value⟩ := a
  cases value with
  | scalar s =>
    refine ⟨fun h => h.kind_eq s rfl, fun h => ?_⟩
    obtain rfl : kind = s.kind := h
    refine ⟨⟨fun h => absurd h s.kind_ne_array, ?_⟩, fun t ht => ?_⟩
    · rintro ⟨items, hitems⟩
      cases hitems
    · cases ht
      rfl
  | array items =>
    refine ⟨fun h => h.array_iff.2 ⟨items, rfl⟩, fun h => ?_⟩
    obtain rfl : kind = .array := h
    refine ⟨⟨fun _ => ⟨items, rfl⟩, fun _ => rfl⟩, fun s hs => ?_⟩
    cases hs

namespace Scope

structure WellFormed (scope : Scope) : Prop where
  keyed : Table.Keyed Attribute.name scope
  tagged : ∀ e ∈ scope, e.2.IsTagged

def Named (scope : Scope) : Prop := ∀ e ∈ scope, e.1.IsAttributeName

variable {scope : Scope}

theorem wellFormed_nil : WellFormed [] := ⟨Table.keyed_nil _, by simp⟩

theorem WellFormed.add (h : scope.WellFormed) {a : Attribute} (ha : a.IsTagged) :
    (scope.add a).WellFormed := by
  refine ⟨h.keyed.insert a, fun e he => ?_⟩
  rcases Table.mem_insert he with rfl | he
  · exact ha
  · exact h.tagged e he

theorem Named.add (h : scope.Named) {a : Attribute} (ha : a.name.IsAttributeName) :
    (scope.add a).Named := by
  intro e he
  rcases Table.mem_insert he with rfl | he
  · exact ha
  · exact h e he

theorem WellFormed.bind (h : scope.WellFormed) (index : Nat) (element : Scalar) :
    (scope.bind index element).WellFormed := by
  have hindex : (scope.add ⟨indexName, .number, .scalar (.integer (.ofNat index))⟩).WellFormed :=
    h.add ((Attribute.isTagged_iff _).2 rfl)
  exact hindex.add ((Attribute.isTagged_iff _).2 rfl)

theorem Named.bind (h : scope.Named) (index : Nat) (element : Scalar) :
    (scope.bind index element).Named := by
  have hindexName : indexName.IsAttributeName := ⟨⟨by decide, by decide⟩, by decide⟩
  have hvalueName : valueName.IsAttributeName := ⟨⟨by decide, by decide⟩, by decide⟩
  have hindex : (scope.add ⟨indexName, .number, .scalar (.integer (.ofNat index))⟩).Named :=
    h.add hindexName
  exact hindex.add hvalueName

theorem WellFormed.evaluate (h : scope.WellFormed) (t : Text) :
    (evaluate t scope).2.WellFormed :=
  evaluate_keeps (I := WellFormed) (fun _ index element h => h.bind index element) h t

theorem Named.evaluate (h : scope.Named) (t : Text) : (evaluate t scope).2.Named :=
  evaluate_keeps (I := Named) (fun _ index element h => h.bind index element) h t

theorem WellFormed.kind_eq (h : scope.WellFormed) {t : Text} {kind : Kind} {value : Value}
    (hvalue : (BlockConfig.evaluate t scope).1 = .ok (kind, value)) : kind = value.kind := by
  have htagged : scope.Tagged := fun e he => (Attribute.isTagged_iff e.2).1 (h.tagged e he)
  have hmeets := (evaluate_meets Text.closed_anything scope.holds_anything (t := t) trivial).1
  exact (hmeets.of_ok hvalue).2 htagged

/-- The scopes that evaluation leads to from the empty one, with the attributes it has yielded on
the way: any text can be evaluated next, and any of the attributes entered under any name. -/
inductive Reached : Scope → List Attribute → Prop
  | empty : Reached [] []
  | succeeded {scope : Scope} {results : List Attribute} (h : Reached scope results) (raw : Text)
      {a : Attribute} (ha : (evaluateAttribute raw scope).1 = .ok a) :
      Reached (evaluateAttribute raw scope).2 (a :: results)
  | failed {scope : Scope} {results : List Attribute} (h : Reached scope results) (raw : Text)
      {e : Error} (he : (evaluateAttribute raw scope).1 = .error e) :
      Reached (evaluateAttribute raw scope).2 results
  | inserted {scope : Scope} {results : List Attribute} (h : Reached scope results)
      {a : Attribute} (ha : a ∈ results) (name : Text) :
      Reached (scope.add { a with name := name }) results

theorem WellFormed.isTagged_of_evaluateAttribute (h : scope.WellFormed) {raw : Text}
    {a : Attribute} (ha : (evaluateAttribute raw scope).1 = .ok a) : a.IsTagged := by
  obtain ⟨⟨kind, value⟩, hvalue, rfl⟩ := exists_of_map_ok ha
  exact (Attribute.isTagged_iff _).2 (h.kind_eq hvalue)

theorem Reached.wellFormed {results : List Attribute} (h : Reached scope results) :
    scope.WellFormed ∧ ∀ a ∈ results, a.IsTagged := by
  induction h with
  | empty => exact ⟨wellFormed_nil, by simp⟩
  | succeeded _ raw ha ih =>
    refine ⟨ih.1.evaluate raw.trim, fun a hmem => ?_⟩
    rcases List.mem_cons.1 hmem with rfl | hmem
    · exact ih.1.isTagged_of_evaluateAttribute ha
    · exact ih.2 a hmem
  | failed _ raw _ ih => exact ⟨ih.1.evaluate raw.trim, ih.2⟩
  | @inserted scope results _ a ha name ih =>
    have htagged := (Attribute.isTagged_iff a).1 (ih.2 a ha)
    exact ⟨ih.1.add ((Attribute.isTagged_iff { a with name := name }).2 htagged), ih.2⟩

end Scope

/-- Attributes and blocks are entered under their names, attributes have the types of their values,
and what a block holds is well formed as a document of its own. -/
inductive Document.WellFormed : Document → Prop
  | intro {d : Document} (attributes : Scope.WellFormed d.attributes)
      (attributeNames : Scope.Named d.attributes) (blocks : Table.Keyed Block.name d.blocks)
      (blockNames : ∀ e ∈ d.blocks, e.1.IsName)
      (inner : ∀ e ∈ d.blocks, WellFormed ⟨e.2.attributes, e.2.blocks⟩) : WellFormed d

def Level.WellFormed (level : Level) : Prop := Document.WellFormed ⟨level.scope, level.blocks⟩

namespace Level

variable {level : Level}

theorem wellFormed_empty : WellFormed .empty :=
  .intro Scope.wellFormed_nil (by simp [Scope.Named, empty]) (Table.keyed_nil _) (by simp [empty])
    (by simp [empty])

theorem WellFormed.scope (h : level.WellFormed) : level.scope.WellFormed := by
  cases h with
  | intro attributes _ _ _ _ => exact attributes

theorem WellFormed.named (h : level.WellFormed) : level.scope.Named := by
  cases h with
  | intro _ attributeNames _ _ _ => exact attributeNames

theorem WellFormed.withScope (h : level.WellFormed) {scope : Scope} (hscope : scope.WellFormed)
    (hnamed : scope.Named) : WellFormed { level with scope := scope } := by
  cases h with
  | intro _ _ blocks blockNames inner => exact .intro hscope hnamed blocks blockNames inner

theorem WellFormed.enter (h : level.WellFormed) {inner : Level} (hinner : inner.WellFormed)
    {name : Text} (hname : name.IsName) : (level.enter name inner).WellFormed := by
  cases h with
  | intro attributes attributeNames blocks blockNames held =>
    refine .intro attributes attributeNames
      (blocks.insert ⟨name, inner.scope, inner.blocks⟩) (fun e he => ?_) fun e he => ?_
    all_goals rcases Table.mem_insert he with rfl | he
    · exact hname
    · exact blockNames e he
    · exact hinner
    · exact held e he

theorem WellFormed.readAttribute (h : level.WellFormed) {next : Level} {start k : Nat}
    {line : Text} {rest : List Text}
    (hnext : readAttribute level start line rest = .ok (next, k)) : next.WellFormed := by
  rcases readAttribute_cases hnext with rfl | ⟨front, back, hcut, hisName, hentered⟩
  · exact h
  have hcut : line.cut? ['='] = some (front, back) := hcut
  have hname : front.trim.IsAttributeName :=
    ⟨hisName, fun hmem => Text.not_mem_of_cut? hcut ((Text.trim_infix front).subset hmem)⟩
  rcases hentered with rfl | ⟨raw, -, -, hdefine⟩
  · exact h.withScope (h.scope.add ((Attribute.isTagged_iff _).2 rfl)) (h.named.add hname)
  · obtain ⟨kind, value, hvalue, rfl⟩ := exists_of_define hdefine
    have hkind := h.scope.kind_eq hvalue
    exact h.withScope ((h.scope.evaluate raw).add ((Attribute.isTagged_iff _).2 hkind))
      ((h.named.evaluate raw).add hname)

theorem wellFormed_kept : Kept Anything WellFormed where
  empty := wellFormed_empty
  enter h hinner hname := h.enter hinner hname
  readAttribute h _ _ hnext := h.readAttribute hnext

end Level

theorem wellFormed_of_ofLines {lines : List Text} {d : Document}
    (h : Document.ofLines lines = .ok d) : d.WellFormed :=
  Level.wellFormed_kept.ofLines (fun _ _ => trivial) h

/-- Every document that a source denotes is well formed, and so is every scope that evaluation
reaches. -/
theorem wellFormed_of_ofSource :
    (∀ (source : Text) (d : Document), Document.ofSource source = .ok d → d.WellFormed) ∧
    ∀ (scope : Scope) (results : List Attribute), Scope.Reached scope results →
      scope.WellFormed :=
  ⟨fun _ _ h => wellFormed_of_ofLines h, fun _ _ h => h.wellFormed.1⟩

theorem wellFormed_of_ofSource_projection :
    let source : Text := "xs = [7]\nys = for xs : index\np \x7b\nc = 'd'\n\x7d"
    let d : Document := ⟨[("xs", ⟨"xs", .array, .array [.integer 7]⟩),
      ("index", ⟨"index", .number, .scalar (.integer 0)⟩),
      ("value", ⟨"value", .number, .scalar (.integer 7)⟩),
      ("ys", ⟨"ys", .array, .array [.integer 0]⟩)],
      [("p", ⟨"p", [("c", ⟨"c", .string, .scalar (.string "d")⟩)], []⟩)]⟩
    let scope : Scope := [("index", ⟨"index", .number, .scalar (.integer 0)⟩),
      ("value", ⟨"value", .number, .scalar (.integer 7)⟩)]
    Document.ofSource source = .ok d ∧ d.WellFormed ∧
      Scope.Reached scope [] ∧ scope.WellFormed := by
  intro source d scope
  have hsource : Document.ofSource source = .ok d := rfl
  obtain ⟨e, hfails⟩ : ∃ e, (evaluateAttribute "for [7] : x".toList []).1 = .error e := ⟨_, rfl⟩
  have hreached : Scope.Reached scope [] := .failed .empty "for [7] : x".toList hfails
  exact ⟨hsource, wellFormed_of_ofSource.1 source d hsource, hreached,
    wellFormed_of_ofSource.2 scope [] hreached⟩

end BlockConfig
