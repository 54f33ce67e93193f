import BlockConfig.Proofs.Evaluation.Parts

set_option autoImplicit false

/-!
Evaluation looks up parts of its text and nothing else. Only a condition goes further: it may name
an attribute that stores a text, and then it looks up parts of that text too.
-/

namespace BlockConfig

def Scope.AgreeOn (t : Text) (first second : Scope) : Prop :=
  ∀ m, m <:+: t → first.find? m = second.find? m

namespace Scope

variable {first second : Scope} {s t : Text}

theorem AgreeOn.part (h : AgreeOn t first second) (hs : s <:+: t) : AgreeOn s first second :=
  fun m hm => h m (hm.trans hs)

theorem AgreeOn.find? (h : AgreeOn t first second) : first.find? t = second.find? t :=
  h t (List.infix_refl t)

theorem AgreeOn.add (h : AgreeOn t first second) (a : Attribute) :
    AgreeOn t (first.add a) (second.add a) := by
  intro m hm
  rw [find?_add, find?_add, h m hm]

theorem AgreeOn.bind (h : AgreeOn t first second) (index : Nat) (element : Scalar) :
    AgreeOn t (first.bind index element) (second.bind index element) :=
  (h.add _).add _

end Scope

theorem bind_eq_bind_of_ok {α β : Type} {x : Except Error α} {f g : α → Except Error β}
    (h : ∀ a, x = .ok a → f a = g a) : x >>= f = x >>= g := by
  cases x with
  | error e => rfl
  | ok a => exact h a rfl

theorem mapM_congr_of_mem {α β : Type} {f g : α → Except Error β} {items : List α}
    (h : ∀ a ∈ items, f a = g a) : items.mapM f = items.mapM g := by
  induction items with
  | nil => rfl
  | cons a rest ih =>
    have hrest : rest.mapM f = rest.mapM g := ih fun b hb => h b (List.mem_cons_of_mem _ hb)
    rw [List.mapM_cons, List.mapM_cons, h a (by simp), hrest]

section Locality

variable {first second : Scope} {t : Text}

theorem operand_congr {name : Text} (h : first.find? name = second.find? name) (truncating : Bool)
    (expression : Text) :
    first.operand truncating expression name = second.operand truncating expression name := by
  unfold Scope.operand
  rw [h]

theorem compare_congr (h : Scope.AgreeOn t first second) : compare t first = compare t second := by
  unfold compare
  cases Comparator.select? t with
  | none => rfl
  | some c =>
    obtain ⟨hl, hr⟩ := operandsAt_infix c.token t
    simp only [operand_congr (h.part hl).find?, operand_congr (h.part hr).find?]

theorem calculate_congr (h : Scope.AgreeOn t first second) :
    calculate t first = calculate t second := by
  unfold calculate
  cases Operator.select? t with
  | none => rfl
  | some o =>
    obtain ⟨hl, hr⟩ := operandsAt_infix o.token t
    simp only [operand_congr (h.part hl).find?, operand_congr (h.part hr).find?]

namespace Call

variable {call : Call} {argument : Text}

theorem textArgument_congr (h : first.find? argument = second.find? argument) :
    call.textArgument first argument = call.textArgument second argument := by
  unfold textArgument
  rw [h]

theorem integerArgument_congr (h : first.find? argument = second.find? argument) :
    call.integerArgument first argument = call.integerArgument second argument := by
  unfold integerArgument
  rw [h]

theorem booleanArgument_congr (h : first.find? argument = second.find? argument) :
    call.booleanArgument first argument = call.booleanArgument second argument := by
  unfold booleanArgument
  rw [h]

end Call

theorem callOnText_congr (h : Scope.AgreeOn t first second) :
    callOnText t first = callOnText t second := by
  unfold callOnText
  refine bind_eq_bind_of_ok fun call hcall => ?_
  have hinner := h.part (Call.inner_infix hcall)
  cases TextFunction.ofName? call.name with
  | none => rfl
  | some f =>
    -- Functions of one argument look up all that is in the parentheses, the others its two parts.
    cases f
    case concat | contains =>
      refine bind_eq_bind_of_ok fun p hp => ?_
      obtain ⟨ha, hb⟩ := Call.pair_infix hp
      simp only [Call.textArgument_congr (hinner.part ha).find?,
        Call.textArgument_congr (hinner.part hb).find?]
    case upper | lower | length => simp only [Call.textArgument_congr hinner.find?]

theorem callOnIntegers_congr (h : Scope.AgreeOn t first second) :
    callOnIntegers t first = callOnIntegers t second := by
  unfold callOnIntegers
  refine bind_eq_bind_of_ok fun call hcall => ?_
  have hinner := h.part (Call.inner_infix hcall)
  cases MathFunction.ofName? call.name with
  | none => rfl
  | some f =>
    refine bind_eq_bind_of_ok fun p hp => ?_
    obtain ⟨ha, hb⟩ := Call.pair_infix hp
    simp only [Call.integerArgument_congr (hinner.part ha).find?,
      Call.integerArgument_congr (hinner.part hb).find?]

theorem callOnBooleans_congr (h : Scope.AgreeOn t first second) :
    callOnBooleans t first = callOnBooleans t second := by
  unfold callOnBooleans
  refine bind_eq_bind_of_ok fun call hcall => ?_
  have hinner := h.part (Call.inner_infix hcall)
  cases LogicFunction.ofName? call.name with
  | none => rfl
  | some f =>
    refine bind_eq_bind_of_ok fun p hp => ?_
    obtain ⟨ha, hb⟩ := Call.pair_infix hp
    simp only [Call.booleanArgument_congr (hinner.part ha).find?,
      Call.booleanArgument_congr (hinner.part hb).find?]

theorem evaluateAs_congr (h : Scope.AgreeOn t first second) (form : Form) :
    evaluateAs form t first = evaluateAs form t second := by
  cases form with
  | comparison => simp only [evaluateAs, compare_congr h]
  | arithmetic => simp only [evaluateAs, calculate_congr h]
  | textCall => exact callOnText_congr h
  | mathCall => simp only [evaluateAs, callOnIntegers_congr h]
  | logicCall => simp only [evaluateAs, callOnBooleans_congr h]
  | string | array | boolean | number => rfl

theorem evaluateScalar_congr (h : Scope.AgreeOn t first second) (nested : Error) :
    evaluateScalar nested t first = evaluateScalar nested t second := by
  unfold evaluateScalar
  simp only [evaluateAs_congr h]

theorem evaluateArray_congr (h : Scope.AgreeOn t first second) :
    evaluateArray t first = evaluateArray t second :=
  mapM_congr_of_mem fun _ hpart =>
    evaluateScalar_congr (h.part (infix_of_mem_elementTexts hpart)) _

theorem evaluatePlain_congr (h : Scope.AgreeOn t first second) :
    evaluatePlain t first = evaluatePlain t second := by
  unfold evaluatePlain
  simp only [evaluateArray_congr h, evaluateAs_congr h]

theorem projectionSource_congr (h : Scope.AgreeOn t first second) :
    projectionSource t first = projectionSource t second := by
  unfold projectionSource
  rw [h.find?, evaluateArray_congr h]

theorem projectionOutcome_congr (h : Scope.AgreeOn t first second) :
    projectionOutcome t first = projectionOutcome t second := by
  unfold projectionOutcome
  simp only [h.find?, evaluateScalar_congr h]

/-- The names that a projection binds mean the same in both scopes, even where they meant something
else before. -/
theorem projectFrom_congr (h : Scope.AgreeOn t first second) (index : Nat) (items : List Scalar) :
    (projectFrom t index items first).1 = (projectFrom t index items second).1 := by
  induction items generalizing index first second with
  | nil => rfl
  | cons element rest ih =>
    have hbound := h.bind index element
    rw [projectFrom, projectFrom, projectionOutcome_congr hbound]
    cases projectionOutcome t (second.bind index element) with
    | error e => rfl
    | ok result => simp only [ih hbound (index + 1)]

theorem evaluateProjection_congr {body : Text} (h : Scope.AgreeOn body first second)
    (whole : Text) :
    (evaluateProjection whole body first).1 = (evaluateProjection whole body second).1 := by
  unfold evaluateProjection
  cases hp : projectionParts? body with
  | none => rfl
  | some parts =>
    obtain ⟨hsource, houtcome⟩ := projectionParts?_infix hp
    simp only [projectionSource_congr (h.part hsource)]
    cases projectionSource parts.1 second with
    | error e => rfl
    | ok items => exact projectFrom_congr (h.part houtcome) 0 items

theorem Outcome.read_congr (h : Scope.AgreeOn t first second) :
    Outcome.read t first = Outcome.read t second := by
  unfold Outcome.read
  rw [h.find?]

theorem evaluateDeferred_congr (h : Scope.AgreeOn t first second) :
    evaluateDeferred t first = evaluateDeferred t second := by
  unfold evaluateDeferred
  rw [compare_congr h, callOnText_congr h, callOnBooleans_congr h]

theorem evaluateCondition_congr {condition : Text} (h : Scope.AgreeOn condition first second)
    (hstored : ∀ a t, first.find? condition = some a → a.value = .scalar (.expression t) →
      Scope.AgreeOn t first second) (whole : Text) :
    evaluateCondition condition whole first = evaluateCondition condition whole second := by
  unfold evaluateCondition
  split
  · rfl
  · rw [← Outcome.read_congr h]
    refine bind_eq_bind_of_ok fun outcome hread => ?_
    split
    · rename_i t
      have ht : t = condition := by
        unfold Outcome.read at hread
        repeat' split at hread
        all_goals simp_all
      subst ht
      exact evaluateDeferred_congr h
    · rename_i kind t
      have hfound : ∃ a, first.find? condition = some a ∧ a.value = .scalar (.expression t) := by
        unfold Outcome.read at hread
        split at hread
        · rename_i a ha
          simp only [Except.ok.injEq, Outcome.reference.injEq] at hread
          exact ⟨a, ha, hread.2⟩
        · repeat' split at hread
          all_goals simp at hread
      obtain ⟨a, ha, hv⟩ := hfound
      exact evaluateDeferred_congr (hstored a t ha hv)
    · rfl
    · rfl
    · rfl

theorem evaluateConditional_congr {body : Text} (h : Scope.AgreeOn body first second)
    (hstored : ∀ name a t, name <:+: body → first.find? name = some a →
      a.value = .scalar (.expression t) → Scope.AgreeOn t first second) (whole : Text) :
    evaluateConditional whole body first = evaluateConditional whole body second := by
  unfold evaluateConditional
  cases hp : conditionalParts? body with
  | none => rfl
  | some parts =>
    obtain ⟨hcondition, hpositive, hnegative⟩ := conditionalParts?_infix hp
    have hc := evaluateCondition_congr (h.part hcondition)
      (fun a t => hstored parts.1 a t hcondition) whole
    simp only [Outcome.read_congr (h.part hpositive), Outcome.read_congr (h.part hnegative), hc]

theorem evaluate_congr (h : Scope.AgreeOn t first second)
    (hstored : ∀ name a s, name <:+: t → first.find? name = some a →
      a.value = .scalar (.expression s) → Scope.AgreeOn s first second) :
    (evaluate t first).1 = (evaluate t second).1 := by
  unfold evaluate
  cases hi : keywordBody? "if" t with
  | some body =>
    have hbody := infix_of_keywordBody? hi
    have hstored' := fun name a s (hname : name <:+: body) => hstored name a s (hname.trans hbody)
    simp only [evaluateConditional_congr (h.part hbody) hstored']
  | none =>
    cases hf : keywordBody? "for" t with
    | some body =>
      simp only [evaluateProjection_congr (h.part (infix_of_keywordBody? hf))]
    | none => simp only [evaluatePlain_congr h]

end Locality

/-- Evaluation depends on the names that occur in its text, and on those that occur in the texts
stored under such names. -/
theorem evaluateAttribute_eq_of_agree (raw : Text) (first second : Scope)
    (hnames : ∀ m, m <:+: raw.trim → first.find? m = second.find? m)
    (hstored : ∀ name a t, name <:+: raw.trim → first.find? name = some a →
      a.value = .scalar (.expression t) → ∀ m, m <:+: t → first.find? m = second.find? m) :
    (evaluateAttribute raw first).1 = (evaluateAttribute raw second).1 := by
  unfold evaluateAttribute
  simp only [evaluate_congr hnames hstored]

theorem evaluateAttribute_eq_of_agree_deferred :
    let n : Text × Attribute := ("n", ⟨"n", .number, .scalar (.integer 2)⟩)
    let c : Text × Attribute := ("c", ⟨"c", .boolean, .scalar (.expression "n > 1")⟩)
    let z : Text × Attribute := ("z", ⟨"z", .number, .scalar (.integer 7)⟩)
    (evaluateAttribute " if c ? 1 : 2 " [n, c]).1 = (evaluateAttribute " if c ? 1 : 2 " [z, c, n]).1 ∧
      (evaluateAttribute " if c ? 1 : 2 " [n, c]).1.toOption =
        some ⟨[], .number, .scalar (.integer 1)⟩ := by
  intro n c z
  have hfind : ∀ m : Text, 'z' ∉ m → Scope.find? [n, c] m = Scope.find? [z, c, n] m := by
    intro m hm
    have hz : z.1 ≠ m := by
      intro he
      exact hm (by rw [← he]; decide)
    simp only [Scope.find?, Table.get?]
    by_cases hn : n.1 = m
    · subst hn
      decide
    · simp [hn, hz]
  have hsub : ∀ t m : Text, 'z' ∉ t → m <:+: t → 'z' ∉ m := fun t m ht hm h => ht (hm.subset h)
  refine ⟨evaluateAttribute_eq_of_agree _ _ _ (fun m hm => hfind m ?_) ?_, by decide⟩
  · exact hsub _ m (by decide) hm
  · intro name a t _ ha hv m hm
    refine hfind m (hsub t m ?_ hm)
    have ht : t = "n > 1".toList := by
      simp only [Scope.find?, Table.get?] at ha
      split at ha
      · rw [← Option.some.inj ha] at hv
        simp [n] at hv
      · split at ha
        · rw [← Option.some.inj ha] at hv
          simp only [c, Value.scalar.injEq, Scalar.expression.injEq] at hv
          exact hv.symm
        · simp at ha
    rw [ht]
    decide

end BlockConfig
