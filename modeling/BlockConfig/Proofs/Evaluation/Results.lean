import BlockConfig.Proofs.Evaluation.Parts
import BlockConfig.Proofs.Table

set_option autoImplicit false

/-!
What evaluation returns. Its errors are about a value and know no line yet; the texts in its values
are parts of the text evaluated and of texts in scope, or made from such parts by the functions on
text.
-/

namespace BlockConfig

/-- A property of texts that evaluation cannot leave. -/
structure Text.Closed (P : Text → Prop) : Prop where
  part : ∀ {s t : Text}, s <:+: t → P t → P s
  upper : ∀ {t : Text}, P t → P t.upper
  lower : ∀ {t : Text}, P t → P t.lower
  joined : ∀ {s t : Text}, P s → P t → P (s ++ " " ++ t)

def Scalar.Holds (P : Text → Prop) : Scalar → Prop
  | .string t | .expression t => P t
  | .integer _ | .float _ | .boolean _ => True

def Scalar.isExpression : Scalar → Bool
  | .expression _ => true
  | _ => false

def Scalar.Computed (P : Text → Prop) (s : Scalar) : Prop :=
  s.Holds P ∧ s.isExpression = false

def Value.scalars : Value → List Scalar
  | .scalar s => [s]
  | .array items => items

def Value.Holds (P : Text → Prop) : Value → Prop
  | .scalar s => s.Holds P
  | .array items => ∀ s ∈ items, s.Holds P

def Scope.Holds (P : Text → Prop) (scope : Scope) : Prop := ∀ e ∈ scope, e.2.value.Holds P

def Scope.Tagged (scope : Scope) : Prop := ∀ e ∈ scope, e.2.kind = e.2.value.kind

theorem Scope.Holds.of_find? {P : Text → Prop} {scope : Scope} (h : scope.Holds P) {name : Text}
    {a : Attribute} (ha : scope.find? name = some a) : a.value.Holds P :=
  h (name, a) (Table.mem_of_get? ha)

/-- What can be wrong with a value, apart from the lines it is written on. -/
def Cause.ofValue : Cause → Bool
  | .unclassifiable _ | .nestedArray _ | .argumentCount _ _ _ | .unknownReference _ _ => true
  | .nonIntegerOperand _ _ | .argumentType _ _ _ | .functionInCondition _ _ => true
  | .conditionType _ _ | .missingOutcome _ | .projectionSource _ | .unknownFunction _ => true
  | .divisionByZero _ => true
  | _ => false

theorem Cause.hasLine_of_ofValue {cause : Cause} (h : cause.ofValue = true) :
    cause.hasLine = true := by
  cases cause <;> simp_all [ofValue, hasLine]

structure Error.Unplaced (e : Error) : Prop where
  line_eq : e.line = 0
  ofValue : e.cause.ofValue = true

theorem Error.Unplaced.atLine {e : Error} (h : e.Unplaced) (line : Nat) :
    e.atLine line = ⟨e.cause, line, e.hint⟩ := by
  unfold Error.atLine
  rw [if_pos ⟨Cause.hasLine_of_ofValue h.ofValue, h.line_eq⟩]

theorem exists_of_map_ok {ε α β : Type} {x : Except ε α} {f : α → β} {b : β}
    (h : x.map f = .ok b) : ∃ a, x = .ok a ∧ f a = b := by
  cases x with
  | error e => cases h
  | ok a => exact ⟨a, rfl, Except.ok.inj h⟩

theorem exists_of_bind_ok {ε α β : Type} {x : Except ε α} {f : α → Except ε β} {b : β}
    (h : x >>= f = .ok b) : ∃ a, x = .ok a ∧ f a = .ok b := by
  cases x with
  | error e => cases h
  | ok a => exact ⟨a, rfl, h⟩

/-- The result has a property, or is an error about a value. -/
def Meets {α : Type} (result : Except Error α) (P : α → Prop) : Prop :=
  match result with
  | .ok a => P a
  | .error e => e.Unplaced

section Meets

variable {α β : Type} {P : α → Prop} {Q : β → Prop} {x : Except Error α}

theorem meets_ok {a : α} (h : P a) : Meets (.ok a) P := h

theorem meets_hinted {cause : Cause} (hint : Text) (h : cause.ofValue = true) :
    Meets (.error (.hinted cause hint)) P := ⟨rfl, h⟩

theorem meets_plain {cause : Cause} (h : cause.ofValue = true) :
    Meets (.error (.plain cause)) P := ⟨rfl, h⟩

theorem Meets.bind {f : α → Except Error β} (hx : Meets x P) (hf : ∀ a, P a → Meets (f a) Q) :
    Meets (x >>= f) Q := by
  cases x with
  | error e => exact hx
  | ok a => exact hf a hx

theorem Meets.map {f : α → β} (hx : Meets x P) (hf : ∀ a, P a → Q (f a)) :
    Meets (x.map f) Q := by
  cases x with
  | error e => exact hx
  | ok a => exact hf a hx

theorem Meets.mono {R : α → Prop} (hx : Meets x P) (h : ∀ a, P a → R a) : Meets x R := by
  cases x with
  | error e => exact hx
  | ok a => exact h a hx

theorem Meets.of_ok {a : α} (hx : Meets x P) (h : x = .ok a) : P a := by
  subst h
  exact hx

theorem Meets.of_error {e : Error} (hx : Meets x P) (h : x = .error e) : e.Unplaced := by
  subst h
  exact hx

theorem meets_mapM {γ : Type} {f : γ → Except Error α} {items : List γ}
    (h : ∀ item ∈ items, Meets (f item) P) : Meets (items.mapM f) (fun xs => ∀ x ∈ xs, P x) := by
  induction items with
  | nil => exact meets_ok (by simp)
  | cons item rest ih =>
    rw [List.mapM_cons]
    refine (h item (by simp)).bind fun a ha => ?_
    refine (ih fun other ho => h other (List.mem_cons_of_mem _ ho)).bind fun as has => ?_
    refine meets_ok fun x hx => ?_
    rcases List.mem_cons.1 hx with rfl | hx
    · exact ha
    · exact has x hx

end Meets

/-- Nothing is asked of the value: a statement about errors alone. -/
abbrev Anything {α : Type} (_ : α) : Prop := True

theorem operand_meets (scope : Scope) (truncating : Bool) (expression name : Text) :
    Meets (scope.operand truncating expression name) Anything := by
  unfold Scope.operand
  split
  · exact meets_ok trivial
  · split
    · exact meets_hinted _ rfl
    · split
      · exact meets_ok trivial
      · exact meets_ok trivial
      · exact meets_hinted _ rfl

theorem Comparator.exists_select? {t : Text} (h : t.containsAny comparisonTokens = true) :
    ∃ c, Comparator.select? t = some c := by
  have htokens : comparisonTokens = Comparator.all.map Comparator.token := rfl
  rw [Text.containsAny, htokens, List.any_map, List.any_eq_true] at h
  obtain ⟨c, hc, hin⟩ := h
  rw [← Option.isSome_iff_exists, Comparator.select?, List.find?_isSome]
  exact ⟨c, List.mem_reverse.2 hc, hin⟩

theorem Operator.exists_select? {t : Text} (h : t.containsAny arithmeticTokens = true) :
    ∃ o, Operator.select? t = some o := by
  have htokens : arithmeticTokens = Operator.all.map Operator.token := rfl
  rw [Text.containsAny, htokens, List.any_map, List.any_eq_true] at h
  obtain ⟨o, ho, hin⟩ := h
  rw [← Option.isSome_iff_exists, Operator.select?, List.find?_isSome]
  exact ⟨o, List.mem_reverse.2 ho, hin⟩

theorem compare_meets {expression : Text} (h : expression.containsAny comparisonTokens = true)
    (scope : Scope) : Meets (compare expression scope) Anything := by
  obtain ⟨comparator, hselect⟩ := Comparator.exists_select? h
  unfold compare
  rw [hselect]
  exact (operand_meets ..).bind fun m _ => (operand_meets ..).bind fun n _ => meets_ok trivial

theorem calculate_meets {expression : Text} (h : expression.containsAny arithmeticTokens = true)
    (scope : Scope) : Meets (calculate expression scope) Anything := by
  obtain ⟨operator, hselect⟩ := Operator.exists_select? h
  unfold calculate
  rw [hselect]
  refine (operand_meets ..).bind fun m _ => (operand_meets ..).bind fun n _ => ?_
  split
  · exact meets_ok trivial
  · exact meets_plain rfl

theorem Call.read_meets (expression : Text) :
    Meets (Call.read expression) fun call => call.inner <:+: expression := by
  cases h : Call.read expression with
  | ok call => exact Call.inner_infix h
  | error e =>
    unfold Call.read at h
    split at h
    · simp at h
    · rw [← Except.error.inj h]
      exact ⟨rfl, rfl⟩

theorem Call.pair_meets (call : Call) :
    Meets call.pair fun p => p.1 <:+: call.inner ∧ p.2 <:+: call.inner := by
  cases h : call.pair with
  | ok p => exact Call.pair_infix h
  | error e =>
    unfold Call.pair at h
    simp only at h
    split at h
    · split at h
      · rw [← Except.error.inj h]
        exact ⟨rfl, rfl⟩
      · simp at h
    · rw [← Except.error.inj h]
      exact ⟨rfl, rfl⟩

theorem integerArgument_meets (call : Call) (scope : Scope) (argument : Text) :
    Meets (call.integerArgument scope argument) Anything := by
  unfold Call.integerArgument
  split
  · split
    · exact meets_ok trivial
    · exact meets_plain rfl
  · split
    · exact meets_ok trivial
    · split <;> exact meets_hinted _ rfl

theorem callOnIntegers_meets (expression : Text) (scope : Scope) :
    Meets (callOnIntegers expression scope) Anything := by
  unfold callOnIntegers
  refine (Call.read_meets expression).bind fun call _ => ?_
  split
  · exact meets_hinted _ rfl
  · refine (Call.pair_meets call).bind fun p _ => ?_
    refine (integerArgument_meets ..).bind fun m _ => (integerArgument_meets ..).bind fun n _ => ?_
    split
    · exact meets_ok trivial
    · exact meets_plain rfl

theorem booleanArgument_meets (call : Call) (scope : Scope) (argument : Text) :
    Meets (call.booleanArgument scope argument) Anything := by
  unfold Call.booleanArgument
  split
  · split
    · exact meets_ok trivial
    · exact meets_plain rfl
  · split
    · exact meets_ok trivial
    · exact meets_hinted _ rfl

theorem callOnBooleans_meets (expression : Text) (scope : Scope) :
    Meets (callOnBooleans expression scope) Anything := by
  unfold callOnBooleans
  refine (Call.read_meets expression).bind fun call _ => ?_
  split
  · exact meets_hinted _ rfl
  · refine (Call.pair_meets call).bind fun p _ => ?_
    exact (booleanArgument_meets ..).bind fun m _ => (booleanArgument_meets ..).bind fun n _ =>
      meets_ok trivial

theorem readNumber_meets (P : Text → Prop) (t : Text) :
    Meets (readNumber t) (Scalar.Computed P) := by
  unfold readNumber
  simp only
  cases readSingle? t with
  | none =>
    split
    · exact meets_plain rfl
    · split
      · exact meets_ok ⟨trivial, rfl⟩
      · split
        · exact meets_hinted _ rfl
        · exact meets_plain rfl
  | some x =>
    split
    · exact meets_ok ⟨trivial, rfl⟩
    · split
      · exact meets_ok ⟨trivial, rfl⟩
      · split
        · exact meets_hinted _ rfl
        · exact meets_ok ⟨trivial, rfl⟩

def Form.HasOperator (t : Text) : Form → Prop
  | .comparison => t.containsAny comparisonTokens = true
  | .arithmetic => t.containsAny arithmeticTokens = true
  | _ => True

theorem classify_meets (t : Text) : Meets (classify t) (Form.HasOperator t) := by
  unfold classify
  repeat' split
  all_goals first | exact meets_ok trivial | exact meets_ok ‹_› | exact meets_hinted _ rfl

theorem add_holds {P : Text → Prop} {scope : Scope} (hscope : scope.Holds P) {a : Attribute}
    (ha : a.value.Holds P) : (scope.add a).Holds P := by
  intro e he
  rcases Table.mem_insert he with rfl | he
  · exact ha
  · exact hscope e he

theorem add_tagged {scope : Scope} (hscope : scope.Tagged) {a : Attribute}
    (ha : a.kind = a.value.kind) : (scope.add a).Tagged := by
  intro e he
  rcases Table.mem_insert he with rfl | he
  · exact ha
  · exact hscope e he

theorem bind_holds {P : Text → Prop} {scope : Scope} (hscope : scope.Holds P) (index : Nat)
    {element : Scalar} (he : element.Holds P) : (scope.bind index element).Holds P := by
  have hindex : (scope.add ⟨indexName, .number, .scalar (.integer (.ofNat index))⟩).Holds P :=
    add_holds hscope trivial
  exact add_holds (a := ⟨valueName, element.kind, .scalar element⟩) hindex he

theorem bind_tagged {scope : Scope} (hscope : scope.Tagged) (index : Nat) (element : Scalar) :
    (scope.bind index element).Tagged := by
  have hindex : (scope.add ⟨indexName, .number, .scalar (.integer (.ofNat index))⟩).Tagged :=
    add_tagged hscope rfl
  exact add_tagged hindex rfl

section Evaluation

variable {P : Text → Prop} (hP : Text.Closed P) {scope : Scope} (hscope : scope.Holds P)

include hP hscope

theorem textArgument_meets (call : Call) {argument : Text} (ha : P argument) :
    Meets (call.textArgument scope argument) P := by
  unfold Call.textArgument
  split
  · exact meets_ok (hP.part (Text.unquote_infix argument) ha)
  · rename_i found hfound
    split
    · rename_i t ht
      have hf := hscope.of_find? hfound
      rw [ht] at hf
      exact meets_ok hf
    · exact meets_plain rfl

theorem callOnText_meets {expression : Text} (ht : P expression) :
    Meets (callOnText expression scope) (Scalar.Computed P) := by
  unfold callOnText
  refine (Call.read_meets expression).bind fun call hcall => ?_
  have hinner : P call.inner := hP.part hcall ht
  have hpair : Meets call.pair fun p => P p.1 ∧ P p.2 :=
    (Call.pair_meets call).mono fun p hp => ⟨hP.part hp.1 hinner, hP.part hp.2 hinner⟩
  split
  · exact meets_hinted _ rfl
  · exact (textArgument_meets hP hscope call hinner).bind fun t h => meets_ok ⟨hP.upper h, rfl⟩
  · exact (textArgument_meets hP hscope call hinner).bind fun t h => meets_ok ⟨hP.lower h, rfl⟩
  · exact (textArgument_meets hP hscope call hinner).bind fun t _ => meets_ok ⟨trivial, rfl⟩
  · refine hpair.bind fun p hp => ?_
    refine (textArgument_meets hP hscope call hp.1).bind fun s hs => ?_
    exact (textArgument_meets hP hscope call hp.2).bind fun t h => meets_ok ⟨hP.joined hs h, rfl⟩
  · refine hpair.bind fun p hp => ?_
    refine (textArgument_meets hP hscope call hp.1).bind fun s _ => ?_
    exact (textArgument_meets hP hscope call hp.2).bind fun t _ => meets_ok ⟨trivial, rfl⟩

theorem evaluateAs_meets {form : Form} {t : Text} (hform : form.HasOperator t) (ht : P t) :
    Meets (evaluateAs form t scope) (Scalar.Computed P) := by
  cases form with
  | string => exact meets_ok ⟨hP.part (Text.unquote_infix t) ht, rfl⟩
  | array => exact meets_hinted _ rfl
  | comparison => exact (compare_meets hform scope).map fun _ _ => ⟨trivial, rfl⟩
  | arithmetic => exact (calculate_meets hform scope).map fun _ _ => ⟨trivial, rfl⟩
  | textCall => exact callOnText_meets hP hscope ht
  | mathCall => exact (callOnIntegers_meets t scope).map fun _ _ => ⟨trivial, rfl⟩
  | logicCall => exact (callOnBooleans_meets t scope).map fun _ _ => ⟨trivial, rfl⟩
  | boolean => exact meets_ok ⟨trivial, rfl⟩
  | number => exact readNumber_meets P t

theorem evaluateScalar_meets {nested : Error} (hn : nested.Unplaced) {t : Text} (ht : P t) :
    Meets (evaluateScalar nested t scope) (Scalar.Computed P) := by
  unfold evaluateScalar
  refine (classify_meets t).bind fun form hform => ?_
  cases form with
  | array => exact hn
  | _ => exact evaluateAs_meets hP hscope hform ht

theorem evaluateArray_meets {t : Text} (ht : P t) :
    Meets (evaluateArray t scope) fun items => ∀ s ∈ items, s.Computed P :=
  meets_mapM fun _ hpart =>
    evaluateScalar_meets hP hscope ⟨rfl, rfl⟩ (hP.part (infix_of_mem_elementTexts hpart) ht)

theorem evaluatePlain_meets {t : Text} (ht : P t) :
    Meets (evaluatePlain t scope) fun v => v.Holds P ∧ ∀ u, v ≠ .scalar (.expression u) := by
  unfold evaluatePlain
  refine (classify_meets t).bind fun form hform => ?_
  cases form with
  | array =>
    refine (evaluateArray_meets hP hscope ht).bind fun items h => ?_
    exact meets_ok ⟨fun s hs => (h s hs).1, by simp⟩
  | _ =>
    refine (evaluateAs_meets hP hscope hform ht).bind fun s h => meets_ok ⟨h.1, ?_⟩
    rintro u hu
    injection hu with hu
    subst hu
    exact absurd h.2 (by simp [Scalar.isExpression])

theorem projectionSource_meets {source : Text} (hs : P source) :
    Meets (projectionSource source scope) fun items => ∀ s ∈ items, s.Holds P := by
  unfold projectionSource
  simp only
  split
  · rename_i found hfound
    have hf := hscope.of_find? hfound
    split
    · rename_i items hitems
      rw [hitems] at hf
      exact meets_ok hf
    · exact meets_hinted _ rfl
  · split
    · exact (evaluateArray_meets hP hscope hs).mono fun items h s hm => (h s hm).1
    · exact meets_hinted _ rfl

theorem projectionOutcome_meets {outcome : Text} (ho : P outcome) :
    Meets (projectionOutcome outcome scope) (Scalar.Holds P) := by
  unfold projectionOutcome
  simp only
  split
  · rename_i found hfound
    have hf := hscope.of_find? hfound
    split
    · rename_i s hs
      rw [hs] at hf
      exact meets_ok hf
    · exact meets_hinted _ rfl
  · exact (evaluateScalar_meets hP hscope ⟨rfl, rfl⟩ ho).mono fun s h => h.1

omit hscope in
theorem projectFrom_meets {outcome : Text} (ho : P outcome) (index : Nat) {items : List Scalar}
    (hitems : ∀ s ∈ items, s.Holds P) {scope : Scope} (hscope : scope.Holds P) :
    Meets (projectFrom outcome index items scope).1 (fun xs => ∀ x ∈ xs, x.Holds P) ∧
      (projectFrom outcome index items scope).2.Holds P := by
  induction items generalizing index scope with
  | nil => exact ⟨meets_ok (by simp), hscope⟩
  | cons element rest ih =>
    have hbound := bind_holds hscope index (hitems element (by simp))
    have hout := projectionOutcome_meets hP hbound ho
    rw [projectFrom]
    cases hr : projectionOutcome outcome (scope.bind index element) with
    | error e => exact ⟨hout.of_error hr, hbound⟩
    | ok result =>
      have hi := ih (index + 1) (fun s hs => hitems s (List.mem_cons_of_mem _ hs)) hbound
      refine ⟨hi.1.map fun xs hxs x hx => ?_, hi.2⟩
      rcases List.mem_cons.1 hx with rfl | hx
      · exact hout.of_ok hr
      · exact hxs x hx

theorem evaluateProjection_meets (whole : Text) {body : Text} (hb : P body) :
    Meets (evaluateProjection whole body scope).1 (fun xs => ∀ x ∈ xs, x.Holds P) ∧
      (evaluateProjection whole body scope).2.Holds P := by
  unfold evaluateProjection
  split
  · exact ⟨meets_hinted _ rfl, hscope⟩
  · rename_i source outcome hparts
    have hi := projectionParts?_infix hparts
    have hsource := projectionSource_meets hP hscope (hP.part hi.1 hb)
    split
    · rename_i e he
      exact ⟨hsource.of_error he, hscope⟩
    · rename_i elements helements
      exact projectFrom_meets hP (hP.part hi.2 hb) 0 (hsource.of_ok helements) hscope

theorem read_meets {t : Text} (ht : P t) :
    Meets (Outcome.read t scope) fun o =>
      o.value.Holds P ∧ (scope.Tagged → o.kind = o.value.kind) := by
  unfold Outcome.read
  split
  · rename_i found hfound
    exact meets_ok ⟨hscope.of_find? hfound, fun h => h _ (Table.mem_of_get? hfound)⟩
  · split
    · exact meets_ok ⟨hP.part (Text.unquote_infix t) ht, fun _ => rfl⟩
    · split
      · exact meets_ok ⟨ht, fun _ => rfl⟩
      · split
        · exact meets_ok ⟨trivial, fun _ => rfl⟩
        · split
          · rename_i number hnumber
            exact meets_ok ⟨((readNumber_meets P t).of_ok hnumber).1, fun _ => rfl⟩
          · exact meets_hinted _ rfl

end Evaluation

theorem Text.closed_anything : Text.Closed Anything :=
  ⟨fun _ _ => trivial, id, id, fun _ _ => trivial⟩

theorem Scope.holds_anything (scope : Scope) : scope.Holds Anything := by
  intro e _
  cases e.2.value with
  | scalar s => cases s <;> trivial
  | array items =>
    intro s _
    cases s <;> trivial

theorem evaluateDeferred_meets (t : Text) (scope : Scope) :
    Meets (evaluateDeferred t scope) Anything := by
  unfold evaluateDeferred
  split
  · rename_i htoken
    exact compare_meets htoken scope
  · split
    · refine (callOnText_meets Text.closed_anything scope.holds_anything trivial).bind fun s _ => ?_
      cases s with
      | boolean b => exact meets_ok trivial
      | _ => exact meets_plain rfl
    · exact callOnBooleans_meets t scope

theorem evaluateCondition_meets {P : Text → Prop} (hP : Text.Closed P) {scope : Scope}
    (hscope : scope.Holds P) {condition : Text} (hc : P condition) (whole : Text) :
    Meets (evaluateCondition condition whole scope) Anything := by
  unfold evaluateCondition
  split
  · exact meets_hinted _ rfl
  · refine (read_meets hP hscope hc).bind fun outcome _ => ?_
    split
    · exact evaluateDeferred_meets _ scope
    · exact evaluateDeferred_meets _ scope
    · exact meets_ok trivial
    · exact meets_ok trivial
    · exact meets_hinted _ rfl

theorem evaluateConditional_meets {P : Text → Prop} (hP : Text.Closed P) {scope : Scope}
    (hscope : scope.Holds P) (whole : Text) {body : Text} (hb : P body) :
    Meets (evaluateConditional whole body scope) fun o =>
      o.value.Holds P ∧ (scope.Tagged → o.kind = o.value.kind) := by
  unfold evaluateConditional
  split
  · exact meets_hinted _ rfl
  · rename_i condition positive negative hparts
    obtain ⟨hcondition, hpositive, hnegative⟩ := conditionalParts?_infix hparts
    refine (read_meets hP hscope (hP.part hpositive hb)).bind fun a ha => ?_
    refine (read_meets hP hscope (hP.part hnegative hb)).bind fun b hb' => ?_
    refine (evaluateCondition_meets hP hscope (hP.part hcondition hb) whole).bind fun c _ => ?_
    cases c with
    | false => exact meets_ok hb'
    | true => exact meets_ok ha

/-- Evaluation fails without a line, and otherwise leaves no property of texts that its text and
its scope have. -/
theorem evaluate_meets {P : Text → Prop} (hP : Text.Closed P) {scope : Scope}
    (hscope : scope.Holds P) {t : Text} (ht : P t) :
    Meets (evaluate t scope).1 (fun found =>
      found.2.Holds P ∧ (scope.Tagged → found.1 = found.2.kind)) ∧
      (evaluate t scope).2.Holds P := by
  unfold evaluate
  split
  · rename_i body hbody
    have hb := hP.part (infix_of_keywordBody? hbody) ht
    exact ⟨(evaluateConditional_meets hP hscope t hb).map fun o ho => ho, hscope⟩
  · split
    · rename_i body hbody
      have hb := hP.part (infix_of_keywordBody? hbody) ht
      have hproj := evaluateProjection_meets hP hscope t hb
      exact ⟨hproj.1.map fun xs hxs => ⟨hxs, fun _ => rfl⟩, hproj.2⟩
    · exact ⟨(evaluatePlain_meets hP hscope ht).map fun v hv => ⟨hv.1, fun _ => rfl⟩, hscope⟩

section Keeps

variable {I : Scope → Prop}
  (hbind : ∀ (scope : Scope) (index : Nat) (element : Scalar),
    I scope → I (scope.bind index element))

include hbind

theorem projectFrom_keeps {scope : Scope} (hscope : I scope) (outcome : Text) (index : Nat)
    (items : List Scalar) : I (projectFrom outcome index items scope).2 := by
  induction items generalizing index scope with
  | nil => exact hscope
  | cons element rest ih =>
    have hbound := hbind scope index element hscope
    rw [projectFrom]
    cases projectionOutcome outcome (scope.bind index element) with
    | error e => exact hbound
    | ok result => exact ih hbound (index + 1)

theorem evaluateProjection_keeps {scope : Scope} (hscope : I scope) (whole body : Text) :
    I (evaluateProjection whole body scope).2 := by
  unfold evaluateProjection
  split
  · exact hscope
  · split
    · exact hscope
    · exact projectFrom_keeps hbind hscope _ 0 _

/-- What the bindings of projections keep of a scope, evaluation keeps, whether or not it fails. -/
theorem evaluate_keeps {scope : Scope} (hscope : I scope) (t : Text) :
    I (evaluate t scope).2 := by
  unfold evaluate
  split
  · exact hscope
  · split
    · exact evaluateProjection_keeps hbind hscope t _
    · exact hscope

end Keeps

theorem evaluate_tagged {scope : Scope} (hscope : scope.Tagged) (t : Text) :
    (evaluate t scope).2.Tagged :=
  evaluate_keeps (I := Scope.Tagged) (fun _ index element h => bind_tagged h index element)
    hscope t

theorem unplaced_of_evaluate {t : Text} {scope : Scope} {e : Error}
    (h : (evaluate t scope).1 = .error e) : e.Unplaced :=
  (evaluate_meets Text.closed_anything scope.holds_anything trivial).1.of_error h

end BlockConfig
