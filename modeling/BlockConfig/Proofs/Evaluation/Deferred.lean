import BlockConfig.Proofs.Evaluation.Conditional
import BlockConfig.Proofs.Reread.Scalar

set_option autoImplicit false

/-!
Truth values stored as texts. An outcome is deferred by substrings of its text, so that a name which
only ends like that of a function on truth values is enough. Evaluation stores no other texts, and
a condition computes one only where it has the form of a truth value.
-/

namespace BlockConfig

/-- At position `n` the name stands before an opening parenthesis, and is not the end of a longer
name. -/
def Text.CallsAt (t name : Text) (n : Nat) : Prop :=
  name <+: t.drop n ∧ (trimStart (t.drop (n + name.length))).head? = some '(' ∧
    ∀ c ∈ (t.take n).getLast?, isNameChar c = false

instance (t name : Text) (n : Nat) : Decidable (t.CallsAt name n) :=
  -- Given by name: an instance found by search may run over every character there is.
  have : Decidable (∀ c ∈ (t.take n).getLast?, isNameChar c = false) :=
    Option.decidableForallMem _
  inferInstanceAs (Decidable (_ ∧ _ ∧ _))

def Text.Calls (t name : Text) : Prop := ∃ n, n < t.length ∧ t.CallsAt name n

instance (t name : Text) : Decidable (t.Calls name) :=
  inferInstanceAs (Decidable (∃ n, n < t.length ∧ t.CallsAt name n))

def Text.IsTruthForm (t : Text) : Prop :=
  t.containsAny comparisonTokens = true ∨ t.Calls TextFunction.contains.name ∨
    ∃ f ∈ LogicFunction.all, t.Calls f.name

instance (t : Text) : Decidable t.IsTruthForm := inferInstanceAs (Decidable (_ ∨ _ ∨ _))

theorem Text.calls_append {left name gap : Text} (hleft : left.all isBlank = true)
    (hgap : gap.all isBlank = true) (rest : Text) :
    Text.Calls (left ++ name ++ gap ++ '(' :: rest) name := by
  have hsplit : left ++ name ++ gap ++ '(' :: rest = left ++ (name ++ (gap ++ '(' :: rest)) := by
    simp
  refine ⟨left.length, by simp, ?_, ?_, ?_⟩
  · rw [hsplit, List.drop_left]
    exact List.prefix_append name _
  · rw [hsplit, ← List.append_assoc, ← List.length_append, List.drop_left, trimStart,
      List.dropWhile_append_of_pos (List.all_eq_true.1 hgap)]
    rfl
  · rw [hsplit, List.take_left]
    intro c hc
    have hblank := List.all_eq_true.1 hleft c (List.mem_of_getLast? hc)
    refine Bool.eq_false_iff.2 fun hname => ?_
    rw [isBlank_of_isNameChar hname] at hblank
    cases hblank

theorem Call.calls_of_read {t : Text} {call : Call} (h : Call.read t = .ok call) :
    t.Calls call.name := by
  obtain ⟨left, gap, rest, -, heq, -, -, hleft, hgap, -⟩ := Call.exists_of_read h
  rw [heq]
  exact Text.calls_append hleft hgap rest

theorem TextFunction.name_of_ofName? {name : Text} {f : TextFunction}
    (h : ofName? name = some f) : f.name = name := by
  simpa using List.find?_some h

theorem LogicFunction.mem_of_ofName? {name : Text} {f : LogicFunction}
    (h : ofName? name = some f) : f ∈ all ∧ f.name = name :=
  ⟨List.mem_of_find?_eq_some h, by simpa using List.find?_some h⟩

section Deferred

variable {t : Text} {scope : Scope} {b : Bool}

theorem calls_of_callOnText (h : callOnText t scope = .ok (.boolean b)) :
    t.Calls TextFunction.contains.name := by
  obtain ⟨call, hcall, h⟩ := exists_of_bind_ok h
  cases hf : TextFunction.ofName? call.name with
  | none =>
    rw [hf] at h
    cases h
  | some f =>
    rw [hf] at h
    cases f with
    | contains =>
      rw [TextFunction.name_of_ofName? hf]
      exact Call.calls_of_read hcall
    | upper | lower | length =>
      obtain ⟨s, -, h⟩ := exists_of_bind_ok h
      cases h
    | concat =>
      obtain ⟨p, -, h⟩ := exists_of_bind_ok h
      obtain ⟨s, -, h⟩ := exists_of_bind_ok h
      obtain ⟨u, -, h⟩ := exists_of_bind_ok h
      cases h

theorem callOnBooleans_eq_unknown (h : ∀ f ∈ LogicFunction.all, ¬ t.Calls f.name) :
    callOnBooleans t scope = .error (Call.unknown t) := by
  unfold callOnBooleans
  cases hcall : Call.read t with
  | error e =>
    unfold Call.read at hcall
    split at hcall
    · cases hcall
    · rw [← Except.error.inj hcall]
      rfl
  | ok call =>
    have hname : LogicFunction.ofName? call.name = none := by
      refine Option.eq_none_iff_forall_ne_some.2 fun f hf => ?_
      obtain ⟨hmem, heq⟩ := LogicFunction.mem_of_ofName? hf
      refine h f hmem ?_
      rw [heq]
      exact Call.calls_of_read hcall
    simp only [bind, Except.bind, hname]
    rfl

theorem isTruthForm_of_evaluateDeferred (h : evaluateDeferred t scope = .ok b) :
    t.IsTruthForm := by
  unfold evaluateDeferred at h
  split at h
  · exact .inl ‹_›
  · split at h
    · obtain ⟨s, hs, h⟩ := exists_of_bind_ok h
      cases s with
      | boolean c => exact .inr (.inl (calls_of_callOnText hs))
      | _ => cases h
    · by_contra hform
      rw [callOnBooleans_eq_unknown fun f hf hcalls => hform (.inr (.inr ⟨f, hf, hcalls⟩))] at h
      cases h

/-- What is deferred as a call of a longer name is refused as unknown. -/
theorem evaluateDeferred_eq_unknown (hform : ¬ t.IsTruthForm)
    (hcontains : t.contains "contains(" = false) :
    evaluateDeferred t scope = .error (Call.unknown t) := by
  have hcomparison : t.containsAny comparisonTokens = false :=
    Bool.eq_false_iff.2 fun h => hform (.inl h)
  rw [evaluateDeferred, hcomparison, hcontains, if_neg Bool.false_ne_true,
    if_neg Bool.false_ne_true]
  exact callOnBooleans_eq_unknown fun f hf hcalls => hform (.inr (.inr ⟨f, hf, hcalls⟩))

theorem evaluateCondition_of_expression {name : Text} {stored : Attribute}
    (hfits : name.FitsCondition) (hstored : scope.find? name = some stored)
    (hvalue : stored.value = .scalar (.expression t)) (whole : Text) :
    evaluateCondition name whole scope = evaluateDeferred t scope := by
  have hnone : (forbiddenInCondition.find? fun f => name.contains (f ++ "(")) = none :=
    List.find?_eq_none.2 fun f hf => Bool.eq_false_iff.1 (hfits f hf)
  rw [evaluateCondition, hnone]
  simp only [Outcome.read, hstored, hvalue]
  rfl

end Deferred

/-- Every text that the value stores unevaluated was deferred as an outcome. -/
def Value.Deferred (v : Value) : Prop :=
  ∀ t, .expression t ∈ v.scalars → Outcome.isDeferred t = true

def Scope.Deferred (scope : Scope) : Prop := ∀ e ∈ scope, e.2.value.Deferred

theorem Value.deferred_of_isExpression {v : Value} (h : ∀ s ∈ v.scalars, s.isExpression = false) :
    v.Deferred := by
  intro t ht
  cases h _ ht

theorem Scalar.deferred_of_computed {s : Scalar} (h : s.Computed Anything) :
    Value.Deferred (.scalar s) := by
  refine Value.deferred_of_isExpression fun u hu => ?_
  rw [List.mem_singleton.1 hu]
  exact h.2

section Stored

variable {scope : Scope} (hscope : scope.Deferred)

include hscope

theorem Scope.Deferred.of_find? {name : Text} {a : Attribute} (ha : scope.find? name = some a) :
    a.value.Deferred :=
  hscope (name, a) (Table.mem_of_get? ha)

theorem Scope.Deferred.add {a : Attribute} (ha : a.value.Deferred) : (scope.add a).Deferred := by
  intro e he
  rcases Table.mem_insert he with rfl | he
  · exact ha
  · exact hscope e he

theorem Scope.Deferred.bind (index : Nat) {element : Scalar}
    (he : Value.Deferred (.scalar element)) : (scope.bind index element).Deferred := by
  have hindex : (scope.add ⟨indexName, .number, .scalar (.integer (.ofNat index))⟩).Deferred :=
    hscope.add (Scalar.deferred_of_computed ⟨trivial, rfl⟩)
  exact hindex.add (a := ⟨valueName, element.kind, .scalar element⟩) he

theorem deferred_of_read {t : Text} {o : Outcome} (h : Outcome.read t scope = .ok o) :
    o.value.Deferred := by
  unfold Outcome.read at h
  split at h
  · rename_i found hfound
    cases h
    exact hscope.of_find? hfound
  · split at h
    · cases h
      exact Scalar.deferred_of_computed ⟨trivial, rfl⟩
    · split at h
      · rename_i hdeferred
        cases h
        intro u hu
        obtain rfl : u = t := Scalar.expression.inj (List.mem_singleton.1 hu)
        exact hdeferred
      · split at h
        · cases h
          exact Scalar.deferred_of_computed ⟨trivial, rfl⟩
        · split at h
          · rename_i number hnumber
            cases h
            exact Scalar.deferred_of_computed ((readNumber_meets Anything t).of_ok hnumber)
          · cases h

theorem deferred_of_evaluateConditional {whole body : Text} {o : Outcome}
    (h : evaluateConditional whole body scope = .ok o) : o.value.Deferred := by
  unfold evaluateConditional at h
  split at h
  · cases h
  · obtain ⟨positive, hpositive, h⟩ := exists_of_bind_ok h
    obtain ⟨negative, hnegative, h⟩ := exists_of_bind_ok h
    obtain ⟨chosen, -, h⟩ := exists_of_bind_ok h
    cases chosen with
    | true =>
      cases h
      exact deferred_of_read hscope hpositive
    | false =>
      cases h
      exact deferred_of_read hscope hnegative

omit hscope in
theorem deferred_of_evaluateArray {t : Text} {items : List Scalar}
    (h : evaluateArray t scope = .ok items) : Value.Deferred (.array items) := by
  have hcomputed := evaluateArray_meets Text.closed_anything scope.holds_anything (t := t) trivial
  exact Value.deferred_of_isExpression fun s hs => (hcomputed.of_ok h s hs).2

omit hscope in
theorem deferred_of_evaluatePlain {t : Text} {v : Value} (h : evaluatePlain t scope = .ok v) :
    v.Deferred := by
  unfold evaluatePlain at h
  obtain ⟨form, hform, h⟩ := exists_of_bind_ok h
  have hoperator := (classify_meets t).of_ok hform
  cases form with
  | array =>
    obtain ⟨items, hitems, h⟩ := exists_of_bind_ok h
    cases h
    exact deferred_of_evaluateArray hitems
  | _ =>
    obtain ⟨s, hs, h⟩ := exists_of_bind_ok h
    cases h
    have hcomputed := evaluateAs_meets Text.closed_anything scope.holds_anything hoperator trivial
    exact Scalar.deferred_of_computed (hcomputed.of_ok hs)

theorem deferred_of_projectionSource {source : Text} {items : List Scalar}
    (h : projectionSource source scope = .ok items) : Value.Deferred (.array items) := by
  unfold projectionSource at h
  simp only at h
  split at h
  · rename_i found hfound
    have hdeferred := hscope.of_find? hfound
    split at h
    · rename_i stored hvalue
      cases h
      rwa [hvalue] at hdeferred
    · cases h
  · split at h
    · exact deferred_of_evaluateArray h
    · cases h

theorem deferred_of_projectionOutcome {outcome : Text} {s : Scalar}
    (h : projectionOutcome outcome scope = .ok s) : Value.Deferred (.scalar s) := by
  unfold projectionOutcome at h
  simp only at h
  split at h
  · rename_i found hfound
    have hdeferred := hscope.of_find? hfound
    split at h
    · rename_i stored hvalue
      cases h
      rwa [hvalue] at hdeferred
    · cases h
  · have hnested : Error.Unplaced
        (.hinted (.nestedArray outcome) "A projection outcome can't be an array") := ⟨rfl, rfl⟩
    have hcomputed := evaluateScalar_meets Text.closed_anything scope.holds_anything hnested
      (t := outcome) trivial
    exact Scalar.deferred_of_computed (hcomputed.of_ok h)

omit hscope in
/-- The induction is on the elements: each is bound in the scope in which the next ones are
evaluated. -/
theorem deferred_projectFrom (outcome : Text) (index : Nat) {items : List Scalar}
    (hitems : Value.Deferred (.array items)) {scope : Scope} (hscope : scope.Deferred) :
    (∀ results, (projectFrom outcome index items scope).1 = .ok results →
      Value.Deferred (.array results)) ∧ (projectFrom outcome index items scope).2.Deferred := by
  induction items generalizing index scope with
  | nil =>
    refine ⟨fun results h => ?_, hscope⟩
    cases h
    exact hitems
  | cons element rest ih =>
    have hbound : (scope.bind index element).Deferred := hscope.bind index fun t ht =>
      hitems t (List.mem_singleton.1 ht ▸ List.mem_cons_self)
    rw [projectFrom]
    cases hr : projectionOutcome outcome (scope.bind index element) with
    | error e => exact ⟨fun results h => (by cases h), hbound⟩
    | ok result =>
      have hrest := ih (index + 1) (fun t ht => hitems t (List.mem_cons_of_mem _ ht)) hbound
      refine ⟨fun results h => ?_, hrest.2⟩
      obtain ⟨others, hothers, rfl⟩ := exists_of_map_ok h
      intro t ht
      rcases List.mem_cons.1 ht with heq | ht
      · exact deferred_of_projectionOutcome hbound hr t (List.mem_singleton.2 heq)
      · exact hrest.1 others hothers t ht

theorem deferred_evaluateProjection (whole body : Text) :
    (∀ results, (evaluateProjection whole body scope).1 = .ok results →
      Value.Deferred (.array results)) ∧ (evaluateProjection whole body scope).2.Deferred := by
  unfold evaluateProjection
  split
  · exact ⟨fun results h => (by cases h), hscope⟩
  · split
    · exact ⟨fun results h => (by cases h), hscope⟩
    · rename_i elements helements
      exact deferred_projectFrom _ 0 (deferred_of_projectionSource hscope helements) hscope

theorem deferred_evaluate (t : Text) :
    (∀ kind value, (evaluate t scope).1 = .ok (kind, value) → value.Deferred) ∧
      (evaluate t scope).2.Deferred := by
  unfold evaluate
  split
  · refine ⟨fun kind value h => ?_, hscope⟩
    obtain ⟨o, ho, heq⟩ := exists_of_map_ok h
    cases heq
    exact deferred_of_evaluateConditional hscope ho
  · split
    · have hprojection := deferred_evaluateProjection hscope t
      refine ⟨fun kind value h => ?_, (hprojection _).2⟩
      obtain ⟨results, hresults, heq⟩ := exists_of_map_ok h
      cases heq
      exact (hprojection _).1 results hresults
    · refine ⟨fun kind value h => ?_, hscope⟩
      obtain ⟨v, hv, heq⟩ := exists_of_map_ok h
      cases heq
      exact deferred_of_evaluatePlain hv

end Stored

end BlockConfig
