import BlockConfig.Proofs.Evaluation.Deferred
import BlockConfig.Proofs.Reader.Contents

set_option autoImplicit false

namespace BlockConfig

namespace Level

theorem deferred_of_define {level next : Level} (h : level.All fun a => a.value.Deferred)
    {name raw : Text} {start : Nat} (hnext : level.define name raw start = .ok next) :
    next.All fun a => a.value.Deferred := by
  obtain ⟨kind, value, hvalue, rfl⟩ := exists_of_define hnext
  obtain ⟨hstored, hlast⟩ := deferred_evaluate h.scope raw
  exact h.add (a := ⟨name, kind, value⟩) (hstored kind value hvalue) hlast

theorem deferred_defineString {level : Level} (h : level.All fun a => a.value.Deferred)
    (name : Text) (pieces : List Text) :
    (level.defineString name pieces).All fun a => a.value.Deferred := by
  have hstring : Value.Deferred (.scalar (.string (List.intercalate " ".toList pieces))) :=
    Scalar.deferred_of_computed ⟨trivial, rfl⟩
  exact h.add (a := ⟨name, .string, _⟩) hstring h.scope

theorem deferred_kept : Kept Anything (All fun a => a.value.Deferred) where
  empty := all_empty
  enter h hinner _ := h.enter _ hinner
  readAttribute h _ _ hnext := by
    rcases readAttribute_cases hnext with rfl | ⟨front, back, -, -, rfl | ⟨raw, -, -, hdefine⟩⟩
    · exact h
    · exact deferred_defineString h _ _
    · exact deferred_of_define h hdefine

end Level

/-- A document stores no texts but those that were deferred as outcomes, and their type is that of
a truth value. A condition that refers to one is computed from it, and fails where the text calls
no function on truth values by its own name. -/
theorem isDeferred_of_stored {source : Text} {d : Document} (hd : Document.ofSource source = .ok d)
    {a : Attribute} (ha : a ∈ d.allAttributes) {t : Text} (ht : .expression t ∈ a.value.scalars) :
    Outcome.isDeferred t = true ∧ (a.value = .scalar (.expression t) → a.kind = .boolean) ∧
    ∀ (scope : Scope) (name whole : Text) (stored : Attribute), scope.find? name = some stored →
      stored.value = .scalar (.expression t) →
      (name.FitsCondition →
        evaluateCondition name whole scope = evaluateDeferred t scope) ∧
      (¬ t.IsTruthForm →
        (∀ b, evaluateCondition name whole scope ≠ .ok b) ∧
        (name.FitsCondition → t.contains "contains(" = false →
          evaluateCondition name whole scope = .error (Call.unknown t))) := by
  have hdeferred := Level.deferred_kept.attribute (fun _ _ => trivial) hd ha
  have hkind := (holds_of_ofLines Text.closed_anything (fun _ _ => trivial) hd ha).1
  refine ⟨hdeferred t ht, fun hvalue => by rw [hkind, hvalue]; rfl, ?_⟩
  intro scope name whole stored hstored hvalue
  refine ⟨fun hfits => evaluateCondition_of_expression hfits hstored hvalue whole, ?_⟩
  refine fun hform => ⟨fun b hb => ?_, fun hfits hcontains => ?_⟩
  · have hfits := (evaluateCondition_eq_ok_iff.1 hb).1
    rw [evaluateCondition_of_expression hfits hstored hvalue] at hb
    exact hform (isTruthForm_of_evaluateDeferred hb)
  · rw [evaluateCondition_of_expression hfits hstored hvalue,
      evaluateDeferred_eq_unknown hform hcontains]

/-- The call of a function on integers is stored as a truth value, since its name ends like that of
one on truth values. -/
theorem isDeferred_of_stored_floor :
    let a : Attribute := ⟨"x", .boolean, .scalar (.expression "floor(7, 2)")⟩
    Document.ofSource "x = if true ? floor(7, 2) : 1" = .ok ⟨[("x", a)], []⟩ ∧
      ¬ Text.IsTruthForm "floor(7, 2)" ∧ Outcome.isDeferred "floor(7, 2)" = true ∧
      evaluateCondition "x" "if x ? 1 : 2" [("x", a)] = .error (Call.unknown "floor(7, 2)") := by
  intro a
  have hd : Document.ofSource "x = if true ? floor(7, 2) : 1" = .ok ⟨[("x", a)], []⟩ := rfl
  have hform : ¬ Text.IsTruthForm "floor(7, 2)" := by decide
  have hfits : Text.FitsCondition "x" := Text.fitsCondition_of_not_mem (by decide)
  obtain ⟨hdeferred, -, hcondition⟩ :=
    isDeferred_of_stored hd (a := a) (t := "floor(7, 2)") List.mem_cons_self List.mem_cons_self
  have hunknown := (hcondition [("x", a)] "x" "if x ? 1 : 2" a rfl rfl).2 hform
  exact ⟨hd, hform, hdeferred, hunknown.2 hfits (by decide)⟩

end BlockConfig
