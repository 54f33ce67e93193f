import BlockConfig.Proofs.Evaluation.Results
import Mathlib.Data.List.TakeWhile

set_option autoImplicit false

/-!
The form of a text is the first, in a fixed order, whose test the text passes. What the text stands
for follows from its form alone.
-/

namespace BlockConfig

namespace Form

def test (t : Text) : Form → Bool
  | .string => t.isQuoted
  | .array => isBracketed t
  | .comparison => t.containsAny comparisonTokens
  | .arithmetic => t.containsAny arithmeticTokens
  | .textCall => t.containsAny textCallMarks
  | .mathCall => t.containsAny mathCallMarks
  | .logicCall => t.containsAny logicCallMarks
  | .boolean => mentionsBoolean t
  | .number => (readSingle? t).isSome

def all : List Form :=
  [.string, .array, .comparison, .arithmetic, .textCall, .mathCall, .logicCall, .boolean, .number]

def before (form : Form) : List Form := all.takeWhile (· ≠ form)

end Form

section Classify

variable {t : Text} {form : Form}

theorem classify_eq_ok_iff :
    classify t = .ok form ↔ Form.all.find? (Form.test t) = some form := by
  simp only [classify, Form.all, List.find?_cons, List.find?_nil, Form.test]
  repeat' split
  all_goals simp_all

theorem test_of_classify (h : classify t = .ok form) : form.test t = true :=
  List.find?_some (classify_eq_ok_iff.1 h)

theorem test_eq_false_of_classify (h : classify t = .ok form) :
    ∀ other ∈ form.before, other.test t = false := by
  obtain ⟨htest, front, back, hall, hfront⟩ :=
    List.find?_eq_some_iff_append.1 (classify_eq_ok_iff.1 h)
  have hne : ∀ f ∈ front, f ≠ form := by
    rintro f hf rfl
    simpa [htest] using hfront f hf
  have hbefore : form.before = front := by
    rw [Form.before, hall, List.takeWhile_append_of_pos (by simpa using hne)]
    simp
  intro other hother
  simpa using hfront other (hbefore ▸ hother)

end Classify

section Evaluate

variable {t : Text} {scope : Scope}

theorem evaluate_of_not_keyword (hif : keywordBody? "if" t = none)
    (hfor : keywordBody? "for" t = none) :
    evaluate t scope = ((evaluatePlain t scope).map fun v => (v.kind, v), scope) := by
  rw [evaluate, hif, hfor]

theorem evaluateScalar_of_classify {form : Form} (hform : form ≠ .array)
    (h : classify t = .ok form) (nested : Error) :
    evaluateScalar nested t scope = evaluateAs form t scope := by
  rw [evaluateScalar, h]
  cases form with
  | array => exact absurd rfl hform
  | _ => rfl

theorem evaluatePlain_of_classify {form : Form} (hform : form ≠ .array)
    (h : classify t = .ok form) :
    evaluatePlain t scope = (evaluateAs form t scope).map .scalar := by
  rw [evaluatePlain, h]
  cases form with
  | array => exact absurd rfl hform
  | _ => rfl

theorem evaluatePlain_of_array (h : classify t = .ok .array) :
    evaluatePlain t scope = (evaluateArray t scope).map .array := by
  rw [evaluatePlain, h]
  rfl

theorem evaluateAttribute_of_classify {form : Form} (htrim : t.trim = t)
    (hif : keywordBody? "if" t = none) (hfor : keywordBody? "for" t = none)
    (hform : classify t = .ok form) (harray : form ≠ .array) :
    evaluateAttribute t scope =
      ((evaluateAs form t scope).map fun s => ⟨[], s.kind, .scalar s⟩, scope) := by
  rw [evaluateAttribute, htrim, evaluate_of_not_keyword hif hfor,
    evaluatePlain_of_classify harray hform]
  cases evaluateAs form t scope <;> rfl

theorem exists_form_of_evaluatePlain {s : Scalar} (h : evaluatePlain t scope = .ok (.scalar s)) :
    ∃ form, form ≠ .array ∧ classify t = .ok form ∧ evaluateAs form t scope = .ok s := by
  cases hform : classify t with
  | error e =>
    rw [evaluatePlain, hform] at h
    cases h
  | ok form =>
    by_cases harray : form = .array
    · subst harray
      rw [evaluatePlain_of_array hform] at h
      obtain ⟨items, -, heq⟩ := exists_of_map_ok h
      cases heq
    · rw [evaluatePlain_of_classify harray hform] at h
      obtain ⟨found, hfound, heq⟩ := exists_of_map_ok h
      cases heq
      exact ⟨form, harray, rfl, hfound⟩

theorem evaluateScalar_iff {s : Scalar} (nested : Error) :
    evaluatePlain t scope = .ok (.scalar s) ↔ evaluateScalar nested t scope = .ok s := by
  constructor
  · intro h
    obtain ⟨form, harray, hform, hs⟩ := exists_form_of_evaluatePlain h
    rw [evaluateScalar_of_classify harray hform, hs]
  · intro h
    cases hform : classify t with
    | error e =>
      rw [evaluateScalar, hform] at h
      cases h
    | ok form =>
      by_cases harray : form = .array
      · rw [evaluateScalar, hform, harray] at h
        cases h
      · rw [evaluateScalar_of_classify harray hform] at h
        rw [evaluatePlain_of_classify harray hform, h]
        rfl

theorem kind_of_readNumber {s : Scalar} (h : readNumber t = .ok s) : s.kind = .number := by
  unfold readNumber at h
  simp only at h
  repeat' split at h
  all_goals cases h <;> rfl

end Evaluate

end BlockConfig
