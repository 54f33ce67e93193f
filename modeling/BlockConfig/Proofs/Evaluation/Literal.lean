import BlockConfig.Proofs.Evaluation.Conditional

set_option autoImplicit false

namespace BlockConfig

def Form.isLiteral : Form → Bool
  | .string | .boolean | .number => true
  | _ => false

def Error.unreadableOutcome (t : Text) : Error :=
  hinted (.unclassifiable t)
    ("Outcomes are attributes, strings, comparisons, contains(), logic functions, " ++
      "booleans or numbers")

section Literal

variable {t : Text} {scope : Scope} {form : Form}

theorem Form.isLiteral_cases (h : form.isLiteral = true) :
    form = .string ∨ form = .boolean ∨ form = .number := by
  cases form <;> simp_all [isLiteral]

/-- The rule for outcomes reads a literal as the rule for values does, up to the hint of the
error. -/
theorem read_of_isLiteral (hfree : scope.find? t = none) (hform : classify t = .ok form)
    (hliteral : form.isLiteral = true) :
    Outcome.read t scope =
      match evaluateAs form t scope with
      | .ok s => .ok (.literal s)
      | .error _ => .error (.unreadableOutcome t) := by
  have htest := test_of_classify hform
  have hbefore := test_eq_false_of_classify hform
  have hdeferred : (∀ other ∈ [Form.comparison, .textCall, .logicCall], other ∈ form.before) →
      Outcome.isDeferred t = false := fun hearlier =>
    isDeferred_eq_false fun other hother => hbefore other (hearlier other hother)
  rw [Outcome.read, hfree]
  obtain rfl | rfl | rfl := Form.isLiteral_cases hliteral
  · have hquoted : t.isQuoted = true := htest
    simp only [hquoted, if_true]
    rfl
  · have hquoted : t.isQuoted = false := hbefore .string (by decide)
    have hmentions : mentionsBoolean t = true := htest
    simp only [hquoted, hdeferred (by decide), hmentions, if_true, if_neg Bool.false_ne_true]
    rfl
  · have hquoted : t.isQuoted = false := hbefore .string (by decide)
    have hmentions : mentionsBoolean t = false := hbefore .boolean (by decide)
    simp only [hquoted, hdeferred (by decide), hmentions, if_neg Bool.false_ne_true, evaluateAs]
    cases readNumber t <;> rfl

theorem cause_of_readNumber {e : Error} (h : readNumber t = .error e) :
    e.cause = .unclassifiable t := by
  unfold readNumber at h
  simp only at h
  repeat' split at h
  all_goals cases h <;> rfl

theorem cause_of_isLiteral (hliteral : form.isLiteral = true) {e : Error}
    (h : evaluateAs form t scope = .error e) : e.cause = .unclassifiable t := by
  obtain rfl | rfl | rfl := Form.isLiteral_cases hliteral
  · cases h
  · cases h
  · exact cause_of_readNumber h

end Literal

/-- A literal is the same scalar as a value and as either outcome of a conditional that chooses it.
One that stands for nothing as a value fails every conditional it is an outcome of. -/
theorem evaluateAttribute_literal_outcome {scope : Scope} {t : Text} {form : Form}
    (htrim : t.trim = t) (hfree : scope.find? t = none) (hif : keywordBody? "if" t = none)
    (hfor : keywordBody? "for" t = none) (hform : classify t = .ok form)
    (hliteral : form.isLiteral = true) :
    (∀ a, (evaluateAttribute t scope).1 = .ok a → ∃ v : Scalar, a = ⟨[], v.kind, .scalar v⟩ ∧
      ∀ (raw condition other : Text) (o : Outcome), Outcome.read other scope = .ok o →
        (raw.IsConditional condition t other →
          evaluateCondition condition raw.trim scope = .ok true →
          evaluateAttribute raw scope = (.ok ⟨[], v.kind, .scalar v⟩, scope)) ∧
        (raw.IsConditional condition other t →
          evaluateCondition condition raw.trim scope = .ok false →
          evaluateAttribute raw scope = (.ok ⟨[], v.kind, .scalar v⟩, scope))) ∧
    (∀ e, (evaluateAttribute t scope).1 = .error e → e.cause = .unclassifiable t ∧
      ∀ (raw condition other : Text) (o : Outcome), Outcome.read other scope = .ok o →
        raw.IsConditional condition t other ∨ raw.IsConditional condition other t →
        evaluateAttribute raw scope = (.error (.unreadableOutcome t), scope)) := by
  have harray : form ≠ .array := by
    rintro rfl
    cases hliteral
  have hread := read_of_isLiteral hfree hform hliteral
  rw [evaluateAttribute_of_classify htrim hif hfor hform harray]
  constructor
  · intro a ha
    obtain ⟨v, hv, rfl⟩ := exists_of_map_ok ha
    rw [hv] at hread
    refine ⟨v, rfl, fun raw condition other o ho => ?_⟩
    refine ⟨fun hraw hdecided => ?_, fun hraw hdecided => ?_⟩
    · rw [evaluateAttribute_of_isConditional hraw, hread, ho, hdecided]
      rfl
    · rw [evaluateAttribute_of_isConditional hraw, hread, ho, hdecided]
      rfl
  · intro e he
    cases hvalue : evaluateAs form t scope with
    | ok v =>
      rw [hvalue] at he
      cases he
    | error found =>
      rw [hvalue] at he hread
      cases he
      refine ⟨cause_of_isLiteral hliteral hvalue, ?_⟩
      rintro raw condition other o ho (hraw | hraw)
      · rw [evaluateAttribute_of_isConditional hraw, hread]
        rfl
      · rw [evaluateAttribute_of_isConditional hraw, hread, ho]
        rfl

theorem evaluateAttribute_literal_outcome_beyond :
    let scope : Scope := [("n", ⟨"n", .number, .scalar (.integer 2)⟩)]
    evaluateAttribute "if n > 1 ? 'n - 1 < 2' : n" scope =
      (.ok ⟨[], .string, .scalar (.string "n - 1 < 2")⟩, scope) ∧
    evaluateAttribute "if n > 1 ? n : 9223372036854775808" scope =
      (.error (.unreadableOutcome "9223372036854775808"), scope) := by
  intro scope
  have hn : Outcome.read "n" scope = .ok (.reference .number (.scalar (.integer 2))) := rfl
  have hunbound : scope.find? "'n - 1 < 2'" = none ∧ scope.find? "9223372036854775808" = none :=
    ⟨rfl, rfl⟩
  have hforms : classify "'n - 1 < 2'" = .ok .string ∧
      classify "9223372036854775808" = .ok .number := by decide
  have hstring := evaluateAttribute_literal_outcome (by decide) hunbound.1 rfl rfl hforms.1 rfl
  have hbeyond := evaluateAttribute_literal_outcome (by decide) hunbound.2 rfl rfl hforms.2 rfl
  have hparts : ∀ positive negative : Text, positive.trim = positive → positive ≠ [] →
      negative.trim = negative → negative ≠ [] → '?' ∉ positive → ':' ∉ negative →
      Text.IsConditional ("if " ++ "n > 1" ++ " ? " ++ positive ++ " : " ++ negative) "n > 1"
        positive negative := fun positive negative =>
    Text.isConditional_append (by decide) (by decide)
  obtain ⟨v, hv, hchosen⟩ := hstring.1 ⟨[], .string, .scalar (.string "n - 1 < 2")⟩ rfl
  obtain rfl : v = .string "n - 1 < 2" := (Value.scalar.inj (congrArg Attribute.value hv)).symm
  have hfirst := hparts "'n - 1 < 2'" "n" (by decide) (by decide) (by decide) (by decide)
    (by decide) (by decide)
  have hsecond := hparts "n" "9223372036854775808" (by decide) (by decide) (by decide) (by decide)
    (by decide) (by decide)
  exact ⟨(hchosen _ _ _ _ hn).1 hfirst rfl, (hbeyond.2 _ rfl).2 _ _ _ _ hn (.inr hsecond)⟩

end BlockConfig
