import BlockConfig.Proofs.Evaluation.Plain
import BlockConfig.Proofs.Evaluation.Projection

set_option autoImplicit false

/-!
Conditions and values are told apart by separate rules. They agree on truth values: a text that
stands for one as a value decides a condition in the same way, written in its place or stored under
the name that stands there.
-/

namespace BlockConfig

/-- A value that reads as `if condition ? positive : negative`, with no question mark in the
positive outcome and no colon in the negative one. -/
inductive Text.IsConditional (raw condition positive negative : Text) : Prop
  | intro (gap : Char) (front middle back : Text) (hgap : isBlank gap = true)
      (hmiddle : '?' ∉ middle) (hback : ':' ∉ back)
      (hraw : raw.trim = "if" ++ gap :: (front ++ '?' :: middle ++ ':' :: back))
      (hcondition : front.trim = condition) (hpositive : middle.trim = positive)
      (hnegative : back.trim = negative) (hconditionNe : condition ≠ [])
      (hpositiveNe : positive ≠ []) (hnegativeNe : negative ≠ [])

theorem Text.isConditional_append {condition positive negative : Text}
    (hcondition : condition.trim = condition) (hconditionNe : condition ≠ [])
    (hpositive : positive.trim = positive) (hpositiveNe : positive ≠ [])
    (hnegative : negative.trim = negative) (hnegativeNe : negative ≠ [])
    (hquestion : '?' ∉ positive) (hcolon : ':' ∉ negative) :
    IsConditional ("if " ++ condition ++ " ? " ++ positive ++ " : " ++ negative) condition positive
      negative := by
  have hblank : ([' '] : Text).all isBlank = true := by decide
  have hlast : ∀ c ∈ ("if " ++ condition ++ " ? " ++ positive ++ " : " ++ negative : Text).getLast?,
      isBlank c = false := by
    rw [List.getLast?_append, Option.or_of_isSome (by simpa using hnegativeNe)]
    exact isBlank_getLast?_of_trim hnegative
  have hspaced : ∀ t : Text, trim (' ' :: t ++ [' ']) = t.trim := fun t => by
    rw [trim_append_blank hblank]
    exact trim_prepend_blank hblank t
  refine .intro ' ' (condition ++ [' ']) (' ' :: positive ++ [' ']) (' ' :: negative) hblank ?_ ?_
    ?_ ?_ ?_ ?_ hconditionNe hpositiveNe hnegativeNe
  · simpa using hquestion
  · simpa using hcolon
  · rw [trim_of_ends (by simp; decide) hlast]
    simp
  · rw [trim_append_blank hblank, hcondition]
  · rw [hspaced, hpositive]
  · exact (trim_prepend_blank hblank negative).trans hnegative

theorem conditionalParts?_append (front : Text) {middle back : Text} (hmiddle : '?' ∉ middle)
    (hback : ':' ∉ back) (hfront : front.trim ≠ []) (hpositive : middle.trim ≠ [])
    (hnegative : back.trim ≠ []) :
    conditionalParts? (front ++ '?' :: middle ++ ':' :: back) =
      some (front.trim, middle.trim, back.trim) := by
  have hcolon := Text.cutLast?_append (front ++ '?' :: middle) hback
  have hquestion := Text.cutLast?_append front hmiddle
  rw [conditionalParts?, hcolon]
  simp [hquestion, hfront, hpositive, hnegative]

theorem evaluateAttribute_of_isConditional {raw condition positive negative : Text}
    (h : raw.IsConditional condition positive negative) (scope : Scope) :
    evaluateAttribute raw scope =
      ((do
        let positive ← Outcome.read positive scope
        let negative ← Outcome.read negative scope
        let chosen := if ← evaluateCondition condition raw.trim scope then positive else negative
        return ⟨[], chosen.kind, chosen.value⟩), scope) := by
  obtain ⟨gap, front, middle, back, hgap, hmiddle, hback, hraw, rfl, rfl, rfl, hfrontNe, hmiddleNe,
    hbackNe⟩ := h
  have hkeyword : keywordBody? "if" raw.trim = some (gap :: front ++ '?' :: middle ++ ':' :: back) :=
    keywordBody?_eq_some_iff.2 ⟨hraw, _, _, rfl, hgap⟩
  have hblank : ([gap] : Text).all isBlank = true := by simpa using hgap
  have hfront : Text.trim (gap :: front) = front.trim := Text.trim_prepend_blank hblank front
  have hparts := conditionalParts?_append (gap :: front) hmiddle hback (by rwa [hfront]) hmiddleNe
    hbackNe
  rw [evaluateAttribute, evaluate, hkeyword]
  simp only [evaluateConditional, hparts, hfront]
  cases Outcome.read middle.trim scope with
  | error e => rfl
  | ok a =>
    cases Outcome.read back.trim scope with
    | error e => rfl
    | ok b => cases evaluateCondition front.trim raw.trim scope <;> rfl

/-- None of the calls that a condition refuses is written in the text. -/
def Text.FitsCondition (t : Text) : Prop :=
  ∀ name ∈ forbiddenInCondition, t.contains (name ++ "(") = false

theorem Text.fitsCondition_of_not_mem {t : Text} (h : '(' ∉ t) : t.FitsCondition := by
  intro name _
  rw [Bool.eq_false_iff, Ne, contains_iff]
  exact fun hcall => h (hcall.subset (by simp))

inductive Outcome.Decides (scope : Scope) (b : Bool) : Outcome → Prop
  | deferred (t : Text) (h : evaluateDeferred t scope = .ok b) : Decides scope b (.deferred t)
  | stored (kind : Kind) (t : Text) (h : evaluateDeferred t scope = .ok b) :
      Decides scope b (.reference kind (.scalar (.expression t)))
  | known (kind : Kind) : Decides scope b (.reference kind (.scalar (.boolean b)))
  | literal : Decides scope b (.literal (.boolean b))

theorem evaluateCondition_eq_ok_iff {condition whole : Text} {scope : Scope} {b : Bool} :
    evaluateCondition condition whole scope = .ok b ↔
      condition.FitsCondition ∧
        ∃ outcome, Outcome.read condition scope = .ok outcome ∧ outcome.Decides scope b := by
  have hfits : condition.FitsCondition ↔
      (forbiddenInCondition.find? fun name => condition.contains (name ++ "(")) = none := by
    rw [List.find?_eq_none]
    exact forall₂_congr fun _ _ => Bool.eq_false_iff
  rw [hfits, evaluateCondition]
  cases forbiddenInCondition.find? fun name => condition.contains (name ++ "(") with
  | some name => exact ⟨fun h => (by cases h), fun h => (by cases h.1)⟩
  | none =>
    cases Outcome.read condition scope with
    | error e => exact ⟨fun h => (by cases h), fun ⟨_, _, h, _⟩ => (by cases h)⟩
    | ok outcome =>
      simp only [bind, Except.bind, true_and, Except.ok.injEq, exists_eq_left']
      constructor
      · intro h
        split at h
        · exact .deferred _ h
        · exact .stored _ _ h
        · cases h
          exact .known _
        · cases h
          exact .literal
        · cases h
      · intro h
        cases h with
        | deferred t h | stored kind t h => exact h
        | known kind | literal => rfl

theorem Text.FitsCondition.contains {t : Text} (h : t.FitsCondition)
    (hcall : t.containsAny textCallMarks = true) : t.contains "contains(" = true := by
  have hmarks : ∀ mark ∈ textCallMarks,
      mark = "contains(" ∨ ∃ name ∈ forbiddenInCondition, mark = name ++ "(" := by decide
  obtain ⟨mark, hmark, hinside⟩ := List.any_eq_true.1 hcall
  rcases hmarks mark hmark with rfl | ⟨name, hname, rfl⟩
  · exact hinside
  · rw [h name hname] at hinside
    cases hinside

theorem isDeferred_eq_false {t : Text}
    (h : ∀ form ∈ [Form.comparison, .textCall, .logicCall], form.test t = false) :
    Outcome.isDeferred t = false := by
  have hcomparison : t.containsAny comparisonTokens = false := h .comparison (by simp)
  have hcall : t.containsAny textCallMarks = false := h .textCall (by simp)
  have hcontains : t.contains "contains(" = false :=
    Bool.eq_false_iff.2 (List.any_eq_false.1 hcall "contains(" (by decide))
  have hlogic : t.containsAny logicCallMarks = false := h .logicCall (by simp)
  rw [Outcome.isDeferred, hcomparison, hcontains, hlogic]
  rfl

/-- A text that stands for a truth value as a value of its own is computed as a condition would
compute it, or it is a literal that a condition takes in the same way. -/
theorem truthValue_cases {t : Text} {scope : Scope} {b : Bool} (hcalls : t.FitsCondition)
    (h : evaluatePlain t scope = .ok (.scalar (.boolean b))) : t.isQuoted = false ∧
      (Outcome.isDeferred t = true ∧ evaluateDeferred t scope = .ok b ∨
        Outcome.isDeferred t = false ∧ mentionsBoolean t = true ∧
          (readBoolean? t).getD false = b) := by
  obtain ⟨form, -, hform, hs⟩ := exists_form_of_evaluatePlain h
  have htest := test_of_classify hform
  have hbefore := test_eq_false_of_classify hform
  have hcontains : t.containsAny textCallMarks = false → t.contains "contains(" = false :=
    fun hnone => Bool.eq_false_iff.2 (List.any_eq_false.1 hnone "contains(" (by decide))
  cases form with
  | string | array => cases hs
  | number => cases kind_of_readNumber hs
  | arithmetic | mathCall =>
    obtain ⟨n, -, heq⟩ := exists_of_map_ok hs
    cases heq
  | comparison =>
    obtain ⟨c, hc, heq⟩ := exists_of_map_ok hs
    cases heq
    have hcomparison : t.containsAny comparisonTokens = true := htest
    refine ⟨hbefore .string (by decide), .inl ⟨?_, ?_⟩⟩
    · rw [Outcome.isDeferred, hcomparison]
      rfl
    · rw [evaluateDeferred, if_pos hcomparison, hc]
  | textCall =>
    have hcomparison : t.containsAny comparisonTokens = false := hbefore .comparison (by decide)
    have hcall : callOnText t scope = .ok (.boolean b) := hs
    refine ⟨hbefore .string (by decide), .inl ⟨?_, ?_⟩⟩
    · rw [Outcome.isDeferred, hcalls.contains htest, Bool.or_true]
      rfl
    · rw [evaluateDeferred, hcomparison, if_neg Bool.false_ne_true, if_pos (hcalls.contains htest),
        hcall]
      rfl
  | logicCall =>
    have hcomparison : t.containsAny comparisonTokens = false := hbefore .comparison (by decide)
    have hnone := hcontains (hbefore .textCall (by decide))
    have hlogic : t.containsAny logicCallMarks = true := htest
    obtain ⟨c, hc, heq⟩ := exists_of_map_ok hs
    cases heq
    refine ⟨hbefore .string (by decide), .inl ⟨?_, ?_⟩⟩
    · rw [Outcome.isDeferred, hlogic, Bool.or_true]
    · rw [evaluateDeferred, hcomparison, hnone, if_neg Bool.false_ne_true,
        if_neg Bool.false_ne_true, hc]
  | boolean =>
    have hearlier : ∀ form ∈ [Form.comparison, .textCall, .logicCall], form ∈ Form.boolean.before := by
      decide
    exact ⟨hbefore .string (by decide), .inr ⟨isDeferred_eq_false fun form hform =>
      hbefore form (hearlier form hform), htest, Scalar.boolean.inj (Except.ok.inj hs)⟩⟩

theorem evaluateCondition_of_evaluatePlain {t : Text} {scope : Scope} {b : Bool}
    (hfree : scope.find? t = none) (hcalls : t.FitsCondition)
    (h : evaluatePlain t scope = .ok (.scalar (.boolean b))) (whole : Text) :
    evaluateCondition t whole scope = .ok b := by
  refine evaluateCondition_eq_ok_iff.2 ⟨hcalls, ?_⟩
  obtain ⟨hquoted, ⟨hdeferred, hb⟩ | ⟨hdeferred, hmentions, hb⟩⟩ := truthValue_cases hcalls h
  · refine ⟨.deferred t, ?_, .deferred t hb⟩
    rw [Outcome.read, hfree, hquoted, hdeferred]
    rfl
  · refine ⟨.literal (.boolean b), ?_, .literal⟩
    rw [Outcome.read, hfree, hquoted, hdeferred, hmentions, hb]
    rfl

theorem evaluateCondition_of_stored {t name : Text} {scope : Scope} {b : Bool} {a : Attribute}
    (ha : scope.find? name = some a) (hvalue : a.value = .scalar (.expression t))
    (hname : '(' ∉ name) (hcalls : t.FitsCondition) (hdeferred : Outcome.isDeferred t = true)
    (h : evaluatePlain t scope = .ok (.scalar (.boolean b))) (whole : Text) :
    evaluateCondition name whole scope = .ok b := by
  refine evaluateCondition_eq_ok_iff.2 ⟨Text.fitsCondition_of_not_mem hname, ?_⟩
  obtain ⟨-, ⟨-, hb⟩ | ⟨hnot, -⟩⟩ := truthValue_cases hcalls h
  · refine ⟨.reference a.kind a.value, ?_, ?_⟩
    · rw [Outcome.read, ha]
    · rw [hvalue]
      exact .stored a.kind t hb
  · rw [hdeferred] at hnot
    cases hnot

theorem evaluatePlain_of_evaluateAttribute {t : Text} {scope : Scope} {a : Attribute}
    (htrim : t.trim = t) (hif : keywordBody? "if" t = none) (hfor : keywordBody? "for" t = none)
    (h : (evaluateAttribute t scope).1 = .ok a) : evaluatePlain t scope = .ok a.value := by
  rw [evaluateAttribute, htrim, evaluate_of_not_keyword hif hfor] at h
  obtain ⟨found, hfound, rfl⟩ := exists_of_map_ok h
  obtain ⟨v, hv, rfl⟩ := exists_of_map_ok hfound
  exact hv

/-- A truth value chooses the same outcome of a conditional, whether its text is the condition or is
stored under the name that is the condition. -/
theorem evaluateAttribute_conditional {scope : Scope} {t positive negative : Text} {a : Attribute}
    {b : Bool} {first second : Outcome} (htrim : t.trim = t) (hfree : scope.find? t = none)
    (hif : keywordBody? "if" t = none) (hfor : keywordBody? "for" t = none)
    (hcalls : t.FitsCondition) (ha : (evaluateAttribute t scope).1 = .ok a)
    (hvalue : a.value = .scalar (.boolean b)) (hfirst : Outcome.read positive scope = .ok first)
    (hsecond : Outcome.read negative scope = .ok second) :
    let chosen := if b then first else second
    (∀ raw : Text, raw.IsConditional t positive negative →
      evaluateAttribute raw scope = (.ok ⟨[], chosen.kind, chosen.value⟩, scope)) ∧
    (Outcome.isDeferred t = true → ∀ (name : Text) (stored : Attribute), '(' ∉ name →
      scope.find? name = some stored → stored.value = .scalar (.expression t) →
      ∀ raw : Text, raw.IsConditional name positive negative →
        evaluateAttribute raw scope = (.ok ⟨[], chosen.kind, chosen.value⟩, scope)) := by
  intro chosen
  have hplain := evaluatePlain_of_evaluateAttribute htrim hif hfor ha
  rw [hvalue] at hplain
  have hchosen : ∀ condition raw : Text, raw.IsConditional condition positive negative →
      evaluateCondition condition raw.trim scope = .ok b →
      evaluateAttribute raw scope = (.ok ⟨[], chosen.kind, chosen.value⟩, scope) := by
    intro condition raw hraw hdecided
    rw [evaluateAttribute_of_isConditional hraw, hfirst, hsecond, hdecided]
    rfl
  constructor
  · intro raw hraw
    exact hchosen t raw hraw (evaluateCondition_of_evaluatePlain hfree hcalls hplain _)
  · intro hdeferred name stored hname hstored hexpression raw hraw
    exact hchosen name raw hraw
      (evaluateCondition_of_stored hstored hexpression hname hcalls hdeferred hplain _)

theorem evaluateAttribute_conditional_stored :
    let scope : Scope := [("n", ⟨"n", .number, .scalar (.integer 2)⟩),
      ("many", ⟨"many", .boolean, .scalar (.expression "n > 1")⟩)]
    let chosen : Attribute := ⟨[], .string, .scalar (.string "a: b")⟩
    evaluateAttribute "if n > 1 ? 'a: b' : n" scope = (.ok chosen, scope) ∧
      evaluateAttribute "if many ? 'a: b' : n" scope = (.ok chosen, scope) := by
  intro scope chosen
  have htrim : Text.trim "n > 1" = "n > 1".toList := by decide
  have hcalls : Text.FitsCondition "n > 1" := by
    unfold Text.FitsCondition
    decide
  have hvalue : (evaluateAttribute "n > 1" scope).1 = .ok ⟨[], .boolean, .scalar (.boolean true)⟩ :=
    rfl
  have hfirst : Outcome.read "'a: b'" scope = .ok (.literal (.string "a: b")) := rfl
  have hsecond : Outcome.read "n" scope = .ok (.reference .number (.scalar (.integer 2))) := rfl
  have h := evaluateAttribute_conditional htrim rfl rfl rfl hcalls hvalue rfl hfirst hsecond
  have hparts : ∀ condition : Text, condition.trim = condition → condition ≠ [] →
      Text.IsConditional ("if " ++ condition ++ " ? " ++ "'a: b'" ++ " : " ++ "n") condition
        "'a: b'" "n" := fun condition htrim hne =>
    Text.isConditional_append htrim hne (by decide) (by decide) (by decide) (by decide) (by decide)
      (by decide)
  exact ⟨h.1 _ (hparts "n > 1" (by decide) (by decide)),
    h.2 (by decide) "many" _ (by decide) rfl rfl _ (hparts "many" (by decide) (by decide))⟩

end BlockConfig
