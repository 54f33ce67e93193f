import BlockConfig.Proofs.Evaluation.Arithmetic

set_option autoImplicit false

/-!
Signs of numbers. To the language a sign is an operator: the text of a number with a sign is a
calculation without a left operand, and a calculation is cut at the sign of an operand where that
comes before its operator.
-/

namespace BlockConfig

namespace Text

theorem contains_char (t : Text) (c : Char) : t.contains [c] = decide (c ∈ t) := by
  rw [Bool.eq_iff_iff, contains_iff, decide_eq_true_eq]
  exact List.singleton_infix_iff c t

def isCalculationChar (c : Char) : Bool := isNumberChar c || [' ', '*', '/'].contains c

theorem isCalculationChar_of_isNumberChar {t : Text} (h : t.all isNumberChar = true) :
    t.all isCalculationChar = true :=
  List.all_eq_true.2 fun c hc => by simp [isCalculationChar, List.all_eq_true.1 h c hc]

theorem exists_sign_of_toInt? {t : Text} {n : Int} (h : t.toInt? = some n)
    (hdigits : t.isDigits = false) : ∃ o : Operator, (o = .add ∨ o = .sub) ∧
      ∃ digits : Text, t = o.token ++ digits ∧ digits.isDigits = true := by
  have hread := isDigits_of_toInt? (t := t) (by rw [h]; rfl)
  unfold takeSign at hread
  split at hread
  · exact ⟨.sub, .inr rfl, _, rfl, hread⟩
  · exact ⟨.add, .inl rfl, _, rfl, hread⟩
  · rw [hdigits] at hread
    cases hread

end Text

namespace Operator

section Sign

variable {o : Operator} (ho : o = .add ∨ o = .sub) {digits : Text}
  (hdigits : digits.isDigits = true)

include ho hdigits

theorem contains_sign (p : Operator) :
    (o.token ++ digits).contains p.token = decide (p = o) := by
  rw [Text.contains_append_back p.token_ne_nil fun c hc =>
    (Text.apart_of_all (Text.all_isDigit hdigits) (by cases p <;> decide) c hc).2]
  obtain rfl | rfl := ho <;> cases p <;> decide

theorem select?_sign : select? (o.token ++ digits) = some o := by
  simp only [select?, contains_sign ho hdigits]
  obtain rfl | rfl := ho <;> decide

omit hdigits in
theorem operandsAt_sign : (operandsAt o.token (o.token ++ digits)).1 = [] := by
  obtain rfl | rfl := ho <;> rfl

theorem classify_sign : classify (o.token ++ digits) = .ok .arithmetic := by
  refine classify_of_operator (p := isNumberChar) ?_ (by decide) (by decide) ?_
  · rw [List.all_append, isNumberChar_of_isDigit (Text.all_isDigit hdigits)]
    obtain rfl | rfl := ho <;> decide
  · refine (Text.containsAny_iff _ _).2 ⟨o.token, ?_, (List.prefix_append _ _).isInfix⟩
    obtain rfl | rfl := ho <;> decide

theorem calculate_sign {scope : Scope} (hfree : scope.find? [] = none) :
    calculate (o.token ++ digits) scope = .error (.unknownReference [] (o.token ++ digits)) := by
  have hleft : (operandsAt o.token (o.token ++ digits)).1 = [] := operandsAt_sign ho
  have hread : (operandsAt o.token (o.token ++ digits)).1.toInt64? = none := by
    rw [hleft]
    rfl
  rw [← hleft] at hfree ⊢
  exact calculate_of_unread (select?_sign ho hdigits) hread hfree

end Sign

/-- Whether no sign of the operands comes before the operator in the order in which operators are
chosen, nor where the text is cut. -/
def IsClear : Operator → Int64 → Int64 → Prop
  | .mul, _, _ | .div, _, _ => True
  | .sub, m, _ => 0 ≤ m
  | .add, m, n => 0 ≤ m ∧ 0 ≤ n

instance (o : Operator) (m n : Int64) : Decidable (o.IsClear m n) :=
  match o with
  | .mul | .div => inferInstanceAs (Decidable True)
  | .sub => inferInstanceAs (Decidable (0 ≤ m))
  | .add => inferInstanceAs (Decidable (0 ≤ m ∧ 0 ≤ n))

section Numerals

theorem writesInt64_ofInt64 (m : Int64) : (Text.ofInt64 m).WritesInt64 m.toInt :=
  ⟨Text.toInt?_ofInt _, m.le_toInt, m.toInt_lt⟩

theorem ofInt64_of_nonneg {m : Int64} (h : 0 ≤ m) : Text.ofInt64 m = Text.ofNat m.toInt.natAbs :=
  Scalar.source_integer_of_nonneg h

theorem ofInt64_of_neg {m : Int64} (h : ¬ 0 ≤ m) :
    Text.ofInt64 m = '-' :: Text.ofNat m.toInt.natAbs :=
  Scalar.source_integer_of_neg h

theorem contains_ofInt64 (p : Operator) (m : Int64) :
    (Text.ofInt64 m).contains p.token = decide (p = .sub ∧ ¬ 0 ≤ m) := by
  have hdigits := Text.isDigits_ofNat m.toInt.natAbs
  by_cases hm : 0 ≤ m
  · have happart : Text.Apart p.token (Text.ofNat m.toInt.natAbs) :=
      Text.apart_of_all (Text.all_isDigit hdigits) (by cases p <;> decide)
    have hnil : Text.contains [] p.token = false := by cases p <;> rfl
    have hnone := Text.contains_append_back p.token_ne_nil (fun c hc => (happart c hc).2) []
    rw [List.nil_append, hnil] at hnone
    rw [ofInt64_of_nonneg hm, hnone]
    simp [hm]
  · have hsign := contains_sign (o := .sub) (.inr rfl) hdigits p
    rw [ofInt64_of_neg hm]
    exact hsign.trans (by simp [hm])

theorem contains_numerals (o p : Operator) (m n : Int64) :
    (Text.spaced (Text.ofInt64 m) o.token (Text.ofInt64 n)).contains p.token =
      decide (p = o ∨ p = .sub ∧ ¬ (0 ≤ m ∧ 0 ≤ n)) := by
  have hspace : ' ' ∉ p.token := by cases p <;> decide
  have htoken : o.token.contains p.token = decide (p = o) := by cases o <;> cases p <;> decide
  rw [Text.spaced, Text.contains_append_cons hspace, Text.contains_append_cons hspace,
    contains_ofInt64, contains_ofInt64, htoken, Bool.eq_iff_iff]
  simp only [Bool.or_eq_true, decide_eq_true_eq]
  tauto

theorem select?_numerals (o : Operator) (m n : Int64) :
    select? (Text.spaced (Text.ofInt64 m) o.token (Text.ofInt64 n)) =
      some (if o = .add ∧ ¬ (0 ≤ m ∧ 0 ≤ n) then .sub else o) := by
  simp only [select?, contains_numerals]
  by_cases hsigns : 0 ≤ m ∧ 0 ≤ n
  · simp only [hsigns]
    cases o <;> decide
  · simp only [hsigns]
    cases o <;> decide

theorem classify_numerals (o : Operator) (m n : Int64) :
    classify (Text.spaced (Text.ofInt64 m) o.token (Text.ofInt64 n)) = .ok .arithmetic := by
  have hnumeral : ∀ k : Int64, (Text.ofInt64 k).all Text.isCalculationChar = true := fun k =>
    Text.isCalculationChar_of_isNumberChar
      (isNumberChar_of_toInt? (by rw [(writesInt64_ofInt64 k).1]; rfl))
  refine classify_of_operator (p := Text.isCalculationChar) ?_ (by decide) (by decide)
    (Text.containsAny_spaced (by cases o <;> decide))
  simp only [Text.spaced, List.all_append, List.all_cons, hnumeral]
  cases o <;> decide

theorem evaluateAttribute_numerals (o : Operator) (m n : Int64) (scope : Scope) :
    evaluateAttribute (Text.spaced (Text.ofInt64 m) o.token (Text.ofInt64 n)) scope =
      ((calculate (Text.spaced (Text.ofInt64 m) o.token (Text.ofInt64 n)) scope).map fun k =>
        ⟨[], .number, .scalar (.integer k)⟩, scope) := by
  rw [BlockConfig.evaluateAttribute_spaced (writesInt64_ofInt64 m).isOperand
    (writesInt64_ofInt64 n).isOperand (classify_numerals o m n) nofun, evaluateAs]
  cases calculate (Text.spaced (Text.ofInt64 m) o.token (Text.ofInt64 n)) scope <;> rfl

theorem apart_token_of_contains {o : Operator} {t : Text} (h : t.contains o.token = false) :
    Text.Apart o.token t := by
  obtain ⟨c, hc, hblank⟩ : ∃ c, o.token = [c] ∧ isBlank c = false := by
    cases o <;> exact ⟨_, rfl, by decide⟩
  intro d hd
  rw [hc] at h hd
  obtain rfl := List.mem_singleton.1 hd
  exact ⟨hblank, by simpa [Text.contains_char] using h⟩

/-- Numbers whose signs do not come before the operator are its operands. -/
theorem calculate_of_isClear {o : Operator} {m n : Int64} (h : o.IsClear m n) (scope : Scope) :
    calculate (Text.spaced (Text.ofInt64 m) o.token (Text.ofInt64 n)) scope =
      match o.result? m n with
      | some result => .ok result
      | none => .error (.plain (.divisionByZero
          (Text.spaced (Text.ofInt64 m) o.token (Text.ofInt64 n)))) := by
  have hchosen : ¬ (o = .add ∧ ¬ (0 ≤ m ∧ 0 ≤ n)) := by
    rintro ⟨rfl, hsigns⟩
    exact hsigns h
  have hnone : (Text.ofInt64 m).contains o.token = false := by
    rw [contains_ofInt64, decide_eq_false_iff_not]
    rintro ⟨rfl, hm⟩
    exact hm h
  rw [calculate, select?_numerals, if_neg hchosen]
  simp only [Text.operandsAt_spaced (writesInt64_ofInt64 m).isOperand
    (writesInt64_ofInt64 n).isOperand o.token_ne_nil (apart_token_of_contains hnone)]
  simp only [Scope.operand, Text.toInt64?_ofInt64]
  rfl

theorem operandsAt_of_not_isClear {o : Operator} {m n : Int64} (h : ¬ o.IsClear m n) :
    (operandsAt Operator.sub.token (Text.spaced (Text.ofInt64 m) o.token (Text.ofInt64 n))).1 =
      if 0 ≤ m then Text.ofInt64 m ++ " +" else [] := by
  by_cases hm : 0 ≤ m
  · obtain ⟨rfl, hn⟩ : o = .add ∧ ¬ 0 ≤ n := by
      cases o with
      | add => exact ⟨rfl, fun hn => h ⟨hm, hn⟩⟩
      | sub => exact absurd hm h
      | mul | div => exact absurd trivial h
    have hminus : '-' ∉ Text.ofInt64 m ++ " + " := by
      have hnone : (Text.ofInt64 m).contains ['-'] = false :=
        (contains_ofInt64 .sub m).trans (by simp [hm])
      simpa [Text.contains_char] using hnone
    have hsplit : Text.spaced (Text.ofInt64 m) Operator.add.token (Text.ofInt64 n) =
        (Text.ofInt64 m ++ " + ") ++ '-' :: [] ++ Text.ofNat n.toInt.natAbs := by
      rw [ofInt64_of_neg hn]
      simp [Text.spaced, token]
    have hcut := Text.cut?_append_needle hminus [] (Text.ofNat n.toInt.natAbs)
    have htoken : Operator.sub.token = ['-'] := rfl
    have hback : (Text.ofInt64 m ++ " + " : Text) = (Text.ofInt64 m ++ " +") ++ [' '] := by simp
    have hblank : ([' '] : Text).all isBlank = true := by decide
    have htrim : Text.trim (Text.ofInt64 m ++ " +") = Text.ofInt64 m ++ " +" := by
      obtain ⟨c, rest, hcons, hc⟩ := (writesInt64_ofInt64 m).isOperand.exists_eq_cons
      rw [hcons]
      refine Text.trim_of_ends (by simpa using Text.isBlank_of_isOperandChar hc) ?_
      rw [List.getLast?_append_of_ne_nil _ (by decide)]
      rintro _ ⟨⟩
      rfl
    rw [hsplit, if_pos hm, operandsAt, htoken, hcut, hback]
    simp only [Text.trim_append_blank hblank, htrim]
  · rw [if_neg hm, ofInt64_of_neg hm]
    rfl

/-- A number with a sign in front of the operator leaves no left operand. -/
theorem calculate_of_not_isClear {o : Operator} {m n : Int64} (h : ¬ o.IsClear m n)
    {scope : Scope}
    (hfree : scope.find? (if 0 ≤ m then Text.ofInt64 m ++ " +" else []) = none) :
    calculate (Text.spaced (Text.ofInt64 m) o.token (Text.ofInt64 n)) scope =
      .error (.unknownReference (if 0 ≤ m then Text.ofInt64 m ++ " +" else [])
        (Text.spaced (Text.ofInt64 m) o.token (Text.ofInt64 n))) := by
  have hchosen : (if o = .add ∧ ¬ (0 ≤ m ∧ 0 ≤ n) then Operator.sub else o) = .sub := by
    cases o with
    | add => exact if_pos ⟨rfl, h⟩
    | sub => rfl
    | mul | div => exact absurd trivial h
  have hselect := (select?_numerals o m n).trans (congrArg some hchosen)
  have hleft := operandsAt_of_not_isClear h
  have hread : (if 0 ≤ m then Text.ofInt64 m ++ " +" else [] : Text).toInt64? = none := by
    split
    · exact toInt64?_eq_none_of_mem (c := ' ') (by simp) (by decide)
    · rfl
  rw [← hleft] at hread hfree ⊢
  exact calculate_of_unread hselect hread hfree

end Numerals

end Operator

end BlockConfig
