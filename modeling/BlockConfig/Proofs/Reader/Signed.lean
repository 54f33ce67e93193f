import BlockConfig.Proofs.Evaluation.Signed
import BlockConfig.Proofs.Reader.Spread

set_option autoImplicit false

namespace BlockConfig

theorem ofSource_attributeLine {name value : Text} {form : Form} (hne : name ≠ [])
    (hname : name.all isNameChar = true) (hvalue : value.IsValue) (hsingle : value.IsSingle)
    (hline : '\n' ∉ value) (hform : classify value = .ok form) (harray : form ≠ .array) :
    Document.ofSource (attributeLine name value) =
      ((evaluateAs form value []).map fun s => ⟨[(name, ⟨name, s.kind, .scalar s⟩)], []⟩).mapError
        (·.atLine 1) := by
  have hplain := Text.isPlainName_of_all hne hname
  have hentry := isValue_attributeLine hplain hvalue
  have hnewline : '\n' ∉ attributeLine name value := by
    simp [attributeLine, not_mem_of_all hname (c := '\n') (by decide), hline]
  have hread : readAttribute (State.initial 0).level ((State.initial 0).line + 1)
      (attributeLine name value) [] = (Level.empty.define name value 1).map (·, 0) :=
    readAttribute_of_single hplain .empty 1 [] hsingle hvalue.trim_eq
  have hdefine : Level.empty.define name value 1 =
      ((evaluateAs form value []).map fun s => ⟨[(name, ⟨name, s.kind, .scalar s⟩)], []⟩).mapError
        (·.atLine 1) := by
    have hscope : Level.empty.scope = [] := rfl
    rw [Level.define, hscope, evaluate_of_not_keyword hsingle.not_if hsingle.not_for,
      evaluatePlain_of_classify harray hform]
    cases evaluateAs form value [] <;> rfl
  have hrun := State.run_attribute (s := State.initial 0) rfl (shape_of_isValue hentry) []
  rw [Document.ofSource, Text.lines_of_newline_not_mem hentry.ne_nil hnewline]
  change ((State.initial 0).run [stripComment (attributeLine name value)]).1 = _
  rw [hentry.stripComment, hrun, hread, hdefine]
  cases evaluateAs form value [] <;> rfl

section Number

variable {t : Text} {n : Int}

theorem isValue_of_toInt? (h : t.toInt? = some n) : t.IsValue := by
  have hoperand := Text.isOperand_of_toInt? h
  have hordinary : t.all isOrdinary = true := List.all_eq_true.2 fun c hc => by
    have hchar := List.all_eq_true.1 hoperand.all_chars c hc
    have hmark : (c == '/' || c == '{' || c == '}') = false := by
      rw [Bool.eq_false_iff]
      intro hmark
      obtain (rfl | rfl) | rfl := by simpa only [Bool.or_eq_true, beq_iff_eq] using hmark
      all_goals exact absurd hchar (by decide)
    simp [isOrdinary, Text.isQuote_of_isOperandChar hchar, hmark]
  exact ⟨hoperand.ne_nil, Text.trim_of_solid hoperand.solid, Text.isUnmarked_of_all hordinary⟩

theorem isSingle_of_toInt? (h : t.toInt? = some n) : t.IsSingle := by
  have hoperand := Text.isOperand_of_toInt? h
  exact isSingle_of_all hoperand.all_chars hoperand.solid (by decide)

theorem nonneg_of_isDigits (hdigits : t.isDigits = true) (h : t.toInt? = some n) : 0 ≤ n := by
  obtain ⟨k, hk⟩ : ∃ k, t.toNat? = some k := ⟨_, by rw [Text.toNat?, if_pos hdigits]⟩
  have hread : t.toInt? = some (k : Int) := by
    simp [Text.toInt?, Text.takeSign_of_isDigits hdigits, hk]
  have hn : n = k := Option.some.inj (h.symm.trans hread)
  omega

theorem readNumber_of_isDigits (hdigits : t.isDigits = true) :
    readNumber t = match t.toInt64? with
      | some k => .ok (.integer k)
      | none => .error (.hinted (.unclassifiable t) integerRangeHint) := by
  obtain ⟨k, hk⟩ : ∃ k, t.toNat? = some k := ⟨_, by rw [Text.toNat?, if_pos hdigits]⟩
  have hread : t.toInt?.isSome = true := by
    simp [Text.toInt?, Text.takeSign_of_isDigits hdigits, hk]
  rw [readNumber, hasDecimalMark_of_isDigits hdigits, hread]
  cases t.toInt64? <;> rfl

end Number

/-- Whole numbers of digits come back from a source up to 64 bits. With a sign they are refused, in
front of an operator of sums and differences too; other signs and other operators do no harm. -/
theorem ofSource_number {name : Text} (hne : name ≠ []) (hname : name.all isNameChar = true) :
    (∀ (t : Text) (n : Int), t.toInt? = some n →
      (t.isDigits = true → n < 2 ^ 63 → ∃ k : Int64, k.toInt = n ∧
        Document.ofSource (attributeLine name t) =
          .ok ⟨[(name, ⟨name, .number, .scalar (.integer k)⟩)], []⟩) ∧
      (t.isDigits = true → 2 ^ 63 ≤ n →
        Document.ofSource (attributeLine name t) =
          .error ⟨.unclassifiable t, 1, some integerRangeHint⟩) ∧
      (t.isDigits = false →
        Document.ofSource (attributeLine name t) =
          .error { Error.unknownReference [] t with line := 1 })) ∧
    ∀ (scope : Scope) (o : Operator) (m n : Int64),
      let written := Text.spaced (Text.ofInt64 m) o.token (Text.ofInt64 n)
      let left : Text := if 0 ≤ m then Text.ofInt64 m ++ " +" else []
      (o.IsClear m n → (o = .div → n ≠ 0) → ∃ k : Int64,
        evaluateAttribute written scope = (.ok ⟨[], .number, .scalar (.integer k)⟩, scope) ∧
        k.toInt ≡ o.exact m.toInt n.toInt [ZMOD 2 ^ 64]) ∧
      (¬ o.IsClear m n → scope.find? left = none →
        evaluateAttribute written scope = (.error (.unknownReference left written), scope)) := by
  constructor
  · intro t n h
    have hvalue := isValue_of_toInt? h
    have hsingle := isSingle_of_toInt? h
    have hline : '\n' ∉ t := not_mem_of_all (Text.isOperand_of_toInt? h).all_chars (by decide)
    refine ⟨fun hdigits hn => ?_, fun hdigits hn => ?_, fun hsigned => ?_⟩
    · have hnonneg := nonneg_of_isDigits hdigits h
      obtain ⟨k, hk, rfl⟩ := Text.WritesInt64.exists_toInt64? ⟨h, by omega, hn⟩
      refine ⟨k, rfl, ?_⟩
      rw [ofSource_attributeLine hne hname hvalue hsingle hline (classify_of_isDigits hdigits)
        (by decide), evaluateAs, readNumber_of_isDigits hdigits, hk]
      rfl
    · have hbeyond : t.toInt64? = none := by
        have hfits : fitsInt64 n = false := by
          rw [fitsInt64, Bool.and_eq_false_iff, decide_eq_false_iff_not, decide_eq_false_iff_not,
            Int64.toInt_maxValue]
          omega
        simp [Text.toInt64?, h, hfits]
      rw [ofSource_attributeLine hne hname hvalue hsingle hline (classify_of_isDigits hdigits)
        (by decide), evaluateAs, readNumber_of_isDigits hdigits, hbeyond]
      rfl
    · obtain ⟨o, ho, digits, rfl, hdigits⟩ := Text.exists_sign_of_toInt? h hsigned
      rw [ofSource_attributeLine hne hname hvalue hsingle hline
        (Operator.classify_sign ho hdigits) (by decide), evaluateAs,
        Operator.calculate_sign ho hdigits rfl]
      rfl
  · intro scope o m n written left
    have hwritten := Operator.evaluateAttribute_numerals o m n scope
    refine ⟨fun hclear hdiv => ?_, fun hclear hfree => ?_⟩
    · rw [Operator.calculate_of_isClear hclear] at hwritten
      cases hresult : o.result? m n with
      | none =>
        obtain ⟨ho, hzero⟩ := (o.result?_eq_none_iff m n).1 hresult
        exact absurd (Int64.toInt_inj.1 (hzero.trans Int64.toInt_zero.symm)) (hdiv ho)
      | some k =>
        rw [hresult] at hwritten
        exact ⟨k, hwritten, Operator.modEq_of_result? hresult⟩
    · rw [Operator.calculate_of_not_isClear hclear hfree] at hwritten
      exact hwritten

/-- The same sign is refused in front of a sum and read behind a difference. -/
theorem ofSource_number_signs :
    Document.ofSource "x = -5" = .error { Error.unknownReference [] "-5" with line := 1 } ∧
    Document.ofSource "x = 9223372036854775808" =
      .error ⟨.unclassifiable "9223372036854775808", 1, some integerRangeHint⟩ ∧
    evaluateAttribute "3 + -5" [] = (.error (.unknownReference "3 +" "3 + -5"), []) ∧
    ∃ k : Int64, k.toInt ≡ 8 [ZMOD 2 ^ 64] ∧
      evaluateAttribute "3 - -5" [] = (.ok ⟨[], .number, .scalar (.integer k)⟩, []) := by
  have hname : "x".toList ≠ [] ∧ "x".toList.all isNameChar = true := by decide
  obtain ⟨hsource, hcalculation⟩ := ofSource_number hname.1 hname.2
  obtain ⟨k, hk, hexact⟩ := (hcalculation [] .sub 3 (-5)).1 (by decide) nofun
  exact ⟨(hsource "-5" (-5) rfl).2.2 rfl,
    (hsource "9223372036854775808" 9223372036854775808 rfl).2.1 rfl (by decide),
    (hcalculation [] .add 3 (-5)).2 (by decide) rfl, k, hexact, hk⟩

end BlockConfig
