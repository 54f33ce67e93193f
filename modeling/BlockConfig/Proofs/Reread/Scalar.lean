import BlockConfig.Proofs.Evaluation.Plain
import BlockConfig.Proofs.Number.Numeral

set_option autoImplicit false

/-!
Scalars written as source and evaluated on their own. Strings, truth values and numbers without a
sign come back; the sign of a negative number is taken for an operator without a left operand, and
the point after the name of infinity or of NaN makes it no numeral.
-/

namespace BlockConfig

def Scalar.isLiteral : Scalar → Bool
  | .string _ | .boolean _ | .float (.finite false _) => true
  | .integer n => 0 ≤ n
  | .float _ | .expression _ => false

def isWordChar (c : Char) : Bool := c.isAlphanum || c == '.' || c == '-'

def isNumeralChar (c : Char) : Bool := c.isDigit || c == '.'

theorem isWordChar_of_isNumeralChar {c : Char} (h : isNumeralChar c = true) :
    isWordChar c = true := by
  simp only [isNumeralChar, Bool.or_eq_true] at h
  rcases h with h | h
  · simp [isWordChar, Char.isAlphanum, h]
  · simp [isWordChar, h]

theorem not_mem_of_all {p : Char → Bool} {t : Text} (h : t.all p = true) {c : Char}
    (hc : p c = false) : c ∉ t := by
  intro hm
  rw [List.all_eq_true.1 h c hm] at hc
  cases hc

theorem containsAny_eq_false {p : Char → Bool} {t : Text} (ht : t.all p = true)
    (needles : List Text) (h : needles.all (fun needle => needle.any fun c => !p c) = true) :
    t.containsAny needles = false := by
  rw [Bool.eq_false_iff]
  intro hc
  obtain ⟨needle, hneedle, hinside⟩ := (Text.containsAny_iff t needles).1 hc
  obtain ⟨c, hmem, hp⟩ := List.any_eq_true.1 (List.all_eq_true.1 h needle hneedle)
  exact not_mem_of_all ht (by simpa using hp) (hinside.subset hmem)

theorem isAscii_of_isWordChar {c : Char} (h : isWordChar c = true) : c.toNat < 128 := by
  unfold isWordChar Char.isAlphanum Char.isAlpha Char.isUpper Char.isLower Char.isDigit at h
  simp only [Bool.or_eq_true, Bool.and_eq_true, decide_eq_true_eq, beq_iff_eq,
    UInt32.le_iff_toNat_le] at h
  change c.val.toNat < 128
  rcases h with (((h | h) | h) | rfl) | rfl
  · exact lt_of_le_of_lt h.2 (by decide)
  · exact lt_of_le_of_lt h.2 (by decide)
  · exact lt_of_le_of_lt h.2 (by decide)
  · decide
  · decide

theorem forall_wordChar {p : Char → Bool}
    (h : ∀ n < 128, isWordChar (Char.ofNat n) = true → p (Char.ofNat n) = true) {c : Char}
    (hc : isWordChar c = true) : p c = true := by
  have hn := h c.toNat (isAscii_of_isWordChar hc)
  rw [Char.ofNat_toNat] at hn
  exact hn hc

theorem isBlank_of_isWordChar {c : Char} (h : isWordChar c = true) : isBlank c = false := by
  simpa using forall_wordChar (p := fun d => !isBlank d) (by decide) h

theorem isQuote_of_isWordChar {c : Char} (h : isWordChar c = true) : isQuote c = false := by
  simpa using forall_wordChar (p := fun d => !isQuote d) (by decide) h

theorem isNameChar_cases {c : Char} (h : isNameChar c = true) : isWordChar c = true ∨ c = '_' := by
  simp only [isNameChar, Bool.or_eq_true, beq_iff_eq] at h
  exact h.imp_left fun hletter => by simp [isWordChar, hletter]

theorem isBlank_of_isNameChar {c : Char} (h : isNameChar c = true) : isBlank c = false := by
  obtain hword | rfl := isNameChar_cases h
  · exact isBlank_of_isWordChar hword
  · decide

theorem isQuote_of_isNameChar {c : Char} (h : isNameChar c = true) : isQuote c = false := by
  obtain hword | rfl := isNameChar_cases h
  · exact isQuote_of_isWordChar hword
  · rfl

section Classify

variable {t : Text}

theorem isQuoted_of_all {p : Char → Bool} (h : t.all p = true)
    (hp : p '"' = false ∧ p '\'' = false) : t.isQuoted = false := by
  match t with
  | [] | [_] => rfl
  | c :: d :: rest =>
    have hquote : isQuote c = false := by
      refine Bool.eq_false_iff.2 fun hc => ?_
      obtain rfl | rfl : c = '"' ∨ c = '\'' := by simpa [isQuote] using hc
      · exact not_mem_of_all h hp.1 List.mem_cons_self
      · exact not_mem_of_all h hp.2 List.mem_cons_self
    simp [Text.isQuoted, hquote]

theorem isBracketed_of_all {p : Char → Bool} (h : t.all p = true) (hp : p '[' = false) :
    isBracketed t = false := by
  have hhead : t.head? ≠ some '[' := fun he => not_mem_of_all h hp (List.mem_of_head? he)
  simp [isBracketed, hhead]

theorem classify_of_operator {p : Char → Bool} (h : t.all p = true)
    (hp : (p '"' = false ∧ p '\'' = false) ∧ p '[' = false)
    (hcomparison : comparisonTokens.all (fun token => token.any fun c => !p c) = true)
    (hoperator : t.containsAny arithmeticTokens = true) : classify t = .ok .arithmetic := by
  rw [classify, isQuoted_of_all h hp.1, isBracketed_of_all h hp.2,
    containsAny_eq_false h comparisonTokens hcomparison, hoperator]
  rfl

theorem map_toLower_numeral (h : t.all isNumeralChar = true) : t.map Char.toLower = t := by
  have hsame : ∀ c ∈ t, c.toLower = c := by
    intro c hc
    have hword := isWordChar_of_isNumeralChar (List.all_eq_true.1 h c hc)
    have hcheck := forall_wordChar (p := fun d => !isNumeralChar d || d.toLower == d) (by decide)
      hword
    simpa [List.all_eq_true.1 h c hc] using hcheck
  simpa using List.map_congr_left hsame

theorem all_isWordChar (h : t.all isNumeralChar = true) : t.all isWordChar = true :=
  List.all_eq_true.2 fun c hc => isWordChar_of_isNumeralChar (List.all_eq_true.1 h c hc)

theorem mentionsBoolean_numeral (h : t.all isNumeralChar = true) : mentionsBoolean t = false := by
  have hascii : ∀ c ∈ t, c.toNat < 128 := fun c hc =>
    isAscii_of_isWordChar (List.all_eq_true.1 (all_isWordChar h) c hc)
  rw [mentionsBoolean, Text.lower_ascii hascii, map_toLower_numeral h]
  exact containsAny_eq_false h _ (by decide)

theorem classify_numeral (h : t.all isNumeralChar = true) (hread : (readSingle? t).isSome = true) :
    classify t = .ok .number := by
  rw [classify, isQuoted_of_all h (by decide), isBracketed_of_all h (by decide),
    containsAny_eq_false h comparisonTokens (by decide),
    containsAny_eq_false h arithmeticTokens (by decide),
    containsAny_eq_false h textCallMarks (by decide),
    containsAny_eq_false h mathCallMarks (by decide),
    containsAny_eq_false h logicCallMarks (by decide),
    mentionsBoolean_numeral h, hread]
  rfl

theorem classify_negative (h : t.all isWordChar = true) :
    classify ('-' :: t) = .ok .arithmetic := by
  have hword : List.all ('-' :: t) isWordChar = true := by
    rw [List.all_cons, h]
    rfl
  exact classify_of_operator hword (by decide) (by decide)
    ((Text.containsAny_iff _ _).2 ⟨"-", by decide, ⟨[], t, rfl⟩⟩)

theorem select?_negative (h : t.all isWordChar = true) :
    Operator.select? ('-' :: t) = some .sub := by
  have hword : List.all ('-' :: t) isWordChar = true := by
    rw [List.all_cons, h]
    rfl
  have hnone : ∀ o ∈ [Operator.div, Operator.mul], Text.contains ('-' :: t) o.token = false := by
    intro o ho
    have hmark := containsAny_eq_false hword [o.token] (by revert o; decide)
    simpa [Text.containsAny] using hmark
  have hsign : Text.contains ('-' :: t) Operator.sub.token = true :=
    (Text.contains_iff _ _).2 ⟨[], t, rfl⟩
  have horder : Operator.all.reverse = [.div, .mul, .sub, .add] := rfl
  simp [Operator.select?, horder, hnone, hsign]

theorem calculate_negative (h : t.all isWordChar = true) :
    calculate ('-' :: t) [] = .error (.unknownReference [] ('-' :: t)) := by
  rw [calculate, select?_negative h]
  rfl

end Classify

theorem readSingle?_of_isDigits {t : Text} (h : t.isDigits = true) :
    (readSingle? t).isSome = true := by
  obtain ⟨hne, hall⟩ : t ≠ [] ∧ ∀ c ∈ t, c.isDigit = true := by simpa [Text.isDigits] using h
  have hcomma : ',' ∉ t := fun hc => absurd (hall _ hc) (by decide)
  have htake : t.takeWhile Char.isDigit = t := List.takeWhile_eq_self_iff.2 hall
  have hdrop : t.dropWhile Char.isDigit = [] := List.dropWhile_eq_nil_iff.2 hall
  have hread : (Decimal.read? t).isSome = true := by
    simp [Decimal.read?, htake, hdrop, hne, Decimal.readExponent?]
  rw [readSingle?, replaceFirst_of_not_mem hcomma, Binary.read?, Text.takeSign_of_isDigits h]
  simp only
  split
  · rfl
  · split
    · rfl
    · simpa using hread

theorem classify_of_isDigits {t : Text} (h : t.isDigits = true) : classify t = .ok .number := by
  have hnumeral : t.all isNumeralChar = true := List.all_eq_true.2 fun c hc => by
    simp [isNumeralChar, List.all_eq_true.1 (Text.all_isDigit h) c hc]
  exact classify_numeral hnumeral (readSingle?_of_isDigits h)

theorem hasDecimalMark_of_isDigits {t : Text} (h : t.isDigits = true) :
    hasDecimalMark t = false := by
  rw [hasDecimalMark, List.any_eq_false]
  intro c hc hmark
  obtain rfl | rfl : c = '.' ∨ c = ',' := by simpa using hmark
  · exact not_mem_of_all (Text.all_isDigit h) (by decide) hc
  · exact not_mem_of_all (Text.all_isDigit h) (by decide) hc

namespace Scalar

theorem source_integer_of_nonneg {n : Int64} (h : 0 ≤ n) :
    (integer n).source = Text.ofNat n.toInt.natAbs := by
  have hn : 0 ≤ n.toInt := Int64.le_iff_toInt_le.1 h
  change Text.ofInt n.toInt = _
  rw [Text.ofInt, if_neg (by omega)]

theorem source_integer_of_neg {n : Int64} (h : ¬ 0 ≤ n) :
    (integer n).source = '-' :: Text.ofNat n.toInt.natAbs := by
  have hn : ¬ 0 ≤ n.toInt := fun hle => h (Int64.le_iff_toInt_le.2 hle)
  change Text.ofInt n.toInt = _
  rw [Text.ofInt, if_pos (by omega)]

theorem source_float_negative (m : Magnitude .single) :
    (float (.finite true m)).source = '-' :: (float (.finite false m)).source := by
  have htext : (Binary.finite true m).text = '-' :: (Binary.finite false m).text := rfl
  simp only [source, htext]
  by_cases hpoint : '.' ∈ (Binary.finite false m).text <;> simp [hpoint]

theorem numeral_ofNat (n : Nat) : (Text.ofNat n).all isNumeralChar = true :=
  List.all_eq_true.2 fun c hc => by simp [isNumeralChar, isDigit_of_mem_ofNat hc]

theorem numeral_float (m : Magnitude .single) :
    (float (.finite false m)).source.all isNumeralChar = true := by
  obtain ⟨d, hpointed, -⟩ := source_float m
  obtain ⟨whole, fraction, heq, -, hwhole, hfraction, -⟩ := hpointed.split
  rw [heq, List.all_eq_true]
  intro c hc
  rcases List.mem_append.1 hc with hc | hc
  · simp [isNumeralChar, hwhole c hc]
  · rcases List.mem_cons.1 hc with rfl | hc
    · rfl
    · simp [isNumeralChar, hfraction c hc]

theorem isWordChar_source {s : Scalar} (hs : s.kind ≠ .string) (he : ∀ u, s ≠ .expression u) :
    s.source.all isWordChar = true := by
  cases s with
  | string t => exact absurd rfl hs
  | expression u => exact absurd rfl (he u)
  | boolean b => cases b <;> decide
  | integer n =>
    by_cases hn : 0 ≤ n
    · rw [source_integer_of_nonneg hn]
      exact all_isWordChar (numeral_ofNat _)
    · rw [source_integer_of_neg hn, List.all_cons, all_isWordChar (numeral_ofNat _)]
      rfl
  | float x =>
    cases x with
    | nan => decide
    | infinite negative => cases negative <;> decide
    | finite negative m =>
      cases negative with
      | false => exact all_isWordChar (numeral_float m)
      | true =>
        rw [source_float_negative, List.all_cons, all_isWordChar (numeral_float m)]
        rfl

def quoteFor (t : Text) : Char := if '"' ∈ t then '\'' else '"'

theorem source_string (t : Text) : (string t).source = quoteFor t :: (t ++ [quoteFor t]) := by
  by_cases h : '"' ∈ t <;> simp [source, quoteFor, h]

theorem ofNat_ne_nil (n : Nat) : Text.ofNat n ≠ [] := by simp [Text.ofNat]

theorem source_ne_nil {s : Scalar} (he : ∀ u, s ≠ .expression u) : s.source ≠ [] := by
  cases s with
  | string t => simp [source_string]
  | expression u => exact absurd rfl (he u)
  | boolean b => cases b <;> decide
  | integer n =>
    by_cases hn : 0 ≤ n
    · rw [source_integer_of_nonneg hn]
      exact ofNat_ne_nil _
    · simp [source_integer_of_neg hn]
  | float x =>
    cases x with
    | nan => decide
    | infinite negative => cases negative <;> decide
    | finite negative m =>
      cases negative with
      | false =>
        obtain ⟨d, hpointed, -⟩ := source_float m
        obtain ⟨whole, fraction, heq, -⟩ := hpointed.split
        simp [heq]
      | true => simp [source_float_negative]

theorem isQuote_quoteFor (t : Text) : isQuote (quoteFor t) = true := by
  unfold quoteFor
  split <;> rfl

theorem isBlank_quoteFor (t : Text) : isBlank (quoteFor t) = false :=
  isBlank_of_isQuote (isQuote_quoteFor t)

theorem quoteFor_ne_slash (t : Text) : quoteFor t ≠ '/' := by
  unfold quoteFor
  split <;> decide

theorem classify_string (t : Text) : classify (string t).source = .ok .string := by
  rw [source_string, classify, Text.isQuoted_wrap (isQuote_quoteFor t)]
  rfl

/-- A literal stands for itself, whatever is in scope. -/
theorem evaluateScalar_source {s : Scalar} (h : s.isLiteral = true) (nested : Error)
    (scope : Scope) : evaluateScalar nested s.source scope = .ok s := by
  cases s with
  | string t =>
    rw [evaluateScalar_of_classify (by decide) (classify_string t), source_string]
    exact congrArg (fun u => Except.ok (string u)) (Text.unquote_wrap (isQuote_quoteFor t) t)
  | expression u => cases h
  | boolean b =>
    have hform : classify (boolean b).source = .ok .boolean := by cases b <;> decide
    rw [evaluateScalar_of_classify (by decide) hform]
    cases b <;> rfl
  | integer n =>
    have hn : 0 ≤ n := by simpa [isLiteral] using h
    have hsource : (integer n).source = .ofInt64 n := rfl
    have hdigits : (integer n).source.isDigits = true := by
      rw [source_integer_of_nonneg hn]
      exact Text.isDigits_ofNat n.toInt.natAbs
    have hform := classify_of_isDigits hdigits
    have hmark := hasDecimalMark_of_isDigits hdigits
    rw [evaluateScalar_of_classify (by decide) hform, evaluateAs, readNumber, hmark, hsource,
      Text.toInt64?_ofInt64]
    rfl
  | float x =>
    cases x with
    | nan => cases h
    | infinite negative => cases h
    | finite negative m =>
      cases negative with
      | true => cases h
      | false =>
        obtain ⟨d, hpointed, hread⟩ := source_float m
        have hform := classify_numeral (numeral_float m) (by rw [hread]; rfl)
        have hmark : hasDecimalMark (float (.finite false m)).source = true := by
          obtain ⟨whole, fraction, heq, -⟩ := hpointed.split
          simp [heq, hasDecimalMark]
        rw [evaluateScalar_of_classify (by decide) hform, evaluateAs, readNumber, hmark, hread]
        rfl

theorem isLiteral_of_evaluateScalar {s found : Scalar} (hs : s.kind ≠ .string)
    (he : ∀ u, s ≠ .expression u) {nested : Error}
    (h : evaluateScalar nested s.source [] = .ok found) : s.isLiteral = true := by
  have hnegative : ∀ t : Text, t.all isWordChar = true →
      evaluateScalar nested ('-' :: t) [] ≠ .ok found := by
    intro t ht hok
    rw [evaluateScalar_of_classify (by decide) (classify_negative ht), evaluateAs,
      calculate_negative ht] at hok
    cases hok
  cases s with
  | string t => exact absurd rfl hs
  | expression u => exact absurd rfl (he u)
  | boolean b => rfl
  | integer n =>
    by_cases hn : 0 ≤ n
    · simpa [isLiteral] using hn
    · rw [source_integer_of_neg hn] at h
      exact absurd h (hnegative _ (all_isWordChar (numeral_ofNat _)))
  | float x =>
    cases x with
    | nan => cases h
    | infinite negative =>
      cases negative with
      | false => cases h
      | true => exact absurd h (hnegative "inf.0" (by decide))
    | finite negative m =>
      cases negative with
      | false => rfl
      | true =>
        rw [source_float_negative] at h
        exact absurd h (hnegative _ (all_isWordChar (numeral_float m)))

end Scalar

theorem exists_wrap_of_isQuoted {t : Text} (h : t.isQuoted = true) :
    ∃ q inner, t = q :: (inner ++ [q]) ∧ isQuote q = true := by
  match t with
  | [] | [_] => cases h
  | q :: d :: rest =>
    simp only [Text.isQuoted, Bool.and_eq_true, beq_iff_eq] at h
    obtain ⟨inner, hinner⟩ := List.getLast?_eq_some_iff.1 h.2
    exact ⟨q, inner, by rw [hinner], h.1⟩

theorem read?_of_quote {q : Char} (hq : isQuote q = true) (rest : Text) :
    Call.read? (q :: rest) = none := by
  have hletters : isBlank q = false ∧ isNameChar q = false := by
    rcases (by simpa [isQuote] using hq : q = '"' ∨ q = '\'') with rfl | rfl <;> decide
  have hname : (q :: rest).takeWhile isNameChar = [] := by simp [hletters.2]
  simp [Call.read?, Text.trimStart_of_head hletters.1, hname]

theorem array_of_evaluatePlain {t : Text} {scope : Scope} {items : List Scalar}
    (h : evaluatePlain t scope = .ok (.array items)) :
    isBracketed t = true ∧ evaluateArray t scope = .ok items := by
  cases hform : classify t with
  | error e =>
    rw [evaluatePlain, hform] at h
    cases h
  | ok form =>
    by_cases harray : form = .array
    · rw [harray] at hform
      rw [evaluatePlain_of_array hform] at h
      obtain ⟨found, hfound, heq⟩ := exists_of_map_ok h
      exact ⟨test_of_classify hform, Value.array.inj heq ▸ hfound⟩
    · rw [evaluatePlain_of_classify harray hform] at h
      obtain ⟨s, -, heq⟩ := exists_of_map_ok h
      cases heq

theorem eq_of_evaluateScalar_string {q : Char} (hq : isQuote q = true) {rest u : Text}
    {nested : Error} {scope : Scope}
    (h : evaluateScalar nested (q :: rest) scope = .ok (.string u)) :
    q :: rest = q :: (u ++ [q]) := by
  cases hform : classify (q :: rest) with
  | error e =>
    rw [evaluateScalar, hform] at h
    cases h
  | ok form =>
    by_cases harray : form = .array
    · rw [evaluateScalar, hform, harray] at h
      cases h
    rw [evaluateScalar_of_classify harray hform] at h
    cases form with
    | array => exact absurd rfl harray
    | string =>
      obtain ⟨q', inner, heq, hq'⟩ := exists_wrap_of_isQuoted (test_of_classify hform)
      rw [evaluateAs, heq, Text.unquote_wrap hq'] at h
      cases h
      rw [List.cons.injEq] at heq
      rw [heq.1, heq.2]
    | textCall =>
      rw [evaluateAs, callOnText, Call.read, read?_of_quote hq] at h
      cases h
    | comparison | arithmetic | mathCall | logicCall =>
      obtain ⟨result, -, hresult⟩ := exists_of_map_ok h
      cases hresult
    | boolean => cases h
    | number => cases kind_of_readNumber h

theorem Scalar.eq_of_same {s t : Scalar} (h : s.same t = true) (ht : ∀ x, t ≠ .float x) :
    s = t := by
  unfold same at h
  split at h
  · exact absurd rfl (ht _)
  · exact eq_of_beq h

theorem Scalar.same_self {s : Scalar} (h : s.isLiteral = true) : s.same s = true := by
  cases s with
  | float x =>
    match x with
    | .nan | .infinite _ | .finite true _ => cases h
    | .finite false m => simp [same, Binary.same]
  | _ => exact beq_self_eq_true _

/-- The text stands for the scalar, up to equality of the language. -/
def Text.Denotes (t : Text) (s : Scalar) : Prop :=
  ∃ found, evaluatePlain t [] = .ok (.scalar found) ∧ found.same s = true

namespace Text.Denotes

variable {t : Text} {s : Scalar}

theorem ne_expression (h : t.Denotes s) (u : Text) : s ≠ .expression u := by
  rintro rfl
  obtain ⟨found, hfound, hsame⟩ := h
  have hnever : (Value.scalar found).Holds Anything ∧
      ∀ u, Value.scalar found ≠ .scalar (.expression u) :=
    (evaluatePlain_meets Text.closed_anything (Scope.holds_anything []) trivial).of_ok hfound
  exact hnever.2 u (congrArg Value.scalar (Scalar.eq_of_same hsame (by simp)))

theorem isLiteral (h : s.source.Denotes s) (hs : s.kind ≠ .string) : s.isLiteral = true := by
  obtain ⟨found, hfound, -⟩ := id h
  have hscalar := (evaluateScalar_iff (.plain .emptyBlockName)).1 hfound
  exact Scalar.isLiteral_of_evaluateScalar hs h.ne_expression hscalar

theorem eq_of_quote {q : Char} {rest u : Text} (h : Denotes (q :: rest) (.string u))
    (hq : isQuote q = true) : q :: rest = q :: (u ++ [q]) := by
  obtain ⟨found, hfound, hsame⟩ := h
  rw [Scalar.eq_of_same hsame (by simp)] at hfound
  exact eq_of_evaluateScalar_string hq ((evaluateScalar_iff (.plain .emptyBlockName)).1 hfound)

end Text.Denotes

theorem Scalar.trim_source {s : Scalar} (he : ∀ u, s ≠ .expression u) :
    s.source.trim = s.source := by
  by_cases hs : s.kind = .string
  · cases s with
    | string t =>
      rw [source_string]
      exact Text.trim_wrap (isBlank_quoteFor t) (isBlank_quoteFor t) t
    | _ => cases hs
  · have hword := List.all_eq_true.1 (isWordChar_source hs he)
    exact Text.trim_of_solid fun c hc => isBlank_of_isWordChar (hword c hc)

end BlockConfig
