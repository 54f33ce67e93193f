import BlockConfig.Proofs.Evaluation.Comparison
import Mathlib.Algebra.Order.Floor.Ring
import Mathlib.Data.Int.ModEq
import Mathlib.Data.Rat.Floor

set_option autoImplicit false

/-!
Arithmetic on 64-bit integers is that of the whole numbers modulo 2 ^ 64. A float takes part as the
whole number that is left when it is cut toward zero.
-/

namespace BlockConfig

def cutTowardZero (q : ℚ) : Int := if q < 0 then ⌈q⌉ else ⌊q⌋

def saturate (n : Int) : Int := max (-2 ^ 63) (min (2 ^ 63 - 1) n)

theorem toInt_clampInt64_eq_saturate (n : Int) : (clampInt64 n).toInt = saturate n := by
  unfold clampInt64 saturate
  rw [Int64.toInt_minValue, Int64.toInt_maxValue]
  split
  · rw [Int64.toInt_minValue]
    omega
  · split
    · rw [Int64.toInt_maxValue]
      omega
    · rw [Int64.toInt_ofInt_of_le (by omega) (by omega)]
      omega

namespace Magnitude

variable {f : Format} (m : Magnitude f)

theorem floor_ratio : (m.ratio.floor : Int) = ⌊m.val⌋ := by
  rw [← m.val_ratio, Ratio.val, Ratio.floor]
  exact (Rat.floor_intCast_div_natCast m.ratio.num m.ratio.den).symm

end Magnitude

namespace Binary

variable {f : Format}

/-- What a float is as a whole number: the float cut toward zero, within 64 bits; NaN is 0. -/
inductive CutTo : Binary f → Int → Prop
  | nan : CutTo .nan 0
  | below : CutTo (.infinite true) (-2 ^ 63)
  | above : CutTo (.infinite false) (2 ^ 63 - 1)
  | finite (negative : Bool) (m : Magnitude f) : CutTo (.finite negative m)
      (saturate (cutTowardZero (if negative then -m.val else m.val)))

theorem truncate_finite (negative : Bool) (m : Magnitude f) :
    (Binary.finite negative m).truncate = cutTowardZero (if negative then -m.val else m.val) := by
  have hval := m.val_nonneg
  cases negative with
  | false => simp [truncate, cutTowardZero, m.floor_ratio, hval.not_gt]
  | true =>
    simp only [truncate, cutTowardZero, m.floor_ratio, if_true]
    split
    · rw [Int.ceil_neg]
    · rename_i hzero
      have : m.val = 0 := by linarith
      simp [this]

theorem CutTo.toInt_toInt64 {x : Binary f} {n : Int} (h : x.CutTo n) : x.toInt64.toInt = n := by
  cases h with
  | nan => rfl
  | below => rfl
  | above => rfl
  | finite negative m =>
    have hclamp : (Binary.finite negative m).toInt64 =
        clampInt64 (Binary.finite negative m).truncate := rfl
    rw [hclamp, truncate_finite, toInt_clampInt64_eq_saturate]

end Binary

namespace Text

theorem isDigits_of_toNat? {t : Text} {k : Nat} (h : t.toNat? = some k) : t.isDigits = true := by
  rw [toNat?] at h
  split at h
  · assumption
  · cases h

theorem writesInt64_of_digits {t : Text} {k : Nat} (h : t.toNat? = some k) (hk : k < 2 ^ 63) :
    t.WritesInt64 k := by
  have hsign := takeSign_of_isDigits (isDigits_of_toNat? h)
  exact ⟨by simp [toInt?, hsign, h], by omega, by omega⟩

end Text

namespace Scope

/-- The number that an operand of a calculation stands for: digits, or a name without hyphens that
an integer or a float is bound to. -/
inductive DenotesNumber (scope : Scope) (t : Text) : Int → Prop
  | digits {k : Nat} (h : t.toNat? = some k) (hk : k < 2 ^ 63) : DenotesNumber scope t k
  | integer {a : Attribute} {k : Int64} (h : t.IsIdentifier) (hyphen : '-' ∉ t)
      (ha : scope.find? t = some a) (hvalue : a.value = .scalar (.integer k)) :
      DenotesNumber scope t k.toInt
  | float {a : Attribute} {x : Single} {n : Int} (h : t.IsIdentifier) (hyphen : '-' ∉ t)
      (ha : scope.find? t = some a) (hvalue : a.value = .scalar (.float x)) (hn : x.CutTo n) :
      DenotesNumber scope t n

variable {scope : Scope} {t : Text}

theorem DenotesNumber.isOperand {n : Int} (h : scope.DenotesNumber t n) : t.IsOperand := by
  cases h with
  | digits h hk => exact (Text.writesInt64_of_digits h hk).isOperand
  | integer h => exact h.isOperand
  | float h => exact h.isOperand

theorem DenotesNumber.operand {n : Int} (h : scope.DenotesNumber t n) (expression : Text) :
    ∃ k : Int64, scope.operand true expression t = .ok k ∧ k.toInt = n := by
  cases h with
  | digits h hk =>
    obtain ⟨k, hk, hn⟩ := (Text.writesInt64_of_digits h hk).exists_toInt64?
    exact ⟨k, by rw [Scope.operand, hk], hn⟩
  | integer h hyphen ha hvalue =>
    exact ⟨_, by simp [Scope.operand, h.toInt64?_eq_none, ha, hvalue], rfl⟩
  | float h hyphen ha hvalue hn =>
    exact ⟨_, by simp [Scope.operand, h.toInt64?_eq_none, ha, hvalue], hn.toInt_toInt64⟩

theorem DenotesNumber.apart_token {n : Int} (h : scope.DenotesNumber t n) (o : Operator) :
    Text.Apart o.token t := by
  have hname : t.IsIdentifier → '-' ∉ t → Text.Apart o.token t := by
    intro hid hyphen
    have hall : t.all (fun c => Text.isIdentifierChar c && c != '-') = true :=
      List.all_eq_true.2 fun c hc => by
        have hne : c ≠ '-' := fun heq => hyphen (heq ▸ hc)
        simp [List.all_eq_true.1 hid.all_chars c hc, hne]
    exact Text.apart_of_all hall (by cases o <;> decide)
  cases h with
  | digits h hk =>
    have hall : t.all Char.isDigit = true := Text.all_isDigit (Text.isDigits_of_toNat? h)
    exact Text.apart_of_all hall (by cases o <;> decide)
  | integer h hyphen => exact hname h hyphen
  | float h hyphen => exact hname h hyphen

end Scope

namespace Operator

def exact : Operator → Int → Int → Int
  | .add, m, n => m + n
  | .sub, m, n => m - n
  | .mul, m, n => m * n
  | .div, m, n => m.tdiv n

theorem result?_eq_none_iff (o : Operator) (j k : Int64) :
    o.result? j k = none ↔ o = .div ∧ k.toInt = 0 := by
  have hzero : k = 0 ↔ k.toInt = 0 := by rw [← Int64.toInt_inj, Int64.toInt_zero]
  cases o <;> simp [result?, hzero]

theorem modEq_of_result? {o : Operator} {j k r : Int64} (h : o.result? j k = some r) :
    r.toInt ≡ o.exact j.toInt k.toInt [ZMOD 2 ^ 64] := by
  cases o with
  | add =>
    cases h
    rw [exact, Int64.toInt_add]
    exact Int.bmod_emod
  | sub =>
    cases h
    rw [exact, Int64.toInt_sub]
    exact Int.bmod_emod
  | mul =>
    cases h
    rw [exact, Int64.toInt_mul]
    exact Int.bmod_emod
  | div =>
    simp only [result?] at h
    split at h
    · cases h
    · cases h
      rw [exact, Int64.toInt_div]
      exact Int.bmod_emod

theorem token_ne_nil (o : Operator) : o.token ≠ [] := by cases o <;> decide

section Spaced

variable {scope : Scope} {t u : Text} {m n : Int} (ht : scope.DenotesNumber t m)
  (hu : scope.DenotesNumber u n) (o : Operator)

include ht hu

theorem contains_spaced (p : Operator) :
    (Text.spaced t o.token u).contains p.token = o.token.contains p.token :=
  Text.contains_spaced p.token_ne_nil (ht.apart_token p) (hu.apart_token p)

theorem select?_spaced : select? (Text.spaced t o.token u) = some o := by
  simp only [select?, contains_spaced ht hu]
  cases o <;> decide

theorem classify_spaced : classify (Text.spaced t o.token u) = .ok .arithmetic := by
  have hcomparison : (Text.spaced t o.token u).containsAny comparisonTokens = false := by
    have htokens : comparisonTokens = Comparator.all.map Comparator.token := rfl
    have hnone : ∀ c : Comparator, (Text.spaced t o.token u).contains c.token = false := by
      intro c
      rw [Text.contains_spaced c.token_ne_nil (c.apart_token ht.isOperand)
        (c.apart_token hu.isOperand)]
      cases o <;> cases c <;> decide
    simp [Text.containsAny, htokens, hnone]
  have harithmetic : (Text.spaced t o.token u).containsAny arithmeticTokens = true :=
    Text.containsAny_spaced (by cases o <;> decide)
  rw [classify, Text.isQuoted_spaced ht.isOperand, Text.isBracketed_spaced ht.isOperand,
    hcomparison, harithmetic]
  rfl

theorem calculate_spaced :
    ∃ j k : Int64, j.toInt = m ∧ k.toInt = n ∧ calculate (Text.spaced t o.token u) scope =
      match o.result? j k with
      | some result => .ok result
      | none => .error (.plain (.divisionByZero (Text.spaced t o.token u))) := by
  obtain ⟨j, hj, hm⟩ := ht.operand (Text.spaced t o.token u)
  obtain ⟨k, hk, hn⟩ := hu.operand (Text.spaced t o.token u)
  refine ⟨j, k, hm, hn, ?_⟩
  rw [calculate, select?_spaced ht hu]
  simp only [Text.operandsAt_spaced ht.isOperand hu.isOperand o.token_ne_nil (ht.apart_token o)]
  rw [hj, hk]
  rfl

theorem evaluateAttribute_spaced :
    evaluateAttribute (Text.spaced t o.token u) scope =
      ((calculate (Text.spaced t o.token u) scope).map fun k =>
        ⟨[], .number, .scalar (.integer k)⟩, scope) := by
  rw [BlockConfig.evaluateAttribute_spaced ht.isOperand hu.isOperand (classify_spaced ht hu o)
    nofun, evaluateAs]
  cases calculate (Text.spaced t o.token u) scope <;> rfl

theorem exists_evaluateAttribute_spaced (ho : o = .div → n ≠ 0) :
    ∃ k : Int64, evaluateAttribute (Text.spaced t o.token u) scope =
        (.ok ⟨[], .number, .scalar (.integer k)⟩, scope) ∧
      k.toInt ≡ o.exact m n [ZMOD 2 ^ 64] ∧ -2 ^ 63 ≤ k.toInt ∧ k.toInt < 2 ^ 63 := by
  obtain ⟨j, k, rfl, rfl, hcalculate⟩ := calculate_spaced ht hu o
  cases hresult : o.result? j k with
  | none =>
    obtain ⟨hdiv, hzero⟩ := (o.result?_eq_none_iff j k).1 hresult
    exact absurd hzero (ho hdiv)
  | some r =>
    refine ⟨r, ?_, modEq_of_result? hresult, r.le_toInt, r.toInt_lt⟩
    rw [evaluateAttribute_spaced ht hu, hcalculate, hresult]
    rfl

omit o in
theorem evaluateAttribute_div_zero (hzero : n = 0) :
    evaluateAttribute (Text.spaced t Operator.div.token u) scope =
      (.error (.plain (.divisionByZero (Text.spaced t Operator.div.token u))), scope) := by
  obtain ⟨j, k, rfl, rfl, hcalculate⟩ := calculate_spaced ht hu .div
  have hnone : Operator.div.result? j k = none :=
    (Operator.result?_eq_none_iff .div j k).2 ⟨rfl, hzero⟩
  rw [evaluateAttribute_spaced ht hu, hcalculate, hnone]
  rfl

end Spaced

end Operator

/-- Of two operands that stand for numbers every operator gives the exact result modulo 2 ^ 64; only
a quotient by zero is an error. -/
theorem evaluateAttribute_arithmetic {scope : Scope} {t u : Text} {m n : Int}
    (ht : scope.DenotesNumber t m) (hu : scope.DenotesNumber u n) :
    (∀ o : Operator, (o = .div → n ≠ 0) → ∃ k : Int64,
      evaluateAttribute (Text.spaced t o.token u) scope =
        (.ok ⟨[], .number, .scalar (.integer k)⟩, scope) ∧
      k.toInt ≡ o.exact m n [ZMOD 2 ^ 64] ∧ -2 ^ 63 ≤ k.toInt ∧ k.toInt < 2 ^ 63) ∧
    (evaluateAttribute (Text.spaced t "/" u) scope =
      (.error (.plain (.divisionByZero (Text.spaced t "/" u))), scope) ↔ n = 0) ∧
    (m = -2 ^ 63 → n = -1 → evaluateAttribute (Text.spaced t "/" u) scope =
      (.ok ⟨[], .number, .scalar (.integer .minValue)⟩, scope)) := by
  have hok := fun o ho => Operator.exists_evaluateAttribute_spaced ht hu o ho
  refine ⟨hok, ⟨fun herror => ?_, Operator.evaluateAttribute_div_zero ht hu⟩, fun hm hn => ?_⟩
  · by_contra hne
    obtain ⟨k, hk, -⟩ := hok .div fun _ => hne
    exact absurd (congrArg Prod.fst (hk.symm.trans herror)) nofun
  · obtain ⟨k, hk, hmod, hlow, hhigh⟩ := hok .div fun _ => by omega
    -- the exact quotient is 2 ^ 63, which only the least integer is congruent to
    have hk' : k = .minValue := by
      have hexact : Operator.div.exact m n = 2 ^ 63 := by
        rw [hm, hn]
        rfl
      rw [hexact, Int.ModEq] at hmod
      rw [← Int64.toInt_inj, Int64.toInt_minValue]
      omega
    rw [← hk']
    exact hk

def extremes : Scope :=
  [("a", ⟨"a", .number, .scalar (.integer .minValue)⟩),
    ("b", ⟨"b", .number, .scalar (.float (.finite true ⟨12582912, -23, by decide⟩))⟩)]

theorem evaluateAttribute_arithmetic_extremes :
    evaluateAttribute "a / b" extremes =
      (Except.ok ⟨[], .number, .scalar (.integer .minValue)⟩, extremes) ∧
    evaluateAttribute "a / 0" extremes =
      (Except.error (.plain (.divisionByZero "a / 0")), extremes) := by
  have ha : Text.IsIdentifier "a" := ⟨by decide, by decide, by decide, by decide⟩
  have hahyphen : '-' ∉ "a".toList := by decide
  have hb : Text.IsIdentifier "b" := ⟨by decide, by decide, by decide, by decide⟩
  have hbhyphen : '-' ∉ "b".toList := by decide
  have hleast : extremes.DenotesNumber "a" (-2 ^ 63) :=
    .integer (k := .minValue) ha hahyphen rfl rfl
  have hcut : Binary.CutTo (.finite true ⟨12582912, -23, by decide⟩ : Single) (-1) := by
    have hval : Magnitude.val (f := .single) ⟨12582912, -23, by decide⟩ = 3 / 2 := by
      norm_num [Magnitude.val]
    have hfinite := Binary.CutTo.finite true (f := .single) ⟨12582912, -23, by decide⟩
    have hminus : saturate (cutTowardZero (-(3 / 2))) = -1 := by
      norm_num [saturate, cutTowardZero, Int.ceil_eq_iff]
    rw [if_pos rfl, hval, hminus] at hfinite
    exact hfinite
  have hfloat : extremes.DenotesNumber "b" (-1) := .float hb hbhyphen rfl rfl hcut
  have hzero : extremes.DenotesNumber "0" 0 := .digits (k := 0) rfl (by decide)
  exact ⟨(evaluateAttribute_arithmetic hleast hfloat).2.2 rfl rfl,
    (evaluateAttribute_arithmetic hleast hzero).2.1.2 rfl⟩

end BlockConfig
