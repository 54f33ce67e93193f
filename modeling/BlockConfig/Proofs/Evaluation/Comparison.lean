import BlockConfig.Proofs.Evaluation.Operands

set_option autoImplicit false

namespace BlockConfig

namespace Text

def WritesInt64 (t : Text) (n : Int) : Prop := t.toInt? = some n ∧ -2 ^ 63 ≤ n ∧ n < 2 ^ 63

theorem WritesInt64.exists_toInt64? {t : Text} {n : Int} (h : t.WritesInt64 n) :
    ∃ k : Int64, t.toInt64? = some k ∧ k.toInt = n := by
  obtain ⟨hn, hlow, hhigh⟩ := h
  have hfits : fitsInt64 n = true := by
    rw [fitsInt64, Bool.and_eq_true, decide_eq_true_eq, decide_eq_true_eq, Int64.toInt_minValue,
      Int64.toInt_maxValue]
    omega
  exact ⟨.ofInt n, by simp [toInt64?, hn, hfits], Int64.toInt_ofInt_of_le hlow hhigh⟩

def isIdentifierChar (c : Char) : Bool := c.isAlphanum || c == '_' || c == '-'

/-- A letter, then letters, digits, underscores and hyphens; no keyword. -/
structure IsIdentifier (t : Text) : Prop where
  letter : t.head?.any Char.isAlpha = true
  all_chars : t.all isIdentifierChar = true
  not_if : t ≠ "if"
  not_for : t ≠ "for"

theorem isOperandChar_of_isIdentifierChar {c : Char} (h : isIdentifierChar c = true) :
    isOperandChar c = true := by
  simp only [isIdentifierChar, Bool.or_eq_true, beq_iff_eq] at h
  obtain (h | rfl) | rfl := h
  · simp [isOperandChar, isNumberChar, h]
  · rfl
  · rfl

theorem not_isDigit_of_isAlpha {c : Char} (h : c.isAlpha = true) : c.isDigit = false := by
  unfold Char.isAlpha Char.isUpper Char.isLower at h
  unfold Char.isDigit
  simp only [Bool.or_eq_true, Bool.and_eq_true, decide_eq_true_eq, Bool.and_eq_false_iff,
    decide_eq_false_iff_not, UInt32.le_iff_toNat_le, ge_iff_le] at h ⊢
  have hupper : 'A'.val.toNat = 65 := rfl
  have hlower : 'a'.val.toNat = 97 := rfl
  have hnine : '9'.val.toNat = 57 := rfl
  omega

namespace IsIdentifier

variable {t : Text} (h : t.IsIdentifier)

include h

theorem isOperand : t.IsOperand where
  ne_nil := by
    rintro rfl
    exact absurd h.letter (by simp)
  all_chars := List.all_eq_true.2 fun c hc =>
    isOperandChar_of_isIdentifierChar (List.all_eq_true.1 h.all_chars c hc)
  not_if := h.not_if
  not_for := h.not_for

theorem toInt?_eq_none : t.toInt? = none := by
  have hletter := h.letter
  cases t with
  | nil => simp at hletter
  | cons c rest =>
    have hc : c.isAlpha = true := by simpa using hletter
    have hsign : takeSign (c :: rest) = (false, c :: rest) := by
      unfold takeSign
      split
      · rename_i heq
        rw [(List.cons.inj heq).1] at hc
        exact absurd hc (by decide)
      · rename_i heq
        rw [(List.cons.inj heq).1] at hc
        exact absurd hc (by decide)
      · rfl
    simp [toInt?, hsign, toNat?, isDigits, not_isDigit_of_isAlpha hc]

theorem toInt64?_eq_none : t.toInt64? = none := by rw [toInt64?, h.toInt?_eq_none, Option.bind_none]

theorem not_writesInt64 (n : Int) : ¬ t.WritesInt64 n := fun hn => by
  simpa [h.toInt?_eq_none] using hn.1

end IsIdentifier

theorem isOperand_of_toInt? {t : Text} {n : Int} (h : t.toInt? = some n) : t.IsOperand where
  ne_nil := by
    rintro rfl
    exact absurd h (by simp [toInt?, takeSign, toNat?, isDigits])
  all_chars := List.all_eq_true.2 fun c hc => by
    have hchar := List.all_eq_true.1 (isNumberChar_of_toInt? (by rw [h]; rfl)) c hc
    simp [isOperandChar, hchar]
  not_if := by
    rintro rfl
    exact absurd h (by simp [toInt?, takeSign, toNat?, isDigits])
  not_for := by
    rintro rfl
    exact absurd h (by simp [toInt?, takeSign, toNat?, isDigits])

theorem WritesInt64.isOperand {t : Text} {n : Int} (h : t.WritesInt64 n) : t.IsOperand :=
  isOperand_of_toInt? h.1

inductive IsComparable (t : Text) : Prop
  | literal (n : Int) (h : t.WritesInt64 n)
  | name (h : t.IsIdentifier)

theorem IsComparable.isOperand {t : Text} : t.IsComparable → t.IsOperand
  | .literal _ h => h.isOperand
  | .name h => h.isOperand

end Text

def Error.notInteger (name expression : Text) : Error :=
  hinted (.nonIntegerOperand name expression) "Only integer values can be compared or combined"

namespace Scope

/-- The integer that an operand stands for: the number written out, or the one the name is bound
to. -/
inductive DenotesInteger (scope : Scope) (t : Text) : Int → Prop
  | literal {n : Int} (h : t.WritesInt64 n) : DenotesInteger scope t n
  | name {a : Attribute} {k : Int64} (h : t.IsIdentifier) (ha : scope.find? t = some a)
      (hvalue : a.value = .scalar (.integer k)) : DenotesInteger scope t k.toInt

/-- Of two operands, the first that stands for no integer. -/
inductive FirstBad (scope : Scope) (t u : Text) : Text → Prop
  | left (h : ∀ m, ¬ scope.DenotesInteger t m) : FirstBad scope t u t
  | right {m : Int} (ht : scope.DenotesInteger t m) (h : ∀ n, ¬ scope.DenotesInteger u n) :
      FirstBad scope t u u

variable {scope : Scope} {t : Text}

theorem DenotesInteger.operand {m : Int} (h : scope.DenotesInteger t m) (truncating : Bool)
    (expression : Text) :
    ∃ k : Int64, scope.operand truncating expression t = .ok k ∧ k.toInt = m := by
  cases h with
  | literal h =>
    obtain ⟨k, hk, hm⟩ := h.exists_toInt64?
    exact ⟨k, by rw [Scope.operand, hk], hm⟩
  | name h ha hvalue =>
    rename_i a k
    exact ⟨k, by simp [Scope.operand, h.toInt64?_eq_none, ha, hvalue], rfl⟩

theorem isIdentifier_of_bad (ht : t.IsComparable) (hbad : ∀ m, ¬ scope.DenotesInteger t m) :
    t.IsIdentifier := by
  cases ht with
  | literal n h => exact absurd (.literal h) (hbad n)
  | name h => exact h

theorem operand_of_unbound (ht : t.IsIdentifier) (hfree : scope.find? t = none)
    (truncating : Bool) (expression : Text) :
    scope.operand truncating expression t = .error (.unknownReference t expression) :=
  operand_of_unread ht.toInt64?_eq_none hfree truncating expression

theorem operand_of_bound {a : Attribute} (ht : t.IsIdentifier) (ha : scope.find? t = some a)
    (hbad : ∀ m, ¬ scope.DenotesInteger t m) (expression : Text) :
    scope.operand false expression t = .error (.notInteger t expression) := by
  have hvalue : ∀ k, a.value ≠ .scalar (.integer k) := fun k hk => hbad _ (.name ht ha hk)
  simp only [operand, ht.toInt64?_eq_none, ha]
  split
  · rename_i k hk
    exact absurd hk (hvalue k)
  · contradiction
  · rfl

end Scope

namespace Comparator

def Relates : Comparator → Int → Int → Prop
  | .eq, m, n => m = n
  | .ne, m, n => m ≠ n
  | .lt, m, n => m < n
  | .le, m, n => m ≤ n
  | .gt, m, n => m > n
  | .ge, m, n => m ≥ n

instance (c : Comparator) (m n : Int) : Decidable (c.Relates m n) :=
  match c with
  | .eq => inferInstanceAs (Decidable (m = n))
  | .ne => inferInstanceAs (Decidable (m ≠ n))
  | .lt => inferInstanceAs (Decidable (m < n))
  | .le => inferInstanceAs (Decidable (m ≤ n))
  | .gt => inferInstanceAs (Decidable (m > n))
  | .ge => inferInstanceAs (Decidable (m ≥ n))

def negation : Comparator → Comparator
  | .eq => .ne
  | .ne => .eq
  | .lt => .ge
  | .le => .gt
  | .gt => .le
  | .ge => .lt

theorem relates_negation (c : Comparator) (m n : Int) :
    c.negation.Relates m n ↔ ¬ c.Relates m n := by
  cases c <;> simp only [negation, Relates] <;> omega

theorem apply_eq_relates (c : Comparator) (j k : Int64) :
    c.apply j k = decide (c.Relates j.toInt k.toInt) := by
  cases c with
  | eq =>
    rw [apply, Bool.eq_iff_iff, beq_iff_eq, decide_eq_true_iff, ← Int64.toInt_inj]
    rfl
  | ne =>
    rw [apply, Bool.eq_iff_iff, bne_iff_ne, decide_eq_true_iff, Ne, ← Int64.toInt_inj]
    rfl
  | lt | gt => exact decide_eq_decide.2 Int64.lt_iff_toInt_lt
  | le | ge => exact decide_eq_decide.2 Int64.le_iff_toInt_le

theorem existsUnique_relates (m n : Int) :
    ∃! c, c ∈ [Comparator.lt, .eq, .gt] ∧ c.Relates m n := by
  have hone : ∀ c ∈ [Comparator.lt, .eq, .gt], c.Relates m n →
      ∀ d, d ∈ [Comparator.lt, .eq, .gt] ∧ d.Relates m n → d = c := by
    rintro c hc hm d ⟨hd, hn⟩
    simp only [List.mem_cons, List.not_mem_nil, or_false] at hc hd
    obtain rfl | rfl | rfl := hc <;> obtain rfl | rfl | rfl := hd <;>
      simp only [Relates, reduceCtorEq] at hm hn ⊢ <;> omega
  obtain hlt | heq | hgt := lt_trichotomy m n
  · exact ⟨.lt, ⟨by simp, hlt⟩, hone .lt (by simp) hlt⟩
  · exact ⟨.eq, ⟨by simp, heq⟩, hone .eq (by simp) heq⟩
  · exact ⟨.gt, ⟨by simp, hgt⟩, hone .gt (by simp) hgt⟩

theorem token_ne_nil (c : Comparator) : c.token ≠ [] := by cases c <;> decide

section Spaced

variable {t u : Text}

theorem apart_token (ht : t.IsOperand) (c : Comparator) : Text.Apart c.token t :=
  Text.apart_of_all ht.all_chars (by cases c <;> decide)

theorem classify_spaced (ht : t.IsOperand) (c : Comparator) :
    classify (Text.spaced t c.token u) = .ok .comparison := by
  have htokens : (Text.spaced t c.token u).containsAny comparisonTokens = true :=
    Text.containsAny_spaced (by cases c <;> decide)
  rw [classify, Text.isQuoted_spaced ht, Text.isBracketed_spaced ht, htokens]
  rfl

variable (ht : t.IsOperand) (hu : u.IsOperand) (c : Comparator)

include ht hu

/-- Of the comparators that occur in a token, the token's own is the last in scan order. -/
theorem select?_spaced : select? (Text.spaced t c.token u) = some c := by
  have hcontains : ∀ d : Comparator,
      (Text.spaced t c.token u).contains d.token = c.token.contains d.token := fun d =>
    Text.contains_spaced d.token_ne_nil (apart_token ht d) (apart_token hu d)
  simp only [select?, hcontains]
  cases c <;> decide

theorem compare_spaced (scope : Scope) :
    compare (Text.spaced t c.token u) scope = (do
      let m ← scope.operand false (Text.spaced t c.token u) t
      let n ← scope.operand false (Text.spaced t c.token u) u
      return c.apply m n) := by
  rw [compare, select?_spaced ht hu]
  simp only [Text.operandsAt_spaced ht hu c.token_ne_nil (apart_token ht c)]

theorem evaluateAttribute_spaced (scope : Scope) :
    evaluateAttribute (Text.spaced t c.token u) scope =
      ((compare (Text.spaced t c.token u) scope).map fun b => ⟨[], .boolean, .scalar (.boolean b)⟩,
        scope) := by
  rw [BlockConfig.evaluateAttribute_spaced ht hu (classify_spaced ht c) nofun, evaluateAs]
  cases compare (Text.spaced t c.token u) scope <;> rfl

end Spaced

end Comparator

section Compare

variable {scope : Scope} {t u : Text}

theorem compare_of_denotes (ht : t.IsComparable) (hu : u.IsComparable) (c : Comparator) {m n : Int}
    (hm : scope.DenotesInteger t m) (hn : scope.DenotesInteger u n) :
    compare (Text.spaced t c.token u) scope = .ok (decide (c.Relates m n)) := by
  obtain ⟨j, hj, rfl⟩ := hm.operand false (Text.spaced t c.token u)
  obtain ⟨k, hk, rfl⟩ := hn.operand false (Text.spaced t c.token u)
  rw [Comparator.compare_spaced ht.isOperand hu.isOperand, hj, hk, ← c.apply_eq_relates]
  rfl

theorem compare_of_bad (ht : t.IsComparable) (hu : u.IsComparable) (c : Comparator) {bad : Text}
    (h : scope.FirstBad t u bad) {e : Error}
    (he : scope.operand false (Text.spaced t c.token u) bad = .error e) :
    compare (Text.spaced t c.token u) scope = .error e := by
  rw [Comparator.compare_spaced ht.isOperand hu.isOperand]
  cases h with
  | left h =>
    rw [he]
    rfl
  | right hm h =>
    obtain ⟨j, hj, -⟩ := hm.operand false (Text.spaced t c.token u)
    rw [hj, he]
    rfl

theorem Scope.FirstBad.isIdentifier {bad : Text} (ht : t.IsComparable) (hu : u.IsComparable)
    (h : scope.FirstBad t u bad) : bad.IsIdentifier := by
  cases h with
  | left h => exact isIdentifier_of_bad ht h
  | right hm h => exact isIdentifier_of_bad hu h

theorem Scope.FirstBad.not_denotes {bad : Text} (h : scope.FirstBad t u bad) :
    ∀ m, ¬ scope.DenotesInteger bad m := by
  cases h with
  | left h => exact h
  | right hm h => exact h

theorem Scope.denotes_or_firstBad (scope : Scope) (t u : Text) :
    (∃ m n, scope.DenotesInteger t m ∧ scope.DenotesInteger u n) ∨
      ∃ bad, scope.FirstBad t u bad := by
  by_cases ht : ∃ m, scope.DenotesInteger t m
  · obtain ⟨m, hm⟩ := ht
    by_cases hu : ∃ n, scope.DenotesInteger u n
    · obtain ⟨n, hn⟩ := hu
      exact .inl ⟨m, n, hm, hn⟩
    · exact .inr ⟨u, .right hm (not_exists.1 hu)⟩
  · exact .inr ⟨t, .left (not_exists.1 ht)⟩

def Scope.Affirms (scope : Scope) (t : Text) (c : Comparator) (u : Text) : Prop :=
  (evaluateAttribute (Text.spaced t c.token u) scope).1 =
    .ok ⟨[], .boolean, .scalar (.boolean true)⟩

theorem evaluateAttribute_of_denotes (ht : t.IsComparable) (hu : u.IsComparable) (c : Comparator)
    {m n : Int} (hm : scope.DenotesInteger t m) (hn : scope.DenotesInteger u n) :
    evaluateAttribute (Text.spaced t c.token u) scope =
      (.ok ⟨[], .boolean, .scalar (.boolean (decide (c.Relates m n)))⟩, scope) := by
  rw [Comparator.evaluateAttribute_spaced ht.isOperand hu.isOperand,
    compare_of_denotes ht hu c hm hn]
  rfl

theorem affirms_iff (ht : t.IsComparable) (hu : u.IsComparable) (c : Comparator) {m n : Int}
    (hm : scope.DenotesInteger t m) (hn : scope.DenotesInteger u n) :
    scope.Affirms t c u ↔ c.Relates m n := by
  simp [Scope.Affirms, evaluateAttribute_of_denotes ht hu c hm hn]

/-- Of two operands that stand for integers, a comparison tells the truth. Of any others it tells
the first that does not, and whether that is unbound. -/
theorem evaluateAttribute_comparison (ht : t.IsComparable) (hu : u.IsComparable) (scope : Scope) :
    (∀ (c : Comparator) (m n : Int), scope.DenotesInteger t m → scope.DenotesInteger u n →
      evaluateAttribute (Text.spaced t c.token u) scope =
        (.ok ⟨[], .boolean, .scalar (.boolean (decide (c.Relates m n)))⟩, scope)) ∧
    ((∃ m n, scope.DenotesInteger t m ∧ scope.DenotesInteger u n) ∨
      ∃ bad, scope.FirstBad t u bad) ∧
    (∀ (c : Comparator) (bad : Text), scope.FirstBad t u bad →
      (scope.find? bad = none → evaluateAttribute (Text.spaced t c.token u) scope =
        (.error (.unknownReference bad (Text.spaced t c.token u)), scope)) ∧
      ∀ a, scope.find? bad = some a → evaluateAttribute (Text.spaced t c.token u) scope =
        (.error (.notInteger bad (Text.spaced t c.token u)), scope)) ∧
    ∀ m n, scope.DenotesInteger t m → scope.DenotesInteger u n →
      (∃! c, c ∈ [Comparator.lt, .eq, .gt] ∧ scope.Affirms t c u) ∧
      ∀ c : Comparator, scope.Affirms t c.negation u ↔ ¬ scope.Affirms t c u := by
  have hfails : ∀ (c : Comparator) (bad : Text) (e : Error), scope.FirstBad t u bad →
      scope.operand false (Text.spaced t c.token u) bad = .error e →
      evaluateAttribute (Text.spaced t c.token u) scope = (.error e, scope) := by
    intro c bad e hbad he
    rw [Comparator.evaluateAttribute_spaced ht.isOperand hu.isOperand,
      compare_of_bad ht hu c hbad he]
    rfl
  refine ⟨fun c m n hm hn => evaluateAttribute_of_denotes ht hu c hm hn,
    scope.denotes_or_firstBad t u, fun c bad hbad => ⟨fun hfree => ?_, fun a ha => ?_⟩,
    fun m n hm hn => ⟨?_, fun c => ?_⟩⟩
  · exact hfails c bad _ hbad (Scope.operand_of_unbound (hbad.isIdentifier ht hu) hfree _ _)
  · exact hfails c bad _ hbad
      (Scope.operand_of_bound (hbad.isIdentifier ht hu) ha hbad.not_denotes _)
  · simp only [affirms_iff ht hu _ hm hn]
    exact Comparator.existsUnique_relates m n
  · rw [affirms_iff ht hu _ hm hn, affirms_iff ht hu _ hm hn, c.relates_negation]

theorem evaluateAttribute_comparison_least :
    (evaluateAttribute "-9223372036854775808 <= a-b"
      [("a-b", ⟨"a-b", .number, .scalar (.integer 7)⟩)]).1 =
        Except.ok ⟨[], .boolean, .scalar (.boolean true)⟩ ∧
    evaluateAttribute "-9223372036854775808 <= b" [] =
      (Except.error (.unknownReference "b" "-9223372036854775808 <= b"), []) := by
  have hleast : Text.WritesInt64 "-9223372036854775808" (-9223372036854775808) :=
    ⟨by decide, by decide, by decide⟩
  have hname : Text.IsIdentifier "a-b" := ⟨by decide, by decide, by decide, by decide⟩
  have hbound : Scope.find? [("a-b", ⟨"a-b", .number, .scalar (.integer 7)⟩)] "a-b" =
      some ⟨"a-b", .number, .scalar (.integer 7)⟩ := rfl
  have hfree : Text.IsIdentifier "b" := ⟨by decide, by decide, by decide, by decide⟩
  constructor
  · exact congrArg Prod.fst ((evaluateAttribute_comparison (.literal _ hleast) (.name hname) _).1
      .le _ _ (.literal hleast) (.name hname hbound rfl))
  · refine ((evaluateAttribute_comparison (.literal _ hleast) (.name hfree) _).2.2.1 .le "b"
      (.right (.literal hleast) ?_)).1 rfl
    intro n hn
    cases hn with
    | literal h => exact hfree.not_writesInt64 n h
    | name h ha hvalue => cases ha

end Compare

end BlockConfig
