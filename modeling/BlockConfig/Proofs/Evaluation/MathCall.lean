import BlockConfig.Proofs.Evaluation.DoublePrecision
import BlockConfig.Proofs.Evaluation.TextCall

set_option autoImplicit false

namespace BlockConfig

namespace Text

def isArgumentChar (c : Char) : Bool := isIdentifierChar c || c == '+'

theorem IsComparable.all_chars {t : Text} (h : t.IsComparable) : t.all isArgumentChar = true := by
  cases h with
  | literal n h =>
    have hdigits := isDigits_of_toInt? (t := t) (by rw [h.1]; rfl)
    refine all_of_takeSign (by decide) (List.all_eq_true.2 fun c hc => ?_)
    have hdigit := List.all_eq_true.1 (all_isDigit hdigits) c hc
    simp [isArgumentChar, isIdentifierChar, Char.isAlphanum, hdigit]
  | name h =>
    refine List.all_eq_true.2 fun c hc => ?_
    simp [isArgumentChar, List.all_eq_true.1 h.all_chars c hc]

theorem IsComparable.isClosed {t : Text} (h : t.IsComparable) : t.IsClosed :=
  isClosed_of_flat (List.all_eq_true.2 fun c hc =>
    isFlat_of (by decide) (List.all_eq_true.1 h.all_chars c hc))

end Text

def argumentPair (t u : Text) : Text := t ++ ", ".toList ++ u

theorem argumentPair_eq (t u : Text) : argumentPair t u = argumentList [t, u] := by
  simp [argumentPair, argumentList_cons, argumentList_singleton]

theorem areArguments_of_isComparable {arguments : List Text} (hne : arguments ≠ [])
    (h : ∀ t ∈ arguments, t.IsComparable) : AreArguments arguments := by
  have hnil : ∀ t ∈ arguments, t ≠ [] := fun t ht => (h t ht).isOperand.ne_nil
  have hsolid : ∀ t ∈ arguments, ∀ c ∈ t, isBlank c = false := fun t ht => (h t ht).isOperand.solid
  exact ⟨hne, fun t ht => (h t ht).isClosed, fun t ht => Text.trim_of_solid (hsolid t ht),
    fun t ht hline => absurd (hsolid t ht _ hline) (by decide),
    fun t ht => hnil t (List.mem_of_head? ht), fun t ht => hnil t (List.mem_of_getLast? ht)⟩

namespace MathFunction

def written (f : MathFunction) (t u : Text) : Text := f.name ++ '(' :: (argumentPair t u ++ [')'])

end MathFunction

namespace Scope

/-- The integer that an argument stands for: that of the attribute it names, or else the one it
writes. -/
inductive GivesInteger (scope : Scope) (t : Text) : Int → Prop
  | bound {a : Attribute} {k : Int64} (h : t.IsComparable) (ha : scope.find? t = some a)
      (hvalue : a.value = .scalar (.integer k)) : GivesInteger scope t k.toInt
  | literal {n : Int} (h : t.WritesInt64 n) (hfree : scope.find? t = none) : GivesInteger scope t n

variable {scope : Scope} {t : Text} {n : Int}

theorem GivesInteger.isComparable (h : scope.GivesInteger t n) : t.IsComparable := by
  cases h with
  | bound h => exact h
  | literal h => exact .literal n h

theorem GivesInteger.argument (h : scope.GivesInteger t n) :
    ∃ k : Int64, k.toInt = n ∧ ∀ call : Call, call.integerArgument scope t = .ok k := by
  cases h with
  | bound h ha hvalue =>
    rename_i a k
    exact ⟨k, rfl, fun call => by simp [Call.integerArgument, ha, hvalue]⟩
  | literal h hfree =>
    obtain ⟨k, hk, hn⟩ := h.exists_toInt64?
    exact ⟨k, hn, fun call => by simp [Call.integerArgument, hfree, hk]⟩

end Scope

section Call

variable {scope : Scope} {t u : Text} {m n : Int} (ht : scope.GivesInteger t m)
  (hu : scope.GivesInteger u n)

include ht hu

theorem exists_callOnIntegers_written : ∃ j k : Int64, j.toInt = m ∧ k.toInt = n ∧
    ∀ f : MathFunction, callOnIntegers (f.written t u) scope =
      match f.result? j k with
      | some result => .ok result
      | none => .error (.plain (.divisionByZero (f.written t u))) := by
  obtain ⟨j, hj, hleft⟩ := ht.argument
  obtain ⟨k, hk, hright⟩ := hu.argument
  have ht := ht.isComparable
  have hu := hu.isComparable
  refine ⟨j, k, hj, hk, fun f => ?_⟩
  have hname : f.name.IsFunctionName := by cases f <;> exact ⟨⟨_, rfl, rfl⟩, by decide⟩
  have harguments : AreArguments [t, u] :=
    areArguments_of_isComparable (List.cons_ne_nil _ _) (by simp [ht, hu])
  have hread : Call.read (f.written t u) = .ok ⟨f.name, argumentPair t u, f.written t u⟩ := by
    rw [MathFunction.written, argumentPair_eq]
    exact Call.read_list hname harguments
  have hpair : Call.pair ⟨f.name, argumentPair t u, f.written t u⟩ = .ok (t, u) := by
    rw [argumentPair_eq]
    exact Call.pair_list harguments _ _
  have hfunction : MathFunction.ofName? f.name = some f := by cases f <;> rfl
  rw [callOnIntegers, hread]
  simp only [bind, Except.bind, hfunction, hpair, hleft, hright]
  cases f.result? j k <;> rfl

theorem exists_remainder_written (hn : n ≠ 0) : ∃ k : Int64,
    callOnIntegers (MathFunction.remainder.written t u) scope = .ok k ∧
      k.toInt = m - n * m.tdiv n := by
  obtain ⟨j, k, rfl, rfl, hcall⟩ := exists_callOnIntegers_written ht hu
  have hk : k ≠ 0 := fun h => hn (by rw [h, Int64.toInt_zero])
  refine ⟨j % k, ?_, ?_⟩
  · rw [hcall, MathFunction.result?, if_neg hk]
  · rw [Int64.toInt_mod, Int.tmod_def]

theorem exists_floor_written (hn : n ≠ 0) : ∃ k : Int64,
    callOnIntegers (MathFunction.floor.written t u) scope = .ok k ∧
      (m.natAbs < 2 ^ 53 → k.toInt = ⌊(m : ℚ) / n⌋) ∧
      ∃ p d q : Magnitude .double, p.Covers m.natAbs ∧ d.Covers n.natAbs ∧
        q.Covers (p.val / d.val) ∧
        k.toInt = saturate (if m < 0 ↔ n < 0 then ⌊q.val⌋ else ⌊-q.val⌋) := by
  obtain ⟨j, k, rfl, rfl, hcall⟩ := exists_callOnIntegers_written ht hu
  have hk : k ≠ 0 := fun h => hn (by rw [h, Int64.toInt_zero])
  refine ⟨floorQuotient j k, ?_, toInt_floorQuotient hn, exists_floorQuotient hn⟩
  rw [hcall, MathFunction.result?, if_neg hk]

theorem exists_power_written : ∃ k : Int64,
    callOnIntegers (MathFunction.power.written t u) scope = .ok k ∧
      (0 ≤ n → -2 ^ 63 ≤ m ^ n.toNat → m ^ n.toNat < 2 ^ 63 →
        (k.toInt = m ^ n.toNat ↔ (FitsDouble (m ^ n.toNat) ∨ n = 1 ∧ m = 2 ^ 63 - 1) ∧
          ¬ (m = -1 ∧ n % 2 = 1 ∧ 2 ^ 53 < n))) := by
  obtain ⟨j, k, rfl, rfl, hcall⟩ := exists_callOnIntegers_written ht hu
  exact ⟨power j k, hcall .power, toInt_power_eq_iff⟩

theorem callOnIntegers_written_eq_error_iff {f : MathFunction} (hf : f ≠ .power) :
    callOnIntegers (f.written t u) scope =
      .error (.plain (.divisionByZero (f.written t u))) ↔ n = 0 := by
  obtain ⟨j, k, rfl, rfl, hcall⟩ := exists_callOnIntegers_written ht hu
  have hzero : k = 0 ↔ k.toInt = 0 := by rw [← Int64.toInt_inj, Int64.toInt_zero]
  rw [hcall, ← hzero]
  cases f with
  | power => exact absurd rfl hf
  | floor | remainder =>
    by_cases hk : k = 0 <;> simp [MathFunction.result?, hk]

end Call

/-- Of two arguments that stand for integers, remainders are those of the quotient cut toward zero.
A floored quotient is that of the numbers in double precision, and exact for a dividend of 53 binary
digits. A power that fits 64 bits is exact if and only if double precision has it, apart from the
greatest integer as a power of itself, which is exact, and from odd powers of -1 beyond 2 ^ 53, which
are not. Nothing but zero as a divisor is an error. -/
theorem callOnIntegers_written {scope : Scope} {t u : Text} {m n : Int}
    (ht : scope.GivesInteger t m) (hu : scope.GivesInteger u n) :
    (∀ f : MathFunction, f ≠ .power → (callOnIntegers (f.written t u) scope =
      .error (.plain (.divisionByZero (f.written t u))) ↔ n = 0)) ∧
    (n ≠ 0 → ∃ k : Int64,
      callOnIntegers (MathFunction.remainder.written t u) scope = .ok k ∧
        k.toInt = m - n * m.tdiv n) ∧
    (n ≠ 0 → ∃ k : Int64, callOnIntegers (MathFunction.floor.written t u) scope = .ok k ∧
      (m.natAbs < 2 ^ 53 → k.toInt = ⌊(m : ℚ) / n⌋) ∧
      ∃ p d q : Magnitude .double, p.Covers m.natAbs ∧ d.Covers n.natAbs ∧
        q.Covers (p.val / d.val) ∧
        k.toInt = saturate (if m < 0 ↔ n < 0 then ⌊q.val⌋ else ⌊-q.val⌋)) ∧
    ∃ k : Int64, callOnIntegers (MathFunction.power.written t u) scope = .ok k ∧
      (0 ≤ n → -2 ^ 63 ≤ m ^ n.toNat → m ^ n.toNat < 2 ^ 63 →
        (k.toInt = m ^ n.toNat ↔ (FitsDouble (m ^ n.toNat) ∨ n = 1 ∧ m = 2 ^ 63 - 1) ∧
          ¬ (m = -1 ∧ n % 2 = 1 ∧ 2 ^ 53 < n))) :=
  ⟨fun _ => callOnIntegers_written_eq_error_iff ht hu, exists_remainder_written ht hu,
    exists_floor_written ht hu, exists_power_written ht hu⟩

/-- Numbers of 53 binary digits, and two of 56 and of 54 of which double precision keeps 53. -/
theorem callOnIntegers_written_digits :
    let scope : Scope := [("base", ⟨"base", .number, .scalar (.integer 3)⟩)]
    callOnIntegers "floor(-7, base)" scope = .ok (-3) ∧
      callOnIntegers "remainder(-7, base)" scope = .ok (-1) ∧
      callOnIntegers "floor(-7, 0)" scope =
        .error (.plain (.divisionByZero "floor(-7, 0)")) ∧
      callOnIntegers "power(base, 33)" scope = .ok 5559060566555523 ∧
      callOnIntegers "power(base, 35)" scope ≠ .ok 50031545098999707 ∧
      callOnIntegers "floor(9007199254740993, 1)" scope = .ok 9007199254740992 := by
  intro scope
  have hbase : scope.GivesInteger "base" 3 :=
    .bound (k := 3) (.name ⟨by decide, by decide, by decide, by decide⟩) rfl rfl
  have hliteral : ∀ {t : Text} {n : Int}, t.WritesInt64 n → scope.find? t = none →
      scope.GivesInteger t n := .literal
  have hseven := hliteral (t := "-7") (n := -7) ⟨rfl, by decide, by decide⟩ rfl
  have hzero := hliteral (t := "0") (n := 0) ⟨rfl, by decide, by decide⟩ rfl
  have hsmall := hliteral (t := "33") (n := 33) ⟨rfl, by decide, by decide⟩ rfl
  have hlarge := hliteral (t := "35") (n := 35) ⟨rfl, by decide, by decide⟩ rfl
  obtain ⟨-, hremainder, hfloor, -⟩ := callOnIntegers_written hseven hbase
  obtain ⟨herror, -⟩ := callOnIntegers_written hseven hzero
  obtain ⟨-, -, -, hpower⟩ := callOnIntegers_written hbase hsmall
  obtain ⟨-, -, -, hpower'⟩ := callOnIntegers_written hbase hlarge
  refine ⟨?_, ?_, (herror .floor (by decide)).2 rfl, ?_, ?_, rfl⟩
  · obtain ⟨k, hk, hexact, -⟩ := hfloor (by decide)
    have hvalue : k = -3 := by
      rw [← Int64.toInt_inj, hexact (by decide)]
      norm_num [Int.floor_eq_iff]
      rfl
    exact hvalue ▸ hk
  · obtain ⟨k, hk, hexact⟩ := hremainder (by decide)
    have hvalue : k = -1 := Int64.toInt_inj.1 hexact
    exact hvalue ▸ hk
  · obtain ⟨k, hk, hexact⟩ := hpower
    have hfits : FitsDouble (3 ^ 33) := ⟨3 ^ 33, 0, by decide, by decide⟩
    have hvalue : k = 5559060566555523 := Int64.toInt_inj.1
      ((hexact (by decide) (by decide) (by decide)).2 ⟨.inl hfits, by decide⟩)
    exact hvalue ▸ hk
  · obtain ⟨k, hk, hexact⟩ := hpower'
    have hnot : ¬ FitsDouble ((3 ^ 35 : Nat) : Int) := by
      rw [fitsDouble_iff_unit_dvd]
      decide
    intro heq
    obtain rfl : k = 50031545098999707 := Except.ok.inj (hk.symm.trans heq)
    obtain ⟨hfits | hone, -⟩ := (hexact (by decide) (by decide) (by decide)).1 rfl
    · exact hnot hfits
    · exact absurd hone (by decide)

end BlockConfig
