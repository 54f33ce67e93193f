import BlockConfig.Literal
import BlockConfig.Proofs.Number.Rounding
import Mathlib.Data.List.TakeWhile

set_option autoImplicit false

/-!
The shortest numeral of a positive number denotes that number, and so does its text. Every text
that is read as a number is written with letters, digits, points, commas and signs.
-/

namespace BlockConfig

namespace Magnitude

variable {f : Format} {m : Magnitude f}

theorem val_exact : m.exact.val = m.val := by
  unfold exact Decimal.val val
  obtain ⟨n, hn | hn⟩ := m.exponent.eq_nat_or_neg
  · have hneg : (-(n : Int)).toNat = 0 := by omega
    simp [hn, hneg]
  · have hpos : (-(n : Int)).toNat = 0 := by omega
    have hmin : min (-(n : Int)) 0 = -(n : Int) := by omega
    have hten : (10 : ℚ) ^ n = 2 ^ n * 5 ^ n := by
      rw [← mul_pow]
      norm_num
    simp only [hn, hpos, hmin, neg_neg, Int.toNat_natCast, Nat.pow_eq, pow_zero, mul_one, zpow_neg,
      zpow_natCast, hten]
    push_cast
    field_simp

theorem numeral?_holds {tie : TieRule} {count : Nat} {d : Decimal}
    (h : m.numeral? tie count = some d) : m.holds d = true := by
  unfold numeral? at h
  simp only at h
  split at h
  · simp at h
  · rename_i hbelow _
    rw [← Option.some.inj h]
    exact hbelow
  · rename_i habove
    rw [← Option.some.inj h]
    exact habove
  · rename_i hbelow habove
    split at h
    · rw [← Option.some.inj h]
      exact hbelow
    · split at h
      · rw [← Option.some.inj h]
        exact habove
      · split at h
        · rw [← Option.some.inj h]
          exact habove
        · split at h
          · rw [← Option.some.inj h]
            exact hbelow
          · rw [← Option.some.inj h]
            exact habove

theorem covers_shortest (hs : 0 < m.significand) (tie : TieRule) :
    m.Covers (m.shortest tie).val := by
  unfold shortest
  cases hfound : (List.range 17).findSome? fun i => m.numeral? tie (i + 1) with
  | none =>
    rw [Option.getD_none, val_exact]
    exact covers_val
  | some d =>
    obtain ⟨i, -, hi⟩ := List.exists_of_findSome?_eq_some hfound
    exact (holds_iff hs d).1 (numeral?_holds hi)

theorem high_le_single (m : Magnitude .single) : m.high ≤ 2 ^ (128 : Int) := by
  obtain ⟨hbound, -, hgreatest, -⟩ := m.fits
  have hs : (m.significand : ℚ) + 1 ≤ 2 ^ (24 : Int) := by exact_mod_cast hbound
  have he : (2 : ℚ) ^ m.exponent ≤ 2 ^ (104 : Int) := zpow_le_zpow_right₀ one_le_two hgreatest
  have hpos := two_zpow_pos m.exponent
  calc m.high ≤ 2 ^ (24 : Int) * 2 ^ m.exponent := by
        unfold high
        exact mul_le_mul_of_nonneg_right (by linarith) hpos.le
    _ ≤ 2 ^ (24 : Int) * 2 ^ (104 : Int) := by gcongr
    _ = 2 ^ (128 : Int) := by rw [← zpow_add₀ two_ne_zero]; norm_num

theorem le_low_single {m : Magnitude .single} (hs : 0 < m.significand) :
    (2 : ℚ) ^ (-150 : Int) ≤ m.low := by
  obtain ⟨-, hleast, -, -⟩ := m.fits
  have hsq : (1 : ℚ) ≤ m.significand := by exact_mod_cast hs
  have he : (2 : ℚ) ^ (-149 : Int) ≤ 2 ^ m.exponent := zpow_le_zpow_right₀ one_le_two hleast
  have hpos := two_zpow_pos m.exponent
  calc (2 : ℚ) ^ (-150 : Int) = 1 / 2 * 2 ^ (-149 : Int) := by
        rw [show (-150 : Int) = -1 + -149 by norm_num, zpow_add₀ two_ne_zero]
        norm_num
    _ ≤ 1 / 2 * 2 ^ m.exponent := by gcongr
    _ ≤ (m.significand - 1 / 2) * 2 ^ m.exponent :=
        mul_le_mul_of_nonneg_right (by linarith) hpos.le
    _ ≤ m.low := half_low_le

end Magnitude

namespace Decimal

theorem val_lt_top (d : Decimal) : d.val < 10 ^ d.top := by
  have hlt : d.digits < 10 ^ (Nat.toDigits 10 d.digits).length :=
    (Nat.length_toDigits_le_iff (by decide) Nat.length_toDigits_pos).1 (Nat.le_refl _)
  have hltq : (d.digits : ℚ) < 10 ^ (Nat.toDigits 10 d.digits).length := by exact_mod_cast hlt
  rw [val, top, zpow_add₀ (by norm_num), zpow_natCast]
  exact mul_lt_mul_of_pos_right hltq (by positivity)

theorem top_le_val {d : Decimal} (h : 0 < d.digits) : (10 : ℚ) ^ (d.top - 1) ≤ d.val := by
  have hlength := Nat.length_toDigits_pos (b := 10) (n := d.digits)
  have hle : 10 ^ ((Nat.toDigits 10 d.digits).length - 1) ≤ d.digits := by
    by_contra hlt
    rcases Nat.eq_zero_or_pos ((Nat.toDigits 10 d.digits).length - 1) with hz | hpos
    · rw [hz] at hlt
      omega
    · have hcount := (Nat.length_toDigits_le_iff (by decide) hpos).2 (Nat.lt_of_not_le hlt)
      omega
  have hleq : (10 : ℚ) ^ ((Nat.toDigits 10 d.digits).length - 1) ≤ d.digits := by
    exact_mod_cast hle
  have hexp : d.top - 1 = ((Nat.toDigits 10 d.digits).length - 1 : Nat) + d.exponent := by
    rw [top]
    omega
  rw [val, hexp, zpow_add₀ (by norm_num), zpow_natCast]
  exact mul_le_mul_of_nonneg_right hleq (by positivity)

end Decimal

theorem ofDecimal_eq_ofRatio (g : Format) {m : Magnitude .single} (hs : 0 < m.significand)
    {d : Decimal} (h : m.Covers d.val) (negative : Bool) :
    Binary.ofDecimal g negative d = Binary.ofRatio g negative d.ratio := by
  have hlow := (Magnitude.le_low_single hs).trans h.1
  have hhigh := h.2.1.trans (Magnitude.high_le_single m)
  have hdigits : 0 < d.digits := by
    by_contra hz
    rw [Decimal.val, Nat.eq_zero_of_not_pos hz] at hlow
    have hpos := two_zpow_pos (-150)
    simp only [Nat.cast_zero, zero_mul] at hlow
    linarith
  have hsmall : ¬ d.top < -Binary.decimalReach := by
    intro hlt
    have htop : (10 : ℚ) ^ d.top ≤ 10 ^ (-150 : Int) :=
      zpow_le_zpow_right₀ (by norm_num) (by unfold Binary.decimalReach at hlt; omega)
    have hgap : (10 : ℚ) ^ (-150 : Int) < 2 ^ (-150 : Int) := by norm_num
    have hval := d.val_lt_top
    linarith
  have hlarge : ¬ Binary.decimalReach < d.top := by
    intro hlt
    have htop : (10 : ℚ) ^ (128 : Int) ≤ 10 ^ (d.top - 1) :=
      zpow_le_zpow_right₀ (by norm_num) (by unfold Binary.decimalReach at hlt; omega)
    have hgap : (2 : ℚ) ^ (128 : Int) < 10 ^ (128 : Int) := by norm_num
    have hval := Decimal.top_le_val hdigits
    linarith
  rw [Binary.ofDecimal, if_neg (by omega), if_neg hlarge]

/-- A numeral denotes the number that covers it. -/
theorem ofDecimal_of_covers {m : Magnitude .single} (hs : 0 < m.significand) {d : Decimal}
    (h : m.Covers d.val) (negative : Bool) :
    Binary.ofDecimal .single negative d = .finite negative m := by
  have hround : Magnitude.round? .single d.ratio = some m :=
    Magnitude.round?_of_covers (by decide) hs d.den_ratio_pos (by rwa [d.val_ratio])
  rw [ofDecimal_eq_ofRatio .single hs h, Binary.ofRatio, hround]

structure IsPointed (t : Text) (d : Decimal) : Prop where
  split : ∃ whole fraction : Text, t = whole ++ '.' :: fraction ∧ whole ≠ [] ∧
    (∀ c ∈ whole, c.isDigit = true) ∧ (∀ c ∈ fraction, c.isDigit = true) ∧
    d = ⟨Nat.ofDigitChars 10 (whole ++ fraction) 0, -fraction.length⟩

theorem IsPointed.read? {t : Text} {d : Decimal} (h : IsPointed t d) :
    Decimal.read? t = some d := by
  obtain ⟨whole, fraction, rfl, hne, hwhole, hfraction, rfl⟩ := h.split
  have htake : (whole ++ '.' :: fraction).takeWhile Char.isDigit = whole := by
    rw [List.takeWhile_append_of_pos hwhole]
    simp
  have hdrop : (whole ++ '.' :: fraction).dropWhile Char.isDigit = '.' :: fraction := by
    rw [List.dropWhile_append_of_pos hwhole]
    simp
  have htake' : fraction.takeWhile Char.isDigit = fraction :=
    List.takeWhile_eq_self_iff.2 hfraction
  have hdrop' : fraction.dropWhile Char.isDigit = [] := List.dropWhile_eq_nil_iff.2 hfraction
  unfold Decimal.read?
  simp [htake, hdrop, htake', hdrop', Decimal.readExponent?, hne]

def Decimal.pointed (d : Decimal) : Text :=
  if '.' ∈ d.positional then d.positional else d.positional ++ ['.', '0']

theorem isDigit_of_mem_ofNat {n : Nat} {c : Char} (h : c ∈ Text.ofNat n) : c.isDigit = true :=
  Nat.isDigit_of_mem_toDigits (by decide) (by decide) h

theorem pointed_of_nonneg {d : Decimal} {n : Nat} (he : d.exponent = n) :
    d.pointed = (Text.ofNat d.digits ++ List.replicate n '0') ++ '.' :: ['0'] := by
  have hpositional : d.positional = Text.ofNat d.digits ++ List.replicate n '0' := by
    simp [Decimal.positional, he]
  have hpoint : '.' ∉ Text.ofNat d.digits ++ List.replicate n '0' := by
    intro hc
    rcases List.mem_append.1 hc with hc | hc
    · exact absurd (isDigit_of_mem_ofNat hc) (by decide)
    · exact absurd (List.eq_of_mem_replicate hc) (by decide)
  rw [Decimal.pointed, hpositional, if_neg hpoint]

/-- The digits of a numeral with zeros before them, so that more than `places` are there. -/
def Decimal.padded (d : Decimal) (places : Nat) : Text :=
  List.replicate (places + 1 - (Text.ofNat d.digits).length) '0' ++ Text.ofNat d.digits

theorem pointed_of_neg {d : Decimal} {n : Nat} (he : d.exponent = -((n : Int) + 1)) :
    d.pointed = (d.padded (n + 1)).take ((d.padded (n + 1)).length - (n + 1)) ++
      '.' :: (d.padded (n + 1)).drop ((d.padded (n + 1)).length - (n + 1)) := by
  have hneg : ¬ 0 ≤ d.exponent := by omega
  have hplaces : (-d.exponent).toNat = n + 1 := by omega
  rw [Decimal.pointed, Decimal.positional, if_neg hneg, hplaces]
  exact if_pos (by simp)

theorem isDigit_of_mem_padded {d : Decimal} {places : Nat} {c : Char} (h : c ∈ d.padded places) :
    c.isDigit = true := by
  rcases List.mem_append.1 h with hc | hc
  · rw [List.eq_of_mem_replicate hc]
    decide
  · exact isDigit_of_mem_ofNat hc

theorem ofDigitChars_padded (d : Decimal) (places : Nat) :
    Nat.ofDigitChars 10 (d.padded places) 0 = d.digits := by
  rw [Decimal.padded, Nat.ofDigitChars_append, Nat.ofDigitChars_replicate_zero, Nat.mul_zero]
  exact Nat.ofDigitChars_ten_toDigits

theorem lt_length_padded (d : Decimal) (places : Nat) : places < (d.padded places).length := by
  simp only [Decimal.padded, List.length_append, List.length_replicate]
  omega

theorem exists_isPointed (d : Decimal) : ∃ d', IsPointed d.pointed d' ∧ d'.val = d.val := by
  by_cases hsign : 0 ≤ d.exponent
  · obtain ⟨n, he⟩ := Int.eq_ofNat_of_zero_le hsign
    have hdigits : ∀ c ∈ Text.ofNat d.digits ++ List.replicate n '0', c.isDigit = true := by
      intro c hc
      rcases List.mem_append.1 hc with hc | hc
      · exact isDigit_of_mem_ofNat hc
      · rw [List.eq_of_mem_replicate hc]
        decide
    have hne : Text.ofNat d.digits ++ List.replicate n '0' ≠ [] := by simp [Text.ofNat]
    refine ⟨_, ⟨_, ['0'], pointed_of_nonneg he, hne, hdigits, by simp, rfl⟩, ?_⟩
    have hread : Nat.ofDigitChars 10 (Text.ofNat d.digits ++ List.replicate n '0' ++ ['0']) 0 =
        10 * (10 ^ n * d.digits) := by
      rw [Nat.ofDigitChars_append, Nat.ofDigitChars_append, Text.ofNat,
        Nat.ofDigitChars_ten_toDigits, Nat.ofDigitChars_replicate_zero]
      rfl
    rw [Decimal.val, Decimal.val, hread, he]
    push_cast
    rw [zpow_natCast]
    simp
    ring
  · obtain ⟨n, he⟩ : ∃ n : Nat, d.exponent = -((n : Int) + 1) := ⟨(-d.exponent - 1).toNat, by omega⟩
    have hlt := lt_length_padded d (n + 1)
    have hread := ofDigitChars_padded d (n + 1)
    refine ⟨_, ⟨_, _, pointed_of_neg he, ?_, ?_, ?_, rfl⟩, ?_⟩
    · intro hnil
      have hlen := congrArg List.length hnil
      simp only [List.length_take, List.length_nil] at hlen
      omega
    · exact fun c hc => isDigit_of_mem_padded (List.mem_of_mem_take hc)
    · exact fun c hc => isDigit_of_mem_padded (List.mem_of_mem_drop hc)
    · have hcount : (d.padded (n + 1)).length - ((d.padded (n + 1)).length - (n + 1)) = n + 1 := by
        omega
      rw [List.take_append_drop, hread, Decimal.val, Decimal.val, he, List.length_drop, hcount]
      push_cast
      rfl

theorem pointed_text (m : Magnitude .single) :
    ∃ d : Decimal, (Scalar.float (.finite false m)).source = d.pointed ∧
      if m.significand = 0 then d.digits = 0 else m.Covers d.val := by
  unfold Scalar.source Binary.text Decimal.pointed
  by_cases hs : m.significand = 0
  · refine ⟨⟨0, 0⟩, ?_, ?_⟩
    · simp only [hs, if_true]
      decide
    · rw [if_pos hs]
  · refine ⟨m.shortest .up, by simp [hs], ?_⟩
    rw [if_neg hs]
    exact Magnitude.covers_shortest (Nat.pos_of_ne_zero hs) .up

theorem ofDecimal_zero {m : Magnitude .single} (hs : m.significand = 0) {d : Decimal}
    (hd : d.digits = 0) : Binary.ofDecimal .single false d = .finite false m := by
  obtain ⟨s, e, hfits⟩ := m
  simp only at hs
  subst hs
  have he : e = Format.single.least := hfits.2.2.2.resolve_right (by decide)
  subst he
  rw [Binary.ofDecimal, if_pos (.inl hd)]
  rfl

theorem replaceFirst_of_not_mem {old new : Char} {t : Text} (h : old ∉ t) :
    t.replaceFirst old new = t := by
  induction t with
  | nil => rfl
  | cons c rest ih =>
    simp only [List.mem_cons, not_or] at h
    have hc : ¬ c = old := fun he => h.1 he.symm
    rw [Text.replaceFirst, if_neg hc, ih h.2]

theorem IsPointed.readSingle? {t : Text} {d : Decimal} (h : IsPointed t d) :
    readSingle? t = some (Binary.ofDecimal .single false d) := by
  have hread := h.read?
  obtain ⟨whole, fraction, rfl, hne, hwhole, hfraction, -⟩ := h.split
  have hcomma : ',' ∉ whole ++ '.' :: fraction := by
    intro hc
    rcases List.mem_append.1 hc with hc | hc
    · exact absurd (hwhole _ hc) (by decide)
    · rcases List.mem_cons.1 hc with hc | hc
      · exact absurd hc (by decide)
      · exact absurd (hfraction _ hc) (by decide)
  have hsign : Text.takeSign (whole ++ '.' :: fraction) = (false, whole ++ '.' :: fraction) := by
    cases whole with
    | nil => exact absurd rfl hne
    | cons c rest =>
      have hc := hwhole c (by simp)
      unfold Text.takeSign
      split
      · rename_i heq
        rw [List.cons_append, List.cons.injEq] at heq
        rw [heq.1] at hc
        exact absurd hc (by decide)
      · rename_i heq
        rw [List.cons_append, List.cons.injEq] at heq
        rw [heq.1] at hc
        exact absurd hc (by decide)
      · rfl
  have hmem : '.' ∈ (whole ++ '.' :: fraction).map Char.toLower :=
    List.mem_map.2 ⟨'.', by simp, by decide⟩
  have hname : ∀ name : Text, '.' ∉ name → (whole ++ '.' :: fraction).map Char.toLower ≠ name := by
    intro name hn he
    exact hn (he ▸ hmem)
  rw [BlockConfig.readSingle?, replaceFirst_of_not_mem hcomma, Binary.read?, hsign]
  simp only
  rw [if_neg (by
      rintro (he | he)
      · exact hname _ (by decide) he
      · exact hname _ (by decide) he), if_neg (hname _ (by decide)), hread]
  rfl

/-- The source text of a finite float without a sign is digits around a point, and is read as that
float. -/
theorem source_float (m : Magnitude .single) :
    ∃ d, IsPointed (Scalar.float (.finite false m)).source d ∧
      readSingle? (Scalar.float (.finite false m)).source = some (.finite false m) := by
  obtain ⟨d, hsource, hd⟩ := pointed_text m
  obtain ⟨d', hpointed, hval⟩ := exists_isPointed d
  rw [hsource]
  refine ⟨d', hpointed, ?_⟩
  rw [hpointed.readSingle?]
  by_cases hs : m.significand = 0
  · rw [if_pos hs] at hd
    have hdigits : d'.digits = 0 := by
      have hzero : d'.val = 0 := by rw [hval, Decimal.val, hd]; simp
      rw [Decimal.val, mul_eq_zero] at hzero
      have hten : (10 : ℚ) ^ d'.exponent ≠ 0 := (zpow_pos (by norm_num) _).ne'
      exact_mod_cast hzero.resolve_right hten
    rw [ofDecimal_zero hs hdigits]
  · rw [if_neg hs, ← hval] at hd
    rw [ofDecimal_of_covers (Nat.pos_of_ne_zero hs) hd]

def isNumberChar (c : Char) : Bool := c.isAlphanum || ['.', ',', '+', '-'].contains c

section NumberChars

theorem all_of_takeSign {p : Char → Bool} (hsigns : p '-' = true ∧ p '+' = true) {t : Text}
    (h : t.takeSign.2.all p = true) : t.all p = true := by
  unfold Text.takeSign at h
  split at h
  · rw [List.all_cons, hsigns.1, h]
    rfl
  · rw [List.all_cons, hsigns.2, h]
    rfl
  · exact h

theorem isNumberChar_of_isDigit {t : Text} (h : t.all Char.isDigit = true) :
    t.all isNumberChar = true :=
  List.all_eq_true.2 fun c hc => by
    simp [isNumberChar, Char.isAlphanum, List.all_eq_true.1 h c hc]

theorem isDigits_of_toInt? {t : Text} (h : t.toInt?.isSome = true) :
    t.takeSign.2.isDigits = true := by
  unfold Text.toInt? Text.toNat? at h
  simp only [Option.isSome_map] at h
  split at h
  · assumption
  · cases h

theorem isNumberChar_of_toInt? {t : Text} (h : t.toInt?.isSome = true) :
    t.all isNumberChar = true :=
  all_of_takeSign (by decide) (isNumberChar_of_isDigit (Text.all_isDigit (isDigits_of_toInt? h)))

theorem isNumberChar_of_readExponent? {t : Text} (h : (Decimal.readExponent? t).isSome = true) :
    t.all isNumberChar = true := by
  cases t with
  | nil => rfl
  | cons c rest =>
    rw [Decimal.readExponent?] at h
    split at h
    · rename_i hletter
      rw [List.all_cons, isNumberChar_of_toInt? h]
      rcases hletter with rfl | rfl <;> rfl
    · cases h

theorem isNumberChar_of_decimal {t : Text} (h : (Decimal.read? t).isSome = true) :
    t.all isNumberChar = true := by
  have hsplit : t.takeWhile Char.isDigit ++ t.dropWhile Char.isDigit = t :=
    List.takeWhile_append_dropWhile
  have hwhole : (t.takeWhile Char.isDigit).all isNumberChar = true :=
    isNumberChar_of_isDigit List.all_takeWhile
  rw [← hsplit, List.all_append, hwhole, Bool.true_and]
  unfold Decimal.read? at h
  simp only at h
  split at h
  · rename_i after hpoint
    have hafter : after.takeWhile Char.isDigit ++ after.dropWhile Char.isDigit = after :=
      List.takeWhile_append_dropWhile
    have hfraction : (after.takeWhile Char.isDigit).all isNumberChar = true :=
      isNumberChar_of_isDigit List.all_takeWhile
    have hpower : (Decimal.readExponent? (after.dropWhile Char.isDigit)).isSome = true := by
      split at h
      · cases h
      · simpa using h
    rw [hpoint, List.all_cons, ← hafter, List.all_append, hfraction,
      isNumberChar_of_readExponent? hpower]
    rfl
  · refine isNumberChar_of_readExponent? ?_
    split at h
    · cases h
    · simpa using h

theorem isAlphanum_of_toLower {c : Char} (h : c.toLower.isAlphanum = true) :
    c.isAlphanum = true := by
  unfold Char.toLower at h
  split at h
  · rename_i hupper
    unfold Char.isAlphanum Char.isAlpha Char.isUpper
    rw [decide_eq_true hupper]
    rfl
  · exact h

theorem isNumberChar_of_name {t name : Text} (h : t.map Char.toLower = name)
    (hname : name.all Char.isAlphanum = true) : t.all isNumberChar = true := by
  subst h
  refine List.all_eq_true.2 fun c hc => ?_
  have hlower := List.all_eq_true.1 hname c.toLower (List.mem_map_of_mem hc)
  simp [isNumberChar, isAlphanum_of_toLower hlower]

theorem isNumberChar_of_binary {f : Format} {t : Text} (h : (Binary.read? f t).isSome = true) :
    t.all isNumberChar = true := by
  refine all_of_takeSign (by decide) ?_
  unfold Binary.read? at h
  simp only at h
  split at h
  · rename_i hname
    rcases hname with hname | hname
    · exact isNumberChar_of_name hname (by decide)
    · exact isNumberChar_of_name hname (by decide)
  · split at h
    · rename_i hname
      exact isNumberChar_of_name hname (by decide)
    · rw [Option.isSome_map] at h
      exact isNumberChar_of_decimal h

theorem isNumberChar_of_replaceFirst {t : Text}
    (h : (t.replaceFirst ',' '.').all isNumberChar = true) : t.all isNumberChar = true := by
  induction t with
  | nil => rfl
  | cons c rest ih =>
    rw [Text.replaceFirst] at h
    split at h
    · rename_i hc
      rw [List.all_cons, Bool.and_eq_true] at h
      rw [hc, List.all_cons, h.2]
      rfl
    · rw [List.all_cons, Bool.and_eq_true] at h
      rw [List.all_cons, h.1, ih h.2]
      rfl

theorem isNumberChar_of_readNumber {t : Text} {s : Scalar} (h : readNumber t = .ok s) :
    t.all isNumberChar = true := by
  cases hx : readSingle? t with
  | some x =>
    have hread : (readSingle? t).isSome = true := by rw [hx]; rfl
    exact isNumberChar_of_replaceFirst (isNumberChar_of_binary hread)
  | none =>
    rw [readNumber, hx] at h
    cases hn : t.toInt? with
    | some n => exact isNumberChar_of_toInt? (by rw [hn]; rfl)
    | none => simp [Text.toInt64?, hn] at h

end NumberChars

end BlockConfig
