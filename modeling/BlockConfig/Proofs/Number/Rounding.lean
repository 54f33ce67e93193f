import BlockConfig.Number.Decimal
import BlockConfig.Proofs.Number.Ratio

set_option autoImplicit false

/-!
Every number of a format is the rounding of the fractions around it: of those between its two ends,
and of the ends as well where its significand is even.
-/

namespace BlockConfig

theorem two_zpow_pos (n : Int) : (0 : ℚ) < 2 ^ n := zpow_pos two_pos n

theorem two_zpow_add_nat (n : Int) (k : Nat) : (2 : ℚ) ^ (n + k) = 2 ^ n * 2 ^ k := by
  rw [zpow_add₀ two_ne_zero, zpow_natCast]

theorem two_zpow_eq_pred (n : Int) : (2 : ℚ) ^ n = 2 ^ (n - 1) * 2 := by
  rw [← zpow_add_one₀ two_ne_zero, sub_add_cancel]

namespace Magnitude

variable {f : Format} (m : Magnitude f)

def val : ℚ := m.significand * 2 ^ m.exponent

theorem val_nonneg : 0 ≤ m.val := mul_nonneg (Nat.cast_nonneg _) (two_zpow_pos _).le

theorem val_ratio : m.ratio.val = m.val := by
  rw [ratio, Ratio.val_scale, Ratio.val_ofNat, val, Nat.cast_two]

/-- The least significand in full digits, at which the unit below is half as wide. -/
def AtStep : Prop := m.significand = 2 ^ (f.precision - 1) ∧ f.least < m.exponent

instance : Decidable m.AtStep := inferInstanceAs (Decidable (_ ∧ _))

def low : ℚ := (m.significand - if m.AtStep then 1 / 4 else 1 / 2) * 2 ^ m.exponent

def high : ℚ := (m.significand + 1 / 2) * 2 ^ m.exponent

def Covers (x : ℚ) : Prop :=
  m.low ≤ x ∧ x ≤ m.high ∧ (m.significand % 2 = 1 → m.low < x ∧ x < m.high)

theorem val_upperEnd : m.upperEnd.val = m.high := by
  rw [upperEnd, high, Ratio.val_scale, Ratio.val_ofNat, two_zpow_eq_pred m.exponent]
  push_cast
  ring

variable {m}

theorem val_lowerEnd (h : 0 < m.significand) : m.lowerEnd.val = m.low := by
  unfold lowerEnd low
  rw [Nat.pow_eq]
  by_cases hstep : m.significand = 2 ^ (f.precision - 1) ∧ f.least < m.exponent
  · have hexp : (2 : ℚ) ^ m.exponent = 2 ^ (m.exponent - 2) * 4 := by
      have hadd := two_zpow_add_nat (m.exponent - 2) 2
      rw [Nat.cast_two, sub_add_cancel] at hadd
      rw [hadd]
      norm_num
    rw [if_pos hstep, if_pos (show m.AtStep from hstep), Ratio.val_scale, Ratio.val_ofNat, hexp,
      Nat.cast_sub (by omega)]
    push_cast
    ring
  · have hexp := two_zpow_eq_pred m.exponent
    rw [if_neg hstep, if_neg (show ¬ m.AtStep from hstep), Ratio.val_scale, Ratio.val_ofNat, hexp,
      Nat.cast_sub (by omega)]
    push_cast
    ring

theorem covers_val : m.Covers m.val := by
  have hpos := two_zpow_pos m.exponent
  have hlow : m.low < m.val := by
    unfold low val
    split <;> nlinarith
  have hhigh : m.val < m.high := by
    unfold high val
    nlinarith
  exact ⟨hlow.le, hhigh.le, fun _ => ⟨hlow, hhigh⟩⟩

end Magnitude

def Decimal.val (d : Decimal) : ℚ := d.digits * 10 ^ d.exponent

theorem Decimal.val_ratio (d : Decimal) : d.ratio.val = d.val := by
  rw [ratio, Ratio.val_scale, Ratio.val_ofNat]
  rfl

theorem Decimal.den_ratio_pos (d : Decimal) : 0 < d.ratio.den :=
  Ratio.den_scale_pos Nat.one_pos (by decide) _

namespace Magnitude

variable {f : Format} {m : Magnitude f}

theorem holds_iff (h : 0 < m.significand) (d : Decimal) : m.holds d = true ↔ m.Covers d.val := by
  have hd := d.den_ratio_pos
  have hu : 0 < m.upperEnd.den := Ratio.den_scale_pos Nat.one_pos (by decide) _
  have hl : 0 < m.lowerEnd.den := by
    unfold lowerEnd
    split <;> exact Ratio.den_scale_pos Nat.one_pos (by decide) _
  unfold holds Covers
  split
  · rename_i heven
    rw [Bool.and_eq_true, Ratio.le_iff hl hd, Ratio.le_iff hd hu, val_lowerEnd h, val_upperEnd,
      d.val_ratio]
    constructor
    · rintro ⟨h₁, h₂⟩
      exact ⟨h₁, h₂, fun hodd => by omega⟩
    · rintro ⟨h₁, h₂, -⟩
      exact ⟨h₁, h₂⟩
  · rename_i hodd
    rw [Bool.and_eq_true, Ratio.lt_iff hl hd, Ratio.lt_iff hd hu, val_lowerEnd h, val_upperEnd,
      d.val_ratio]
    constructor
    · rintro ⟨h₁, h₂⟩
      exact ⟨h₁.le, h₂.le, fun _ => ⟨h₁, h₂⟩⟩
    · rintro ⟨-, -, h⟩
      exact h (by omega)

theorem scaled_le_iff {r : Ratio} {x : ℚ} {n : Int} :
    x ≤ (r.scale 2 (-n)).val ↔ x * 2 ^ n ≤ r.val := by
  rw [Ratio.val_scale, zpow_neg, ← div_eq_mul_inv]
  exact le_div_iff₀ (two_zpow_pos n)

theorem le_scaled_iff {r : Ratio} {x : ℚ} {n : Int} :
    (r.scale 2 (-n)).val ≤ x ↔ r.val ≤ x * 2 ^ n := by
  rw [Ratio.val_scale, zpow_neg, ← div_eq_mul_inv]
  exact div_le_iff₀ (two_zpow_pos n)

theorem half_low_le : (m.significand - 1 / 2) * 2 ^ m.exponent ≤ m.low := by
  have hpos := two_zpow_pos m.exponent
  unfold low
  split <;> nlinarith

theorem roundEven_of_covers {r : Ratio} (hden : 0 < r.den) (h : m.Covers r.val) :
    (r.scale 2 (-m.exponent)).roundEven = m.significand := by
  obtain ⟨hlow, hhigh, hodd⟩ := h
  have hhalf := half_low_le (m := m)
  refine Ratio.roundEven_eq (Ratio.den_scale_pos hden (by decide) _) ?_ ?_ fun ho => ?_
  · exact scaled_le_iff.2 (hhalf.trans hlow)
  · exact le_scaled_iff.2 hhigh
  · obtain ⟨hl, hh⟩ := hodd ho
    constructor
    · exact lt_of_not_ge fun hle => absurd (le_scaled_iff.1 hle) (not_le.2 (hhalf.trans_lt hl))
    · exact lt_of_not_ge fun hle => absurd (scaled_le_iff.1 hle) (not_le.2 hh)

theorem round?_of_unit {r : Ratio} (hden : 0 < r.den) (h : m.Covers r.val)
    (hunit : unitOf f r = m.exponent) : round? f r = some m := by
  obtain ⟨s, e, hfits⟩ := m
  have hdigits := roundEven_of_covers hden h
  simp only at hunit hdigits
  have hne : s ≠ 2 ^ f.precision := hfits.1.ne
  unfold round?
  simp only [hunit, hdigits, Nat.pow_eq, if_neg hne, dif_pos hfits]

/-- Below a step the unit is half as wide, and the fractions that round to the number there round
up to it. -/
theorem round?_of_half_unit {r : Ratio} (hden : 0 < r.den) (h : m.Covers r.val)
    (hstep : m.AtStep) (hbelow : r.val ≤ m.val) (hunit : unitOf f r = m.exponent - 1)
    (hf : 1 < f.precision) : round? f r = some m := by
  obtain ⟨hlow, -, -⟩ := h
  obtain ⟨s, e, hfits⟩ := m
  obtain ⟨hs, hleast⟩ := hstep
  simp only at hs hleast hunit
  have hexp := two_zpow_eq_pred e
  have htwice : 2 * s = 2 ^ f.precision := by
    rw [hs, ← Nat.pow_succ']
    congr 1
    omega
  have hpos := two_zpow_pos (e - 1)
  have hdigits : (r.scale 2 (-(e - 1))).roundEven = 2 * s := by
    refine Ratio.roundEven_eq (Ratio.den_scale_pos hden (by decide) _) ?_ ?_ (by omega)
    · rw [scaled_le_iff]
      rw [low, if_pos ⟨hs, hleast⟩] at hlow
      simp only [hexp] at hlow
      push_cast
      linarith
    · rw [le_scaled_iff]
      simp only [val, hexp] at hbelow
      push_cast
      nlinarith
  unfold round?
  simp only [hunit, hdigits, htwice, Nat.pow_eq, if_true, ← hs, sub_add_cancel, dif_pos hfits]

theorem Covers.pos {x : ℚ} (h : m.Covers x) (hs : 0 < m.significand) : 0 < x := by
  have hexp := two_zpow_pos m.exponent
  have hsq : (1 : ℚ) ≤ m.significand := by exact_mod_cast hs
  have hhalf := (half_low_le (m := m)).trans h.1
  nlinarith

theorem Covers.lt {x : ℚ} (h : m.Covers x) : x < 2 ^ (m.exponent + f.precision) := by
  have hexp := two_zpow_pos m.exponent
  have hs : (m.significand : ℚ) + 1 ≤ 2 ^ f.precision := by exact_mod_cast m.fits.1
  have hhigh := h.2.1
  rw [high] at hhigh
  rw [two_zpow_add_nat]
  nlinarith

theorem AtStep.val (h : m.AtStep) :
    m.val = 2 ^ (m.exponent + ((f.precision - 1 : Nat) : Int)) := by
  rw [Magnitude.val, h.1, two_zpow_add_nat]
  push_cast
  ring

/-- Only a number at a step covers fractions of fewer digits than its own. -/
theorem Covers.atStep {x : ℚ} (h : m.Covers x) (he : m.exponent ≠ f.least)
    (hlt : x < 2 ^ (m.exponent + ((f.precision - 1 : Nat) : Int))) : m.AtStep := by
  obtain ⟨-, hleast, -, hfull⟩ := m.fits
  have hmin : 2 ^ (f.precision - 1) ≤ m.significand := hfull.resolve_left he
  refine ⟨?_, lt_of_le_of_ne hleast (Ne.symm he)⟩
  by_contra hne
  have hmore : ((2 ^ (f.precision - 1) : Nat) : ℚ) + 1 ≤ m.significand := by
    exact_mod_cast Nat.lt_of_le_of_ne hmin (Ne.symm hne)
  push_cast at hmore
  have hexp := two_zpow_pos m.exponent
  have hhalf := (half_low_le (m := m)).trans h.1
  rw [two_zpow_add_nat] at hlt
  nlinarith

theorem Covers.le_of_atStep {x : ℚ} (h : m.Covers x) (hstep : m.AtStep) (hf : 1 < f.precision) :
    2 ^ (m.exponent + ((f.precision - 2 : Nat) : Int)) ≤ x := by
  have hdouble : (m.significand : ℚ) = 2 * 2 ^ (f.precision - 2) := by
    have hnat : m.significand = 2 * 2 ^ (f.precision - 2) := by
      rw [hstep.1, ← Nat.pow_succ']
      congr 1
      omega
    exact_mod_cast hnat
  have hone : (1 : ℚ) ≤ 2 ^ (f.precision - 2) := one_le_pow₀ one_le_two
  have hexp := two_zpow_pos m.exponent
  have hhalf := (half_low_le (m := m)).trans h.1
  rw [hdouble] at hhalf
  rw [two_zpow_add_nat]
  nlinarith

/-- A number is the rounding of the fractions that it covers. -/
theorem round?_of_covers {r : Ratio} (hf : 1 < f.precision) (hs : 0 < m.significand)
    (hden : 0 < r.den) (h : m.Covers r.val) : round? f r = some m := by
  have hnum : 0 < r.num := by
    by_contra hz
    have hpos := h.pos hs
    rw [Ratio.val, Nat.eq_zero_of_not_pos hz] at hpos
    simp at hpos
  obtain ⟨hlog, hlog'⟩ := Ratio.floorLog2_spec hnum hden
  have hunit : unitOf f r = max f.least (r.floorLog2 - f.precision + 1) := by
    rw [unitOf, if_neg hnum.ne']
  have hleast := m.fits.2.1
  have htop := hlog.trans_lt h.lt
  rw [zpow_lt_zpow_iff_right₀ one_lt_two] at htop
  rcases le_or_gt ((2 : ℚ) ^ (m.exponent + ((f.precision - 1 : Nat) : Int))) r.val with hge | hlt
  · have hbottom := hge.trans_lt hlog'
    rw [zpow_lt_zpow_iff_right₀ one_lt_two] at hbottom
    refine round?_of_unit hden h ?_
    rw [hunit]
    omega
  · have hbelow := hlog.trans_lt hlt
    rw [zpow_lt_zpow_iff_right₀ one_lt_two] at hbelow
    by_cases he : m.exponent = f.least
    · refine round?_of_unit hden h ?_
      rw [hunit]
      omega
    · have hstep := h.atStep he hlt
      have hbottom := (h.le_of_atStep hstep hf).trans_lt hlog'
      rw [zpow_lt_zpow_iff_right₀ one_lt_two] at hbottom
      have hstart := hstep.2
      refine round?_of_half_unit hden h hstep (by rw [hstep.val]; exact hlt.le) ?_ hf
      rw [hunit]
      omega

end Magnitude

end BlockConfig
