import BlockConfig.Proofs.Number.Rounding

set_option autoImplicit false

/-!
Rounding finds a number of the format for every fraction within its range, and that number is the
nearest one. Numbers of the format are rounded to themselves, so that no rounding goes past one.
-/

namespace BlockConfig

namespace Ratio

/-- A fraction is within a half of its rounding, and half way only if that is even. -/
theorem roundEven_spec {r : Ratio} (hr : 0 < r.den) :
    (r.roundEven : ℚ) - 1 / 2 ≤ r.val ∧ r.val ≤ r.roundEven + 1 / 2 ∧
      (r.roundEven % 2 = 1 →
        (r.roundEven : ℚ) - 1 / 2 < r.val ∧ r.val < r.roundEven + 1 / 2) := by
  have hrq : (0 : ℚ) < r.den := by exact_mod_cast hr
  obtain ⟨x, hx⟩ : ∃ x : ℚ, x = ((r.num % r.den : Nat) : ℚ) / r.den := ⟨_, rfl⟩
  have hrest : x * r.den = ((r.num % r.den : Nat) : ℚ) := by rw [hx, div_mul_cancel₀ _ hrq.ne']
  have hval : r.val = (r.num / r.den : Nat) + x := by
    have hsplit : ((r.num / r.den * r.den + r.num % r.den : Nat) : ℚ) = r.num := by
      rw [Nat.div_add_mod']
    push_cast at hsplit
    rw [val, div_eq_iff hrq.ne', add_mul, hrest]
    linarith
  have hnonneg : 0 ≤ x := by
    rw [hx]
    positivity
  have hone : x < 1 := by
    rw [hx, div_lt_one hrq]
    exact_mod_cast Nat.mod_lt r.num hr
  have hbelow : 2 * (r.num % r.den) < r.den ↔ x < 1 / 2 := by
    rw [hx, div_lt_iff₀ hrq, ← @Nat.cast_lt ℚ, Nat.cast_mul, Nat.cast_two]
    constructor <;> intro h <;> linarith
  have habove : r.den < 2 * (r.num % r.den) ↔ 1 / 2 < x := by
    rw [hx, lt_div_iff₀ hrq, ← @Nat.cast_lt ℚ, Nat.cast_mul, Nat.cast_two]
    constructor <;> intro h <;> linarith
  rw [hval]
  unfold roundEven
  simp only [hbelow, habove]
  split
  · exact ⟨by linarith, by linarith, fun _ => ⟨by linarith, by linarith⟩⟩
  · split
    · push_cast
      exact ⟨by linarith, by linarith, fun _ => ⟨by linarith, by linarith⟩⟩
    · -- half way the rounding is the even one of the two
      have hhalf : x = 1 / 2 := le_antisymm (not_lt.1 ‹_›) (not_lt.1 ‹_›)
      rcases Nat.mod_two_eq_zero_or_one (r.num / r.den) with heven | hodd
      · rw [heven, hhalf]
        simp only [add_zero]
        exact ⟨by linarith, by linarith, fun h => by omega⟩
      · rw [hodd, hhalf]
        push_cast
        exact ⟨by linarith, by linarith, fun h => by omega⟩

end Ratio

namespace Magnitude

variable {f : Format} {r : Ratio}

/-- The unit is not below the least one, gives a fraction no more digits than the format has, and
all of them unless it is the least one. -/
theorem unitOf_spec (hden : 0 < r.den) :
    f.least ≤ unitOf f r ∧ r.val < 2 ^ (unitOf f r + f.precision) ∧
      (unitOf f r = f.least ∨ 2 ^ (unitOf f r + (f.precision - 1)) ≤ r.val) := by
  unfold unitOf
  split
  · rename_i hzero
    refine ⟨le_refl _, ?_, .inl rfl⟩
    rw [Ratio.val, hzero, Nat.cast_zero, zero_div]
    exact two_zpow_pos _
  · rename_i hnum
    obtain ⟨hlog, hlog'⟩ := Ratio.floorLog2_spec (Nat.pos_of_ne_zero hnum) hden
    refine ⟨le_max_left _ _, hlog'.trans_le (zpow_le_zpow_right₀ one_le_two (by omega)), ?_⟩
    rcases le_total (r.floorLog2 - f.precision + 1) f.least with hle | hge
    · exact .inl (max_eq_left hle)
    · right
      rw [max_eq_right hge]
      refine le_trans (zpow_le_zpow_right₀ one_le_two (by omega)) hlog

def digitsOf (f : Format) (r : Ratio) : Nat := (r.scale 2 (-unitOf f r)).roundEven

theorem digitsOf_spec (hden : 0 < r.den) :
    ((digitsOf f r : ℚ) - 1 / 2) * 2 ^ unitOf f r ≤ r.val ∧
      r.val ≤ (digitsOf f r + 1 / 2) * 2 ^ unitOf f r ∧
      (digitsOf f r % 2 = 1 → ((digitsOf f r : ℚ) - 1 / 2) * 2 ^ unitOf f r < r.val ∧
        r.val < (digitsOf f r + 1 / 2) * 2 ^ unitOf f r) := by
  have hspec := Ratio.roundEven_spec (r := r.scale 2 (-unitOf f r))
    (Ratio.den_scale_pos hden (by decide) _)
  obtain ⟨hlow, hhigh, hodd⟩ := hspec
  refine ⟨scaled_le_iff.1 hlow, le_scaled_iff.1 hhigh, fun h => ?_⟩
  obtain ⟨hl, hh⟩ := hodd h
  exact ⟨lt_of_not_ge fun hle => absurd (le_scaled_iff.2 hle) (not_le.2 hl),
    lt_of_not_ge fun hle => absurd (scaled_le_iff.2 hle) (not_le.2 hh)⟩

theorem digitsOf_le (hden : 0 < r.den) : digitsOf f r ≤ 2 ^ f.precision := by
  obtain ⟨hlow, -, -⟩ := digitsOf_spec (f := f) hden
  obtain ⟨-, hlt, -⟩ := unitOf_spec (f := f) hden
  rw [two_zpow_add_nat, mul_comm] at hlt
  have hdigits := lt_of_mul_lt_mul_right (hlow.trans_lt hlt) (two_zpow_pos _).le
  have hcast : (digitsOf f r : ℚ) < ((2 ^ f.precision + 1 : Nat) : ℚ) := by
    push_cast
    linarith
  have hnat : digitsOf f r < 2 ^ f.precision + 1 := by exact_mod_cast hcast
  omega

theorem le_digitsOf (hf : 0 < f.precision) (hden : 0 < r.den) (hunit : unitOf f r ≠ f.least) :
    2 ^ (f.precision - 1) ≤ digitsOf f r := by
  obtain ⟨-, hhigh, -⟩ := digitsOf_spec (f := f) hden
  obtain ⟨-, -, hfull⟩ := unitOf_spec (f := f) hden
  have hle := (hfull.resolve_left hunit).trans hhigh
  have hexp : (f.precision : Int) - 1 = ((f.precision - 1 : Nat) : Int) := by omega
  rw [hexp, two_zpow_add_nat, mul_comm] at hle
  have hdigits := le_of_mul_le_mul_right hle (two_zpow_pos _)
  have hcast : ((2 ^ (f.precision - 1) : Nat) : ℚ) < ((digitsOf f r + 1 : Nat) : ℚ) := by
    push_cast
    linarith
  have hnat : 2 ^ (f.precision - 1) < digitsOf f r + 1 := by exact_mod_cast hcast
  omega

theorem round?_eq (f : Format) (r : Ratio) : round? f r =
    if digitsOf f r = 2 ^ f.precision then
      if h : f.Fits (2 ^ (f.precision - 1)) (unitOf f r + 1) then some ⟨_, _, h⟩ else none
    else if h : f.Fits (digitsOf f r) (unitOf f r) then some ⟨_, _, h⟩ else none := by
  unfold round? digitsOf
  simp only [Nat.pow_eq]
  split <;> rfl

theorem exists_round? (hf : 1 < f.precision) (hrange : f.least < f.greatest) (hden : 0 < r.den)
    (h : r.val < 2 ^ (f.greatest + (f.precision - 1))) : ∃ m, round? f r = some m := by
  obtain ⟨hleast, -, hfull⟩ := unitOf_spec (f := f) hden
  have hunit : unitOf f r < f.greatest := by
    rcases hfull with heq | hle
    · omega
    · have hlt := hle.trans_lt h
      rw [zpow_lt_zpow_iff_right₀ one_lt_two] at hlt
      omega
  have hpow : 2 ^ (f.precision - 1) < 2 ^ f.precision := Nat.pow_lt_pow_right (by decide) (by omega)
  rw [round?_eq]
  split
  · exact ⟨_, dif_pos ⟨hpow, by omega, by omega, .inr (le_refl _)⟩⟩
  · rename_i hne
    refine ⟨_, dif_pos ⟨lt_of_le_of_ne (digitsOf_le hden) hne, hleast, hunit.le, ?_⟩⟩
    exact or_iff_not_imp_left.2 (le_digitsOf (by omega) hden)

theorem covers_of_round? (hf : 1 < f.precision) (hden : 0 < r.den) {m : Magnitude f}
    (h : round? f r = some m) : m.Covers r.val := by
  obtain ⟨hleast, -, hfull⟩ := unitOf_spec (f := f) hden
  obtain ⟨hlow, hhigh, hodd⟩ := digitsOf_spec (f := f) hden
  have hpos := two_zpow_pos (unitOf f r)
  obtain ⟨p, hp⟩ : ∃ p, f.precision = p + 2 := ⟨f.precision - 2, by omega⟩
  have hpow : 2 ^ (f.precision - 1) = 2 * 2 ^ p := by
    rw [hp, ← Nat.pow_succ']
    rfl
  rw [round?_eq] at h
  split at h
  · rename_i hcarry
    split at h
    · obtain rfl := Option.some.inj h
      have hstep : AtStep (f := f) ⟨_, _, ‹_›⟩ := ⟨rfl, by simp only; omega⟩
      have htwice : (digitsOf f r : ℚ) = 2 * (2 ^ (f.precision - 1) : Nat) := by
        rw [hcarry, hpow, hp]
        push_cast
        ring
      have hunit : (2 : ℚ) ^ (unitOf f r + 1) = 2 ^ unitOf f r * 2 := zpow_add_one₀ two_ne_zero _
      rw [htwice] at hlow hhigh
      refine ⟨?_, ?_, fun ho => ?_⟩
      · rw [low, if_pos hstep]
        simp only [hunit]
        nlinarith
      · rw [high]
        simp only [hunit]
        nlinarith
      · simp only [hpow] at ho
        omega
    · cases h
  · split at h
    · obtain rfl := Option.some.inj h
      -- at a step the unit below is half as wide, but no fraction there has this unit
      have hbelow : AtStep (f := f) ⟨digitsOf f r, unitOf f r, ‹_›⟩ →
          (digitsOf f r : ℚ) * 2 ^ unitOf f r ≤ r.val := by
        rintro ⟨hdigits, hunit⟩
        have hexp : (f.precision : Int) - 1 = ((f.precision - 1 : Nat) : Int) := by omega
        have hge := hfull.resolve_left hunit.ne'
        rw [hexp, two_zpow_add_nat] at hge
        simp only at hdigits
        rw [hdigits]
        push_cast
        linarith
      refine ⟨?_, hhigh, fun ho => ?_⟩
      · rw [low]
        split
        · have := hbelow ‹_›
          simp only
          nlinarith
        · exact hlow
      · have hstep : ¬ AtStep (f := f) ⟨digitsOf f r, unitOf f r, ‹_›⟩ := by
          rintro ⟨hdigits, -⟩
          simp only at hdigits ho
          omega
        rw [low, if_neg hstep]
        exact hodd ho
    · cases h

variable {m n : Magnitude f}

theorem val_lt_zpow (m : Magnitude f) : m.val < 2 ^ (m.exponent + f.precision) := covers_val.lt

theorem zpow_le_val (h : m.exponent ≠ f.least) :
    2 ^ (m.exponent + ((f.precision - 1 : Nat) : Int)) ≤ m.val := by
  obtain ⟨-, -, -, hfull⟩ := m.fits
  have hle : ((2 ^ (f.precision - 1) : Nat) : ℚ) ≤ m.significand := by
    exact_mod_cast hfull.resolve_left h
  have hpos := two_zpow_pos m.exponent
  push_cast at hle
  rw [val, two_zpow_add_nat]
  nlinarith

theorem exists_val_eq (m : Magnitude f) {e : Int} (h : e ≤ m.exponent) :
    ∃ k : Nat, m.val = k * 2 ^ e := by
  obtain ⟨d, hd⟩ : ∃ d : Nat, m.exponent = e + d := ⟨(m.exponent - e).toNat, by omega⟩
  refine ⟨m.significand * 2 ^ d, ?_⟩
  rw [val, hd, two_zpow_add_nat]
  push_cast
  ring

theorem unit_le_sub {e : Int} (hm : e ≤ m.exponent) (hn : e ≤ n.exponent) (h : m.val < n.val) :
    2 ^ e ≤ n.val - m.val := by
  obtain ⟨j, hj⟩ := m.exists_val_eq hm
  obtain ⟨k, hk⟩ := n.exists_val_eq hn
  have hpos := two_zpow_pos e
  rw [hj, hk] at h ⊢
  have hlt : (j : ℚ) < k := lt_of_mul_lt_mul_right h hpos.le
  have hle : (j : ℚ) + 1 ≤ k := by exact_mod_cast hlt
  nlinarith

/-- A greater number of the format is a whole unit greater. -/
theorem zpow_le_sub (hf : 0 < f.precision) (h : m.val < n.val) :
    2 ^ m.exponent ≤ n.val - m.val := by
  rcases le_or_gt m.exponent n.exponent with hle | hgt
  · exact unit_le_sub le_rfl hle h
  · -- a number of a smaller unit has fewer digits, and is smaller
    have hleast := n.fits.2.1
    have hm := zpow_le_val (m := m) (by omega)
    have hn := n.val_lt_zpow
    have hexp : (2 : ℚ) ^ (n.exponent + f.precision) ≤
        2 ^ (m.exponent + ((f.precision - 1 : Nat) : Int)) :=
      zpow_le_zpow_right₀ one_le_two (by omega)
    linarith

/-- How far below the number the next one of the format is. -/
def gapBelow (m : Magnitude f) : ℚ := if m.AtStep then 2 ^ m.exponent / 2 else 2 ^ m.exponent

theorem low_eq : m.low = m.val - m.gapBelow / 2 := by
  unfold low val gapBelow
  split <;> ring

theorem high_eq : m.high = m.val + 2 ^ m.exponent / 2 := by
  unfold high val
  ring

theorem gapBelow_le : m.gapBelow ≤ 2 ^ m.exponent := by
  have hpos := two_zpow_pos m.exponent
  unfold gapBelow
  split <;> linarith

theorem gapBelow_le_sub (h : m.val < n.val) : n.gapBelow ≤ n.val - m.val := by
  rcases le_or_gt n.exponent m.exponent with hle | hgt
  · exact gapBelow_le.trans (unit_le_sub hle le_rfl h)
  · -- the greatest number of the next smaller unit is half a unit below the step
    have hleast := m.fits.2.1
    obtain ⟨-, -, -, hfull⟩ := n.fits
    have hmin := hfull.resolve_left (by omega)
    obtain ⟨P, hP⟩ : ∃ P : Nat, P = 2 ^ (f.precision - 1) := ⟨_, rfl⟩
    have hsignificand : (m.significand : ℚ) + 1 ≤ 2 * P := by
      have htwice : 2 ^ f.precision ≤ 2 * 2 ^ (f.precision - 1) := by
        rw [← Nat.pow_succ']
        exact Nat.pow_le_pow_right (by decide) (by omega)
      have hnat : m.significand + 1 ≤ 2 * P := by
        have hfits := m.fits.1
        rw [Nat.pow_eq] at hfits
        omega
      exact_mod_cast hnat
    have hexp : (2 : ℚ) ^ m.exponent ≤ 2 ^ n.exponent / 2 := by
      rw [two_zpow_eq_pred n.exponent, mul_div_assoc, div_self two_ne_zero, mul_one]
      exact zpow_le_zpow_right₀ one_le_two (by omega)
    have hone : (1 : ℚ) ≤ P := by
      rw [hP]
      exact_mod_cast Nat.one_le_two_pow
    have hm : m.val ≤ (2 * P - 1) * (2 ^ n.exponent / 2) := by
      rw [val]
      exact mul_le_mul (by linarith) hexp (two_zpow_pos _).le (by linarith)
    have hpos := two_zpow_pos n.exponent
    unfold gapBelow val
    split
    · rename_i hstep
      rw [hstep.1, ← hP]
      unfold val at hm
      linarith
    · rename_i hstep
      have hmore : (P : ℚ) + 1 ≤ n.significand := by
        have hne : n.significand ≠ P := fun heq => hstep ⟨heq.trans hP, by omega⟩
        rw [Nat.pow_eq, ← hP] at hmin
        exact_mod_cast Nat.lt_of_le_of_ne hmin hne.symm
      unfold val at hm
      nlinarith

section Nearest

variable {x : ℚ} (h : m.Covers x)

include h

/-- A number that covers a fraction is nearest to it. -/
theorem Covers.nearest (hf : 0 < f.precision) (n : Magnitude f) : |x - m.val| ≤ |x - n.val| := by
  obtain ⟨hlow, hhigh, -⟩ := h
  rw [low_eq] at hlow
  rw [high_eq] at hhigh
  rcases lt_trichotomy m.val n.val with hlt | heq | hgt
  · have hgap := zpow_le_sub hf hlt
    rw [abs_le, abs_of_nonpos (by linarith)]
    exact ⟨by linarith, by linarith⟩
  · rw [heq]
  · have hgap := gapBelow_le_sub hgt
    rw [abs_le, abs_of_nonneg (by linarith)]
    exact ⟨by linarith, by linarith⟩

theorem Covers.val_le (hf : 0 < f.precision) (hx : n.val ≤ x) : n.val ≤ m.val := by
  by_contra hlt
  have hgap := zpow_le_sub hf (not_le.1 hlt)
  have hhigh := h.2.1
  rw [high_eq] at hhigh
  linarith

theorem Covers.le_val (hx : x ≤ n.val) : m.val ≤ n.val := by
  by_contra hlt
  have hgap := gapBelow_le_sub (not_le.1 hlt)
  have hlow := h.1
  rw [low_eq] at hlow
  linarith

/-- In full digits a number is off by less than one part in 2 ^ precision from below, and by no more
from above. -/
theorem Covers.relative (hf : 0 < f.precision) (hfull : m.exponent ≠ f.least) :
    m.val * (2 ^ f.precision - 1) < x * 2 ^ f.precision ∧
      x * 2 ^ f.precision ≤ m.val * (2 ^ f.precision + 1) := by
  obtain ⟨hlow, hhigh, -⟩ := h
  obtain ⟨-, hleast, -, hfits⟩ := m.fits
  obtain ⟨P, hP⟩ : ∃ P : Nat, P = 2 ^ (f.precision - 1) := ⟨_, rfl⟩
  have hprecision : (2 : ℚ) ^ f.precision = 2 * P := by
    obtain ⟨p, hp⟩ : ∃ p, f.precision = p + 1 := ⟨f.precision - 1, by omega⟩
    rw [hP, hp, Nat.add_sub_cancel, pow_succ']
    push_cast
    rfl
  have hone : (1 : ℚ) ≤ P := by
    rw [hP]
    exact_mod_cast Nat.one_le_two_pow
  have hmin : P ≤ m.significand := by
    rw [hP]
    exact hfits.resolve_left hfull
  have hminq : (P : ℚ) ≤ m.significand := by exact_mod_cast hmin
  have hpos := two_zpow_pos m.exponent
  rw [hprecision]
  rw [low] at hlow
  rw [high] at hhigh
  rw [val]
  constructor
  · split at hlow
    · rename_i hstep
      have hsignificand : (m.significand : ℚ) = P := by rw [hP, hstep.1]
      rw [hsignificand] at hlow ⊢
      nlinarith [mul_pos hpos (by linarith : (0 : ℚ) < P)]
    · rename_i hstep
      have hne : m.significand ≠ P :=
        fun heq => hstep ⟨heq.trans hP, lt_of_le_of_ne hleast hfull.symm⟩
      have hmore : (P : ℚ) + 1 ≤ m.significand := by
        exact_mod_cast Nat.lt_of_le_of_ne hmin hne.symm
      nlinarith [mul_le_mul_of_nonneg_right hlow (by linarith : (0 : ℚ) ≤ 2 * P)]
  · nlinarith [mul_le_mul_of_nonneg_right hhigh (by linarith : (0 : ℚ) ≤ 2 * P)]

end Nearest

theorem val_of_round? (hf : 0 < f.precision) (hden : 0 < r.den) {s : Nat} {e : Int}
    (hs : s < 2 ^ f.precision) (he : f.least ≤ e) (hr : r.val = s * 2 ^ e)
    (h : round? f r = some m) : m.val = r.val := by
  obtain ⟨-, -, hfull⟩ := unitOf_spec (f := f) hden
  have hunit : unitOf f r ≤ e := by
    rcases hfull with heq | hle
    · omega
    · have hlt : r.val < 2 ^ (e + f.precision) := by
        have hsq : (s : ℚ) < 2 ^ f.precision := by exact_mod_cast hs
        have hpos := two_zpow_pos e
        rw [hr, two_zpow_add_nat]
        nlinarith
      have hexp := hle.trans_lt hlt
      rw [zpow_lt_zpow_iff_right₀ one_lt_two] at hexp
      omega
  obtain ⟨d, hd⟩ : ∃ d : Nat, e = unitOf f r + d := ⟨(e - unitOf f r).toNat, by omega⟩
  have hwhole : r.val = (s * 2 ^ d : Nat) * 2 ^ unitOf f r := by
    rw [hr, hd, two_zpow_add_nat]
    push_cast
    ring
  have hscaled : (r.scale 2 (-unitOf f r)).val = (s * 2 ^ d : Nat) := by
    rw [Ratio.val_scale, hwhole, Nat.cast_two, mul_assoc, ← zpow_add₀ two_ne_zero,
      add_neg_cancel, zpow_zero, mul_one]
  have hdigits : digitsOf f r = s * 2 ^ d := by
    refine Ratio.roundEven_eq (Ratio.den_scale_pos hden (by decide) _) ?_ ?_ fun _ => ⟨?_, ?_⟩
    all_goals rw [hscaled]; linarith
  rw [round?_eq] at h
  split at h
  · rename_i hcarry
    split at h
    · obtain rfl := Option.some.inj h
      obtain ⟨p, hp⟩ : ∃ p, f.precision = p + 1 := ⟨f.precision - 1, by omega⟩
      rw [hwhole, ← hdigits, hcarry, val]
      simp only [hp, Nat.add_sub_cancel]
      rw [zpow_add_one₀ two_ne_zero, pow_succ]
      push_cast
      ring
    · cases h
  · split at h
    · obtain rfl := Option.some.inj h
      rw [hwhole, ← hdigits, val]
    · cases h

theorem exists_val (hf : 1 < f.precision) {s : Nat} {e : Int} (hs : s < 2 ^ f.precision)
    (hleast : f.least ≤ e) (hgreatest : e < f.greatest) :
    ∃ m : Magnitude f, m.val = s * 2 ^ e := by
  have hden : 0 < ((Ratio.ofNat s).scale 2 e).den := Ratio.den_scale_pos Nat.one_pos (by decide) e
  have hr : ((Ratio.ofNat s).scale 2 e).val = s * 2 ^ e := by
    rw [Ratio.val_scale, Ratio.val_ofNat, Nat.cast_two]
  have hlt : ((Ratio.ofNat s).scale 2 e).val < 2 ^ (f.greatest + (f.precision - 1)) := by
    have hsq : (s : ℚ) < 2 ^ f.precision := by exact_mod_cast hs
    have hpos := two_zpow_pos e
    calc ((Ratio.ofNat s).scale 2 e).val < 2 ^ (e + f.precision) := by
          rw [hr, two_zpow_add_nat]
          nlinarith
      _ ≤ 2 ^ (f.greatest + (f.precision - 1)) := zpow_le_zpow_right₀ one_le_two (by omega)
  obtain ⟨m, hm⟩ := exists_round? hf (by omega) hden hlt
  exact ⟨m, (val_of_round? (by omega) hden hs hleast hr hm).trans hr⟩

end Magnitude

end BlockConfig
