import BlockConfig.Number.Ratio
import Mathlib.Algebra.Order.Field.Power
import Mathlib.Data.Rat.Cast.Order
import Mathlib.Tactic.FieldSimp
import Mathlib.Tactic.Linarith
import Mathlib.Tactic.NormNum
import Mathlib.Tactic.Positivity
import Mathlib.Tactic.Ring

set_option autoImplicit false

namespace BlockConfig

namespace Ratio

def val (r : Ratio) : ℚ := r.num / r.den

@[simp] theorem val_ofNat (n : Nat) : (ofNat n).val = n := by simp [val, ofNat]

theorem den_scale_pos {r : Ratio} (hr : 0 < r.den) {base : Nat} (hbase : 0 < base) (power : Int) :
    0 < (r.scale base power).den := Nat.mul_pos hr (Nat.pow_pos hbase)

theorem val_scale (r : Ratio) (base : Nat) (power : Int) :
    (r.scale base power).val = r.val * (base : ℚ) ^ power := by
  obtain ⟨n, rfl | rfl⟩ := power.eq_nat_or_neg
  · have hneg : (-(n : Int)).toNat = 0 := by omega
    simp only [val, scale, Nat.pow_eq, Int.toNat_natCast, hneg, pow_zero, mul_one, zpow_natCast]
    push_cast
    ring
  · have hneg : (-(n : Int)).toNat = 0 := by omega
    simp only [val, scale, Nat.pow_eq, neg_neg, Int.toNat_natCast, hneg, pow_zero, mul_one, zpow_neg,
      zpow_natCast]
    push_cast
    rw [← div_div, div_eq_mul_inv _ ((base : ℚ) ^ n)]

theorem val_divide (r s : Ratio) : (r.divide s).val = r.val / s.val := by
  rw [val, val, val, divide, div_div_div_eq]
  push_cast
  rfl

theorem le_iff {r s : Ratio} (hr : 0 < r.den) (hs : 0 < s.den) :
    r.le s = true ↔ r.val ≤ s.val := by
  have hrq : (0 : ℚ) < r.den := by exact_mod_cast hr
  have hsq : (0 : ℚ) < s.den := by exact_mod_cast hs
  rw [le, val, val, div_le_div_iff₀ hrq hsq, decide_eq_true_eq]
  exact_mod_cast Iff.rfl

theorem lt_iff {r s : Ratio} (hr : 0 < r.den) (hs : 0 < s.den) :
    r.lt s = true ↔ r.val < s.val := by
  have hrq : (0 : ℚ) < r.den := by exact_mod_cast hr
  have hsq : (0 : ℚ) < s.den := by exact_mod_cast hs
  rw [lt, val, val, div_lt_div_iff₀ hrq hsq, decide_eq_true_eq]
  exact_mod_cast Iff.rfl

/-- The whole number next to a fraction is its rounding; half way it is so only if it is even. -/
theorem roundEven_eq {r : Ratio} (hr : 0 < r.den) {n : Nat} (hlow : (n : ℚ) - 1 / 2 ≤ r.val)
    (hhigh : r.val ≤ n + 1 / 2) (hodd : n % 2 = 1 → (n : ℚ) - 1 / 2 < r.val ∧ r.val < n + 1 / 2) :
    r.roundEven = n := by
  have hrq : (0 : ℚ) < r.den := by exact_mod_cast hr
  have hlow' : 2 * (n * r.den) ≤ 2 * r.num + r.den := by
    rw [val, le_div_iff₀ hrq] at hlow
    have hle : (2 : ℚ) * (n * r.den) ≤ 2 * r.num + r.den := by linarith
    exact_mod_cast hle
  have hhigh' : 2 * r.num ≤ 2 * (n * r.den) + r.den := by
    rw [val, div_le_iff₀ hrq] at hhigh
    have hle : (2 : ℚ) * r.num ≤ 2 * (n * r.den) + r.den := by linarith
    exact_mod_cast hle
  have hodd' : n % 2 = 1 →
      2 * (n * r.den) < 2 * r.num + r.den ∧ 2 * r.num < 2 * (n * r.den) + r.den := by
    intro hn
    obtain ⟨hl, hh⟩ := hodd hn
    rw [val, lt_div_iff₀ hrq] at hl
    rw [val, div_lt_iff₀ hrq] at hh
    have hlt : (2 : ℚ) * (n * r.den) < 2 * r.num + r.den := by linarith
    have hlt' : (2 : ℚ) * r.num < 2 * (n * r.den) + r.den := by linarith
    exact ⟨by exact_mod_cast hlt, by exact_mod_cast hlt'⟩
  have hsplit : r.num / r.den * r.den + r.num % r.den = r.num := Nat.div_add_mod' r.num r.den
  have hrest := Nat.mod_lt r.num hr
  have hlo : r.num / r.den ≤ n := by
    by_contra hlt
    have hmul := Nat.mul_le_mul_right r.den (Nat.succ_le_of_lt (Nat.lt_of_not_le hlt))
    rw [Nat.succ_mul] at hmul
    omega
  have hhi : n ≤ r.num / r.den + 1 := by
    by_contra hlt
    have hmul := Nat.mul_le_mul_right r.den (Nat.succ_le_of_lt (Nat.lt_of_not_le hlt))
    rw [Nat.succ_mul, Nat.succ_mul] at hmul
    omega
  unfold roundEven
  simp only
  rcases Nat.lt_or_ge (r.num / r.den) n with hlt | hge
  · have hn : n = r.num / r.den + 1 := by omega
    have hmul : n * r.den = r.num / r.den * r.den + r.den := by rw [hn, Nat.add_mul, Nat.one_mul]
    split
    · omega
    · split <;> omega
  · have hn : n = r.num / r.den := by omega
    have hmul : n * r.den = r.num / r.den * r.den := by rw [hn]
    split
    · omega
    · split <;> omega

theorem zpow_log2_le {n : Nat} (h : 0 < n) : (2 : ℚ) ^ (n.log2 : Int) ≤ n := by
  rw [zpow_natCast]
  exact_mod_cast Nat.log2_self_le h.ne'

theorem lt_zpow_log2 (n : Nat) : (n : ℚ) < 2 ^ ((n.log2 : Int) + 1) := by
  have hlt := Nat.lt_log2_self (n := n)
  exact_mod_cast hlt

theorem val_lt_zpow_log2 {r : Ratio} (hden : 0 < r.den) :
    r.val < (2 : ℚ) ^ ((r.num.log2 : Int) - r.den.log2 + 1) := by
  rw [val, div_lt_iff₀ (by exact_mod_cast hden)]
  calc (r.num : ℚ) < 2 ^ ((r.num.log2 : Int) + 1) := lt_zpow_log2 r.num
    _ = 2 ^ ((r.num.log2 : Int) - r.den.log2 + 1) * 2 ^ (r.den.log2 : Int) := by
      rw [← zpow_add₀ two_ne_zero]
      congr 1
      ring
    _ ≤ 2 ^ ((r.num.log2 : Int) - r.den.log2 + 1) * r.den := by
      have hle := zpow_log2_le hden
      gcongr

theorem zpow_log2_le_val {r : Ratio} (hnum : 0 < r.num) (hden : 0 < r.den) :
    (2 : ℚ) ^ ((r.num.log2 : Int) - r.den.log2 - 1) ≤ r.val := by
  rw [val, le_div_iff₀ (by exact_mod_cast hden)]
  calc (2 : ℚ) ^ ((r.num.log2 : Int) - r.den.log2 - 1) * r.den
      ≤ 2 ^ ((r.num.log2 : Int) - r.den.log2 - 1) * 2 ^ ((r.den.log2 : Int) + 1) := by
        have hle := (lt_zpow_log2 r.den).le
        gcongr
    _ = 2 ^ (r.num.log2 : Int) := by
      rw [← zpow_add₀ two_ne_zero]
      congr 1
      ring
    _ ≤ r.num := zpow_log2_le hnum

theorem floorLog2_spec {r : Ratio} (hnum : 0 < r.num) (hden : 0 < r.den) :
    (2 : ℚ) ^ r.floorLog2 ≤ r.val ∧ r.val < (2 : ℚ) ^ (r.floorLog2 + 1) := by
  have hcut : (ofNat 1).le (r.scale 2 (-((r.num.log2 : Int) - r.den.log2))) = true ↔
      (2 : ℚ) ^ ((r.num.log2 : Int) - r.den.log2) ≤ r.val := by
    rw [le_iff Nat.one_pos (den_scale_pos hden (by decide) _), val_scale, val_ofNat, zpow_neg,
      ← div_eq_mul_inv]
    push_cast
    rw [le_div_iff₀ (by positivity), one_mul]
  unfold floorLog2
  simp only
  split
  · rename_i h
    exact ⟨hcut.1 h, val_lt_zpow_log2 hden⟩
  · rename_i h
    refine ⟨zpow_log2_le_val hnum hden, ?_⟩
    rw [sub_add_cancel]
    exact lt_of_not_ge fun hle => h (hcut.2 hle)

end Ratio

end BlockConfig
