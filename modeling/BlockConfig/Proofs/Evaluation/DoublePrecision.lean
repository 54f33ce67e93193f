import BlockConfig.Call.OnIntegers
import BlockConfig.Proofs.Evaluation.Arithmetic
import BlockConfig.Proofs.Number.WholeNumber
import Mathlib.Data.Nat.Prime.Basic
import Mathlib.Tactic.NormNum.Prime

set_option autoImplicit false

/-!
Powers and floored quotients of 64-bit integers in double precision. Powers are exact where double
precision has the power itself, and floored quotients where the dividend has no more than 53 binary
digits.
-/

namespace BlockConfig

theorem natAbs_toInt_le (n : Int64) : n.toInt.natAbs ≤ 2 ^ 63 := by
  have hlow := n.le_toInt
  have hhigh := n.toInt_lt
  omega

theorem natAbs_toInt_le_cast (n : Int64) : (n.toInt.natAbs : ℚ) ≤ 2 ^ 63 := by
  exact_mod_cast natAbs_toInt_le n

section RoundToDouble

variable (n : Int64)

theorem exists_roundToDouble : ∃ m : Magnitude .double, m.Covers n.toInt.natAbs ∧
    roundToDouble n = if n.toInt < 0 then -⌊m.val⌋ else ⌊m.val⌋ := by
  obtain ⟨m, hm, hcovers⟩ := exists_ofInt (natAbs_toInt_le n)
  refine ⟨m, hcovers, ?_⟩
  rw [roundToDouble, hm, Binary.truncate, m.floor_ratio]
  simp

theorem fitsDouble_roundToDouble : FitsDouble (roundToDouble n) := by
  obtain ⟨m, -, hm⟩ := exists_roundToDouble n
  obtain ⟨s, t, hs, hst⟩ := m.fitsDouble_floor
  refine ⟨s, t, hs, ?_⟩
  rw [hm]
  split
  · rw [Int.natAbs_neg, hst]
  · exact hst

variable {n}

theorem roundToDouble_of_fits (h : FitsDouble n.toInt) : roundToDouble n = n.toInt := by
  obtain ⟨m, hcovers, hm⟩ := exists_roundToDouble n
  rw [hm, hcovers.val_eq_natAbs h (natAbs_toInt_le n), Int.floor_natCast]
  split <;> omega

theorem le_natAbs_roundToDouble {k : Nat} (hk : k ≤ 2 ^ 53) (h : k ≤ n.toInt.natAbs) :
    k ≤ (roundToDouble n).natAbs := by
  obtain ⟨m, hcovers, hm⟩ := exists_roundToDouble n
  have hle := hcovers.natCast_le_val hk (by exact_mod_cast h)
  have hfloor : (k : Int) ≤ ⌊m.val⌋ := Int.le_floor.2 (by exact_mod_cast hle)
  rw [hm]
  split <;> omega

theorem roundToDouble_neg_iff : roundToDouble n < 0 ↔ n.toInt < 0 := by
  obtain ⟨m, hcovers, hm⟩ := exists_roundToDouble n
  have hnonneg : 0 ≤ ⌊m.val⌋ := Int.floor_nonneg.2 m.val_nonneg
  constructor
  · intro h
    by_contra hn
    rw [hm, if_neg hn] at h
    omega
  · intro h
    have hone := le_natAbs_roundToDouble (n := n) (k := 1) (by decide) (by omega)
    rw [hm, if_pos h] at hone ⊢
    omega

end RoundToDouble

section RoundPower

/-- The digits behind the first 53 are zeros. -/
theorem fitsDouble_iff_unit_dvd (n : Nat) : FitsDouble n ↔ 2 ^ (n.log2 + 1 - 53) ∣ n := by
  constructor
  · rintro ⟨s, t, hs, hst⟩
    rw [Int.natAbs_natCast] at hst
    rcases Nat.eq_zero_or_pos n with rfl | hpos
    · exact dvd_zero _
    · have hlt : n < 2 ^ (53 + t) := by
        rw [hst, Nat.pow_add]
        exact Nat.mul_lt_mul_of_pos_right hs (Nat.two_pow_pos t)
      have hlog : n.log2 < 53 + t := (Nat.log2_lt hpos.ne').2 hlt
      have hunit : n.log2 + 1 - 53 ≤ t := by omega
      exact (Nat.pow_dvd_pow 2 hunit).trans ⟨s, by rw [hst, Nat.mul_comm]⟩
  · rintro ⟨s, hs⟩
    refine ⟨s, n.log2 + 1 - 53, ?_, by rw [Int.natAbs_natCast, Nat.mul_comm]; exact hs⟩
    have hlt : n < 2 ^ (n.log2 + 1 - 53) * 2 ^ 53 := by
      rw [← Nat.pow_add]
      exact Nat.lt_log2_self.trans_le (Nat.pow_le_pow_right (by decide) (by omega))
    exact Nat.lt_of_mul_lt_mul_left (hs.symm.trans_lt hlt)

/-- A rounded power is exact where double precision has it; the machine has no say in that. -/
theorem roundPower_eq_iff (base exponent : Nat) :
    roundPower base exponent = base ^ exponent ↔ FitsDouble (base ^ exponent : Nat) := by
  rw [fitsDouble_iff_unit_dvd]
  unfold roundPower
  simp only [Nat.pow_eq]
  have hprecision : Format.double.precision = 53 := rfl
  rw [hprecision]
  generalize base ^ exponent = exact
  have hpos : 0 < 2 ^ (exact.log2 + 1 - 53) := Nat.two_pow_pos _
  generalize 2 ^ (exact.log2 + 1 - 53) = unit at hpos ⊢
  have hsplit := Nat.div_add_mod' exact unit
  have hrest := Nat.mod_lt exact hpos
  rw [Nat.dvd_iff_mod_eq_zero]
  constructor
  · intro h
    split at h
    · split at h <;> omega
    · split at h <;> omega
  · intro hzero
    rw [hzero] at hsplit ⊢
    rw [if_neg (by omega), if_pos (by omega)]
    omega

end RoundPower

section Power

theorem pow_eq_signed (n : Int) (k : Nat) : n ^ k =
    if n < 0 ∧ k % 2 = 1 then -((n.natAbs ^ k : Nat) : Int) else (n.natAbs ^ k : Nat) := by
  push_cast
  split
  · rename_i h
    have habs : ((n.natAbs : Nat) : Int) = -n := by omega
    rw [← Int.natCast_natAbs, habs, (Nat.odd_iff.2 h.2).neg_pow, neg_neg]
  · rename_i h
    rcases Nat.mod_two_eq_zero_or_one k with heven | hodd
    · exact ((Nat.even_iff.2 heven).pow_abs n).symm
    · have hnonneg : 0 ≤ n := not_lt.1 fun hneg => h ⟨hneg, hodd⟩
      rw [abs_of_nonneg hnonneg]

theorem exponent_lt_of_pow_le {n k : Nat} (hn : 2 ≤ n) (h : n ^ k ≤ 2 ^ 63) : k < 64 := by
  have hle : 2 ^ k ≤ 2 ^ 63 := (Nat.pow_le_pow_left hn k).trans h
  have := (Nat.pow_le_pow_iff_right (by decide)).1 hle
  omega

theorem base_le_of_pow_le {n k : Nat} (hk : 2 ≤ k) (h : n ^ k ≤ 2 ^ 63) : n ≤ 2 ^ 53 := by
  by_contra hlarge
  have hle : (2 ^ 53) ^ 2 ≤ 2 ^ 63 :=
    calc (2 ^ 53) ^ 2 ≤ n ^ 2 := Nat.pow_le_pow_left (by omega) 2
      _ ≤ n ^ k := Nat.pow_le_pow_right (by omega) hk
      _ ≤ 2 ^ 63 := h
  exact absurd hle (by decide)

/-- The greatest 64-bit integer is no square and no higher power. -/
theorem pow_ne_greatest (n : Nat) {k : Nat} (hk : 2 ≤ k) : n ^ k ≠ 2 ^ 63 - 1 := by
  intro heq
  -- it has the prime factor 73, but not twice
  have hprime : Nat.Prime 73 := by norm_num
  have hdvd : 73 ∣ n ^ k := heq ▸ (by decide : 73 ∣ 2 ^ 63 - 1)
  have hsquare : 73 ^ 2 ∣ n ^ k :=
    (pow_dvd_pow_of_dvd (hprime.dvd_of_dvd_pow hdvd) 2).trans (pow_dvd_pow n hk)
  rw [heq] at hsquare
  exact absurd hsquare (by decide)

variable {a b : Int64}

theorem roundToDouble_emod_two (hb : 2 ^ 53 < b.toInt) : roundToDouble b % 2 = 0 := by
  obtain ⟨s, t, hs, hst⟩ := fitsDouble_roundToDouble b
  have hlarge := le_natAbs_roundToDouble (n := b) (k := 2 ^ 53) (le_refl _) (by omega)
  cases t with
  | zero => omega
  | succ t =>
    rw [Nat.pow_succ, ← Nat.mul_assoc] at hst
    omega

theorem one_le_roundToDouble (hb : 0 < b.toInt) : 1 ≤ roundToDouble b := by
  have hsize := le_natAbs_roundToDouble (n := b) (k := 1) (by decide) (by omega)
  have hsign := roundToDouble_neg_iff (n := b)
  omega

theorem power_of_exponent_zero (hb : b.toInt = 0) : power a b = 1 := by
  have hexponent : roundToDouble b = 0 := by
    rw [roundToDouble_of_fits (fitsDouble_of_le (by omega)), hb]
  rw [power]
  exact if_pos hexponent

theorem toInt_power_of_natAbs_le (hb : 0 < b.toInt) (ha : a.toInt.natAbs ≤ 1) :
    (power a b).toInt = a.toInt ^ b.toInt.toNat ↔
      ¬ (a.toInt = -1 ∧ b.toInt % 2 = 1 ∧ 2 ^ 53 < b.toInt) := by
  obtain ⟨k, hk⟩ : ∃ k : Nat, b.toInt = k := ⟨b.toInt.toNat, by omega⟩
  have hbase : roundToDouble a = a.toInt := roundToDouble_of_fits (fitsDouble_of_le (by omega))
  have hexponent := one_le_roundToDouble hb
  have hparity : roundToDouble b % 2 = 1 ↔ k % 2 = 1 ∧ ¬ 2 ^ 53 < (k : Int) := by
    rw [← hk]
    by_cases hlarge : 2 ^ 53 < b.toInt
    · have heven := roundToDouble_emod_two hlarge
      omega
    · rw [roundToDouble_of_fits (fitsDouble_of_le (by omega))]
      omega
  have hcut : (k : Int) % 2 = 1 ↔ k % 2 = 1 := by omega
  unfold power
  simp only [hbase, hk, Int.toNat_natCast, hparity, hcut]
  rw [if_neg (by omega)]
  rcases (by omega : a.toInt = 0 ∨ a.toInt = 1 ∨ a.toInt = -1) with h | h | h
  · rw [if_pos h, if_neg (by omega), h, zero_pow (by omega)]
    simp
  · rw [if_neg (by omega), if_pos (by omega), if_neg (by omega), h, one_pow]
    simp
  · rw [if_neg (by omega), if_pos (by omega), h, pow_eq_signed (-1) k]
    have hone : (1 : Int64).toInt = 1 := rfl
    have hminus : (-1 : Int64).toInt = -1 := rfl
    by_cases hodd : k % 2 = 1
    · by_cases hlarge : 2 ^ 53 < (k : Int) <;>
        simp only [hodd, hlarge] <;> simp [hone, hminus]
    · simp [hodd, hone]

theorem toInt_power_of_two_le (hbase : 2 ≤ (roundToDouble a).natAbs) (hpos : 0 < roundToDouble b)
    (hlt : roundToDouble b < 64) : (power a b).toInt =
      saturate (if roundToDouble a < 0 ∧ roundToDouble b % 2 = 1
        then -(roundPower (roundToDouble a).natAbs (roundToDouble b).toNat : Int)
        else roundPower (roundToDouble a).natAbs (roundToDouble b).toNat) := by
  unfold power
  simp only
  rw [if_neg (by omega), if_neg (by omega), if_neg (by omega), if_neg (by omega), if_pos hlt,
    toInt_clampInt64_eq_saturate]

theorem toInt_power_one (hb : b.toInt = 1) (ha : 2 ≤ a.toInt.natAbs) :
    (power a b).toInt = saturate (roundToDouble a) := by
  have hexponent : roundToDouble b = 1 := by
    rw [roundToDouble_of_fits (fitsDouble_of_le (by omega)), hb]
  have hbase := le_natAbs_roundToDouble (n := a) (by decide) ha
  have hsize : roundPower (roundToDouble a).natAbs (roundToDouble b).toNat =
      (roundToDouble a).natAbs := by
    have hfits : FitsDouble ((roundToDouble a).natAbs ^ (roundToDouble b).toNat : Nat) := by
      rw [hexponent]
      obtain ⟨s, t, hs, hst⟩ := fitsDouble_roundToDouble a
      exact ⟨s, t, hs, by rw [Int.natAbs_natCast, Int.toNat_one, Nat.pow_one, hst]⟩
    rw [(roundPower_eq_iff _ _).2 hfits, hexponent]
    exact Nat.pow_one _
  have hsigned : (if roundToDouble a < 0 ∧ (1 : Int) % 2 = 1
      then -((roundToDouble a).natAbs : Int) else (roundToDouble a).natAbs) = roundToDouble a := by
    split <;> omega
  rw [toInt_power_of_two_le hbase (by omega) (by omega), hsize, hexponent, hsigned]

theorem toInt_power_one_eq_iff (hb : b.toInt = 1) (ha : 2 ≤ a.toInt.natAbs) :
    (power a b).toInt = a.toInt ↔ FitsDouble a.toInt ∨ a.toInt = 2 ^ 63 - 1 := by
  have hlow := a.le_toInt
  have hhigh := a.toInt_lt
  rw [toInt_power_one hb ha]
  constructor
  · intro h
    by_cases hleast : a.toInt = -2 ^ 63
    · exact .inl ⟨1, 63, by decide, by omega⟩
    · by_cases hgreatest : a.toInt = 2 ^ 63 - 1
      · exact .inr hgreatest
      · have hexact : roundToDouble a = a.toInt := by
          unfold saturate at h
          omega
        exact .inl (hexact ▸ fitsDouble_roundToDouble a)
  · rintro (hfits | hgreatest)
    · rw [roundToDouble_of_fits hfits, saturate]
      omega
    · have heq : a = 9223372036854775807 := Int64.toInt_inj.1 hgreatest
      subst heq
      decide +kernel

theorem toInt_power_eq_iff_of_two_le (hb : 2 ≤ b.toInt) (ha : 2 ≤ a.toInt.natAbs)
    (hlow : -2 ^ 63 ≤ a.toInt ^ b.toInt.toNat) (hhigh : a.toInt ^ b.toInt.toNat < 2 ^ 63) :
    (power a b).toInt = a.toInt ^ b.toInt.toNat ↔ FitsDouble (a.toInt ^ b.toInt.toNat) := by
  obtain ⟨k, hk⟩ : ∃ k : Nat, b.toInt = k := ⟨b.toInt.toNat, by omega⟩
  rw [hk, Int.toNat_natCast] at hlow hhigh ⊢
  have hsize : a.toInt.natAbs ^ k ≤ 2 ^ 63 := by
    rw [← Int.natAbs_pow]
    omega
  have hexponent : k < 64 := exponent_lt_of_pow_le ha hsize
  have hsmall : a.toInt.natAbs ≤ 2 ^ 53 := base_le_of_pow_le (by omega) hsize
  have hbase : roundToDouble a = a.toInt := roundToDouble_of_fits (fitsDouble_of_le hsmall)
  have hrounded : roundToDouble b = k := by
    rw [roundToDouble_of_fits (fitsDouble_of_le (by omega)), hk]
  have hne : a.toInt.natAbs ^ k ≠ 2 ^ 63 - 1 := pow_ne_greatest _ (by omega)
  have hfits : FitsDouble (a.toInt ^ k) ↔ roundPower a.toInt.natAbs k = a.toInt.natAbs ^ k := by
    rw [roundPower_eq_iff, FitsDouble, FitsDouble, Int.natAbs_pow, Int.natAbs_natCast]
  have htop : a.toInt.natAbs ^ k = 2 ^ 63 →
      roundPower a.toInt.natAbs k = a.toInt.natAbs ^ k := fun heq =>
    (roundPower_eq_iff _ _).2 ⟨1, 63, by decide, by rw [Int.natAbs_natCast, heq, Nat.one_mul]⟩
  have hparity : (k : Int) % 2 = 1 ↔ k % 2 = 1 := by omega
  have hsigned := pow_eq_signed a.toInt k
  rw [toInt_power_of_two_le (by omega) (by omega) (by omega), hbase, hrounded, Int.toNat_natCast,
    hfits]
  simp only [hparity]
  rw [hsigned] at hlow hhigh ⊢
  generalize a.toInt.natAbs ^ k = size at hlow hhigh hsize hne htop ⊢
  -- only the two ends of the range can be met by a power that is cut to 64 bits
  unfold saturate
  by_cases hneg : a.toInt < 0 ∧ k % 2 = 1
  · simp only [if_pos hneg] at hlow hhigh ⊢
    omega
  · simp only [if_neg hneg] at hlow hhigh ⊢
    omega

/-- A power that fits 64 bits is exact if and only if double precision has it, but for the greatest
integer as its own first power and for odd powers of -1 above 2 ^ 53. -/
theorem toInt_power_eq_iff (hb : 0 ≤ b.toInt) (hlow : -2 ^ 63 ≤ a.toInt ^ b.toInt.toNat)
    (hhigh : a.toInt ^ b.toInt.toNat < 2 ^ 63) :
    (power a b).toInt = a.toInt ^ b.toInt.toNat ↔
      (FitsDouble (a.toInt ^ b.toInt.toNat) ∨ b.toInt = 1 ∧ a.toInt = 2 ^ 63 - 1) ∧
        ¬ (a.toInt = -1 ∧ b.toInt % 2 = 1 ∧ 2 ^ 53 < b.toInt) := by
  rcases Nat.lt_or_ge 1 a.toInt.natAbs with ha | ha
  · have hminus : a.toInt ≠ -1 := by omega
    rcases (by omega : b.toInt = 0 ∨ b.toInt = 1 ∨ 2 ≤ b.toInt) with h | h | h
    · rw [power_of_exponent_zero h, h]
      have hone : FitsDouble 1 := fitsDouble_of_le (by decide)
      simp [hone, hminus]
    · have hpow : a.toInt ^ b.toInt.toNat = a.toInt := by rw [h, Int.toNat_one, pow_one]
      rw [hpow, toInt_power_one_eq_iff h ha]
      simp [h, hminus]
    · have hne : b.toInt ≠ 1 := by omega
      rw [toInt_power_eq_iff_of_two_le h ha hlow hhigh]
      simp [hne, hminus]
  · have hfits : FitsDouble (a.toInt ^ b.toInt.toNat) := by
      refine fitsDouble_of_le ?_
      rw [Int.natAbs_pow]
      exact (pow_le_one' ha b.toInt.toNat).trans (by decide)
    rcases (by omega : b.toInt = 0 ∨ 0 < b.toInt) with h | h
    · rw [power_of_exponent_zero h, h]
      have hone : FitsDouble 1 := fitsDouble_of_le (by decide)
      simp [hone]
    · rw [toInt_power_of_natAbs_le h ha]
      exact (and_iff_right (.inl hfits)).symm

end Power

section Floor

theorem Binary.toInt_floorInt64 (negative : Bool) (m : Magnitude .double) :
    (Binary.finite negative m).floorInt64.toInt =
      saturate (if negative then ⌊-m.val⌋ else ⌊m.val⌋) := by
  have hdiv : ∀ n : Int, n.fdiv m.ratio.den = ⌊(n : ℚ) / m.ratio.den⌋ := fun n => by
    rw [Rat.floor_intCast_div_natCast, Int.fdiv_eq_ediv_of_nonneg _ (Int.natCast_nonneg _)]
  rw [floorInt64, toInt_clampInt64_eq_saturate, hdiv, ← m.val_ratio, Ratio.val]
  cases negative with
  | false => rfl
  | true =>
    simp only [if_true]
    rw [Int.cast_neg, Int.cast_natCast, neg_div]

variable {a b : Int64}

/-- Quotients are rounded three times, both operands first and then their quotient, and then cut to
the whole number below and to 64 bits. -/
theorem exists_floorQuotient (hb : b.toInt ≠ 0) : ∃ p d q : Magnitude .double,
    p.Covers a.toInt.natAbs ∧ d.Covers b.toInt.natAbs ∧ q.Covers (p.val / d.val) ∧
      (floorQuotient a b).toInt =
        saturate (if a.toInt < 0 ↔ b.toInt < 0 then ⌊q.val⌋ else ⌊-q.val⌋) := by
  obtain ⟨p, hp, hpcovers⟩ := exists_ofInt (natAbs_toInt_le a)
  obtain ⟨d, hd, hdcovers⟩ := exists_ofInt (natAbs_toInt_le b)
  have hone : (1 : ℚ) ≤ d.val := by
    have hle := hdcovers.natCast_le_val (k := 1) (by decide) (by exact_mod_cast (by omega))
    exact_mod_cast hle
  have hsignificand : d.significand ≠ 0 := by
    intro hzero
    rw [Magnitude.val, hzero, Nat.cast_zero, zero_mul] at hone
    linarith
  have hsize : p.val ≤ 2 ^ 63 := hpcovers.le_two_pow (natAbs_toInt_le_cast a)
  have hval : (p.ratio.divide d.ratio).val = p.val / d.val := by
    rw [Ratio.val_divide, p.val_ratio, d.val_ratio]
  have hden : 0 < (p.ratio.divide d.ratio).den := by
    have hpden : 0 < p.ratio.den := Ratio.den_scale_pos Nat.one_pos (by decide) _
    have hdnum : 0 < d.ratio.num :=
      Nat.mul_pos (Nat.pos_of_ne_zero hsignificand) (Nat.pow_pos (by decide))
    exact Nat.mul_pos hpden hdnum
  have hlt : (p.ratio.divide d.ratio).val < 2 ^ (971 + (53 - 1) : Int) :=
    calc (p.ratio.divide d.ratio).val ≤ p.val := hval ▸ div_le_self p.val_nonneg hone
      _ ≤ 2 ^ (63 : Int) := by exact_mod_cast hsize
      _ < 2 ^ (971 + (53 - 1) : Int) := zpow_lt_zpow_right₀ one_lt_two (by decide)
  obtain ⟨q, hq⟩ := Magnitude.exists_round? (f := .double) (by decide) (by decide) hden hlt
  have hqcovers := Magnitude.covers_of_round? (by decide) hden hq
  rw [hval] at hqcovers
  refine ⟨p, d, q, hpcovers, hdcovers, hqcovers, ?_⟩
  rw [floorQuotient, hp, hd, Binary.divide, if_pos hsignificand, Binary.ofRatio, hq,
    Binary.toInt_floorInt64]
  by_cases hneg : a.toInt < 0 <;> by_cases hneg' : b.toInt < 0 <;> simp [hneg, hneg']

theorem div_eq_signed (m n : Int) : (m : ℚ) / n =
    if m < 0 ↔ n < 0 then (m.natAbs : ℚ) / n.natAbs else -((m.natAbs : ℚ) / n.natAbs) := by
  have habs : ∀ k : Int, ((k.natAbs : Nat) : ℚ) = if k < 0 then -(k : ℚ) else k := by
    intro k
    split
    · rename_i h
      rw [Nat.cast_natAbs, abs_of_neg h, Int.cast_neg]
    · rename_i h
      rw [Nat.cast_natAbs, abs_of_nonneg (not_lt.1 h)]
  rw [habs, habs]
  by_cases hm : m < 0 <;> by_cases hn : n < 0 <;> simp [hm, hn, neg_div, div_neg]

theorem saturate_floor_div {m n : Int} (hm : m.natAbs < 2 ^ 53) (hn : n ≠ 0) :
    saturate ⌊(m : ℚ) / n⌋ = ⌊(m : ℚ) / n⌋ := by
  have hone : (1 : ℚ) ≤ |(n : ℚ)| := by
    have habs : 1 ≤ |n| := Int.one_le_abs hn
    exact_mod_cast habs
  have hsize : |(m : ℚ)| ≤ 2 ^ 53 := by
    have habs : |m| ≤ 2 ^ 53 := by
      rw [Int.abs_eq_natAbs]
      omega
    exact_mod_cast habs
  have hle : |(m : ℚ) / n| ≤ 2 ^ 53 := by
    rw [abs_div]
    exact (div_le_self (abs_nonneg _) hone).trans hsize
  obtain ⟨hlow, hhigh⟩ := abs_le.1 hle
  have hlow' : -2 ^ 53 ≤ ⌊(m : ℚ) / n⌋ := Int.le_floor.2 (by push_cast; exact hlow)
  have hhigh' : ⌊(m : ℚ) / n⌋ ≤ 2 ^ 53 := by
    have hfloor := (Int.floor_le ((m : ℚ) / n)).trans hhigh
    exact_mod_cast hfloor
  unfold saturate
  omega

theorem toInt_floorQuotient (hb : b.toInt ≠ 0) (ha : a.toInt.natAbs < 2 ^ 53) :
    (floorQuotient a b).toInt = ⌊(a.toInt : ℚ) / b.toInt⌋ := by
  obtain ⟨p, d, q, hp, hd, hq, hfloor⟩ := exists_floorQuotient (a := a) hb
  have hdivisor : 0 < b.toInt.natAbs := by omega
  rw [hp.val_eq_natAbs (fitsDouble_of_le ha.le) (natAbs_toInt_le a)] at hq
  have halike : AlikeToWhole q.val ((a.toInt.natAbs : ℚ) / b.toInt.natAbs) := by
    rcases le_or_gt b.toInt.natAbs (2 ^ 53) with hsmall | hlarge
    · rw [hd.val_eq_natAbs (fitsDouble_of_le hsmall) (natAbs_toInt_le b)] at hq
      exact hq.alike_of_exact ha hdivisor (natAbs_toInt_le b)
    · have hlarge : 2 ^ 53 ≤ b.toInt.natAbs := by omega
      have hlargeq : (2 : ℚ) ^ 53 ≤ b.toInt.natAbs := by exact_mod_cast hlarge
      exact hq.alike_of_large ha (hd.two_pow_le hlargeq) (hd.le_two_pow (natAbs_toInt_le_cast b))
        hlarge
  obtain ⟨hpositive, hnegative⟩ := halike.floor_eq q.val_nonneg
    (div_nonneg (Nat.cast_nonneg _) (Nat.cast_nonneg _))
  have hexact : (if a.toInt < 0 ↔ b.toInt < 0 then ⌊q.val⌋ else ⌊-q.val⌋) =
      ⌊(a.toInt : ℚ) / b.toInt⌋ := by
    rw [div_eq_signed a.toInt b.toInt, hpositive, hnegative]
    split <;> rfl
  rw [hfloor, hexact, saturate_floor_div ha hb]

end Floor

end BlockConfig
