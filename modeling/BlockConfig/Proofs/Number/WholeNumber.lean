import BlockConfig.Proofs.Number.Nearest
import Mathlib.Algebra.Order.Floor.Ring
import Mathlib.Data.Rat.Floor

set_option autoImplicit false

/-!
Whole numbers in double precision. Those of 53 binary digits with zeros behind them are kept, and no
rounding goes past one; so a quotient of a numerator of 53 digits is rounded to a whole number only
where it is one.
-/

namespace BlockConfig

/-- Whether double precision has the whole number: it has 53 binary digits and then only zeros. -/
def FitsDouble (n : Int) : Prop := ∃ s t : Nat, s < 2 ^ 53 ∧ n.natAbs = s * 2 ^ t

theorem fitsDouble_of_le {n : Int} (h : n.natAbs ≤ 2 ^ 53) : FitsDouble n := by
  rcases h.lt_or_eq with hlt | heq
  · exact ⟨n.natAbs, 0, hlt, (Nat.mul_one _).symm⟩
  · exact ⟨1, 53, by decide, by rw [heq, Nat.one_mul]⟩

namespace Magnitude

variable {m : Magnitude .double} {x : ℚ}

theorem exists_val_natAbs {n : Int} (h : FitsDouble n) (hn : n.natAbs ≤ 2 ^ 63) :
    ∃ m : Magnitude .double, m.val = n.natAbs := by
  obtain ⟨s, t, hs, hst⟩ := h
  obtain ⟨t, hlt, hst⟩ : ∃ t : Nat, t < 64 ∧ n.natAbs = s * 2 ^ t := by
    rcases Nat.eq_zero_or_pos s with rfl | hpos
    · exact ⟨0, by decide, by omega⟩
    · refine ⟨t, ?_, hst⟩
      have hle : 2 ^ t ≤ 2 ^ 63 := (Nat.le_mul_of_pos_left _ hpos).trans (hst ▸ hn)
      have := (Nat.pow_le_pow_iff_right (by decide)).1 hle
      omega
  have hleast : Format.double.least ≤ t := by
    simp only [Format.double]
    omega
  have hgreatest : (t : Int) < Format.double.greatest := by
    simp only [Format.double]
    omega
  obtain ⟨m, hm⟩ := exists_val (f := .double) (by decide) hs hleast hgreatest
  refine ⟨m, ?_⟩
  rw [hm, hst, zpow_natCast]
  push_cast
  rfl

theorem Covers.natAbs_le_val (h : m.Covers x) {n : Int} (hfits : FitsDouble n)
    (hn : n.natAbs ≤ 2 ^ 63) (hx : (n.natAbs : ℚ) ≤ x) : (n.natAbs : ℚ) ≤ m.val := by
  obtain ⟨k, hk⟩ := exists_val_natAbs hfits hn
  rw [← hk] at hx ⊢
  exact h.val_le (by decide) hx

theorem Covers.val_le_natAbs (h : m.Covers x) {n : Int} (hfits : FitsDouble n)
    (hn : n.natAbs ≤ 2 ^ 63) (hx : x ≤ n.natAbs) : m.val ≤ n.natAbs := by
  obtain ⟨k, hk⟩ := exists_val_natAbs hfits hn
  rw [← hk] at hx ⊢
  exact h.le_val hx

theorem Covers.natCast_le_val (h : m.Covers x) {k : Nat} (hk : k ≤ 2 ^ 53) (hx : (k : ℚ) ≤ x) :
    (k : ℚ) ≤ m.val :=
  h.natAbs_le_val (n := k) (fitsDouble_of_le (by simpa using hk)) (by simp; omega) (by simpa using hx)

theorem Covers.val_le_natCast (h : m.Covers x) {k : Nat} (hk : k ≤ 2 ^ 53) (hx : x ≤ k) :
    m.val ≤ k :=
  h.val_le_natAbs (n := k) (fitsDouble_of_le (by simpa using hk)) (by simp; omega) (by simpa using hx)

theorem Covers.val_eq_natAbs {n : Int} (h : m.Covers n.natAbs) (hfits : FitsDouble n)
    (hn : n.natAbs ≤ 2 ^ 63) : m.val = n.natAbs :=
  le_antisymm (h.val_le_natAbs hfits hn le_rfl) (h.natAbs_le_val hfits hn le_rfl)

theorem Covers.two_pow_le (h : m.Covers x) (hx : 2 ^ 53 ≤ x) : 2 ^ 53 ≤ m.val := by
  have hcast : ((2 ^ 53 : Nat) : ℚ) = 2 ^ 53 := by norm_num
  rw [← hcast] at hx ⊢
  exact h.natCast_le_val le_rfl hx

theorem Covers.le_two_pow (h : m.Covers x) (hx : x ≤ 2 ^ 63) : m.val ≤ 2 ^ 63 := by
  have hcast : (((2 ^ 63 : Int).natAbs : Nat) : ℚ) = 2 ^ 63 := by norm_num
  rw [← hcast] at hx ⊢
  exact h.val_le_natAbs ⟨1, 63, by decide, by decide⟩ (by decide) hx

theorem fitsDouble_floor (m : Magnitude .double) : FitsDouble ⌊m.val⌋ := by
  rcases le_or_gt 0 m.exponent with hnonneg | hneg
  · obtain ⟨t, ht⟩ := Int.eq_ofNat_of_zero_le hnonneg
    refine ⟨m.significand, t, m.fits.1, ?_⟩
    have hval : m.val = (m.significand * 2 ^ t : Nat) := by
      rw [val, ht]
      push_cast
      rw [zpow_natCast]
    rw [hval, Int.floor_natCast, Int.natAbs_natCast]
  · refine fitsDouble_of_le ?_
    have hlt : m.val < 2 ^ (53 : Int) := m.val_lt_zpow.trans_le
      (zpow_le_zpow_right₀ one_le_two (by simp only [Format.double]; omega))
    have hfloor : ⌊m.val⌋ < 2 ^ 53 := Int.floor_lt.2 (by exact_mod_cast hlt)
    have hzero : 0 ≤ ⌊m.val⌋ := Int.floor_nonneg.2 m.val_nonneg
    omega

end Magnitude

theorem exists_ofInt {n : Int} (hn : n.natAbs ≤ 2 ^ 63) : ∃ m : Magnitude .double,
    Binary.ofInt .double n = .finite (n < 0) m ∧ m.Covers n.natAbs := by
  have hval : (Ratio.ofNat n.natAbs).val = n.natAbs := Ratio.val_ofNat _
  have hlt : (Ratio.ofNat n.natAbs).val < 2 ^ (971 + (53 - 1) : Int) := by
    have hle : ((n.natAbs : Nat) : ℚ) ≤ 2 ^ (63 : Int) := by exact_mod_cast hn
    rw [hval]
    exact hle.trans_lt (zpow_lt_zpow_right₀ one_lt_two (by decide))
  obtain ⟨m, hm⟩ := Magnitude.exists_round? (f := .double) (by decide) (by decide) Nat.one_pos hlt
  have hcovers := Magnitude.covers_of_round? (by decide) Nat.one_pos hm
  rw [hval] at hcovers
  exact ⟨m, by rw [Binary.ofInt, Binary.ofRatio, hm], hcovers⟩

def AlikeToWhole (x y : ℚ) : Prop := ∀ k : Nat, ((k : ℚ) ≤ x ↔ k ≤ y) ∧ (x ≤ k ↔ y ≤ k)

namespace AlikeToWhole

variable {x y : ℚ}

theorem symm (h : AlikeToWhole x y) : AlikeToWhole y x := fun k => ⟨(h k).1.symm, (h k).2.symm⟩

theorem floor_le (h : AlikeToWhole x y) (hx : 0 ≤ x) : ⌊x⌋ ≤ ⌊y⌋ := by
  obtain ⟨k, hk⟩ := Int.eq_ofNat_of_zero_le (Int.floor_nonneg.2 hx)
  have hle : (k : ℚ) ≤ x := by
    have hfloor := Int.floor_le x
    rw [hk] at hfloor
    exact_mod_cast hfloor
  rw [hk, Int.le_floor]
  exact_mod_cast (h k).1.1 hle

theorem ceil_le (h : AlikeToWhole x y) (hy : 0 ≤ y) : ⌈x⌉ ≤ ⌈y⌉ := by
  obtain ⟨k, hk⟩ := Int.eq_ofNat_of_zero_le (Int.ceil_nonneg hy)
  have hle : y ≤ k := by
    have hceil := Int.le_ceil y
    rw [hk] at hceil
    exact_mod_cast hceil
  rw [hk, Int.ceil_le]
  exact_mod_cast (h k).2.2 hle

theorem floor_eq (h : AlikeToWhole x y) (hx : 0 ≤ x) (hy : 0 ≤ y) :
    ⌊x⌋ = ⌊y⌋ ∧ ⌊-x⌋ = ⌊-y⌋ := by
  rw [Int.floor_neg, Int.floor_neg, neg_inj]
  exact ⟨le_antisymm (h.floor_le hx) (h.symm.floor_le hy),
    le_antisymm (h.ceil_le hy) (h.symm.ceil_le hx)⟩

theorem of_lt_one (hx : 0 ≤ x ∧ x < 1) (hy : 0 ≤ y ∧ y < 1) (hzero : x ≤ 0 ↔ y ≤ 0) :
    AlikeToWhole x y := by
  intro k
  rcases Nat.eq_zero_or_pos k with rfl | hpos
  · rw [Nat.cast_zero]
    exact ⟨iff_of_true hx.1 hy.1, hzero⟩
  · have hk : (1 : ℚ) ≤ k := by exact_mod_cast hpos
    exact ⟨iff_of_false (by linarith) (by linarith), iff_of_true (by linarith) (by linarith)⟩

end AlikeToWhole

namespace Magnitude

variable {q : Magnitude .double} {p d : Nat}

/-- A fraction whose numerator has 53 digits is rounded to a whole number only if it is that number:
any other is off by more than the rounding can be. -/
theorem Covers.eq_of_whole (h : q.Covers ((p : ℚ) / d)) (hp : p < 2 ^ 53) (hd : 0 < d) {k : Nat}
    (hk : 0 < k) (hq : q.val = k) : (p : ℚ) / d = k := by
  have hdq : (0 : ℚ) < d := by exact_mod_cast hd
  have hkq : (1 : ℚ) ≤ k := by exact_mod_cast hk
  have hfull : q.exponent ≠ Format.double.least := by
    intro hleast
    have hlt := q.val_lt_zpow
    have hone : (2 : ℚ) ^ (q.exponent + Format.double.precision) ≤ 1 :=
      zpow_le_one_of_nonpos₀ one_le_two (by simp only [hleast, Format.double]; omega)
    linarith
  obtain ⟨hlow, hhigh⟩ := h.relative (by decide) hfull
  have hprecision : Format.double.precision = 53 := rfl
  rw [hq, hprecision, div_mul_eq_mul_div] at hlow hhigh
  rw [lt_div_iff₀ hdq] at hlow
  rw [div_le_iff₀ hdq] at hhigh
  have hlow' : k * d * (2 ^ 53 - 1) < p * 2 ^ 53 := by
    have hcast : (((k * d : Nat) : Int) : ℚ) * (2 ^ 53 - 1) < (p : Int) * 2 ^ 53 := by
      push_cast
      linarith
    have hint : ((k * d : Nat) : Int) * (2 ^ 53 - 1) < (p : Int) * 2 ^ 53 := by exact_mod_cast hcast
    omega
  have hhigh' : p * 2 ^ 53 ≤ k * d * (2 ^ 53 + 1) := by
    have hcast : ((p * 2 ^ 53 : Nat) : ℚ) ≤ ((k * d * (2 ^ 53 + 1) : Nat) : ℚ) := by
      push_cast
      linarith
    exact_mod_cast hcast
  have heq : p = k * d := by omega
  rw [div_eq_iff hdq.ne', heq]
  push_cast
  rfl

theorem Covers.val_pos {x : ℚ} (h : q.Covers x) (hx : (2 : ℚ) ^ (-64 : Int) ≤ x) : 0 < q.val := by
  obtain ⟨m, hm⟩ := exists_val (f := .double) (by decide) (s := 1) (e := -64) (by decide) (by decide)
    (by decide)
  have hval : m.val = 2 ^ (-64 : Int) := by rw [hm, Nat.cast_one, one_mul]
  have hle := h.val_le (by decide) (hval ▸ hx)
  exact (two_zpow_pos (-64)).trans_le (hval ▸ hle)

theorem zpow_le_quotient {x : ℚ} (hp : 0 < p) (hx : 0 < x) (hx' : x ≤ 2 ^ 63) :
    (2 : ℚ) ^ (-64 : Int) ≤ p / x := by
  have hpq : (1 : ℚ) ≤ p := by exact_mod_cast hp
  rw [le_div_iff₀ hx]
  calc (2 : ℚ) ^ (-64 : Int) * x ≤ 2 ^ (-64 : Int) * 2 ^ 63 := by gcongr
    _ ≤ 1 := by norm_num
    _ ≤ p := hpq

theorem Covers.alike_of_exact (h : q.Covers ((p : ℚ) / d)) (hp : p < 2 ^ 53) (hd : 0 < d)
    (hd' : d ≤ 2 ^ 63) : AlikeToWhole q.val (p / d) := by
  have hdq : (1 : ℚ) ≤ d := by exact_mod_cast hd
  have hle : (p : ℚ) / d ≤ p := div_le_self (Nat.cast_nonneg p) hdq
  have hpq : (p : ℚ) < 2 ^ 53 := by exact_mod_cast hp
  -- one side of each equivalence is that no rounding goes past a whole number
  have hup : ∀ k : Nat, (k : ℚ) ≤ p / d → (k : ℚ) ≤ q.val := by
    intro k hk
    have hlt : (k : ℚ) < 2 ^ 53 := by linarith
    exact h.natCast_le_val (by exact_mod_cast hlt.le) hk
  have hdown : ∀ k : Nat, (p : ℚ) / d ≤ k → q.val ≤ k := by
    intro k hk
    rcases Nat.le_total k (2 ^ 53) with hsmall | hlarge
    · exact h.val_le_natCast hsmall hk
    · have hlarge' : ((2 ^ 53 : Nat) : ℚ) ≤ k := by exact_mod_cast hlarge
      refine (h.val_le_natCast (le_refl _) ?_).trans hlarge'
      push_cast
      linarith
  refine fun k => ⟨⟨fun hk => ?_, hup k⟩, ⟨fun hk => ?_, hdown k⟩⟩
  · by_contra hlt
    have heq : q.val = k := le_antisymm (hdown k (not_le.1 hlt).le) hk
    rcases Nat.eq_zero_or_pos k with rfl | hpos
    · exact hlt (by positivity)
    · exact hlt (h.eq_of_whole hp hd hpos heq).ge
  · by_contra hlt
    have heq : q.val = k := le_antisymm hk (hup k (not_le.1 hlt).le)
    rcases Nat.eq_zero_or_pos k with rfl | hpos
    · rw [Nat.cast_zero] at heq hlt
      have hnum : 0 < p := by
        rcases Nat.eq_zero_or_pos p with rfl | hpos
        · exact absurd (by rw [Nat.cast_zero, zero_div]) hlt
        · exact hpos
      have hpos := h.val_pos (zpow_le_quotient hnum (by linarith) (by exact_mod_cast hd'))
      linarith
    · exact hlt (h.eq_of_whole hp hd hpos heq).le

theorem Covers.alike_of_large {x : ℚ} (h : q.Covers (p / x)) (hp : p < 2 ^ 53)
    (hx : 2 ^ 53 ≤ x) (hx' : x ≤ 2 ^ 63) (hd : 2 ^ 53 ≤ d) : AlikeToWhole q.val (p / d) := by
  have hpq : (p : ℚ) + 1 ≤ 2 ^ 53 := by exact_mod_cast hp
  have hdq : (2 : ℚ) ^ 53 ≤ d := by exact_mod_cast hd
  have hpos : (0 : ℚ) < 2 ^ 53 := by positivity
  have hquotient : (p : ℚ) / d < 1 := (div_lt_one (by linarith)).2 (by linarith)
  have hrounded : q.val < 1 := by
    obtain ⟨m, hm⟩ := exists_val (f := .double) (by decide) (s := 2 ^ 53 - 1) (e := -53) (by decide)
      (by decide) (by decide)
    have hval : m.val = (2 ^ 53 - 1) / 2 ^ 53 := by
      rw [hm]
      norm_num
    have hle : (p : ℚ) / x ≤ m.val := by
      rw [hval]
      exact div_le_div₀ (by norm_num) (by linarith) hpos hx
    refine (h.le_val hle).trans_lt ?_
    rw [hval]
    norm_num
  refine .of_lt_one ⟨q.val_nonneg, hrounded⟩ ⟨by positivity, hquotient⟩ ?_
  rcases Nat.eq_zero_or_pos p with rfl | hnum
  · rw [Nat.cast_zero, zero_div] at h ⊢
    have hzero := h.val_le_natCast (k := 0) (by decide) (by rw [Nat.cast_zero])
    exact iff_of_true (by simpa using hzero) le_rfl
  · have hval := h.val_pos (zpow_le_quotient hnum (by linarith) hx')
    have hnumq : (0 : ℚ) < p := by exact_mod_cast hnum
    exact iff_of_false (not_le.2 hval) (not_le.2 (div_pos hnumq (by linarith)))

end Magnitude

end BlockConfig
