import Tabularium.Json.Reader
import Tabularium.Proofs.Numeric.Rounding

namespace Tabularium

namespace Draft

open Binary64

/-- A significand and a power of ten, both rounded, have a product below the overflow. -/
def Multiplies (significand exponent : Nat) : Prop :=
  (ofInt significand).isFinite = true ∧ (powerOfTen exponent).isFinite = true
    ∧ 2 * ((ofInt significand).units * (powerOfTen exponent).units * Nat.pow 2 1074)
      < overflow productUnit

instance (significand exponent : Nat) : Decidable (Multiplies significand exponent) :=
  inferInstanceAs (Decidable (_ ∧ _))

theorem ofInt_mono {a b : Nat} (hab : a ≤ b) (hb : (ofInt b).isFinite = true) :
    (ofInt a).isFinite = true ∧ (ofInt a).units ≤ (ofInt b).units := by
  have eq : ∀ n : Nat, ofInt n = ofRatio false n 1 := by
    intro n
    unfold ofInt
    rw [Int.natAbs_natCast, decide_eq_false (by omega)]
  rw [eq] at hb ⊢
  rw [eq]
  exact ofRatio_units_mono one_ne_zero hab hb

theorem powerOfTen_mono {a b : Nat} (hab : a ≤ b) (hb : (powerOfTen b).isFinite = true) :
    (powerOfTen a).isFinite = true ∧ (powerOfTen a).units ≤ (powerOfTen b).units := by
  have hpow : Nat.pow 10 a ≤ Nat.pow 10 b := Nat.pow_le_pow_right (by omega) hab
  exact ofRatio_units_mono one_ne_zero hpow hb

theorem Multiplies.mono {s t d e : Nat} (h : Multiplies t e) (hs : s ≤ t) (hd : d ≤ e) :
    Multiplies s d := by
  obtain ⟨ht, he, hproduct⟩ := h
  obtain ⟨hsf, hsu⟩ := ofInt_mono hs ht
  obtain ⟨hdf, hdu⟩ := powerOfTen_mono hd he
  refine ⟨hsf, hdf, lt_of_le_of_lt ?_ hproduct⟩
  exact Nat.mul_le_mul_left _ (Nat.mul_le_mul_right _ (Nat.mul_le_mul hsu hdu))

theorem Multiplies.scaleNumber?_some {s e : Nat} (h : Multiplies s e) (he : e ≤ 308) :
    ∃ y, scaleNumber? s e = some y := by
  have hproduct := mulAbs_isFinite h.2.2
  unfold scaleNumber?
  rw [if_neg (by omega), if_neg (by omega)]
  simp only [Int.toNat_natCast, hproduct, if_true]
  exact ⟨_, rfl⟩

/-- Every significand up to a cap can be scaled by every power of ten that keeps it below a bound.
Up to the power of ten at `top` the cap is the narrower one of the two. -/
def Scalable (bound cap top : Nat) : Prop :=
  bound < 10 ^ 309 ∧ Multiplies cap top ∧ ∀ e < 309, top < e → Multiplies (bound / 10 ^ e) e

instance (bound cap top : Nat) : Decidable (Scalable bound cap top) :=
  inferInstanceAs (Decidable (_ ∧ _ ∧ _))

theorem Scalable.scaleNumber?_some {bound cap top s : Nat} {e : Int} (h : Scalable bound cap top)
    (hcap : s ≤ cap) (hbound : 0 ≤ e → s * 10 ^ e.toNat ≤ bound) :
    ∃ y, scaleNumber? s e = some y := by
  obtain ⟨hlimit, htop, hrest⟩ := h
  rcases Int.lt_or_le e 0 with hneg | hpos
  · unfold scaleNumber?
    rw [if_pos hneg]
    exact ⟨_, rfl⟩
  obtain ⟨n, rfl⟩ := Int.eq_ofNat_of_zero_le hpos
  have hbound : s * 10 ^ n ≤ bound := hbound hpos
  rcases Nat.lt_or_ge 308 n with hlarge | hsmall
  · -- only zero is left below the bound
    have hzero : s = 0 := by
      by_contra hs
      have : 10 ^ 309 ≤ s * 10 ^ n := by
        calc 10 ^ 309 ≤ 10 ^ n := Nat.pow_le_pow_right (by omega) hlarge
          _ ≤ s * 10 ^ n := Nat.le_mul_of_pos_left _ (Nat.pos_of_ne_zero hs)
      exact absurd hlimit (not_lt.mpr (this.trans hbound))
    subst hzero
    have hz : (ofInt (0 : Nat)).isZero = true := by decide +kernel
    unfold scaleNumber?
    rw [if_neg (by omega), if_pos (by omega), if_pos hz]
    exact ⟨_, rfl⟩
  · rcases Nat.lt_or_ge top n with hlt | hle
    · have hquotient : s ≤ bound / 10 ^ n :=
        (Nat.le_div_iff_mul_le (Nat.pow_pos (by omega))).mpr hbound
      exact ((hrest n (by omega) hlt).mono hquotient le_rfl).scaleNumber?_some hsmall
    · exact (htop.mono hcap hle).scaleNumber?_some hsmall

end Draft

end Tabularium
