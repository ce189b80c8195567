import Mathlib.Algebra.Order.Ring.Nat
import Mathlib.Tactic.Ring
import Tabularium.Numeric.Shortest

namespace Tabularium

namespace Decimal

/-- The value of a decimal is at most a natural number. -/
def AtMost (bound : Nat) (d : Decimal) : Prop :=
  d.digits * 10 ^ d.exponent.toNat ≤ bound * 10 ^ (-d.exponent).toNat

/-- Only a whole number may have no digit but zero. -/
def Plain (d : Decimal) : Prop :=
  d.digits = 0 → d.exponent = 0

variable {bound fuel : Nat} {d : Decimal}

theorem AtMost.shift (h : d.AtMost bound) (hd : d.digits % 10 = 0) :
    (⟨d.digits / 10, d.exponent + 1⟩ : Decimal).AtMost bound := by
  obtain ⟨digits, exponent⟩ := d
  unfold AtMost at h ⊢
  dsimp only at h hd ⊢
  obtain ⟨k, rfl⟩ := Nat.dvd_of_mod_eq_zero hd
  have hk : 10 * k / 10 = k := by omega
  rw [hk]
  rcases Int.lt_or_le exponent 0 with hneg | hpos
  · have hlast : (-exponent).toNat = (-(exponent + 1)).toNat + 1 := by omega
    have hz : exponent.toNat = 0 := by omega
    have hz' : (exponent + 1).toNat = 0 := by omega
    rw [hz, hlast, Nat.pow_succ, ← Nat.mul_assoc] at h
    rw [hz']
    omega
  · have hnext : (exponent + 1).toNat = exponent.toNat + 1 := by omega
    have hz : (-exponent).toNat = 0 := by omega
    have hz' : (-(exponent + 1)).toNat = 0 := by omega
    rw [hz] at h
    rw [hz', hnext, Nat.pow_succ]
    calc k * (10 ^ exponent.toNat * 10) = 10 * k * 10 ^ exponent.toNat := by ring
      _ ≤ bound * 10 ^ 0 := h

theorem AtMost.dropZeros (h : d.AtMost bound) : (dropZeros fuel d).AtMost bound := by
  fun_induction Decimal.dropZeros fuel d with
  | case1 => exact h
  | case2 fuel d hd ih => exact ih (h.shift hd.2)
  | case3 => exact h

theorem Plain.dropZeros (h : d.Plain) : (dropZeros fuel d).Plain := by
  fun_induction Decimal.dropZeros fuel d with
  | case1 => exact h
  | case2 fuel d hd ih =>
    refine ih fun hz => ?_
    have hten : d.digits / 10 = 0 := hz
    omega
  | case3 => exact h

end Decimal

namespace Binary64

theorem scaledBy_neg (n den : Nat) (e : Int) :
    scaledBy n den (-e) = (n * 10 ^ (-e).toNat, den * 10 ^ e.toNat) := by
  unfold scaledBy
  split
  next h =>
    have hz : e.toNat = 0 := by omega
    rw [hz, Nat.pow_zero, Nat.mul_one, Nat.pow_eq]
  next h =>
    have hz : (-e).toNat = 0 := by omega
    rw [hz, Nat.pow_zero, Nat.mul_one, Int.neg_neg, Nat.pow_eq]

variable {r : Rounding} {tie : Tie} {e : Int} {d : Decimal}

/-- A decimal that is taken from a grid lies between the least and the greatest value. -/
theorem nearestOnGrid_some (h : nearestOnGrid r tie e = some d) :
    d.exponent = e ∧ r.low * 10 ^ (-e).toNat ≤ d.digits * (r.den * 10 ^ e.toNat)
      ∧ d.digits * (r.den * 10 ^ e.toNat) ≤ r.high * 10 ^ (-e).toNat := by
  unfold nearestOnGrid at h
  simp -zeta only [scaledBy_neg] at h
  extract_lets k hits down up at h
  have sound : ∀ j, hits j = true → r.low * 10 ^ (-e).toNat ≤ j * (r.den * 10 ^ e.toNat)
      ∧ j * (r.den * 10 ^ e.toNat) ≤ r.high * 10 ^ (-e).toNat := by
    intro j hj
    unfold hits at hj
    split at hj
    · simpa using hj
    · simp only [Bool.and_eq_true, decide_eq_true_eq] at hj
      exact ⟨hj.1.le, hj.2.le⟩
  split at h
  next hboth =>
    rw [Bool.and_eq_true] at hboth
    cases h
    refine ⟨rfl, ?_⟩
    dsimp only
    split
    · exact sound k hboth.1
    · exact sound (k + 1) hboth.2
  next =>
    split at h
    next hk => cases h; exact ⟨rfl, sound k hk⟩
    next =>
      split at h
      next hk => cases h; exact ⟨rfl, sound (k + 1) hk⟩
      next => simp at h

/-- What the greatest value allows holds of the decimal, and it is plain. -/
theorem firstGrid_bounded {bound fuel : Nat} (hden : 0 < r.den) (hlow : 0 < r.low)
    (hvalue : r.value ≤ r.high) (hhigh : r.high ≤ bound * r.den) :
    (firstGrid r tie e fuel).AtMost bound ∧ (firstGrid r tie e fuel).Plain := by
  fun_induction firstGrid r tie e fuel with
  | case1 e =>
    refine ⟨?_, fun _ => rfl⟩
    have hle : r.value / r.den ≤ bound :=
      Nat.div_le_of_le_mul (by rw [Nat.mul_comm]; exact hvalue.trans hhigh)
    simpa [Decimal.AtMost] using hle
  | case2 e fuel d hd =>
    obtain ⟨rfl, hl, hh⟩ := nearestOnGrid_some hd
    refine ⟨Decimal.AtMost.dropZeros ?_, Decimal.Plain.dropZeros fun hz => ?_⟩
    · refine Nat.le_of_mul_le_mul_right ?_ hden
      calc d.digits * 10 ^ d.exponent.toNat * r.den
          = d.digits * (r.den * 10 ^ d.exponent.toNat) := by ring
        _ ≤ r.high * 10 ^ (-d.exponent).toNat := hh
        _ ≤ bound * r.den * 10 ^ (-d.exponent).toNat := Nat.mul_le_mul_right _ hhigh
        _ = bound * 10 ^ (-d.exponent).toNat * r.den := by ring
    · rw [hz, Nat.zero_mul] at hl
      have hpos : 0 < r.low * 10 ^ (-d.exponent).toNat :=
        Nat.mul_pos hlow (Nat.pow_pos (by omega))
      omega
  | case3 e fuel hnone ih => exact ih

/-- The middle between the largest finite number and the one before it. -/
def ordinaryBound : Nat := (2 ^ 54 - 3) * 2 ^ 970

theorem ordinaryBound_scaled : (2 ^ 54 - 3) * (2 * 2 ^ 2045) = ordinaryBound * Nat.pow 2 1076 := by
  decide +kernel

/-- The word of the largest finite number without its sign. -/
def largestWord : Nat := 2047 * 2 ^ 52 - 1

/-- The greatest value that is rounded to a significand on a grid. -/
theorem high_le {m s top : Nat} (hs : s ≤ top) (hm : m < 2 ^ 53) (htop : s = top → m + 1 < 2 ^ 53) :
    (4 * m + 2) * 2 ^ s ≤ (2 ^ 54 - 3) * (2 * 2 ^ top) := by
  rcases hs.eq_or_lt with rfl | hlt
  · have := htop rfl
    calc (4 * m + 2) * 2 ^ s ≤ ((2 ^ 54 - 3) * 2) * 2 ^ s := Nat.mul_le_mul_right _ (by omega)
      _ = (2 ^ 54 - 3) * (2 * 2 ^ s) := Nat.mul_assoc ..
  · calc (4 * m + 2) * 2 ^ s ≤ ((2 ^ 54 - 3) * 4) * 2 ^ s := Nat.mul_le_mul_right _ (by omega)
      _ = (2 ^ 54 - 3) * (2 * 2 ^ (s + 1)) := by ring
      _ ≤ (2 ^ 54 - 3) * (2 * 2 ^ top) := by
        have := Nat.pow_le_pow_right (n := 2) (by omega) hlt
        omega

/-- Every decimal but the one of the largest finite number stays below the middle between that
number and the one before it. -/
theorem shortest_bounded {x : Binary64} (hx : x.magnitude < largestWord) :
    (x.shortest tie).AtMost ordinaryBound ∧ (x.shortest tie).Plain := by
  unfold shortest
  split
  · exact ⟨by simp [Decimal.AtMost], fun _ => rfl⟩
  next hz =>
    have hzero : x.magnitude ≠ 0 := by simpa [isZero] using hz
    have hsplit := Nat.div_add_mod x.magnitude (2 ^ 52)
    have hexponent : x.exponentField = x.magnitude / 2 ^ 52 := rfl
    have hfraction : x.fraction = x.magnitude % 2 ^ 52 := rfl
    have hscale : x.scale = x.exponentField - 1 := rfl
    unfold largestWord at hx
    have hsig : 0 < x.significand ∧ x.significand < 2 ^ 53
        ∧ (x.scale = 2045 → x.significand + 1 < 2 ^ 53) := by
      unfold significand
      simp only [Nat.pow_eq]
      split <;> omega
    have hpos : 0 < Nat.pow 2 x.scale := Nat.two_pow_pos x.scale
    have hden : x.rounding.den = Nat.pow 2 1076 := by
      unfold rounding
      dsimp only
    refine firstGrid_bounded (by rw [hden]; decide +kernel) ?_ ?_ ?_
    · refine Nat.mul_pos ?_ hpos
      split <;> omega
    · exact Nat.mul_le_mul_right _ (by omega)
    · have hle := @high_le _ x.scale 2045 (by omega) hsig.2.1 hsig.2.2
      rw [ordinaryBound_scaled, ← hden] at hle
      exact hle

/-- The decimal of the largest finite number. -/
def largestDecimal : Decimal := ⟨17976931348623157, 292⟩

theorem shortest_largest {x : Binary64} (hx : x.magnitude = largestWord) :
    x.shortest .even = largestDecimal := by
  have hbits := x.bits.toNat_lt
  unfold magnitude at hx
  simp only [Nat.pow_eq] at hx
  unfold largestWord at hx
  have hcases : x = ⟨0x7FEFFFFFFFFFFFFF⟩ ∨ x = ⟨0xFFEFFFFFFFFFFFFF⟩ := by
    obtain ⟨bits⟩ := x
    simp only [Binary64.mk.injEq, ← UInt64.toNat_inj]
    have h₁ : (0x7FEFFFFFFFFFFFFF : UInt64).toNat = 0x7FEFFFFFFFFFFFFF := by decide
    have h₂ : (0xFFEFFFFFFFFFFFFF : UInt64).toNat = 0xFFEFFFFFFFFFFFFF := by decide
    dsimp only at hx hbits
    omega
  rcases hcases with rfl | rfl <;> decide +kernel

end Binary64

end Tabularium
