import Mathlib.Algebra.Order.Ring.Nat
import Mathlib.Tactic.Ring
import Tabularium.Numeric.Binary64

namespace Tabularium

namespace Binary64

/-- The absolute value of a finite number, counted in the least positive number. -/
def units (x : Binary64) : Nat :=
  x.significand * 2 ^ x.scale

/-- The grid with cells of `2 ^ step` fits a quotient: it has at most 53 binary digits there, and
no less unless the grid is the finest one. -/
structure Grid (num den step : Nat) : Prop where
  upper : num < 2 ^ 53 * (den * 2 ^ step)
  lower : step = 0 ∨ 2 ^ 52 * (den * 2 ^ step) ≤ num

/-- The step that rounding takes for a quotient. -/
def gridStep (num den : Nat) : Nat :=
  let step := (num.log2 - den.log2) - 53
  if num / (den * 2 ^ step) < 2 ^ 53 then step else step + 1

theorem gridStep_grid {num den : Nat} (hd : den ≠ 0) : Grid num den (gridStep num den) := by
  by_cases hn : num = 0
  · have hstep : gridStep num den = 0 := by simp [gridStep, hn]
    rw [hstep, hn]
    exact ⟨by omega, .inl rfl⟩
  have hn₁ := Nat.log2_self_le hn
  have hn₂ := Nat.lt_log2_self (n := num)
  have hd₁ := Nat.log2_self_le hd
  have hd₂ := Nat.lt_log2_self (n := den)
  unfold gridStep
  dsimp only
  generalize num.log2 = a at *
  generalize den.log2 = b at *
  generalize hs : a - b - 53 = s
  have hpos : 0 < den * 2 ^ s := Nat.mul_pos (Nat.pos_of_ne_zero hd) (Nat.two_pow_pos s)
  split
  next h =>
    refine ⟨(Nat.div_lt_iff_lt_mul hpos).mp h, ?_⟩
    by_cases h0 : s = 0
    · exact .inl h0
    · right
      have hsum : 52 + (b + 1 + s) = a := by omega
      calc 2 ^ 52 * (den * 2 ^ s) ≤ 2 ^ 52 * (2 ^ (b + 1) * 2 ^ s) := by gcongr
        _ = 2 ^ a := by rw [← Nat.pow_add, ← Nat.pow_add, hsum]
        _ ≤ num := hn₁
  next h =>
    have hlow : 2 ^ 53 * (den * 2 ^ s) ≤ num := (Nat.le_div_iff_mul_le hpos).mp (not_lt.mp h)
    refine ⟨?_, .inr (le_of_eq_of_le (by ring) hlow)⟩
    have hsum : a + 1 ≤ 53 + (b + (s + 1)) := by omega
    calc num < 2 ^ (a + 1) := hn₂
      _ ≤ 2 ^ (53 + (b + (s + 1))) := Nat.pow_le_pow_right (by omega) hsum
      _ = 2 ^ 53 * (2 ^ b * 2 ^ (s + 1)) := by rw [← Nat.pow_add, ← Nat.pow_add]
      _ ≤ 2 ^ 53 * (den * 2 ^ (s + 1)) := by gcongr

/-- The finer of two grids belongs to the smaller quotient. -/
theorem Grid.step_le {a b den s t : Nat} (hs : Grid a den s) (ht : Grid b den t) (hab : a ≤ b) :
    s ≤ t := by
  rcases hs.lower with rfl | hlow
  · exact Nat.zero_le t
  · have hpow : 2 ^ (s + 52) < 2 ^ (t + 53) := by
      have : den * 2 ^ (s + 52) < den * 2 ^ (t + 53) := by
        calc den * 2 ^ (s + 52) = 2 ^ 52 * (den * 2 ^ s) := by ring
          _ ≤ b := hlow.trans hab
          _ < 2 ^ 53 * (den * 2 ^ t) := ht.upper
          _ = den * 2 ^ (t + 53) := by ring
      exact Nat.lt_of_mul_lt_mul_left this
    have := (Nat.pow_lt_pow_iff_right (by omega)).mp hpow
    omega

theorem roundHalfEven_le {num den n : Nat} (h : num ≤ n * den) (hd : 0 < den) :
    roundHalfEven num den ≤ n := by
  have hsplit := Nat.div_add_mod num den
  have hr := Nat.mod_lt num hd
  have hq : num / den ≤ n := Nat.div_le_of_le_mul (by rwa [Nat.mul_comm])
  unfold roundHalfEven
  dsimp only
  by_cases he : num / den = n
  · have hz : num % den = 0 := by
      rw [he, Nat.mul_comm] at hsplit
      omega
    rw [hz, if_pos (by omega)]
    exact hq
  · split
    · exact hq
    · split <;> omega

theorem le_roundHalfEven {num den n : Nat} (h : n * den ≤ num) (hd : 0 < den) :
    n ≤ roundHalfEven num den := by
  have hq : n ≤ num / den := (Nat.le_div_iff_mul_le hd).mpr h
  unfold roundHalfEven
  dsimp only
  split
  · exact hq
  · split <;> omega

theorem roundHalfEven_mono {a b den : Nat} (hd : 0 < den) (h : a ≤ b) :
    roundHalfEven a den ≤ roundHalfEven b den := by
  have hq := Nat.div_le_div_right (c := den) h
  rcases Nat.lt_or_ge (a / den) (b / den) with hlt | hge
  · -- a whole cell lies between the two
    calc roundHalfEven a den ≤ a / den + 1 := by
          unfold roundHalfEven
          dsimp only
          split
          · omega
          · split <;> omega
      _ ≤ b / den := hlt
      _ ≤ roundHalfEven b den := le_roundHalfEven (Nat.div_mul_le_self b den) hd
  · have he : a / den = b / den := by omega
    have ha := Nat.div_add_mod a den
    have hb := Nat.div_add_mod b den
    rw [he] at ha
    have hm : a % den ≤ b % den := by omega
    unfold roundHalfEven
    dsimp only
    rw [he]
    split <;> split <;> (try split) <;> (try split) <;> omega

/-- Less than half a cell is rounded down. -/
theorem roundHalfEven_lt {num den n : Nat} (h : 2 * num < (2 * n + 1) * den) (hd : 0 < den) :
    roundHalfEven num den ≤ n := by
  have hsplit := Nat.div_add_mod num den
  have hr := Nat.mod_lt num hd
  rcases Nat.lt_trichotomy (num / den) n with hlt | he | hgt
  · unfold roundHalfEven
    dsimp only
    split
    · omega
    · split <;> omega
  · have hm : 2 * (num % den) < den := by
      rw [he, Nat.mul_comm] at hsplit
      have : (2 * n + 1) * den = 2 * (n * den) + den := by ring
      omega
    unfold roundHalfEven
    dsimp only
    rw [if_pos hm, he]
  · exfalso
    have : (n + 1) * den ≤ num :=
      (Nat.mul_le_mul_right den hgt).trans (Nat.div_mul_le_self num den)
    have h₁ : (2 * n + 1) * den = 2 * (n * den) + den := by ring
    have h₂ : (n + 1) * den = n * den + den := by ring
    omega

/-- What a word counts in the least positive number. -/
def wordUnits (word : Nat) : Nat :=
  (if word / 2 ^ 52 = 0 then word % 2 ^ 52 else 2 ^ 52 + word % 2 ^ 52) * 2 ^ (word / 2 ^ 52 - 1)

theorem units_eq (x : Binary64) : x.units = wordUnits x.magnitude := rfl

/-- A multiple of a grid's step is the word it is packed into, also when rounding has carried. -/
theorem wordUnits_pack {step n : Nat} (hn : n ≤ 2 ^ 53) (hlow : step = 0 ∨ 2 ^ 52 ≤ n) :
    wordUnits (step * 2 ^ 52 + n) = n * 2 ^ step := by
  unfold wordUnits
  rcases Nat.lt_or_ge n (2 ^ 52) with h | h
  · obtain rfl : step = 0 := by omega
    have hdiv : (0 * 2 ^ 52 + n) / 2 ^ 52 = 0 := by omega
    have hmod : (0 * 2 ^ 52 + n) % 2 ^ 52 = n := by omega
    rw [hdiv, hmod, if_pos rfl]
  · rcases Nat.lt_or_ge n (2 ^ 53) with h' | h'
    · have hdiv : (step * 2 ^ 52 + n) / 2 ^ 52 = step + 1 := by omega
      have hmod : (step * 2 ^ 52 + n) % 2 ^ 52 = n - 2 ^ 52 := by omega
      rw [hdiv, hmod, if_neg (by omega), Nat.add_sub_cancel, Nat.add_sub_of_le h]
    · have hdiv : (step * 2 ^ 52 + n) / 2 ^ 52 = step + 2 := by omega
      have hmod : (step * 2 ^ 52 + n) % 2 ^ 52 = 0 := by omega
      obtain rfl : n = 2 ^ 53 := by omega
      rw [hdiv, hmod, if_neg (by omega)]
      simp only [Nat.add_zero, Nat.reduceSubDiff]
      rw [Nat.pow_succ]
      omega

variable {negative : Bool}

theorem magnitude_ofMagnitude {m : Nat} (h : m < 2 ^ 63) :
    (ofMagnitude negative m).magnitude = m := by
  unfold ofMagnitude magnitude
  simp only [Nat.pow_eq, UInt64.toNat_ofNat']
  cases negative
  · simp only [Bool.false_eq_true, if_false]
    omega
  · simp only [if_true]
    omega

theorem isFinite_iff (x : Binary64) : x.isFinite = true ↔ x.magnitude < 2047 * 2 ^ 52 := by
  have hm : x.magnitude < 2 ^ 63 := Nat.mod_lt _ (Nat.two_pow_pos 63)
  unfold isFinite exponentField
  simp only [Nat.pow_eq, bne_iff_ne, ne_eq]
  omega

/-- The word that a quotient, counted in the least positive number, is rounded to as long as it is
one of a finite number. -/
def roundedWord (num den : Nat) : Nat :=
  gridStep num den * 2 ^ 52 + roundHalfEven num (den * 2 ^ gridStep num den)

theorem ofRatio_eq {num den : Nat} (hn : num ≠ 0) :
    ofRatio negative num den = if roundedWord (num * Nat.pow 2 1074) den < 2047 * 2 ^ 52
      then ofMagnitude negative (roundedWord (num * Nat.pow 2 1074) den)
      else infinity negative := by
  unfold ofRatio
  rw [if_neg hn]
  rfl

/-- A rounded quotient as it stands on its grid. -/
theorem roundedWord_grid {num den : Nat} (hd : den ≠ 0) :
    ∃ step, Grid num den step
      ∧ roundedWord num den = step * 2 ^ 52 + roundHalfEven num (den * 2 ^ step)
      ∧ wordUnits (roundedWord num den) = roundHalfEven num (den * 2 ^ step) * 2 ^ step := by
  have hgrid : Grid num den (gridStep num den) := gridStep_grid hd
  unfold roundedWord
  generalize gridStep num den = step at hgrid
  have hpos : 0 < den * 2 ^ step := Nat.mul_pos (Nat.pos_of_ne_zero hd) (Nat.two_pow_pos step)
  refine ⟨step, hgrid, rfl, wordUnits_pack ?_ ?_⟩
  · exact roundHalfEven_le hgrid.upper.le hpos
  · exact hgrid.lower.imp_right fun hlow => le_roundHalfEven hlow hpos

/-- Rounding keeps the order, of the words as well as of the numbers. -/
theorem roundedWord_mono {a b den : Nat} (hd : den ≠ 0) (hab : a ≤ b) :
    roundedWord a den ≤ roundedWord b den
      ∧ wordUnits (roundedWord a den) ≤ wordUnits (roundedWord b den) := by
  obtain ⟨s, hs, hsw, hsu⟩ := @roundedWord_grid a den hd
  obtain ⟨t, ht, htw, htu⟩ := @roundedWord_grid b den hd
  rw [hsu, htu, hsw, htw]
  have hpos : ∀ k, 0 < den * 2 ^ k := fun k =>
    Nat.mul_pos (Nat.pos_of_ne_zero hd) (Nat.two_pow_pos k)
  rcases (hs.step_le ht hab).eq_or_lt with rfl | hlt
  · have hround := roundHalfEven_mono (hpos s) hab
    exact ⟨Nat.add_le_add_left hround _, Nat.mul_le_mul_right _ hround⟩
  · -- on the coarser grid the larger one has its leading digit
    have hlow := le_roundHalfEven (ht.lower.resolve_left (by omega)) (hpos t)
    have hround := roundHalfEven_le hs.upper.le (hpos s)
    refine ⟨by omega, ?_⟩
    calc roundHalfEven a (den * 2 ^ s) * 2 ^ s ≤ 2 ^ 53 * 2 ^ s := Nat.mul_le_mul_right _ hround
      _ = 2 ^ 52 * 2 ^ (s + 1) := by ring
      _ ≤ 2 ^ 52 * 2 ^ t := Nat.mul_le_mul_left _ (Nat.pow_le_pow_right (by omega) hlt)
      _ ≤ roundHalfEven b (den * 2 ^ t) * 2 ^ t := Nat.mul_le_mul_right _ hlow

/-- A quotient below the middle between the last multiple of a grid's step and the power of two
behind it does not reach that power. -/
theorem roundedWord_lt {num den top : Nat} (hd : den ≠ 0)
    (h : 2 * num < (2 ^ 54 - 1) * (den * Nat.pow 2 top)) :
    roundedWord num den < (top + 2) * 2 ^ 52 := by
  rw [Nat.pow_eq] at h
  obtain ⟨s, hs, hword, -⟩ := @roundedWord_grid num den hd
  rw [hword]
  have hpos : ∀ k, 0 < den * 2 ^ k := fun k =>
    Nat.mul_pos (Nat.pos_of_ne_zero hd) (Nat.two_pow_pos k)
  have hround := roundHalfEven_le hs.upper.le (hpos s)
  rcases Nat.lt_trichotomy s top with hlt | rfl | hgt
  · omega
  · have hdown := roundHalfEven_lt (n := 2 ^ 53 - 1) (by simpa using h) (hpos s)
    omega
  · exfalso
    have hlow := hs.lower.resolve_left (by omega)
    have hmono : den * 2 ^ (top + 1) ≤ den * 2 ^ s :=
      Nat.mul_le_mul_left den (Nat.pow_le_pow_right (by omega) hgt)
    have hdouble : den * 2 ^ (top + 1) = 2 * (den * 2 ^ top) := by ring
    have := hpos top
    omega

theorem infinity_isFinite : (infinity negative).isFinite = false := by
  cases negative <;> decide +kernel

theorem ofRatio_isFinite_iff {num den : Nat} (hn : num ≠ 0) :
    (ofRatio negative num den).isFinite = true
      ↔ roundedWord (num * Nat.pow 2 1074) den < 2047 * 2 ^ 52 := by
  rw [ofRatio_eq hn]
  split
  next h => rw [isFinite_iff, magnitude_ofMagnitude (by omega)]
  next h => rw [infinity_isFinite, iff_false_right h, Bool.false_eq_true, not_false_iff]; trivial

theorem ofRatio_units {num den : Nat} (hn : num ≠ 0)
    (hf : (ofRatio negative num den).isFinite = true) :
    (ofRatio negative num den).units = wordUnits (roundedWord (num * Nat.pow 2 1074) den) := by
  have hword := (ofRatio_isFinite_iff hn).mp hf
  rw [ofRatio_eq hn, if_pos hword, units_eq, magnitude_ofMagnitude (by omega)]

theorem ofRatio_zero (den : Nat) :
    (ofRatio negative 0 den).isFinite = true ∧ (ofRatio negative 0 den).units = 0 := by
  have hzero : ofRatio negative 0 den = ofMagnitude negative 0 := if_pos rfl
  rw [hzero]
  cases negative <;> decide +kernel

/-- Twice the least quotient that is rounded to infinity, for a denominator. It is the middle
between the largest finite number and the power of two behind it. -/
def overflow (den : Nat) : Nat :=
  (2 ^ 54 - 1) * (den * Nat.pow 2 2045)

theorem ofRatio_isFinite {num den : Nat} (hd : den ≠ 0)
    (h : 2 * (num * Nat.pow 2 1074) < overflow den) :
    (ofRatio negative num den).isFinite = true := by
  unfold overflow at h
  by_cases hn : num = 0
  · subst hn
    exact (ofRatio_zero den).1
  · exact (ofRatio_isFinite_iff hn).mpr (@roundedWord_lt _ _ 2045 hd h)

/-- The denominator of the product of two absolute values. -/
def productUnit : Nat := Nat.pow 2 1074 * Nat.pow 2 1074

theorem toRatio_eq (x : Binary64) : x.toRatio = (x.units, Nat.pow 2 1074) := by
  unfold toRatio units
  rw [Nat.pow_eq]

theorem mulAbs_isFinite {x y : Binary64}
    (h : 2 * (x.units * y.units * Nat.pow 2 1074) < overflow productUnit) :
    (x.mulAbs y).isFinite = true := by
  have hunit : productUnit ≠ 0 := by decide +kernel
  have hproduct : x.mulAbs y = ofRatio false (x.units * y.units) productUnit := by
    unfold mulAbs productUnit
    rw [toRatio_eq, toRatio_eq]
  rw [hproduct]
  exact ofRatio_isFinite hunit h

/-- A quotient below one that is rounded to a finite number is rounded to a finite number that is
not greater. -/
theorem ofRatio_units_mono {a b den : Nat} (hd : den ≠ 0) (hab : a ≤ b)
    (hb : (ofRatio negative b den).isFinite = true) :
    (ofRatio negative a den).isFinite = true
      ∧ (ofRatio negative a den).units ≤ (ofRatio negative b den).units := by
  by_cases ha : a = 0
  · subst ha
    obtain ⟨hf, hu⟩ := @ofRatio_zero negative den
    exact ⟨hf, hu.trans_le (Nat.zero_le _)⟩
  · have hbn : b ≠ 0 := by omega
    obtain ⟨hword, hunits⟩ := roundedWord_mono hd (Nat.mul_le_mul_right (Nat.pow 2 1074) hab)
    have hfinite : (ofRatio negative a den).isFinite = true :=
      (ofRatio_isFinite_iff ha).mpr (hword.trans_lt ((ofRatio_isFinite_iff hbn).mp hb))
    refine ⟨hfinite, ?_⟩
    rw [ofRatio_units ha hfinite, ofRatio_units hbn hb]
    exact hunits

end Binary64

end Tabularium
