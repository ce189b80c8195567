import Mathlib.Order.Monotone.Basic
import Tabularium.Proofs.Numeric.Rounding

namespace Tabularium

namespace Binary64

/-- The word of an infinity without its sign. It is the one behind those of the finite numbers. -/
def infinityWord : Nat := 2047 * 2 ^ 52

/-- How far the number with a word is from a quotient, where the least positive number counts as
the denominator. The word of an infinity stands for the power of two behind the largest number. -/
def distance (num den word : Nat) : Nat :=
  ((wordUnits word * den : Nat) - (num : Int)).natAbs

/-- No word is nearer to a quotient, and of two that are equally near it is the even one. -/
structure NearestWord (num den word : Nat) : Prop where
  bounded : word ≤ infinityWord
  nearest : ∀ other ≤ infinityWord, distance num den word ≤ distance num den other
  even : ∀ other ≤ infinityWord, other ≠ word →
    distance num den other = distance num den word → word % 2 = 0

/-- The number has the sign and the magnitude that are nearest to a quotient. -/
structure IsNearest (x : Binary64) (negative : Bool) (num den : Nat) : Prop where
  sign : x.isNegative = negative
  word : NearestWord (num * Nat.pow 2 1074) den x.magnitude

variable {num den word step n : Nat} {negative : Bool} {x : Binary64}

theorem exists_pack (word : Nat) :
    ∃ step n, word = step * 2 ^ 52 + n ∧ n < 2 ^ 53 ∧ (step = 0 ∨ 2 ^ 52 ≤ n) := by
  by_cases h : word < 2 ^ 52
  · exact ⟨0, word, by omega, by omega, .inl rfl⟩
  · refine ⟨word / 2 ^ 52 - 1, 2 ^ 52 + word % 2 ^ 52, ?_, ?_, ?_⟩ <;> omega

/-- The next word counts one cell of the grid more at least. -/
theorem wordUnits_next (hn : n ≤ 2 ^ 53) (hlow : step = 0 ∨ 2 ^ 52 ≤ n) :
    (n + 1) * 2 ^ step ≤ wordUnits (step * 2 ^ 52 + n + 1) := by
  rcases hn.lt_or_eq with hlt | rfl
  · have hpack : wordUnits (step * 2 ^ 52 + (n + 1)) = (n + 1) * 2 ^ step :=
      wordUnits_pack hlt (hlow.imp_right fun h => h.trans (Nat.le_succ n))
    rw [Nat.add_assoc, hpack]
  · have hword : step * 2 ^ 52 + 2 ^ 53 + 1 = (step + 1) * 2 ^ 52 + (2 ^ 52 + 1) := by omega
    have hpack : wordUnits ((step + 1) * 2 ^ 52 + (2 ^ 52 + 1)) = (2 ^ 52 + 1) * 2 ^ (step + 1) :=
      wordUnits_pack (by omega) (.inr (by omega))
    rw [hword, hpack]
    calc (2 ^ 53 + 1) * 2 ^ step ≤ (2 ^ 53 + 2) * 2 ^ step := by gcongr; omega
      _ = (2 ^ 52 + 1) * 2 ^ (step + 1) := by ring

theorem wordUnits_strictMono : StrictMono wordUnits := by
  refine strictMono_nat_of_lt_succ fun word => ?_
  obtain ⟨step, n, rfl, hn, hlow⟩ := exists_pack word
  rw [wordUnits_pack hn.le hlow]
  exact (Nat.mul_lt_mul_of_pos_right (Nat.lt_succ_self n) (Nat.two_pow_pos step)).trans_le
    (wordUnits_next hn.le hlow)

/-- A word above counts a cell of the grid more at least. -/
theorem wordUnits_above (hn : n ≤ 2 ^ 53) (hlow : step = 0 ∨ 2 ^ 52 ≤ n)
    (h : step * 2 ^ 52 + n < word) : n * 2 ^ step + 2 ^ step ≤ wordUnits word := by
  rw [← Nat.succ_mul]
  exact (wordUnits_next hn hlow).trans (wordUnits_strictMono.monotone h)

/-- A word below counts a cell of the grid less at least, unless a finer grid ends here. -/
theorem wordUnits_below (hn : n ≤ 2 ^ 53) (hlow : step = 0 ∨ 2 ^ 52 < n)
    (h : word < step * 2 ^ 52 + n) : wordUnits word + 2 ^ step ≤ n * 2 ^ step := by
  obtain ⟨m, rfl⟩ : ∃ m, n = m + 1 := ⟨n - 1, by omega⟩
  have hpack : wordUnits (step * 2 ^ 52 + m) = m * 2 ^ step :=
    wordUnits_pack (by omega) (hlow.imp_right Nat.le_of_lt_succ)
  rw [Nat.succ_mul, ← hpack]
  exact Nat.add_le_add_right (wordUnits_strictMono.monotone (by omega)) _

/-- A rounded quotient is at most half a cell away, and it is even when it is half a cell away. -/
theorem roundHalfEven_near (hd : 0 < den) :
    2 * ((roundHalfEven num den * den : Nat) - (num : Int)).natAbs ≤ den
      ∧ (2 * ((roundHalfEven num den * den : Nat) - (num : Int)).natAbs = den →
        roundHalfEven num den % 2 = 0) := by
  have hsplit := Nat.div_add_mod num den
  have hr := Nat.mod_lt num hd
  rw [Nat.mul_comm] at hsplit
  have hnext : (num / den + 1) * den = num / den * den + den := Nat.succ_mul _ _
  unfold roundHalfEven
  dsimp only
  generalize num % den = r at *
  split
  next => omega
  next =>
    split
    next => rw [hnext]; omega
    next =>
      rcases Nat.mod_two_eq_zero_or_one (num / den) with heven | hodd
      · rw [heven, Nat.add_zero]
        omega
      · rw [hodd, hnext]
        omega

/-- The word of a rounded quotient is nearer to it than any other word, or as near and even. -/
theorem roundedWord_nearest (hd : den ≠ 0) {other : Nat} (hne : other ≠ roundedWord num den) :
    distance num den (roundedWord num den) ≤ distance num den other
      ∧ (distance num den other = distance num den (roundedWord num den) →
        roundedWord num den % 2 = 0) := by
  obtain ⟨step, hgrid, hword, hunits⟩ := @roundedWord_grid num den hd
  have hpos : 0 < den * 2 ^ step := Nat.mul_pos (Nat.pos_of_ne_zero hd) (Nat.two_pow_pos step)
  obtain ⟨hnear, heven⟩ := @roundHalfEven_near num (den * 2 ^ step) hpos
  have hupper := roundHalfEven_le hgrid.upper.le hpos
  have hlow := hgrid.lower.imp_right fun h => le_roundHalfEven h hpos
  have hcells : ∀ n, n * 2 ^ step * den = n * (den * 2 ^ step) := fun n => by ring
  have hscale : wordUnits (roundedWord num den) * den
      = roundHalfEven num (den * 2 ^ step) * (den * 2 ^ step) := by rw [hunits, hcells]
  have hparity : roundedWord num den % 2 = roundHalfEven num (den * 2 ^ step) % 2 := by omega
  unfold distance
  rw [hscale, hparity]
  generalize roundHalfEven num (den * 2 ^ step) = n at *
  rcases Nat.lt_or_gt_of_ne hne with hlt | hgt
  · by_cases hleading : step ≠ 0 ∧ n = 2 ^ 52
    · -- The finer grid below ends at this word, and the quotient is not below it.
      have hbelow : 2 ^ 52 * (den * 2 ^ step) ≤ num := hgrid.lower.resolve_left hleading.1
      have hless : wordUnits other * den < n * (den * 2 ^ step) := by
        rw [← hscale]
        exact Nat.mul_lt_mul_of_pos_right (wordUnits_strictMono hlt) (Nat.pos_of_ne_zero hd)
      rw [hleading.2] at hless ⊢
      omega
    · rw [hword] at hlt
      have hcell := Nat.mul_le_mul_right den (wordUnits_below hupper (by omega) hlt)
      rw [hcells, Nat.add_mul, Nat.mul_comm (2 ^ step)] at hcell
      omega
  · rw [hword] at hgt
    have hcell := Nat.mul_le_mul_right den (wordUnits_above hupper hlow hgt)
    rw [Nat.add_mul, hcells, Nat.mul_comm (2 ^ step)] at hcell
    omega

theorem roundedWord_near (hd : den ≠ 0) (other : Nat) :
    distance num den (roundedWord num den) ≤ distance num den other := by
  by_cases hne : other = roundedWord num den
  · rw [hne]
  · exact (roundedWord_nearest hd hne).1

/-- Where rounding goes beyond the finite numbers, the infinity is the nearest. -/
theorem nearestWord_rounded (hd : den ≠ 0) :
    NearestWord num den (min (roundedWord num den) infinityWord) := by
  rcases Nat.lt_or_ge (roundedWord num den) infinityWord with hfinite | hinfinite
  · rw [Nat.min_eq_left hfinite.le]
    exact ⟨hfinite.le, fun other _ => roundedWord_near hd other,
      fun other _ hne => (roundedWord_nearest hd hne).2⟩
  · rw [Nat.min_eq_right hinfinite]
    have heven : infinityWord % 2 = 0 := by decide
    refine ⟨le_rfl, fun other hother => ?_, fun _ _ _ _ => heven⟩
    have hnear := @roundedWord_near num den hd other
    have hunits := Nat.mul_le_mul_right den (wordUnits_strictMono.monotone hinfinite)
    have hbelow := Nat.mul_le_mul_right den (wordUnits_strictMono.monotone hother)
    unfold distance at hnear ⊢
    omega

/-- There is one nearest word. -/
theorem NearestWord.unique {a b : Nat} (hd : den ≠ 0) (ha : NearestWord num den a)
    (hb : NearestWord num den b) : a = b := by
  have hbetween : ∀ {a b : Nat}, NearestWord num den a → NearestWord num den b → ¬ a < b := by
    intro a b ha hb hlt
    have hsame : distance num den b = distance num den a :=
      (hb.nearest a ha.bounded).antisymm (ha.nearest b hb.bounded)
    have hparity := ha.even b hb.bounded hlt.ne' hsame
    have hparity' := hb.even a ha.bounded hlt.ne hsame.symm
    have hnext : a + 1 < b := by omega
    -- The word between the two is nearer than both.
    have hnear := ha.nearest (a + 1) (hnext.le.trans hb.bounded)
    have hlow := Nat.mul_lt_mul_of_pos_right (wordUnits_strictMono (Nat.lt_add_one a))
      (Nat.pos_of_ne_zero hd)
    have hhigh := Nat.mul_lt_mul_of_pos_right (wordUnits_strictMono hnext) (Nat.pos_of_ne_zero hd)
    unfold distance at hsame hnear
    omega
  exact Nat.le_antisymm (not_lt.mp (hbetween hb ha)) (not_lt.mp (hbetween ha hb))

theorem ofRatio_eq_min (num den : Nat) : ofRatio negative num den
    = ofMagnitude negative (min (roundedWord (num * Nat.pow 2 1074) den) infinityWord) := by
  by_cases hn : num = 0
  · have hzero : num * Nat.pow 2 1074 = 0 := Nat.mul_eq_zero.mpr (.inl hn)
    have hword : roundedWord 0 den = 0 := by simp [roundedWord, gridStep, roundHalfEven]
    rw [hzero, hword, Nat.zero_min]
    exact if_pos hn
  · rw [ofRatio_eq hn]
    generalize roundedWord (num * Nat.pow 2 1074) den = word
    unfold infinityWord
    split
    next h => rw [Nat.min_eq_left h.le]
    next h =>
      rw [Nat.min_eq_right (not_lt.mp h)]
      rfl

theorem isNegative_ofMagnitude {m : Nat} (h : m < 2 ^ 63) :
    (ofMagnitude negative m).isNegative = negative := by
  unfold ofMagnitude isNegative
  simp only [Nat.pow_eq, UInt64.toNat_ofNat']
  cases negative
  · simp only [Bool.false_eq_true, if_false, decide_eq_false_iff_not]
    omega
  · simp only [if_true, decide_eq_true_eq]
    omega

/-- A number is its sign and its magnitude. -/
theorem ofMagnitude_self (x : Binary64) : ofMagnitude x.isNegative x.magnitude = x := by
  have hword := x.bits.toNat_lt
  have hparts : (if x.isNegative = true then Nat.pow 2 63 else 0) + x.magnitude
      = x.bits.toNat := by
    unfold isNegative magnitude
    simp only [Nat.pow_eq, decide_eq_true_eq]
    split <;> omega
  unfold ofMagnitude
  rw [hparts, UInt64.ofNat_toNat]

/-- A quotient is rounded to the number that is nearest to it. -/
theorem ofRatio_eq_iff (hd : den ≠ 0) :
    ofRatio negative num den = x ↔ x.IsNearest negative num den := by
  have hnearest := @nearestWord_rounded (num * Nat.pow 2 1074) den hd
  have hsmall : min (roundedWord (num * Nat.pow 2 1074) den) infinityWord < 2 ^ 63 :=
    hnearest.bounded.trans_lt (by decide)
  rw [ofRatio_eq_min]
  constructor
  · rintro rfl
    exact ⟨isNegative_ofMagnitude hsmall, by rwa [magnitude_ofMagnitude hsmall]⟩
  · intro h
    rw [hnearest.unique hd h.word, ← h.sign, ofMagnitude_self]

/-- A quotient that a word stands for is rounded to the word. -/
theorem roundedWord_exact (hd : den ≠ 0) (word : Nat) :
    roundedWord (wordUnits word * den) den = word := by
  have hnear := @roundedWord_near (wordUnits word * den) den hd word
  unfold distance at hnear
  have hsame : wordUnits (roundedWord (wordUnits word * den) den) * den = wordUnits word * den := by
    omega
  exact wordUnits_strictMono.injective (Nat.eq_of_mul_eq_mul_right (Nat.pos_of_ne_zero hd) hsame)

/-- A quotient below half of the least positive number is rounded to zero. -/
theorem ofRatio_small (hd : den ≠ 0) (h : 2 * (num * Nat.pow 2 1074) < den) :
    ofRatio negative num den = ofMagnitude negative 0 := by
  have hword : roundedWord (num * Nat.pow 2 1074) den = 0 := by
    by_contra hne
    have hnear := @roundedWord_near (num * Nat.pow 2 1074) den hd 0
    have hone : wordUnits 0 < wordUnits (roundedWord (num * Nat.pow 2 1074) den) :=
      wordUnits_strictMono (Nat.pos_of_ne_zero hne)
    have hzero : wordUnits 0 = 0 := by decide
    have hfar := Nat.mul_le_mul_right den hone
    unfold distance at hnear
    rw [hzero] at hnear hfar
    omega
  rw [ofRatio_eq_min, hword, Nat.zero_min]

/-- A quotient that is not below the power of two behind the largest number is rounded to an
infinity. -/
theorem ofRatio_large (hd : den ≠ 0) (h : Nat.pow 2 1024 * den ≤ num) :
    ofRatio negative num den = infinity negative := by
  have hunits : wordUnits infinityWord = Nat.pow 2 1024 * Nat.pow 2 1074 := by decide +kernel
  have hword : infinityWord ≤ roundedWord (num * Nat.pow 2 1074) den := by
    rw [← roundedWord_exact hd infinityWord, hunits]
    refine (roundedWord_mono hd ?_).1
    generalize Nat.pow 2 1074 = unit
    generalize Nat.pow 2 1024 = top at h
    rw [Nat.mul_right_comm]
    exact Nat.mul_le_mul_right unit h
  rw [ofRatio_eq_min, Nat.min_eq_right hword]
  rfl

end Binary64

end Tabularium
