namespace Tabularium

variable {c : Char}

theorem upper_range (h : c.isUpper = true) : 65 ≤ c.toNat ∧ c.toNat ≤ 90 := by
  have hval : decide (c.val ≥ 65 ∧ c.val ≤ 90) = true := h
  simpa [UInt32.le_iff_toNat_le] using hval

theorem lower_range (h : c.isLower = true) : 97 ≤ c.toNat ∧ c.toNat ≤ 122 := by
  have hval : (decide (c.val ≥ 97) && decide (c.val ≤ 122)) = true := h
  simpa [UInt32.le_iff_toNat_le] using hval

/-- The letters and the digits by number. -/
theorem alphanum_range (h : c.isAlphanum = true) : (48 ≤ c.toNat ∧ c.toNat ≤ 57)
    ∨ (65 ≤ c.toNat ∧ c.toNat ≤ 90) ∨ (97 ≤ c.toNat ∧ c.toNat ≤ 122) := by
  have hkinds : ((c.isUpper || c.isLower) || c.isDigit) = true := h
  rw [Bool.or_eq_true, Bool.or_eq_true] at hkinds
  rcases hkinds with (h | h) | h
  · exact .inr (.inl (upper_range h))
  · exact .inr (.inr (lower_range h))
  · exact .inl (Char.isDigit_iff_toNat.mp h)

theorem toLower_self (h : ¬ (65 ≤ c.toNat ∧ c.toNat ≤ 90)) : c.toLower = c := by
  refine dif_neg fun hupper => h ?_
  simpa [UInt32.le_iff_toNat_le] using hupper

/-- In lower case a letter stays a letter, and a digit a digit. -/
theorem toLower_range (h : c.isAlphanum = true) : (48 ≤ c.toLower.toNat ∧ c.toLower.toNat ≤ 57)
    ∨ (97 ≤ c.toLower.toNat ∧ c.toLower.toNat ≤ 122) := by
  have hrange := alphanum_range h
  by_cases hupper : c.val ≥ 'A'.val ∧ c.val ≤ 'Z'.val
  · have hval : c.toLower.val = c.val + ('a'.val - 'A'.val) := congrArg Char.val (dif_pos hupper)
    have hbounds : 65 ≤ c.toNat ∧ c.toNat ≤ 90 := by
      simpa [UInt32.le_iff_toNat_le] using hupper
    have hnat : c.toLower.toNat = c.toNat + 32 := by
      rw [← Char.toNat_val, hval, UInt32.toNat_add, Char.toNat_val]
      have hshift : ('a'.val - 'A'.val).toNat = 32 := rfl
      rw [hshift]
      omega
    omega
  · have hbounds : ¬ (65 ≤ c.toNat ∧ c.toNat ≤ 90) := by
      simpa [UInt32.le_iff_toNat_le] using hupper
    rw [toLower_self hbounds]
    omega

end Tabularium
