import Tabularium.Proofs.Characters
import Tabularium.Sql.Identifier

namespace Tabularium

variable {c : Char} {name : String}

/-- The characters of names by number. -/
theorem isNameChar_range (h : isNameChar c = true) : (48 ≤ c.toNat ∧ c.toNat ≤ 57)
    ∨ (65 ≤ c.toNat ∧ c.toNat ≤ 90) ∨ c.toNat = 95 ∨ (97 ≤ c.toNat ∧ c.toNat ≤ 122) := by
  simp only [isNameChar, Bool.or_eq_true, beq_iff_eq] at h
  rcases h with h | rfl
  · have := alphanum_range h
    omega
  · exact .inr (.inr (.inl rfl))

theorem isNameChar_not_blank (h : isNameChar c = true) : isBlank c = false := by
  have hrange := isNameChar_range h
  unfold isBlank
  simp only [Bool.or_eq_false_iff, Bool.and_eq_false_iff, decide_eq_false_iff_not,
    beq_eq_false_iff_ne]
  omega

theorem isNameChar_of_start (h : isNameStart c = true) : isNameChar c = true := by
  simp only [isNameStart, Bool.or_eq_true] at h
  rcases h with h | h
  · simp [isNameChar, Char.isAlphanum, h]
  · simp [isNameChar, h]

/-- A character that stands for one of a name in lower case is itself one of a name. -/
theorem isNameChar_of_toLower (h : isNameChar c.toLower = true) : isNameChar c = true := by
  by_cases hupper : c.val ≥ 'A'.val ∧ c.val ≤ 'Z'.val
  · have hletter : c.isUpper = true := decide_eq_true hupper
    have hkinds : ((c.isUpper || c.isLower) || c.isDigit) = true := by simp [hletter]
    have halphanum : c.isAlphanum = true := hkinds
    simp [isNameChar, halphanum]
  · have hsame : c.toLower = c := dif_neg hupper
    rwa [hsame] at h

theorem identifier_chars (h : isIdentifier name = true) :
    ∃ c cs, name.toList = c :: cs ∧ isNameStart c = true ∧ ∀ d ∈ c :: cs, isNameChar d = true := by
  unfold isIdentifier at h
  split at h
  next => simp at h
  next c cs hname =>
    rw [Bool.and_eq_true, List.all_eq_true] at h
    refine ⟨c, cs, hname, h.1, fun d hd => ?_⟩
    rcases List.mem_cons.mp hd with rfl | hd
    · exact isNameChar_of_start h.1
    · exact h.2 d hd

end Tabularium
