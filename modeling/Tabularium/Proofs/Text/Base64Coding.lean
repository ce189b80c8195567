import Mathlib.Data.List.Basic
import Tabularium.Text.Base64

namespace Tabularium

namespace Base64

variable {n : Nat} {c : Char} {cs : List Char} {bytes : List UInt8}

theorem number?_letter (h : n < 64) : number? (letter n) = some n := by
  have hall : ∀ i : Fin 64, number? (letter i) = some i.val := by decide +kernel
  exact hall ⟨n, h⟩

theorem letter_mem (n : Nat) : letter n ∈ alphabet := by
  rw [letter, List.getD_eq_getElem?_getD]
  cases h : alphabet[n]? with
  | none => decide
  | some c => exact List.mem_of_getElem? h

theorem ofNat_eq (a : UInt8) (h : n = a.toNat) : UInt8.ofNat n = a := by
  rw [h, UInt8.ofNat_toNat]

/-- Bytes are read back from their letters. -/
theorem decode_encode (bytes : List UInt8) : decode (encode bytes) = some bytes := by
  fun_induction encode bytes with
  | case1 => rfl
  | case2 a =>
    have ha := a.toNat_lt
    have hlast : a.toNat % 4 * 16 % 16 = 0 := by omega
    rw [decode, number?_letter (by omega), number?_letter (by omega)]
    simp only [Option.bind_eq_bind, Option.bind_some, hlast, ne_eq, not_true_eq_false, if_false]
    rw [ofNat_eq a (by omega)]
  | case3 a b =>
    have ha := a.toNat_lt
    have hb := b.toNat_lt
    have hlast : b.toNat % 16 * 4 % 4 = 0 := by omega
    rw [decode, number?_letter (by omega), number?_letter (by omega), number?_letter (by omega)]
    simp only [Option.bind_eq_bind, Option.bind_some, hlast, ne_eq, not_true_eq_false, if_false]
    rw [ofNat_eq a (by omega), ofNat_eq b (by omega)]
  | case4 a b d rest ih =>
    have ha := a.toNat_lt
    have hb := b.toNat_lt
    have hd := d.toNat_lt
    rw [decode, number?_letter (by omega), number?_letter (by omega), number?_letter (by omega),
      number?_letter (by omega), ih]
    simp only [Option.bind_eq_bind, Option.bind_some]
    rw [ofNat_eq a (by omega), ofNat_eq b (by omega), ofNat_eq d (by omega)]

/-- Bytes are written in letters only. -/
theorem mem_encode (h : c ∈ encode bytes) : c ∈ alphabet := by
  fun_induction encode bytes with
  | case1 => cases h
  | case2 a =>
    simp only [List.mem_cons, List.not_mem_nil, or_false] at h
    rcases h with rfl | rfl <;> exact letter_mem _
  | case3 a b =>
    simp only [List.mem_cons, List.not_mem_nil, or_false] at h
    rcases h with rfl | rfl | rfl <;> exact letter_mem _
  | case4 a b d rest ih =>
    simp only [List.mem_cons] at h
    rcases h with rfl | rfl | rfl | rfl | h
    case inr.inr.inr.inr => exact ih h
    all_goals exact letter_mem _

/-- A letter that is read is the letter for its number. -/
theorem number?_eq_some (h : number? c = some n) : n < 64 ∧ letter n = c := by
  unfold number? at h
  dsimp only at h
  split at h
  next hlt =>
    have hn : alphabet.idxOf c = n := Option.some.inj h
    have hlength : alphabet.length = 64 := by decide
    have hbound : alphabet.idxOf c < alphabet.length := by omega
    subst hn
    refine ⟨hlt, ?_⟩
    rw [letter, List.getD_eq_getElem?_getD, List.getElem?_eq_getElem hbound, List.getElem_idxOf]
    rfl
  next => cases h

theorem ofNat_toNat (h : n < 256) : (UInt8.ofNat n).toNat = n := by
  rw [UInt8.toNat_ofNat']
  omega

/-- Letters that are read are the letters of their bytes, so bytes are written in one way only. -/
theorem encode_decode (h : decode cs = some bytes) : encode bytes = cs := by
  fun_induction decode cs generalizing bytes with
  | case1 =>
    cases h
    rfl
  | case2 => cases h
  | case3 p q =>
    simp only [Option.bind_eq_bind, Option.bind_eq_some_iff] at h
    obtain ⟨i, hi, j, hj, h⟩ := h
    obtain ⟨hi, rfl⟩ := number?_eq_some hi
    obtain ⟨hj, rfl⟩ := number?_eq_some hj
    split at h
    next => cases h
    next hrest =>
      have hrest : j % 16 = 0 := not_not.mp hrest
      cases h
      rw [encode, ofNat_toNat (by omega)]
      have hfirst : (i * 4 + j / 16) / 4 = i := by omega
      have hsecond : (i * 4 + j / 16) % 4 * 16 = j := by omega
      rw [hfirst, hsecond]
  | case4 p q r =>
    simp only [Option.bind_eq_bind, Option.bind_eq_some_iff] at h
    obtain ⟨i, hi, j, hj, k, hk, h⟩ := h
    obtain ⟨hi, rfl⟩ := number?_eq_some hi
    obtain ⟨hj, rfl⟩ := number?_eq_some hj
    obtain ⟨hk, rfl⟩ := number?_eq_some hk
    split at h
    next => cases h
    next hrest =>
      have hrest : k % 4 = 0 := not_not.mp hrest
      cases h
      rw [encode, ofNat_toNat (by omega), ofNat_toNat (by omega)]
      have hfirst : (i * 4 + j / 16) / 4 = i := by omega
      have hsecond : (i * 4 + j / 16) % 4 * 16 + (j % 16 * 16 + k / 4) / 16 = j := by omega
      have hthird : (j % 16 * 16 + k / 4) % 16 * 4 = k := by omega
      rw [hfirst, hsecond, hthird]
  | case5 p q r s rest ih =>
    simp only [Option.bind_eq_bind, Option.bind_eq_some_iff] at h
    obtain ⟨i, hi, j, hj, k, hk, l, hl, back, hback, h⟩ := h
    obtain ⟨hi, rfl⟩ := number?_eq_some hi
    obtain ⟨hj, rfl⟩ := number?_eq_some hj
    obtain ⟨hk, rfl⟩ := number?_eq_some hk
    obtain ⟨hl, rfl⟩ := number?_eq_some hl
    cases h
    rw [encode, ih hback, ofNat_toNat (by omega), ofNat_toNat (by omega), ofNat_toNat (by omega)]
    have hfirst : (i * 4 + j / 16) / 4 = i := by omega
    have hsecond : (i * 4 + j / 16) % 4 * 16 + (j % 16 * 16 + k / 4) / 16 = j := by omega
    have hthird : (j % 16 * 16 + k / 4) % 16 * 4 + (k % 4 * 64 + l) / 64 = k := by omega
    have hfourth : (k % 4 * 64 + l) % 64 = l := by omega
    rw [hfirst, hsecond, hthird, hfourth]

end Base64

end Tabularium
