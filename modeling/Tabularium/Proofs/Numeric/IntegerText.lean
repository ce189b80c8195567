import Tabularium.Numeric.Integer
import Tabularium.Proofs.Numeric.Numeral

namespace Tabularium

variable {n : Int}

/-- The ways to write an integer: its digits behind any number of zeros, with a sign that only a
number below zero needs. -/
inductive IntegerSpelling : Int → List Char → Prop
  | bare (n zeros : Nat) : IntegerSpelling n (List.replicate zeros '0' ++ Nat.toDigits 10 n)
  | plus (n zeros : Nat) :
    IntegerSpelling n ('+' :: (List.replicate zeros '0' ++ Nat.toDigits 10 n))
  | minus (n zeros : Nat) :
    IntegerSpelling (-n) ('-' :: (List.replicate zeros '0' ++ Nat.toDigits 10 n))

theorem toList_repr_ofNat (m : Nat) : (Int.repr (Int.ofNat m)).toList = Nat.toDigits 10 m :=
  Nat.toList_repr

theorem toList_repr_negSucc (m : Nat) :
    (Int.repr (Int.negSucc m)).toList = '-' :: Nat.toDigits 10 (m + 1) := by
  have hrepr : Int.repr (Int.negSucc m) = "-" ++ Nat.repr (m + 1) := rfl
  rw [hrepr, String.toList_append, Nat.toList_repr]
  rfl

theorem repr_digits (n : Int) : ∃ ds, IsDigits ds
    ∧ ((Int.repr n).toList = ds ∨ (Int.repr n).toList = '-' :: ds) := by
  cases n with
  | ofNat m => exact ⟨_, toDigits_isDigits m, .inl (toList_repr_ofNat m)⟩
  | negSucc m => exact ⟨_, toDigits_isDigits (m + 1), .inr (toList_repr_negSucc m)⟩

theorem mem_repr {c : Char} (h : c ∈ (Int.repr n).toList) : c = '-' ∨ c.isDigit = true := by
  obtain ⟨ds, hds, htext | htext⟩ := repr_digits n
  · exact .inr (hds.2 c (htext ▸ h))
  · rw [htext] at h
    exact (List.mem_cons.mp h).imp_right (hds.2 c)

theorem splitSign_digits {ds : List Char} (hds : IsDigits ds) : splitSign ds = (false, ds) := by
  obtain ⟨c, cs, rfl⟩ := List.exists_cons_of_ne_nil hds.1
  have hc : c.isDigit = true := hds.2 c List.mem_cons_self
  unfold splitSign
  split
  next h => cases h; exact absurd hc (by decide)
  next h => cases h; exact absurd hc (by decide)
  next => rfl

theorem readInteger?_eq {cs ds : List Char} {negative : Bool}
    (hsign : splitSign cs = (negative, ds)) :
    readInteger? cs = some n ↔ IsDigits ds ∧ signed negative (digitsValue ds) = n := by
  have hdigits : (ds.isEmpty || !ds.all Char.isDigit) = true ↔ ¬ IsDigits ds := by
    unfold IsDigits
    rw [← List.all_eq_true (p := Char.isDigit), Bool.or_eq_true, List.isEmpty_iff]
    cases ds.all Char.isDigit <;> simp
  unfold readInteger?
  rw [hsign]
  dsimp only
  by_cases hds : IsDigits ds
  · rw [if_neg (by rw [hdigits]; exact not_not_intro hds), Option.some.injEq]
    exact (and_iff_right hds).symm
  · rw [if_pos (hdigits.mpr hds)]
    simp [hds]

theorem readInteger?_zeros {cs : List Char} {negative : Bool} {zeros m : Nat}
    (hsign : splitSign cs = (negative, List.replicate zeros '0' ++ Nat.toDigits 10 m)) :
    readInteger? cs = some (signed negative m) := by
  refine (readInteger?_eq hsign).mpr ⟨zeros_isDigits zeros m, ?_⟩
  rw [digitsValue_zeros]

/-- A text is read as an integer exactly when it is a way to write it. -/
theorem readInteger?_eq_some_iff {cs : List Char} :
    readInteger? cs = some n ↔ IntegerSpelling n cs := by
  constructor
  · intro hread
    rcases hsign : splitSign cs with ⟨negative, ds⟩
    obtain ⟨hds, rfl⟩ := (readInteger?_eq hsign).mp hread
    obtain ⟨zeros, hzeros⟩ := digits_spelling hds
    unfold splitSign at hsign
    split at hsign
    next =>
      cases hsign
      rw [hzeros, digitsValue_zeros]
      exact .minus _ _
    next =>
      cases hsign
      rw [hzeros, digitsValue_zeros]
      exact .plus _ _
    next =>
      cases hsign
      rw [hzeros, digitsValue_zeros]
      exact .bare _ _
  · intro hspelled
    cases hspelled with
    | bare m zeros => exact readInteger?_zeros (splitSign_digits (zeros_isDigits zeros m))
    | plus m zeros =>
      have hsign : splitSign ('+' :: (List.replicate zeros '0' ++ Nat.toDigits 10 m))
        = (false, List.replicate zeros '0' ++ Nat.toDigits 10 m) := rfl
      exact readInteger?_zeros hsign
    | minus m zeros =>
      have hsign : splitSign ('-' :: (List.replicate zeros '0' ++ Nat.toDigits 10 m))
        = (true, List.replicate zeros '0' ++ Nat.toDigits 10 m) := rfl
      exact readInteger?_zeros hsign

theorem repr_spelling (n : Int) : IntegerSpelling n (Int.repr n).toList := by
  cases n with
  | ofNat m =>
    rw [toList_repr_ofNat]
    exact .bare m 0
  | negSucc m =>
    rw [toList_repr_negSucc]
    exact .minus (m + 1) 0

theorem readInteger?_repr (n : Int) : readInteger? (Int.repr n).toList = some n :=
  readInteger?_eq_some_iff.mpr (repr_spelling n)

/-- A number is that of a word of 64 bits when it has one. -/
theorem toInt_of_int64? {w : Int64} (h : int64? n = some w) : w.toInt = n := by
  unfold int64? at h
  split at h
  next hrange =>
    cases h
    exact Int64.toInt_ofInt_of_le hrange.1 hrange.2
  next => cases h

/-- A text is read as a word of 64 bits exactly when it is a way to write its number. -/
theorem readWord?_eq_some_iff {w : Int64} {cs : List Char} :
    (readInteger? cs).bind int64? = some w ↔ IntegerSpelling w.toInt cs := by
  rw [Option.bind_eq_some_iff]
  constructor
  · rintro ⟨n, hread, hword⟩
    rw [toInt_of_int64? hword]
    exact readInteger?_eq_some_iff.mp hread
  · intro h
    exact ⟨w.toInt, readInteger?_eq_some_iff.mpr h, int64?_toInt w⟩

theorem int64?_eq (hlow : -(Int.pow 2 63) ≤ n) (hhigh : n < Int.pow 2 63) :
    int64? n = some (Int64.ofInt n) ∧ (Int64.ofInt n).toInt = n :=
  ⟨if_pos ⟨hlow, hhigh⟩, Int64.toInt_ofInt_of_le hlow hhigh⟩

end Tabularium
