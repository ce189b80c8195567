import Mathlib.Data.List.TakeWhile
import Tabularium.Proofs.Characters
import Tabularium.Proofs.Numeric.IntegerText
import Tabularium.Proofs.Numeric.Nearest

namespace Tabularium

namespace Binary64

variable {negative : Bool} {x : Binary64}

/-- A power of ten puts the digits into the numerator or itself into the denominator. -/
theorem ofDecimal_eq (digits : Nat) (exponent : Int) : ofDecimal negative digits exponent
    = ofRatio negative (digits * 10 ^ exponent.toNat) (10 ^ (-exponent).toNat) := by
  have hden : 10 ^ (-exponent).toNat ≠ 0 := by simp
  have hless := digitsValue_lt (toDigits_isDigits digits).2
  rw [digitsValue_toDigits] at hless
  unfold ofDecimal
  dsimp only
  split
  next hzero =>
    rw [hzero, Nat.zero_mul]
    exact (if_pos rfl).symm
  next hzero =>
    have hfirst := toDigits_le hzero
    generalize (Nat.toDigits 10 digits).length = length at hless hfirst ⊢
    split
    next hlarge =>
      obtain ⟨limit, hlimit, htop⟩ : ∃ limit, limit = 310 ∧ Nat.pow 2 1024 ≤ 10 ^ limit :=
        ⟨310, rfl, by decide +kernel⟩
      refine (ofRatio_large hden ?_).symm
      generalize Nat.pow 2 1024 = top at htop ⊢
      calc top * 10 ^ (-exponent).toNat ≤ 10 ^ limit * 10 ^ (-exponent).toNat :=
            Nat.mul_le_mul_right _ htop
        _ = 10 ^ (limit + (-exponent).toNat) := (Nat.pow_add ..).symm
        _ ≤ 10 ^ (length - 1 + exponent.toNat) := Nat.pow_le_pow_right (by omega) (by omega)
        _ = 10 ^ (length - 1) * 10 ^ exponent.toNat := Nat.pow_add ..
        _ ≤ digits * 10 ^ exponent.toNat := Nat.mul_le_mul_right _ hfirst
    next =>
      split
      next hsmall =>
        obtain ⟨limit, hlimit, hbottom⟩ : ∃ limit, limit = 330 ∧ 2 * Nat.pow 2 1074 ≤ 10 ^ limit :=
          ⟨330, rfl, by decide +kernel⟩
        have hpower : exponent.toNat = 0 := by omega
        refine (ofRatio_small hden ?_).symm
        generalize Nat.pow 2 1074 = unit at hbottom
        calc 2 * (digits * 10 ^ exponent.toNat * unit) = digits * (2 * unit) := by
              rw [hpower]; ring
          _ ≤ digits * 10 ^ limit := Nat.mul_le_mul_left _ hbottom
          _ < 10 ^ length * 10 ^ limit :=
            Nat.mul_lt_mul_of_pos_right hless (Nat.pow_pos (by omega))
          _ = 10 ^ (length + limit) := (Nat.pow_add ..).symm
          _ ≤ 10 ^ (-exponent).toNat := Nat.pow_le_pow_right (by omega) (by omega)
      next =>
        split
        next hwhole =>
          have hplaces : (-exponent).toNat = 0 := by omega
          rw [hplaces, Nat.pow_zero, Nat.pow_eq]
        next hfraction =>
          have hpower : exponent.toNat = 0 := by omega
          rw [hpower, Nat.pow_zero, Nat.mul_one, Nat.pow_eq]

/-- The number is the nearest to digits times a power of ten, with a sign. -/
def IsNearestDecimal (x : Binary64) (negative : Bool) (digits : Nat) (exponent : Int) : Prop :=
  x.IsNearest negative (digits * 10 ^ exponent.toNat) (10 ^ (-exponent).toNat)

theorem ofDecimal_eq_iff {digits : Nat} {exponent : Int} :
    ofDecimal negative digits exponent = x ↔ x.IsNearestDecimal negative digits exponent := by
  rw [ofDecimal_eq, ofRatio_eq_iff (by simp), IsNearestDecimal]

end Binary64

/-- The digits of a significand, with how many of them stand behind the point. A point needs a digit
on one side of it. -/
inductive SignificandSpelling : Nat → Nat → List Char → Prop
  | whole (n zeros : Nat) :
    SignificandSpelling n 0 (List.replicate zeros '0' ++ Nat.toDigits 10 n)
  | pointed {n zeros : Nat} {whole places : List Char}
      (h : whole ++ places = List.replicate zeros '0' ++ Nat.toDigits 10 n) :
    SignificandSpelling n places.length (whole ++ '.' :: places)

def IsExponentMark (c : Char) : Prop :=
  c = 'e' ∨ c = 'E'

/-- The ways to write a significand times a power of ten. Behind an exponent mark stands an
integer. -/
inductive UnsignedSpelling : Nat → Int → List Char → Prop
  | unmarked {n places : Nat} {cs : List Char} (h : SignificandSpelling n places cs) :
    UnsignedSpelling n (-places) cs
  | marked {n places : Nat} {e : Int} {mark : Char} {cs power : List Char}
      (h : SignificandSpelling n places cs) (hmark : IsExponentMark mark)
      (hpower : IntegerSpelling e power) :
    UnsignedSpelling n (e - places) (cs ++ mark :: power)

/-- The ways to write a number with a sign, true for a minus, that is digits times a power of
ten. -/
inductive DecimalSpelling : Bool → Nat → Int → List Char → Prop
  | bare {n : Nat} {e : Int} {cs : List Char} (h : UnsignedSpelling n e cs) :
    DecimalSpelling false n e cs
  | plus {n : Nat} {e : Int} {cs : List Char} (h : UnsignedSpelling n e cs) :
    DecimalSpelling false n e ('+' :: cs)
  | minus {n : Nat} {e : Int} {cs : List Char} (h : UnsignedSpelling n e cs) :
    DecimalSpelling true n e ('-' :: cs)

variable {n places : Nat} {cs : List Char}

theorem SignificandSpelling.chars (h : SignificandSpelling n places cs) :
    ∀ c ∈ cs, c.isDigit = true ∨ c = '.' := by
  cases h with
  | whole zeros => exact fun c hc => .inl ((zeros_isDigits zeros n).2 c hc)
  | @pointed zeros whole places h =>
    intro c hc
    have hdigits := (zeros_isDigits zeros n).2
    rw [← h] at hdigits
    simp only [List.mem_append, List.mem_cons] at hc hdigits
    rcases hc with hc | rfl | hc
    · exact .inl (hdigits c (.inl hc))
    · exact .inr rfl
    · exact .inl (hdigits c (.inr hc))

theorem SignificandSpelling.unmarked (h : SignificandSpelling n places cs) :
    ∀ c ∈ cs, ¬ IsExponentMark c := by
  rintro c hc (rfl | rfl) <;> exact absurd (h.chars _ hc) (by decide)

theorem SignificandSpelling.head (h : SignificandSpelling n places cs) (rest : List Char) :
    ∃ c, (cs ++ rest).head? = some c ∧ (c.isDigit = true ∨ c = '.') := by
  have hne : cs ≠ [] := by
    cases h with
    | whole zeros => exact (zeros_isDigits zeros n).1
    | pointed => simp
  obtain ⟨c, cs, rfl⟩ := List.exists_cons_of_ne_nil hne
  exact ⟨c, rfl, h.chars c List.mem_cons_self⟩

theorem UnsignedSpelling.head {e : Int} (h : UnsignedSpelling n e cs) :
    ∃ c, cs.head? = some c ∧ (c.isDigit = true ∨ c = '.') := by
  cases h with
  | unmarked h => simpa using h.head []
  | marked h => exact h.head _

/-- The sign of a number and what stands behind it. -/
theorem decimalSpelling_iff {negative : Bool} {e : Int} : DecimalSpelling negative n e cs
    ↔ (splitSign cs).1 = negative ∧ UnsignedSpelling n e (splitSign cs).2 := by
  constructor
  · intro h
    cases h with
    | bare h =>
      obtain ⟨c, hhead, hc⟩ := h.head
      have hsign : splitSign cs = (false, cs) := by
        unfold splitSign
        split
        next => cases hhead; exact absurd hc (by decide)
        next => cases hhead; exact absurd hc (by decide)
        next => rfl
      rw [hsign]
      exact ⟨rfl, h⟩
    | plus h => exact ⟨rfl, h⟩
    | minus h => exact ⟨rfl, h⟩
  · rintro ⟨rfl, h⟩
    unfold splitSign at h ⊢
    split at h
    next => exact .minus h
    next => exact .plus h
    next => exact .bare h

namespace Binary64

theorem isMantissa_iff {whole places : List Char} :
    (places.all Char.isDigit && !(whole.isEmpty && places.isEmpty)) = true
      ↔ (∀ c ∈ places, c.isDigit = true) ∧ whole ++ places ≠ [] := by
  rw [Bool.and_eq_true, List.all_eq_true]
  cases whole <;> cases places <;> simp

/-- Digits are read as the significand that they spell. -/
theorem significand_of_readMantissa? (h : readMantissa? cs = some (n, places)) :
    SignificandSpelling n places cs := by
  have hparts := List.takeWhile_append_dropWhile (p := Char.isDigit) (l := cs)
  have hwhole : ∀ c ∈ cs.takeWhile Char.isDigit, c.isDigit = true := fun c hc =>
    List.mem_takeWhile_imp hc
  unfold readMantissa? at h
  generalize cs.takeWhile Char.isDigit = whole at h hparts hwhole
  dsimp only at h
  split at h
  next hrest =>
    rw [hrest, List.append_nil] at hparts
    subst hparts
    split at h
    next => cases h
    next hempty =>
      cases h
      obtain ⟨zeros, hzeros⟩ := digits_spelling ⟨by simpa using hempty, hwhole⟩
      have hspelled := SignificandSpelling.whole (digitsValue whole) zeros
      rwa [← hzeros] at hspelled
  next places hrest =>
    rw [hrest] at hparts
    split at h
    next hplaces =>
      cases h
      obtain ⟨hplaces, hne⟩ := isMantissa_iff.mp hplaces
      have hdigits : IsDigits (whole ++ places) :=
        ⟨hne, fun c hc => (List.mem_append.mp hc).elim (hwhole c) (hplaces c)⟩
      obtain ⟨zeros, hzeros⟩ := digits_spelling hdigits
      rw [← hparts]
      exact .pointed hzeros
    next => cases h
  next => cases h

theorem readMantissa?_spelled (h : SignificandSpelling n places cs) :
    readMantissa? cs = some (n, places) := by
  cases h with
  | whole zeros =>
    obtain ⟨hne, hdigits⟩ := zeros_isDigits zeros n
    have hvalue := digitsValue_zeros zeros n
    generalize List.replicate zeros '0' ++ Nat.toDigits 10 n = ds at hne hdigits hvalue ⊢
    have hspan : (ds ++ []).takeWhile Char.isDigit = ds ∧ (ds ++ []).dropWhile Char.isDigit = [] :=
      span_append hdigits (by simp)
    rw [List.append_nil] at hspan
    simp [readMantissa?, hspan, hne, hvalue]
  | @pointed zeros whole places h =>
    obtain ⟨hne, hdigits⟩ := zeros_isDigits zeros n
    have hvalue := digitsValue_zeros zeros n
    rw [← h] at hne hdigits hvalue
    have hwhole : ∀ c ∈ whole, c.isDigit = true := fun c hc =>
      hdigits c (List.mem_append_left places hc)
    have hplaces : ∀ c ∈ places, c.isDigit = true := fun c hc =>
      hdigits c (List.mem_append_right whole hc)
    have hpoint : ∀ c ∈ ('.' :: places).head?, c.isDigit = false := by simp
    obtain ⟨htake, hdrop⟩ := span_append hwhole hpoint
    unfold readMantissa?
    rw [htake, hdrop]
    refine (if_pos (isMantissa_iff.mpr ⟨hplaces, hne⟩)).trans ?_
    rw [hvalue]

theorem unmarked_iff {c : Char} : (c != 'e' && c != 'E') = true ↔ ¬ IsExponentMark c := by
  simp [IsExponentMark]

theorem exists_unmarked (cs : List Char) : ∃ front rest, cs = front ++ rest
    ∧ (∀ c ∈ front, ¬ IsExponentMark c) ∧ ∀ c ∈ rest.head?, IsExponentMark c := by
  induction cs with
  | nil => exact ⟨[], [], rfl, by simp, by simp⟩
  | cons c cs ih =>
    by_cases hc : IsExponentMark c
    · exact ⟨[], c :: cs, rfl, by simp, by simpa using hc⟩
    · obtain ⟨front, rest, rfl, hfront, hrest⟩ := ih
      exact ⟨c :: front, rest, rfl, List.forall_mem_cons.mpr ⟨hc, hfront⟩, hrest⟩

/-- What stands in front of the first exponent mark is read as a significand. -/
theorem readUnsigned?_append {front rest : List Char} (hfront : ∀ c ∈ front, ¬ IsExponentMark c)
    (hrest : ∀ c ∈ rest.head?, IsExponentMark c) :
    readUnsigned? negative (front ++ rest) = (readMantissa? front).bind fun (digits, places) =>
      match rest with
      | [] => some (ofDecimal negative digits (-places))
      | _ :: power => (readInteger? power).map fun e => ofDecimal negative digits (e - places) := by
  have hspan : (front ++ rest).takeWhile (fun c => c != 'e' && c != 'E') = front :=
    (span_append (fun c hc => unmarked_iff.mpr (hfront c hc))
      fun c hc => Bool.eq_false_iff.mpr fun h => unmarked_iff.mp h (hrest c hc)).1
  unfold readUnsigned?
  dsimp only
  rw [hspan, List.drop_left]
  cases readMantissa? front <;> cases rest <;> rfl

theorem readUnsigned?_eq_some_iff : readUnsigned? negative cs = some x
    ↔ ∃ digits exponent, UnsignedSpelling digits exponent cs
      ∧ ofDecimal negative digits exponent = x := by
  constructor
  · intro h
    obtain ⟨front, rest, rfl, hfront, hrest⟩ := exists_unmarked cs
    rw [readUnsigned?_append hfront hrest] at h
    obtain ⟨⟨digits, places⟩, hread, hx⟩ := Option.bind_eq_some_iff.mp h
    have hspelled := significand_of_readMantissa? hread
    cases rest with
    | nil =>
      rw [List.append_nil]
      exact ⟨digits, -places, .unmarked hspelled, Option.some.inj hx⟩
    | cons mark power =>
      obtain ⟨e, hpower, hx⟩ := Option.map_eq_some_iff.mp hx
      exact ⟨digits, e - places,
        .marked hspelled (hrest mark rfl) (readInteger?_eq_some_iff.mp hpower), hx⟩
  · rintro ⟨digits, exponent, hspelled, rfl⟩
    cases hspelled with
    | unmarked h =>
      rw [← List.append_nil cs, readUnsigned?_append h.unmarked (by simp), readMantissa?_spelled h]
      rfl
    | marked h hmark hpower =>
      rw [readUnsigned?_append h.unmarked (by simpa using hmark), readMantissa?_spelled h,
        Option.bind_some]
      dsimp only
      rw [readInteger?_eq_some_iff.mpr hpower, Option.map_some]

/-- A number keeps its first character in lower case, so it is no word. -/
theorem head?_of_readUnsigned? {word : String} (hread : readUnsigned? negative cs = some x)
    (hword : String.ofList (cs.map Char.toLower) = word) :
    ∃ c, word.toList.head? = some c ∧ (c.isDigit = true ∨ c = '.') := by
  obtain ⟨digits, exponent, hspelled, -⟩ := readUnsigned?_eq_some_iff.mp hread
  obtain ⟨c, hhead, hc⟩ := hspelled.head
  have hlower : c.toLower = c := by
    rcases hc with hdigit | rfl
    · have hrange := Char.isDigit_iff_toNat.mp hdigit
      have h9 : '9'.toNat = 57 := rfl
      exact toLower_self (by omega)
    · rfl
  refine ⟨c, ?_, hc⟩
  rw [← hword, String.toList_ofList, List.head?_map, hhead, Option.map_some, hlower]

/-- The words stand for numbers that are not finite. -/
theorem read?_finite (hfinite : x.isFinite = true) :
    read? cs = some x ↔ readUnsigned? (splitSign cs).1 (splitSign cs).2 = some x := by
  have hnan : ∀ negative, (withSign negative nan).isFinite = false := by decide +kernel
  have hword : ∀ {word : String} {y : Binary64} (c : Char), word.toList.head? = some c →
      ¬ (c.isDigit = true ∨ c = '.') → y.isFinite = false →
      String.ofList ((splitSign cs).2.map Char.toLower) = word →
      (some y = some x ↔ readUnsigned? (splitSign cs).1 (splitSign cs).2 = some x) := by
    intro word y c hhead hc hy hword
    refine ⟨fun h => ?_, fun h => ?_⟩
    · rw [Option.some.inj h, hfinite] at hy
      cases hy
    · obtain ⟨d, hd, hstart⟩ := head?_of_readUnsigned? h hword
      rw [hhead] at hd
      exact absurd hstart (Option.some.inj hd ▸ hc)
  unfold read?
  split
  next negative body hsign =>
    rw [hsign] at hword ⊢
    split
    next h => exact hword 'i' rfl (by decide) infinity_isFinite h
    next h => exact hword 'i' rfl (by decide) infinity_isFinite h
    next h => exact hword 'n' rfl (by decide) (hnan negative) h
    next => rfl

/-- A text is read as a finite number exactly when it spells digits times a power of ten to which
the number is the nearest. -/
theorem read?_eq_some_iff (hfinite : x.isFinite = true) : read? cs = some x
    ↔ ∃ negative digits exponent, DecimalSpelling negative digits exponent cs
      ∧ x.IsNearestDecimal negative digits exponent := by
  rw [read?_finite hfinite, readUnsigned?_eq_some_iff]
  constructor
  · rintro ⟨digits, exponent, hspelled, hnearest⟩
    exact ⟨_, digits, exponent, decimalSpelling_iff.mpr ⟨rfl, hspelled⟩,
      ofDecimal_eq_iff.mp hnearest⟩
  · rintro ⟨negative, digits, exponent, hspelled, hnearest⟩
    obtain ⟨rfl, hunsigned⟩ := decimalSpelling_iff.mp hspelled
    exact ⟨digits, exponent, hunsigned, ofDecimal_eq_iff.mpr hnearest⟩

end Binary64

end Tabularium
