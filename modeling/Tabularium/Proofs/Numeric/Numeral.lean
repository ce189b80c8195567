import Mathlib.Data.List.Induction
import Tabularium.Numeric.Layout
import Tabularium.Proofs.Numeric.ShortestDecimal

namespace Tabularium

/-- A run of at least one digit. -/
def IsDigits (ds : List Char) : Prop :=
  ds ≠ [] ∧ ∀ c ∈ ds, c.isDigit = true

/-- The parts of the text of a number without its sign. -/
structure Numeral where
  whole : List Char
  places : Option (List Char)
  power : Option (Bool × List Char)

namespace Numeral

/-- The text of the part behind the point. -/
def placesChars : Option (List Char) → List Char
  | none => []
  | some ds => '.' :: ds

/-- The text of the power of ten. -/
def powerChars : Option (Bool × List Char) → List Char
  | none => []
  | some (shrinks, ds) => 'e' :: (if shrinks then '-' else '+') :: ds

def chars (n : Numeral) : List Char :=
  n.whole ++ (placesChars n.places ++ powerChars n.power)

/-- The parts are runs of digits, and no zero stands in front of another digit. -/
structure Valid (n : Numeral) : Prop where
  whole : IsDigits n.whole
  leading : n.whole.head? = some '0' → n.whole.length = 1
  places : ∀ ds ∈ n.places, IsDigits ds
  power : ∀ p ∈ n.power, IsDigits p.2

/-- All digits before the power, as one whole number. -/
def significance (n : Numeral) : Nat :=
  digitsValue (n.whole ++ n.places.getD [])

def namedPower (n : Numeral) : Int :=
  match n.power with
  | none => 0
  | some (shrinks, ds) => signed shrinks (digitsValue ds)

/-- The number that a numeral denotes. -/
def decimal (n : Numeral) : Decimal :=
  ⟨n.significance, n.namedPower - (n.places.getD []).length⟩

end Numeral

theorem digitsValue_toDigits (n : Nat) : digitsValue (Nat.toDigits 10 n) = n :=
  Nat.ofDigitChars_ten_toDigits

theorem digitsValue_lt {ds : List Char} (hd : ∀ c ∈ ds, c.isDigit = true) :
    digitsValue ds < 10 ^ ds.length := by
  have hrun : ∀ n, Nat.ofDigitChars 10 ds n < (n + 1) * 10 ^ ds.length := by
    induction ds with
    | nil => intro n; simp
    | cons c ds ih =>
      intro n
      have hc := Char.isDigit_iff_toNat.mp (hd c List.mem_cons_self)
      have h0 : '0'.toNat = 48 := rfl
      have h9 : '9'.toNat = 57 := rfl
      rw [Nat.ofDigitChars_cons, List.length_cons, Nat.pow_succ]
      calc Nat.ofDigitChars 10 ds (10 * n + (c.toNat - '0'.toNat))
          < (10 * n + (c.toNat - '0'.toNat) + 1) * 10 ^ ds.length :=
            ih (fun k hk => hd k (List.mem_cons_of_mem c hk)) _
        _ ≤ ((n + 1) * 10) * 10 ^ ds.length := Nat.mul_le_mul_right _ (by omega)
        _ = (n + 1) * (10 ^ ds.length * 10) := by ring
  unfold digitsValue
  simpa using hrun 0

theorem toDigits_isDigits (n : Nat) : IsDigits (Nat.toDigits 10 n) :=
  ⟨Nat.toDigits_ne_nil, fun _ hc => Nat.isDigit_of_mem_toDigits (by omega) (by omega) hc⟩

/-- The first digit of a number that is not zero is none. -/
theorem toDigits_le {n : Nat} (hn : n ≠ 0) : 10 ^ ((Nat.toDigits 10 n).length - 1) ≤ n := by
  by_contra hlt
  rcases Nat.eq_zero_or_pos ((Nat.toDigits 10 n).length - 1) with h0 | hpos
  · rw [h0] at hlt
    omega
  · have hlength := (Nat.length_toDigits_le_iff (by omega) hpos).mpr (not_le.mp hlt)
    omega

/-- A run ends where something stands that does not belong to it. -/
theorem span_append {α : Type} {p : α → Bool} {run rest : List α} (hrun : ∀ c ∈ run, p c = true)
    (hrest : ∀ c ∈ rest.head?, p c = false) :
    (run ++ rest).takeWhile p = run ∧ (run ++ rest).dropWhile p = rest := by
  rw [List.takeWhile_append_of_pos hrun, List.dropWhile_append_of_pos hrun]
  cases rest with
  | nil => simp
  | cons c rest =>
    have hc := hrest c rfl
    rw [List.takeWhile_cons_of_neg (by simp [hc]), List.dropWhile_cons_of_neg (by simp [hc])]
    simp

theorem head?_append_left {α : Type} {xs ys : List α} (h : xs ≠ []) :
    (xs ++ ys).head? = xs.head? := by
  rw [List.head?_append, List.head?_eq_some_head h, Option.some_or]

/-- Only the digits of zero start with a zero. -/
theorem toDigits_leading {n : Nat} (h : (Nat.toDigits 10 n).head? = some '0') : n = 0 := by
  induction n using Nat.strongRecOn with
  | ind n ih =>
    rw [Nat.toDigits_eq_if (by omega)] at h
    split at h
    next hlt =>
      have hdigit : n.digitChar = '0' := by simpa using h
      have := Nat.toNat_digitChar_sub_48_of_lt_ten hlt
      rw [hdigit] at this
      simpa using this.symm
    next hge =>
      rw [head?_append_left Nat.toDigits_ne_nil] at h
      have := ih (n / 10) (by omega) h
      omega

namespace Decimal

variable {d : Decimal} {bound : Nat}

/-- The numeral of a decimal around its point. -/
def positional (d : Decimal) : Numeral :=
  if 0 ≤ d.exponent then
    ⟨d.digitChars ++ List.replicate d.exponent.toNat '0', some ['0'], none⟩
  else if (-d.exponent).toNat < d.digitChars.length then
    ⟨d.digitChars.take (d.digitChars.length - (-d.exponent).toNat),
      some (d.digitChars.drop (d.digitChars.length - (-d.exponent).toNat)), none⟩
  else
    ⟨['0'], some (List.replicate ((-d.exponent).toNat - d.digitChars.length) '0' ++ d.digitChars),
      none⟩

/-- The numeral of a decimal with a power of ten. -/
def scientific (d : Decimal) : Numeral :=
  ⟨d.digitChars.take 1, if d.digitChars.length = 1 then none else some (d.digitChars.drop 1),
    some (d.leading < 0, Nat.toDigits 10 d.leading.natAbs)⟩

theorem positional_chars (d : Decimal) :
    NumberLayout.positionalChars true d = d.positional.chars := by
  unfold NumberLayout.positionalChars positional
  dsimp only
  split
  · simp [Numeral.chars, Numeral.placesChars, Numeral.powerChars]
  · split <;> simp [Numeral.chars, Numeral.placesChars, Numeral.powerChars]

theorem scientific_chars (d : Decimal) :
    NumberLayout.exponentChars d = d.scientific.chars := by
  have hn : d.digitChars ≠ [] := Nat.toDigits_ne_nil
  unfold NumberLayout.exponentChars scientific
  dsimp only
  match hd : d.digitChars with
  | [] => exact absurd hd hn
  | [c] => simp [Numeral.chars, Numeral.placesChars, Numeral.powerChars]
  | c :: c' :: cs => simp [Numeral.chars, Numeral.placesChars, Numeral.powerChars]

theorem digitChars_head (h : d.Plain) (hz : d.digitChars.head? = some '0') :
    d = ⟨0, 0⟩ := by
  have hzero := toDigits_leading hz
  have := h hzero
  cases d
  simp_all

theorem zeros_digits {n : Nat} {c : Char} (hc : c ∈ List.replicate n '0') : c.isDigit = true := by
  rw [List.eq_of_mem_replicate hc]
  decide

/-- Both sides of the point are runs of digits. -/
theorem positional_digits (d : Decimal) :
    IsDigits d.positional.whole ∧ ∀ ds ∈ d.positional.places, IsDigits ds := by
  obtain ⟨hn, hd⟩ : IsDigits d.digitChars := toDigits_isDigits d.digits
  have hlen : 0 < d.digitChars.length := List.length_pos_iff.mpr hn
  unfold positional
  split
  next hpos =>
    refine ⟨⟨by simp [digitChars], fun c hc => ?_⟩, ?_⟩
    · rcases List.mem_append.mp hc with hc | hc
      · exact hd c hc
      · exact zeros_digits hc
    · intro ds hds
      cases hds
      refine ⟨by simp, fun c hc => ?_⟩
      cases List.mem_singleton.mp hc
      decide
  next hneg =>
    split
    next hlt =>
      refine ⟨⟨?_, fun c hc => hd c (List.mem_of_mem_take hc)⟩, ?_⟩
      · rw [← List.length_pos_iff, List.length_take]
        omega
      · intro ds hds
        cases hds
        refine ⟨?_, fun c hc => hd c (List.mem_of_mem_drop hc)⟩
        rw [← List.length_pos_iff, List.length_drop]
        omega
    next hge =>
      refine ⟨⟨by simp, fun c hc => ?_⟩, ?_⟩
      · cases List.mem_singleton.mp hc
        decide
      · intro ds hds
        cases hds
        refine ⟨by simp [digitChars], fun c hc => ?_⟩
        rcases List.mem_append.mp hc with hc | hc
        · exact zeros_digits hc
        · exact hd c hc

/-- A zero in front of the point stands alone. -/
theorem positional_leading (h : d.Plain) (hz : d.positional.whole.head? = some '0') :
    d.positional.whole.length = 1 := by
  have hn : d.digitChars ≠ [] := Nat.toDigits_ne_nil
  unfold positional at hz ⊢
  split at hz
  next hpos =>
    rw [if_pos hpos]
    dsimp only at hz
    rw [head?_append_left hn] at hz
    obtain rfl := digitChars_head h hz
    decide
  next hneg =>
    rw [if_neg hneg]
    split at hz
    next hlt =>
      dsimp only at hz
      rw [List.head?_take, if_neg (by omega)] at hz
      obtain rfl := digitChars_head h hz
      exact absurd le_rfl hneg
    next hge => rw [if_neg hge]; rfl

theorem positional_power (d : Decimal) : d.positional.power = none := by
  unfold positional
  split
  · rfl
  · split <;> rfl

theorem positional_valid (h : d.Plain) : d.positional.Valid := by
  obtain ⟨hwhole, hplaces⟩ := positional_digits d
  exact ⟨hwhole, positional_leading h, hplaces, by simp [positional_power]⟩

theorem scientific_valid (d : Decimal) : d.scientific.Valid := by
  obtain ⟨hn, hd⟩ : IsDigits d.digitChars := toDigits_isDigits d.digits
  have hlen : 0 < d.digitChars.length := List.length_pos_iff.mpr hn
  have htake : (d.digitChars.take 1).length = 1 := by
    rw [List.length_take]
    omega
  refine ⟨⟨?_, fun c hc => hd c (List.mem_of_mem_take hc)⟩, fun _ => htake, ?_, ?_⟩
  · rw [← List.length_pos_iff]
    exact htake.symm ▸ Nat.one_pos
  · intro ds hds
    unfold scientific at hds
    dsimp only at hds
    split at hds
    next => cases hds
    next hne =>
      cases hds
      refine ⟨?_, fun c hc => hd c (List.mem_of_mem_drop hc)⟩
      rw [← List.length_pos_iff, List.length_drop]
      omega
  · intro p hp
    cases hp
    exact toDigits_isDigits _

theorem digitChars_value (d : Decimal) : digitsValue d.digitChars = d.digits :=
  digitsValue_toDigits d.digits

theorem positional_decimal (h : d.AtMost bound) : d.positional.decimal.AtMost bound := by
  have hvalue := d.digitChars_value
  unfold positional
  split
  next hpos =>
    have hdigits : digitsValue (d.digitChars ++ List.replicate d.exponent.toNat '0' ++ ['0'])
        = 10 * (10 ^ d.exponent.toNat * d.digits) := by
      unfold digitsValue at hvalue ⊢
      rw [Nat.ofDigitChars_append, Nat.ofDigitChars_append, Nat.ofDigitChars_replicate_zero, hvalue]
      rfl
    have hz : (-d.exponent).toNat = 0 := by omega
    unfold AtMost at h ⊢
    rw [hz, Nat.pow_zero, Nat.mul_one, Nat.mul_comm] at h
    simp only [Numeral.decimal, Numeral.significance, Numeral.namedPower, Option.getD_some, hdigits,
      List.length_singleton]
    have hleft : (0 - ((1 : Nat) : Int)).toNat = 0 := rfl
    have hright : (-(0 - ((1 : Nat) : Int))).toNat = 1 := rfl
    rw [hleft, hright]
    omega
  next hneg =>
    have hexponent : (0 : Int) - (-d.exponent).toNat = d.exponent := by omega
    have same : ∀ n : Numeral, n.power = none → n.significance = d.digits →
        (n.places.getD []).length = (-d.exponent).toNat → n.decimal.AtMost bound := by
      intro n hpower hsignificance hlength
      have heq : n.decimal = d := by
        unfold Numeral.decimal Numeral.namedPower
        rw [hpower, hsignificance, hlength]
        dsimp only
        rw [hexponent]
      rwa [heq]
    split
    next hlt =>
      refine same _ rfl ?_ ?_
      · simp only [Numeral.significance, Option.getD_some, List.take_append_drop, hvalue]
      · simp only [Option.getD_some, List.length_drop]
        omega
    next hge =>
      refine same _ rfl ?_ ?_
      · have hzero : Nat.ofDigitChars 10 ['0'] 0 = 0 := rfl
        simp only [Numeral.significance, Option.getD_some, digitsValue, Nat.ofDigitChars_append,
          Nat.ofDigitChars_replicate_zero, hzero, Nat.mul_zero] at hvalue ⊢
        exact hvalue
      · simp only [Option.getD_some, List.length_append, List.length_replicate]
        omega

theorem scientific_decimal (d : Decimal) : d.scientific.decimal = d := by
  have hlen : 0 < d.digitChars.length := List.length_pos_iff.mpr Nat.toDigits_ne_nil
  have hplaces : (if d.digitChars.length = 1 then none else some (d.digitChars.drop 1)).getD []
      = d.digitChars.drop 1 := by
    split
    next h => rw [List.drop_eq_nil_of_le h.le, Option.getD_none]
    next => rfl
  have hpower : signed (decide (d.leading < 0)) d.leading.natAbs = d.leading := by
    unfold signed
    split
    next h =>
      have := of_decide_eq_true h
      omega
    next h =>
      have := of_decide_eq_false (Bool.not_eq_true _ ▸ h)
      omega
  unfold Numeral.decimal Numeral.significance Numeral.namedPower scientific
  simp only [hplaces, List.take_append_drop, digitChars_value, digitsValue_toDigits, hpower,
    List.length_drop]
  unfold leading
  congr 1
  omega

/-- The first digit of a decimal below a power of ten stands below that power. -/
theorem leading_le {limit : Nat} (h : d.AtMost bound) (hp : d.Plain) (hb : bound < 10 ^ limit) :
    d.leading ≤ limit := by
  have hlen : 0 < d.digitChars.length := List.length_pos_iff.mpr Nat.toDigits_ne_nil
  unfold leading
  by_cases hz : d.digits = 0
  · have hone : d.digitChars.length = 1 := by
      unfold digitChars
      rw [hz, Nat.toDigits_zero]
      rfl
    have := hp hz
    omega
  · have hfirst : 10 ^ (d.digitChars.length - 1) ≤ d.digits := toDigits_le hz
    have hpow : 10 ^ (d.digitChars.length - 1 + d.exponent.toNat)
        < 10 ^ (limit + (-d.exponent).toNat) := by
      calc 10 ^ (d.digitChars.length - 1 + d.exponent.toNat)
          = 10 ^ (d.digitChars.length - 1) * 10 ^ d.exponent.toNat := Nat.pow_add ..
        _ ≤ d.digits * 10 ^ d.exponent.toNat := Nat.mul_le_mul_right _ hfirst
        _ ≤ bound * 10 ^ (-d.exponent).toNat := h
        _ < 10 ^ limit * 10 ^ (-d.exponent).toNat :=
          Nat.mul_lt_mul_of_pos_right hb (Nat.pow_pos (by omega))
        _ = 10 ^ (limit + (-d.exponent).toNat) := (Nat.pow_add ..).symm
    have := (Nat.pow_lt_pow_iff_right (by omega)).mp hpow
    omega

/-- The whole part of a decimal that is written around its point has few digits. -/
theorem positional_whole_lt {limit : Nat} (hp : d.Plain) (h0 : 0 < limit) (hl : d.leading < limit) :
    digitsValue d.positional.whole < 10 ^ limit := by
  refine (digitsValue_lt (positional_valid hp).whole.2).trans_le ?_
  refine Nat.pow_le_pow_right (by omega) ?_
  have hlen : 0 < d.digitChars.length := List.length_pos_iff.mpr Nat.toDigits_ne_nil
  unfold leading at hl
  unfold positional
  split
  · rw [List.length_append, List.length_replicate]
    omega
  · split
    · rw [List.length_take]
      omega
    · rw [List.length_singleton]
      omega

end Decimal

theorem digitChar_toNat {c : Char} (hc : c.isDigit = true) :
    Nat.digitChar (c.toNat - '0'.toNat) = c := by
  have hrange := Char.isDigit_iff_toNat.mp hc
  have h0 : '0'.toNat = 48 := rfl
  have h9 : '9'.toNat = 57 := rfl
  apply Char.toNat_inj.mp
  rw [Nat.toNat_digitChar_of_lt_ten (by omega)]
  omega

theorem digitsValue_snoc (ds : List Char) (c : Char) :
    digitsValue (ds ++ [c]) = 10 * digitsValue ds + (c.toNat - '0'.toNat) := by
  unfold digitsValue
  rw [Nat.ofDigitChars_append, Nat.ofDigitChars_cons, Nat.ofDigitChars_nil]

/-- A run of digits is the digits of its value behind zeros. -/
theorem digits_spelling {ds : List Char} (hds : IsDigits ds) :
    ∃ zeros, ds = List.replicate zeros '0' ++ Nat.toDigits 10 (digitsValue ds) := by
  obtain ⟨hne, hdigits⟩ := hds
  induction ds using List.reverseRecOn with
  | nil => exact absurd rfl hne
  | append_singleton ds c ih =>
    have hc : c.isDigit = true := hdigits c (by simp)
    have hrange := Char.isDigit_iff_toNat.mp hc
    have h0 : '0'.toNat = 48 := rfl
    have h9 : '9'.toNat = 57 := rfl
    have hsmall : c.toNat - '0'.toNat < 10 := by omega
    have hlast : Nat.toDigits 10 (c.toNat - '0'.toNat) = [c] := by
      rw [Nat.toDigits_of_lt_base hsmall, digitChar_toNat hc]
    rw [digitsValue_snoc]
    by_cases hnil : ds = []
    · subst hnil
      refine ⟨0, ?_⟩
      have hzero : digitsValue [] = 0 := rfl
      rw [hzero, Nat.mul_zero, Nat.zero_add, hlast]
      rfl
    · obtain ⟨zeros, hfront⟩ := ih hnil fun d hd => hdigits d (by simp [hd])
      by_cases hvalue : digitsValue ds = 0
      · -- The front has zeros only, which join the zeros in front.
        refine ⟨zeros + 1, ?_⟩
        rw [hvalue, Nat.toDigits_zero] at hfront
        rw [hvalue, Nat.mul_zero, Nat.zero_add, hlast, List.replicate_succ', ← hfront]
      · have hjoin := Nat.toDigits_append_toDigits (by decide : 1 < 10)
          (Nat.pos_of_ne_zero hvalue) hsmall
        refine ⟨zeros, ?_⟩
        rw [← hjoin, hlast, ← List.append_assoc, ← hfront]

theorem digitsValue_zeros (zeros n : Nat) :
    digitsValue (List.replicate zeros '0' ++ Nat.toDigits 10 n) = n := by
  have hvalue := digitsValue_toDigits n
  unfold digitsValue at hvalue ⊢
  rw [Nat.ofDigitChars_append, Nat.ofDigitChars_replicate_zero, Nat.mul_zero, hvalue]

theorem zeros_isDigits (zeros n : Nat) :
    IsDigits (List.replicate zeros '0' ++ Nat.toDigits 10 n) := by
  obtain ⟨hne, hdigits⟩ := toDigits_isDigits n
  refine ⟨by simp [hne], fun c hc => ?_⟩
  rcases List.mem_append.mp hc with hc | hc
  · exact Decimal.zeros_digits hc
  · exact hdigits c hc

end Tabularium
