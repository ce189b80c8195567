import Tabularium.Proofs.Numeric.Numeral
import Tabularium.Proofs.Numeric.Scaling

namespace Tabularium

namespace Draft

open Numeral

variable {ds rest : List Char}

/-- A text that does not continue the number in front of it. -/
def Ends (rest : List Char) : Prop :=
  ∀ c ∈ rest.head?, c.isDigit = false ∧ c ≠ '.' ∧ c ≠ 'e' ∧ c ≠ 'E'

theorem readPower_chars {power : Option (Bool × List Char)} (hp : ∀ p ∈ power, IsDigits p.2)
    (hr : Ends rest) : readPower (powerChars power ++ rest) = some (power, rest)
      ∧ ∀ c ∈ (powerChars power ++ rest).head?, c.isDigit = false ∧ c ≠ '.' := by
  cases power with
  | none =>
    refine ⟨?_, fun c hc => ⟨(hr c hc).1, (hr c hc).2.1⟩⟩
    cases rest with
    | nil => rfl
    | cons c rest =>
      obtain ⟨-, -, he, hE⟩ := hr c rfl
      simp [powerChars, readPower, he, hE]
  | some p =>
    obtain ⟨shrinks, ds⟩ := p
    obtain ⟨hn, hd⟩ := hp _ rfl
    obtain ⟨htake, hdrop⟩ := span_append hd fun c hc => (hr c hc).1
    constructor
    · have hempty : ¬ ds.isEmpty = true := by simpa using hn
      cases shrinks <;> simp [powerChars, readPower, splitSign, htake, hdrop, hempty]
    · intro c hc
      cases hc
      exact ⟨by decide, by decide⟩

theorem readPlaces_chars {places : Option (List Char)} (hp : ∀ ds ∈ places, IsDigits ds)
    (hr : ∀ c ∈ rest.head?, c.isDigit = false ∧ c ≠ '.') :
    readPlaces (placesChars places ++ rest) = some (places, rest)
      ∧ ∀ c ∈ (placesChars places ++ rest).head?, c.isDigit = false := by
  cases places with
  | none =>
    refine ⟨?_, fun c hc => (hr c hc).1⟩
    unfold readPlaces
    split
    next h =>
      have hhead : '.' ∈ rest.head? := by
        rw [show rest = placesChars none ++ rest from rfl, h]
        rfl
      exact absurd rfl (hr _ hhead).2
    next => rfl
  | some ds =>
    obtain ⟨hn, hd⟩ := hp ds rfl
    obtain ⟨htake, hdrop⟩ := span_append hd fun c hc => (hr c hc).1
    constructor
    · have hempty : ¬ ds.isEmpty = true := by simpa using hn
      simp [placesChars, readPlaces, htake, hdrop, hempty]
    · intro c hc
      cases hc
      decide

/-- A numeral is read as the value of its parts. -/
theorem readUnsigned_chars {n : Numeral} (negative : Bool) (hv : n.Valid) (hr : Ends rest) :
    readUnsigned negative (n.chars ++ rest)
      = some (numberValue negative n.whole n.places n.power, rest) := by
  obtain ⟨hpower, hbehind⟩ := readPower_chars hv.power hr
  obtain ⟨hplaces, hmiddle⟩ := readPlaces_chars hv.places hbehind
  obtain ⟨htake, hdrop⟩ := span_append hv.whole.2 hmiddle
  have htext : n.chars ++ rest
      = n.whole ++ (placesChars n.places ++ (powerChars n.power ++ rest)) := by
    simp only [chars, List.append_assoc]
  have haccepted : ¬ (n.whole.isEmpty || n.whole.head? == some '0' && decide (1 < n.whole.length))
      = true := by
    simp only [Bool.or_eq_true, List.isEmpty_iff, Bool.and_eq_true, beq_iff_eq, decide_eq_true_eq,
      not_or, not_and]
    refine ⟨hv.whole.1, fun hzero => ?_⟩
    have := hv.leading hzero
    omega
  rw [htext]
  unfold readUnsigned
  simp only [htake, hdrop]
  rw [if_neg haccepted]
  simp only [hplaces, hpower, Option.bind_eq_bind, Option.bind_some]
  rfl

theorem le_ofDigitChars (cs : List Char) (n : Nat) :
    n * 10 ^ cs.length ≤ Nat.ofDigitChars 10 cs n := by
  rw [Nat.ofDigitChars_eq_ofDigitChars_zero, Nat.mul_comm]
  exact Nat.le_add_right _ _

/-- What is gathered from digits, continued by zeros for those left over, is at most their value. -/
theorem gather_le (cs : List Char) (n : Nat) :
    (gather n cs).2 ≤ cs.length
      ∧ (gather n cs).1 * 10 ^ (gather n cs).2 ≤ Nat.ofDigitChars 10 cs n := by
  fun_induction gather n cs with
  | case1 n => simp
  | case2 n c cs longer h ih =>
    rw [Nat.ofDigitChars_cons]
    exact ⟨Nat.le_succ_of_le ih.1, ih.2⟩
  | case3 n c cs longer h => exact ⟨le_rfl, le_ofDigitChars (c :: cs) n⟩

theorem gather_lt (cs : List Char) {n : Nat} (hn : n < 2 ^ 64) : (gather n cs).1 < 2 ^ 64 := by
  fun_induction gather n cs with
  | case1 n => exact hn
  | case2 n c cs longer h ih => exact ih h
  | case3 n c cs longer h => exact hn

/-- Digits whose value fits are gathered without loss. -/
theorem gather_eq (cs : List Char) {n : Nat} (h : Nat.ofDigitChars 10 cs n < 2 ^ 64) :
    gather n cs = (Nat.ofDigitChars 10 cs n, 0) := by
  fun_induction gather n cs with
  | case1 n => rw [Nat.ofDigitChars_nil]
  | case2 n c cs longer hl ih => exact ih h
  | case3 n c cs longer hl =>
    rw [Nat.ofDigitChars_cons] at h
    have hle : longer ≤ Nat.ofDigitChars 10 cs longer :=
      (Nat.le_mul_of_pos_right _ (Nat.pow_pos (by omega))).trans (le_ofDigitChars cs longer)
    exact absurd (hle.trans_lt h) hl

/-- A decimal that is continued by fewer digits stays below the bounds of the whole one. -/
theorem truncated_le {d : Decimal} {bound kept left : Nat} (h : d.AtMost bound)
    (hk : kept * 10 ^ left ≤ d.digits) (he : 0 ≤ d.exponent + left) :
    kept * 10 ^ (d.exponent + left).toNat ≤ bound := by
  obtain ⟨digits, exponent⟩ := d
  unfold Decimal.AtMost at h
  dsimp only at h hk he ⊢
  rcases Int.lt_or_le exponent 0 with hneg | hpos
  · have hz : exponent.toNat = 0 := by omega
    have hleft : left = (exponent + left).toNat + (-exponent).toNat := by omega
    rw [hz, Nat.pow_zero, Nat.mul_one] at h
    refine Nat.le_of_mul_le_mul_right ?_ (Nat.pow_pos (n := (-exponent).toNat) (a := 10) (by omega))
    calc kept * 10 ^ (exponent + left).toNat * 10 ^ (-exponent).toNat
        = kept * 10 ^ left := by rw [Nat.mul_assoc, ← Nat.pow_add, ← hleft]
      _ ≤ digits := hk
      _ ≤ bound * 10 ^ (-exponent).toNat := h
  · have hz : (-exponent).toNat = 0 := by omega
    have hsum : (exponent + left).toNat = left + exponent.toNat := by omega
    rw [hz, Nat.pow_zero, Nat.mul_one] at h
    calc kept * 10 ^ (exponent + left).toNat
        = kept * 10 ^ left * 10 ^ exponent.toNat := by rw [hsum, Nat.pow_add, Nat.mul_assoc]
      _ ≤ digits * 10 ^ exponent.toNat := Nat.mul_le_mul_right _ hk
      _ ≤ bound := h

/-- A numeral with a point or a power is read from the digits that were kept: those left out and the
places move its power. -/
theorem numberValue_kept {whole : List Char} {places : Option (List Char)}
    {power : Option (Bool × List Char)} {kept left : Nat} (negative : Bool)
    (hn : places ≠ none ∨ power ≠ none) (hw : digitsValue whole < 2 ^ 64)
    (hg : gather (digitsValue whole) (places.getD []) = (kept, left)) :
    numberValue negative whole places power = match power with
      | none => signedNumber negative (scaleNumber? kept (0 - ((places.getD []).length - left)))
      | some (shrinks, ds) =>
        if 2 ^ 31 ≤ digitsValue ds then
          if kept ≠ 0 ∧ !shrinks then .excessive else signedNumber negative (some .zero)
        else signedNumber negative (scaleNumber? kept
          (0 - ((places.getD []).length - left) + signed shrinks (digitsValue ds))) := by
  have hkept : gather 0 whole = (digitsValue whole, 0) := gather_eq whole hw
  unfold numberValue
  simp only [hkept]
  cases places with
  | none =>
    cases power with
    | none => simp at hn
    | some p => simp only [hg]; rfl
  | some ds => cases power <;> simp only [hg] <;> rfl

/-- A numeral with a point or a power is read as a number when it stays below a bound up to which
everything can be scaled. -/
theorem numberValue_float {n : Numeral} {negative : Bool} {bound cap top : Nat}
    (hs : Scalable bound cap top) (hn : n.places ≠ none ∨ n.power ≠ none)
    (hw : digitsValue n.whole < 2 ^ 64) (hcap : ∀ s < 2 ^ 64, s ≤ n.significance → s ≤ cap)
    (hb : n.decimal.AtMost bound)
    (hp : ∀ ds, n.power = some (false, ds) → digitsValue ds < 2 ^ 31) :
    ∃ y, numberValue negative n.whole n.places n.power = .float y := by
  obtain ⟨whole, places, power⟩ := n
  dsimp only at hn hw hp
  have hsignificance : (⟨whole, places, power⟩ : Numeral).significance
      = Nat.ofDigitChars 10 (places.getD []) (digitsValue whole) := by
    unfold significance digitsValue
    rw [Nat.ofDigitChars_append]
  obtain ⟨hleft, hle⟩ := gather_le (places.getD []) (digitsValue whole)
  have hlt := gather_lt (places.getD []) hw
  rw [← hsignificance] at hle
  generalize hg : gather (digitsValue whole) (places.getD []) = g at hleft hle hlt
  obtain ⟨kept, left⟩ := g
  dsimp only at hleft hle hlt
  have hscale : ∃ y, scaleNumber? kept
      ((⟨whole, places, power⟩ : Numeral).decimal.exponent + left) = some y := by
    refine hs.scaleNumber?_some (hcap kept hlt ?_) (truncated_le hb hle)
    exact (Nat.le_mul_of_pos_right _ (Nat.pow_pos (by omega))).trans hle
  unfold decimal namedPower at hscale
  dsimp only at hscale
  rw [numberValue_kept negative hn hw hg]
  cases power with
  | none =>
    obtain ⟨y, hy⟩ := hscale
    have he : (0 : Int) - ((places.getD []).length - left)
        = 0 - (places.getD []).length + left := by omega
    dsimp only
    rw [he, hy]
    exact ⟨_, rfl⟩
  | some p =>
    obtain ⟨shrinks, ds⟩ := p
    obtain ⟨y, hy⟩ := hscale
    have he : (0 : Int) - ((places.getD []).length - left) + signed shrinks (digitsValue ds)
        = signed shrinks (digitsValue ds) - (places.getD []).length + left := by omega
    dsimp only at hy ⊢
    rw [he, hy]
    split
    next hlarge =>
      cases shrinks with
      | false => exact absurd (hp ds rfl) (not_lt.mpr hlarge)
      | true => rw [if_neg (by simp)]; exact ⟨_, rfl⟩
    next => exact ⟨_, rfl⟩

theorem ordinary_scalable : Scalable Binary64.ordinaryBound (2 ^ 64 - 1) 288 := by decide +kernel

theorem largest_scalable : Scalable (Binary64.largestDecimal.digits * 10 ^ 292)
    Binary64.largestDecimal.digits 292 := by
  decide +kernel

/-- What is needed of a decimal to read it back from either of its texts. -/
theorem numeral_float {d : Decimal} {negative : Bool} {bound cap top : Nat} {n : Numeral}
    (hs : Scalable bound cap top) (hb : d.AtMost bound) (hp : d.Plain)
    (hcap : ∀ s < 2 ^ 64, s ≤ n.significance → s ≤ cap)
    (hn : n = d.positional ∧ d.leading ≤ 15 ∨ n = d.scientific) :
    ∃ y, numberValue negative n.whole n.places n.power = .float y := by
  rcases hn with ⟨rfl, hl⟩ | rfl
  · have hwhole := @Decimal.positional_whole_lt d 16 hp (by omega) (by omega)
    have hpower : d.positional.power = none ∧ d.positional.places ≠ none := by
      unfold Decimal.positional
      split
      · exact ⟨rfl, by simp⟩
      · split <;> exact ⟨rfl, by simp⟩
    refine numberValue_float hs (.inl hpower.2) (by omega) hcap (Decimal.positional_decimal hb) ?_
    intro ds hds
    rw [hpower.1] at hds
    cases hds
  · have hwhole := digitsValue_lt (Decimal.scientific_valid d).whole.2
    have hlength : d.scientific.whole.length ≤ 1 := List.length_take_le ..
    refine numberValue_float hs (.inr (by simp [Decimal.scientific])) ?_ hcap
      (by rwa [Decimal.scientific_decimal]) ?_
    · have : 10 ^ d.scientific.whole.length ≤ 10 ^ 1 := Nat.pow_le_pow_right (by omega) hlength
      omega
    · intro ds hds
      have hleading := Decimal.leading_le hb hp hs.1
      simp only [Decimal.scientific, Option.some.injEq, Prod.mk.injEq,
        decide_eq_false_iff_not] at hds
      obtain ⟨hneg, rfl⟩ := hds
      rw [digitsValue_toDigits]
      omega

/-- The text of a finite number is its sign with one of two numerals. -/
theorem chars_numeral {x : Binary64} (hf : x.isFinite = true) :
    ∃ n : Numeral, x.chars .document = (if x.isNegative then ['-'] else []) ++ n.chars
      ∧ (n = (x.shortest .even).positional ∧ (x.shortest .even).leading ≤ 15
        ∨ n = (x.shortest .even).scientific) := by
  have hnan : x.isNaN = false := Binary64.isNaN_of_isFinite hf
  unfold Binary64.chars NumberLayout.finiteChars NumberLayout.document
  simp only [hnan, hf, Bool.not_true, Bool.false_eq_true, if_false]
  split
  next hl => exact ⟨_, by rw [Decimal.positional_chars], .inl ⟨rfl, hl.2⟩⟩
  next => exact ⟨_, by rw [Decimal.scientific_chars], .inr rfl⟩

theorem shortest_numeral_float {x : Binary64} {n : Numeral} (negative : Bool)
    (hf : x.isFinite = true)
    (hn : n = (x.shortest .even).positional ∧ (x.shortest .even).leading ≤ 15
      ∨ n = (x.shortest .even).scientific) :
    n.Valid ∧ ∃ y, numberValue negative n.whole n.places n.power = .float y := by
  have hword := (Binary64.isFinite_iff x).mp hf
  have hvalid : (x.shortest .even).Plain → n.Valid := by
    intro hp
    rcases hn with ⟨rfl, -⟩ | rfl
    · exact Decimal.positional_valid hp
    · exact Decimal.scientific_valid _
  rcases Nat.lt_or_ge x.magnitude Binary64.largestWord with hlt | hge
  · obtain ⟨hb, hp⟩ := Binary64.shortest_bounded hlt
    exact ⟨hvalid hp, numeral_float ordinary_scalable hb hp (fun s hs _ => by omega) hn⟩
  · have hlargest := Binary64.shortest_largest (x := x) (by unfold Binary64.largestWord at *; omega)
    rw [hlargest] at hn hvalid
    have hp : Binary64.largestDecimal.Plain := by
      unfold Decimal.Plain
      decide
    have hb : Binary64.largestDecimal.AtMost (Binary64.largestDecimal.digits * 10 ^ 292) := by
      unfold Decimal.AtMost
      decide +kernel
    refine ⟨hvalid hp, numeral_float largest_scalable hb hp (fun s _ hs => ?_) hn⟩
    rcases hn with ⟨-, hl⟩ | rfl
    · exact absurd hl (by decide +kernel)
    · have heq := congrArg Decimal.digits (Decimal.scientific_decimal Binary64.largestDecimal)
      exact hs.trans_eq heq

/-- A numeral starts with a digit, hence not with a sign. -/
theorem readNumber_unsigned {n : Numeral} (hv : n.Valid) :
    readNumber (n.chars ++ rest) = readUnsigned false (n.chars ++ rest) := by
  obtain ⟨hne, hd⟩ := hv.whole
  obtain ⟨c, cs, hw⟩ := List.exists_cons_of_ne_nil hne
  have hc : c.isDigit = true := hd c (hw ▸ List.mem_cons_self)
  have htext : n.chars ++ rest
      = c :: (cs ++ (placesChars n.places ++ powerChars n.power) ++ rest) := by
    simp [chars, hw]
  rw [htext]
  unfold readNumber
  split
  next h =>
    cases h
    exact absurd hc (by decide)
  next => rfl

/-- The text of a finite number is read as a number, whatever follows it. -/
theorem readNumber_chars {x : Binary64} (hf : x.isFinite = true) :
    ∃ y, ∀ rest, Ends rest → readNumber (x.chars .document ++ rest) = some (.float y, rest) := by
  obtain ⟨n, htext, hn⟩ := chars_numeral hf
  obtain ⟨hv, y, hy⟩ := shortest_numeral_float x.isNegative hf hn
  refine ⟨y, fun rest hr => ?_⟩
  have hread : readUnsigned x.isNegative (n.chars ++ rest) = some (.float y, rest) := by
    rw [readUnsigned_chars _ hv hr, hy]
  rw [htext, List.append_assoc]
  cases hneg : x.isNegative with
  | true =>
    rw [hneg] at hread
    exact hread
  | false =>
    rw [hneg] at hread
    exact (readNumber_unsigned hv).trans hread

def wholeNumeral (n : Nat) : Numeral := ⟨Nat.toDigits 10 n, none, none⟩

theorem wholeNumeral_valid (n : Nat) : (wholeNumeral n).Valid := by
  refine ⟨toDigits_isDigits n, fun h => ?_, by simp [wholeNumeral], by simp [wholeNumeral]⟩
  cases toDigits_leading h
  rfl

theorem wholeNumeral_chars (n : Nat) : (wholeNumeral n).chars = Nat.toDigits 10 n := by
  simp [wholeNumeral, chars, placesChars, powerChars]

theorem readUnsigned_whole {n : Nat} (negative : Bool) (hn : n < 2 ^ 64) (hr : Ends rest)
    (hneg : negative = true → n ≠ 0 ∧ n ≤ 2 ^ 63) :
    readUnsigned negative (Nat.toDigits 10 n ++ rest) = some (.int (signed negative n), rest) := by
  have hgather : gather 0 (Nat.toDigits 10 n) = (n, 0) := by
    have hvalue := digitsValue_toDigits n
    unfold digitsValue at hvalue
    rw [gather_eq _ (by rwa [hvalue]), hvalue]
  have hread := readUnsigned_chars negative (wholeNumeral_valid n) hr
  rw [wholeNumeral_chars] at hread
  rw [hread]
  unfold wholeNumeral numberValue signed
  simp only [hgather, ne_eq, not_true_eq_false, if_false]
  cases negative with
  | false => simp
  | true =>
    obtain ⟨hzero, hlarge⟩ := hneg rfl
    have hkept : ¬ (n = 0 ∨ Nat.pow 2 63 < n) := by
      simp only [Nat.pow_eq]
      omega
    simp [hkept]

/-- The text of an integer that a word has room for is read as that integer. -/
theorem readNumber_int {n : Int} (hlow : -(2 ^ 63) ≤ n) (hhigh : n < 2 ^ 64) (hr : Ends rest) :
    readNumber ((Int.repr n).toList ++ rest) = some (.int n, rest) := by
  cases n with
  | ofNat m =>
    have hm : m < 2 ^ 64 := by
      simp only [Int.ofNat_eq_natCast] at hhigh
      omega
    have htext : (Int.repr (Int.ofNat m)).toList = (wholeNumeral m).chars := by
      rw [wholeNumeral_chars]
      exact Nat.toList_repr
    rw [htext, readNumber_unsigned (wholeNumeral_valid m), wholeNumeral_chars,
      readUnsigned_whole false hm hr (by simp)]
    rfl
  | negSucc m =>
    have hm : m + 1 ≤ 2 ^ 63 := by omega
    have htext : (Int.repr (Int.negSucc m)).toList = '-' :: Nat.toDigits 10 (m + 1) := by
      have hrepr : Int.repr (Int.negSucc m) = "-" ++ Nat.repr (m + 1) := rfl
      rw [hrepr, String.toList_append, Nat.toList_repr]
      rfl
    rw [htext, List.cons_append]
    have hread := @readUnsigned_whole rest (m + 1) true (by omega) hr (by omega)
    exact hread

end Draft

end Tabularium
