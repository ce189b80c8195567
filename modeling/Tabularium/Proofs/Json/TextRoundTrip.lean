import Mathlib.Algebra.Order.Ring.Nat
import Tabularium.Json.Printer
import Tabularium.Json.Reader

namespace Tabularium

namespace Draft

theorem hexUnit?_hexDigit : ∀ n < 0x20,
    hexUnit? '0' '0' (Json.hexDigit (n / 16)) (Json.hexDigit n) = some n := by
  decide

/-- The written form of a character is read as that character. -/
theorem readUnits_escapeChar (c : Char) (rest : List Char) :
    readUnits (Json.escapeChar c ++ rest)
      = (readUnits rest).map fun (units, rest) => (c.toNat :: units, rest) := by
  unfold Json.escapeChar
  split
  next h => subst h; cases hr : readUnits rest <;> simp [readUnits, escaped?, hr]
  next hquote =>
  split
  next h => subst h; cases hr : readUnits rest <;> simp [readUnits, escaped?, hr]
  next hslash =>
  split
  next h => subst h; cases hr : readUnits rest <;> simp [readUnits, escaped?, hr]
  split
  next h => subst h; cases hr : readUnits rest <;> simp [readUnits, escaped?, hr]
  split
  next h => subst h; cases hr : readUnits rest <;> simp [readUnits, escaped?, hr]
  split
  next h => subst h; cases hr : readUnits rest <;> simp [readUnits, escaped?, hr]
  split
  next h => subst h; cases hr : readUnits rest <;> simp [readUnits, escaped?, hr]
  split
  next hcontrol =>
    have hhex := hexUnit?_hexDigit c.toNat hcontrol
    cases hr : readUnits rest <;> simp [readUnits, hhex, hr]
  next hcontrol =>
    rw [List.singleton_append, readUnits.eq_def]
    dsimp only
    rw [if_neg hquote, if_neg hslash, if_neg hcontrol]

theorem readUnits_text (cs rest : List Char) :
    readUnits (cs.flatMap Json.escapeChar ++ '\x22' :: rest) = some (cs.map Char.toNat, rest) := by
  induction cs with
  | nil =>
    rw [List.flatMap_nil, List.nil_append, readUnits.eq_def]
    rfl
  | cons c cs ih =>
    rw [List.flatMap_cons, List.append_assoc, readUnits_escapeChar, ih]
    rfl

theorem toNat_not_surrogate (c : Char) : ¬ (0xD800 ≤ c.toNat ∧ c.toNat < 0xE000) := by
  have hvalid := c.valid
  rintro ⟨hlow, hhigh⟩
  rcases hvalid with h | ⟨h, _⟩
  · exact absurd h (not_lt.mpr hlow)
  · exact absurd hhigh (not_lt.mpr h)

theorem joinUnits_text (cs : List Char) : joinUnits (cs.map Char.toNat) = some cs := by
  induction cs with
  | nil => rfl
  | cons c cs ih =>
    have hc := toNat_not_surrogate c
    cases cs with
    | nil =>
      rw [List.map_singleton, joinUnits, if_neg hc, Char.ofNat_toNat]
    | cons c' cs =>
      rw [List.map_cons] at ih
      rw [List.map_cons, List.map_cons, joinUnits, if_neg (by omega), if_neg (by omega), ih,
        Char.ofNat_toNat]
      rfl

theorem readText_quotedChars (s : String) (rest : List Char) :
    readText (s.toList.flatMap Json.escapeChar ++ '\x22' :: rest) = some (some s, rest) := by
  unfold readText
  rw [readUnits_text, Option.map_some]
  dsimp only
  rw [joinUnits_text, Option.map_some, String.ofList_toList]

end Draft

end Tabularium
