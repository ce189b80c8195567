import Mathlib.Data.List.Basic
import Tabularium.Sql.Script
import Tabularium.Text.Quoted

namespace Tabularium

variable {c d : Char} {cs xs ys rest : List Char}

/-- The character opens a comment in front of what follows it. -/
def opensComment (c : Char) (cs : List Char) : Bool :=
  (c == '-' && cs.head? == some '-') || (c == '/' && cs.head? == some '*')

/-- The character means nothing to a scan outside quotes and comments. -/
def isOrdinary (c : Char) : Bool :=
  !isMark c && c != ';' && c != '-' && c != '/'

/-- The text has no semicolon and opens no comment outside quotes, and closes its quotes; the mark
is the one that is open. -/
def isClosed : Option Char → List Char → Bool
  | open?, [] => open?.isNone
  | none, c :: cs =>
    if isMark c then isClosed (some c) cs else c != ';' && !opensComment c cs && isClosed none cs
  | some mark, c :: cs => isClosed (if c = mark then none else some mark) cs

/-- A text that a scan keeps as it is, whatever follows. -/
def Inert (xs : List Char) : Prop :=
  ∀ ys, scriptPieces .plain (xs ++ ys) = xs.foldr keepChar (scriptPieces .plain ys)

theorem opensComment_eq_false (hn : ¬ (c = '-' ∧ d = '-')) (hb : ¬ (c = '/' ∧ d = '*'))
    (cs : List Char) : opensComment c (d :: cs) = false := by
  simp only [opensComment, List.head?_cons, Bool.or_eq_false_iff, Bool.and_eq_false_iff,
    beq_eq_false_iff_ne, ne_eq, Option.some.injEq]
  exact ⟨Decidable.not_and_iff_or_not.mp hn, Decidable.not_and_iff_or_not.mp hb⟩

/-- What opens no comment opens none either in front of a character that ends no mark. -/
theorem opensComment_before (hd : d ≠ '-') (hs : d ≠ '*') (h : opensComment c cs = false)
    (ys : List Char) : opensComment c (cs ++ d :: ys) = false := by
  cases cs with
  | nil => simp [opensComment, hd, hs]
  | cons e es => exact h

theorem scriptPieces_plain_keeps (hm : isMark c = false) (hs : c ≠ ';')
    (ho : opensComment c cs = false) :
    scriptPieces .plain (c :: cs) = keepChar c (scriptPieces .plain cs) := by
  cases cs with
  | nil => simp [scriptPieces, hm, hs, keepChar]
  | cons d ds =>
    have h₁ : ¬ (c = '-' ∧ d = '-') := by
      rintro ⟨rfl, rfl⟩
      simp [opensComment] at ho
    have h₂ : ¬ (c = '/' ∧ d = '*') := by
      rintro ⟨rfl, rfl⟩
      simp [opensComment] at ho
    simp [scriptPieces, hm, hs, h₁, h₂]

theorem scriptPieces_semicolon (cs : List Char) :
    scriptPieces .plain (';' :: cs) = [] :: scriptPieces .plain cs := by
  cases cs <;> simp [scriptPieces, isMark]

theorem scriptPieces_dashes (cs : List Char) :
    scriptPieces .plain ('-' :: '-' :: cs) = scriptPieces .lineComment cs := by
  simp [scriptPieces, isMark]

theorem scriptPieces_slashStar (cs : List Char) :
    scriptPieces .plain ('/' :: '*' :: cs) = scriptPieces .blockComment cs := by
  simp [scriptPieces, isMark]

theorem scriptPieces_starSlash (cs : List Char) :
    scriptPieces .blockComment ('*' :: '/' :: cs) = keepChar ' ' (scriptPieces .plain cs) := by
  simp [scriptPieces]

theorem scriptPieces_skips (h : ¬ (c = '*' ∧ d = '/')) :
    scriptPieces .blockComment (c :: d :: cs) = scriptPieces .blockComment (d :: cs) := by
  simp [scriptPieces, h]

theorem inert_nil : Inert [] := fun _ => rfl

theorem inert_append (hx : Inert xs) (hy : Inert ys) : Inert (xs ++ ys) := by
  intro zs
  rw [List.append_assoc, hx, hy, List.foldr_append]

theorem isOrdinary_opens (h : isOrdinary c = true) : opensComment c cs = false := by
  simp only [isOrdinary, Bool.and_eq_true, bne_iff_ne] at h
  simp [opensComment, h.1.2, h.2]

theorem inert_ordinary (h : isOrdinary c = true) : Inert [c] := by
  intro ys
  have hc := h
  simp only [isOrdinary, Bool.and_eq_true, Bool.not_eq_true', bne_iff_ne] at hc
  exact scriptPieces_plain_keeps hc.1.1.1 hc.1.1.2 (isOrdinary_opens h)

theorem inert_of_ordinary (h : ∀ c ∈ xs, isOrdinary c = true) : Inert xs := by
  induction xs with
  | nil => exact inert_nil
  | cons c cs ih =>
    exact inert_append (inert_ordinary (h c List.mem_cons_self))
      (ih fun d hd => h d (List.mem_cons_of_mem c hd))

theorem inert_of_all (h : xs.all isOrdinary = true) : Inert xs :=
  inert_of_ordinary (List.all_eq_true.mp h)

/-- A minus is kept in front of anything but another one. -/
theorem inert_minus (hd : isOrdinary d = true) (h : Inert (d :: cs)) : Inert ('-' :: d :: cs) := by
  intro ys
  have hne : d ≠ '-' := by
    rintro rfl
    exact absurd hd (by decide)
  have ho : opensComment '-' (d :: (cs ++ ys)) = false := by simp [opensComment, hne]
  rw [List.cons_append, List.cons_append, scriptPieces_plain_keeps (by decide) (by decide) ho]
  exact congrArg (keepChar '-') (h ys)

theorem scriptPieces_mark (hm : isMark c = true) :
    scriptPieces .plain (c :: cs) = keepChar c (scriptPieces (.quoted c) cs) := by
  cases cs <;> simp [scriptPieces, hm]

/-- The body of a literal is kept: a doubled quote closes the literal and opens it again. -/
theorem scriptPieces_body (cs ys : List Char) :
    scriptPieces (.quoted quoteMark) (doubleQuotes cs ++ quoteMark :: ys)
      = (doubleQuotes cs ++ [quoteMark]).foldr keepChar (scriptPieces .plain ys) := by
  induction cs with
  | nil => simp [doubleQuotes, scriptPieces]
  | cons c cs ih =>
    by_cases hc : c = quoteMark
    · simp only [doubleQuotes, hc, if_true, List.cons_append, List.foldr_cons]
      rw [scriptPieces, if_pos rfl, scriptPieces_mark (by decide), ih]
    · simp only [doubleQuotes, hc, if_false, List.cons_append, List.foldr_cons]
      rw [scriptPieces, if_neg hc, ih]

theorem inert_quoteChars (cs : List Char) : Inert (quoteChars cs) := by
  intro ys
  simp only [quoteChars, List.cons_append, List.append_assoc, List.nil_append, List.foldr_cons]
  rw [scriptPieces_mark (by decide), scriptPieces_body]

/-- Where a scan stands between quotes or outside them. -/
def quoteState : Option Char → ScanState
  | none => .plain
  | some mark => .quoted mark

theorem scriptPieces_closed {q : Option Char} (hd : d ≠ '-') (hs : d ≠ '*')
    (h : isClosed q cs = true) (ys : List Char) :
    scriptPieces (quoteState q) (cs ++ d :: ys)
      = cs.foldr keepChar (scriptPieces .plain (d :: ys)) := by
  induction cs generalizing q with
  | nil =>
    cases q with
    | none => rfl
    | some mark => simp [isClosed] at h
  | cons c cs ih =>
    cases q with
    | none =>
      rw [isClosed] at h
      by_cases hm : isMark c = true
      · rw [if_pos hm] at h
        rw [List.cons_append, List.foldr_cons, ← ih h]
        exact scriptPieces_mark hm
      · rw [if_neg hm] at h
        simp only [Bool.and_eq_true, bne_iff_ne, Bool.not_eq_true'] at h
        obtain ⟨⟨hsemi, hopens⟩, hrest⟩ := h
        rw [List.cons_append, List.foldr_cons, ← ih hrest]
        exact scriptPieces_plain_keeps (by simpa using hm) hsemi
          (opensComment_before hd hs hopens ys)
    | some mark =>
      rw [isClosed] at h
      rw [List.cons_append, List.foldr_cons, ← ih h, quoteState, scriptPieces]
      congr 2
      split <;> rfl

/-- What stands behind a closed text is closed when the whole is. -/
theorem isClosed_append {q : Option Char} (hd : d ≠ '-') (hs : d ≠ '*') (h : isClosed q cs = true)
    (ys : List Char) :
    isClosed q (cs ++ d :: ys) = isClosed none (d :: ys) := by
  induction cs generalizing q with
  | nil =>
    cases q with
    | none => rfl
    | some mark => simp [isClosed] at h
  | cons c cs ih =>
    cases q with
    | none =>
      rw [isClosed] at h
      rw [List.cons_append, isClosed]
      by_cases hm : isMark c = true
      · rw [if_pos hm] at h ⊢
        exact ih h
      · rw [if_neg hm] at h ⊢
        simp only [Bool.and_eq_true, bne_iff_ne, Bool.not_eq_true'] at h
        obtain ⟨⟨hsemi, hopens⟩, hrest⟩ := h
        simp [opensComment_before hd hs hopens ys, hsemi, ih hrest]
    | some mark =>
      rw [isClosed] at h
      rw [List.cons_append, isClosed]
      exact ih h

/-- A closed text between parentheses is kept. -/
theorem inert_group (h : isClosed none cs = true) : Inert ('(' :: (cs ++ [')'])) := by
  intro ys
  have hopen : Inert ['('] := inert_ordinary (by decide)
  have hclose : Inert [')'] := inert_ordinary (by decide)
  have hbody := scriptPieces_closed (d := ')') (by decide) (by decide) h ys
  rw [quoteState] at hbody
  calc scriptPieces .plain ('(' :: (cs ++ [')']) ++ ys)
      = scriptPieces .plain (['('] ++ (cs ++ ')' :: ys)) := by simp
    _ = keepChar '(' (scriptPieces .plain (cs ++ ')' :: ys)) := hopen _
    _ = keepChar '(' (cs.foldr keepChar (scriptPieces .plain ([')'] ++ ys))) := by rw [hbody]; rfl
    _ = keepChar '(' (cs.foldr keepChar (keepChar ')' (scriptPieces .plain ys))) := by
      rw [hclose ys]; rfl
    _ = ('(' :: (cs ++ [')'])).foldr keepChar (scriptPieces .plain ys) := by simp

end Tabularium
