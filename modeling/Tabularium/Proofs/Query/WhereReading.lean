import Mathlib.Data.List.SplitBy
import Tabularium.Proofs.Sql.Names
import Tabularium.Sql.Value

namespace Tabularium

/-- A part of the text of a condition. -/
inductive Lexeme where
  | word (w : String)
  | number (digits : String)
  | sign (s : String)
  /-- A mark that stands for a bound value. -/
  | mark
  /-- A mark with the value that is bound to it. -/
  | value (v : SqlValue)

namespace Lexeme

/-- The characters that signs of comparison are made of. -/
def isCompareChar (c : Char) : Bool :=
  c == '=' || c == '<' || c == '>'

/-- Two neighbours that belong to one lexeme. -/
def joins (a b : Char) : Bool :=
  (isNameChar a && isNameChar b) || (isCompareChar a && isCompareChar b)

/-- The lexeme that a run of characters is; blanks are none. -/
def ofRun : List Char → Option Lexeme
  | [] => none
  | c :: cs =>
    if c = ' ' then none
    else if c = '?' then some mark
    else if c.isDigit then some (number (String.ofList (c :: cs)))
    else if isNameChar c then some (word (String.ofList (c :: cs)))
    else some (sign (String.ofList (c :: cs)))

/-- The lexemes of a text. -/
def ofText (text : String) : List Lexeme :=
  (text.toList.splitBy joins).filterMap ofRun

/-- The lexemes with the values bound to the marks, each mark in turn taking the next value. There
have to be as many values as marks. -/
def bindMarks : List Lexeme → List SqlValue → Option (List Lexeme)
  | [], [] => some []
  | [], _ :: _ => none
  | mark :: _, [] => none
  | mark :: rest, v :: values => (bindMarks rest values).map (value v :: ·)
  | l :: rest, values => (bindMarks rest values).map (l :: ·)

end Lexeme

/-- An atomic predicate with the values that are bound in it. -/
inductive Atom where
  | compare (column sign : String) (value : SqlValue)
  | like (column : String) (pattern : SqlValue)
  | oneOf (column : String) (values : List SqlValue)
  | isNull (column : String)
  | isNotNull (column : String)
  /-- Two numbers that are compared for equality. -/
  | numbers (m n : String)

inductive Connective where
  | or
  | and
deriving DecidableEq

def Connective.word : Connective → String
  | or => "OR"
  | and => "AND"

/-- A condition as it is understood. -/
inductive Sentence where
  | atom (a : Atom)
  | join (k : Connective) (p q : Sentence)

namespace Sentence

/-- The truth of a condition, given that of its atomic predicates. -/
def eval (v : Atom → Bool) : Sentence → Bool
  | atom a => v a
  | join .or p q => eval v p || eval v q
  | join .and p q => eval v p && eval v q

/-- How tightly the parts of a condition are bound. -/
inductive Level where
  | alternatives
  | conjunction
  | operand

/-- What a reader gives: what it understands and what is left. -/
abbrev Reader := List Lexeme → Option (Sentence × List Lexeme)

/-- The values behind the first one in parentheses. -/
def readValues : List Lexeme → Option (List SqlValue × List Lexeme)
  | .sign ")" :: rest => some ([], rest)
  | .sign "," :: .value v :: rest => (readValues rest).map fun (values, rest) => (v :: values, rest)
  | _ => none

/-- Reads an atomic predicate. A word that stands in front is a column, whatever it is. -/
def readAtom : List Lexeme → Option (Atom × List Lexeme)
  | .word column :: .sign s :: .value v :: rest =>
    if s ∈ ["=", "<", "<=", ">", ">="] then some (.compare column s v, rest) else none
  | .word column :: .word "LIKE" :: .value v :: rest => some (.like column v, rest)
  | .word column :: .word "IS" :: .word "NULL" :: rest => some (.isNull column, rest)
  | .word column :: .word "IS" :: .word "NOT" :: .word "NULL" :: rest =>
    some (.isNotNull column, rest)
  | .word column :: .word "IN" :: .sign "(" :: .value v :: rest =>
    (readValues rest).map fun (values, rest) => (.oneOf column (v :: values), rest)
  | .number m :: .sign "=" :: .number n :: rest => some (.numbers m n, rest)
  | _ => none

/-- Reads one part, and with the word of the connective behind it the parts that follow. -/
def chain (k : Connective) (tighter same : Reader) : Reader := fun ls =>
  match tighter ls with
  | none => none
  | some (p, .word w :: rest) =>
    if w = k.word then (same rest).map fun (q, rest) => (join k p q, rest)
    else some (p, .word w :: rest)
  | some (p, rest) => some (p, rest)

/-- Reads a condition: `OR` binds the parts of it least, then `AND`, and an operand is an atomic
predicate or stands in parentheses. Each step takes one of the fuel. -/
def read : Nat → Level → Reader
  | 0, _, _ => none
  | fuel + 1, .alternatives, ls => chain .or (read fuel .conjunction) (read fuel .alternatives) ls
  | fuel + 1, .conjunction, ls => chain .and (read fuel .operand) (read fuel .conjunction) ls
  | fuel + 1, .operand, .sign "(" :: ls =>
    match read fuel .alternatives ls with
    | some (p, .sign ")" :: rest) => some (p, rest)
    | _ => none
  | _ + 1, .operand, ls => (readAtom ls).map fun (a, rest) => (atom a, rest)

/-- Understands a whole text with the values that are bound in it. -/
def ofText (text : String) (values : List SqlValue) : Option Sentence :=
  match Lexeme.bindMarks (Lexeme.ofText text) values with
  | none => none
  | some ls =>
    match read (3 * ls.length + 3) .alternatives ls with
    | some (p, []) => some p
    | _ => none

end Sentence

namespace Lexeme

variable {a b w : String} {xs ys xs' ys' : List Lexeme} {vs ws : List SqlValue}

/-- The character belongs to no longer lexeme. -/
def isLoose (c : Char) : Bool :=
  !isNameChar c && !isCompareChar c

/-- The text starts with a loose character. -/
def Opens (s : String) : Prop :=
  ∃ c, s.toList.head? = some c ∧ isLoose c = true

/-- The text ends with a loose character. -/
def Closes (s : String) : Prop :=
  ∃ c, s.toList.getLast? = some c ∧ isLoose c = true

theorem joins_loose {c d : Char} (h : isLoose c = true) :
    joins c d = false ∧ joins d c = false := by
  simp only [isLoose, Bool.and_eq_true, Bool.not_eq_true'] at h
  simp [joins, h]

theorem ofText_append
    (h : ∀ x ∈ a.toList.getLast?, ∀ y ∈ b.toList.head?, joins x y = false) :
    ofText (a ++ b) = ofText a ++ ofText b := by
  rw [ofText, String.toList_append, List.splitBy_append h, List.filterMap_append]
  rfl

theorem ofText_opens (h : Opens b) : ofText (a ++ b) = ofText a ++ ofText b := by
  obtain ⟨c, hc, hl⟩ := h
  refine ofText_append fun x _ y hy => ?_
  cases hc.symm.trans hy
  exact (joins_loose hl).2

theorem ofText_closes (h : Closes a) : ofText (a ++ b) = ofText a ++ ofText b := by
  obtain ⟨c, hc, hl⟩ := h
  refine ofText_append fun x hx y _ => ?_
  cases hc.symm.trans hx
  exact (joins_loose hl).1

theorem opens_append (h : Opens a) (b : String) : Opens (a ++ b) := by
  obtain ⟨c, hc, hl⟩ := h
  exact ⟨c, by rw [String.toList_append, List.head?_append, hc, Option.some_or], hl⟩

theorem isNameStart_char {c : Char} (h : isNameStart c = true) :
    isNameChar c = true ∧ c.isDigit = false ∧ c ≠ ' ' ∧ c ≠ '?' := by
  refine ⟨isNameChar_of_start h, ?_, ?_, ?_⟩
  · rw [Bool.eq_false_iff]
    intro hd
    have hdigit : 48 ≤ c.toNat ∧ c.toNat ≤ 57 := Char.isDigit_iff_toNat.mp hd
    simp only [isNameStart, Bool.or_eq_true, beq_iff_eq] at h
    rcases h with h | rfl
    · have hkinds : (c.isUpper || c.isLower) = true := h
      rw [Bool.or_eq_true] at hkinds
      rcases hkinds with hu | hl
      · have := upper_range hu
        omega
      · have := lower_range hl
        omega
    · exact absurd hd (by decide)
  · rintro rfl
    exact absurd h (by decide)
  · rintro rfl
    exact absurd h (by decide)

theorem isChain_names {cs : List Char} (h : ∀ c ∈ cs, isNameChar c = true) :
    cs.IsChain fun a b => joins a b = true := by
  induction cs with
  | nil => exact List.isChain_nil
  | cons c cs ih =>
    cases cs with
    | nil => exact List.isChain_singleton c
    | cons d cs =>
      refine List.isChain_cons_cons.mpr ⟨?_, ih fun e he => h e (List.mem_cons_of_mem c he)⟩
      simp [joins, h c, h d]

theorem ofText_identifier (h : isIdentifier w = true) : ofText w = [word w] := by
  obtain ⟨c, cs, hw, hstart, hall⟩ := identifier_chars h
  obtain ⟨hname, hdigit, hblank, hmark⟩ := isNameStart_char hstart
  have hback : String.ofList (c :: cs) = w := by rw [← hw, String.ofList_toList]
  rw [ofText, hw, List.splitBy_of_isChain (by simp) (isChain_names hall)]
  simp [ofRun, hblank, hmark, hdigit, hname, hback]

theorem bindMarks_append (hx : bindMarks xs vs = some xs') (hy : bindMarks ys ws = some ys') :
    bindMarks (xs ++ ys) (vs ++ ws) = some (xs' ++ ys') := by
  fun_induction bindMarks xs vs generalizing xs' with
  | case1 =>
    cases hx
    exact hy
  | case2 => cases hx
  | case3 => cases hx
  | case4 rest v values ih =>
    obtain ⟨zs, hz, rfl⟩ := Option.map_eq_some_iff.mp hx
    simp [bindMarks, ih hz]
  | case5 l rest values hnot _ ih =>
    obtain ⟨zs, hz, rfl⟩ := Option.map_eq_some_iff.mp hx
    cases l with
    | mark => cases values <;> simp_all
    | _ => simp [bindMarks, ih hz]

end Lexeme

namespace Connective

/-- The level of what the connective joins. -/
def level : Connective → Sentence.Level
  | or => .alternatives
  | and => .conjunction

/-- The level of the parts. -/
def tighter : Connective → Sentence.Level
  | or => .conjunction
  | and => .operand

/-- The word between blanks. -/
def separator : Connective → String
  | or => " OR "
  | and => " AND "

/-- What the connective makes of two truth values. -/
def apply : Connective → Bool → Bool → Bool
  | or => Bool.or
  | and => Bool.and

/-- What the connective makes of the truth values of a list. -/
def holds {α : Type} : Connective → List α → (α → Bool) → Bool
  | or, xs, f => xs.any f
  | and, xs, f => xs.all f

theorem holds_cons {α : Type} (k : Connective) (x : α) (xs : List α) (f : α → Bool) :
    k.holds (x :: xs) f = k.apply (f x) (k.holds xs f) := by
  cases k <;> rfl

theorem holds_singleton {α : Type} (k : Connective) (x : α) (f : α → Bool) :
    k.holds [x] f = f x := by
  cases k <;> simp [holds]

theorem apply_assoc (k : Connective) (a b c : Bool) :
    k.apply (k.apply a b) c = k.apply a (k.apply b c) := by
  cases k
  · exact Bool.or_assoc a b c
  · exact Bool.and_assoc a b c

end Connective

namespace Sentence

open Lexeme (bindMarks Opens Closes)

variable {level : Level} {k : Connective} {ls ms rest : List Lexeme} {p q : Sentence} {a : Atom}
  {t u : String} {vs ws : List SqlValue} {m n : (Atom → Bool) → Bool}

/-- How lexemes are put together: the grammar that reading follows. -/
inductive Reading : Level → List Lexeme → Sentence → Prop where
  | atom {ls : List Lexeme} {a : Atom} (read : ∀ rest, readAtom (ls ++ rest) = some (a, rest)) :
    Reading .operand ls (.atom a)
  | group {ls : List Lexeme} {p : Sentence} (inner : Reading .alternatives ls p) :
    Reading .operand (.sign "(" :: (ls ++ [.sign ")"])) p
  | one (k : Connective) {ls : List Lexeme} {p : Sentence} (part : Reading k.tighter ls p) :
    Reading k.level ls p
  | more (k : Connective) {ls ms : List Lexeme} {p q : Sentence} (part : Reading k.tighter ls p)
    (others : Reading k.level ms q) : Reading k.level (ls ++ .word k.word :: ms) (.join k p q)

/-- What a part does not go on with. -/
def Stops : Level → List Lexeme → Prop
  | .operand, _ => True
  | .conjunction, rest => ∀ more, rest ≠ .word "AND" :: more
  | .alternatives, rest => (∀ more, rest ≠ .word "AND" :: more) ∧ ∀ more, rest ≠ .word "OR" :: more

/-- The steps that a level takes beside those for its lexemes. -/
def Level.steps : Level → Nat
  | operand => 1
  | conjunction => 2
  | alternatives => 3

theorem read_level (fuel : Nat) (k : Connective) (ls : List Lexeme) :
    read (fuel + 1) k.level ls = chain k (read fuel k.tighter) (read fuel k.level) ls := by
  cases k <;> rw [Connective.level, read] <;> rfl

theorem chain_one {tighter same : Reader} (h : tighter ls = some (p, rest))
    (hs : ∀ more, rest ≠ .word k.word :: more) : chain k tighter same ls = some (p, rest) := by
  unfold chain
  rw [h]
  split
  next he => cases he
  next w more he =>
    cases he
    rw [if_neg fun hw => hs more (by rw [hw])]
  next he => rw [← he]

theorem chain_more {tighter same : Reader} (h : tighter ls = some (p, .word k.word :: ms))
    (hs : same ms = some (q, rest)) : chain k tighter same ls = some (.join k p q, rest) := by
  unfold chain
  rw [h]
  simp [hs]

theorem stops_tighter (k : Connective) (h : Stops k.level rest) :
    Stops k.tighter rest ∧ ∀ more, rest ≠ .word k.word :: more := by
  cases k with
  | or => exact h
  | and => exact ⟨trivial, h⟩

theorem stops_connective (k : Connective) (more : List Lexeme) :
    Stops k.tighter (.word k.word :: more) := by
  cases k with
  | or =>
    intro more' h
    have hw := (List.cons.inj h).1
    simp [Connective.word] at hw
  | and => trivial

theorem steps_level (k : Connective) : k.level.steps = k.tighter.steps + 1 := by
  cases k <;> rfl

theorem read_operand {fuel : Nat} (h : readAtom ls = some (a, rest)) :
    read (fuel + 1) .operand ls = some (.atom a, rest) := by
  unfold read
  split
  next hf => exact absurd hf (Nat.succ_ne_zero fuel)
  next hl => cases hl
  next hl => cases hl
  next => simp [readAtom] at h
  next => rw [h, Option.map_some]

theorem read_group {fuel : Nat}
    (h : read fuel .alternatives (ls ++ .sign ")" :: rest) = some (p, .sign ")" :: rest)) :
    read (fuel + 1) .operand (.sign "(" :: (ls ++ [.sign ")"]) ++ rest) = some (p, rest) := by
  rw [List.cons_append, List.append_assoc, List.singleton_append, read, h]
  rfl

/-- What the grammar derives is read, whatever stops it. -/
theorem Reading.read_eq (h : Reading level ls p) :
    ∀ fuel rest, 3 * ls.length + level.steps ≤ fuel → Stops level rest →
      read fuel level (ls ++ rest) = some (p, rest) := by
  induction h with
  | @atom ls a hread =>
    intro fuel rest hf _
    obtain ⟨fuel, rfl⟩ : ∃ n, fuel = n + 1 := ⟨fuel - 1, by rw [Level.steps] at hf; omega⟩
    exact read_operand (hread rest)
  | @group ls p _ ih =>
    intro fuel rest hf _
    obtain ⟨fuel, rfl⟩ : ∃ n, fuel = n + 1 := ⟨fuel - 1, by rw [Level.steps] at hf; omega⟩
    have hinner := ih fuel (.sign ")" :: rest)
      (by simp only [List.length_cons, List.length_append, Level.steps] at *; omega)
      ⟨by simp, by simp⟩
    exact read_group hinner
  | @one k ls p _ ih =>
    intro fuel rest hf hs
    rw [steps_level] at hf
    obtain ⟨fuel, rfl⟩ : ∃ n, fuel = n + 1 := ⟨fuel - 1, by omega⟩
    obtain ⟨htighter, hnot⟩ := stops_tighter k hs
    rw [read_level]
    exact chain_one (ih fuel rest (by omega) htighter) hnot
  | @more k ls ms p q _ _ ihp ihq =>
    intro fuel rest hf hs
    rw [List.length_append, List.length_cons, steps_level] at hf
    obtain ⟨fuel, rfl⟩ : ∃ n, fuel = n + 1 := ⟨fuel - 1, by omega⟩
    rw [read_level, List.append_assoc, List.cons_append]
    refine chain_more (ihp fuel _ (by omega) (stops_connective k _)) (ihq fuel rest ?_ hs)
    rw [steps_level]
    omega

theorem level_injective {k k' : Connective} (h : k.level = k'.level) : k = k' := by
  cases k <;> cases k' <;> first | rfl | cases h

/-- What a connective joins is joined further, with the truth that the parts give. -/
theorem Reading.append (h : Reading k.level ls p) (hq : Reading k.level ms q) :
    ∃ r, Reading k.level (ls ++ .word k.word :: ms) r ∧
      ∀ v, r.eval v = k.apply (p.eval v) (q.eval v) := by
  generalize hl : k.level = level at h
  induction h with
  | atom => cases k <;> cases hl
  | group => cases k <;> cases hl
  | one k' part =>
    cases level_injective hl
    exact ⟨.join k _ q, .more k part hq, fun v => by cases k <;> rfl⟩
  | @more k' ls ms' p q' part others _ ih =>
    cases level_injective hl
    obtain ⟨r, hr, hv⟩ := ih rfl
    refine ⟨.join k p r, ?_, fun v => ?_⟩
    · rw [List.append_assoc, List.cons_append]
      exact .more k part hr
    · rw [show (join k p r).eval v = k.apply (p.eval v) (r.eval v) by cases k <;> rfl, hv,
        show (join k p q').eval v = k.apply (p.eval v) (q'.eval v) by cases k <;> rfl,
        Connective.apply_assoc]

/-- The text with the values bound to its marks is a part of a condition with a given truth. -/
def States (level : Level) (t : String) (vs : List SqlValue) (m : (Atom → Bool) → Bool) : Prop :=
  ∃ ls p, bindMarks (Lexeme.ofText t) vs = some ls ∧ Reading level ls p ∧ ∀ v, p.eval v = m v

theorem states_atom (hl : bindMarks (Lexeme.ofText t) vs = some ls)
    (h : ∀ rest, readAtom (ls ++ rest) = some (a, rest)) :
    States .operand t vs fun v => v a :=
  ⟨ls, .atom a, hl, .atom h, fun _ => rfl⟩

theorem states_one (k : Connective) (h : States k.tighter t vs m) : States k.level t vs m := by
  obtain ⟨ls, p, hl, hp, hv⟩ := h
  exact ⟨ls, p, hl, .one k hp, hv⟩

theorem states_group (h : States .alternatives t vs m) :
    States .operand ("(" ++ t ++ ")") vs m := by
  obtain ⟨ls, p, hl, hp, hv⟩ := h
  have hopen : Lexeme.ofText "(" = [.sign "("] := by rfl
  have hclose : Lexeme.ofText ")" = [.sign ")"] := by rfl
  have hinner : bindMarks (Lexeme.ofText t ++ [.sign ")"]) (vs ++ []) = some (ls ++ [.sign ")"]) :=
    Lexeme.bindMarks_append hl (by simp [bindMarks])
  refine ⟨.sign "(" :: (ls ++ [.sign ")"]), p, ?_, .group hp, hv⟩
  rw [String.append_assoc, Lexeme.ofText_closes ⟨'(', rfl, by decide⟩,
    Lexeme.ofText_opens ⟨')', rfl, by decide⟩, hopen, hclose, List.singleton_append, bindMarks]
  · rw [← List.append_nil vs, hinner, Option.map_some]
  all_goals simp

theorem states_join (k : Connective) (ht : States k.level t vs m) (hu : States k.level u ws n) :
    States k.level (t ++ k.separator ++ u) (vs ++ ws) fun v => k.apply (m v) (n v) := by
  obtain ⟨ls, p, hl, hp, hm⟩ := ht
  obtain ⟨ms, q, hls, hq, hn⟩ := hu
  obtain ⟨r, hr, hv⟩ := hp.append hq
  have hopens : Opens k.separator := ⟨' ', by cases k <;> rfl, by decide⟩
  have hcloses : Closes k.separator := ⟨' ', by cases k <;> rfl, by decide⟩
  have hword : Lexeme.ofText k.separator = [.word k.word] := by cases k <;> rfl
  have hbound : bindMarks [.word k.word] [] = some [.word k.word] := by simp [bindMarks]
  have hrest := Lexeme.bindMarks_append hbound hls
  refine ⟨ls ++ .word k.word :: ms, r, ?_, hr, fun v => by rw [hv, hm, hn]⟩
  rw [String.append_assoc, Lexeme.ofText_opens (Lexeme.opens_append hopens u),
    Lexeme.ofText_closes hcloses, hword]
  exact Lexeme.bindMarks_append hl hrest

/-- Parts with the separator of a connective between them state what the connective makes of what
they state. -/
theorem states_separated {α : Type} (k : Connective) {xs : List α} {text : α → String}
    {values : α → List SqlValue} {meaning : α → (Atom → Bool) → Bool} (hne : xs ≠ [])
    (h : ∀ x ∈ xs, States k.level (text x) (values x) (meaning x)) :
    States k.level (separated k.separator (xs.map text)) (xs.flatMap values)
      fun v => k.holds xs fun x => meaning x v := by
  induction xs with
  | nil => exact absurd rfl hne
  | cons x xs ih =>
    have hx := h x List.mem_cons_self
    cases xs with
    | nil =>
      simpa [separated, Connective.holds_singleton] using hx
    | cons y ys =>
      have hrest := ih (by simp) fun z hz => h z (List.mem_cons_of_mem x hz)
      have hjoin := states_join k hx hrest
      simpa only [List.map_cons, separated, List.flatMap_cons, Connective.holds_cons] using hjoin

theorem ofText_states (h : States .alternatives t vs m) :
    ∃ p, ofText t vs = some p ∧ ∀ v, p.eval v = m v := by
  obtain ⟨ls, p, hl, hp, hv⟩ := h
  refine ⟨p, ?_, hv⟩
  have hread := hp.read_eq (3 * ls.length + 3) [] (by simp [Level.steps]) ⟨by simp, by simp⟩
  rw [List.append_nil] at hread
  rw [ofText, hl]
  simp only [hread]

example : ofText "a = ? OR (b IN (?, ?)) AND c IS NULL" [.int 1, .int 2, .null] =
    some (.join .or (.atom (.compare "a" "=" (.int 1)))
      (.join .and (.atom (.oneOf "b" [.int 2, .null])) (.atom (.isNull "c")))) := rfl

end Sentence

end Tabularium
