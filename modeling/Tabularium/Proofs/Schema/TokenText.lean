import Mathlib.Data.List.Basic
import Tabularium.Proofs.Outcome
import Tabularium.Proofs.Sql.Splitting
import Tabularium.Schema.Column.Token

namespace Tabularium

variable {cs inner rest body lead : List Char} {depth : Nat} {quote : Option Char}

namespace Token

/-- The parentheses of the text match and its quotes are closed, with `depth` groups around the
text open and the scan inside a quote when there is one. Parentheses between quotes do not count. -/
def isBalanced : Nat → Option Char → List Char → Bool
  | depth, none, [] => depth == 0
  | _, some _, [] => false
  | depth, some mark, c :: cs => isBalanced depth (if c = mark then none else some mark) cs
  | depth, none, c :: cs =>
    if c = ')' then
      match depth with
      | 0 => false
      | depth + 1 => isBalanced depth none cs
    else
      isBalanced (if c = '(' then depth + 1 else depth)
        (if c = quoteMark ∨ c = '\x22' then some c else none) cs

/-- A balanced text is read up to the parenthesis behind it. -/
theorem readGroup_balanced (h : isBalanced depth quote inner = true) (rest : List Char) :
    readGroup depth quote (inner ++ ')' :: rest) = some (inner, rest) := by
  induction inner generalizing depth quote with
  | nil =>
    cases quote with
    | some mark => simp [isBalanced] at h
    | none =>
      have hdepth : depth = 0 := by simpa [isBalanced] using h
      rw [hdepth, List.nil_append, readGroup, if_pos rfl]
  | cons c cs ih =>
    cases quote with
    | some mark =>
      rw [isBalanced] at h
      rw [List.cons_append, readGroup, ih h]
      rfl
    | none =>
      rw [isBalanced.eq_def] at h
      rw [List.cons_append, readGroup.eq_def]
      by_cases hclose : c = ')'
      · cases depth with
        | zero => simp [hclose] at h
        | succ depth =>
          simp only [hclose, ↓reduceIte] at h ⊢
          rw [ih h]
          rfl
      · simp only [if_neg hclose] at h ⊢
        rw [ih h]
        rfl

/-- What is read as a group is balanced and ends at its parenthesis. -/
theorem balanced_of_readGroup (h : readGroup depth quote cs = some (inner, rest)) :
    isBalanced depth quote inner = true ∧ cs = inner ++ ')' :: rest := by
  induction cs generalizing depth quote inner with
  | nil => simp [readGroup] at h
  | cons c cs ih =>
    have step : ∀ {d q i}, (readGroup d q cs).map (fun p => (c :: p.1, p.2)) = some (i, rest) →
        ∃ i', i = c :: i' ∧ isBalanced d q i' = true ∧ c :: cs = i ++ ')' :: rest := by
      intro d q i eq
      obtain ⟨⟨i', r⟩, read, pair⟩ := Option.map_eq_some_iff.mp eq
      cases pair
      exact ⟨i', rfl, (ih read).1, congrArg (c :: ·) (ih read).2⟩
    cases quote with
    | some mark =>
      obtain ⟨i, rfl, hi, hcs⟩ := step h
      exact ⟨by rw [isBalanced, hi], hcs⟩
    | none =>
      rw [readGroup.eq_def] at h
      by_cases hclose : c = ')'
      · cases depth with
        | zero =>
          simp only [hclose, ↓reduceIte, Option.some.injEq, Prod.mk.injEq] at h
          obtain ⟨rfl, rfl⟩ := h
          exact ⟨rfl, by rw [hclose, List.nil_append]⟩
        | succ depth =>
          simp only [if_pos hclose] at h
          obtain ⟨i, rfl, hi, hcs⟩ := step h
          exact ⟨by rw [isBalanced.eq_def]; simpa [hclose] using hi, hcs⟩
      · simp only [if_neg hclose] at h
        obtain ⟨i, rfl, hi, hcs⟩ := step h
        exact ⟨by rw [isBalanced.eq_def]; simpa only [if_neg hclose] using hi, hcs⟩

/-- A group is read exactly when a balanced text stands in front of its parenthesis. -/
theorem readGroup_eq_some_iff : readGroup depth quote cs = some (inner, rest)
    ↔ isBalanced depth quote inner = true ∧ cs = inner ++ ')' :: rest := by
  constructor
  · exact balanced_of_readGroup
  · rintro ⟨h, rfl⟩
    exact readGroup_balanced h rest

/-- The text ends the token in front of it: it is empty, or it opens with a blank or a group. -/
def Stops (rest : List Char) : Prop :=
  ∀ c ∈ rest.head?, isBlank c = true ∨ c = '('

instance : (rest : List Char) → Decidable (Stops rest)
  | [] => .isTrue (by simp [Stops])
  | c :: _ => decidable_of_iff (isBlank c = true ∨ c = '(') (by simp [Stops])

/-- The text is one word, and no arrow. -/
structure IsWord (w : List Char) : Prop where
  ne_nil : w ≠ []
  chars : ∀ c ∈ w, isWordChar c = true
  no_arrow : '>' ∉ w

/-- The texts that a token is read from. -/
inductive Spelled : Token → List Char → Prop
  | word {w : List Char} (h : IsWord w) : Spelled (.word (String.ofList w)) w
  | text (s : String) : Spelled (.text s) (quoteChars s.toList)
  | group {inner : List Char} (h : isBalanced 0 none inner = true) :
      Spelled (.group (String.ofList (trim inner))) ('(' :: (inner ++ [')']))
  | arrow : Spelled .arrow ['-', '>']

/-- The texts in order, blanks between them: a text with no group behind it has a blank there. -/
def Spaced : List (List Char) → List Char → Prop
  | [], cs => IsBlankText cs
  | token :: tokens, cs => ∃ lead rest, IsBlankText lead ∧ cs = lead ++ (token ++ rest)
      ∧ Stops rest ∧ Spaced tokens rest

/-- The text that a token is read from, in front of a text that takes it no further. -/
inductive Lexes : Token → List Char → List Char → Prop
  | word {w rest : List Char} (hne : w ≠ []) (hchars : ∀ c ∈ w, isWordChar c = true)
      (harrow : ¬ ['-', '>'] <+: w) (hend : ∀ c ∈ rest.head?, isWordChar c = false) :
      Lexes (.word (String.ofList w)) w rest
  | text {rest : List Char} (s : String) (hend : rest.head? ≠ some quoteMark) :
      Lexes (.text s) (quoteChars s.toList) rest
  | group {lead inner trail rest : List Char} (hlead : IsBlankText lead)
      (htrail : IsBlankText trail) (hinner : Unpadded inner)
      (h : isBalanced 0 none (lead ++ (inner ++ trail)) = true) :
      Lexes (.group (String.ofList inner)) ('(' :: (lead ++ (inner ++ trail) ++ [')'])) rest
  | arrow {rest : List Char} : Lexes .arrow ['-', '>'] rest

/-- The tokens make up the text: their texts stand in it in order with nothing but blanks, or
nothing at all, between them. -/
inductive Covers : List Token → List Char → Prop
  | done {cs : List Char} (h : IsBlankText cs) : Covers [] cs
  | more {token : Token} {tokens : List Token} {lead cs rest : List Char}
      (hlead : IsBlankText lead) (htoken : Lexes token cs rest) (hrest : Covers tokens rest) :
      Covers (token :: tokens) (lead ++ (cs ++ rest))

variable {token : Token} {tokens : List Token}

theorem Stops.not_wordChar (h : Stops rest) {c : Char} (hc : rest.head? = some c) :
    isWordChar c = false := by
  rcases h c hc with hb | rfl
  · simp [isWordChar, hb]
  · decide

/-- A group is read without the blanks at its ends. -/
theorem Lexes.of_balanced (h : isBalanced 0 none inner = true) :
    Lexes (.group (String.ofList (trim inner))) ('(' :: (inner ++ [')'])) rest := by
  obtain ⟨lead, trail, hlead, htrail, hinner⟩ := exists_trim inner
  have hends : Unpadded (trim inner) := trim_eq_self_iff.mp (trim_trim inner)
  have hgroup : Lexes (.group (String.ofList (trim inner)))
      ('(' :: (lead ++ (trim inner ++ trail) ++ [')'])) rest :=
    .group hlead htrail hends (hinner ▸ h)
  rwa [← hinner] at hgroup

theorem Spelled.lexes (h : Spelled token cs) (hs : Stops rest) : Lexes token cs rest := by
  cases h with
  | word h =>
    have harrow : ¬ ['-', '>'] <+: cs := fun hpre => h.no_arrow (hpre.subset (by simp))
    exact .word h.ne_nil h.chars harrow fun c hc => hs.not_wordChar hc
  | text s => exact .text s fun hq => absurd (hs _ hq) (by decide)
  | group h => exact .of_balanced h
  | arrow => exact .arrow

/-- The first character of a text decides what is read from it. -/
theorem readAll_cons (c : Char) (rest : List Char) : readAll (c :: rest) =
    if isBlank c then readAll rest
    else if c = quoteMark then
      match unquote? rest with
      | none => .error (.unterminated "string")
      | some (s, rest') => (readAll rest').map (text (String.ofList s) :: ·)
    else if c = '(' then
      match readGroup 0 none rest with
      | none => .error (.unterminated "group")
      | some (inner, rest') => (readAll rest').map (group (String.ofList (trim inner)) :: ·)
    else if c = '-' ∧ rest.head? = some '>' then (readAll rest.tail).map (arrow :: ·)
    else (readAll (rest.dropWhile isWordChar)).map
      (word (String.ofList (c :: rest.takeWhile isWordChar)) :: ·) := by
  rw [readAll.eq_def]
  dsimp only
  split
  · rfl
  · split
    · split <;> simp_all
    · split
      · split <;> simp_all
      · rfl

theorem readAll_lead (h : IsBlankText lead) : readAll (lead ++ rest) = readAll rest := by
  induction lead with
  | nil => rfl
  | cons c lead ih =>
    rw [List.cons_append, readAll_cons, if_pos (h c List.mem_cons_self)]
    exact ih fun d hd => h d (List.mem_cons_of_mem c hd)

theorem readAll_word {w : List Char} (hne : w ≠ []) (hchars : ∀ c ∈ w, isWordChar c = true)
    (harrow : ¬ ['-', '>'] <+: w) (hend : ∀ c ∈ rest.head?, isWordChar c = false) :
    readAll (w ++ rest) = (readAll rest).map (.word (String.ofList w) :: ·) := by
  obtain ⟨c, cs, rfl⟩ := List.exists_cons_of_ne_nil hne
  have hc : isBlank c = false ∧ c ≠ '(' ∧ c ≠ quoteMark := by
    simpa [isWordChar, and_assoc] using hchars c List.mem_cons_self
  -- A minus alone is a word, so what follows the word counts here too.
  have hword : ¬ (c = '-' ∧ (cs ++ rest).head? = some '>') := by
    rintro ⟨rfl, hhead⟩
    cases cs with
    | nil => exact absurd (hend _ hhead) (by decide)
    | cons d ds =>
      cases Option.some.inj hhead
      exact harrow ⟨ds, rfl⟩
  have hcs : ∀ d ∈ cs, isWordChar d = true := fun d hd => hchars d (List.mem_cons_of_mem c hd)
  have hstop : rest.takeWhile isWordChar = [] ∧ rest.dropWhile isWordChar = rest := by
    cases rest with
    | nil => exact ⟨rfl, rfl⟩
    | cons d ds => simp [hend d rfl]
  rw [List.cons_append, readAll_cons]
  simp only [hc.1, hc.2.1, hc.2.2, hword, Bool.false_eq_true, ↓reduceIte]
  rw [List.takeWhile_append_of_pos hcs, List.dropWhile_append_of_pos hcs, hstop.1, hstop.2,
    List.append_nil]

/-- A literal is read back whatever its body is. -/
theorem unquote?_doubleQuotes (h : rest.head? ≠ some quoteMark) :
    unquote? (doubleQuotes body ++ quoteMark :: rest) = some (body, rest) := by
  induction body with
  | nil =>
    cases rest with
    | nil => rfl
    | cons d ds =>
      have hd : d ≠ quoteMark := fun hd => h (congrArg some hd)
      rw [doubleQuotes, List.nil_append, unquote?, if_pos rfl, if_neg hd]
  | cons c cs ih =>
    by_cases hc : c = quoteMark
    · rw [doubleQuotes, if_pos hc, List.cons_append, List.cons_append, unquote?, if_pos rfl,
        if_pos rfl, ih, hc]
      rfl
    · obtain ⟨d, ds, hmore⟩ := List.exists_cons_of_ne_nil
        (show doubleQuotes cs ++ quoteMark :: rest ≠ [] by simp)
      rw [doubleQuotes, if_neg hc, List.cons_append, hmore, unquote?, if_neg hc, ← hmore, ih]
      rfl

/-- What is read as the body of a literal stands in front of a quote that no other follows. -/
theorem doubleQuotes_of_unquote? (h : unquote? cs = some (body, rest)) :
    cs = doubleQuotes body ++ quoteMark :: rest ∧ rest.head? ≠ some quoteMark := by
  fun_induction unquote? cs generalizing body rest with
  | case1 => cases h
  | case2 =>
    cases h
    exact ⟨rfl, by simp⟩
  | case3 => cases h
  | case4 cs ih =>
    obtain ⟨⟨text, rest'⟩, hread, hpair⟩ := Option.map_eq_some_iff.mp h
    cases hpair
    obtain ⟨rfl, hend⟩ := ih hread
    exact ⟨by simp [doubleQuotes], hend⟩
  | case5 d cs hd =>
    cases h
    exact ⟨rfl, fun hq => hd (Option.some.inj hq)⟩
  | case6 c d cs hc ih =>
    obtain ⟨⟨text, rest'⟩, hread, hpair⟩ := Option.map_eq_some_iff.mp h
    cases hpair
    obtain ⟨hcs, hend⟩ := ih hread
    exact ⟨by rw [doubleQuotes, if_neg hc, hcs, List.cons_append], hend⟩

theorem readAll_text (s : String) (hend : rest.head? ≠ some quoteMark) :
    readAll (quoteChars s.toList ++ rest) = (readAll rest).map (.text s :: ·) := by
  rw [quoteChars, List.cons_append, List.append_assoc, List.singleton_append, readAll_cons]
  simp [show isBlank quoteMark = false by decide, unquote?_doubleQuotes hend]

theorem readAll_group (h : isBalanced 0 none inner = true) (rest : List Char) :
    readAll ('(' :: (inner ++ [')']) ++ rest)
      = (readAll rest).map (.group (String.ofList (trim inner)) :: ·) := by
  have hread : readGroup 0 none (inner ++ [')'] ++ rest) = some (inner, rest) := by
    rw [List.append_assoc]
    exact readGroup_eq_some_iff.mpr ⟨h, rfl⟩
  rw [List.cons_append, readAll_cons]
  simp only [show isBlank '(' = false by decide, show '(' ≠ quoteMark by decide, hread,
    Bool.false_eq_true, ↓reduceIte]

theorem readAll_arrow (rest : List Char) :
    readAll (['-', '>'] ++ rest) = (readAll rest).map (.arrow :: ·) := by
  rw [List.cons_append, readAll_cons]
  simp [show isBlank '-' = false by decide, show '-' ≠ quoteMark by decide]

theorem Lexes.readAll_eq (h : Lexes token cs rest) :
    readAll (cs ++ rest) = (readAll rest).map (token :: ·) := by
  cases h with
  | word hne hchars harrow hend => exact readAll_word hne hchars harrow hend
  | text s hend => exact readAll_text s hend
  | group hlead htrail hinner h =>
    rw [readAll_group h, trim_lead hlead, trim_trail htrail, trim_eq_self_iff.mpr hinner]
  | arrow => exact readAll_arrow rest

theorem Covers.readAll_eq (h : Covers tokens cs) : readAll cs = .ok tokens := by
  induction h with
  | @done cs h => rw [← List.append_nil cs, readAll_lead h, readAll.eq_def]
  | more hlead htoken _ ih =>
    rw [readAll_lead hlead, htoken.readAll_eq, ih]
    rfl

theorem readAll_spaced {texts : List (List Char)} (h : List.Forall₂ Spelled tokens texts)
    (hspaced : Spaced texts cs) : readAll cs = .ok tokens := by
  induction h generalizing cs with
  | nil => exact (Covers.done hspaced).readAll_eq
  | cons htoken _ ih =>
    obtain ⟨lead, rest, hlead, rfl, hstops, hrest⟩ := hspaced
    rw [readAll_lead hlead, (htoken.lexes hstops).readAll_eq, ih hrest]
    rfl

theorem covers_lead (hlead : IsBlankText lead) (h : Covers tokens cs) :
    Covers tokens (lead ++ cs) := by
  have join : ∀ {gap : List Char}, IsBlankText gap → IsBlankText (lead ++ gap) := fun hgap c hc =>
    (List.mem_append.mp hc).elim (hlead c) (hgap c)
  cases h with
  | done h => exact .done (join h)
  | more hgap htoken hrest =>
    rw [← List.append_assoc]
    exact .more (join hgap) htoken hrest

theorem Lexes.covers (htoken : Lexes token cs rest)
    (hrest : ∀ {tokens}, readAll rest = .ok tokens → Covers tokens rest)
    (h : (readAll rest).map (token :: ·) = .ok tokens) : Covers tokens (cs ++ rest) := by
  obtain ⟨following, hread, rfl⟩ := map_eq_ok.mp h
  have hempty : IsBlankText [] := by simp [IsBlankText]
  exact .more hempty htoken (hrest hread)

theorem isWordChar_of_other {c : Char} (hblank : ¬ isBlank c = true) (hquote : c ≠ quoteMark)
    (hopen : c ≠ '(') : isWordChar c = true := by
  simp [isWordChar, hblank, hquote, hopen]

/-- A word goes on to the first character that is none of a word. -/
theorem lexes_word {c : Char} (hblank : ¬ isBlank c = true) (hquote : c ≠ quoteMark)
    (hopen : c ≠ '(') (harrow : ¬ (c = '-' ∧ rest.head? = some '>')) :
    Lexes (.word (String.ofList (c :: rest.takeWhile isWordChar)))
      (c :: rest.takeWhile isWordChar) (rest.dropWhile isWordChar) := by
  have hrest : rest.takeWhile isWordChar ++ rest.dropWhile isWordChar = rest :=
    List.takeWhile_append_dropWhile
  refine .word (List.cons_ne_nil _ _) ?_ ?_ ?_
  · intro d hd
    rcases List.mem_cons.mp hd with rfl | hd
    · exact isWordChar_of_other hblank hquote hopen
    · exact List.mem_takeWhile_imp hd
  · rintro ⟨ds, hds⟩
    obtain ⟨rfl, htake⟩ := List.cons.inj hds
    rw [← htake] at hrest
    exact harrow ⟨rfl, (congrArg List.head? hrest).symm⟩
  · intro d hd
    have hstop := List.head?_dropWhile_not isWordChar rest
    rwa [Option.mem_def.mp hd] at hstop

/-- Every text that is read at all is made up of the tokens read. -/
theorem covers_of_readAll (h : readAll cs = .ok tokens) : Covers tokens cs := by
  fun_induction readAll cs generalizing tokens with
  | case1 =>
    cases h
    exact .done (by simp [IsBlankText])
  | case2 c rest hc ih =>
    have hblank : IsBlankText [c] := by simpa [IsBlankText] using hc
    exact covers_lead hblank (ih h)
  | case3 => cases h
  | case4 rest body rest' hread _ _ ih =>
    obtain ⟨rfl, hend⟩ := doubleQuotes_of_unquote? hread
    have htoken := Lexes.text (String.ofList body) hend
    simpa [quoteChars] using htoken.covers ih h
  | case5 => cases h
  | case6 rest inner rest' hread _ _ _ ih =>
    obtain ⟨hbalanced, rfl⟩ := balanced_of_readGroup hread
    simpa using (Lexes.of_balanced hbalanced).covers ih h
  | case7 c rest _ _ _ harrow ih =>
    obtain ⟨rfl, hhead⟩ := harrow
    obtain ⟨rest', rfl⟩ := List.head?_eq_some_iff.mp hhead
    exact Lexes.arrow.covers ih h
  | case8 c rest hblank hquote hopen harrow _ ih =>
    have hword := lexes_word hblank hquote hopen harrow
    have hcovers := hword.covers ih h
    rwa [List.cons_append, List.takeWhile_append_dropWhile] at hcovers

/-- A text is read exactly when tokens make it up, and the tokens read are these. -/
theorem readAll_eq_ok_iff : readAll cs = .ok tokens ↔ Covers tokens cs :=
  ⟨covers_of_readAll, Covers.readAll_eq⟩

end Token

end Tabularium
