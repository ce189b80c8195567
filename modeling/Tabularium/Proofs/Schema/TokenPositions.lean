import Tabularium.Proofs.Schema.TokenText

namespace Tabularium

namespace Cursor

/-- What ends a scan by positions: a fault of the text, or a step that must not be taken. -/
inductive Halt where
  | fault (fault : ColumnFault)
  /-- A character or a part of the text that lies outside it. -/
  | outside
  /-- A group closed where none is open. -/
  | unopened
deriving DecidableEq

/-- The character at a position. -/
def charAt (cs : List Char) (i : Nat) : Except Halt Char :=
  match cs[i]? with
  | some c => .ok c
  | none => .error .outside

/-- The part of the text between two positions. -/
def slice (cs : List Char) (i j : Nat) : Except Halt (List Char) :=
  if i ≤ j ∧ j ≤ cs.length then .ok ((cs.take j).drop i) else .error .outside

/-- The body of a literal, read from a position on, with the position behind its closing quote. -/
def scanString (cs body : List Char) (i : Nat) : Except Halt (List Char × Nat) :=
  if i < cs.length then do
    let c ← charAt cs i
    if c = quoteMark then
      if cs[i + 1]? = some quoteMark then scanString cs (body ++ [quoteMark]) (i + 2)
      else return (body, i + 1)
    else scanString cs (body ++ [c]) (i + 1)
  else throw (.fault (.unterminated "string"))
termination_by cs.length - i

/-- The text of the group that opens at `start`, read from a position on with `depth` groups open,
and the position behind its closing parenthesis. -/
def scanGroup (cs : List Char) (start depth : Nat) (quote : Option Char) (i : Nat) :
    Except Halt (List Char × Nat) :=
  if i < cs.length then do
    let c ← charAt cs i
    match quote with
    | some mark => scanGroup cs start depth (if c = mark then none else some mark) (i + 1)
    | none =>
      if c = quoteMark ∨ c = '\x22' then scanGroup cs start depth (some c) (i + 1)
      else if c = '(' then scanGroup cs start (depth + 1) none (i + 1)
      else if c = ')' then
        match depth with
        | 0 => throw .unopened
        | 1 => return (trim (← slice cs (start + 1) i), i + 1)
        | depth + 2 => scanGroup cs start (depth + 1) none (i + 1)
      else scanGroup cs start depth none (i + 1)
  else throw (.fault (.unterminated "group"))
termination_by cs.length - i

/-- The position behind the word that goes on at a position. -/
def scanWord (cs : List Char) (i : Nat) : Except Halt Nat :=
  if i < cs.length then do
    let c ← charAt cs i
    if Token.isWordChar c then scanWord cs (i + 1) else return i
  else return i
termination_by cs.length - i

variable {cs body inner rest : List Char} {start depth i j : Nat} {quote : Option Char}

theorem charAt_lt (h : i < cs.length) : charAt cs i = .ok cs[i] := by
  rw [charAt, List.getElem?_eq_getElem h]

theorem unquote?_cons (c : Char) (cs : List Char) : unquote? (c :: cs) =
    if c = quoteMark then
      if cs.head? = some quoteMark then
        (unquote? cs.tail).map fun (text, rest) => (quoteMark :: text, rest)
      else some ([], cs)
    else (unquote? cs).map fun (text, rest) => (c :: text, rest) := by
  cases cs with
  | nil => rfl
  | cons d cs => simp [unquote?]

/-- What is made of a text read in front of a rest, with the position of the rest; or the fault of a
text that ends too early. -/
def located (cs : List Char) (what : String) (f : List Char → List Char) :
    Option (List Char × List Char) → Except Halt (List Char × Nat)
  | some (read, rest) => .ok (f read, cs.length - rest.length)
  | none => .error (.fault (.unterminated what))

theorem located_map {what : String} {f g : List Char → List Char}
    (read : Option (List Char × List Char)) :
    located cs what f (read.map fun (text, rest) => (g text, rest))
      = located cs what (f ∘ g) read := by
  cases read <;> rfl

theorem append_cons_comp (front : List Char) (c : Char) :
    (front ++ ·) ∘ (c :: ·) = (front ++ [c] ++ ·) := by
  funext text
  simp

/-- A literal is read by positions as it is read from the rest of the text. -/
theorem scanString_eq :
    scanString cs body i = located cs "string" (body ++ ·) (unquote? (cs.drop i)) := by
  fun_induction scanString cs body i with
  | case1 body i h ihquote ih =>
    rw [charAt_lt h, List.drop_eq_getElem_cons h, unquote?_cons, List.head?_drop, List.tail_drop]
    simp only [bind, Except.bind]
    by_cases hc : cs[i] = quoteMark
    · rw [if_pos hc, if_pos hc]
      by_cases hnext : cs[i + 1]? = some quoteMark
      · rw [if_pos hnext, if_pos hnext, ihquote, located_map, append_cons_comp]
      · have hlength : cs.length - (cs.length - (i + 1)) = i + 1 := by omega
        rw [if_neg hnext, if_neg hnext, located, List.append_nil, List.length_drop, hlength]
        rfl
    · rw [if_neg hc, if_neg hc, ih, located_map, append_cons_comp]
  | case2 body i h =>
    rw [List.drop_eq_nil_of_le (Nat.le_of_not_lt h)]
    rfl

theorem slice_succ (hstart : start ≤ i) (hi : i < cs.length) :
    (cs.take (i + 1)).drop start = (cs.take i).drop start ++ [cs[i]] := by
  rw [List.take_succ_eq_append_getElem hi, List.drop_append_of_le_length (by simp; omega)]

/-- A group is read by positions as it is read from the rest of the text: with `depth` groups open
inside it, none is closed that is not open. -/
theorem scanGroup_eq (hstart : start < i) : scanGroup cs start (depth + 1) quote i
    = located cs "group" (fun inner => trim ((cs.take i).drop (start + 1) ++ inner))
        (Token.readGroup depth quote (cs.drop i)) := by
  -- On what is left of the text, whatever is open: groups inside this one, a quote, both or none.
  induction hn : cs.length - i generalizing depth quote i with
  | zero =>
    have hi : ¬ i < cs.length := by omega
    have hend : cs.drop i = [] := List.drop_eq_nil_of_le (Nat.le_of_not_lt hi)
    rw [scanGroup.eq_def, if_neg hi, hend, Token.readGroup]
    rfl
  | succ n ih =>
    have hi : i < cs.length := by omega
    have hstep : ∀ depth quote, scanGroup cs start (depth + 1) quote (i + 1)
        = located cs "group" (fun inner => trim ((cs.take i).drop (start + 1) ++ inner))
          ((Token.readGroup depth quote (cs.drop (i + 1))).map fun (inner, rest) =>
            (cs[i] :: inner, rest)) := by
      intro depth quote
      rw [ih (by omega) (by omega), located_map, slice_succ (by omega) hi]
      congr 1
      funext inner
      simp
    rw [scanGroup.eq_def, if_pos hi, charAt_lt hi, List.drop_eq_getElem_cons hi]
    simp only [bind, Except.bind]
    cases quote with
    | some mark =>
      rw [Token.readGroup]
      exact hstep depth _
    | none =>
      rw [Token.readGroup.eq_def]
      by_cases hclose : cs[i] = ')'
      · have hother : ¬ (cs[i] = quoteMark ∨ cs[i] = '\x22') ∧ cs[i] ≠ '(' := by
          rw [hclose]
          decide
        simp only [if_neg hother.1, if_neg hother.2, if_pos hclose]
        cases depth with
        | zero =>
          have hend : cs.length - (cs.length - (i + 1)) = i + 1 := by omega
          simp [located, slice, hend, Nat.succ_le_of_lt hstart, Nat.le_of_lt hi, pure, Except.pure]
        | succ depth => exact hstep depth none
      · by_cases hquote : cs[i] = quoteMark ∨ cs[i] = '\x22'
        · have hopen : cs[i] ≠ '(' := by
            rcases hquote with hc | hc <;> rw [hc] <;> decide
          simp only [if_neg hclose, if_pos hquote, if_neg hopen]
          exact hstep depth _
        · by_cases hopen : cs[i] = '('
          · simp only [if_neg hclose, if_neg hquote, if_pos hopen]
            exact hstep (depth + 1) none
          · simp only [if_neg hclose, if_neg hquote, if_neg hopen]
            exact hstep depth none

/-- The opening parenthesis of a group is the first to be counted. -/
theorem scanGroup_open (hi : i < cs.length) (hopen : cs[i] = '(') :
    scanGroup cs i 0 none i
      = located cs "group" trim (Token.readGroup 0 none (cs.drop (i + 1))) := by
  have hstep : scanGroup cs i 1 none (i + 1) = located cs "group" _ _ :=
    scanGroup_eq (Nat.lt_succ_self i)
  have hnone : (cs.take (i + 1)).drop (i + 1) = [] := by simp
  rw [scanGroup.eq_def, if_pos hi, charAt_lt hi]
  simp only [bind, Except.bind, hopen, show ¬ ('(' = quoteMark ∨ '(' = '\x22') by decide,
    ↓reduceIte, hstep, hnone, List.nil_append]

/-- A word is read by positions as it is read from the rest of the text. -/
theorem scanWord_eq (hi : i ≤ cs.length) : scanWord cs i
    = .ok (cs.length - ((cs.drop i).dropWhile Token.isWordChar).length) := by
  fun_induction scanWord cs i with
  | case1 i h ih =>
    rw [charAt_lt h, List.drop_eq_getElem_cons h]
    simp only [bind, Except.bind]
    by_cases hc : Token.isWordChar cs[i] = true
    · rw [if_pos hc, List.dropWhile_cons_of_pos hc, ih (by omega)]
    · have hlength : cs.length - (cs.length - (i + 1) + 1) = i := by omega
      rw [if_neg hc, List.dropWhile_cons_of_neg hc, List.length_cons, List.length_drop, hlength]
      rfl
  | case2 i h =>
    have hend : i = cs.length := by omega
    simp [hend, pure, Except.pure]

theorem some_of_located {what : String} {f : List Char → List Char}
    {read : Option (List Char × List Char)} {text : List Char}
    (h : located cs what f read = .ok (text, j)) :
    ∃ part rest, read = some (part, rest) ∧ text = f part ∧ j = cs.length - rest.length := by
  cases read with
  | none => cases h
  | some pair =>
    cases h
    exact ⟨pair.1, pair.2, rfl, rfl, rfl⟩

theorem none_of_located {what : String} {f : List Char → List Char}
    {read : Option (List Char × List Char)} {halt : Halt}
    (h : located cs what f read = .error halt) :
    read = none ∧ halt = .fault (.unterminated what) := by
  cases read with
  | none =>
    cases h
    exact ⟨rfl, rfl⟩
  | some pair => cases h

/-- What takes something from the text at a position takes the cursor behind the position. -/
theorem lt_of_located {what : String} {f : List Char → List Char}
    {read : Option (List Char × List Char)} {text : List Char}
    (hshort : ∀ {part rest}, read = some (part, rest) → rest.length < (cs.drop i).length)
    (h : located cs what f read = .ok (text, j)) : i < j := by
  obtain ⟨part, rest, hread, -, rfl⟩ := some_of_located h
  have hlength := hshort hread
  rw [List.length_drop] at hlength
  omega

theorem scanString_lt (h : scanString cs body i = .ok (inner, j)) : i < j := by
  rw [scanString_eq] at h
  exact lt_of_located unquote?_length h

theorem getElem_of_charAt {c : Char} (h : charAt cs i = .ok c) :
    ∃ hi : i < cs.length, cs[i] = c := by
  unfold charAt at h
  split at h
  next c' hc =>
    cases h
    exact List.getElem?_eq_some_iff.mp hc
  next => cases h

theorem drop_of_charAt {c : Char} (h : charAt cs i = .ok c) :
    cs.drop i = c :: cs.drop (i + 1) := by
  obtain ⟨hi, rfl⟩ := getElem_of_charAt h
  exact List.drop_eq_getElem_cons hi

theorem scanGroup_lt (hc : charAt cs i = .ok '(')
    (h : scanGroup cs i 0 none i = .ok (inner, j)) : i < j := by
  obtain ⟨hi, hopen⟩ := getElem_of_charAt hc
  rw [scanGroup_open hi hopen] at h
  exact Nat.lt_of_succ_lt (lt_of_located Token.readGroup_length h)

theorem scanWord_lt {c : Char} (hc : charAt cs i = .ok c) (hword : Token.isWordChar c = true)
    (h : scanWord cs i = .ok j) : i < j := by
  obtain ⟨hi, rfl⟩ := getElem_of_charAt hc
  rw [scanWord_eq (Nat.le_of_lt hi), List.drop_eq_getElem_cons hi,
    List.dropWhile_cons_of_pos hword] at h
  have hlength := ((cs.drop (i + 1)).dropWhile_sublist Token.isWordChar).length_le
  rw [List.length_drop] at hlength
  cases h
  omega

/-- The tokens of a text from a position on, behind those already read. The cursor goes forward with
every token and every blank, so it comes to the end of the text. -/
def scanAll (cs : List Char) (tokens : List Token) (i : Nat) : Except Halt (List Token) :=
  if i < cs.length then
    match hc : charAt cs i with
    | .error halt => .error halt
    | .ok c =>
      if hblank : isBlank c then scanAll cs tokens (i + 1)
      else if hquote : c = quoteMark then
        match h : scanString cs [] (i + 1) with
        | .error halt => .error halt
        | .ok (body, next) =>
          have := scanString_lt h
          scanAll cs (tokens ++ [.text (String.ofList body)]) next
      else if hopen : c = '(' then
        match h : scanGroup cs i 0 none i with
        | .error halt => .error halt
        | .ok (inner, next) =>
          have := scanGroup_lt (hopen ▸ hc) h
          scanAll cs (tokens ++ [.group (String.ofList inner)]) next
      else if c = '-' ∧ cs[i + 1]? = some '>' then scanAll cs (tokens ++ [.arrow]) (i + 2)
      else
        match h : scanWord cs i with
        | .error halt => .error halt
        | .ok next =>
          have := scanWord_lt hc (Token.isWordChar_of_other hblank hquote hopen) h
          match slice cs i next with
          | .error halt => .error halt
          | .ok w => scanAll cs (tokens ++ [.word (String.ofList w)]) next
  else .ok tokens
termination_by cs.length - i

theorem map_push {ε : Type} (tokens : List Token) (token : Token) (read : Except ε (List Token)) :
    (read.map (token :: ·)).map (tokens ++ ·) = read.map (tokens ++ [token] ++ ·) := by
  cases read with
  | error fault => rfl
  | ok following => simp [Except.map]

theorem drop_of_suffix (h : rest <:+ cs.drop i) : cs.drop (cs.length - rest.length) = rest :=
  (List.suffix_iff_eq_drop.mp (h.trans (List.drop_suffix i cs))).symm

theorem drop_of_parts {front : List Char} {c : Char} (h : cs.drop i = front ++ c :: rest) :
    cs.drop (cs.length - rest.length) = rest := by
  have hsuffix : rest <:+ cs.drop i := by
    rw [h]
    exact (List.suffix_cons c rest).trans (List.suffix_append front _)
  exact drop_of_suffix hsuffix

/-- A word is a part of the text. -/
theorem slice_word {p : Char → Bool} (hi : i ≤ cs.length) :
    slice cs i (cs.length - ((cs.drop i).dropWhile p).length) = .ok ((cs.drop i).takeWhile p) := by
  have hparts : (cs.drop i).takeWhile p ++ (cs.drop i).dropWhile p = cs.drop i :=
    List.takeWhile_append_dropWhile
  have hlength := congrArg List.length hparts
  rw [List.length_append, List.length_drop] at hlength
  have htake : cs.length - ((cs.drop i).dropWhile p).length - i
      = ((cs.drop i).takeWhile p).length := by omega
  rw [slice, if_pos ⟨by omega, Nat.sub_le _ _⟩, List.drop_take, htake,
    ← List.prefix_iff_eq_take.mp (List.takeWhile_prefix p)]

/-- A scan by positions reads the tokens that are read from the rest of the text. It never looks
outside the text, and closes no group that is not open. -/
theorem scanAll_eq (tokens : List Token) (i : Nat) : scanAll cs tokens i
    = ((Token.readAll (cs.drop i)).map (tokens ++ ·)).mapError .fault := by
  fun_induction scanAll cs tokens i with
  | case1 tokens i hi halt hc => rw [charAt_lt hi] at hc; cases hc
  | case2 tokens i hi c hc hblank ih =>
    rw [ih, drop_of_charAt hc, Token.readAll_cons, if_pos hblank]
  | case3 tokens i hi halt h hc hblank =>
    rw [scanString_eq] at h
    obtain ⟨hread, rfl⟩ := none_of_located h
    rw [drop_of_charAt hc, Token.readAll_cons, if_neg hblank, if_pos rfl, hread]
    rfl
  | case4 tokens i hi body next h _ hc hblank ih =>
    rw [scanString_eq] at h
    obtain ⟨s, rest, hread, rfl, rfl⟩ := some_of_located h
    rw [ih, drop_of_parts (Token.doubleQuotes_of_unquote? hread).1, drop_of_charAt hc,
      Token.readAll_cons, if_neg hblank, if_pos rfl, hread]
    dsimp only
    rw [map_push]
  | case5 tokens i hi halt h hc hblank hquote =>
    obtain ⟨_, hopen⟩ := getElem_of_charAt hc
    rw [scanGroup_open hi hopen] at h
    obtain ⟨hread, rfl⟩ := none_of_located h
    rw [drop_of_charAt hc, Token.readAll_cons, if_neg hblank, if_neg hquote, if_pos rfl, hread]
    rfl
  | case6 tokens i hi inner next h hc hblank hquote _ ih =>
    obtain ⟨_, hopen⟩ := getElem_of_charAt hc
    rw [scanGroup_open hi hopen] at h
    obtain ⟨group, rest, hread, rfl, rfl⟩ := some_of_located h
    rw [ih, drop_of_parts (Token.balanced_of_readGroup hread).2, drop_of_charAt hc,
      Token.readAll_cons, if_neg hblank, if_neg hquote, if_pos rfl, hread]
    dsimp only
    rw [map_push]
  | case7 tokens i hi c hc hblank hquote hopen harrow ih =>
    rw [ih, drop_of_charAt hc, Token.readAll_cons, if_neg hblank, if_neg hquote, if_neg hopen,
      List.head?_drop, if_pos harrow, List.tail_drop, map_push]
  | case8 tokens i hi c hc hblank hquote hopen harrow halt h =>
    -- a word ends with the text at the latest, so its scan has no fault
    rw [scanWord_eq (Nat.le_of_lt hi)] at h
    cases h
  | case9 tokens i hi c hc hblank hquote hopen harrow next h _ halt hslice =>
    rw [scanWord_eq (Nat.le_of_lt hi)] at h
    cases h
    rw [slice_word (Nat.le_of_lt hi)] at hslice
    cases hslice
  | case10 tokens i hi c hc hblank hquote hopen harrow next h _ w hslice ih =>
    rw [scanWord_eq (Nat.le_of_lt hi)] at h
    cases h
    rw [slice_word (Nat.le_of_lt hi)] at hslice
    cases hslice
    have hword := Token.isWordChar_of_other hblank hquote hopen
    have harrow' : ¬ (c = '-' ∧ (cs.drop (i + 1)).head? = some '>') := by rwa [List.head?_drop]
    rw [ih, drop_of_suffix (List.dropWhile_suffix _), drop_of_charAt hc, Token.readAll_cons,
      if_neg hblank, if_neg hquote, if_neg hopen, if_neg harrow', List.takeWhile_cons_of_pos hword,
      List.dropWhile_cons_of_pos hword, map_push]
  | case11 tokens i hi =>
    rw [List.drop_eq_nil_of_le (Nat.le_of_not_lt hi), Token.readAll.eq_def]
    simp [Except.map, Except.mapError]

theorem scanAll_zero (cs : List Char) :
    scanAll cs [] 0 = (Token.readAll cs).mapError .fault := by
  rw [scanAll_eq, List.drop_zero]
  cases Token.readAll cs <;> rfl

end Cursor

end Tabularium
