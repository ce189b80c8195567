namespace Tabularium

/-- The single quote that delimits a string literal. -/
def quoteMark : Char := '\x27'

/-- The body of a literal: every quote is written twice. -/
def doubleQuotes : List Char → List Char
  | [] => []
  | c :: cs =>
    if c = quoteMark then quoteMark :: quoteMark :: doubleQuotes cs else c :: doubleQuotes cs

/-- The literal that denotes a text: its body between quotes. -/
def quoteChars (cs : List Char) : List Char :=
  quoteMark :: (doubleQuotes cs ++ [quoteMark])

/-- The literal that denotes a text: its body between quotes. -/
def quoteText (s : String) : String :=
  String.ofList (quoteChars s.toList)

/-- Reads the body of a literal behind its opening quote, and gives the text that it denotes with
what follows the closing quote; `none` when the literal is not closed. -/
def unquote? : List Char → Option (List Char × List Char)
  | [] => none
  | [c] => if c = quoteMark then some ([], []) else none
  | c :: d :: cs =>
    if c = quoteMark then
      if d = quoteMark then (unquote? cs).map fun (text, rest) => (quoteMark :: text, rest)
      else some ([], d :: cs)
    else (unquote? (d :: cs)).map fun (text, rest) => (c :: text, rest)

/-- What a literal leaves unread is shorter than what it was read from. -/
theorem unquote?_length {cs text rest : List Char} (h : unquote? cs = some (text, rest)) :
    rest.length < cs.length := by
  fun_induction unquote? cs generalizing text rest with
  | case1 => simp at h
  | case2 => simp_all
  | case3 => simp at h
  | case4 cs ih =>
    obtain ⟨⟨t, r⟩, hr, he⟩ := Option.map_eq_some_iff.mp h
    have hlt := ih hr
    cases he
    simp only [List.length_cons]
    omega
  | case5 => simp_all
  | case6 c d cs hc ih =>
    obtain ⟨⟨t, r⟩, hr, he⟩ := Option.map_eq_some_iff.mp h
    have hlt := ih hr
    cases he
    simp only [List.length_cons] at hlt ⊢
    omega

end Tabularium
