import Tabularium.Schema.Error
import Tabularium.Text.Blank
import Tabularium.Text.Quoted

namespace Tabularium

inductive Token where
  | word (w : String)
  | text (s : String)
  /-- A group in parentheses, without blanks at its ends. -/
  | group (s : String)
  | arrow
deriving DecidableEq, Repr

namespace Token

/-- The token as faults name it. -/
def describe : Token → String
  | word w => w
  | text s => "'" ++ s ++ "'"
  | group s => "(" ++ s ++ ")"
  | arrow => "->"

/-- Reads a group behind its opening parenthesis, `depth` groups inside it being open, and gives its
text with what follows it. Parentheses between quotes do not count. -/
def readGroup : Nat → Option Char → List Char → Option (List Char × List Char)
  | _, _, [] => none
  | depth, some mark, c :: cs =>
    (readGroup depth (if c = mark then none else some mark) cs).map fun (inner, rest) =>
      (c :: inner, rest)
  | depth, none, c :: cs =>
    if c = ')' then
      match depth with
      | 0 => some ([], cs)
      | depth + 1 => (readGroup depth none cs).map fun (inner, rest) => (c :: inner, rest)
    else
      let quote := if c = quoteMark ∨ c = '\x22' then some c else none
      (readGroup (if c = '(' then depth + 1 else depth) quote cs).map fun (inner, rest) =>
        (c :: inner, rest)

/-- What a group leaves unread is shorter than what it was read from. -/
theorem readGroup_length {depth : Nat} {quote : Option Char} {cs inner rest : List Char}
    (h : readGroup depth quote cs = some (inner, rest)) : rest.length < cs.length := by
  induction cs generalizing depth quote inner with
  | nil => simp [readGroup] at h
  | cons c cs ih =>
    have step : ∀ {d q i}, (readGroup d q cs).map (fun p => (c :: p.1, p.2)) = some (i, rest) →
        rest.length < (c :: cs).length := by
      intro d q i eq
      obtain ⟨⟨i', r⟩, read, pair⟩ := Option.map_eq_some_iff.mp eq
      cases pair
      exact Nat.lt_succ_of_lt (ih read)
    cases quote with
    | some mark => exact step h
    | none =>
      simp only [readGroup] at h
      split at h
      · cases depth with
        | zero => simp_all
        | succ depth => exact step h
      · exact step h

/-- The characters that a word goes on with. -/
def isWordChar (c : Char) : Bool :=
  !isBlank c && c != '(' && c != quoteMark

def readAll (cs : List Char) : Except ColumnFault (List Token) :=
  match cs with
  | [] => .ok []
  | c :: rest =>
    if isBlank c then readAll rest
    else if c = quoteMark then
      match h : unquote? rest with
      | none => .error (.unterminated "string")
      | some (s, rest') =>
        have := unquote?_length h
        (readAll rest').map (text (String.ofList s) :: ·)
    else if c = '(' then
      match h : readGroup 0 none rest with
      | none => .error (.unterminated "group")
      | some (inner, rest') =>
        have := readGroup_length h
        (readAll rest').map (group (String.ofList (trim inner)) :: ·)
    else if c = '-' ∧ rest.head? = some '>' then
      (readAll rest.tail).map (arrow :: ·)
    else
      have := (rest.dropWhile_sublist isWordChar).length_le
      (readAll (rest.dropWhile isWordChar)).map
        (word (String.ofList (c :: rest.takeWhile isWordChar)) :: ·)
termination_by cs.length
decreasing_by all_goals simp_wf <;> omega

end Token

end Tabularium
