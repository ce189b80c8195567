import Tabularium.Text.Blank
import Tabularium.Text.Pieces

namespace Tabularium

inductive ScanState where
  | plain
  | quoted (mark : Char)
  | lineComment
  | blockComment
deriving DecidableEq, Repr

/-- The marks that open a quoted part, which the same mark closes. -/
def isMark (c : Char) : Bool :=
  c == '\x27' || c == '\x22' || c == '\x60'

/-- The text that a script keeps from here on, cut at each semicolon. Quoted parts are kept whole,
a line comment becomes its line break and a block comment a space. -/
def scriptPieces : ScanState → List Char → List (List Char)
  | _, [] => [[]]
  | .plain, c :: cs =>
    if isMark c then keepChar c (scriptPieces (.quoted c) cs)
    else if c = ';' then [] :: scriptPieces .plain cs
    else
      match cs with
      | [] => [[c]]
      | d :: ds =>
        if c = '-' ∧ d = '-' then scriptPieces .lineComment ds
        else if c = '/' ∧ d = '*' then scriptPieces .blockComment ds
        else keepChar c (scriptPieces .plain (d :: ds))
  | .quoted mark, c :: cs =>
    keepChar c (scriptPieces (if c = mark then .plain else .quoted mark) cs)
  | .lineComment, c :: cs =>
    if c = '\n' then keepChar '\n' (scriptPieces .plain cs) else scriptPieces .lineComment cs
  | .blockComment, c :: cs =>
    match cs with
    | [] => [[]]
    | d :: ds =>
      if c = '*' ∧ d = '/' then keepChar ' ' (scriptPieces .plain ds)
      else scriptPieces .blockComment (d :: ds)

/-- The statements of a script: its pieces without blanks at their ends, the empty ones left
out. -/
def splitStatements (script : String) : List String :=
  let pieces := (scriptPieces .plain script.toList).map trim
  (pieces.filter fun piece => !piece.isEmpty).map String.ofList

end Tabularium
