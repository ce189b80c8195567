import Mathlib.Data.List.Forall2
import Tabularium.Proofs.Numeric.DecimalText
import Tabularium.Proofs.Outcome
import Tabularium.Proofs.Schema.GroupValues
import Tabularium.Proofs.Text.Pieces
import Tabularium.Schema.Column.Text

namespace Tabularium

/-- The text is the keyword, its letters in any case. -/
def Spells (keyword : String) (cs : List Char) : Prop :=
  cs.map Char.toLower = keyword.toList

instance (keyword : String) (cs : List Char) : Decidable (Spells keyword cs) :=
  inferInstanceAs (Decidable (cs.map Char.toLower = keyword.toList))

/-- The token is a word, and it is the keyword with its letters in any case. -/
inductive Token.Says (keyword : String) : Token → Prop
  | word {w : String} (h : Spells keyword w.toList) : Says keyword (.word w)

theorem asciiLower_eq_iff {w keyword : String} :
    asciiLower w = keyword ↔ Spells keyword w.toList := by
  rw [asciiLower, Spells, ← String.toList_inj, String.toList_ofList]

namespace DefaultValue

/-- The literals that have a word of their own. -/
def words : List (String × Literal) :=
  [("now", .now), ("null", .null), ("true", .bool true), ("false", .bool false)]

/-- The word is that of no literal. -/
def IsOther (w : String) : Prop :=
  ∀ entry ∈ words, ¬ Spells entry.1 w.toList

/-- The token that stands for a default. A number is an integer when 64 bits have room for it, and
else the finite number that is nearest. -/
inductive Written : DefaultValue → Token → Prop
  | word {keyword w : String} {literal : Literal} (h : (keyword, literal) ∈ words)
      (hw : Spells keyword w.toList) : Written (.value literal) (.word w)
  | int {w : String} {n : Int64} (hword : IsOther w) (h : IntegerSpelling n.toInt w.toList) :
      Written (.value (.int n)) (.word w)
  | float {w : String} {x : Binary64} {negative : Bool} {digits : Nat} {exponent : Int}
      (hword : IsOther w) (hint : ∀ n : Int64, ¬ IntegerSpelling n.toInt w.toList)
      (h : DecimalSpelling negative digits exponent w.toList)
      (hnearest : x.IsNearestDecimal negative digits exponent) (hfinite : x.isFinite = true) :
      Written (.value (.float x)) (.word w)
  | text (s : String) : Written (.value (.text s)) (.text s)
  | raw (sql : String) : Written (.raw sql) (.group sql)

theorem isOther_iff {w : String} : IsOther w ↔ asciiLower w ∉ words.map Prod.fst := by
  simp only [IsOther, List.mem_map, not_exists, not_and, ← asciiLower_eq_iff, eq_comm]

end DefaultValue

namespace DeleteAction

def keywords : DeleteAction → List String
  | cascade => ["cascade"]
  | restrict => ["restrict"]
  | setNull => ["set", "null"]
  | setDefault => ["set", "default"]
  | noAction => ["no", "action"]

/-- The words that may stand in front of an action. -/
def openings : List (List String) :=
  [[], ["on", "delete"], ["ondelete"]]

/-- The tokens that stand for an action or for none. -/
inductive Written : Option DeleteAction → List Token → Prop
  | none : Written none []
  | some {opening : List String} {action : DeleteAction} {tokens : List Token}
      (hopening : opening ∈ openings)
      (h : List.Forall₂ Token.Says (opening ++ action.keywords) tokens) :
      Written (some action) tokens

end DeleteAction

namespace Clause

/-- The tokens that stand for a clause. A reference is cut at the first point of its word. -/
inductive Written : Clause → List Token → Prop
  | primaryKey {tokens : List Token} (h : List.Forall₂ Token.Says ["primary", "key"] tokens) :
      Written .primaryKey tokens
  | notNull {tokens : List Token} (h : List.Forall₂ Token.Says ["not", "null"] tokens) :
      Written .notNull tokens
  | nullable {tokens : List Token} (h : List.Forall₂ Token.Says ["null"] tokens) :
      Written .nullable tokens
  | unique {tokens : List Token} (h : List.Forall₂ Token.Says ["unique"] tokens) :
      Written .unique tokens
  | enumValues {keyword : Token} {group : String} {values : List String}
      (h : keyword.Says "enum") (hvalues : Enumerates values group.toList) :
      Written (.enumValues (keptValues values)) [keyword, .group group]
  | default {keyword token : Token} {value : DefaultValue} (h : keyword.Says "default")
      (hvalue : value.Written token) : Written (.default value) [keyword, token]
  | references {table column : String} {action : Option DeleteAction} {tokens : List Token}
      (hpoint : '.' ∉ table.toList) (htable : table ≠ "") (hcolumn : column ≠ "")
      (h : DeleteAction.Written action tokens) :
      Written (.references ⟨table, column, action⟩)
        (.arrow :: .word (table ++ "." ++ column) :: tokens)

variable {keyword expected wanted word target table column : String} {token : Token}
  {tokens used rest : List Token} {action : DeleteAction} {onDelete : Option DeleteAction}
  {value : DefaultValue} {clause : Clause}

theorem says_of_readWord (h : readWord keyword expected tokens = .ok (word, rest)) :
    ∃ token, tokens = token :: rest ∧ token.Says word := by
  match tokens with
  | .word w :: _ =>
    cases h
    exact ⟨.word w, rfl, .word (asciiLower_eq_iff.mp rfl)⟩
  | .text _ :: _ | .group _ :: _ | .arrow :: _ | [] => cases h

theorem says_of_readKeyword (h : readKeyword keyword wanted tokens = .ok rest) :
    ∃ token, tokens = token :: rest ∧ token.Says wanted := by
  unfold readKeyword at h
  split at h
  next word rest' hword =>
    split at h
    next hsame =>
      cases h
      exact hsame ▸ says_of_readWord hword
    next => cases h
  next => cases h

theorem readKeyword_says (h : token.Says wanted) (rest : List Token) :
    readKeyword keyword wanted (token :: rest) = .ok rest := by
  obtain ⟨hw⟩ := h
  rw [← asciiLower_eq_iff] at hw
  simp [readKeyword, readWord, hw]

/-- Every action is read from its keywords. -/
theorem readAction_written (h : List.Forall₂ Token.Says action.keywords used)
    (rest : List Token) : readAction (used ++ rest) = .ok (action, rest) := by
  cases action with
  | cascade =>
    obtain _ | ⟨⟨hw⟩, _ | _⟩ := h
    rw [← asciiLower_eq_iff] at hw
    simp [readAction, readWord, hw, bind, Except.bind, pure, Except.pure]
  | restrict =>
    obtain _ | ⟨⟨hw⟩, _ | _⟩ := h
    rw [← asciiLower_eq_iff] at hw
    simp [readAction, readWord, hw, bind, Except.bind, pure, Except.pure]
  | setNull =>
    obtain _ | ⟨⟨hw⟩, _ | ⟨⟨hv⟩, _ | _⟩⟩ := h
    rw [← asciiLower_eq_iff] at hw hv
    simp [readAction, readWord, hw, hv, bind, Except.bind, pure, Except.pure]
  | setDefault =>
    obtain _ | ⟨⟨hw⟩, _ | ⟨⟨hv⟩, _ | _⟩⟩ := h
    rw [← asciiLower_eq_iff] at hw hv
    simp [readAction, readWord, hw, hv, bind, Except.bind, pure, Except.pure]
  | noAction =>
    obtain _ | ⟨⟨hw⟩, _ | ⟨⟨hv⟩, _ | _⟩⟩ := h
    rw [← asciiLower_eq_iff] at hw hv
    simp [readAction, readWord, readKeyword, hw, hv, bind, Except.bind, pure, Except.pure]

/-- What is read as an action is its keywords. -/
theorem written_of_readAction (h : readAction tokens = .ok (action, rest)) :
    ∃ used, tokens = used ++ rest ∧ List.Forall₂ Token.Says action.keywords used := by
  obtain ⟨⟨word, rest₁⟩, hword, hread⟩ := bind_eq_ok.mp h
  obtain ⟨token, rfl, hsays⟩ := says_of_readWord hword
  dsimp only at hread
  split at hread
  next =>
    cases hread
    exact ⟨[token], rfl, .cons hsays .nil⟩
  next =>
    cases hread
    exact ⟨[token], rfl, .cons hsays .nil⟩
  next =>
    obtain ⟨⟨value, rest₂⟩, hvalue, hsecond⟩ := bind_eq_ok.mp hread
    obtain ⟨token', rfl, hsays'⟩ := says_of_readWord hvalue
    dsimp only at hsecond
    split at hsecond
    next =>
      cases hsecond
      exact ⟨[token, token'], rfl, .cons hsays (.cons hsays' .nil)⟩
    next =>
      cases hsecond
      exact ⟨[token, token'], rfl, .cons hsays (.cons hsays' .nil)⟩
    next => cases hsecond
  next =>
    obtain ⟨rest₂, hkeyword, hsecond⟩ := bind_eq_ok.mp hread
    obtain ⟨token', rfl, hsays'⟩ := says_of_readKeyword hkeyword
    cases hsecond
    exact ⟨[token, token'], rfl, .cons hsays (.cons hsays' .nil)⟩
  next => cases hread

/-- The token opens a clause. No word that opens an action does. -/
def Opens : Token → Prop
  | .arrow => True
  | .word w => asciiLower w ∈ ["primary", "not", "null", "unique", "enum", "default"]
  | _ => False

/-- The tokens are none, or they open with a clause. -/
def Follows (tokens : List Token) : Prop :=
  ∀ token, tokens.head? = some token → Opens token

/-- In front of a clause, or at the end, there is no action. -/
theorem readOnDelete_none (h : Follows rest) : readOnDelete rest = .ok (none, rest) := by
  cases rest with
  | nil => rfl
  | cons token rest =>
    cases token with
    | word w =>
      have hw : asciiLower w ∈ ["primary", "not", "null", "unique", "enum", "default"] := h _ rfl
      simp only [List.mem_cons, List.not_mem_nil, or_false] at hw
      rcases hw with hw | hw | hw | hw | hw | hw <;> simp [readOnDelete, hw]
    | text s => rfl
    | group s => rfl
    | arrow => rfl

theorem readOnDelete_action (h : List.Forall₂ Token.Says action.keywords used) :
    readOnDelete (used ++ rest) = .ok (some action, rest) := by
  have hread := readAction_written h rest
  obtain ⟨w, used', rfl, hw⟩ : ∃ w used', used = .word w :: used'
      ∧ asciiLower w ∈ ["cascade", "restrict", "set", "no"] := by
    cases action <;> obtain _ | ⟨⟨hw⟩, _⟩ := h <;>
      exact ⟨_, _, rfl, by simp [asciiLower_eq_iff.mpr hw]⟩
  rw [List.cons_append] at hread ⊢
  simp only [List.mem_cons, List.not_mem_nil, or_false] at hw
  rcases hw with hw | hw | hw | hw <;>
    simp only [readOnDelete, hw, hread, bind, Except.bind, pure, Except.pure]

/-- An action is read with the words in front of it, and none where there is none. -/
theorem readOnDelete_written (h : DeleteAction.Written onDelete used) (hrest : Follows rest) :
    readOnDelete (used ++ rest) = .ok (onDelete, rest) := by
  cases h with
  | none => exact readOnDelete_none hrest
  | @some opening action _ hopening h =>
    simp only [DeleteAction.openings, List.mem_cons, List.not_mem_nil, or_false] at hopening
    rcases hopening with rfl | rfl | rfl
    · exact readOnDelete_action h
    · obtain _ | ⟨⟨hon⟩, _ | ⟨hdelete, h⟩⟩ := h
      rw [← asciiLower_eq_iff] at hon
      simp only [List.cons_append, readOnDelete, hon, readKeyword_says hdelete,
        readAction_written h rest, bind, Except.bind, pure, Except.pure]
    · obtain _ | ⟨⟨hon⟩, h⟩ := h
      rw [← asciiLower_eq_iff] at hon
      simp only [List.cons_append, readOnDelete, hon, readAction_written h rest, bind,
        Except.bind, pure, Except.pure]

/-- What is taken for an action is one. -/
theorem written_of_readOnDelete (h : readOnDelete tokens = .ok (onDelete, rest)) :
    ∃ used, tokens = used ++ rest ∧ DeleteAction.Written onDelete used := by
  have behind : ∀ {opening : List String} {front tokens : List Token},
      opening ∈ DeleteAction.openings → List.Forall₂ Token.Says opening front →
      (readAction tokens >>= fun read => pure (some read.1, read.2)) = .ok (onDelete, rest) →
      ∃ used, front ++ tokens = used ++ rest ∧ DeleteAction.Written onDelete used := by
    intro opening front tokens hopening hfront hread
    obtain ⟨⟨action, rest'⟩, haction, hpair⟩ := bind_eq_ok.mp hread
    cases hpair
    obtain ⟨used, rfl, hused⟩ := written_of_readAction haction
    exact ⟨front ++ used, (List.append_assoc ..).symm,
      .some hopening (List.rel_append hfront hused)⟩
  unfold readOnDelete at h
  split at h
  next w rest' =>
    split at h
    next hon =>
      obtain ⟨rest₂, hkeyword, hread⟩ := bind_eq_ok.mp h
      obtain ⟨token, rfl, hsays⟩ := says_of_readKeyword hkeyword
      exact behind (show ["on", "delete"] ∈ _ by decide)
        (.cons (.word (asciiLower_eq_iff.mp hon)) (.cons hsays .nil)) hread
    next hon =>
      exact behind (show ["ondelete"] ∈ _ by decide)
        (.cons (.word (asciiLower_eq_iff.mp hon)) .nil) h
    next => exact behind (show [] ∈ _ by decide) .nil h
    next => exact behind (show [] ∈ _ by decide) .nil h
    next => exact behind (show [] ∈ _ by decide) .nil h
    next => exact behind (show [] ∈ _ by decide) .nil h
    next =>
      cases h
      exact ⟨[], rfl, .none⟩
  next =>
    cases h
    exact ⟨[], rfl, .none⟩

theorem splitTarget?_point (hpoint : '.' ∉ table.toList) (htable : table ≠ "")
    (hcolumn : column ≠ "") : splitTarget? (table ++ "." ++ column) = some (table, column) := by
  have hchars : (table ++ "." ++ column).toList = table.toList ++ '.' :: column.toList := by simp
  have hempty : (table.toList.isEmpty || column.toList.isEmpty) = false := by
    simp [htable, hcolumn]
  rw [splitTarget?, hchars, splitOnce?_append hpoint]
  simp [hempty]

theorem point_of_splitTarget? (h : splitTarget? target = some (table, column)) :
    '.' ∉ table.toList ∧ table ≠ "" ∧ column ≠ "" ∧ target = table ++ "." ++ column := by
  unfold splitTarget? at h
  split at h
  next front back hsplit =>
    split at h
    next => cases h
    next hempty =>
      cases h
      obtain ⟨hpoint, htarget⟩ := append_of_splitOnce? hsplit
      simp only [Bool.or_eq_true, List.isEmpty_iff, not_or] at hempty
      refine ⟨by simpa using hpoint, by simpa using hempty.1, by simpa using hempty.2, ?_⟩
      rw [← String.toList_inj, htarget]
      simp
  next => cases h

/-- Every default is read from its token. -/
theorem readDefault_written (h : value.Written token) (rest : List Token) :
    readDefault (token :: rest) = .ok (value, rest) := by
  cases h with
  | word h hw =>
    rw [← asciiLower_eq_iff] at hw
    simp only [DefaultValue.words, List.mem_cons, List.not_mem_nil, or_false, Prod.mk.injEq] at h
    rcases h with ⟨rfl, rfl⟩ | ⟨rfl, rfl⟩ | ⟨rfl, rfl⟩ | ⟨rfl, rfl⟩ <;> simp [readDefault, hw]
  | int hword h =>
    rw [DefaultValue.isOther_iff] at hword
    simp only [DefaultValue.words, List.map_cons, List.map_nil, List.mem_cons, List.not_mem_nil,
      or_false, not_or] at hword
    simp [readDefault, hword, readNumber?, readWord?_eq_some_iff.mpr h]
  | float hword hint h hnearest hfinite =>
    have hnone := Option.eq_none_iff_forall_ne_some.mpr fun n =>
      mt readWord?_eq_some_iff.mp (hint n)
    have hread := (Binary64.read?_eq_some_iff hfinite).mpr ⟨_, _, _, h, hnearest⟩
    rw [DefaultValue.isOther_iff] at hword
    simp only [DefaultValue.words, List.map_cons, List.map_nil, List.mem_cons, List.not_mem_nil,
      or_false, not_or] at hword
    simp [readDefault, hword, readNumber?, hnone, hread, hfinite, Option.filter_some]
  | text s => rfl
  | raw sql => rfl

/-- What is read as a number is one, an integer before all. -/
theorem written_of_readNumber? {literal : Literal} (hword : DefaultValue.IsOther word)
    (h : readNumber? word = some literal) : (DefaultValue.value literal).Written (.word word) := by
  unfold readNumber? at h
  split at h
  next n hint =>
    cases h
    exact .int hword (readWord?_eq_some_iff.mp hint)
  next hint =>
    obtain ⟨x, hfinite, rfl⟩ := Option.map_eq_some_iff.mp h
    obtain ⟨hx, hfinite⟩ := Option.filter_eq_some_iff.mp hfinite
    obtain ⟨negative, digits, exponent, hspelled, hnearest⟩ :=
      (Binary64.read?_eq_some_iff hfinite).mp hx
    refine .float hword (fun n hn => ?_) hspelled hnearest hfinite
    rw [readWord?_eq_some_iff.mpr hn] at hint
    cases hint

theorem written_of_readDefault (h : readDefault tokens = .ok (value, rest)) :
    ∃ token, tokens = token :: rest ∧ value.Written token := by
  match tokens with
  | .group sql :: _ =>
    cases h
    exact ⟨.group sql, rfl, .raw sql⟩
  | .text s :: _ =>
    cases h
    exact ⟨.text s, rfl, .text s⟩
  | .word w :: _ =>
    refine ⟨.word w, ?_⟩
    simp only [readDefault] at h
    split at h
    next hw => cases h; exact ⟨rfl, .word (by simp [DefaultValue.words]) (asciiLower_eq_iff.mp hw)⟩
    next hw => cases h; exact ⟨rfl, .word (by simp [DefaultValue.words]) (asciiLower_eq_iff.mp hw)⟩
    next hw => cases h; exact ⟨rfl, .word (by simp [DefaultValue.words]) (asciiLower_eq_iff.mp hw)⟩
    next hw => cases h; exact ⟨rfl, .word (by simp [DefaultValue.words]) (asciiLower_eq_iff.mp hw)⟩
    next hnow hnull htrue hfalse =>
      split at h
      next literal hnumber =>
        cases h
        have hother : DefaultValue.IsOther w := by
          rw [DefaultValue.isOther_iff]
          simp_all [DefaultValue.words]
        exact ⟨rfl, written_of_readNumber? hother hnumber⟩
      next => cases h
  | .arrow :: _ | [] => cases h

/-- Every clause is read from its tokens, whatever clause follows. -/
theorem read_written (h : Written clause tokens) :
    ∃ token used, tokens = token :: used ∧ Opens token
      ∧ ∀ rest, Follows rest → read token (used ++ rest) = .ok (clause, rest) := by
  cases h with
  | primaryKey h =>
    obtain _ | ⟨⟨hw⟩, _ | ⟨hkey, _ | _⟩⟩ := h
    rw [← asciiLower_eq_iff] at hw
    exact ⟨_, _, rfl, by simp [Opens, hw],
      fun rest _ => by simp [read, readWorded, hw, readKeyword_says hkey, Except.map]⟩
  | notNull h =>
    obtain _ | ⟨⟨hw⟩, _ | ⟨hnull, _ | _⟩⟩ := h
    rw [← asciiLower_eq_iff] at hw
    exact ⟨_, _, rfl, by simp [Opens, hw],
      fun rest _ => by simp [read, readWorded, hw, readKeyword_says hnull, Except.map]⟩
  | nullable h =>
    obtain _ | ⟨⟨hw⟩, _ | _⟩ := h
    rw [← asciiLower_eq_iff] at hw
    exact ⟨_, _, rfl, by simp [Opens, hw], fun rest _ => by simp [read, readWorded, hw]⟩
  | unique h =>
    obtain _ | ⟨⟨hw⟩, _ | _⟩ := h
    rw [← asciiLower_eq_iff] at hw
    exact ⟨_, _, rfl, by simp [Opens, hw], fun rest _ => by simp [read, readWorded, hw]⟩
  | enumValues h hvalues =>
    obtain ⟨hw⟩ := h
    rw [← asciiLower_eq_iff] at hw
    exact ⟨_, _, rfl, by simp [Opens, hw],
      fun rest _ => by simp [read, readWorded, hw, splitValues_eq hvalues]⟩
  | default h hvalue =>
    obtain ⟨hw⟩ := h
    rw [← asciiLower_eq_iff] at hw
    exact ⟨_, _, rfl, by simp [Opens, hw],
      fun rest _ => by simp [read, readWorded, hw, readDefault_written hvalue, Except.map]⟩
  | references hpoint htable hcolumn h =>
    refine ⟨.arrow, _, rfl, trivial, fun rest hrest => ?_⟩
    simp only [read, readReference, List.cons_append, splitTarget?_point hpoint htable hcolumn,
      readOnDelete_written h hrest, bind, Except.bind, pure, Except.pure, Except.map]

theorem written_of_readReference {reference : Reference}
    (h : readReference tokens = .ok (reference, rest)) :
    ∃ used, tokens = used ++ rest ∧ Written (.references reference) (.arrow :: used) := by
  match tokens with
  | .word target :: tokens =>
    simp only [readReference] at h
    split at h
    next table column htarget =>
      obtain ⟨⟨onDelete, rest'⟩, haction, hpair⟩ := bind_eq_ok.mp h
      cases hpair
      obtain ⟨hpoint, htable, hcolumn, rfl⟩ := point_of_splitTarget? htarget
      obtain ⟨used, rfl, hused⟩ := written_of_readOnDelete haction
      exact ⟨_, rfl, .references hpoint htable hcolumn hused⟩
    next => cases h
  | .text _ :: _ | .group _ :: _ | .arrow :: _ | [] => cases h

/-- What is read as a clause is one, and no token of it is left over or used by another. -/
theorem written_of_read (h : read token tokens = .ok (clause, rest)) :
    ∃ used, tokens = used ++ rest ∧ Written clause (token :: used) := by
  cases token with
  | arrow =>
    obtain ⟨⟨reference, rest'⟩, hread, hpair⟩ := map_eq_ok.mp h
    cases hpair
    exact written_of_readReference hread
  | word w =>
    simp only [read, readWorded] at h
    split at h
    next hw =>
      obtain ⟨rest', hread, hpair⟩ := map_eq_ok.mp h
      cases hpair
      obtain ⟨key, rfl, hkey⟩ := says_of_readKeyword hread
      exact ⟨[key], rfl, .primaryKey (.cons (.word (asciiLower_eq_iff.mp hw)) (.cons hkey .nil))⟩
    next hw =>
      obtain ⟨rest', hread, hpair⟩ := map_eq_ok.mp h
      cases hpair
      obtain ⟨null, rfl, hnull⟩ := says_of_readKeyword hread
      exact ⟨[null], rfl, .notNull (.cons (.word (asciiLower_eq_iff.mp hw)) (.cons hnull .nil))⟩
    next hw =>
      cases h
      exact ⟨[], rfl, .nullable (.cons (.word (asciiLower_eq_iff.mp hw)) .nil)⟩
    next hw =>
      cases h
      exact ⟨[], rfl, .unique (.cons (.word (asciiLower_eq_iff.mp hw)) .nil)⟩
    next hw =>
      split at h
      next group _ =>
        cases h
        obtain ⟨values, hvalues⟩ := exists_enumerates group.toList
        rw [splitValues_eq hvalues]
        exact ⟨[.group group], rfl, .enumValues (.word (asciiLower_eq_iff.mp hw)) hvalues⟩
      next => cases h
      next => cases h
    next hw =>
      obtain ⟨⟨value, rest'⟩, hread, hpair⟩ := map_eq_ok.mp h
      cases hpair
      obtain ⟨token, rfl, hvalue⟩ := written_of_readDefault hread
      exact ⟨[token], rfl, .default (.word (asciiLower_eq_iff.mp hw)) hvalue⟩
    next => cases h
  | text s => cases h
  | group s => cases h

end Clause

namespace Column

variable {clauses : List Clause} {parts : List (List Token)} {tokens : List Token}
  {column column' : Column}

theorem applyClauses_cons {token : Token} {tokens rest : List Token} {clause : Clause}
    (h : Clause.read token tokens = .ok (clause, rest)) :
    applyClauses column (token :: tokens) = applyClauses (clause.apply column) rest := by
  rw [applyClauses]
  split
  next hread => rw [h] at hread; cases hread
  next hread =>
    rw [h] at hread
    cases hread
    rfl

theorem follows_written (h : List.Forall₂ Clause.Written clauses parts) :
    Clause.Follows parts.flatten := by
  intro first hfirst
  cases h with
  | nil => cases hfirst
  | cons hclause _ =>
    obtain ⟨token, used, rfl, hopens, -⟩ := Clause.read_written hclause
    cases Option.some.inj hfirst
    exact hopens

/-- The clauses of the tokens are applied in the order in which they stand. -/
theorem applyClauses_written (h : List.Forall₂ Clause.Written clauses parts) :
    applyClauses column parts.flatten
      = .ok (clauses.foldl (fun column clause => clause.apply column) column) := by
  induction h generalizing column with
  | nil =>
    rw [List.flatten_nil, applyClauses]
    rfl
  | @cons clause part clauses parts hclause hrest ih =>
    -- What is left opens with a clause, so a reference in front of it takes no action from it.
    obtain ⟨token, used, rfl, -, hread⟩ := Clause.read_written hclause
    rw [List.flatten_cons, List.cons_append,
      applyClauses_cons (hread parts.flatten (follows_written hrest)), ih, List.foldl_cons]

/-- Tokens that are applied are those of clauses, one clause behind the other. -/
theorem written_of_applyClauses (h : applyClauses column tokens = .ok column') :
    ∃ clauses parts, tokens = List.flatten parts ∧ List.Forall₂ Clause.Written clauses parts
      ∧ column' = clauses.foldl (fun column clause => clause.apply column) column := by
  fun_induction applyClauses column tokens with
  | case1 column =>
    cases h
    exact ⟨[], [], rfl, .nil, rfl⟩
  | case2 => cases h
  | case3 column token tokens clause rest hread _ ih =>
    obtain ⟨used, rfl, hclause⟩ := Clause.written_of_read hread
    obtain ⟨clauses, parts, rfl, hclauses, rfl⟩ := ih h
    exact ⟨clause :: clauses, (token :: used) :: parts, rfl, .cons hclause hclauses, rfl⟩

end Column

end Tabularium
