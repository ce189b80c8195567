import Tabularium.Proofs.Json.NumberText
import Tabularium.Proofs.Json.TextRoundTrip

namespace Tabularium

/-- The number that the text of a number in a document is read as. -/
def Binary64.readBack (x : Binary64) : Binary64 :=
  match Draft.readNumber (x.chars .document) with
  | some (.float y, _) => y
  | _ => x

namespace Json

mutual

/-- What the text of a document is read as. -/
def reread : Json → Draft
  | .null => .null
  | .bool b => .bool b
  | .int n => .int n
  | .float x => .float x.readBack
  | .text s => .text s
  | .list items => .list false (rereadItems items) true
  | .record entries => .record false (rereadEntries entries) true
termination_by structural j => j

/-- What the texts of documents are read as. -/
def rereadItems : List Json → List Draft
  | [] => []
  | j :: js => reread j :: rereadItems js
termination_by structural js => js

/-- What the texts of entries are read as. -/
def rereadEntries : List (String × Json) → List (Option String × Draft)
  | [] => []
  | (key, j) :: entries => (some key, reread j) :: rereadEntries entries
termination_by structural entries => entries

end

/-- The numbers of a document fit where they are read, and at this level of nesting it is not too
deep. -/
inductive Readable : Nat → Json → Prop where
  | null (level : Nat) : Readable level .null
  | bool (level : Nat) (b : Bool) : Readable level (.bool b)
  | int (level : Nat) (n : Int) (low : -(2 ^ 63) ≤ n) (high : n < 2 ^ 64) : Readable level (.int n)
  | float (level : Nat) (x : Binary64) (finite : x.isFinite = true) : Readable level (.float x)
  | text (level : Nat) (s : String) : Readable level (.text s)
  | list (level : Nat) (items : List Json) (shallow : level < Draft.depthLimit)
    (readable : ∀ j ∈ items, Readable (level + 1) j) : Readable level (.list items)
  | record (level : Nat) (entries : List (String × Json)) (shallow : level < Draft.depthLimit)
    (readable : ∀ e ∈ entries, Readable (level + 1) e.2) : Readable level (.record entries)

end Json

namespace Draft

open Json

variable {cs rest : List Char} {fuel level depth : Nat}

theorem skipBlanks_space (cs : List Char) : skipBlanks (' ' :: cs) = skipBlanks cs := rfl

theorem skipBlanks_lineBreak (depth : Nat) (cs : List Char) :
    skipBlanks (lineBreak depth ++ cs) = skipBlanks cs := by
  have hspaces : ∀ n, skipBlanks (List.replicate n ' ' ++ cs) = skipBlanks cs := by
    intro n
    induction n with
    | zero => rfl
    | succ n ih => exact ih
  exact hspaces (2 * depth)

theorem readValue_congr {ds : List Char} (h : skipBlanks cs = skipBlanks ds) :
    readValue fuel level cs = readValue fuel level ds := by
  cases fuel with
  | zero => rfl
  | succ fuel => rw [readValue, h, readValue]

theorem readItems_congr {ds : List Char} (h : skipBlanks cs = skipBlanks ds) :
    readItems fuel level cs = readItems fuel level ds := by
  cases fuel with
  | zero => rfl
  | succ fuel => rw [readItems, readValue_congr h, readItems]

theorem readMembers_congr {ds : List Char} (h : skipBlanks cs = skipBlanks ds) :
    readMembers fuel level cs = readMembers fuel level ds := by
  cases fuel with
  | zero => rfl
  | succ fuel => rw [readMembers, h, readMembers]

/-- A text that starts with neither a blank nor the end of a list. -/
def Starts (cs : List Char) : Prop :=
  ∃ c tail, cs = c :: tail ∧ c ≠ ' ' ∧ c ≠ '\t' ∧ c ≠ '\n' ∧ c ≠ '\r' ∧ c ≠ ']'

theorem Starts.append (h : Starts cs) (rest : List Char) : Starts (cs ++ rest) := by
  obtain ⟨c, tail, rfl, hc⟩ := h
  exact ⟨c, tail ++ rest, rfl, hc⟩

theorem Starts.skipBlanks (h : Starts cs) (rest : List Char) :
    skipBlanks (cs ++ rest) = cs ++ rest := by
  obtain ⟨c, tail, rfl, h₁, h₂, h₃, h₄, -⟩ := h
  rw [List.cons_append, Draft.skipBlanks, List.dropWhile_cons_of_neg (by simp [h₁, h₂, h₃, h₄])]

/-- A text is read as a value wherever it stands at a level of nesting. -/
structure Reads (level : Nat) (text : List Char) (d : Draft) : Prop where
  starts : Starts text
  reads : ∀ fuel rest, text.length ≤ fuel → Ends rest →
    readValue fuel level (text ++ rest) = (d, some rest)

/-- A text that the first step of reading takes as a whole. -/
theorem Reads.of_step {text : List Char} {d : Draft} (hs : Starts text)
    (h : ∀ fuel rest, Ends rest → readValue (fuel + 1) level (text ++ rest) = (d, some rest)) :
    Reads level text d := by
  refine ⟨hs, fun fuel rest hf hr => ?_⟩
  obtain ⟨c, tail, rfl, -⟩ := hs
  cases fuel with
  | zero => simp at hf
  | succ fuel => exact h fuel rest hr

theorem reads_null : Reads level ['n', 'u', 'l', 'l'] .null := by
  have hs : Starts ['n', 'u', 'l', 'l'] := ⟨'n', _, rfl, by decide⟩
  refine .of_step hs fun fuel rest _ => ?_
  rw [readValue, hs.skipBlanks]
  rfl

theorem reads_true : Reads level ['t', 'r', 'u', 'e'] (.bool true) := by
  have hs : Starts ['t', 'r', 'u', 'e'] := ⟨'t', _, rfl, by decide⟩
  refine .of_step hs fun fuel rest _ => ?_
  rw [readValue, hs.skipBlanks]
  rfl

theorem reads_false : Reads level ['f', 'a', 'l', 's', 'e'] (.bool false) := by
  have hs : Starts ['f', 'a', 'l', 's', 'e'] := ⟨'f', _, rfl, by decide⟩
  refine .of_step hs fun fuel rest _ => ?_
  rw [readValue, hs.skipBlanks]
  rfl

theorem quotedChars_starts (s : String) : Starts (quotedChars s) :=
  ⟨'\x22', _, rfl, by decide⟩

theorem reads_text (s : String) : Reads level (quotedChars s) (.text s) := by
  refine .of_step (quotedChars_starts s) fun fuel rest _ => ?_
  have htext : quotedChars s ++ rest
      = '\x22' :: (s.toList.flatMap escapeChar ++ '\x22' :: rest) := by
    simp [quotedChars]
  rw [readValue, (quotedChars_starts s).skipBlanks, htext]
  simp only [readText_quotedChars]

theorem reads_number {text : List Char} {d : Draft} {c : Char} {tail : List Char}
    (ht : text = c :: tail) (hc : c = '-' ∨ c.isDigit = true)
    (h : ∀ rest, Ends rest → readNumber (text ++ rest) = some (d, rest)) :
    Reads level text d := by
  have hne : ∀ k, k.isDigit = false → k ≠ '-' → c ≠ k := by
    rintro k hk hm rfl
    rcases hc with rfl | hc
    · exact hm rfl
    · simp [hk] at hc
  have hs : Starts text := by
    refine ⟨c, tail, ht, ?_, ?_, ?_, ?_, ?_⟩ <;> exact hne _ (by decide) (by decide)
  refine .of_step hs fun fuel rest hr => ?_
  rw [readValue, hs.skipBlanks, ht, List.cons_append]
  split
  next heq => exact absurd (List.cons.inj heq).1 (hne _ (by decide) (by decide))
  next heq => exact absurd (List.cons.inj heq).1 (hne _ (by decide) (by decide))
  next heq => exact absurd (List.cons.inj heq).1 (hne _ (by decide) (by decide))
  next heq => exact absurd (List.cons.inj heq).1 (hne _ (by decide) (by decide))
  next heq => exact absurd (List.cons.inj heq).1 (hne _ (by decide) (by decide))
  next heq => exact absurd (List.cons.inj heq).1 (hne _ (by decide) (by decide))
  next =>
    have hread := h rest hr
    rw [ht, List.cons_append] at hread
    rw [hread]

theorem reads_int {n : Int} (hlow : -(2 ^ 63) ≤ n) (hhigh : n < 2 ^ 64) :
    Reads level (Int.repr n).toList (.int n) := by
  obtain ⟨c, tail, ht, hc⟩ : ∃ c tail, (Int.repr n).toList = c :: tail
      ∧ (c = '-' ∨ c.isDigit = true) := by
    cases n with
    | ofNat m =>
      obtain ⟨hne, hd⟩ := toDigits_isDigits m
      obtain ⟨c, tail, ht⟩ := List.exists_cons_of_ne_nil hne
      exact ⟨c, tail, Nat.toList_repr.trans ht, .inr (hd c (ht ▸ List.mem_cons_self))⟩
    | negSucc m =>
      refine ⟨'-', (Nat.repr (m + 1)).toList, ?_, .inl rfl⟩
      have hrepr : Int.repr (Int.negSucc m) = "-" ++ Nat.repr (m + 1) := rfl
      rw [hrepr, String.toList_append]
      rfl
  exact reads_number ht hc fun rest hr => readNumber_int hlow hhigh hr

theorem readNumber_readBack {x : Binary64} (hf : x.isFinite = true) (hr : Ends rest) :
    readNumber (x.chars .document ++ rest) = some (.float x.readBack, rest) := by
  obtain ⟨y, hy⟩ := readNumber_chars hf
  have hempty := hy [] (by simp [Ends])
  rw [List.append_nil] at hempty
  have hback : x.readBack = y := by
    unfold Binary64.readBack
    rw [hempty]
  rw [hback]
  exact hy rest hr

theorem reads_float {x : Binary64} (hf : x.isFinite = true) :
    Reads level (x.chars .document) (.float x.readBack) := by
  obtain ⟨n, htext, hn⟩ := chars_numeral hf
  obtain ⟨hne, hd⟩ := (shortest_numeral_float false hf hn).1.whole
  obtain ⟨k, ks, hw⟩ := List.exists_cons_of_ne_nil hne
  obtain ⟨c, tail, ht, hc⟩ : ∃ c tail, x.chars .document = c :: tail
      ∧ (c = '-' ∨ c.isDigit = true) := by
    rw [htext]
    split
    · exact ⟨'-', n.chars, rfl, .inl rfl⟩
    · have hk : k.isDigit = true := hd k (hw ▸ List.mem_cons_self)
      refine ⟨k, ks ++ (Numeral.placesChars n.places ++ Numeral.powerChars n.power), ?_, .inr hk⟩
      rw [List.nil_append, Numeral.chars, hw, List.cons_append]
  exact reads_number ht hc fun rest hr => readNumber_readBack hf hr

theorem skipBlanks_cons {c : Char} (h : c ≠ ' ' ∧ c ≠ '\t' ∧ c ≠ '\n' ∧ c ≠ '\r')
    (cs : List Char) : skipBlanks (c :: cs) = c :: cs := by
  rw [skipBlanks, List.dropWhile_cons_of_neg (by simp [h])]

theorem ends_cons {c : Char} (h : c.isDigit = false ∧ c ≠ '.' ∧ c ≠ 'e' ∧ c ≠ 'E')
    (cs : List Char) : Ends (c :: cs) := by
  intro k hk
  cases hk
  exact h

theorem ends_lineBreak (depth : Nat) (cs : List Char) : Ends (lineBreak depth ++ cs) :=
  ends_cons (by decide) _

theorem readItems_last {d : Draft} {after : List Char}
    (h : readValue fuel level cs = (d, some after)) (hs : skipBlanks after = ']' :: rest) :
    readItems (fuel + 1) level cs = ([d], some rest) := by
  rw [readItems, h]
  dsimp only
  rw [hs]
  rfl

theorem readItems_more {d : Draft} {ds : List Draft} {after : List Char}
    (h : readValue fuel level cs = (d, some (',' :: after)))
    (hs : readItems fuel level after = (ds, some rest)) :
    readItems (fuel + 1) level cs = (d :: ds, some rest) := by
  have hcomma : skipBlanks (',' :: after) = ',' :: after := skipBlanks_cons (by decide) after
  rw [readItems, h]
  dsimp only
  rw [hcomma]
  simp only [hs]

theorem readValue_list {ds : List Draft} {after : List Char} (hl : level < depthLimit)
    (hs : skipBlanks cs = '[' :: after) (hstarts : Starts (skipBlanks after))
    (hitems : readItems fuel (level + 1) (skipBlanks after) = (ds, some rest)) :
    readValue (fuel + 1) level cs = (.list false ds true, some rest) := by
  have hdeep : decide (depthLimit ≤ level) = false := decide_eq_false (by omega)
  obtain ⟨c, tail, htail, -, -, -, -, hc⟩ := hstarts
  rw [htail] at hitems
  rw [readValue, hs]
  simp only [htail, hdeep]
  split
  next heq => exact absurd (List.cons.inj heq).1 hc
  next => rw [hitems]; rfl

/-- The items of a list are read one after the other up to its end. -/
theorem readItems_pretty {items : List Json} {item : Json} {outer : Nat}
    (h : ∀ j ∈ item :: items, Reads level (prettyChars depth j) j.reread)
    (hf : (prettyChars depth item).length + (prettyItems depth items).length < fuel) :
    readItems fuel level (prettyChars depth item
        ++ (prettyItems depth items ++ (lineBreak outer ++ ']' :: rest)))
      = ((item :: items).map reread, some rest) := by
  obtain ⟨fuel, rfl⟩ : ∃ k, fuel = k + 1 := ⟨fuel - 1, by omega⟩
  induction items generalizing item fuel with
  | nil =>
    have hread := (h item List.mem_cons_self).reads fuel (lineBreak outer ++ ']' :: rest)
      (by omega) (ends_lineBreak _ _)
    have hclose : skipBlanks (lineBreak outer ++ ']' :: rest) = ']' :: rest := by
      rw [skipBlanks_lineBreak, skipBlanks_cons (by decide)]
    rw [prettyItems, List.nil_append]
    exact readItems_last hread hclose
  | cons next items ih =>
    obtain ⟨more, hmore⟩ : ∃ more, more = prettyChars depth next
        ++ (prettyItems depth items ++ (lineBreak outer ++ ']' :: rest)) := ⟨_, rfl⟩
    have htail : prettyItems depth (next :: items) ++ (lineBreak outer ++ ']' :: rest)
        = ',' :: (lineBreak depth ++ more) := by
      rw [prettyItems, hmore]
      simp only [List.cons_append, List.append_assoc]
    have hlen : (prettyItems depth (next :: items)).length = 1 + (lineBreak depth).length
        + (prettyChars depth next).length + (prettyItems depth items).length := by
      rw [prettyItems]
      simp only [List.cons_append, List.length_cons, List.length_append]
      omega
    have hread := (h item List.mem_cons_self).reads fuel (',' :: (lineBreak depth ++ more))
      (by omega) (ends_cons (by decide) _)
    obtain ⟨fuel, rfl⟩ : ∃ k, fuel = k + 1 := ⟨fuel - 1, by omega⟩
    have hrest := ih (fun j hj => h j (List.mem_cons_of_mem item hj)) fuel (by omega)
    rw [← hmore] at hrest
    rw [htail]
    exact readItems_more hread ((readItems_congr (skipBlanks_lineBreak depth more)).trans hrest)

theorem reads_list {items : List Json} (hl : level < depthLimit)
    (h : ∀ j ∈ items, Reads (level + 1) (prettyChars (depth + 1) j) j.reread) :
    Reads level (prettyChars depth (.list items)) (.list false (items.map reread) true) := by
  cases items with
  | nil =>
    have hdeep : decide (depthLimit ≤ level) = false := decide_eq_false (by omega)
    have hs : Starts ['[', ']'] := ⟨'[', _, rfl, by decide⟩
    rw [prettyChars]
    refine .of_step hs fun fuel rest _ => ?_
    rw [readValue, hs.skipBlanks]
    simp only [List.cons_append, List.nil_append, hdeep]
    rfl
  | cons item items =>
    obtain ⟨more, hmore⟩ : ∃ more : List Char → List Char, more = fun rest =>
        prettyChars (depth + 1) item
          ++ (prettyItems (depth + 1) items ++ (lineBreak depth ++ ']' :: rest)) := ⟨_, rfl⟩
    have htext : ∀ rest, prettyChars depth (.list (item :: items)) ++ rest
        = '[' :: (lineBreak (depth + 1) ++ more rest) := by
      intro rest
      rw [prettyChars, hmore]
      simp only [List.cons_append, List.append_assoc, List.nil_append]
    have hs : Starts (prettyChars depth (.list (item :: items))) := by
      refine ⟨'[', lineBreak (depth + 1) ++ more [], ?_, by decide⟩
      rw [← htext, List.append_nil]
    refine ⟨hs, fun fuel rest hf hr => ?_⟩
    have hlen := congrArg List.length (htext [])
    rw [hmore] at hlen
    simp only [List.append_nil, List.length_cons, List.length_append] at hlen
    have hfirst : skipBlanks (lineBreak (depth + 1) ++ more rest) = more rest := by
      rw [skipBlanks_lineBreak, hmore, (h item List.mem_cons_self).starts.skipBlanks]
    have hstarts : Starts (more rest) := by
      rw [hmore]
      exact (h item List.mem_cons_self).starts.append _
    obtain ⟨fuel, rfl⟩ : ∃ k, fuel = k + 1 := ⟨fuel - 1, by omega⟩
    refine readValue_list hl ((hs.skipBlanks rest).trans (htext rest)) ?_ ?_
    · rw [hfirst]
      exact hstarts
    · rw [hfirst, hmore]
      exact readItems_pretty h (by omega)

theorem rereadItems_eq (items : List Json) : rereadItems items = items.map reread := by
  induction items with
  | nil => rfl
  | cons j js ih => rw [rereadItems, ih, List.map_cons]

theorem readMembers_last {key : String} {d : Draft} {after value : List Char}
    (hkey : skipBlanks cs = quotedChars key ++ ':' :: value)
    (h : readValue fuel level value = (d, some after)) (hs : skipBlanks after = '\x7d' :: rest) :
    readMembers (fuel + 1) level cs = ([(some key, d)], some rest) := by
  have htext : quotedChars key ++ ':' :: value
      = '\x22' :: (key.toList.flatMap escapeChar ++ '\x22' :: ':' :: value) := by
    simp [quotedChars]
  have hcolon : skipBlanks (':' :: value) = ':' :: value := skipBlanks_cons (by decide) value
  rw [readMembers, hkey, htext]
  simp only [readText_quotedChars, hcolon, h, hs]

theorem readMembers_more {key : String} {d : Draft} {ds : List (Option String × Draft)}
    {after value : List Char} (hkey : skipBlanks cs = quotedChars key ++ ':' :: value)
    (h : readValue fuel level value = (d, some (',' :: after)))
    (hs : readMembers fuel level after = (ds, some rest)) :
    readMembers (fuel + 1) level cs = ((some key, d) :: ds, some rest) := by
  have htext : quotedChars key ++ ':' :: value
      = '\x22' :: (key.toList.flatMap escapeChar ++ '\x22' :: ':' :: value) := by
    simp [quotedChars]
  have hcolon : skipBlanks (':' :: value) = ':' :: value := skipBlanks_cons (by decide) value
  have hcomma : skipBlanks (',' :: after) = ',' :: after := skipBlanks_cons (by decide) after
  rw [readMembers, hkey, htext]
  simp only [readText_quotedChars, hcolon, h, hcomma, hs]

theorem readValue_record {ds : List (Option String × Draft)} {after : List Char} {key : String}
    {tail : List Char} (hl : level < depthLimit) (hs : skipBlanks cs = '\x7b' :: after)
    (hkey : skipBlanks after = quotedChars key ++ tail)
    (hentries : readMembers fuel (level + 1) (quotedChars key ++ tail) = (ds, some rest)) :
    readValue (fuel + 1) level cs = (.record false ds true, some rest) := by
  have hdeep : decide (depthLimit ≤ level) = false := decide_eq_false (by omega)
  rw [readValue, hs]
  simp only [hkey, hdeep]
  split
  next heq => exact absurd (List.cons.inj heq).1 (by decide)
  next => rw [hentries]; rfl

/-- The entries of a record are read one after the other up to its end. -/
theorem readMembers_pretty {entries : List (String × Json)} {key : String} {value : Json}
    {outer : Nat}
    (h : ∀ e ∈ (key, value) :: entries, Reads level (prettyChars depth e.2) e.2.reread)
    (hf : (prettyChars depth value).length + (prettyEntries depth entries).length < fuel) :
    readMembers fuel level (quotedChars key ++ (':' :: ' ' :: (prettyChars depth value
        ++ (prettyEntries depth entries ++ (lineBreak outer ++ '\x7d' :: rest)))))
      = (((key, value) :: entries).map fun e => (some e.1, e.2.reread), some rest) := by
  obtain ⟨fuel, rfl⟩ : ∃ k, fuel = k + 1 := ⟨fuel - 1, by omega⟩
  induction entries generalizing key value fuel with
  | nil =>
    have hread := (h _ List.mem_cons_self).reads fuel (lineBreak outer ++ '\x7d' :: rest)
      (by dsimp only; omega) (ends_lineBreak _ _)
    have hclose : skipBlanks (lineBreak outer ++ '\x7d' :: rest) = '\x7d' :: rest := by
      rw [skipBlanks_lineBreak, skipBlanks_cons (by decide)]
    rw [prettyEntries, List.nil_append]
    refine readMembers_last ((quotedChars_starts key).skipBlanks _) ?_ hclose
    rw [readValue_congr (skipBlanks_space _)]
    exact hread
  | cons next entries ih =>
    obtain ⟨key', value'⟩ := next
    obtain ⟨more, hmore⟩ : ∃ more, more = quotedChars key' ++ (':' :: ' ' ::
        (prettyChars depth value'
          ++ (prettyEntries depth entries ++ (lineBreak outer ++ '\x7d' :: rest)))) := ⟨_, rfl⟩
    have htail : prettyEntries depth ((key', value') :: entries)
        ++ (lineBreak outer ++ '\x7d' :: rest) = ',' :: (lineBreak depth ++ more) := by
      rw [prettyEntries, hmore]
      simp only [List.cons_append, List.append_assoc]
    have hlen : (prettyChars depth value').length + (prettyEntries depth entries).length + 1
        < (prettyEntries depth ((key', value') :: entries)).length := by
      rw [prettyEntries]
      simp only [List.cons_append, List.length_cons, List.length_append]
      omega
    have hread := (h _ List.mem_cons_self).reads fuel (',' :: (lineBreak depth ++ more))
      (by dsimp only; omega) (ends_cons (by decide) _)
    obtain ⟨fuel, rfl⟩ : ∃ k, fuel = k + 1 := ⟨fuel - 1, by omega⟩
    have hrest := ih (fun e he => h e (List.mem_cons_of_mem _ he)) fuel (by omega)
    rw [← hmore] at hrest
    rw [htail]
    refine readMembers_more ((quotedChars_starts key).skipBlanks _) ?_
      ((readMembers_congr (skipBlanks_lineBreak depth more)).trans hrest)
    rw [readValue_congr (skipBlanks_space _)]
    exact hread

theorem reads_record {entries : List (String × Json)} (hl : level < depthLimit)
    (h : ∀ e ∈ entries, Reads (level + 1) (prettyChars (depth + 1) e.2) e.2.reread) :
    Reads level (prettyChars depth (.record entries))
      (.record false (entries.map fun e => (some e.1, e.2.reread)) true) := by
  cases entries with
  | nil =>
    have hdeep : decide (depthLimit ≤ level) = false := decide_eq_false (by omega)
    have hs : Starts ['\x7b', '\x7d'] := ⟨'\x7b', _, rfl, by decide⟩
    rw [prettyChars]
    refine .of_step hs fun fuel rest _ => ?_
    rw [readValue, hs.skipBlanks]
    simp only [List.cons_append, List.nil_append, hdeep]
    rfl
  | cons entry entries =>
    obtain ⟨key, value⟩ := entry
    obtain ⟨more, hmore⟩ : ∃ more : List Char → List Char, more = fun rest =>
        quotedChars key ++ (':' :: ' ' :: (prettyChars (depth + 1) value
          ++ (prettyEntries (depth + 1) entries ++ (lineBreak depth ++ '\x7d' :: rest)))) :=
      ⟨_, rfl⟩
    have htext : ∀ rest, prettyChars depth (.record ((key, value) :: entries)) ++ rest
        = '\x7b' :: (lineBreak (depth + 1) ++ more rest) := by
      intro rest
      rw [prettyChars, hmore]
      simp only [List.cons_append, List.append_assoc, List.nil_append]
    have hs : Starts (prettyChars depth (.record ((key, value) :: entries))) := by
      refine ⟨'\x7b', lineBreak (depth + 1) ++ more [], ?_, by decide⟩
      rw [← htext, List.append_nil]
    refine ⟨hs, fun fuel rest hf hr => ?_⟩
    have hlen := congrArg List.length (htext [])
    rw [hmore] at hlen
    simp only [List.append_nil, List.length_cons, List.length_append] at hlen
    obtain ⟨fuel, rfl⟩ : ∃ k, fuel = k + 1 := ⟨fuel - 1, by omega⟩
    have hentries := @readMembers_pretty rest fuel _ _ entries key value depth h (by omega)
    refine readValue_record hl ((hs.skipBlanks rest).trans (htext rest)) ?_ hentries
    rw [skipBlanks_lineBreak, hmore, (quotedChars_starts key).skipBlanks]

theorem rereadEntries_eq (entries : List (String × Json)) :
    rereadEntries entries = entries.map fun e => (some e.1, e.2.reread) := by
  induction entries with
  | nil => rfl
  | cons e entries ih => rw [rereadEntries, ih, List.map_cons]

theorem rereadEntries_append (first last : List (String × Json)) :
    rereadEntries (first ++ last) = rereadEntries first ++ rereadEntries last := by
  rw [rereadEntries_eq, rereadEntries_eq, rereadEntries_eq, List.map_append]

/-- Every document that is not too deep, with numbers that fit, is read from its text. -/
theorem reads_pretty {j : Json} (h : Readable level j) : ∀ depth,
    Reads level (prettyChars depth j) j.reread := by
  induction h with
  | null level => exact fun _ => reads_null
  | bool level b =>
    cases b
    · exact fun _ => reads_false
    · exact fun _ => reads_true
  | int level n low high => exact fun _ => reads_int low high
  | float level x finite =>
    intro depth
    have hchars : prettyChars depth (.float x) = x.chars .document := by
      rw [prettyChars]
      · rw [scalarChars, if_pos finite]
      all_goals simp
    rw [hchars]
    exact reads_float finite
  | text level s => exact fun _ => reads_text s
  | list level items shallow _ ih =>
    intro depth
    rw [reread, rereadItems_eq]
    exact reads_list shallow fun j hj => ih j hj (depth + 1)
  | record level entries shallow _ ih =>
    intro depth
    rw [reread, rereadEntries_eq]
    exact reads_record shallow fun e he => ih e he (depth + 1)

theorem ofText_of_reads {text : List Char} {d : Draft} (h : Reads 1 text d) :
    ofText (String.ofList text) = (d, true) := by
  have hread := h.reads (2 * text.length + 2) [] (by omega) (by simp [Ends])
  unfold ofText
  rw [String.length_ofList, String.toList_ofList]
  rw [List.append_nil] at hread
  rw [hread]
  rfl

theorem decode_of_reads {α : Type} (read : Draft → Except Fault α) {text : List Char} {d : Draft}
    (h : Reads 1 text d) : decode read (String.ofList text) = read d := by
  unfold decode
  rw [ofText_of_reads h]
  dsimp only
  cases read d <;> rfl

/-- A document that is not too deep, with numbers that fit, is decoded from its text as it is from
what it was before, but for the numbers with a point. -/
theorem decode_pretty {α : Type} (read : Draft → Except Fault α) {j : Json} (h : Readable 1 j) :
    decode read j.pretty = read j.reread :=
  decode_of_reads read (reads_pretty h 0)

end Draft

end Tabularium
