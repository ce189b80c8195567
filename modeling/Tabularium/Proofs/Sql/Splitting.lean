import Mathlib.Data.List.TakeWhile
import Tabularium.Proofs.Sql.Scanning

namespace Tabularium

variable {c : Char} {cs xs ys lead trail : List Char} {pieces : List (List Char)}

def IsBlankText (cs : List Char) : Prop :=
  ∀ c ∈ cs, isBlank c = true

instance (cs : List Char) : Decidable (IsBlankText cs) :=
  List.decidableBAll (fun c => isBlank c = true) cs

theorem ne_of_blank {d : Char} (hc : isBlank c = true) (hd : isBlank d = false) : c ≠ d := by
  rintro rfl
  rw [hd] at hc
  cases hc

/-- A text with neither end blank that a scan keeps as it is. -/
structure Whole (xs : List Char) : Prop where
  inert : Inert xs
  first : ∃ c, xs.head? = some c ∧ isBlank c = false
  last : ∃ c, xs.getLast? = some c ∧ isBlank c = false

def statementsOf (pieces : List (List Char)) : List String :=
  ((pieces.map trim).filter fun piece => !piece.isEmpty).map String.ofList

theorem splitStatements_eq (script : String) :
    splitStatements script = statementsOf (scriptPieces .plain script.toList) := rfl

theorem trim_lead (h : IsBlankText lead) : trim (lead ++ cs) = trim cs := by
  simp only [trim, trimStart]
  congr 1
  induction lead with
  | nil => rfl
  | cons c lead ih =>
    rw [List.cons_append, List.dropWhile_cons_of_pos (h c List.mem_cons_self)]
    exact ih fun d hd => h d (List.mem_cons_of_mem c hd)

theorem dropWhile_of_head {p : Char → Bool} (h : ∃ c, xs.head? = some c ∧ p c = false) :
    xs.dropWhile p = xs := by
  obtain ⟨c, hc, hp⟩ := h
  cases xs with
  | nil => rfl
  | cons d ds =>
    cases Option.some.inj hc
    rw [List.dropWhile_cons_of_neg (by simp [hp])]

theorem trim_eq_nil : trim cs = [] ↔ IsBlankText cs := by
  simp only [trim, trimEnd, trimStart, List.reverse_eq_nil_iff, List.dropWhile_eq_nil_iff,
    List.mem_reverse]
  constructor
  · intro h c hc
    by_contra hb
    have hmem : c ∈ cs.dropWhile isBlank := by
      rw [← List.takeWhile_append_dropWhile (p := isBlank) (l := cs), List.mem_append] at hc
      rcases hc with hc | hc
      · exact absurd (List.mem_takeWhile_imp hc) hb
      · exact hc
    exact hb (h c hmem)
  · exact fun h c hc => h c ((List.dropWhile_sublist isBlank).subset hc)

/-- Blanks behind a text do not count. -/
theorem trim_trail (h : IsBlankText trail) : trim (cs ++ trail) = trim cs := by
  by_cases hblank : IsBlankText cs
  · have hall : IsBlankText (cs ++ trail) := fun c hc =>
      (List.mem_append.mp hc).elim (hblank c) (h c)
    rw [trim_eq_nil.mpr hall, trim_eq_nil.mpr hblank]
  · have hne : cs.dropWhile isBlank ≠ [] := fun hnil => hblank (List.dropWhile_eq_nil_iff.mp hnil)
    have hstart : trimStart (cs ++ trail) = trimStart cs ++ trail := by
      rw [trimStart, List.dropWhile_append, if_neg (by simpa using hne)]
      rfl
    have hback : IsBlankText trail.reverse := fun c hc => h c (List.mem_reverse.mp hc)
    rw [trim, hstart, trimEnd, List.reverse_append, List.dropWhile_append_of_pos hback]
    rfl

theorem exists_trim (cs : List Char) :
    ∃ lead trail, IsBlankText lead ∧ IsBlankText trail ∧ cs = lead ++ (trim cs ++ trail) := by
  refine ⟨cs.takeWhile isBlank, ((trimStart cs).reverse.takeWhile isBlank).reverse,
    fun c hc => List.mem_takeWhile_imp hc,
    fun c hc => List.mem_takeWhile_imp (List.mem_reverse.mp hc), ?_⟩
  rw [trim, trimEnd, ← List.reverse_append, List.takeWhile_append_dropWhile, List.reverse_reverse,
    trimStart, List.takeWhile_append_dropWhile]

theorem trim_trim (cs : List Char) : trim (trim cs) = trim cs := by
  obtain ⟨lead, trail, hlead, htrail, hcs⟩ := exists_trim cs
  conv_rhs => rw [hcs, trim_lead hlead, trim_trail htrail]

/-- Neither end of the text is blank. -/
def Unpadded (cs : List Char) : Prop :=
  (∀ c ∈ cs.head?, isBlank c = false) ∧ ∀ c ∈ cs.getLast?, isBlank c = false

theorem length_trim_le (cs : List Char) : (trim cs).length ≤ cs.length := by
  obtain ⟨lead, trail, -, -, hcs⟩ := exists_trim cs
  conv_rhs => rw [hcs]
  simp only [List.length_append]
  omega

/-- Trimming leaves a text as it is exactly when neither of its ends is blank. -/
theorem trim_eq_self_iff : trim cs = cs ↔ Unpadded cs := by
  constructor
  · intro h
    have hblank : ∀ {c : Char}, isBlank c = true → IsBlankText [c] := fun hc => by
      simpa [IsBlankText] using hc
    refine ⟨fun c hc => ?_, fun c hc => ?_⟩
    · rw [← Bool.not_eq_true]
      intro hb
      obtain ⟨rest, rfl⟩ := List.head?_eq_some_iff.mp hc
      have hlength := length_trim_le rest
      rw [← trim_lead (hblank hb), List.singleton_append, h, List.length_cons] at hlength
      omega
    · rw [← Bool.not_eq_true]
      intro hb
      obtain ⟨rest, rfl⟩ := List.getLast?_eq_some_iff.mp hc
      have hlength := length_trim_le rest
      rw [← trim_trail (hblank hb), h, List.length_append, List.length_singleton] at hlength
      omega
  · rintro ⟨hfirst, hlast⟩
    cases cs with
    | nil => rfl
    | cons c cs =>
      have hback : ∃ d, (c :: cs).reverse.head? = some d ∧ isBlank d = false := by
        have hend := List.getLast?_eq_some_getLast (List.cons_ne_nil c cs)
        rw [List.head?_reverse]
        exact ⟨_, hend, hlast _ hend⟩
      rw [trim, trimStart, dropWhile_of_head ⟨c, rfl, hfirst c rfl⟩, trimEnd,
        dropWhile_of_head hback, List.reverse_reverse]

theorem trim_whole (h : Whole xs) : trim xs = xs := by
  obtain ⟨c, hfirst, hc⟩ := h.first
  obtain ⟨d, hlast, hd⟩ := h.last
  refine trim_eq_self_iff.mpr ⟨fun x hx => ?_, fun x hx => ?_⟩
  · cases hfirst.symm.trans hx
    exact hc
  · cases hlast.symm.trans hx
    exact hd

theorem scriptPieces_ne_nil (state : ScanState) (cs : List Char) : scriptPieces state cs ≠ [] := by
  have keep : ∀ (c : Char) (pieces : List (List Char)), keepChar c pieces ≠ [] := by
    intro c pieces
    cases pieces <;> simp [keepChar]
  fun_induction scriptPieces state cs <;> simp_all

theorem foldr_keepChar (xs : List Char) (piece : List Char) :
    xs.foldr keepChar (piece :: pieces) = (xs ++ piece) :: pieces := by
  induction xs with
  | nil => rfl
  | cons c xs ih => rw [List.foldr_cons, ih]; rfl

/-- Blanks in front of the first piece do not count. -/
theorem statementsOf_lead (lead : List Char) (h : IsBlankText lead) (hne : pieces ≠ []) :
    statementsOf (lead.foldr keepChar pieces) = statementsOf pieces := by
  cases pieces with
  | nil => exact absurd rfl hne
  | cons piece pieces => simp only [foldr_keepChar, statementsOf, List.map_cons, trim_lead h]

theorem statementsOf_statement (h : Whole xs) (ys : List Char) :
    statementsOf (scriptPieces .plain (xs ++ ';' :: '\n' :: ys))
      = String.ofList xs :: statementsOf (scriptPieces .plain ys) := by
  have hbreak : Inert ['\n'] := inert_ordinary (by decide)
  have hne : xs ≠ [] := by
    rintro rfl
    obtain ⟨c, hc, _⟩ := h.first
    cases hc
  have hcut : scriptPieces .plain (';' :: '\n' :: ys)
      = [] :: ['\n'].foldr keepChar (scriptPieces .plain ys) := by
    rw [scriptPieces_semicolon]
    exact congrArg ([] :: ·) (hbreak ys)
  rw [h.inert, hcut, foldr_keepChar, List.append_nil]
  have hrest := statementsOf_lead ['\n'] (by simp [IsBlankText, isBlank])
    (scriptPieces_ne_nil .plain ys)
  unfold statementsOf at hrest ⊢
  rw [List.map_cons, trim_whole h, List.filter_cons_of_pos (by simpa using hne), List.map_cons,
    hrest]

theorem statementsOf_script {texts : List (List Char)} (h : ∀ xs ∈ texts, Whole xs) :
    statementsOf (scriptPieces .plain (texts.flatMap fun xs => xs ++ [';', '\n']))
      = texts.map String.ofList := by
  induction texts with
  | nil => simp [scriptPieces, statementsOf, trim, trimEnd, trimStart]
  | cons xs texts ih =>
    have hs := statementsOf_statement (h xs List.mem_cons_self)
      (texts.flatMap fun xs => xs ++ [';', '\n'])
    rw [ih fun ys hy => h ys (List.mem_cons_of_mem xs hy)] at hs
    simpa using hs

/-- A comment is nothing but its line break. -/
theorem scriptPieces_comment (h : '\n' ∉ cs) (ys : List Char) :
    scriptPieces .plain ('-' :: '-' :: (cs ++ '\n' :: ys))
      = keepChar '\n' (scriptPieces .plain ys) := by
  have hline : ∀ cs : List Char, '\n' ∉ cs →
      scriptPieces .lineComment (cs ++ '\n' :: ys) = keepChar '\n' (scriptPieces .plain ys) := by
    intro cs h
    induction cs with
    | nil => simp [scriptPieces]
    | cons c cs ih =>
      rw [List.mem_cons, not_or] at h
      rw [List.cons_append, scriptPieces, if_neg (Ne.symm h.1), ih h.2]
  rw [scriptPieces_dashes, hline cs h]

/-- Comments in front of a script do not count. -/
theorem statementsOf_comments {comments : List (List Char)} (h : ∀ cs ∈ comments, '\n' ∉ cs)
    (ys : List Char) :
    statementsOf (scriptPieces .plain
        ((comments.flatMap fun cs => '-' :: '-' :: (cs ++ ['\n'])) ++ ys))
      = statementsOf (scriptPieces .plain ys) := by
  induction comments with
  | nil => rfl
  | cons cs comments ih =>
    have hc := scriptPieces_comment (h cs List.mem_cons_self)
      ((comments.flatMap fun cs => '-' :: '-' :: (cs ++ ['\n'])) ++ ys)
    have hlead := statementsOf_lead ['\n'] (by simp [IsBlankText, isBlank])
      (scriptPieces_ne_nil .plain
        ((comments.flatMap fun cs => '-' :: '-' :: (cs ++ ['\n'])) ++ ys))
    rw [← ih fun xs hx => h xs (List.mem_cons_of_mem cs hx), ← hlead, List.foldr_cons,
      List.foldr_nil, ← hc]
    simp

end Tabularium
