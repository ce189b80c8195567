import Tabularium.Proofs.Sql.Splitting

namespace Tabularium

variable {c : Char} {cs ys : List Char} {pieces rest : List (List Char)} {state : ScanState}

/-- Where a scan stands behind a text. -/
def scanEnd : ScanState → List Char → ScanState
  | state, [] => state
  | .plain, c :: cs =>
    if isMark c then scanEnd (.quoted c) cs
    else if c = ';' then scanEnd .plain cs
    else
      match cs with
      | [] => .plain
      | d :: ds =>
        if c = '-' ∧ d = '-' then scanEnd .lineComment ds
        else if c = '/' ∧ d = '*' then scanEnd .blockComment ds
        else scanEnd .plain (d :: ds)
  | .quoted mark, c :: cs => scanEnd (if c = mark then .plain else .quoted mark) cs
  | .lineComment, c :: cs => if c = '\n' then scanEnd .plain cs else scanEnd .lineComment cs
  | .blockComment, c :: cs =>
    match cs with
    | [] => .blockComment
    | d :: ds =>
      if c = '*' ∧ d = '/' then scanEnd .plain ds else scanEnd .blockComment (d :: ds)

/-- What a step of a scan does with the pieces of what is left to read. -/
inductive ScanEffect where
  | keep (c : Char)
  | cut
  | drop

def ScanEffect.apply : ScanEffect → List (List Char) → List (List Char)
  | keep c, pieces => keepChar c pieces
  | cut, pieces => [] :: pieces
  | drop, pieces => pieces

/-- One step of a scan: from a state and what is left to read to the next state and the rest. -/
inductive ScanStep : ScanState → List Char → ScanEffect → ScanState → List Char → Prop
  | mark {c : Char} {cs : List Char} (hm : isMark c = true) :
      ScanStep .plain (c :: cs) (.keep c) (.quoted c) cs
  | semicolon {cs : List Char} : ScanStep .plain (';' :: cs) .cut .plain cs
  | dashes {cs : List Char} : ScanStep .plain ('-' :: '-' :: cs) .drop .lineComment cs
  | slashStar {cs : List Char} : ScanStep .plain ('/' :: '*' :: cs) .drop .blockComment cs
  | other {c : Char} {cs : List Char} (hm : isMark c = false) (hs : c ≠ ';')
      (ho : opensComment c cs = false) : ScanStep .plain (c :: cs) (.keep c) .plain cs
  | closes {mark : Char} {cs : List Char} :
      ScanStep (.quoted mark) (mark :: cs) (.keep mark) .plain cs
  | inside {mark c : Char} {cs : List Char} (hc : c ≠ mark) :
      ScanStep (.quoted mark) (c :: cs) (.keep c) (.quoted mark) cs
  | lineEnd {cs : List Char} : ScanStep .lineComment ('\n' :: cs) (.keep '\n') .plain cs
  | inLine {c : Char} {cs : List Char} (hc : c ≠ '\n') :
      ScanStep .lineComment (c :: cs) .drop .lineComment cs
  | starSlash {cs : List Char} : ScanStep .blockComment ('*' :: '/' :: cs) (.keep ' ') .plain cs
  | inBlock {c : Char} {cs : List Char} (hc : ¬ (c = '*' ∧ cs.head? = some '/')) :
      ScanStep .blockComment (c :: cs) .drop .blockComment cs

/-- The text is empty or ends with a line break. -/
def EndsLine (cs : List Char) : Prop :=
  ∀ c, cs.getLast? = some c → c = '\n'

/-- No mark of two characters starts in the first text and ends in the second. -/
def Parted (cs ys : List Char) : Prop :=
  ∀ c ∈ cs.getLast?, ∀ d ∈ ys.head?,
    ¬ (c = '-' ∧ d = '-') ∧ ¬ (c = '/' ∧ d = '*') ∧ ¬ (c = '*' ∧ d = '/')

/-- Pieces whose last one goes on with the first of further pieces. -/
def glue : List (List Char) → List (List Char) → List (List Char)
  | [], rest => rest
  | [last], rest => last.foldr keepChar rest
  | piece :: next :: pieces, rest => piece :: glue (next :: pieces) rest

theorem getLast?_of_suffix (h : ys <:+ cs) (hc : c ∈ ys.getLast?) : c ∈ cs.getLast? := by
  obtain ⟨front, rfl⟩ := h
  rw [Option.mem_def] at hc ⊢
  rw [List.getLast?_append, hc, Option.some_or]

theorem EndsLine.suffix (h : EndsLine cs) (hs : ys <:+ cs) : EndsLine ys :=
  fun c hc => h c (getLast?_of_suffix hs hc)

theorem EndsLine.parted (h : EndsLine cs) (ys : List Char) : Parted cs ys := by
  intro c hc d _
  cases h c hc
  simp

theorem Parted.suffix {zs : List Char} (h : Parted cs ys) (hs : zs <:+ cs) : Parted zs ys :=
  fun c hc => h c (getLast?_of_suffix hs hc)

theorem glue_keepChar (hne : pieces ≠ []) :
    glue (keepChar c pieces) rest = keepChar c (glue pieces rest) := by
  cases pieces with
  | nil => exact absurd rfl hne
  | cons piece pieces => cases pieces <;> rfl

theorem glue_cons (piece : List Char) (hne : pieces ≠ []) :
    glue (piece :: pieces) rest = piece :: glue pieces rest := by
  cases pieces with
  | nil => exact absurd rfl hne
  | cons next pieces => rfl

theorem glue_apply (effect : ScanEffect) (hne : pieces ≠ []) :
    glue (effect.apply pieces) rest = effect.apply (glue pieces rest) := by
  cases effect with
  | keep c => exact glue_keepChar hne
  | cut => exact glue_cons [] hne
  | drop => rfl

/-- A property of scans holds when it holds at the end of a text and goes back over every step. -/
theorem scan_induction {motive : ScanState → List Char → Prop}
    (done : ∀ state, motive state [])
    (step : ∀ {state cs effect state' cs'}, ScanStep state cs effect state' cs' →
      motive state' cs' → motive state cs)
    (state : ScanState) (cs : List Char) : motive state cs := by
  -- Each case is a step; where a single character is left, it leads to the end.
  fun_induction scanEnd state cs with
  | case1 state => exact done state
  | case2 c cs hm ih => exact step (.mark hm) ih
  | case3 cs hm ih => exact step .semicolon ih
  | case4 c hm hs =>
    exact step (.other (by simpa using hm) hs (by simp [opensComment])) (done .plain)
  | case5 c hm hs d ds ho ih =>
    obtain ⟨rfl, rfl⟩ := ho
    exact step .dashes ih
  | case6 c hm hs d ds hn ho ih =>
    obtain ⟨rfl, rfl⟩ := ho
    exact step .slashStar ih
  | case7 c hm hs d ds hn hb ih =>
    exact step (.other (by simpa using hm) hs (opensComment_eq_false hn hb ds)) ih
  | case8 mark c cs ih =>
    by_cases hc : c = mark
    · subst hc
      rw [if_pos rfl] at ih
      exact step .closes ih
    · rw [if_neg hc] at ih
      exact step (.inside hc) ih
  | case9 cs ih => exact step .lineEnd ih
  | case10 c cs hc ih => exact step (.inLine hc) ih
  | case11 c => exact step (.inBlock (by simp)) (done .blockComment)
  | case12 c d ds ho ih =>
    obtain ⟨rfl, rfl⟩ := ho
    exact step .starSlash ih
  | case13 c d ds ho ih => exact step (.inBlock (by simpa using ho)) ih

theorem scanEnd_mark (hm : isMark c = true) (cs : List Char) :
    scanEnd .plain (c :: cs) = scanEnd (.quoted c) cs := by
  cases cs <;> simp [scanEnd, hm]

theorem scanEnd_plain_keeps (hm : isMark c = false) (hs : c ≠ ';')
    (ho : opensComment c cs = false) : scanEnd .plain (c :: cs) = scanEnd .plain cs := by
  cases cs with
  | nil => simp [scanEnd, hm, hs]
  | cons d ds =>
    simp only [opensComment, List.head?_cons, Bool.or_eq_false_iff, Bool.and_eq_false_iff,
      beq_eq_false_iff_ne, ne_eq, Option.some.injEq] at ho
    simp [scanEnd, hm, hs, Decidable.not_and_iff_or_not.mpr ho.1,
      Decidable.not_and_iff_or_not.mpr ho.2]

namespace ScanStep

variable {state' : ScanState} {cs' : List Char} {effect : ScanEffect}

theorem pieces_eq (h : ScanStep state cs effect state' cs') :
    scriptPieces state cs = effect.apply (scriptPieces state' cs') := by
  cases h with
  | mark hm => exact scriptPieces_mark hm
  | semicolon => exact scriptPieces_semicolon _
  | dashes => exact scriptPieces_dashes _
  | slashStar => exact scriptPieces_slashStar _
  | other hm hs ho => exact scriptPieces_plain_keeps hm hs ho
  | closes => rw [scriptPieces, if_pos rfl]; rfl
  | inside hc => rw [scriptPieces, if_neg hc]; rfl
  | lineEnd => rw [scriptPieces, if_pos rfl]; rfl
  | inLine hc => rw [scriptPieces, if_neg hc]; rfl
  | starSlash => exact scriptPieces_starSlash _
  | inBlock hc =>
    cases cs' with
    | nil => rfl
    | cons d ds => exact scriptPieces_skips (by simpa using hc)

theorem scanEnd_eq (h : ScanStep state cs effect state' cs') :
    scanEnd state cs = scanEnd state' cs' := by
  cases h with
  | mark hm => exact scanEnd_mark hm _
  | semicolon => cases cs' <;> simp [scanEnd, isMark]
  | dashes => simp [scanEnd, isMark]
  | slashStar => simp [scanEnd, isMark]
  | other hm hs ho => exact scanEnd_plain_keeps hm hs ho
  | closes => rw [scanEnd, if_pos rfl]
  | inside hc => rw [scanEnd, if_neg hc]
  | lineEnd => rw [scanEnd, if_pos rfl]
  | inLine hc => rw [scanEnd, if_neg hc]
  | starSlash => simp [scanEnd]
  | inBlock hc =>
    cases cs' with
    | nil => rfl
    | cons d ds => rw [scanEnd, if_neg (by simpa using hc)]

/-- A step is the same one in front of further text that completes no mark. -/
theorem append (h : ScanStep state cs effect state' cs') (hp : Parted cs ys) :
    ScanStep state (cs ++ ys) effect state' (cs' ++ ys) := by
  cases h with
  | mark hm => exact .mark hm
  | semicolon => exact .semicolon
  | dashes => exact .dashes
  | slashStar => exact .slashStar
  | @other c _ hm hs ho =>
    refine .other hm hs ?_
    cases cs' with
    | cons d ds => exact ho
    | nil =>
      cases ys with
      | nil => exact ho
      | cons d ds =>
        obtain ⟨hn, hb, -⟩ := hp c rfl d rfl
        exact opensComment_eq_false hn hb ds
  | closes => exact .closes
  | inside hc => exact .inside hc
  | lineEnd => exact .lineEnd
  | inLine hc => exact .inLine hc
  | starSlash => exact .starSlash
  | @inBlock c _ hc =>
    refine .inBlock ?_
    cases cs' with
    | cons d ds => exact hc
    | nil => exact fun ⟨hstar, hslash⟩ => (hp c rfl '/' hslash).2.2 ⟨hstar, rfl⟩

theorem suffix (h : ScanStep state cs effect state' cs') : cs' <:+ cs := by
  cases h with
  | dashes | slashStar | starSlash => exact ⟨[_, _], rfl⟩
  | _ => exact ⟨[_], rfl⟩

end ScanStep

/-- A scan goes on from where it stands behind the first of two texts. -/
theorem scriptPieces_append (h : Parted cs ys) :
    scriptPieces state (cs ++ ys)
      = glue (scriptPieces state cs) (scriptPieces (scanEnd state cs) ys) := by
  induction state, cs using scan_induction with
  | done state => cases state <;> rfl
  | step hstep ih =>
    rw [(hstep.append h).pieces_eq, ih (h.suffix hstep.suffix), hstep.pieces_eq, hstep.scanEnd_eq,
      glue_apply _ (scriptPieces_ne_nil _ _)]

theorem statementsOf_glue (hne : pieces ≠ []) (hr : rest ≠ [])
    (h : ∀ piece ∈ pieces, IsBlankText piece) :
    statementsOf (glue pieces rest) = statementsOf rest := by
  induction pieces with
  | nil => exact absurd rfl hne
  | cons piece pieces ih =>
    have hpiece := h piece List.mem_cons_self
    cases pieces with
    | nil => exact statementsOf_lead piece hpiece hr
    | cons next pieces =>
      rw [glue, ← ih (by simp) fun p hp => h p (List.mem_cons_of_mem piece hp)]
      simp [statementsOf, trim_eq_nil.mpr hpiece]

theorem statementsOf_eq_nil :
    statementsOf pieces = [] ↔ ∀ piece ∈ pieces, IsBlankText piece := by
  simp only [statementsOf, List.map_eq_nil_iff, List.filter_eq_nil_iff, List.mem_map,
    forall_exists_index, and_imp, forall_apply_eq_imp_iff₂, Bool.not_eq_true', Bool.not_eq_false,
    List.isEmpty_iff, trim_eq_nil]

/-- A comment of one line that is open behind a line break was open in front of nothing. -/
theorem scanEnd_lineComment (h : EndsLine cs) (hend : scanEnd state cs = .lineComment) :
    state = .lineComment ∧ cs = [] := by
  induction state, cs using scan_induction with
  | done state => exact ⟨hend, rfl⟩
  | step hstep ih =>
    rw [hstep.scanEnd_eq] at hend
    obtain ⟨rfl, rfl⟩ := ih (h.suffix hstep.suffix) hend
    -- nothing is left, so the text that opened or skipped the comment ends with no line break
    cases hstep with
    | dashes => exact absurd (h '-' rfl) (by decide)
    | inLine hc => exact absurd (h _ rfl) hc

/-- A character of a piece is no blank. -/
def Shows (pieces : List (List Char)) : Prop :=
  ∃ piece ∈ pieces, ∃ c ∈ piece, isBlank c = false

theorem Shows.keepChar (c : Char) (h : Shows pieces) : Shows (keepChar c pieces) := by
  obtain ⟨piece, hp, d, hd, hb⟩ := h
  cases pieces with
  | nil => cases hp
  | cons first pieces =>
    rcases List.mem_cons.mp hp with rfl | hp
    · exact ⟨c :: piece, List.mem_cons_self, d, List.mem_cons_of_mem c hd, hb⟩
    · exact ⟨piece, List.mem_cons_of_mem _ hp, d, hd, hb⟩

theorem shows_keepChar (hb : isBlank c = false) : Shows (keepChar c pieces) := by
  cases pieces with
  | nil => exact ⟨[c], List.mem_cons_self, c, List.mem_cons_self, hb⟩
  | cons first pieces => exact ⟨c :: first, List.mem_cons_self, c, List.mem_cons_self, hb⟩

theorem isMark_not_blank (h : isMark c = true) : isBlank c = false := by
  simp only [isMark, Bool.or_eq_true, beq_iff_eq] at h
  rcases h with (rfl | rfl) | rfl <;> decide

theorem Shows.apply (effect : ScanEffect) (h : Shows pieces) : Shows (effect.apply pieces) := by
  cases effect with
  | keep c => exact h.keepChar c
  | cut =>
    obtain ⟨piece, hp, hc⟩ := h
    exact ⟨piece, List.mem_cons_of_mem [] hp, hc⟩
  | drop => exact h

/-- The mark of a quoted part that is open is in the text, or it was open in front of it. -/
theorem scanEnd_quoted {mark : Char} (h : scanEnd state cs = .quoted mark) :
    (∃ mark, state = .quoted mark) ∨ Shows (scriptPieces state cs) := by
  induction state, cs using scan_induction with
  | done state => exact .inl ⟨mark, h⟩
  | step hstep ih =>
    rw [hstep.scanEnd_eq] at h
    rw [hstep.pieces_eq]
    rcases ih h with ⟨opened, rfl⟩ | hshows
    · cases hstep with
      | mark hm => exact .inr (shows_keepChar (isMark_not_blank hm))
      | inside => exact .inl ⟨opened, rfl⟩
    · exact .inr (hshows.apply _)

/-- How many characters of a text are no blanks. -/
def weight (cs : List Char) : Nat :=
  cs.countP fun c => !isBlank c

/-- How many characters of pieces are no blanks. -/
def totalWeight (pieces : List (List Char)) : Nat :=
  weight pieces.flatten

theorem weight_append (xs ys : List Char) : weight (xs ++ ys) = weight xs + weight ys :=
  List.countP_append

theorem weight_cons (c : Char) (cs : List Char) :
    weight (c :: cs) = weight cs + if isBlank c then 0 else 1 := by
  unfold weight
  rw [List.countP_cons]
  cases isBlank c <;> rfl

theorem weight_blank (h : IsBlankText cs) : weight cs = 0 := by
  refine List.countP_eq_zero.mpr fun c hc => ?_
  simp [h c hc]

theorem totalWeight_cons (piece : List Char) (pieces : List (List Char)) :
    totalWeight (piece :: pieces) = weight piece + totalWeight pieces := by
  rw [totalWeight, List.flatten_cons, weight_append, totalWeight]

theorem weight_reverse (cs : List Char) : weight cs.reverse = weight cs :=
  List.countP_reverse

theorem weight_trim (cs : List Char) : weight (trim cs) = weight cs := by
  have hdrop : ∀ cs, weight (cs.dropWhile isBlank) = weight cs := by
    intro cs
    have hblank : IsBlankText (cs.takeWhile isBlank) := fun c hc => List.mem_takeWhile_imp hc
    conv_rhs => rw [← List.takeWhile_append_dropWhile (p := isBlank) (l := cs), weight_append,
      weight_blank hblank, Nat.zero_add]
  simp only [trim, trimEnd, trimStart, weight_reverse, hdrop]

theorem totalWeight_keepChar (c : Char) (hne : pieces ≠ []) :
    totalWeight (keepChar c pieces) = totalWeight pieces + (if isBlank c then 0 else 1)
      ∧ (keepChar c pieces).length = pieces.length := by
  cases pieces with
  | nil => exact absurd rfl hne
  | cons piece pieces =>
    simp only [keepChar, totalWeight_cons, weight_cons, List.length_cons, and_true]
    omega

theorem statementsOf_weight (pieces : List (List Char)) :
    totalWeight ((statementsOf pieces).map String.toList) = totalWeight pieces
      ∧ (statementsOf pieces).length ≤ pieces.length := by
  induction pieces with
  | nil => exact ⟨rfl, Nat.le_refl _⟩
  | cons piece pieces ih =>
    obtain ⟨hw, hl⟩ := ih
    by_cases hb : trim piece = []
    · have hs : statementsOf (piece :: pieces) = statementsOf pieces := by
        simp [statementsOf, hb]
      rw [hs, totalWeight_cons, hw, weight_blank (trim_eq_nil.mp hb), List.length_cons]
      omega
    · have hs : statementsOf (piece :: pieces)
          = String.ofList (trim piece) :: statementsOf pieces := by
        simp [statementsOf, hb]
      rw [hs, totalWeight_cons, List.map_cons, totalWeight_cons, hw, String.toList_ofList,
        weight_trim, List.length_cons, List.length_cons]
      omega

/-- A step keeps no more than it reads, and a cut takes a semicolon. -/
theorem ScanStep.weight_le {state' : ScanState} {cs' : List Char} {effect : ScanEffect}
    (h : ScanStep state cs effect state' cs') (hne : pieces ≠ []) :
    totalWeight (effect.apply pieces) + (effect.apply pieces).length + weight cs'
      ≤ totalWeight pieces + pieces.length + weight cs := by
  have kept : ∀ c, totalWeight (keepChar c pieces) + (keepChar c pieces).length + weight cs'
      ≤ totalWeight pieces + pieces.length + weight (c :: cs') := by
    intro c
    obtain ⟨hw, hl⟩ := totalWeight_keepChar c hne
    rw [hw, hl, weight_cons]
    omega
  cases h with
  | mark | other | closes | inside | lineEnd => exact kept _
  | semicolon =>
    have hsemi : isBlank ';' = false := by decide
    simp only [ScanEffect.apply, totalWeight_cons, List.length_cons, weight_cons, hsemi]
    simp only [weight, List.countP_nil, Bool.false_eq_true, if_false]
    omega
  | dashes | slashStar | inLine | inBlock =>
    simp only [ScanEffect.apply, weight_cons]
    omega
  | starSlash =>
    have hspace : isBlank ' ' = true := by decide
    have hkept := kept ' '
    simp only [weight_cons, hspace, if_true] at hkept
    simp only [ScanEffect.apply, weight_cons]
    omega

/-- A scan keeps no more than there is, and each cut takes a semicolon. -/
theorem totalWeight_scriptPieces (state : ScanState) (cs : List Char) :
    totalWeight (scriptPieces state cs) + (scriptPieces state cs).length ≤ weight cs + 1 := by
  induction state, cs using scan_induction with
  | done state => cases state <;> exact Nat.le_refl _
  | @step state cs effect state' cs' hstep ih =>
    have hweight := hstep.weight_le (scriptPieces_ne_nil state' cs')
    rw [hstep.pieces_eq]
    omega

/-- A comment that is open either swallows everything or ends with its two marks, which are lost. -/
theorem totalWeight_blockComment (cs : List Char) :
    scriptPieces .blockComment cs = [[]]
      ∨ totalWeight (scriptPieces .blockComment cs) + (scriptPieces .blockComment cs).length + 2
        ≤ weight cs + 1 := by
  induction cs with
  | nil => exact .inl rfl
  | cons c cs ih =>
    cases cs with
    | nil => exact .inl rfl
    | cons d ds =>
      by_cases ho : c = '*' ∧ d = '/'
      · obtain ⟨rfl, rfl⟩ := ho
        obtain ⟨hw, hl⟩ := totalWeight_keepChar ' ' (scriptPieces_ne_nil .plain ds)
        have hbound := totalWeight_scriptPieces .plain ds
        have hspace : isBlank ' ' = true := by decide
        have hstar : isBlank '*' = false := by decide
        have hslash : isBlank '/' = false := by decide
        rw [hspace] at hw
        rw [scriptPieces_starSlash, hw, hl, weight_cons, weight_cons, hstar, hslash]
        simp only [if_true, Bool.false_eq_true, if_false]
        omega
      · rw [scriptPieces_skips ho, weight_cons]
        rcases ih with ih | ih
        · exact .inl ih
        · exact .inr (by omega)

theorem weight_script (texts : List (List Char)) :
    weight (texts.flatMap fun xs => xs ++ [';', '\n']) = totalWeight texts + texts.length := by
  induction texts with
  | nil => rfl
  | cons xs texts ih =>
    have hend : weight [';', '\n'] = 1 := by decide
    rw [List.flatMap_cons, weight_append, weight_append, hend, ih, totalWeight_cons,
      List.length_cons]
    omega

/-- Comments in front of a script show nothing and leave the script whole exactly when the scan
stands outside quotes and comments behind them. -/
theorem comments_end_plain_iff {comments : List Char} {texts : List (List Char)}
    (hc : EndsLine comments) (hw : ∀ xs ∈ texts, Whole xs)
    (hblock : scanEnd .plain comments = .blockComment → texts ≠ []) :
    statementsOf (scriptPieces .plain
          (comments ++ texts.flatMap fun xs => xs ++ [';', '\n'])) = texts.map String.ofList
        ∧ statementsOf (scriptPieces .plain comments) = []
      ↔ scanEnd .plain comments = .plain ∧ statementsOf (scriptPieces .plain comments) = [] := by
  rw [scriptPieces_append (hc.parted _)]
  refine and_congr_left fun hnothing => ?_
  have hglue := statementsOf_glue (scriptPieces_ne_nil .plain comments)
    (scriptPieces_ne_nil (scanEnd .plain comments) (texts.flatMap fun xs => xs ++ [';', '\n']))
    (statementsOf_eq_nil.mp hnothing)
  rw [hglue]
  constructor
  · intro hsplit
    cases hend : scanEnd .plain comments with
    | plain => rfl
    | lineComment => exact nomatch (scanEnd_lineComment hc hend).1
    | quoted mark =>
      -- the mark would show
      rcases scanEnd_quoted hend with ⟨m, hm⟩ | ⟨piece, hp, c, hcp, hb⟩
      · cases hm
      · have hblank := statementsOf_eq_nil.mp hnothing piece hp c hcp
        rw [hb] at hblank
        cases hblank
    | blockComment =>
      -- the statements would have to weigh as much as before without the marks of the comment
      rw [hend] at hsplit
      have hweigh := statementsOf_weight
        (scriptPieces .blockComment (texts.flatMap fun xs => xs ++ [';', '\n']))
      have htexts : (texts.map String.ofList).map String.toList = texts := by
        simp [Function.comp_def]
      rw [hsplit, htexts, List.length_map] at hweigh
      rcases totalWeight_blockComment (texts.flatMap fun xs => xs ++ [';', '\n']) with hall | hlost
      · rw [hall] at hsplit
        have hempty : statementsOf [[]] = [] := by
          simp [statementsOf, trim, trimEnd, trimStart]
        rw [hempty] at hsplit
        exact absurd (List.map_eq_nil_iff.mp hsplit.symm) (hblock hend)
      · rw [weight_script] at hlost
        omega
  · intro hend
    rw [hend]
    exact statementsOf_script hw

end Tabularium
