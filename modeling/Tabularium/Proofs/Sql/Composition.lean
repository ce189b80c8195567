import Tabularium.Proofs.Sql.Residue

namespace Tabularium

variable {c d e : Char} {cs ds xs ys lead joined : List Char} {pieces rest : List (List Char)}
  {q q' : Option Char} {a b s script : String} {texts : List String}

/-- The text has no semicolon and opens no comment outside quotes; the mark is the one that is open
in front of it, and one may be open behind it. -/
def isKept : Option Char → List Char → Bool
  | _, [] => true
  | none, c :: cs =>
    if isMark c then isKept (some c) cs else c != ';' && !opensComment c cs && isKept none cs
  | some mark, c :: cs => isKept (if c = mark then none else some mark) cs

/-- The mark that is open where a scan stands. -/
def ScanState.mark? : ScanState → Option Char
  | .plain => none
  | .quoted mark => some mark
  | .lineComment => none
  | .blockComment => none

/-- A scan keeps the pieces as they are, the first one behind a mark that is open. -/
def AllKept (q : Option Char) : List (List Char) → Prop
  | [] => True
  | first :: pieces => isKept q first = true ∧ ∀ piece ∈ pieces, isKept none piece = true

/-- The texts with a semicolon behind each of them, which the last one may lack, and line breaks or
other blanks around the semicolons. -/
inductive Joins : List String → List Char → Prop
  | none {gap : List Char} (h : IsBlankText gap) : Joins [] gap
  | last (s : String) {gap : List Char} (h : IsBlankText gap) : Joins [s] (s.toList ++ gap)
  | more (s : String) {texts : List String} {joined gap gap' : List Char} (hgap : IsBlankText gap)
      (hgap' : IsBlankText gap') (h : Joins texts joined) :
      Joins (s :: texts) (s.toList ++ (gap ++ ';' :: (gap' ++ joined)))

/-- The text is a statement of its own and leaves no quote open. -/
structure IsStatement (s : String) : Prop where
  single : splitStatements s = [s]
  unquoted : ∀ mark, scanEnd .plain s.toList ≠ .quoted mark

theorem isBlank_ordinary (h : isBlank c = true) : isOrdinary c = true := by
  have hm : isMark c = false := by
    by_contra hm
    rw [isMark_not_blank (by simpa using hm)] at h
    cases h
  simp [isOrdinary, hm, ne_of_blank h (show isBlank ';' = false by decide),
    ne_of_blank h (show isBlank '-' = false by decide),
    ne_of_blank h (show isBlank '/' = false by decide)]

theorem isKept_ordinary (h : isOrdinary c = true) (cs : List Char) :
    isKept none (c :: cs) = isKept none cs := by
  have hc := h
  simp only [isOrdinary, Bool.and_eq_true, Bool.not_eq_true', bne_iff_ne] at hc
  simp [isKept, hc.1.1.1, hc.1.1.2, isOrdinary_opens h]

/-- What is kept stays kept when it ends earlier. -/
theorem isKept_front (h : isKept q (xs ++ ys) = true) : isKept q xs = true := by
  induction xs generalizing q with
  | nil => simp [isKept]
  | cons c cs ih =>
    rw [List.cons_append] at h
    cases q with
    | none =>
      rw [isKept] at h ⊢
      by_cases hm : isMark c = true
      · rw [if_pos hm] at h ⊢
        exact ih h
      · rw [if_neg hm] at h ⊢
        simp only [Bool.and_eq_true, Bool.not_eq_true'] at h ⊢
        obtain ⟨⟨hs, ho⟩, hrest⟩ := h
        refine ⟨⟨hs, ?_⟩, ih hrest⟩
        cases cs with
        | nil => simp [opensComment]
        | cons d ds => exact ho
    | some mark =>
      rw [isKept] at h ⊢
      exact ih h

theorem isKept_behind (hlead : IsBlankText lead) (h : isKept none (lead ++ xs) = true) :
    isKept none xs = true := by
  induction lead with
  | nil => exact h
  | cons c lead ih =>
    rw [List.cons_append, isKept_ordinary (isBlank_ordinary (hlead c List.mem_cons_self))] at h
    exact ih (fun d hd => hlead d (List.mem_cons_of_mem c hd)) h

theorem isKept_trim (h : isKept none xs = true) : isKept none (trim xs) = true := by
  obtain ⟨lead, trail, hlead, -, hxs⟩ := exists_trim xs
  rw [hxs] at h
  exact isKept_front (isKept_behind hlead h)

/-- A scan keeps the first character of what is kept, and the rest is kept where it then stands. -/
theorem isKept_step (h : isKept q (c :: cs) = true) :
    ∃ q', ScanStep (quoteState q) (c :: cs) (.keep c) (quoteState q') cs ∧ isKept q' cs = true := by
  cases q with
  | none =>
    rw [isKept] at h
    by_cases hm : isMark c = true
    · rw [if_pos hm] at h
      exact ⟨some c, .mark hm, h⟩
    · rw [if_neg hm] at h
      simp only [Bool.and_eq_true, bne_iff_ne, Bool.not_eq_true'] at h
      exact ⟨none, .other (by simpa using hm) h.1.1 h.1.2, h.2⟩
  | some mark =>
    rw [isKept] at h
    by_cases hc : c = mark
    · subst hc
      rw [if_pos rfl] at h
      exact ⟨none, .closes, h⟩
    · rw [if_neg hc] at h
      exact ⟨some mark, .inside hc, h⟩

theorem scriptPieces_kept (h : isKept q cs = true) : scriptPieces (quoteState q) cs = [cs] := by
  induction cs generalizing q with
  | nil => cases q <;> rfl
  | cons c cs ih =>
    obtain ⟨q', hstep, hrest⟩ := isKept_step h
    rw [hstep.pieces_eq, ih hrest]
    rfl

theorem scanEnd_kept (h : isKept q cs = true) :
    ∃ q', scanEnd (quoteState q) cs = quoteState q' := by
  induction cs generalizing q with
  | nil => exact ⟨q, by cases q <;> rfl⟩
  | cons c cs ih =>
    obtain ⟨q', hstep, hrest⟩ := isKept_step h
    rw [hstep.scanEnd_eq]
    exact ih hrest

/-- The character that the first piece starts with. -/
def firstChar? (pieces : List (List Char)) : Option Char :=
  pieces.head?.bind List.head?

theorem firstChar?_keepChar (c : Char) (pieces : List (List Char)) :
    firstChar? (keepChar c pieces) = some c := by
  cases pieces <;> rfl

/-- What a scan keeps starts with the first character, or with the blank that is left of a
comment. -/
theorem firstChar?_scan {state : ScanState} (h : firstChar? (scriptPieces state cs) = some e) :
    isBlank e = true
      ∨ (state ≠ .lineComment ∧ state ≠ .blockComment) ∧ cs.head? = some e := by
  induction state, cs using scan_induction with
  | done state => cases state <;> cases h
  | step hstep ih =>
    rw [hstep.pieces_eq] at h
    cases hstep with
    | mark | other | closes | inside =>
      rw [ScanEffect.apply, firstChar?_keepChar] at h
      exact .inr ⟨by simp, h⟩
    | semicolon => cases h
    | lineEnd | starSlash =>
      rw [ScanEffect.apply, firstChar?_keepChar] at h
      cases h
      exact .inl (by decide)
    | dashes | slashStar | inLine | inBlock =>
      -- the scan stands in a comment
      rcases ih h with hblank | ⟨⟨hline, hblock⟩, -⟩
      · exact .inl hblank
      · simp at hline hblock

theorem AllKept.keepChar (h : AllKept q pieces) (hne : pieces ≠ [])
    (hc : ∀ first ∈ pieces.head?, isKept q first = true → isKept q' (c :: first) = true) :
    AllKept q' (keepChar c pieces) := by
  cases pieces with
  | nil => exact absurd rfl hne
  | cons first pieces => exact ⟨hc first rfl h.1, h.2⟩

theorem AllKept.all (h : AllKept none pieces) : ∀ piece ∈ pieces, isKept none piece = true := by
  cases pieces with
  | nil => simp
  | cons first pieces => exact List.forall_mem_cons.mpr h

/-- A comment that is taken out leaves a blank, so what stood around it opens none. -/
theorem opensComment_front {first : List Char} (ho : opensComment c cs = false)
    (h : first ∈ (scriptPieces .plain cs).head?) : opensComment c first = false := by
  cases first with
  | nil => simp [opensComment]
  | cons e es =>
    have hfirst : firstChar? (scriptPieces .plain cs) = some e := by
      rw [firstChar?, Option.mem_def.mp h]
      rfl
    rcases firstChar?_scan hfirst with hblank | ⟨-, hhead⟩
    · refine opensComment_eq_false (fun h => ?_) (fun h => ?_) es
      · exact ne_of_blank hblank (show isBlank '-' = false by decide) h.2
      · exact ne_of_blank hblank (show isBlank '*' = false by decide) h.2
    · rwa [opensComment, hhead] at ho

/-- A scan of what it has kept keeps it as it is. -/
theorem scriptPieces_allKept (state : ScanState) (cs : List Char) :
    AllKept state.mark? (scriptPieces state cs) := by
  induction state, cs using scan_induction with
  | done state => cases state <;> exact ⟨rfl, by simp⟩
  | @step state cs effect state' cs' hstep ih =>
    have hne := scriptPieces_ne_nil state' cs'
    rw [hstep.pieces_eq]
    cases hstep with
    | semicolon => exact ⟨rfl, ih.all⟩
    | dashes | slashStar | inLine | inBlock => exact ih
    | mark hm =>
      refine ih.keepChar hne fun first _ hf => ?_
      rw [ScanState.mark?, isKept, if_pos hm]
      exact hf
    | other hm hs ho =>
      refine ih.keepChar hne fun first hfirst hf => ?_
      have hrest : isKept none first = true := hf
      simp [ScanState.mark?, isKept, hm, hs, opensComment_front ho hfirst, hrest]
    | closes =>
      refine ih.keepChar hne fun first _ hf => ?_
      rw [ScanState.mark?, isKept, if_pos rfl]
      exact hf
    | inside hc =>
      refine ih.keepChar hne fun first _ hf => ?_
      rw [ScanState.mark?, isKept, if_neg hc]
      exact hf
    | lineEnd | starSlash =>
      refine ih.keepChar hne fun first _ hf => ?_
      rw [ScanState.mark?, isKept_ordinary (isBlank_ordinary (by decide))]
      exact hf

theorem statementsOf_append (pieces rest : List (List Char)) :
    statementsOf (pieces ++ rest) = statementsOf pieces ++ statementsOf rest := by
  simp only [statementsOf, List.map_append, List.filter_append]

theorem glue_nil_cons (hne : pieces ≠ []) : glue pieces ([] :: rest) = pieces ++ rest := by
  induction pieces with
  | nil => exact absurd rfl hne
  | cons piece pieces ih =>
    cases pieces with
    | nil => rw [glue, foldr_keepChar, List.append_nil, List.singleton_append]
    | cons next pieces =>
      rw [glue, ih (by simp)]
      rfl

/-- A statement of a script is kept by a scan and has no blanks at its ends. -/
theorem mem_splitStatements (h : s ∈ splitStatements script) :
    s ≠ "" ∧ trimText s = s ∧ isKept none s.toList = true := by
  rw [splitStatements_eq] at h
  obtain ⟨piece, hpiece, rfl⟩ := List.mem_map.mp h
  obtain ⟨hmem, hne⟩ := List.mem_filter.mp hpiece
  obtain ⟨whole, hwhole, rfl⟩ := List.mem_map.mp hmem
  have hkept := (scriptPieces_allKept .plain script.toList).all whole hwhole
  refine ⟨fun h => ?_, ?_, ?_⟩
  · simp [String.ofList_eq_empty_iff.mp h] at hne
  · rw [trimText, String.toList_ofList, trim_trim]
  · rw [String.toList_ofList]
    exact isKept_trim hkept

theorem statementsOf_single (hne : trim cs ≠ []) :
    statementsOf [cs] = [String.ofList (trim cs)] := by
  simp [statementsOf, hne]

theorem splitStatements_kept (hne : s ≠ "") (htrim : trimText s = s)
    (hkept : isKept none s.toList = true) : splitStatements s = [s] := by
  have hs : trim s.toList = s.toList := by
    rw [← String.toList_ofList (l := trim s.toList)]
    exact congrArg String.toList htrim
  have hpieces := scriptPieces_kept hkept
  rw [quoteState] at hpieces
  rw [splitStatements_eq, hpieces, statementsOf_single (by rw [hs]; simpa using hne), hs,
    String.ofList_toList]

/-- A semicolon outside quotes and comments parts a script into two. -/
theorem splitStatements_append (h : scanEnd .plain a.toList = .plain) :
    splitStatements (a ++ ";" ++ b) = splitStatements a ++ splitStatements b := by
  have hparted : Parted a.toList (';' :: b.toList) := by
    intro c _ d hd
    cases hd
    simp
  have htext : (a ++ ";" ++ b).toList = a.toList ++ ';' :: b.toList := by simp
  rw [splitStatements_eq, htext, scriptPieces_append hparted, h, scriptPieces_semicolon,
    glue_nil_cons (scriptPieces_ne_nil _ _), statementsOf_append]
  rfl

theorem inert_blank {gap : List Char} (h : IsBlankText gap) : Inert gap :=
  inert_of_ordinary fun c hc => isBlank_ordinary (h c hc)

/-- Blanks behind a text that is kept are kept with it. -/
theorem scriptPieces_spaced (ys : List Char) {gap : List Char} (hkept : isKept none cs = true)
    (hend : scanEnd .plain cs = .plain) (hgap : IsBlankText gap) (hys : ∀ d ∈ ys.head?, d = ';') :
    scriptPieces .plain (cs ++ (gap ++ ys))
      = (cs ++ gap).foldr keepChar (scriptPieces .plain ys) := by
  have hnext : ∀ d ∈ (gap ++ ys).head?, isBlank d = true ∨ d = ';' := by
    intro d hd
    cases gap with
    | nil => exact .inr (hys d hd)
    | cons b gap =>
      cases hd
      exact .inl (hgap _ List.mem_cons_self)
  have hparted : Parted cs (gap ++ ys) := by
    intro c _ d hd
    have hne : ∀ e, isBlank e = false → e ≠ ';' → d ≠ e := by
      intro e hb hs
      rcases hnext d hd with hd | rfl
      · exact ne_of_blank hd hb
      · exact hs.symm
    exact ⟨fun h => hne '-' (by decide) (by decide) h.2,
      fun h => hne '*' (by decide) (by decide) h.2, fun h => hne '/' (by decide) (by decide) h.2⟩
  have hpieces := scriptPieces_kept hkept
  rw [quoteState] at hpieces
  rw [scriptPieces_append hparted, hpieces, hend, glue, inert_blank hgap, ← List.foldr_append]

namespace IsStatement

theorem mem (h : IsStatement s) : s ∈ splitStatements s := by
  rw [h.single]
  exact List.mem_cons_self

theorem kept (h : IsStatement s) : isKept none s.toList = true :=
  (mem_splitStatements h.mem).2.2

/-- What is a statement of its own has no comment, so a scan stands outside everything behind it. -/
theorem scanEnd_plain (h : IsStatement s) : scanEnd .plain s.toList = .plain := by
  obtain ⟨q, hend⟩ := scanEnd_kept h.kept
  rw [quoteState] at hend
  cases q with
  | none => exact hend
  | some mark => exact absurd hend (h.unquoted mark)

theorem statementsOf_spaced {gap : List Char} (h : IsStatement s) (hgap : IsBlankText gap) :
    statementsOf [s.toList ++ gap] = [s] := by
  obtain ⟨hne, htrim, -⟩ := mem_splitStatements h.mem
  have htext : String.ofList (trim s.toList) = s := htrim
  have hfull : trim s.toList ≠ [] := by
    intro hnil
    rw [hnil] at htext
    exact hne htext.symm
  rw [statementsOf_single (by rwa [trim_trail hgap]), trim_trail hgap, htext]

/-- Statements are the statements of the text that joins them. -/
theorem splitStatements_joins (h : ∀ s ∈ texts, IsStatement s) (hjoined : Joins texts joined) :
    splitStatements (String.ofList joined) = texts := by
  rw [splitStatements_eq, String.toList_ofList]
  induction hjoined with
  | @none gap hgap =>
    have hpieces : scriptPieces .plain gap = [gap] := by
      have hkeeps := inert_blank hgap []
      rwa [List.append_nil, scriptPieces, foldr_keepChar, List.append_nil] at hkeeps
    rw [hpieces, statementsOf_eq_nil]
    simpa using hgap
  | @last s gap hgap =>
    have hs := h s List.mem_cons_self
    have hpieces := scriptPieces_spaced [] hs.kept hs.scanEnd_plain hgap (by simp)
    rw [List.append_nil, scriptPieces, foldr_keepChar, List.append_nil] at hpieces
    rw [hpieces, hs.statementsOf_spaced hgap]
  | @more s texts joined gap gap' hgap hgap' _ ih =>
    have hs := h s List.mem_cons_self
    have hrest := ih fun t ht => h t (List.mem_cons_of_mem s ht)
    have hpieces := scriptPieces_spaced (';' :: (gap' ++ joined)) hs.kept hs.scanEnd_plain hgap
      (by simp)
    rw [hpieces, scriptPieces_semicolon, foldr_keepChar, List.append_nil, ← List.singleton_append,
      statementsOf_append, hs.statementsOf_spaced hgap, inert_blank hgap',
      statementsOf_lead gap' hgap' (scriptPieces_ne_nil _ _), hrest, List.singleton_append]

end IsStatement

/-- Splitting is stable: a statement of a script splits to itself alone. It is compositional: a
semicolon outside quotes and comments parts a script into two that split apart. So statements are
what the text that joins them splits to. -/
theorem splitStatements_composes :
    (∀ script, ∀ s ∈ splitStatements script,
      s ≠ "" ∧ trimText s = s ∧ splitStatements s = [s]) ∧
    (∀ a b : String, scanEnd .plain a.toList = .plain →
      splitStatements (a ++ ";" ++ b) = splitStatements a ++ splitStatements b) ∧
    ∀ texts joined, (∀ s ∈ texts, IsStatement s) → Joins texts joined.toList →
      splitStatements joined = texts := by
  refine ⟨fun script s hs => ?_, fun a b h => splitStatements_append h, fun texts joined h hj => ?_⟩
  · obtain ⟨hne, htrim, hkept⟩ := mem_splitStatements hs
    exact ⟨hne, htrim, splitStatements_kept hne htrim hkept⟩
  · have hsplit := IsStatement.splitStatements_joins h hj
    rwa [String.ofList_toList] at hsplit

/-- A comment between two signs, a literal that stays open behind a semicolon, and statements with
line breaks and a comment mark in a literal. -/
theorem splitStatements_composes_notes :
    ("SELECT 6 / *" ∈ splitStatements "SELECT 6 //* a; */*" ∧
      splitStatements "SELECT 6 / *" = ["SELECT 6 / *"]) ∧
    (scanEnd .plain "-- a; b\nSELECT 1 -".toList = .plain ∧
      splitStatements ("-- a; b\nSELECT 1 -" ++ ";" ++ "- 'c;d")
        = splitStatements "-- a; b\nSELECT 1 -" ++ splitStatements "- 'c;d") ∧
    (∀ s ∈ ["INSERT INTO t\nVALUES ('--;')", "SELECT 1"], IsStatement s) ∧
      splitStatements "INSERT INTO t\nVALUES ('--;');\nSELECT 1\n;\n"
        = ["INSERT INTO t\nVALUES ('--;')", "SELECT 1"] := by
  obtain ⟨hstable, hparts, hjoins⟩ := splitStatements_composes
  have hmem : "SELECT 6 / *" ∈ splitStatements "SELECT 6 //* a; */*" := by
    have hsplit : splitStatements "SELECT 6 //* a; */*" = ["SELECT 6 / *"] := by cbv
    rw [hsplit]
    exact List.mem_cons_self
  have hplain : scanEnd .plain "-- a; b\nSELECT 1 -".toList = .plain := by cbv
  have hstatements : ∀ s ∈ ["INSERT INTO t\nVALUES ('--;')", "SELECT 1"], IsStatement s := by
    have hends : scanEnd .plain "INSERT INTO t\nVALUES ('--;')".toList = .plain ∧
        scanEnd .plain "SELECT 1".toList = .plain := ⟨by cbv, by cbv⟩
    exact List.forall_mem_cons.mpr ⟨⟨by cbv, fun mark h => by cases hends.1.symm.trans h⟩,
      List.forall_mem_singleton.mpr ⟨by cbv, fun mark h => by cases hends.2.symm.trans h⟩⟩
  have hjoined : Joins ["INSERT INTO t\nVALUES ('--;')", "SELECT 1"]
      "INSERT INTO t\nVALUES ('--;');\nSELECT 1\n;\n".toList :=
    .more _ (show IsBlankText [] by decide) (show IsBlankText ['\n'] by decide)
      (.more _ (show IsBlankText ['\n'] by decide) (show IsBlankText ['\n'] by decide)
        (.none (show IsBlankText [] by decide)))
  exact ⟨⟨hmem, (hstable _ _ hmem).2.2⟩, ⟨hplain, hparts _ _ hplain⟩, hstatements,
    hjoins _ _ hstatements hjoined⟩

end Tabularium
