import Mathlib.Data.List.Basic
import Tabularium.Migration.Directory
import Tabularium.Proofs.Outcome
import Tabularium.Proofs.Text.Pieces

namespace Tabularium

namespace Directory

variable {d d' : Directory} {p q : Place} {n : Node} {name text : String}

theorem lookup_filter_ne {nodes : List (Place × Node)} (h : q ≠ p) :
    (nodes.filter fun entry => entry.1 != p).lookup q = nodes.lookup q := by
  induction nodes with
  | nil => rfl
  | cons entry nodes ih =>
    obtain ⟨r, m⟩ := entry
    by_cases hr : r = p
    · subst hr
      rw [List.filter_cons_of_neg (by simp), List.lookup_cons, ih]
      have hne : (q == r) = false := by simpa using h
      rw [hne]
    · rw [List.filter_cons_of_pos (by simpa using hr), List.lookup_cons, List.lookup_cons, ih]

theorem node?_put (d : Directory) (p q : Place) (n : Node) :
    (d.put p n).node? q = if q = p then some n else d.node? q := by
  unfold put node?
  rw [List.lookup_cons]
  split
  next h =>
    have hq : q = p := by simpa using h
    rw [if_pos hq]
  next h =>
    have hq : q ≠ p := by simpa using h
    rw [if_neg hq]
    exact lookup_filter_ne hq

/-- A name that leads to a place of its own, if there is room for it. -/
structure IsName (name : String) : Prop where
  unbroken : '/' ∉ name.toList
  nonempty : name ≠ ""
  notHere : name ≠ "."
  notBack : name ≠ ".."

/-- A name that leads to a place of its own. -/
structure IsFileName (name : String) : Prop extends IsName name where
  short : name.utf8ByteSize ≤ nameLimit

theorem IsName.kept (h : IsName name) :
    [name].filter (fun name => name != "" && name != ".") = [name] := by
  rw [List.filter_cons_of_pos (by simp [h.nonempty, h.notHere]), List.filter_nil]

theorem IsName.head (h : IsName name) : name.toList.head? ≠ some '/' := by
  intro hh
  exact h.unbroken (List.mem_of_mem_head? hh)

theorem IsName.pathNames (h : IsName name) : pathNames name = [name] := by
  unfold Tabularium.pathNames
  rw [splitAtEach_self h.unbroken, List.map_singleton, String.ofList_toList, h.kept]

/-- The path of a file in the folder of the journal. -/
def metaPath (name : String) : String := joinPath "meta" name

theorem IsName.metaPath_toList (h : IsName name) :
    (metaPath name).toList = ['m', 'e', 't', 'a'] ++ '/' :: name.toList := by
  unfold metaPath joinPath
  rw [if_neg h.head, String.toList_append]
  rfl

theorem IsName.pathNames_meta (h : IsName name) :
    Tabularium.pathNames (metaPath name) = ["meta", name] := by
  have hmeta : String.ofList ['m', 'e', 't', 'a'] = "meta" := rfl
  unfold Tabularium.pathNames
  rw [h.metaPath_toList, splitAtEach_append (by decide), splitAtEach_self h.unbroken, List.map_cons,
    List.map_singleton, String.ofList_toList, hmeta, List.filter_cons_of_pos (by decide), h.kept]

/-- A directory has the folders that the files of a bundle stand in. -/
structure HasFolders (d : Directory) : Prop where
  root : d.node? [] = some .folder
  middle : d.node? ["meta"] = some .folder

theorem HasFolders.put (h : d.HasFolders) (hp : p ≠ []) (hp' : p ≠ ["meta"]) (n : Node) :
    (d.put p n).HasFolders := by
  refine ⟨?_, ?_⟩
  · rw [node?_put, if_neg hp.symm, h.root]
  · rw [node?_put, if_neg hp'.symm, h.middle]

theorem place_root (h : IsName name) (hroot : d.node? [] = some .folder) :
    d.place name = if nameLimit < name.utf8ByteSize then .error .nameTooLong else .ok [name] := by
  unfold place
  rw [if_neg h.head, h.pathNames, walk, hroot]
  dsimp only
  rw [if_neg h.notBack]
  rfl

theorem place_name (h : IsFileName name) (hroot : d.node? [] = some .folder) :
    d.place name = .ok [name] := by
  rw [place_root h.toIsName hroot, if_neg (Nat.not_lt.mpr h.short)]

theorem place_metaPath (h : IsName name) (hd : d.HasFolders) :
    d.place (metaPath name)
      = if nameLimit < name.utf8ByteSize then .error .nameTooLong else .ok ["meta", name] := by
  have hhead : (metaPath name).toList.head? ≠ some '/' := by
    rw [h.metaPath_toList]
    simp
  unfold place
  rw [if_neg hhead, h.pathNames_meta, walk, hd.root]
  dsimp only
  rw [if_neg (by decide), if_neg (by decide), List.nil_append, walk, hd.middle]
  dsimp only
  rw [if_neg h.notBack]
  rfl

theorem place_meta (h : IsFileName name) (hd : d.HasFolders) :
    d.place (metaPath name) = .ok ["meta", name] := by
  rw [place_metaPath h.toIsName hd, if_neg (Nat.not_lt.mpr h.short)]

theorem read_file {path : String} (hp : d.place path = .ok p) (hn : d.node? p = some (.file text)) :
    d.read path = .ok text := by
  unfold read find
  simp only [hp, bind, Except.bind, hn]
  rfl

theorem has_none {path : String} (hp : d.place path = .ok p) (hn : d.node? p = none) :
    d.has path = false := by
  unfold has find
  simp only [hp, bind, Except.bind, hn]
  rfl

theorem has_misplaced {path : String} {fault : DirectoryFault} (hp : d.place path = .error fault) :
    d.has path = false := by
  unfold has find
  simp only [hp, bind, Except.bind]
  rfl

theorem write_misplaced {path : String} {fault : DirectoryFault}
    (hp : d.place path = .error fault) : d.write path text = .error fault := by
  unfold write
  simp only [hp, bind, Except.bind]

theorem write_file {path : String} (hp : d.place path = .ok p) (hn : d.node? p ≠ some .folder) :
    d.write path text = .ok (d.put p (.file text)) := by
  unfold write
  simp only [hp, bind, Except.bind]
  rfl

/-- A directory with nothing in it, which may not be there at all. -/
def Blank (d : Directory) : Prop :=
  d.nodes = [] ∨ d.nodes = [([], .folder)]

theorem Blank.root (h : d.Blank) : d.node? [] = none ∨ d.node? [] = some .folder := by
  unfold node?
  rcases h with h | h
  · exact .inl (by rw [h]; rfl)
  · exact .inr (by rw [h]; rfl)

theorem Blank.node?_eq_none (h : d.Blank) (hp : p ≠ []) : d.node? p = none := by
  unfold node?
  rcases h with h | h
  · rw [h]
    rfl
  · have hne : (p == []) = false := by simpa using hp
    rw [h, List.lookup_cons, hne]
    rfl

theorem enter_folder (onFile : DirectoryFault)
    (h : d.node? p = none ∨ d.node? p = some .folder) :
    ∃ d', d.enter p onFile = .ok d' ∧ d'.node? p = some .folder
      ∧ ∀ q, q ≠ p → d'.node? q = d.node? q := by
  unfold enter
  rcases h with h | h
  · rw [h]
    refine ⟨d.put p .folder, rfl, ?_, fun q hq => ?_⟩
    · rw [node?_put, if_pos rfl]
    · rw [node?_put, if_neg hq]
  · rw [h]
    exact ⟨d, rfl, h, fun _ _ => rfl⟩

/-- The folder of the journal is made where there is room for it. -/
theorem makeFolder_meta (hroot : d.node? [] = none ∨ d.node? [] = some .folder)
    (hmeta : d.node? ["meta"] = none ∨ d.node? ["meta"] = some .folder) :
    ∃ d', d.makeFolder "meta" = .ok d' ∧ d'.HasFolders
      ∧ ∀ q, q ≠ [] → q ≠ ["meta"] → d'.node? q = d.node? q := by
  have hname : IsName "meta" := ⟨by decide, by decide, by decide, by decide⟩
  obtain ⟨d₁, henter₁, hroot₁, hsame₁⟩ := enter_folder .notFolder hroot
  have hmeta₁ : d₁.node? ["meta"] = none ∨ d₁.node? ["meta"] = some .folder := by
    rwa [hsame₁ _ (by decide)]
  obtain ⟨d₂, henter₂, hmeta₂, hsame₂⟩ := enter_folder .taken hmeta₁
  refine ⟨d₂, ?_, ⟨?_, hmeta₂⟩, fun q hq hq' => ?_⟩
  · unfold makeFolder
    rw [hname.pathNames, makeFolders, henter₁]
    simp only [bind, Except.bind]
    rw [if_neg (by decide), if_neg (by decide), List.nil_append, makeFolders, henter₂]
  · rw [hsame₂ _ (by decide), hroot₁]
  · rw [hsame₂ q hq', hsame₁ q hq]

/-- A name leads on from a folder only: back, unless it is the root, or down when it is short
enough. -/
theorem walk_cons_eq_ok {here : Place} {names : List String} :
    d.walk here (name :: names) = .ok q ↔ d.node? here = some .folder
      ∧ if name = ".." then here ≠ [] ∧ d.walk here.dropLast names = .ok q
        else name.utf8ByteSize ≤ nameLimit ∧ d.walk (here ++ [name]) names = .ok q := by
  rw [walk]
  split
  next hnone => simp [hnone]
  next text hfile => simp [hfile]
  next hfolder =>
    rw [hfolder, eq_self, true_and]
    split
    next => split <;> simp_all
    next =>
      split
      next hlong => simp [Nat.not_le.mpr hlong]
      next hshort => simp [Nat.le_of_not_lt hshort]

/-- A name that leads to a place in the root is short enough, and the place is its own. -/
theorem place_root_ok (h : IsName name) (hp : d.place name = .ok p) :
    d.node? [] = some .folder ∧ IsFileName name ∧ p = [name] := by
  unfold place at hp
  rw [if_neg h.head, h.pathNames] at hp
  obtain ⟨hroot, hlast⟩ := walk_cons_eq_ok.mp hp
  rw [if_neg h.notBack] at hlast
  obtain ⟨hshort, hend⟩ := hlast
  cases hend
  exact ⟨hroot, ⟨h, hshort⟩, rfl⟩

/-- A path that leads to a place in the folder of the journal goes through folders, to the place of
its name. -/
theorem place_metaPath_folders (h : IsName name) (hp : d.place (metaPath name) = .ok p) :
    d.HasFolders ∧ p = ["meta", name] := by
  have hhead : (metaPath name).toList.head? ≠ some '/' := by
    rw [h.metaPath_toList]
    simp
  unfold place at hp
  rw [if_neg hhead, h.pathNames_meta] at hp
  obtain ⟨hroot, hdown⟩ := walk_cons_eq_ok.mp hp
  rw [if_neg (by decide)] at hdown
  obtain ⟨hmiddle, hlast⟩ := walk_cons_eq_ok.mp hdown.2
  rw [if_neg h.notBack] at hlast
  obtain ⟨-, hend⟩ := hlast
  cases hend
  exact ⟨⟨hroot, hmiddle⟩, rfl⟩

theorem place_metaPath_ok (h : IsName name) (hp : d.place (metaPath name) = .ok p) :
    p = ["meta", name] :=
  (place_metaPath_folders h hp).2

theorem write_put {path : String} (h : d.write path text = .ok d') :
    ∃ p, d.place path = .ok p ∧ d.node? p ≠ some .folder ∧ d' = d.put p (.file text) := by
  unfold write at h
  cases hp : d.place path with
  | error fault => rw [hp] at h; cases h
  | ok p =>
    rw [hp] at h
    simp only [bind, Except.bind] at h
    split at h
    next => cases h
    next hnode =>
      cases h
      exact ⟨p, rfl, hnode, rfl⟩

theorem write_ok {path : String} (h : d.write path text = .ok d') :
    ∃ p, d.place path = .ok p ∧ d' = d.put p (.file text) := by
  obtain ⟨p, hp, -, hput⟩ := write_put h
  exact ⟨p, hp, hput⟩

/-- A file with a text stands in the root under a name. -/
structure Carries (d : Directory) (name text : String) : Prop where
  fits : IsFileName name
  root : d.node? [] = some .folder
  file : d.node? [name] = some (.file text)

theorem Carries.read (h : d.Carries name text) : d.read name = .ok text :=
  read_file (place_name h.fits h.root) h.file

theorem Carries.of_write (hn : IsName name) (h : d.write name text = .ok d') :
    d'.Carries name text := by
  obtain ⟨p, hp, rfl⟩ := write_ok h
  obtain ⟨hroot, hname, rfl⟩ := place_root_ok hn hp
  refine ⟨hname, ?_, ?_⟩
  · rw [node?_put, if_neg (by simp), hroot]
  · rw [node?_put, if_pos rfl]

/-- Files that are written in the folder of the journal leave those in the root. -/
theorem Carries.writeAll {files : List (String × String)} (h : d.Carries name text)
    (hfiles : ∀ file ∈ files, ∃ inner, IsName inner ∧ file.1 = metaPath inner)
    (hwrite : d.writeAll files = (.ok (), d')) : d'.Carries name text := by
  induction files generalizing d with
  | nil =>
    cases hwrite
    exact h
  | cons file files ih =>
    obtain ⟨path, content⟩ := file
    obtain ⟨⟨inner, hinner, hpath⟩, hrest⟩ := List.forall_mem_cons.mp hfiles
    dsimp only at hpath
    subst hpath
    unfold Directory.writeAll at hwrite
    split at hwrite
    next d₁ hfirst =>
      obtain ⟨p, hp, rfl⟩ := write_ok hfirst
      obtain rfl := place_metaPath_ok hinner hp
      refine ih ⟨h.fits, ?_, ?_⟩ hrest hwrite
      · rw [node?_put, if_neg (by simp), h.root]
      · rw [node?_put, if_neg (by simp), h.file]
    next => cases hwrite

section Kept

variable {path : String} {names : List String} {here : Place}

theorem read_ok (h : d.read path = .ok text) :
    ∃ p, d.place path = .ok p ∧ d.node? p = some (.file text) := by
  obtain ⟨n, hfind, hfile⟩ := bind_eq_ok.mp h
  obtain ⟨p, hp, hnode⟩ := bind_eq_ok.mp hfind
  refine ⟨p, hp, ?_⟩
  cases hn : d.node? p with
  | none => rw [hn] at hnode; cases hnode
  | some m =>
    rw [hn] at hnode
    cases hnode
    cases n with
    | folder => cases hfile
    | file t => cases hfile; rfl

theorem has_of_read (h : d.read path = .ok text) : d.has path = true := by
  obtain ⟨n, hfind, -⟩ := bind_eq_ok.mp h
  rw [has, hfind]
  rfl

theorem node?_of_has (h : d.has path = false) (hp : d.place path = .ok p) : d.node? p = none := by
  cases hn : d.node? p with
  | none => rfl
  | some n =>
    have hfind : d.find path = .ok n := bind_eq_ok.mpr ⟨p, hp, by rw [hn]; rfl⟩
    rw [has, hfind] at h
    cases h

/-- Names lead to where they led when something is put where no folder is, since all that is passed
are folders. -/
theorem walk_put (h : d.walk here names = .ok q) (hp : d.node? p ≠ some .folder) (n : Node) :
    (d.put p n).walk here names = .ok q := by
  induction names generalizing here with
  | nil => exact h
  | cons name names ih =>
    obtain ⟨hhere, hstep⟩ := walk_cons_eq_ok.mp h
    have hother : here ≠ p := by
      rintro rfl
      exact hp hhere
    refine walk_cons_eq_ok.mpr ⟨by rw [node?_put, if_neg hother, hhere], ?_⟩
    by_cases hback : name = ".."
    · rw [if_pos hback] at hstep ⊢
      exact ⟨hstep.1, ih hstep.2⟩
    · rw [if_neg hback] at hstep ⊢
      exact ⟨hstep.1, ih hstep.2⟩

theorem place_put (h : d.place path = .ok q) (hp : d.node? p ≠ some .folder) (n : Node) :
    (d.put p n).place path = .ok q := by
  unfold place at h ⊢
  split at h
  next => cases h
  next hrelative => rw [if_neg hrelative, walk_put h hp]

/-- A file is kept when something is put elsewhere, where no folder is. -/
theorem read_put (h : d.read path = .ok text) (hp : d.node? p ≠ some .folder)
    (hother : d.place path ≠ .ok p) (n : Node) : (d.put p n).read path = .ok text := by
  obtain ⟨q, hq, hfile⟩ := read_ok h
  refine read_file (place_put hq hp n) ?_
  rw [node?_put, if_neg, hfile]
  rintro rfl
  exact hother hq

/-- Names lead to a place of the last one. -/
theorem walk_last (h : d.walk here (names ++ [name]) = .ok q) (hname : name ≠ "..") :
    ∃ front, q = front ++ [name] := by
  induction names generalizing here with
  | nil =>
    obtain ⟨-, hstep⟩ := walk_cons_eq_ok.mp h
    rw [if_neg hname] at hstep
    obtain ⟨-, hend⟩ := hstep
    cases hend
    exact ⟨here, rfl⟩
  | cons first names ih =>
    obtain ⟨-, hstep⟩ := walk_cons_eq_ok.mp h
    split at hstep
    next => exact ih hstep.2
    next => exact ih hstep.2

/-- An ending of at least three characters shows in the place that a path leads to. -/
theorem place_ended {ending : String} (hlong : 2 < ending.toList.length)
    (hunbroken : '/' ∉ ending.toList) (h : d.place (path ++ ending) = .ok q) :
    ∃ front name, q = front ++ [name ++ ending] := by
  obtain ⟨pieces, piece, hsplit⟩ := splitAtEach_ended path.toList hunbroken
  have hlast : String.ofList (piece ++ ending.toList) = String.ofList piece ++ ending := by
    rw [String.ofList_append, String.ofList_toList]
  have hother : ∀ s : String, s.toList.length ≤ 2 → String.ofList piece ++ ending ≠ s := by
    rintro s hs rfl
    rw [String.toList_append, List.length_append] at hs
    omega
  have hnamed : String.ofList piece ++ ending ≠ "" := hother _ (by decide)
  have hnotHere : String.ofList piece ++ ending ≠ "." := hother _ (by decide)
  have hkept : [String.ofList piece ++ ending].filter (fun name => name != "" && name != ".")
      = [String.ofList piece ++ ending] := by
    rw [List.filter_cons_of_pos (by simp only [bne_iff_ne.mpr hnamed, bne_iff_ne.mpr hnotHere,
      Bool.and_self]), List.filter_nil]
  unfold place at h
  split at h
  next => cases h
  next =>
    rw [pathNames, String.toList_append, hsplit, List.map_append, List.map_singleton, hlast,
      List.filter_append, hkept] at h
    obtain ⟨front, hfront⟩ := walk_last h (hother _ (by decide))
    exact ⟨front, _, hfront⟩

theorem HasFolders.makeFolder (h : d.HasFolders) : d.makeFolder "meta" = .ok d := by
  have hname : IsName "meta" := ⟨by decide, by decide, by decide, by decide⟩
  unfold Directory.makeFolder
  rw [hname.pathNames, makeFolders, enter, h.root]
  simp only [bind, Except.bind]
  rw [if_neg (by decide), if_neg (by decide), List.nil_append, makeFolders, enter, h.middle]

theorem hasFolder_root_iff : d.hasFolder "" = true ↔ d.node? [] = some .folder := by
  have hplace : d.place "" = .ok [] := rfl
  rw [hasFolder, find, hplace]
  simp only [bind, Except.bind]
  rcases d.node? [] with _ | _ | _ <;>
    simp [pure, Except.pure, throw, throwThe, MonadExceptOf.throw]

end Kept

end Directory

end Tabularium
