import Tabularium.Migration.Generate
import Tabularium.Proofs.Characters
import Tabularium.Proofs.Migration.DirectoryAccess
import Tabularium.Proofs.Numeric.Numeral

namespace Tabularium

namespace MigrationBundle

open Directory

variable {idx idx' : UInt32} {name name' : String}

/-- A name that a tag can be made of, short enough for the names of the files of the migration. -/
structure IsUsable (name : String) : Prop where
  nonempty : (slug name).isEmpty = false
  short : (slug name).length ≤ 230

/-- A character that stands in a tag. -/
def IsTagChar (c : Char) : Prop :=
  c.toNat < 128 ∧ c ≠ '/'

instance (c : Char) : Decidable (IsTagChar c) := inferInstanceAs (Decidable (_ ∧ _))

theorem slugChars_plain (cs : List Char) (previous : Char) :
    ∀ c ∈ slugChars previous cs, IsTagChar c := by
  have hletter : ∀ c : Char, c.isAlphanum = true → IsTagChar c.toLower := by
    intro c hc
    have hrange := toLower_range hc
    refine ⟨by omega, fun he => ?_⟩
    rw [he] at hrange
    revert hrange
    decide
  fun_induction slugChars previous cs with
  | case1 => simp
  | case2 previous c cs hc ih =>
    intro d hd
    rcases List.mem_cons.mp hd with rfl | hd
    · exact hletter c hc
    · exact ih d hd
  | case3 c cs _ ih => exact ih
  | case4 previous c cs _ _ ih =>
    intro d hd
    rcases List.mem_cons.mp hd with rfl | hd
    · exact ⟨by decide, by decide⟩
    · exact ih d hd

theorem slug_plain (name : String) : ∀ c ∈ (slug name).toList, IsTagChar c := by
  intro c hc
  unfold slug at hc
  dsimp only at hc
  rw [String.toList_ofList, List.mem_reverse] at hc
  have hm := (List.dropWhile_sublist _).subset hc
  exact slugChars_plain _ _ c (List.mem_reverse.mp hm)

theorem paddedIdx_toList (idx : UInt32) : (paddedIdx idx).toList
    = List.replicate (4 - (Nat.repr idx.toNat).length) '0' ++ Nat.toDigits 10 idx.toNat := by
  unfold paddedIdx
  rw [String.toList_append, String.toList_ofList, Nat.toList_repr]

theorem paddedIdx_digits (idx : UInt32) : ∀ c ∈ (paddedIdx idx).toList, c.isDigit = true := by
  rw [paddedIdx_toList]
  exact (zeros_isDigits _ _).2

theorem paddedIdx_value (idx : UInt32) : digitsValue (paddedIdx idx).toList = idx.toNat := by
  rw [paddedIdx_toList, digitsValue_zeros]

theorem paddedIdx_length (idx : UInt32) : (paddedIdx idx).toList.length ≤ 10 := by
  have hdigits : (Nat.toDigits 10 idx.toNat).length ≤ 10 := by
    have hlt := idx.toNat_lt
    exact (Nat.length_toDigits_le_iff (by omega) (by omega)).mpr (by omega)
  have hrepr : (Nat.repr idx.toNat).length = (Nat.toDigits 10 idx.toNat).length := by
    rw [← String.length_toList, Nat.toList_repr]
  rw [paddedIdx_toList, List.length_append, List.length_replicate, hrepr]
  omega

theorem paddedIdx_head (idx : UInt32) :
    ∃ c cs, (paddedIdx idx).toList = c :: cs ∧ c.isDigit = true := by
  have hne : (paddedIdx idx).toList ≠ [] := by
    rw [paddedIdx_toList]
    simp
  obtain ⟨c, cs, hc⟩ := List.exists_cons_of_ne_nil hne
  exact ⟨c, cs, hc, paddedIdx_digits idx c (hc ▸ List.mem_cons_self)⟩

theorem tagOf_toList (idx : UInt32) (s : String) :
    (tagOf idx s).toList = (paddedIdx idx).toList ++ '_' :: s.toList := by
  unfold tagOf
  rw [String.toList_append, String.toList_append, List.append_assoc]
  rfl

/-- A tag tells the number of its migration. -/
theorem tagOf_inj {s s' : String} (h : tagOf idx s = tagOf idx' s') : idx = idx' := by
  have hspan : ∀ (i : UInt32) (r : String),
      (tagOf i r).toList.takeWhile Char.isDigit = (paddedIdx i).toList := by
    intro i r
    rw [tagOf_toList, List.takeWhile_append_of_pos (paddedIdx_digits i),
      List.takeWhile_cons_of_neg (by decide), List.append_nil]
  have hpadded : (paddedIdx idx).toList = (paddedIdx idx').toList := by
    rw [← hspan idx s, ← hspan idx' s', h]
  rw [← UInt32.toNat_inj, ← paddedIdx_value, ← paddedIdx_value, hpadded]

theorem ascii_size {cs : List Char} (h : ∀ c ∈ cs, c.toNat < 128) :
    (String.ofList cs).utf8ByteSize = cs.length := by
  induction cs with
  | nil => rfl
  | cons c cs ih =>
    have hc : c.utf8Size = 1 := by
      rw [Char.utf8Size_eq_one_iff, UInt32.le_iff_toNat_le, Char.toNat_val]
      have := h c List.mem_cons_self
      exact Nat.le_of_lt_succ this
    rw [String.ofList_cons, String.utf8ByteSize_append, String.utf8ByteSize_singleton, hc,
      ih fun d hd => h d (List.mem_cons_of_mem c hd), List.length_cons, Nat.add_comm]

/-- A tag with an ending makes a name, each of whose characters takes one byte. -/
theorem tag_isName (idx : UInt32) (name ending : String)
    (he : (ending.toList.all fun c => decide (IsTagChar c)) = true)
    (hlong : 2 ≤ ending.toList.length) :
    IsName (tagOf idx (slug name) ++ ending) ∧
      (tagOf idx (slug name) ++ ending).utf8ByteSize
        = (tagOf idx (slug name)).toList.length + ending.toList.length := by
  have hchars : ∀ c ∈ (tagOf idx (slug name) ++ ending).toList, IsTagChar c := by
    intro c hc
    rw [String.toList_append, tagOf_toList, List.append_assoc, List.cons_append] at hc
    rcases List.mem_append.mp hc with hc | hc
    · have hrange := Char.isDigit_iff_toNat.mp (paddedIdx_digits idx c hc)
      have h0 : '0'.toNat = 48 := rfl
      have h9 : '9'.toNat = 57 := rfl
      refine ⟨by omega, ?_⟩
      rintro rfl
      revert hrange
      decide
    · rcases List.mem_cons.mp hc with rfl | hc
      · exact ⟨by decide, by decide⟩
      · rcases List.mem_append.mp hc with hc | hc
        · exact slug_plain name c hc
        · exact decide_eq_true_iff.mp (List.all_eq_true.mp he c hc)
  have hsize : (tagOf idx (slug name) ++ ending).toList.length
      = (tagOf idx (slug name)).toList.length + ending.toList.length := by
    rw [String.toList_append, List.length_append]
  have htag : 1 ≤ (tagOf idx (slug name)).toList.length := by
    rw [tagOf_toList, List.length_append, List.length_cons]
    omega
  have hne : ∀ s : String, s.toList.length ≤ 2 → tagOf idx (slug name) ++ ending ≠ s := by
    rintro s hs rfl
    omega
  have hbytes := ascii_size fun c hc => (hchars c hc).1
  rw [String.ofList_toList, hsize] at hbytes
  exact ⟨⟨fun hm => (hchars _ hm).2 rfl, hne _ (by decide), hne _ (by decide), hne _ (by decide)⟩,
    hbytes⟩

/-- The name of the file of the schema that a migration leads to. -/
def snapshotName (tag : String) : String := tag ++ "_snapshot.json"

theorem scriptPath_isName (idx : UInt32) (name : String) :
    IsName (scriptPath (tagOf idx (slug name))) ∧
      (scriptPath (tagOf idx (slug name))).utf8ByteSize
        = (tagOf idx (slug name)).toList.length + 4 :=
  tag_isName idx name ".sql" (by decide) (by decide)

theorem snapshotName_isName (idx : UInt32) (name : String) :
    IsName (snapshotName (tagOf idx (slug name))) ∧
      (snapshotName (tagOf idx (slug name))).utf8ByteSize
        = (tagOf idx (slug name)).toList.length + 14 :=
  tag_isName idx name "_snapshot.json" (by decide) (by decide)

/-- There is room for the names of the files of a migration, the longest of which is the one of its
schema. -/
def HasRoom (idx : UInt32) (name : String) : Prop :=
  (snapshotName (tagOf idx (slug name))).utf8ByteSize ≤ nameLimit

theorem IsUsable.hasRoom (h : IsUsable name) (idx : UInt32) : HasRoom idx name := by
  have hsize := (snapshotName_isName idx name).2
  have hpadded := paddedIdx_length idx
  have hslug := h.short
  rw [← String.length_toList] at hslug
  have htag : (tagOf idx (slug name)).toList.length
      = (paddedIdx idx).toList.length + 1 + (slug name).toList.length := by
    rw [tagOf_toList, List.length_append, List.length_cons]
    omega
  unfold HasRoom nameLimit
  omega

theorem HasRoom.script (h : HasRoom idx name) :
    IsFileName (scriptPath (tagOf idx (slug name))) := by
  obtain ⟨hname, hsize⟩ := scriptPath_isName idx name
  have hlonger := (snapshotName_isName idx name).2
  unfold HasRoom at h
  exact ⟨hname, by omega⟩

theorem HasRoom.snapshot (h : HasRoom idx name) :
    IsFileName (snapshotName (tagOf idx (slug name))) :=
  ⟨(snapshotName_isName idx name).1, h⟩

theorem snapshotPath_eq (tag : String) : snapshotPath tag = metaPath (snapshotName tag) := rfl

theorem append_right_inj {a b ending : String} (h : a ++ ending = b ++ ending) : a = b := by
  have hlist := congrArg String.toList h
  rw [String.toList_append, String.toList_append] at hlist
  exact String.toList_inj.mp (List.append_cancel_right hlist)

def journalName : String := "_journal.json"

theorem journalName_isFileName : IsFileName journalName :=
  ⟨⟨by decide, by decide, by decide, by decide⟩, by decide⟩

theorem journalPath_eq : journalPath = metaPath journalName := by decide

theorem tag_ne {text : String} (h : text.toList.head?.any Char.isDigit = false) (idx : UInt32)
    (s ending : String) : tagOf idx s ++ ending ≠ text := by
  intro he
  obtain ⟨c, cs, hc, hd⟩ := paddedIdx_head idx
  have hhead : text.toList.head? = some c := by
    rw [← he, String.toList_append, tagOf_toList, hc]
    rfl
  rw [hhead, Option.any_some, hd] at h
  cases h

theorem snapshotName_ne_journal (idx : UInt32) (s : String) :
    snapshotName (tagOf idx s) ≠ journalName :=
  tag_ne (by decide) idx s _

theorem scriptPath_ne_meta (idx : UInt32) (s : String) : scriptPath (tagOf idx s) ≠ "meta" :=
  tag_ne (by decide) idx s _

end MigrationBundle

end Tabularium
