import Tabularium.Gateway.Client
import Tabularium.Gateway.Dispatch

namespace Tabularium

namespace Http

/-- The text stands in a header as it is: it is not empty, it can be read, and no blank is at either
end. -/
structure IsPlain (s : String) : Prop where
  inhabited : s ≠ ""
  readable : isReadable s = true
  trimmed : trimText s = s

variable {name other value : String} {headers : List (String × String)}

theorem isReadable_append (s t : String) :
    isReadable (s ++ t) = (isReadable s && isReadable t) := by
  rw [isReadable, String.toList_append, List.all_append]
  rfl

theorem isSendable_of_isReadable (h : isReadable value = true) : isSendable value = true := by
  rw [isReadable, List.all_eq_true] at h
  rw [isSendable, List.all_eq_true]
  intro c hc
  have hchar := h c hc
  simp only [Bool.or_eq_true, Bool.and_eq_true, decide_eq_true_eq] at hchar ⊢
  exact hchar.imp_right fun hvisible => ⟨hvisible.1, Nat.ne_of_lt hvisible.2⟩

/-- A text without blanks at either end does not start with one. -/
theorem IsPlain.trimStart (h : IsPlain value) : trimStart value.toList = value.toList := by
  have htrim : trim value.toList = value.toList := by
    have := congrArg String.toList h.trimmed
    rwa [trimText, String.toList_ofList] at this
  have hshort : (trim value.toList).length ≤ (Tabularium.trimStart value.toList).length := by
    have hsuffix := List.dropWhile_suffix (l := (Tabularium.trimStart value.toList).reverse) isBlank
    have hle := hsuffix.length_le
    rwa [List.length_reverse, ← List.length_reverse] at hle
  rw [htrim] at hshort
  exact (List.dropWhile_suffix _).eq_of_length_le hshort

theorem header?_here (h : sameIgnoringCase other name = true) :
    header? ((other, value) :: headers) name = some value := by
  rw [header?, List.find?_cons_of_pos (a := (other, value)) h, Option.map_some]

theorem header?_behind (h : sameIgnoringCase other name = false) :
    header? ((other, value) :: headers) name = header? headers name := by
  rw [header?, List.find?_cons_of_neg (a := (other, value)) (by simp [h]), header?]

theorem readable?_eq (h : header? headers name = some value) (hv : isReadable value = true) :
    readable? headers name = some value := by
  rw [readable?, h, Option.filter_some, if_pos hv]

theorem present?_eq (h : header? headers name = some value) (hv : IsPlain value) :
    present? headers name = some value := by
  have hempty : value.isEmpty = false := by
    rw [← Bool.not_eq_true, String.isEmpty_iff]
    exact hv.inhabited
  rw [present?, readable?_eq h hv.readable, Option.filter_some, hempty]
  rfl

end Http

namespace Client

open Http

variable (c : Client) (bookmark : Option String)

theorem header?_authorization :
    header? (c.headers bookmark) Header.authorization = some ("Bearer " ++ c.gatewayKey) :=
  header?_here (by decide)

theorem header?_dbName : header? (c.headers bookmark) Header.dbName = some c.database :=
  (header?_behind (by decide)).trans (header?_here (by decide))

theorem header?_dbToken : header? (c.headers bookmark) Header.dbToken = some c.token :=
  (header?_behind (by decide)).trans <| (header?_behind (by decide)).trans <|
    header?_here (by decide)

theorem header?_contentType :
    header? (c.headers bookmark) Header.contentType = some "application/json" :=
  (header?_behind (by decide)).trans <| (header?_behind (by decide)).trans <|
    (header?_behind (by decide)).trans <| header?_here (by decide)

theorem header?_bookmark : header? (c.headers bookmark) Header.bookmark = bookmark := by
  refine (header?_behind (by decide)).trans <| (header?_behind (by decide)).trans <|
    (header?_behind (by decide)).trans <| (header?_behind (by decide)).trans ?_
  cases bookmark with
  | none => rfl
  | some b => exact header?_here (by decide)

theorem sendsJson :
    ((readable? (c.headers bookmark) Header.contentType).map isJsonMediaType).getD false
      = true := by
  rw [readable?_eq (c.header?_contentType bookmark) (by decide)]
  decide

theorem present?_bookmark {bookmark : Option String} (hb : ∀ b ∈ bookmark, IsPlain b) :
    present? (c.headers bookmark) Header.bookmark = bookmark := by
  have hheader := c.header?_bookmark bookmark
  cases bookmark with
  | none => rw [present?, readable?, hheader]; rfl
  | some b => exact present?_eq hheader (hb b rfl)

end Client

/-- Behind the word for bearers and a space stands the key, whose leading blanks are dropped. -/
theorem Access.bearerKey?_append (key : String) :
    bearerKey? ("Bearer " ++ key) = some (String.ofList (trimStart key.toList)) := by
  have htext : ("Bearer " ++ key).toList = ['B', 'e', 'a', 'r', 'e', 'r', ' '] ++ key.toList := by
    rw [String.toList_append]
    rfl
  rw [bearerKey?, htext]
  have hword : sameIgnoringCase (String.ofList ['B', 'e', 'a', 'r', 'e', 'r']) "bearer" = true := by
    decide
  simp only [List.cons_append, List.nil_append, List.take_succ_cons, List.take_zero,
    List.drop_succ_cons, List.drop_zero, hword, if_true]

theorem Access.bearerKey?_bearer {key : String} (h : trimStart key.toList = key.toList) :
    bearerKey? ("Bearer " ++ key) = some key := by
  rw [bearerKey?_append, h, String.ofList_toList]

end Tabularium
