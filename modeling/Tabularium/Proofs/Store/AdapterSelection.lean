import Mathlib.Data.List.Nodup
import Tabularium.Proofs.OrderedMap
import Tabularium.Proofs.Text.Pieces
import Tabularium.Store.Binding

namespace Tabularium

namespace Endpoint

variable {e : Endpoint}

/-- The address of the gateway starts with one of two protocols, and more than slashes stands behind
it. -/
def IsAbsolute (e : Endpoint) : Prop :=
  ∃ protocol ∈ ["http://", "https://"], ∃ rest,
    e.baseUrl.toList = protocol.toList ++ rest ∧ ∃ c ∈ rest, c ≠ '/'

theorem protocol_prefix_iff (protocol cs : List Char)
    (short : (protocol.rdropWhile (· == '/')).length < protocol.length) :
    protocol <+: cs.rdropWhile (· == '/')
      ↔ ∃ rest, cs = protocol ++ rest ∧ ∃ c ∈ rest, c ≠ '/' := by
  constructor
  · intro h
    obtain ⟨rest, hrest⟩ := h.trans (List.rdropWhile_prefix (· == '/') cs)
    refine ⟨rest, hrest.symm, ?_⟩
    by_contra hslashes
    have hnone : rest.rdropWhile (· == '/') = [] := by
      refine List.rdropWhile_eq_nil_iff.mpr fun c hc => beq_iff_eq.mpr ?_
      by_contra hother
      exact hslashes ⟨c, hc, hother⟩
    rw [← hrest, rdropWhile_append, if_pos hnone] at h
    exact absurd h.length_le (Nat.not_le.mpr short)
  · rintro ⟨rest, rfl, c, hc, hother⟩
    have hsome : rest.rdropWhile (· == '/') ≠ [] := fun hnone =>
      hother (beq_iff_eq.mp (List.rdropWhile_eq_nil_iff.mp hnone c hc))
    rw [rdropWhile_append, if_neg hsome]
    exact List.prefix_append _ _

/-- The address is kept when it is absolute, and refused as it was given otherwise. -/
theorem address_cases (e : Endpoint) :
    (e.IsAbsolute ∧ ∃ address, e.address = .ok address)
      ∨ ¬ e.IsAbsolute ∧ e.address = .error (.invalidGatewayUrl e.baseUrl) := by
  have hplain := protocol_prefix_iff "http://".toList e.baseUrl.toList (by decide)
  have hsecure := protocol_prefix_iff "https://".toList e.baseUrl.toList (by decide)
  have habsolute : e.IsAbsolute ↔ "http://".toList <+: e.baseUrl.toList.rdropWhile (· == '/')
      ∨ "https://".toList <+: e.baseUrl.toList.rdropWhile (· == '/') := by
    rw [hplain, hsecure, IsAbsolute]
    simp
  rw [habsolute, address]
  split
  next h =>
    rw [Bool.or_eq_true, List.isPrefixOf_iff_prefix, List.isPrefixOf_iff_prefix] at h
    exact .inl ⟨h, _, rfl⟩
  next h =>
    rw [Bool.or_eq_true, List.isPrefixOf_iff_prefix, List.isPrefixOf_iff_prefix] at h
    exact .inr ⟨h, rfl⟩

end Endpoint

namespace Bindings

variable {b : Bindings} {database : String} {outcome : Except ConfigError Transport}

/-- The database is bound neither within the program nor at an actor. -/
def Remote (b : Bindings) (database : String) : Prop :=
  database ∉ b.embedded ∧ database ∉ b.actors

/-- How the store of a database is reached by what the bindings say of it, or why it is not. -/
inductive Decides (b : Bindings) (database : String) : Except ConfigError Transport → Prop
  | embedded (bound : database ∈ b.embedded) : Decides b database (.ok .embedded)
  | actor (unbound : database ∉ b.embedded) (bound : database ∈ b.actors) :
    Decides b database (.ok .actor)
  | noBinding (remote : b.Remote database) (absent : b.gateway = none) :
    Decides b database (.error (.noBinding database))
  | missingToken {e : Endpoint} (remote : b.Remote database) (present : b.gateway = some e)
    (untold : e.dbTokens.get? database = none) :
    Decides b database (.error (.missingToken database))
  | invalidGatewayUrl {e : Endpoint} {token : String} (remote : b.Remote database)
    (present : b.gateway = some e) (told : e.dbTokens.get? database = some token)
    (relative : ¬ e.IsAbsolute) : Decides b database (.error (.invalidGatewayUrl e.baseUrl))
  | http {e : Endpoint} {token : String} (remote : b.Remote database)
    (present : b.gateway = some e) (told : e.dbTokens.get? database = some token)
    (absolute : e.IsAbsolute) : Decides b database (.ok .http)

theorem decides_select (b : Bindings) (database : String) :
    b.Decides database (b.select database) := by
  unfold select
  split
  next h => exact .embedded (List.contains_iff_mem.mp h)
  next h =>
    have hunbound : database ∉ b.embedded := fun hm => h (List.contains_iff_mem.mpr hm)
    split
    next h => exact .actor hunbound (List.contains_iff_mem.mp h)
    next h =>
      have hremote : b.Remote database :=
        ⟨hunbound, fun hm => h (List.contains_iff_mem.mpr hm)⟩
      split
      next habsent => exact .noBinding hremote habsent
      next e hpresent =>
        split
        next huntold => exact .missingToken hremote hpresent huntold
        next token htold =>
          rcases e.address_cases with ⟨habsolute, address, haddress⟩ | ⟨hrelative, haddress⟩
          · rw [haddress]
            exact .http hremote hpresent htold habsolute
          · rw [haddress]
            exact .invalidGatewayUrl hremote hpresent htold hrelative

theorem Decides.unique {outcome' : Except ConfigError Transport}
    (h : b.Decides database outcome) (h' : b.Decides database outcome') : outcome = outcome' := by
  cases h <;> cases h' <;> grind [Remote]

theorem decides_iff : b.Decides database outcome ↔ b.select database = outcome := by
  constructor
  · exact fun h => (b.decides_select database).unique h
  · rintro rfl
    exact b.decides_select database

end Bindings

namespace AdapterFactory

variable {f : AdapterFactory} {name : String} {a : Adapter} {e : ConfigError}

/-- What a request for a store does: it is answered from before, refused, or answered with a store
that is remembered under the next number. -/
theorem adapterFor_cases (f : AdapterFactory) (name : String) :
    (∃ a, f.adapters.get? name = some a ∧ f.adapterFor name = (.ok a, f))
    ∨ (∃ e, f.adapters.get? name = none ∧ f.bindings.select name = .error e
      ∧ f.adapterFor name = (.error e, f))
    ∨ ∃ transport, f.adapters.get? name = none ∧ f.bindings.select name = .ok transport
      ∧ f.adapterFor name = (.ok ⟨f.adapters.entries.length, transport⟩,
        { f with adapters := f.adapters.insert name ⟨f.adapters.entries.length, transport⟩ }) := by
  unfold adapterFor
  cases hknown : f.adapters.get? name with
  | some a => exact .inl ⟨a, rfl, rfl⟩
  | none =>
    dsimp only
    cases hselect : f.bindings.select name with
    | error e => exact .inr (.inl ⟨e, rfl, rfl, rfl⟩)
    | ok transport => exact .inr (.inr ⟨transport, rfl, rfl, rfl⟩)

/-- The stores that were reached are those that the bindings decide on, numbered one after the
other. -/
structure Kept (f : AdapterFactory) : Prop where
  chosen : ∀ name a, f.adapters.get? name = some a → f.bindings.select name = .ok a.transport
  numbered : f.adapters.entries.map (·.2.serial) = List.range f.adapters.entries.length

theorem kept_new (b : Bindings) : Kept { bindings := b } :=
  ⟨fun _ _ h => (nomatch h), rfl⟩

theorem adapterFor_bindings (f : AdapterFactory) (name : String) :
    (f.adapterFor name).2.bindings = f.bindings := by
  rcases f.adapterFor_cases name with ⟨a, -, h⟩ | ⟨e, -, -, h⟩ | ⟨transport, -, -, h⟩ <;> rw [h]

theorem adapterFor_error (h : (f.adapterFor name).1 = .error e) : (f.adapterFor name).2 = f := by
  rcases f.adapterFor_cases name with ⟨a, -, heq⟩ | ⟨e', -, -, heq⟩ | ⟨transport, -, -, heq⟩
  · rw [heq]
  · rw [heq]
  · rw [heq] at h
    cases h

/-- A store that was reached before stays the one for its database. -/
theorem adapterFor_remembers {known : String} (h : f.adapters.get? known = some a) :
    (f.adapterFor name).2.adapters.get? known = some a := by
  rcases f.adapterFor_cases name with ⟨a', -, heq⟩ | ⟨e, -, -, heq⟩ | ⟨transport, hnew, -, heq⟩
  · rw [heq, h]
  · rw [heq, h]
  · have hother : name ≠ known := by
      rintro rfl
      rw [hnew] at h
      cases h
    rw [heq, OrderedMap.get?_insert, if_neg hother, h]

theorem adapterFor_known (h : (f.adapterFor name).1 = .ok a) :
    (f.adapterFor name).2.adapters.get? name = some a := by
  rcases f.adapterFor_cases name with ⟨a', hknown, heq⟩ | ⟨e, -, -, heq⟩ | ⟨transport, -, -, heq⟩
  · rw [heq] at h ⊢
    rw [hknown, Except.ok.inj h]
  · rw [heq] at h
    cases h
  · rw [heq] at h ⊢
    rw [OrderedMap.get?_insert, if_pos rfl, Except.ok.inj h]

namespace Kept

/-- A request is answered as the bindings decide. -/
theorem answer_eq (h : f.Kept) (name : String) :
    (f.adapterFor name).1.map Adapter.transport = f.bindings.select name := by
  rcases f.adapterFor_cases name with ⟨a, hknown, heq⟩ | ⟨e, -, hselect, heq⟩
    | ⟨transport, -, hselect, heq⟩
  · rw [heq, h.chosen name a hknown]
    rfl
  · rw [heq, hselect]
    rfl
  · rw [heq, hselect]
    rfl

theorem step (h : f.Kept) (name : String) : (f.adapterFor name).2.Kept := by
  rcases f.adapterFor_cases name with ⟨a, -, heq⟩ | ⟨e, -, -, heq⟩ | ⟨transport, hnew, hselect, heq⟩
  · rwa [heq]
  · rwa [heq]
  · have hentries : (f.adapters.insert name ⟨f.adapters.entries.length, transport⟩).entries
        = f.adapters.entries ++ [(name, ⟨f.adapters.entries.length, transport⟩)] :=
      OrderedMap.insert_entries_new (OrderedMap.get?_eq_none.mp hnew)
    rw [heq]
    refine ⟨fun known a hknown => ?_, ?_⟩
    · rw [OrderedMap.get?_insert] at hknown
      split at hknown
      next hsame =>
        subst hsame
        rw [hselect, ← Option.some.inj hknown]
      next => exact h.chosen known a hknown
    · dsimp only
      rw [hentries, List.map_append, h.numbered, List.length_append, List.length_singleton,
        List.range_succ]
      rfl

end Kept

/-- The answers to requests for stores that are made one after the other. -/
def answers (f : AdapterFactory) : List String → List (Except ConfigError Adapter)
  | [] => []
  | name :: names => (f.adapterFor name).1 :: answers (f.adapterFor name).2 names

/-- The factory after requests that are made one after the other. -/
def after (f : AdapterFactory) : List String → AdapterFactory
  | [] => f
  | name :: names => after (f.adapterFor name).2 names

theorem after_remembers {names : List String} (h : f.adapters.get? name = some a) :
    (f.after names).adapters.get? name = some a := by
  induction names generalizing f with
  | nil => exact h
  | cons first names ih => exact ih (adapterFor_remembers h)

/-- The store that a request was answered with is the one for its database in the end. -/
theorem after_answered {names : List String} (h : (name, .ok a) ∈ names.zip (f.answers names)) :
    (f.after names).adapters.get? name = some a := by
  induction names generalizing f with
  | nil => cases h
  | cons first names ih =>
    rw [answers, List.zip_cons_cons] at h
    rcases List.mem_cons.mp h with hfirst | hrest
    · obtain ⟨rfl, hanswer⟩ := Prod.mk.inj hfirst
      rw [after]
      exact after_remembers (adapterFor_known hanswer.symm)
    · exact ih hrest

/-- Without a request that is refused, the others are answered as they are with it. -/
theorem answers_eraseIdx {names : List String} {i : Nat}
    (h : (f.answers names)[i]? = some (.error e)) :
    f.answers (names.eraseIdx i) = (f.answers names).eraseIdx i := by
  induction names generalizing f i with
  | nil => cases h
  | cons first names ih =>
    cases i with
    | zero =>
      have hrefused : (f.adapterFor first).1 = .error e := by simpa [answers] using h
      rw [List.eraseIdx_cons_zero, answers, List.eraseIdx_cons_zero, adapterFor_error hrefused]
    | succ i =>
      rw [answers, List.getElem?_cons_succ] at h
      rw [List.eraseIdx_cons_succ, answers, answers, List.eraseIdx_cons_succ, ih h]

namespace Kept

theorem run (h : f.Kept) (names : List String) : (f.after names).Kept := by
  induction names generalizing f with
  | nil => exact h
  | cons first names ih => exact ih (h.step first)

theorem answers_decided (h : f.Kept) (names : List String) :
    List.Forall₂ (fun name answer => f.bindings.Decides name (answer.map Adapter.transport)) names
      (f.answers names) := by
  induction names generalizing f with
  | nil => exact .nil
  | cons first names ih =>
    have hrest := ih (h.step first)
    rw [adapterFor_bindings] at hrest
    exact .cons (h.answer_eq first ▸ f.bindings.decides_select first) hrest

/-- The numbers of the stores tell their databases. -/
theorem serial_inj (h : f.Kept) {name' : String} {a' : Adapter}
    (hknown : f.adapters.get? name = some a) (hknown' : f.adapters.get? name' = some a')
    (hsame : a.serial = a'.serial) : name = name' := by
  have hnodup : (f.adapters.entries.map (·.2.serial)).Nodup := by
    rw [h.numbered]
    exact List.nodup_range
  have hentry := List.inj_on_of_nodup_map hnodup (OrderedMap.mem_of_get? hknown)
    (OrderedMap.mem_of_get? hknown') hsame
  exact congrArg Prod.fst hentry

end Kept

/-- Requests for stores are answered by what the bindings say of each database, whatever was asked
before. The answers for one database are one store and those for others are others, and a request
that is refused leaves no trace. -/
structure Independent (b : Bindings) (names : List String) : Prop where
  decided : List.Forall₂ (fun name answer => b.Decides name (answer.map Adapter.transport)) names
    (answers { bindings := b } names)
  shared : ∀ name a a', (name, .ok a) ∈ names.zip (answers { bindings := b } names) →
    (name, .ok a') ∈ names.zip (answers { bindings := b } names) → a = a'
  apart : ∀ name name' a a', (name, .ok a) ∈ names.zip (answers { bindings := b } names) →
    (name', .ok a') ∈ names.zip (answers { bindings := b } names) → name ≠ name' →
    a.serial ≠ a'.serial
  traceless : ∀ i e, (answers { bindings := b } names)[i]? = some (.error e) →
    answers { bindings := b } (names.eraseIdx i) = (answers { bindings := b } names).eraseIdx i

/-- Whatever is asked for and in whatever order, the bindings alone decide on each answer, and they
decide on one. -/
theorem answers_independent (b : Bindings) (names : List String) :
    Independent b names ∧ ∀ name, ∃! outcome, b.Decides name outcome := by
  have hkept : Kept { bindings := b } := kept_new b
  refine ⟨⟨hkept.answers_decided names, fun name a a' h h' => ?_, fun name name' a a' h h' => ?_,
    fun i e => answers_eraseIdx⟩, fun name => ?_⟩
  · have hsame := (after_answered h).symm.trans (after_answered h')
    exact Option.some.inj hsame
  · exact mt ((hkept.run names).serial_inj (after_answered h) (after_answered h'))
  · exact ⟨b.select name, b.decides_select name, fun outcome h => (Bindings.decides_iff.mp h).symm⟩

end AdapterFactory

end Tabularium
