import Tabularium.Gateway.Token
import Tabularium.Proofs.Numeric.IntegerText
import Tabularium.Proofs.Text.Base64Coding
import Tabularium.Proofs.Text.Pieces

namespace Tabularium

namespace Token

variable {mac : KeyedDigest} {database token secret random : String} {expiry : Int}
  {now : Instant} {claims : Claims} {sign : String} {parts : List String}

/-- A text with its signature behind it. -/
def sealed (mac : KeyedDigest) (secret text : String) : String :=
  text ++ "." ++ String.ofList (Base64.encode (signature mac secret text))

theorem ofMillis?_eq_some {millis : Int} {expires : Instant}
    (h : Instant.ofMillis? millis = some expires) : expires.millis = millis := by
  rw [Instant.ofMillis?] at h
  split at h
  · cases h
    rfl
  · cases h

theorem encode_undotted (bytes : List UInt8) : '.' ∉ Base64.encode bytes :=
  fun h => absurd (Base64.mem_encode h) (by decide)

theorem repr_undotted (n : Int) : '.' ∉ (Int.repr n).toList :=
  fun h => absurd (mem_repr h) (by decide)

theorem separated_segments (token : String) : separated "." (segments token) = token := by
  have hjoined := separated_splitAtEach '.' token.toList
  rw [String.ofList_toList] at hjoined
  exact hjoined

theorem segments_undotted (h : segments token = parts) : ∀ part ∈ parts, '.' ∉ part.toList := by
  subst h
  intro part hpart
  obtain ⟨piece, hpiece, rfl⟩ := List.mem_map.mp hpart
  rw [String.toList_ofList]
  exact not_mem_of_mem_splitAtEach hpiece

theorem segments_self (h : '.' ∉ sign.toList) : segments sign = [sign] := by
  rw [segments, splitAtEach_self h, List.map_singleton, String.ofList_toList]

theorem segments_length (sign : String) : (segments sign).length = sign.toList.count '.' + 1 := by
  rw [segments, List.length_map, splitAtEach_length]

/-- Undotted texts in front of any text are its first segments. -/
theorem segments_separated (h : ∀ part ∈ parts, '.' ∉ part.toList) (sign : String) :
    segments (separated "." (parts ++ [sign])) = parts ++ segments sign := by
  induction parts with
  | nil => rfl
  | cons part parts ih =>
    rw [List.forall_mem_cons] at h
    obtain ⟨next, rest, hrest⟩ : ∃ next rest, parts ++ [sign] = next :: rest :=
      List.exists_cons_of_ne_nil (by simp)
    have hpoint : ".".toList = ['.'] := rfl
    have hback := ih h.2
    rw [hrest] at hback
    rw [List.cons_append, hrest, separated, segments, String.toList_append, String.toList_append,
      hpoint, List.append_assoc, List.singleton_append, splitAtEach_append h.1, List.map_cons,
      String.ofList_toList, List.cons_append, ← hback]
    rfl

theorem segments_parts (hne : parts ≠ []) (h : ∀ part ∈ parts, '.' ∉ part.toList) :
    segments (separated "." parts) = parts := by
  obtain rfl | ⟨front, last, rfl⟩ := List.eq_nil_or_concat' parts
  · exact absurd rfl hne
  · rw [List.forall_mem_append] at h
    rw [segments_separated h.1, segments_self (h.2 last (List.mem_singleton_self last))]

theorem payload_separated (database random : String) (expiry : Int) :
    payload database random expiry = separated "." [database, random, Int.repr expiry] := by
  simp only [payload, separated, String.append_assoc]

theorem sealed_separated (mac : KeyedDigest) (database random secret : String) (expiry : Int) :
    sealed mac secret (payload database random expiry)
      = separated "." [database, random, Int.repr expiry, String.ofList
          (Base64.encode (signature mac secret (payload database random expiry)))] := by
  rw [sealed]
  generalize String.ofList (Base64.encode _) = sign
  simp only [payload, separated, String.append_assoc]

theorem segments_sealed (hdatabase : '.' ∉ database.toList) (hrandom : '.' ∉ random.toList) :
    segments (sealed mac secret (payload database random expiry))
      = [database, random, Int.repr expiry, String.ofList
          (Base64.encode (signature mac secret (payload database random expiry)))] := by
  rw [sealed_separated]
  refine segments_parts (by simp) ?_
  simp only [List.forall_mem_cons, List.not_mem_nil, false_implies, implies_true, and_true,
    String.toList_ofList]
  exact ⟨hdatabase, hrandom, repr_undotted expiry, encode_undotted _⟩

theorem validateAt_keyed (hsecret : secret ≠ "") : validateAt mac database token secret now
    = (validateSegments mac database secret now (segments token)).mapError .rejected := by
  have hkeyed : secret.isEmpty = false := String.isEmpty_eq_false_iff.mpr hsecret
  rw [validateAt, hkeyed, if_neg Bool.false_ne_true]

/-- What the expiry of a token with a good signature decides, in the order of the checks. -/
theorem validateAt_sealed (hsecret : secret ≠ "") (hdatabase : '.' ∉ database.toList)
    (hrandom : '.' ∉ random.toList) (hlow : -(Int.pow 2 63) ≤ expiry)
    (hhigh : expiry < Int.pow 2 63) (name : String) (clock : Instant) :
    validateAt mac name (sealed mac secret (payload database random expiry)) secret clock
      = if database ≠ name then .error (.rejected .dbMismatch)
        else
          match Instant.ofMillis? expiry with
          | none => .error (.rejected .malformed)
          | some expires =>
            if expires.millis ≤ clock.millis then .error (.rejected .expired)
            else .ok ⟨database, expires⟩ := by
  obtain ⟨hword, hvalue⟩ := int64?_eq hlow hhigh
  rw [validateAt_keyed hsecret, segments_sealed hdatabase hrandom, validateSegments,
    readInteger?_repr, Option.bind_some, hword]
  dsimp only
  rw [hvalue]
  by_cases hname : database = name
  · rw [if_neg (not_not_intro hname), if_neg (not_not_intro hname)]
    cases hinstant : Instant.ofMillis? expiry with
    | none => rfl
    | some expires =>
      have hmillis : expires.millis = expiry := ofMillis?_eq_some hinstant
      dsimp only
      rw [hmillis, String.toList_ofList, Base64.decode_encode, if_pos rfl]
      split <;> rfl
  · rw [if_pos hname, if_pos hname]
    rfl

/-- What an accepted token is made of. -/
theorem validateSegments_ok {parts : List String}
    (h : validateSegments mac database secret now parts = .ok claims) :
    ∃ random expiry sign, parts = [database, random, expiry, sign]
      ∧ ((readInteger? expiry.toList).bind int64?).map (·.toInt) = some claims.expires.millis
      ∧ now.millis < claims.expires.millis
      ∧ Base64.decode sign.toList
        = some (signature mac secret (payload database random claims.expires.millis))
      ∧ claims.database = database := by
  fun_cases validateSegments mac database secret now parts
  case case5 name random expiry sign hname n hread expires hinstant hlive hsigned =>
    obtain rfl : name = database := not_not.mp hname
    have hclaims : claims = ⟨name, expires⟩ := by grind [validateSegments]
    subst hclaims
    refine ⟨random, expiry, sign, rfl, ?_, Int.not_le.mp hlive, hsigned, rfl⟩
    rw [hread, Option.map_some, ofMillis?_eq_some hinstant]
  all_goals grind [validateSegments]

theorem validateAt_ok (h : validateAt mac database token secret now = .ok claims) :
    secret ≠ "" ∧ validateSegments mac database secret now (segments token) = .ok claims := by
  rw [validateAt] at h
  split at h
  next => cases h
  next hsecret =>
    refine ⟨fun hempty => hsecret (String.isEmpty_iff.mpr hempty), ?_⟩
    cases hsegments : validateSegments mac database secret now (segments token) with
    | error rejection =>
      rw [hsegments] at h
      cases h
    | ok granted =>
      rw [hsegments] at h
      cases h
      rfl

theorem pow_word : Int.pow 2 63 = 9223372036854775808 := rfl

theorem instant_word (t : Instant) : -(Int.pow 2 63) ≤ t.millis ∧ t.millis < Int.pow 2 63 := by
  have hrange := t.inRange
  rw [pow_word]
  omega

/-- When the expiry is still to come, the signature decides. -/
theorem validateSegments_spelled {random expiry : String} {expires : Instant}
    (hspelled : IntegerSpelling expires.millis expiry.toList)
    (hlive : now.millis < expires.millis) :
    validateSegments mac database secret now [database, random, expiry, sign]
      = if Base64.decode sign.toList
          = some (signature mac secret (payload database random expires.millis)) then
          .ok ⟨database, expires⟩
        else .error .badSignature := by
  obtain ⟨hlow, hhigh⟩ := instant_word expires
  obtain ⟨hword, hvalue⟩ := int64?_eq hlow hhigh
  have hinstant : Instant.ofMillis? expires.millis = some expires := dif_pos expires.inRange
  rw [validateSegments, if_neg (not_not_intro rfl), readInteger?_eq_some_iff.mpr hspelled,
    Option.bind_some, hword]
  dsimp only
  rw [hvalue, hinstant]
  dsimp only
  rw [if_neg (Int.not_le.mpr hlive)]

theorem validateSegments_length_ne (hlength : parts.length ≠ 4) :
    validateSegments mac database secret now parts = .error .malformed := by
  unfold validateSegments
  split
  next => exact absurd rfl hlength
  next => rfl

/-- A token is accepted exactly when it has four segments, names the database, spells an expiry
that is still to come, and has the signature of what it says. -/
theorem validateAt_eq_ok_iff : validateAt mac database token secret now = .ok claims ↔
    secret ≠ "" ∧ claims.database = database ∧ now.millis < claims.expires.millis
      ∧ ∃ random expiry sign, segments token = [database, random, expiry, sign]
        ∧ IntegerSpelling claims.expires.millis expiry.toList
        ∧ Base64.decode sign.toList
          = some (signature mac secret (payload database random claims.expires.millis)) := by
  constructor
  · intro h
    obtain ⟨hsecret, hsegments⟩ := validateAt_ok h
    obtain ⟨random, expiry, sign, hparts, hread, hlive, hsigned, hdatabase⟩ :=
      validateSegments_ok hsegments
    refine ⟨hsecret, hdatabase, hlive, random, expiry, sign, hparts, ?_, hsigned⟩
    obtain ⟨word, hword, hvalue⟩ := Option.map_eq_some_iff.mp hread
    obtain ⟨n, hn, hrange⟩ := Option.bind_eq_some_iff.mp hword
    unfold int64? at hrange
    split at hrange
    next hbounds =>
      have hvalue' := (int64?_eq hbounds.1 hbounds.2).2
      cases hrange
      rw [← hvalue, hvalue']
      exact readInteger?_eq_some_iff.mp hn
    next => cases hrange
  · rintro ⟨hsecret, hdatabase, hlive, random, expiry, sign, hparts, hspelled, hsigned⟩
    rw [validateAt_keyed hsecret, hparts, validateSegments_spelled hspelled hlive, if_pos hsigned,
      ← hdatabase]
    rfl

theorem validateAt_database (h : validateAt mac database token secret now = .ok claims) :
    claims.database = database := by
  obtain ⟨-, -, -, -, -, -, -, hdatabase⟩ := validateSegments_ok (validateAt_ok h).2
  exact hdatabase

end Token

end Tabularium
