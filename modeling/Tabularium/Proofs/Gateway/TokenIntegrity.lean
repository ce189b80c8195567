import Tabularium.Proofs.Gateway.TokenLifetime

namespace Tabularium

namespace Token

variable {mac : KeyedDigest} {database token token' secret : String} {clock : Instant}
  {claims : Claims}

/-- A token with another text in the place of its last segment, the signature. -/
def resealed (token sign : String) : String :=
  separated "." ((segments token).dropLast ++ [sign])

theorem resealed_self {sign : String} (h : (segments token).getLast? = some sign) :
    resealed token sign = token := by
  rw [resealed, List.dropLast_append_getLast? _ h, separated_segments]

/-- An accepted token is accepted with its own signature only. With another text in its place it is
malformed when the text has a point, and badly signed when it has none. -/
theorem validateAt_resealed (haccepted : validateAt mac database token secret clock = .ok claims)
    (sign : String) : validateAt mac database (resealed token sign) secret clock
      = if (segments token).getLast? = some sign then .ok claims
        else if '.' ∈ sign.toList then .error (.rejected .malformed)
        else .error (.rejected .badSignature) := by
  obtain ⟨hsecret, -, hlive, random, expiry, own, hparts, hspelled, hsigned⟩ :=
    validateAt_eq_ok_iff.mp haccepted
  by_cases hlast : (segments token).getLast? = some sign
  · rw [resealed_self hlast, if_pos hlast, haccepted]
  have hother : own ≠ sign := by
    rintro rfl
    rw [hparts] at hlast
    exact hlast rfl
  have hfront : ∀ part ∈ [database, random, expiry], '.' ∉ part.toList :=
    fun part hpart => segments_undotted hparts part (List.mem_append_left [own] hpart)
  have hresealed : segments (resealed token sign)
      = [database, random, expiry] ++ segments sign := by
    rw [resealed, hparts]
    exact segments_separated hfront sign
  rw [if_neg hlast, validateAt_keyed hsecret, hresealed]
  by_cases hpoint : '.' ∈ sign.toList
  · have hcount : 0 < sign.toList.count '.' := List.count_pos_iff.mpr hpoint
    have hlength : ([database, random, expiry] ++ segments sign).length ≠ 4 := by
      rw [List.length_append, segments_length]
      have hthree : [database, random, expiry].length = 3 := rfl
      omega
    rw [validateSegments_length_ne hlength, if_pos hpoint]
    rfl
  · -- Two texts for the same bytes are the same text.
    have hbad : ¬ Base64.decode sign.toList
        = some (signature mac secret (payload database random claims.expires.millis)) := by
      intro hdecoded
      have hletters : own.toList = sign.toList := by
        rw [← Base64.encode_decode hsigned, ← Base64.encode_decode hdecoded]
      exact hother (String.toList_inj.mp hletters)
    rw [segments_self hpoint, List.cons_append, List.cons_append, List.cons_append, List.nil_append,
      validateSegments_spelled hspelled hlive, if_neg hbad, if_neg hpoint]
    rfl

/-- With its padding written out the signature of a token is another text, which is not read. -/
theorem validateAt_resealed_padded :
    ∃ token own claims,
      validateAt hmacSha256 "main" token "token-secret" ⟨0, by decide⟩ = .ok claims
        ∧ (segments token).getLast? = some own
        ∧ validateAt hmacSha256 "main" (resealed token (own ++ "=")) "token-secret" ⟨0, by decide⟩
          = .error (.rejected .badSignature) := by
  have hdatabase : '.' ∉ "main".toList := by decide
  have hrandom : '.' ∉ "AAAA".toList := by decide
  have hsecret : "token-secret" ≠ "" := by decide
  have hlives := @sealed_livesUntil hmacSha256 _ _ _ hsecret hdatabase hrandom ⟨3600000, by decide⟩
  obtain ⟨expires, hmillis, hgranted⟩ := hlives.granted ⟨0, by decide⟩ (by decide)
  have hparts := @segments_sealed hmacSha256 _ "token-secret" _ 3600000 hdatabase hrandom
  obtain ⟨own, hown⟩ : ∃ own, String.ofList (Base64.encode (signature hmacSha256 "token-secret"
    (payload "main" "AAAA" 3600000))) = own := ⟨_, rfl⟩
  rw [hown] at hparts
  have hlast : (segments (sealed hmacSha256 "token-secret"
      (payload "main" "AAAA" 3600000))).getLast? = some own := by
    rw [hparts]
    rfl
  refine ⟨_, own, _, hgranted, hlast, ?_⟩
  have hother : some own ≠ some (own ++ "=") := by
    intro hsame
    have hlength := congrArg String.length (Option.some.inj hsame)
    rw [String.length_append] at hlength
    have hone : "=".length = 1 := rfl
    omega
  have hpoint : '.' ∉ (own ++ "=").toList := by
    rw [String.toList_append, List.mem_append, not_or, ← hown, String.toList_ofList]
    exact ⟨encode_undotted _, by decide⟩
  rw [validateAt_resealed hgranted, hlast, if_neg hother, if_neg hpoint]

theorem segments_payload {random : String} (hdatabase : '.' ∉ database.toList)
    (hrandom : '.' ∉ random.toList) (expiry : Int) :
    segments (payload database random expiry) = [database, random, Int.repr expiry] := by
  rw [payload_separated]
  refine segments_parts (by simp) ?_
  simp only [List.forall_mem_cons, List.not_mem_nil, false_implies, implies_true, and_true]
  exact ⟨hdatabase, hrandom, repr_undotted expiry⟩

/-- What is signed tells the random part and the expiry. -/
theorem payload_inj {random random' : String} {expiry expiry' : Int}
    (hdatabase : '.' ∉ database.toList) (hrandom : '.' ∉ random.toList)
    (hrandom' : '.' ∉ random'.toList)
    (h : payload database random expiry = payload database random' expiry') :
    random = random' ∧ expiry = expiry' := by
  have hparts := congrArg segments h
  rw [segments_payload hdatabase hrandom, segments_payload hdatabase hrandom'] at hparts
  simp only [List.cons.injEq, true_and, and_true] at hparts
  refine ⟨hparts.1, ?_⟩
  have hread := readInteger?_repr expiry
  rw [hparts.2, readInteger?_repr] at hread
  exact (Option.some.inj hread).symm

/-- Two texts with the same segments, but perhaps two spellings of one expiry. -/
def Respells (token token' : String) : Prop :=
  ∃ (name random expiry expiry' sign : String) (n : Int),
    segments token = [name, random, expiry, sign] ∧ segments token' = [name, random, expiry', sign]
      ∧ IntegerSpelling n expiry.toList ∧ IntegerSpelling n expiry'.toList

/-- A text with the signature of an accepted token is accepted exactly when it spells the same
expiry and is the same text otherwise, as the signature is one for the number of the expiry and not
for its text. -/
theorem tampered_accepted_iff (hmac : Function.Injective (signature mac secret))
    (haccepted : validateAt mac database token secret clock = .ok claims)
    (hsign : (segments token').getLast? = (segments token).getLast?) :
    (Respells token token' → validateAt mac database token' secret clock = .ok claims)
      ∧ (¬ Respells token token' →
        ∃ rejection,
          validateAt mac database token' secret clock = .error (.rejected rejection)) := by
  obtain ⟨hsecret, hdatabase, hlive, random, expiry, own, hparts, hspelled, hsigned⟩ :=
    validateAt_eq_ok_iff.mp haccepted
  constructor
  · rintro ⟨name, random', expiry', expiry'', sign, n, hparts', hother, hn, hn'⟩
    rw [hparts] at hparts'
    cases hparts'
    have hvalue := readInteger?_eq_some_iff.mpr hn
    rw [readInteger?_eq_some_iff.mpr hspelled] at hvalue
    have hsame : claims.expires.millis = n := Option.some.inj hvalue
    subst hsame
    exact validateAt_eq_ok_iff.mpr
      ⟨hsecret, hdatabase, hlive, random, expiry'', own, hother, hn', hsigned⟩
  · intro hrespells
    rw [validateAt_keyed hsecret]
    cases houtcome : validateSegments mac database secret clock (segments token') with
    | error rejection => exact ⟨rejection, rfl⟩
    | ok claims' =>
      have haccepted' : validateAt mac database token' secret clock = .ok claims' := by
        rw [validateAt_keyed hsecret, houtcome]
        rfl
      obtain ⟨-, -, -, random', expiry', own', hparts', hspelled', hsigned'⟩ :=
        validateAt_eq_ok_iff.mp haccepted'
      have hown : own' = own := by
        rw [hparts, hparts'] at hsign
        exact Option.some.inj hsign
      subst hown
      have hpayload : payload database random claims.expires.millis
          = payload database random' claims'.expires.millis := by
        refine hmac (Option.some.inj ?_)
        rw [← hsigned, ← hsigned']
      have hundotted := segments_undotted hparts
      obtain ⟨hrandom, hmillis⟩ := payload_inj (hundotted database (by simp))
        (hundotted random (by simp)) (segments_undotted hparts' random' (by simp)) hpayload
      subst hrandom
      rw [← hmillis] at hspelled'
      exact absurd ⟨database, random, expiry, expiry', own', _, hparts, hparts', hspelled,
        hspelled'⟩ hrespells

/-- A digest that tells all texts apart, by the length of the tag, and is the keyed one on a single
text. -/
def apartFrom (text : List UInt8) : KeyedDigest := fun key message =>
  if message = text then hmacSha256 key message else List.replicate 33 0 ++ message

theorem hmacSha256_length (key message : List UInt8) : (hmacSha256 key message).length = 32 := rfl

theorem bytes_injective : Function.Injective bytes := by
  intro s s' h
  have harray : s.toUTF8.data = s'.toUTF8.data := Array.toList_inj.mp h
  exact String.toByteArray_inj.mp (ByteArray.ext harray)

theorem apartFrom_injective (text : List UInt8) (secret : String) :
    Function.Injective (signature (apartFrom text) secret) := by
  intro s s' h
  have hlength : ∀ message : List UInt8, (List.replicate 33 0 ++ message).length ≠ 32 := by
    intro message
    rw [List.length_append, List.length_replicate]
    omega
  unfold signature apartFrom at h
  split at h
  next hs =>
    split at h
    next hs' => exact bytes_injective (hs.trans hs'.symm)
    next => exact absurd (h ▸ hmacSha256_length _ _) (hlength _)
  next =>
    split at h
    next => exact absurd (h ▸ hmacSha256_length _ _) (hlength _)
    next => exact bytes_injective (List.append_cancel_left h)

/-- What a token for an hour from 1970 on consists of, whatever the digest. -/
theorem hour_token (mac : KeyedDigest) {random : String} (hrandom : '.' ∉ random.toList) :
    ∃ own claims, '.' ∉ own.toList
      ∧ Base64.decode own.toList = some (signature mac "s3cret" (payload "main" random 3600000))
      ∧ sealed mac "s3cret" (payload "main" random 3600000)
        = separated "." ["main", random, "3600000", own]
      ∧ claims.expires.millis = 3600000
      ∧ validateAt mac "main" (separated "." ["main", random, "3600000", own]) "s3cret"
          ⟨0, by decide⟩ = .ok claims := by
  have hdatabase : '.' ∉ "main".toList := by decide
  have hsecret : "s3cret" ≠ "" := by decide
  have hlives := @sealed_livesUntil mac _ _ _ hsecret hdatabase hrandom ⟨3600000, by decide⟩
  obtain ⟨expires, hmillis, hgranted⟩ := hlives.granted ⟨0, by decide⟩ (by decide)
  have hsealed := sealed_separated mac "main" random "s3cret" 3600000
  have hrepr : Int.repr 3600000 = "3600000" := by decide
  rw [hrepr] at hsealed
  refine ⟨_, ⟨"main", expires⟩, ?_, ?_, hsealed, hmillis, ?_⟩
  · rw [String.toList_ofList]
    exact encode_undotted _
  · rw [String.toList_ofList, Base64.decode_encode]
  · rw [← hsealed]
    exact hgranted

/-- A later expiry with the same signature is refused. -/
theorem tampered_accepted_iff_moved :
    ∃ mac own claims, Function.Injective (signature mac "s3cret")
      ∧ signature mac "s3cret" (payload "main" "AAAA" 3600000)
        = signature hmacSha256 "s3cret" (payload "main" "AAAA" 3600000)
      ∧ validateAt mac "main" (separated "." ["main", "AAAA", "3600000", own]) "s3cret"
        ⟨0, by decide⟩ = .ok claims
      ∧ (segments (separated "." ["main", "AAAA", "99999999999", own])).getLast?
        = (segments (separated "." ["main", "AAAA", "3600000", own])).getLast?
      ∧ ∃ rejection, validateAt mac "main" (separated "." ["main", "AAAA", "99999999999", own])
        "s3cret" ⟨0, by decide⟩ = .error (.rejected rejection) := by
  have hmac := apartFrom_injective (bytes (payload "main" "AAAA" 3600000)) "s3cret"
  obtain ⟨own, claims, hown, -, -, -, haccepted⟩ :=
    hour_token (apartFrom (bytes (payload "main" "AAAA" 3600000))) (by decide : '.' ∉ "AAAA".toList)
  have hparts : ∀ expiry : String, '.' ∉ expiry.toList →
      segments (separated "." ["main", "AAAA", expiry, own]) = ["main", "AAAA", expiry, own] := by
    intro expiry hexpiry
    refine segments_parts (by simp) ?_
    simp only [List.forall_mem_cons, List.not_mem_nil, false_implies, implies_true, and_true]
    exact ⟨by decide, by decide, hexpiry, hown⟩
  have hissued := hparts "3600000" (by decide)
  have hmoved := hparts "99999999999" (by decide)
  have hsign : (segments (separated "." ["main", "AAAA", "99999999999", own])).getLast?
      = (segments (separated "." ["main", "AAAA", "3600000", own])).getLast? := by
    rw [hissued, hmoved]
    rfl
  have hreal : signature (apartFrom (bytes (payload "main" "AAAA" 3600000))) "s3cret"
      (payload "main" "AAAA" 3600000)
        = signature hmacSha256 "s3cret" (payload "main" "AAAA" 3600000) := by
    unfold signature apartFrom
    exact if_pos rfl
  refine ⟨_, own, claims, hmac, hreal, haccepted, hsign,
    (tampered_accepted_iff hmac haccepted hsign).2 ?_⟩
  rintro ⟨name, random, expiry, expiry', sign, n, htoken, hother, hn, hn'⟩
  rw [hissued] at htoken
  rw [hmoved] at hother
  cases htoken
  cases hother
  have hread : readInteger? "3600000".toList = some 3600000 := by decide
  have hread' : readInteger? "99999999999".toList = some 99999999999 := by decide
  rw [readInteger?_eq_some_iff.mpr hn] at hread
  rw [readInteger?_eq_some_iff.mpr hn'] at hread'
  cases hread
  cases hread'

/-- With a plus in front of its expiry a token is another text with the same signature, and it is
accepted as well. -/
theorem respelled_expiry_accepted :
    ∃ own claims, issueAt hmacSha256 "main" "s3cret" ⟨3600, 0⟩ ⟨0, by decide⟩ (List.replicate 16 0)
        = .ok (separated "." ["main", "AAAAAAAAAAAAAAAAAAAAAA", "3600000", own])
      ∧ (segments (separated "." ["main", "AAAAAAAAAAAAAAAAAAAAAA", "3600000", own])).getLast?
        = some own
      ∧ (segments (separated "." ["main", "AAAAAAAAAAAAAAAAAAAAAA", "+3600000", own])).getLast?
        = some own
      ∧ separated "." ["main", "AAAAAAAAAAAAAAAAAAAAAA", "+3600000", own]
        ≠ separated "." ["main", "AAAAAAAAAAAAAAAAAAAAAA", "3600000", own]
      ∧ validateAt hmacSha256 "main"
        (separated "." ["main", "AAAAAAAAAAAAAAAAAAAAAA", "3600000", own]) "s3cret" ⟨0, by decide⟩
        = .ok claims
      ∧ validateAt hmacSha256 "main"
        (separated "." ["main", "AAAAAAAAAAAAAAAAAAAAAA", "+3600000", own]) "s3cret" ⟨0, by decide⟩
        = .ok claims := by
  have hname : "main" ≠ "" := by decide
  have hdatabase : '.' ∉ "main".toList := by decide
  have hsecret : "s3cret" ≠ "" := by decide
  have hrandom : '.' ∉ "AAAAAAAAAAAAAAAAAAAAAA".toList := by decide
  obtain ⟨own, claims, hown, hsigned, hsealed, hmillis, haccepted⟩ := hour_token hmacSha256 hrandom
  have hparts : ∀ expiry : String, '.' ∉ expiry.toList →
      segments (separated "." ["main", "AAAAAAAAAAAAAAAAAAAAAA", expiry, own])
        = ["main", "AAAAAAAAAAAAAAAAAAAAAA", expiry, own] := by
    intro expiry hexpiry
    refine segments_parts (by simp) ?_
    simp only [List.forall_mem_cons, List.not_mem_nil, false_implies, implies_true, and_true]
    exact ⟨hdatabase, hrandom, hexpiry, hown⟩
  have hplain := hparts "3600000" (by decide)
  have hplus := hparts "+3600000" (by decide)
  refine ⟨own, claims, ?_, by rw [hplain]; rfl, by rw [hplus]; rfl, ?_, haccepted, ?_⟩
  · have hbytes : String.ofList (Base64.encode (List.replicate 16 0))
        = "AAAAAAAAAAAAAAAAAAAAAA" := by
      decide
    have hexpiry : expiryAfter ⟨0, by decide⟩ ⟨3600, 0⟩ = 3600000 := by decide
    rw [issueAt_eq hname hdatabase hsecret, hbytes, hexpiry, hsealed]
  · intro hsame
    have hsegments := congrArg segments hsame
    rw [hplain, hplus] at hsegments
    simp at hsegments
  · obtain ⟨-, hclaimed, hlive, -⟩ := validateAt_eq_ok_iff.mp haccepted
    have hspelled : IntegerSpelling 3600000 "+3600000".toList := .plus 3600000 0
    refine validateAt_eq_ok_iff.mpr ⟨hsecret, hclaimed, hlive, _, _, _, hplus, ?_, ?_⟩
    · rw [hmillis]
      exact hspelled
    · rw [hmillis]
      exact hsigned

end Token

end Tabularium
