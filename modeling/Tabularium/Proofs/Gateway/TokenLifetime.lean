import Tabularium.Proofs.Gateway.TokenValidation

namespace Tabularium

/-- The last point in time. -/
def Instant.lastMillis : Int := 8210266876799999

namespace Token

variable {mac : KeyedDigest} {database secret random : String} {expiry : Int}

/-- A token grants its database at every point in time before its expiry and at none from then on,
and grants no other database at all. -/
structure LivesUntil (mac : KeyedDigest) (database secret token : String) (expiry : Int) :
    Prop where
  granted : ∀ clock : Instant, clock.millis < expiry → ∃ expires : Instant,
    expires.millis = expiry
      ∧ validateAt mac database token secret clock = .ok ⟨database, expires⟩
  expired : ∀ clock : Instant, expiry ≤ clock.millis →
    validateAt mac database token secret clock = .error (.rejected .expired)
  foreign : ∀ (name : String) (clock : Instant), name ≠ database →
    validateAt mac name token secret clock = .error (.rejected .dbMismatch)

/-- A token is issued for every name without a point. -/
theorem issueAt_eq (hname : database ≠ "") (hdatabase : '.' ∉ database.toList)
    (hsecret : secret ≠ "") (ttl : Lifetime) (now : Instant) (bytes : List UInt8) :
    issueAt mac database secret ttl now bytes = .ok (sealed mac secret
      (payload database (String.ofList (Base64.encode bytes)) (expiryAfter now ttl))) := by
  have hnamed : database.isEmpty = false := String.isEmpty_eq_false_iff.mpr hname
  have hundotted : database.toList.contains '.' = false := by
    rw [← Bool.not_eq_true, List.contains_iff_mem]
    exact hdatabase
  have hkeyed : secret.isEmpty = false := String.isEmpty_eq_false_iff.mpr hsecret
  rw [issueAt, hnamed, hundotted, hkeyed]
  rfl

/-- A token is issued for names without a point only, and is its payload with the signature. -/
theorem issueAt_ok {token : String} {ttl : Lifetime} {now : Instant} {bytes : List UInt8}
    (h : issueAt mac database secret ttl now bytes = .ok token) :
    database ≠ "" ∧ '.' ∉ database.toList ∧ secret ≠ "" ∧ token = sealed mac secret
      (payload database (String.ofList (Base64.encode bytes)) (expiryAfter now ttl)) := by
  have hname : (database.isEmpty || database.toList.contains '.') ≠ true := by
    intro hrefused
    rw [issueAt, if_pos hrefused] at h
    cases h
  rw [ne_eq, Bool.or_eq_true, not_or, String.isEmpty_iff, List.contains_iff_mem] at hname
  have hsecret : secret ≠ "" := by
    rintro rfl
    rw [issueAt] at h
    split at h <;> cases h
  rw [issueAt_eq hname.1 hname.2 hsecret] at h
  exact ⟨hname.1, hname.2, hsecret, (Except.ok.inj h).symm⟩

/-- The cap on an expiry is beyond the last point in time. -/
theorem expiryAfter_le_iff (now : Instant) (ttl : Lifetime) :
    expiryAfter now ttl ≤ Instant.lastMillis ↔ now.millis + ttl.millis ≤ Instant.lastMillis := by
  have hnow := now.inRange
  rw [expiryAfter, pow_word, Instant.lastMillis]
  omega

theorem expiryAfter_word (now : Instant) (ttl : Lifetime) :
    now.millis ≤ expiryAfter now ttl ∧ expiryAfter now ttl < Int.pow 2 63 := by
  have hnow := now.inRange
  rw [expiryAfter, pow_word]
  omega

section Sealed

variable (hsecret : secret ≠ "") (hdatabase : '.' ∉ database.toList)
  (hrandom : '.' ∉ random.toList)
include hsecret hdatabase hrandom

/-- A token whose expiry is a point in time is accepted until then and refused ever after. -/
theorem sealed_livesUntil (expires : Instant) :
    LivesUntil mac database secret (sealed mac secret (payload database random expires.millis))
      expires.millis := by
  obtain ⟨hlow, hhigh⟩ := instant_word expires
  have hchecks := @validateAt_sealed mac _ _ _ _ hsecret hdatabase hrandom hlow hhigh
  have hinstant : Instant.ofMillis? expires.millis = some expires := dif_pos expires.inRange
  refine ⟨fun clock hclock => ⟨expires, rfl, ?_⟩, fun clock hclock => ?_,
    fun name clock hname => ?_⟩
  · rw [hchecks, if_neg (not_not_intro rfl), hinstant]
    exact if_neg (Int.not_le.mpr hclock)
  · rw [hchecks, if_neg (not_not_intro rfl), hinstant]
    exact if_pos hclock
  · rw [hchecks, if_pos hname.symm]

/-- A token whose expiry is beyond the last point in time is refused at every one. -/
theorem sealed_refused (hlate : Instant.lastMillis < expiry) (hhigh : expiry < Int.pow 2 63)
    (clock : Instant) :
    validateAt mac database (sealed mac secret (payload database random expiry)) secret clock
      = .error (.rejected .malformed) := by
  rw [Instant.lastMillis] at hlate
  have hlow : -(Int.pow 2 63) ≤ expiry := by
    rw [pow_word]
    omega
  have hnone : Instant.ofMillis? expiry = none := dif_neg (by omega)
  rw [validateAt_sealed hsecret hdatabase hrandom hlow hhigh, if_neg (not_not_intro rfl), hnone]

end Sealed

/-- A token is issued for every lifetime. It lives exactly as long as asked when its expiry is a
point in time, and it is refused from the start when its expiry is beyond the last one. -/
theorem issueAt_livesUntil_iff (mac : KeyedDigest) (hname : database ≠ "")
    (hdatabase : '.' ∉ database.toList) (hsecret : secret ≠ "") (ttl : Lifetime) (now : Instant)
    (bytes : List UInt8) :
    ∃ token, issueAt mac database secret ttl now bytes = .ok token
      ∧ (LivesUntil mac database secret token (expiryAfter now ttl)
        ↔ now.millis + ttl.millis ≤ Instant.lastMillis)
      ∧ (Instant.lastMillis < now.millis + ttl.millis →
        ∀ clock, validateAt mac database token secret clock = .error (.rejected .malformed)) := by
  have hnow := now.inRange
  obtain ⟨hlow, hhigh⟩ := expiryAfter_word now ttl
  have hrandom : '.' ∉ (String.ofList (Base64.encode bytes)).toList := by
    rw [String.toList_ofList]
    exact encode_undotted bytes
  have hrefused : Instant.lastMillis < now.millis + ttl.millis → ∀ clock, validateAt mac database
      (sealed mac secret (payload database (String.ofList (Base64.encode bytes))
        (expiryAfter now ttl))) secret clock = .error (.rejected .malformed) := by
    intro hlate clock
    have hbeyond : Instant.lastMillis < expiryAfter now ttl :=
      Int.not_le.mp fun hle => Int.not_lt.mpr ((expiryAfter_le_iff now ttl).mp hle) hlate
    exact sealed_refused hsecret hdatabase hrandom hbeyond hhigh clock
  refine ⟨_, issueAt_eq hname hdatabase hsecret ttl now bytes, ⟨fun hlives => ?_, fun hfits => ?_⟩,
    hrefused⟩
  · -- The moment of issue is before a late expiry, so a token that lives is accepted at it.
    refine Int.not_lt.mp fun hlate => ?_
    have hbefore : now.millis < expiryAfter now ttl := by
      have hbeyond := (expiryAfter_le_iff now ttl).not.mpr (Int.not_le.mpr hlate)
      rw [Instant.lastMillis] at hbeyond
      omega
    obtain ⟨expires, hmillis, hgranted⟩ := hlives.granted now hbefore
    rw [hrefused hlate now] at hgranted
    cases hgranted
  · have hle := (expiryAfter_le_iff now ttl).mpr hfits
    rw [Instant.lastMillis] at hle
    exact sealed_livesUntil hsecret hdatabase hrandom ⟨expiryAfter now ttl, by omega⟩

/-- The longest life from 1970 on ends at the last point in time. -/
theorem issueAt_livesUntil_last :
    "main" ≠ "" ∧ '.' ∉ "main".toList ∧ "token-secret" ≠ ""
      ∧ ∃ token, issueAt hmacSha256 "main" "token-secret" ⟨8210266876799, 999000000⟩
          ⟨0, by decide⟩ (List.replicate 16 7) = .ok token
        ∧ LivesUntil hmacSha256 "main" "token-secret" token 8210266876799999 := by
  have hname : "main" ≠ "" := by decide
  have hdatabase : '.' ∉ "main".toList := by decide
  have hsecret : "token-secret" ≠ "" := by decide
  obtain ⟨token, hissued, hlives, -⟩ := issueAt_livesUntil_iff hmacSha256 hname hdatabase hsecret
    ⟨8210266876799, 999000000⟩ ⟨0, by decide⟩ (List.replicate 16 7)
  exact ⟨hname, hdatabase, hsecret, token, hissued, hlives.mpr (by decide)⟩

/-- A token that is asked to live a millisecond longer is issued and never accepted. -/
theorem late_token_refused :
    ∃ token, issueAt hmacSha256 "main" "x" ⟨8210266876800, 0⟩ ⟨0, by decide⟩ (List.replicate 16 7)
        = .ok token
      ∧ validateAt hmacSha256 "main" token "x" ⟨0, by decide⟩ = .error (.rejected .malformed)
      ∧ ¬ LivesUntil hmacSha256 "main" "x" token 8210266876800000 := by
  have hname : "main" ≠ "" := by decide
  have hdatabase : '.' ∉ "main".toList := by decide
  have hsecret : "x" ≠ "" := by decide
  have hrandom : '.' ∉ (String.ofList (Base64.encode (List.replicate 16 7))).toList := by
    rw [String.toList_ofList]
    exact encode_undotted _
  have hrefused : validateAt hmacSha256 "main" (sealed hmacSha256 "x" (payload "main"
      (String.ofList (Base64.encode (List.replicate 16 7))) 8210266876800000)) "x" ⟨0, by decide⟩
        = .error (.rejected .malformed) :=
    sealed_refused hsecret hdatabase hrandom (by decide) (by decide) _
  refine ⟨_, issueAt_eq hname hdatabase hsecret _ _ _, hrefused, fun hlives => ?_⟩
  obtain ⟨expires, hmillis, hgranted⟩ := hlives.granted ⟨0, by decide⟩ (by decide)
  exact absurd (hgranted.symm.trans hrefused) (by simp)

end Token

end Tabularium
