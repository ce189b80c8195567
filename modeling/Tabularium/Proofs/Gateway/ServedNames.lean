import Tabularium.Proofs.Gateway.Authority
import Tabularium.Proofs.Gateway.TokenLifetime

namespace Tabularium

namespace Http

/-- The blanks that are not delivered when they stand at an end of the value of a header. -/
def isPadding (c : Char) : Bool :=
  c == ' ' || c == '\t'

/-- The value of a header as it is delivered. -/
def arriving (value : String) : String :=
  String.ofList ((value.toList.dropWhile isPadding).rdropWhile isPadding)

/-- The text holds visible characters only, and no blanks. -/
def IsVisible (s : String) : Prop :=
  ∀ c ∈ s.toList, 0x20 < c.toNat ∧ c.toNat < 0x7F

variable {value front middle back name : String} {headers : List (String × String)} {c : Char}
  {cs : List Char}

theorem toList_arriving (value : String) :
    (arriving value).toList = (value.toList.dropWhile isPadding).rdropWhile isPadding :=
  String.toList_ofList

theorem isPadding_iff : isPadding c = true ↔ c.toNat = 0x20 ∨ c.toNat = 9 := by
  have htoNat : ∀ d : Char, c = d ↔ c.toNat = d.toNat := fun d => Char.toNat_inj.symm
  rw [isPadding, Bool.or_eq_true, beq_iff_eq, beq_iff_eq, htoNat, htoNat]
  rfl

/-- Of the characters that can be read as text, only padding is blank. -/
theorem isPadding_eq_isBlank (h : c = '\t' ∨ 0x20 ≤ c.toNat ∧ c.toNat < 0x7F) :
    isPadding c = isBlank c := by
  have htab : c = '\t' ↔ c.toNat = 9 := Char.toNat_inj.symm
  rw [htab] at h
  rw [Bool.eq_iff_iff, isPadding_iff, isBlank]
  simp only [Bool.or_eq_true, Bool.and_eq_true, beq_iff_eq, decide_eq_true_eq]
  omega

theorem padding_of_isReadable (h : isReadable value = true) :
    ∀ c ∈ value.toList, isPadding c = isBlank c := by
  rw [isReadable, List.all_eq_true] at h
  intro c hc
  have hchar := h c hc
  simp only [Bool.or_eq_true, Bool.and_eq_true, beq_iff_eq, decide_eq_true_eq] at hchar
  exact isPadding_eq_isBlank hchar

theorem dropWhile_isPadding (h : ∀ c ∈ cs, isPadding c = isBlank c) :
    cs.dropWhile isPadding = trimStart cs := by
  induction cs with
  | nil => rfl
  | cons c cs ih =>
    rw [List.forall_mem_cons] at h
    rw [trimStart, List.dropWhile_cons, List.dropWhile_cons, h.1, ih h.2, trimStart]

theorem rdropWhile_isPadding (h : ∀ c ∈ cs, isPadding c = isBlank c) :
    cs.rdropWhile isPadding = trimEnd cs :=
  congrArg List.reverse (dropWhile_isPadding fun c hc => h c (List.mem_reverse.mp hc))

theorem arriving_eq_trimText (h : isReadable value = true) : arriving value = trimText value := by
  have hblank := padding_of_isReadable h
  have hkept : ∀ c ∈ trimStart value.toList, isPadding c = isBlank c := fun c hc =>
    hblank c ((List.dropWhile_suffix isBlank).subset hc)
  rw [arriving, dropWhile_isPadding hblank, rdropWhile_isPadding hkept, trimText, trim]

/-- A text stands in a header as it is when it is delivered as it is and can be read. -/
theorem isPlain_iff :
    IsPlain value ↔ arriving value = value ∧ isReadable value = true ∧ value ≠ "" := by
  constructor
  · rintro ⟨hinhabited, hreadable, htrimmed⟩
    exact ⟨(arriving_eq_trimText hreadable).trans htrimmed, hreadable, hinhabited⟩
  · rintro ⟨harriving, hreadable, hinhabited⟩
    exact ⟨hinhabited, hreadable, (arriving_eq_trimText hreadable).symm.trans harriving⟩

/-- A text is delivered as it is when no padding stands at either end. -/
theorem arriving_eq_self_iff : arriving value = value
    ↔ value.toList.dropWhile isPadding = value.toList
      ∧ value.toList.rdropWhile isPadding = value.toList := by
  rw [← String.toList_inj, toList_arriving]
  constructor
  · intro h
    have hsuffix := List.dropWhile_suffix (l := value.toList) isPadding
    have hprefix := List.rdropWhile_prefix isPadding (value.toList.dropWhile isPadding)
    rw [h] at hprefix
    have hstart := hsuffix.eq_of_length_le hprefix.length_le
    rw [hstart] at h
    exact ⟨hstart, h⟩
  · rintro ⟨hstart, hend⟩
    rw [hstart, hend]

/-- What stands between two texts that stand in a header as they are need not be trimmed. -/
theorem IsPlain.around (hf : IsPlain front) (hm : isReadable middle = true) (hb : IsPlain back) :
    IsPlain (front ++ middle ++ back) := by
  obtain ⟨hfront, hfrontReadable, hfrontNe⟩ := isPlain_iff.mp hf
  obtain ⟨hback, hbackReadable, hbackNe⟩ := isPlain_iff.mp hb
  rw [arriving_eq_self_iff] at hfront hback
  rw [ne_eq, ← String.toList_eq_nil_iff] at hfrontNe hbackNe
  refine isPlain_iff.mpr ⟨arriving_eq_self_iff.mpr ⟨?_, ?_⟩, ?_, ?_⟩
  · rw [String.toList_append, String.toList_append, List.append_assoc, List.dropWhile_append,
      hfront.1, if_neg (by simpa using hfrontNe)]
  · rw [String.toList_append, rdropWhile_append, hback.2, if_neg hbackNe]
  · rw [isReadable_append, isReadable_append, hfrontReadable, hm, hbackReadable]
    rfl
  · rw [ne_eq, ← String.toList_eq_nil_iff]
    simp [hfrontNe]

theorem IsVisible.append (hf : IsVisible front) (hb : IsVisible back) :
    IsVisible (front ++ back) := by
  rw [IsVisible, String.toList_append, List.forall_mem_append]
  exact ⟨hf, hb⟩

theorem IsVisible.readable (h : IsVisible value) : isReadable value = true := by
  rw [isReadable, List.all_eq_true]
  intro c hc
  have hrange := h c hc
  simp only [Bool.or_eq_true, Bool.and_eq_true, decide_eq_true_eq]
  omega

theorem IsVisible.plain (h : IsVisible value) (hne : value ≠ "") : IsPlain value := by
  have hnone : ∀ c ∈ value.toList, ¬ isPadding c = true := by
    intro c hc
    have hrange := h c hc
    rw [isPadding_iff]
    omega
  refine isPlain_iff.mpr ⟨arriving_eq_self_iff.mpr ⟨?_, ?_⟩, h.readable, hne⟩
  · cases hvalue : value.toList with
    | nil => rfl
    | cons c cs => exact List.dropWhile_cons_of_neg (hnone c (hvalue ▸ List.mem_cons_self))
  · exact List.rdropWhile_eq_self_iff.mpr fun hvalue => hnone _ (List.getLast_mem hvalue)

theorem encode_visible (bytes : List UInt8) : IsVisible (String.ofList (Base64.encode bytes)) := by
  have halphabet : Base64.alphabet.all (fun c => decide (0x20 < c.toNat ∧ c.toNat < 0x7F))
      = true := by
    decide
  intro c hc
  rw [String.toList_ofList] at hc
  exact decide_eq_true_iff.mp (List.all_eq_true.mp halphabet c (Base64.mem_encode hc))

theorem repr_visible (n : Int) : IsVisible (Int.repr n) := by
  intro c hc
  rcases mem_repr hc with rfl | hdigit
  · decide
  · have hrange : 48 ≤ c.toNat ∧ c.toNat ≤ 57 := Char.isDigit_iff_toNat.mp hdigit
    omega

/-- The headers as they are delivered. -/
def delivered (headers : List (String × String)) : List (String × String) :=
  headers.map fun header => (header.1, arriving header.2)

theorem header?_delivered :
    header? (delivered headers) name = (header? headers name).map arriving := by
  rw [header?, header?, delivered, List.find?_map, Option.map_map, Option.map_map]
  rfl

/-- A text is delivered in a header as itself exactly when it stands there as it is. -/
theorem carries_delivered_iff (h : header? headers name = some value) :
    Carries (delivered headers) name value ↔ IsPlain value := by
  rw [Carries, header?_delivered, h, Option.map_some, Option.some_inj, isPlain_iff]

end Http

/-- A token whose name and random part can stand in a header stands there as it is. -/
theorem Token.sealed_plain {mac : KeyedDigest} {secret database : String} (bytes : List UInt8)
    (expiry : Int) (h : Http.IsPlain database) : Http.IsPlain (sealed mac secret
      (payload database (String.ofList (Base64.encode bytes)) expiry)) := by
  have hpoint : Http.IsVisible "." := by
    intro c hc
    cases List.mem_singleton.mp hc
    decide
  have hsign := Http.encode_visible (signature mac secret
    (payload database (String.ofList (Base64.encode bytes)) expiry))
  have hback : Http.IsPlain ("." ++ String.ofList (Base64.encode (signature mac secret
      (payload database (String.ofList (Base64.encode bytes)) expiry)))) :=
    (hpoint.append hsign).plain fun hempty => by
      have hparts := String.append_eq_empty_iff.mp hempty
      exact absurd hparts.1 (by decide)
  have hmiddle := hpoint.append ((Http.encode_visible bytes).append
    (hpoint.append (Http.repr_visible expiry)))
  have hwhole := h.around hmiddle.readable hback
  rw [sealed]
  generalize String.ofList (Base64.encode (signature mac secret _)) = sign at hwhole ⊢
  simpa only [payload, String.append_assoc] using hwhole

namespace Access

/-- The key of a gateway is read from the header as it is delivered exactly when it can stand in a
header as it is. -/
theorem bearerKey?_arriving_iff {key : String} :
    (Http.isReadable (Http.arriving ("Bearer " ++ key)) = true
      ∧ bearerKey? (Http.arriving ("Bearer " ++ key)) = some key) ↔ Http.IsPlain key := by
  constructor
  · rintro ⟨hreadable, hkey⟩
    generalize hrest : key.toList.rdropWhile Http.isPadding = rest
    have hword : "Bearer ".toList.rdropWhile Http.isPadding = "Bearer".toList := by decide
    have harriving : (Http.arriving ("Bearer " ++ key)).toList
        = if rest = [] then "Bearer".toList else "Bearer ".toList ++ rest := by
      rw [Http.toList_arriving, String.toList_append, ← hword, ← hrest, ← rdropWhile_append]
      rfl
    by_cases hempty : rest = []
    · rw [if_pos hempty, String.toList_inj] at harriving
      rw [harriving, show bearerKey? "Bearer" = none by decide] at hkey
      cases hkey
    · have hdelivered : Http.arriving ("Bearer " ++ key) = "Bearer " ++ String.ofList rest := by
        rw [← String.toList_inj, harriving, if_neg hempty, String.toList_append]
        exact congrArg _ String.toList_ofList.symm
      rw [hdelivered, bearerKey?_append, String.toList_ofList, Option.some_inj] at hkey
      -- Nothing was dropped at either end, since what is left is still the whole key.
      have hstart : trimStart rest = key.toList := by rw [← hkey, String.toList_ofList]
      have hprefix : rest <+: key.toList := hrest ▸ List.rdropWhile_prefix _ _
      have hwhole : rest = key.toList := by
        refine hprefix.eq_of_length_le ?_
        rw [← hstart]
        exact (List.dropWhile_suffix isBlank).length_le
      subst hwhole
      rw [hdelivered, Http.isReadable_append, String.ofList_toList, Bool.and_eq_true] at hreadable
      refine Http.isPlain_iff.mpr ⟨Http.arriving_eq_self_iff.mpr ⟨?_, hrest⟩, hreadable.2, ?_⟩
      · rw [Http.dropWhile_isPadding (Http.padding_of_isReadable hreadable.2), hstart]
      · rwa [ne_eq, ← String.toList_eq_nil_iff]
  · intro h
    have hword : Http.IsPlain "Bearer" := ⟨by decide, by decide, by decide⟩
    have hspaced : Http.isReadable " " = true := by decide
    have hplain : Http.IsPlain ("Bearer " ++ key) := hword.around hspaced h
    rw [(Http.isPlain_iff.mp hplain).1]
    exact ⟨hplain.readable, bearerKey?_bearer h.trimStart⟩

variable {mac : KeyedDigest} {secret : String} {clock : Instant} {c : Client}
  {bookmark : Option String}

/-- The headers of a client are delivered as those of a request for its database exactly when its
key and the name of the database can stand in a header as they are, and the token that is delivered
is valid. -/
theorem authorizes_delivered_iff :
    Authorizes mac c.gatewayKey secret clock (Http.delivered (c.headers bookmark)) c.database
      ↔ Http.IsPlain c.gatewayKey ∧ Http.IsPlain c.database
        ∧ ∃ expires, Http.Carries (Http.delivered (c.headers bookmark)) Header.dbToken
            (Http.arriving c.token)
          ∧ Token.validateAt mac c.database (Http.arriving c.token) secret clock
            = .ok ⟨c.database, expires⟩ := by
  have hkey : (Http.readable? (Http.delivered (c.headers bookmark)) Header.authorization).bind
      bearerKey? = some c.gatewayKey ↔ Http.IsPlain c.gatewayKey := by
    rw [← bearerKey?_arriving_iff, Http.readable?, Http.header?_delivered,
      c.header?_authorization, Option.map_some, Option.bind_eq_some_iff]
    simp only [Option.filter_eq_some_iff, Option.some_inj]
    constructor
    · rintro ⟨value, ⟨rfl, hreadable⟩, hvalue⟩
      exact ⟨hreadable, hvalue⟩
    · rintro ⟨hreadable, hvalue⟩
      exact ⟨_, ⟨rfl, hreadable⟩, hvalue⟩
  have hname := Http.carries_delivered_iff (c.header?_dbName bookmark)
  constructor
  · rintro ⟨hgiven, hnamed, token, expires, htoken, hvalid⟩
    have hdelivered : Http.header? (Http.delivered (c.headers bookmark)) Header.dbToken
        = some token := htoken.1
    rw [Http.header?_delivered, c.header?_dbToken, Option.map_some, Option.some_inj] at hdelivered
    subst hdelivered
    exact ⟨hkey.mp hgiven, hname.mp hnamed, expires, htoken, hvalid⟩
  · rintro ⟨hplain, hnamed, expires, htoken, hvalid⟩
    exact ⟨hkey.mpr hplain, hname.mpr hnamed, _, expires, htoken, hvalid⟩

end Access

/-- A request as it is delivered. -/
def HttpRequest.delivered (request : HttpRequest) : HttpRequest :=
  { request with headers := Http.delivered request.headers }

theorem Client.request?_eq_some {c : Client} {op : Operation} {bookmark : Option String}
    {request : HttpRequest} : c.request? op bookmark = some request
      ↔ (∀ header ∈ c.headers bookmark, Http.isSendable header.2 = true)
        ∧ request = c.requestOf op bookmark := by
  rw [request?, Option.ite_none_right_eq_some, List.all_eq_true, Option.some_inj,
    eq_comm (b := request)]
  rfl

theorem Operation.route_arriving (op : Operation) : op.arriving.route = op.route := by
  cases op <;> rfl

namespace Gateway

variable {σ : Type} {key secret name token : String} {registered : List (String × σ)} {store : σ}
  {clock now : Instant} {ttl : Lifetime} {bytes : List UInt8} {c : Client} {op : Operation}
  {bookmark : Option String}

/-- What a client sends for an operation is delivered as a request for its database, and asks a
store of the gateway for the operation. -/
def Reaches (g : Gateway σ) (clock : Instant) (c : Client) (op : Operation)
    (bookmark : Option String) (store : σ) : Prop :=
  ∃ request, c.request? op bookmark = some request
    ∧ Access.credentials hmacSha256 g.key g.secret clock request.delivered.headers = .ok c.database
    ∧ ∃ d, g.dispatch clock request.delivered = .ok d
      ∧ d.adapter = store ∧ d.operation = op.arriving

theorem sendsJson_delivered : (Http.readable? (Http.delivered (c.headers bookmark))
    Header.contentType).map Http.isJsonMediaType = some true := by
  rw [Http.readable?, Http.header?_delivered, c.header?_contentType]
  decide

/-- What is delivered is permitted when it is authorized and short enough. -/
theorem permits_delivered
    (hauthorizes : Access.Authorizes hmacSha256 key secret clock
      (Http.delivered (c.headers bookmark)) c.database)
    (hlast : OrderedMap.LastUnder registered c.database store)
    (hshort : op.toJson.compact.utf8ByteSize ≤ bodyLimit) :
    Permits key secret registered clock (c.requestOf op bookmark).delivered ⟨store, op.arriving,
      Http.present? (Http.delivered (c.headers bookmark)) Header.bookmark⟩ where
  posted := rfl
  routed := by
    have hpath : Http.pathOf? op.route.path = some op.route.path := by
      cases op.route <;> decide
    rw [op.route_arriving]
    exact hpath
  authorized := ⟨c.database, hauthorizes, hlast⟩
  document := sendsJson_delivered
  short := hshort
  decoded := by
    rw [op.route_arriving]
    exact op.decode_arriving
  bookmark := fun _ => Http.present?_eq_some_iff

/-- A request reaches a store exactly when it can be sent, is delivered with what authorizes it, is
short enough, and the store was registered last for its database. -/
theorem reaches_iff :
    Reaches (registering key secret registered) clock c op bookmark store
      ↔ (∀ header ∈ c.headers bookmark, Http.isSendable header.2 = true)
        ∧ Access.Authorizes hmacSha256 key secret clock (Http.delivered (c.headers bookmark))
            c.database
        ∧ OrderedMap.LastUnder registered c.database store
        ∧ op.toJson.compact.utf8ByteSize ≤ bodyLimit := by
  have hgateway : (registering key secret registered).key = key
      ∧ (registering key secret registered).secret = secret := by
    rw [registering_eq]
    exact ⟨rfl, rfl⟩
  rw [Reaches, hgateway.1, hgateway.2]
  constructor
  · rintro ⟨request, hrequest, hcredentials, d, hdispatch, rfl, -⟩
    obtain ⟨hsendable, rfl⟩ := Client.request?_eq_some.mp hrequest
    have hauthorizes := Access.credentials_eq_ok_iff.mp hcredentials
    have hpermits := dispatch_eq_ok_iff.mp hdispatch
    obtain ⟨database, hother, hlast⟩ := hpermits.authorized
    obtain rfl : c.database = database :=
      Except.ok.inj (hcredentials.symm.trans (Access.credentials_eq_ok_iff.mpr hother))
    exact ⟨hsendable, hauthorizes, hlast, hpermits.short⟩
  · rintro ⟨hsendable, hauthorizes, hlast, hshort⟩
    exact ⟨_, Client.request?_eq_some.mpr ⟨hsendable, rfl⟩,
      Access.credentials_eq_ok_iff.mpr hauthorizes, _,
      dispatch_eq_ok_iff.mpr (permits_delivered hauthorizes hlast hshort), rfl, rfl⟩

theorem sendable_iff (hkey : Http.IsPlain c.gatewayKey) (hdatabase : Http.IsPlain c.database)
    (htoken : Http.IsPlain c.token) :
    (∀ header ∈ c.headers bookmark, Http.isSendable header.2 = true)
      ↔ ∀ b ∈ bookmark, Http.isSendable b = true := by
  have hbearer : Http.isReadable ("Bearer " ++ c.gatewayKey) = true := by
    rw [Http.isReadable_append, hkey.readable]
    decide
  have hfixed := And.intro (Http.isSendable_of_isReadable hbearer)
    (And.intro (Http.isSendable_of_isReadable hdatabase.readable)
      (Http.isSendable_of_isReadable htoken.readable))
  have hjson : Http.isSendable "application/json" = true := by decide
  cases bookmark <;> simp [Client.headers, hfixed, hjson]

/-- A token in a header that is issued for a name is valid before its expiry exactly when the expiry
is a point in time. -/
theorem issued_valid_iff (hissued : Token.issueAt hmacSha256 name secret ttl now bytes = .ok token)
    (hlive : clock.millis < Token.expiryAfter now ttl) :
    (∃ expires, Token.validateAt hmacSha256 name token secret clock = .ok ⟨name, expires⟩)
      ↔ now.millis + ttl.millis ≤ Instant.lastMillis := by
  obtain ⟨-, hundotted, hsecret, rfl⟩ := Token.issueAt_ok hissued
  have hhigh := (Token.expiryAfter_word now ttl).2
  have hclock := clock.inRange
  have hrandom : '.' ∉ (String.ofList (Base64.encode bytes)).toList := by
    rw [String.toList_ofList]
    exact Token.encode_undotted bytes
  rw [← Token.expiryAfter_le_iff]
  generalize Token.expiryAfter now ttl = expiry at hlive hhigh ⊢
  by_cases hfits : expiry ≤ Instant.lastMillis
  · refine iff_of_true ?_ hfits
    rw [Instant.lastMillis] at hfits
    obtain ⟨expires, -, hvalid⟩ := (Token.sealed_livesUntil hsecret hundotted hrandom
      ⟨expiry, by omega⟩).granted clock hlive
    exact ⟨expires, hvalid⟩
  · refine iff_of_false ?_ hfits
    rintro ⟨expires, hvalid⟩
    have hrefused := @Token.sealed_refused hmacSha256 _ _ _ _ hsecret hundotted hrandom
      (Int.not_le.mp hfits) hhigh clock
    cases hrefused.symm.trans hvalid

/-- With the key of a gateway and a token that was issued for a name and has not expired, what a
client sends for that name reaches the store registered last under it exactly when the key and the
name can stand in a header as they are, the expiry is a point in time, the point of consistency can
be sent, and the body is short enough. -/
theorem issued_reaches_iff
    (hissued : Token.issueAt hmacSha256 name secret ttl now bytes = .ok token)
    (hlast : OrderedMap.LastUnder registered name store)
    (hlive : clock.millis < Token.expiryAfter now ttl)
    (address key : String) (op : Operation) (bookmark : Option String) :
    Reaches (registering key secret registered) clock ⟨address, key, name, token⟩ op bookmark store
      ↔ Http.IsPlain key ∧ Http.IsPlain name
        ∧ now.millis + ttl.millis ≤ Instant.lastMillis
        ∧ (∀ b ∈ bookmark, Http.isSendable b = true)
        ∧ op.toJson.compact.utf8ByteSize ≤ bodyLimit := by
  let c : Client := ⟨address, key, name, token⟩
  obtain ⟨-, -, -, hsealed⟩ := Token.issueAt_ok hissued
  have hplain : Http.IsPlain name → Http.IsPlain token := fun hname =>
    hsealed ▸ Token.sealed_plain bytes _ hname
  have hvouched : Http.IsPlain name → ((∃ expires,
      Http.Carries (Http.delivered (c.headers bookmark)) Header.dbToken (Http.arriving token)
        ∧ Token.validateAt hmacSha256 name (Http.arriving token) secret clock
          = .ok ⟨name, expires⟩) ↔ now.millis + ttl.millis ≤ Instant.lastMillis) := by
    intro hname
    have htoken := hplain hname
    have hcarried := (Http.carries_delivered_iff (c.header?_dbToken bookmark)).mpr htoken
    rw [(Http.isPlain_iff.mp htoken).1, exists_and_left, issued_valid_iff hissued hlive]
    exact and_iff_right hcarried
  rw [reaches_iff, Access.authorizes_delivered_iff (c := c)]
  constructor
  · rintro ⟨hsendable, ⟨hkey, hname, hvalid⟩, -, hshort⟩
    exact ⟨hkey, hname, (hvouched hname).mp hvalid,
      (sendable_iff (c := c) hkey hname (hplain hname)).mp hsendable, hshort⟩
  · rintro ⟨hkey, hname, hfits, hbookmark, hshort⟩
    exact ⟨(sendable_iff (c := c) hkey hname (hplain hname)).mpr hbookmark,
      ⟨hkey, hname, (hvouched hname).mpr hfits⟩, hlast, hshort⟩

open Client in
/-- A blank inside a name is delivered. -/
theorem issued_reaches_iff_spaced :
    ∃ token, Token.issueAt hmacSha256 "my notes" "token-secret" ⟨3600, 0⟩ epoch
        (List.replicate 16 7) = .ok token
      ∧ OrderedMap.LastUnder [("main", timeless), ("my notes", noRows)] "my notes" noRows
      ∧ epoch.millis < Token.expiryAfter epoch ⟨3600, 0⟩
      ∧ Reaches (registering "gateway-key" "token-secret"
          [("main", timeless), ("my notes", noRows)]) epoch
          ⟨"http://localhost:8787", "gateway-key", "my notes", token⟩ probe (some "b-6")
          noRows := by
  have hissued : Token.issueAt hmacSha256 "my notes" "token-secret" ⟨3600, 0⟩ epoch
      (List.replicate 16 7) = .ok _ :=
    Token.issueAt_eq (by decide) (by decide) (by decide) _ _ _
  have hlast : OrderedMap.LastUnder [("main", timeless), ("my notes", noRows)] "my notes" noRows :=
    ⟨[("main", timeless)], [], rfl, by simp⟩
  have hlive : epoch.millis < Token.expiryAfter epoch ⟨3600, 0⟩ := by decide
  have hkey : Http.IsPlain "gateway-key" := ⟨by decide, by decide, by decide⟩
  have hname : Http.IsPlain "my notes" := ⟨by decide, by decide, by decide⟩
  have hbookmark : ∀ b ∈ some "b-6", Http.isSendable b = true := by
    rintro _ ⟨⟩
    decide
  exact ⟨_, hissued, hlast, hlive, (issued_reaches_iff hissued hlast hlive _ _ _ _).mpr
    ⟨hkey, hname, by decide, hbookmark, by decide⟩⟩

open Client in
/-- A token is issued for the name and a store is registered under it, and no request with that
token reaches the store. -/
def Unserved (name : String) : Prop :=
  epoch.millis < Token.expiryAfter epoch ⟨3600, 0⟩
    ∧ ∃ token, Token.issueAt hmacSha256 name "token-secret" ⟨3600, 0⟩ epoch
        (List.replicate 16 7) = .ok token
      ∧ ∀ op bookmark, ¬ Reaches (registering "gateway-key" "token-secret" [(name, noRows)]) epoch
        ⟨"http://localhost:8787", "gateway-key", name, token⟩ op bookmark noRows

theorem unserved_of_lost (hname : name ≠ "") (hundotted : '.' ∉ name.toList)
    (hlost : ¬ (Http.isReadable name = true ∧ trimText name = name)) : Unserved name := by
  refine ⟨by decide, _, Token.issueAt_eq hname hundotted (by decide) _ _ _,
    fun op bookmark hreaches => ?_⟩
  obtain ⟨-, hauthorizes, -⟩ := reaches_iff.mp hreaches
  obtain ⟨-, hplain, -⟩ :=
    (Access.authorizes_delivered_iff (c := ⟨_, _, _, _⟩)).mp hauthorizes
  exact hlost ⟨hplain.readable, hplain.trimmed⟩

/-- An accent, a blank in front and a line break are each accepted in the name of a token, and no
request for that name reaches its store. -/
theorem issued_names_unserved : Unserved "café" ∧ Unserved " main" ∧ Unserved "ma\nin" :=
  ⟨unserved_of_lost (by decide) (by decide) (by decide),
    unserved_of_lost (by decide) (by decide) (by decide),
    unserved_of_lost (by decide) (by decide) (by decide)⟩

end Gateway

end Tabularium
