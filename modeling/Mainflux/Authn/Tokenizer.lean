/-
  Mainflux.Authn.Tokenizer
  ────────────────────────
  **KEYS AND THE JWT TOKENIZER OF THE AUTHN SERVICE.**

  `Codec.issue` and `Codec.parse` are `tokenizer.Issue` and `tokenizer.Parse`
  over the compact tokens of `Lib.Jwt`.  Times are nanoseconds since 1970;
  Go's zero time is the first instant of year one, and a claim that is absent
  from the JSON text is the zero of its type.

    • `parse_signed` — when the token of given claims parses, and to what
      (`Claims.Current`);
    • `authentic_of_parse` — what parses is authentic;
    • `parse_of_not_authentic` — anything else is unauthorized access;
    • `jsonCodec` — the codec with the JSON texts and the HMAC-SHA256 of a
      running service, for concrete runs;
    • `roundTrips_iff` — a key comes back from its token, cut to seconds, unless
      its expiry is the second that the claims take for none.
-/
import Mainflux.Lib.FlatJson
import Mainflux.Lib.Jwt
import Mainflux.Lib.Sha256

namespace Mainflux.Authn

open Mainflux.Lib

/-! ## §1. Keys. -/

/-- The errors of the service, and what it passes on from PostgreSQL and from
the identity provider. -/
inductive Err
  | unauthorizedAccess
  | malformedEntity
  | notFound
  | conflict
  | invalidKeyIssuedAt
  | keyExpired
  | pq (e : PqError)
  | idp
  deriving Repr, DecidableEq

/-- `time.Time{}`: the first of January of year one. -/
def zeroTime : Int := -62135596800000000000

/-- `Time.Unix`: whole seconds, rounded down. -/
def unix (t : Int) : Int := t / 1000000000

/-- `time.Unix(s, 0)`. -/
def ofUnix (s : Int) : Int := s * 1000000000

abbrev KeyType := UInt32

/-- `UserKey`: the temporary key received on successful login. -/
def KeyType.userKey : KeyType := 0

/-- `RecoveryKey`: a key for resetting the password. -/
def KeyType.recoveryKey : KeyType := 1

/-- `APIKey`: lets its holder act on behalf of the user. -/
def KeyType.apiKey : KeyType := 2

structure Key where
  id : String := ""
  type : KeyType := 0
  issuer : String := ""
  secret : String := ""
  issuedAt : Int := zeroTime
  expiresAt : Int := zeroTime
  deriving Repr, DecidableEq

/-- `Key.Expired`. -/
def Key.expired (k : Key) (now : Int) : Prop := k.expiresAt < now

instance (k : Key) (now : Int) : Decidable (k.expired now) :=
  inferInstanceAs (Decidable (k.expiresAt < now))

/-! ## §2. Claims. -/

/-- The claims of a token (no function reads the audience). -/
structure Claims where
  issuer : String := ""
  subject : String := ""
  id : String := ""
  issuedAt : Int := 0
  expiresAt : Int := 0
  notBefore : Int := 0
  type : Option KeyType := none
  deriving Repr, DecidableEq

/-- `StandardClaims.Valid`: a zero claim is an absent one. -/
def Claims.standardValid (now : Int) (c : Claims) : Jwt.Flags where
  expired := ¬ (c.expiresAt = 0 ∨ unix now ≤ c.expiresAt)
  issuedAt := ¬ (c.issuedAt = 0 ∨ c.issuedAt ≤ unix now)
  notValidYet := ¬ (c.notBefore = 0 ∨ c.notBefore ≤ unix now)

/-- `claims.Valid`. -/
def Claims.valid (now : Int) (c : Claims) : Jwt.Flags :=
  match c.type with
  | none => { claimsInvalid := true }
  | some t => if KeyType.apiKey < t then { claimsInvalid := true } else c.standardValid now

/-- `claims.toKey`. -/
def Claims.toKey (c : Claims) : Key where
  id := c.id
  type := c.type.getD 0
  issuer := c.issuer
  secret := c.subject
  issuedAt := ofUnix c.issuedAt
  expiresAt := if c.expiresAt = 0 then zeroTime else ofUnix c.expiresAt

/-- The claims that `tokenizer.Issue` signs for a key. -/
def Key.claims (key : Key) : Claims where
  issuer := key.issuer
  subject := key.secret
  id := key.id
  issuedAt := unix key.issuedAt
  expiresAt := if key.expiresAt = zeroTime then 0 else unix key.expiresAt
  type := some key.type

/-! ## §3. The tokenizer. -/

/-- The codec of the service's claims.  Escaping never shortens a text, so the
JSON text of the claims is at least as long as the subject. -/
structure Codec extends Jwt.Codec Claims where
  subject_le_marshal : ∀ c : Claims, c.subject.length ≤ (marshal c).length

variable (C : Codec)

/-- The token of given claims. -/
def Codec.sign (c : Claims) : String := C.signedString c

/-- `tokenizer.Issue`. -/
def Codec.issue (key : Key) : String := C.sign key.claims

/-- The key function of `tokenizer.Parse`: HMAC methods only. -/
def keyFunc : Jwt.Method → Bool
  | .hmac _ => true
  | .other => false

/-- `tokenizer.Parse`: an expired API key still parses, so that it can be
looked up and revoked. -/
def Codec.parse (now : Int) (token : String) : Except Err Key :=
  match C.parseWithClaims (Claims.valid now) keyFunc token with
  | .ok c => .ok c.toKey
  | .error (.invalid flags c) =>
      if flags = { expired := true } then
        if c.type = some KeyType.apiKey then .ok c.toKey else .error .keyExpired
      else .error .unauthorizedAccess
  | .error _ => .error .unauthorizedAccess

/-- The token's signature is the right one. -/
abbrev Codec.Authentic (token : String) : Prop := Jwt.Codec.Authentic C.toCodec token

/-! ## §4. What parses. -/

/-- Claims of a known type that are not used before their time. -/
structure Claims.Started (now : Int) (c : Claims) (t : KeyType) : Prop where
  type_eq : c.type = some t
  known : t ≤ KeyType.apiKey
  issued : c.issuedAt = 0 ∨ c.issuedAt ≤ unix now
  begun : c.notBefore = 0 ∨ c.notBefore ≤ unix now

/-- Claims whose token parses: started, and not past their expiry unless they
are an API key's. -/
structure Claims.Current (now : Int) (c : Claims) (t : KeyType) : Prop
    extends c.Started now t where
  unexpired : t = KeyType.apiKey ∨ c.expiresAt = 0 ∨ unix now ≤ c.expiresAt

variable {C} {now : Int} {c : Claims} {k : Key} {token : String}

/-- The flags that started claims can have. -/
theorem valid_of_started {t : KeyType} (h : c.Started now t) :
    c.valid now = { expired := ¬ (c.expiresAt = 0 ∨ unix now ≤ c.expiresAt) } := by
  obtain ⟨htype, hknown, hissued, hbegun⟩ := h
  simp only [Claims.valid, htype, Claims.standardValid, hissued, hbegun, not_true, decide_false,
    if_neg (UInt32.not_lt.mpr hknown)]

/-- Claims that have not started fail by more than an expiry. -/
theorem started_of_valid {b : Bool} (h : c.valid now = { expired := b }) :
    ∃ t, c.Started now t := by
  unfold Claims.valid at h
  split at h
  next => cases h
  next t ht =>
      split at h
      next => cases h
      next hle =>
          injection h with _ _ hissued hbegun _
          simp only [decide_eq_false_iff_not, not_not] at hissued hbegun
          exact ⟨t, ht, UInt32.not_lt.mp hle, hissued, hbegun⟩

/-- What the tokenizer makes of claims it has signed. -/
def Claims.verdict (now : Int) (c : Claims) : Except Err Key :=
  if c.valid now = {} then .ok c.toKey
  else if c.valid now = { expired := true } then
    if c.type = some KeyType.apiKey then .ok c.toKey else .error .keyExpired
  else .error .unauthorizedAccess

theorem parse_sign_eq (C : Codec) (now : Int) (c : Claims) :
    C.parse now (C.sign c) = c.verdict now := by
  rw [Codec.parse, Codec.sign, Jwt.parseWithClaims_signedString C.toCodec c rfl, Claims.verdict]
  by_cases hv : c.valid now = {}
  · rw [if_pos hv, if_pos hv]
  · rw [if_neg hv, if_neg hv]

/-- **When the token of `c` parses.** -/
theorem parse_sign : C.parse now (C.sign c) = .ok k ↔ k = c.toKey ∧ ∃ t, c.Current now t := by
  rw [parse_sign_eq]
  unfold Claims.verdict
  constructor
  · intro h
    split at h
    next hv =>
        obtain ⟨t, hs⟩ := started_of_valid hv
        rw [valid_of_started hs] at hv
        injection hv with _ hexp
        simp only [decide_eq_false_iff_not, not_not] at hexp
        exact ⟨(Except.ok.inj h).symm, t, hs, .inr hexp⟩
    next =>
        split at h
        next hv =>
            split at h
            next htype =>
                obtain ⟨t, hs⟩ := started_of_valid hv
                have ht : t = KeyType.apiKey := Option.some.inj (hs.type_eq.symm.trans htype)
                exact ⟨(Except.ok.inj h).symm, t, hs, .inl ht⟩
            next => cases h
        next => cases h
  · rintro ⟨rfl, t, hcur⟩
    have hs : c.Started now t := hcur.toStarted
    by_cases hexp : c.expiresAt = 0 ∨ unix now ≤ c.expiresAt
    · rw [if_pos (by rw [valid_of_started hs]; simp [hexp])]
    · have ht : c.type = some KeyType.apiKey := by
        rcases hcur.unexpired with rfl | h
        · exact hcur.type_eq
        · exact absurd h hexp
      rw [valid_of_started hs]
      simp [hexp, ht]

theorem authentic_of_parse (h : C.parse now token = .ok k) : C.Authentic token := by
  unfold Codec.parse at h
  split at h
  next c hc => exact Jwt.authentic_of_ok hc
  next flags c hc =>
      split at h
      next hexp => exact Jwt.authentic_of_invalid (by rw [hexp]) hc
      next => cases h
  next => cases h

/-- Whatever is not signed with the secret is unauthorized access. -/
theorem parse_of_not_authentic (h : ¬ C.Authentic token) :
    C.parse now token = .error .unauthorizedAccess := by
  unfold Codec.parse
  split
  next c hc => exact absurd (Jwt.authentic_of_ok hc) h
  next flags c hc =>
      split
      next hexp => exact absurd (Jwt.authentic_of_invalid (by rw [hexp]) hc) h
      next => rfl
  next => rfl

/-- An e-mail address is no token. -/
theorem not_authentic_of_at (h : '@' ∈ token.toList) : ¬ C.Authentic token := by
  intro ha
  rcases Jwt.readable_of_authentic ha h with h | h <;> exact absurd h (by decide)

theorem length_subject_lt (C : Codec) (c : Claims) : c.subject.length < (C.sign c).length :=
  Nat.lt_of_le_of_lt (C.subject_le_marshal c) (Jwt.length_marshal_lt C.toCodec c)

/-! ## §5. The codec of a running service. -/

open FlatJson (Scalar)

/-- A field that is omitted when empty. -/
def omitEmpty (k : String) (empty : Prop) [Decidable empty] (v : Scalar) :
    List (String × Scalar) :=
  if empty then [] else [(k, v)]

/-- The JSON fields of the claims, in the order of the Go structure. -/
def Claims.fields (c : Claims) : List (String × Scalar) :=
  omitEmpty "exp" (c.expiresAt = 0) (.int c.expiresAt) ++
    (omitEmpty "jti" (c.id = "") (.str c.id) ++
    (omitEmpty "iat" (c.issuedAt = 0) (.int c.issuedAt) ++
    (omitEmpty "iss" (c.issuer = "") (.str c.issuer) ++
    (omitEmpty "nbf" (c.notBefore = 0) (.int c.notBefore) ++
    (omitEmpty "sub" (c.subject = "") (.str c.subject) ++
    (omitEmpty "type" (c.type = none) (.int (c.type.getD 0).toNat) ++ []))))))

def intField (k : String) (fs : List (String × Scalar)) : Int :=
  match fs.lookup k with
  | some (.int n) => n
  | _ => 0

def strField (k : String) (fs : List (String × Scalar)) : String :=
  match fs.lookup k with
  | some (.str s) => s
  | _ => ""

def Claims.ofFields (fs : List (String × Scalar)) : Claims where
  expiresAt := intField "exp" fs
  id := strField "jti" fs
  issuedAt := intField "iat" fs
  issuer := strField "iss" fs
  notBefore := intField "nbf" fs
  subject := strField "sub" fs
  type :=
    match fs.lookup "type" with
    | some (.int n) => some (UInt32.ofNat n.toNat)
    | _ => none

theorem lookup_omitEmpty (k k' : String) (empty : Prop) [Decidable empty] (v : Scalar)
    (rest : List (String × Scalar)) :
    (omitEmpty k' empty v ++ rest).lookup k
      = if k = k' ∧ ¬ empty then some v else rest.lookup k := by
  unfold omitEmpty
  by_cases he : empty
  · simp [he]
  · by_cases hk : k = k'
    · simp [he, hk]
    · simp [he, hk, List.lookup_cons, beq_eq_false_iff_ne.mpr hk]

theorem ofFields_fields (c : Claims) : Claims.ofFields c.fields = c := by
  have hint : ∀ n : Int, (match if ¬ n = 0 then some (Scalar.int n) else none with
      | some (.int m) => m
      | _ => 0) = n := by
    intro n
    by_cases h : n = 0 <;> simp [h]
  have hstr : ∀ t : String, (match if ¬ t = "" then some (Scalar.str t) else none with
      | some (.str u) => u
      | _ => "") = t := by
    intro t
    by_cases h : t = "" <;> simp [h]
  have htype : ∀ t : Option KeyType,
      (match if ¬ t = none then some (Scalar.int (t.getD 0).toNat) else none with
      | some (.int n) => some (UInt32.ofNat n.toNat)
      | _ => none) = t := by
    intro t
    cases t <;> simp
  obtain ⟨issuer, subject, id, issuedAt, expiresAt, notBefore, type⟩ := c
  simp only [Claims.ofFields, Claims.fields, intField, strField, lookup_omitEmpty, List.lookup_nil,
    String.reduceEq, true_and, false_and, if_false]
  rw [hint, hint, hint, hstr, hstr, hstr, htype]

/-- The header's `alg`, for the texts that are flat objects. -/
def algField (bytes : List UInt8) : Option (Option String) :=
  (FlatJson.readBytes bytes).map fun fs =>
    match fs.lookup "alg" with
    | some (.str alg) => some alg
    | _ => none

/-- `encoding/json` and `crypto/hmac` on the texts of the service's own
tokens; the secret is given by its bytes.  Only `HS256` is ever signed. -/
def jsonCodec (secret : List Nat) : Codec where
  header := algField
  marshal c := FlatJson.writeBytes c.fields
  unmarshal bytes := (FlatJson.readBytes bytes).map Claims.ofFields
  hmac _ signing := (Sha256.hmac secret (signing.map Char.toNat)).map UInt8.ofNat
  header_text := by decide +kernel
  unmarshal_marshal c := by
    rw [FlatJson.readBytes_writeBytes, Option.map_some, ofFields_fields]
  subject_le_marshal c := by
    by_cases h : c.subject = ""
    · rw [h]
      exact Nat.zero_le _
    · refine FlatJson.length_le_writeBytes (k := "sub") ?_
      simp [Claims.fields, omitEmpty, h]

/-- A login token as the service prints it. -/
example : (jsonCodec [115, 101, 99, 114, 101, 116]).sign
      { issuer := "mainflux.authn", subject := "alice@example.com", issuedAt := 1600000000,
        expiresAt := 1600036000, type := some KeyType.userKey }
    = ("eyJhbGciOiJIUzI1NiIsInR5cCI6IkpXVCJ9." ++
        "eyJleHAiOjE2MDAwMzYwMDAsImlhdCI6MTYwMDAwMDAwMCwiaXNzIjoibWFpbmZsdXguYXV0aG4iLCJz" ++
        "dWIiOiJhbGljZUBleGFtcGxlLmNvbSIsInR5cGUiOjB9." ++
        "7FnLJ1rAbISR8bEIp3BtEezp-R3k5B877_3dwRuXk6A") := by
  decide +kernel

/-! ## §6. The round trip. -/

/-- A key with both times cut to seconds. -/
def Key.truncated (k : Key) : Key :=
  { k with issuedAt := ofUnix (unix k.issuedAt), expiresAt := ofUnix (unix k.expiresAt) }

/-- A key comes back from its token while it is current, and every API key does; any other
is expired from the second after its expiry on. -/
structure RoundTrips (C : Codec) (now : Int) (k : Key) : Prop where
  returned : k.type = KeyType.apiKey ∨ k.expiresAt = zeroTime ∨ now ≤ k.expiresAt →
    C.parse now (C.issue k) = .ok k.truncated
  refused : k.type ≠ KeyType.apiKey → k.expiresAt ≠ zeroTime → unix k.expiresAt < unix now →
    C.parse now (C.issue k) = .error .keyExpired

theorem unix_mono {s t : Int} (h : s ≤ t) : unix s ≤ unix t := by
  unfold unix
  omega

theorem unix_zeroTime : unix zeroTime = -62135596800 := by decide

/-- Whatever the expiry, the claims of a key that was issued have started. -/
theorem claims_started (htype : k.type ≤ KeyType.apiKey) (hissued : k.issuedAt ≤ now) :
    k.claims.Started now k.type :=
  ⟨rfl, htype, .inr (unix_mono hissued), .inl rfl⟩

/-- Outside of the second zero the claims have the expiry of the key. -/
theorem claims_toKey (h : unix k.expiresAt ≠ 0) : k.claims.toKey = k.truncated := by
  obtain ⟨id, type, issuer, secret, issuedAt, expiresAt⟩ := k
  by_cases hzero : expiresAt = zeroTime
  · simp only [Key.claims, Claims.toKey, Key.truncated, hzero, if_true]
    rfl
  · simp only [Key.claims, Claims.toKey, Key.truncated, if_neg hzero, Option.getD_some]
    rw [if_neg h]

/-- In the second zero they have none. -/
theorem claims_epoch (h : unix k.expiresAt = 0) : k.claims.expiresAt = 0 := by
  unfold Key.claims
  split
  next => rfl
  next => exact h

/-- The token of a key whose expiry is the second zero parses for ever, and to another
key. -/
theorem parse_epoch (C : Codec) (now : Int) (k : Key) (htype : k.type ≤ KeyType.apiKey)
    (hissued : k.issuedAt ≤ now) (h : unix k.expiresAt = 0) :
    ∃ k', C.parse now (C.issue k) = .ok k' ∧ k'.expiresAt = zeroTime := by
  have hexp : k.claims.expiresAt = 0 := claims_epoch h
  refine ⟨k.claims.toKey, parse_sign.mpr ⟨rfl, k.type, claims_started htype hissued, ?_⟩, ?_⟩
  · exact .inr (.inl hexp)
  · exact if_pos hexp

/-- In the second zero a key does not come back: only where the law is silent is it not
broken. -/
theorem roundTrips_epoch (C : Codec) (htype : k.type ≤ KeyType.apiKey) (hissued : k.issuedAt ≤ now)
    (hepoch : unix k.expiresAt = 0) :
    RoundTrips C now k ↔ k.type ≠ KeyType.apiKey ∧ k.expiresAt < now ∧ unix now = 0 := by
  -- the token parses, and its key is not the one that was issued
  obtain ⟨k', hparse, hexp⟩ := parse_epoch C now k htype hissued hepoch
  have hne : k' ≠ k.truncated := by
    intro heq
    rw [heq] at hexp
    have hepoch' : ofUnix (unix k.expiresAt) = zeroTime := hexp
    rw [hepoch] at hepoch'
    exact absurd hepoch' (by decide)
  have hpresent : k.expiresAt ≠ zeroTime := by
    intro hzero
    rw [hzero, unix_zeroTime] at hepoch
    omega
  constructor
  · intro h
    have hsilent : ¬ (k.type = KeyType.apiKey ∨ k.expiresAt = zeroTime ∨ now ≤ k.expiresAt) :=
      fun hcur => hne (Except.ok.inj (hparse.symm.trans (h.returned hcur)))
    have hsame : ¬ unix k.expiresAt < unix now := by
      intro hlt
      have herr := h.refused (fun ht => hsilent (.inl ht)) hpresent hlt
      rw [hparse] at herr
      cases herr
    have hlt : k.expiresAt < now := Int.not_le.mp fun hle => hsilent (.inr (.inr hle))
    have hle : unix k.expiresAt ≤ unix now := unix_mono (Int.le_of_lt hlt)
    exact ⟨fun ht => hsilent (.inl ht), hlt, by omega⟩
  · rintro ⟨hapi, hlt, hnow⟩
    refine ⟨fun hcur => ?_, fun _ _ hearlier => ?_⟩
    · rcases hcur with hcur | hcur | hcur
      · exact absurd hcur hapi
      · exact absurd hcur hpresent
      · omega
    · omega

/-- Outside of it every key does. -/
theorem roundTrips_of_ne_epoch (C : Codec) (htype : k.type ≤ KeyType.apiKey)
    (hissued : k.issuedAt ≤ now) (hepoch : unix k.expiresAt ≠ 0) : RoundTrips C now k := by
  have hstarted : k.claims.Started now k.type := claims_started htype hissued
  constructor
  · intro hcur
    rw [← claims_toKey hepoch]
    refine parse_sign.mpr ⟨rfl, k.type, hstarted, ?_⟩
    rcases hcur with hcur | hcur | hcur
    · exact .inl hcur
    · exact .inr (.inl (if_pos hcur))
    · by_cases hzero : k.expiresAt = zeroTime
      · exact .inr (.inl (if_pos hzero))
      · refine .inr (.inr ?_)
        rw [Key.claims, if_neg hzero]
        exact unix_mono hcur
  · intro hapi hpresent hearlier
    have hexp : k.claims.expiresAt = unix k.expiresAt := if_neg hpresent
    have hpast : ¬ (k.claims.expiresAt = 0 ∨ unix now ≤ k.claims.expiresAt) := by omega
    have hparse : C.parse now (C.issue k) = k.claims.verdict now := parse_sign_eq C now k.claims
    have htype' : k.claims.type ≠ some KeyType.apiKey := fun h => hapi (Option.some.inj h)
    rw [hparse, Claims.verdict, valid_of_started hstarted]
    simp [hpast, htype']

/-- **When a key comes back from its token.** -/
theorem roundTrips_iff (C : Codec) (now : Int) (k : Key) (htype : k.type ≤ KeyType.apiKey)
    (hissued : k.issuedAt ≤ now) :
    RoundTrips C now k ↔
      unix k.expiresAt ≠ 0 ∨ k.type ≠ KeyType.apiKey ∧ k.expiresAt < now ∧ unix now = 0 := by
  by_cases hepoch : unix k.expiresAt = 0
  · rw [roundTrips_epoch C htype hissued hepoch]
    exact ⟨.inr, fun h => h.resolve_left (not_not_intro hepoch)⟩
  · exact iff_of_true (roundTrips_of_ne_epoch C htype hissued hepoch) (.inl hepoch)

/-- A login key, an hour after it was issued. -/
theorem roundTrips_iff_login :
    RoundTrips (jsonCodec [115, 101, 99, 114, 101, 116]) 1600003600000000000
      { issuer := "mainflux.authn", secret := "alice@example.com", issuedAt := 1600000000000000000,
        expiresAt := 1600036000000000000 } :=
  (roundTrips_iff _ _ _ (by decide) (by decide)).mpr (.inl (by decide))

/-- A login key of 1969 that expires with the year. -/
def lastOf1969 : Key where
  issuer := "mainflux.authn"
  secret := "alice@example.com"
  issuedAt := -36000000000000
  expiresAt := 0

/-- It is good for ever. -/
theorem epoch_never_expires :
    ¬ ∀ (C : Codec) (now : Int) (k : Key), k.type ≤ KeyType.apiKey → k.issuedAt ≤ now →
      (k.expiresAt = zeroTime ∨ k.issuedAt < k.expiresAt) → RoundTrips C now k := by
  intro h
  have htrip := h (jsonCodec [115, 101, 99, 114, 101, 116]) 1600000000000000000 lastOf1969
    (by decide) (by decide) (.inr (by decide))
  obtain ⟨k', hparse, -⟩ := parse_epoch (jsonCodec [115, 101, 99, 114, 101, 116])
    1600000000000000000 lastOf1969 (by decide) (by decide) (by decide)
  have hrefused := htrip.refused (by decide) (by decide) (by decide)
  rw [hparse] at hrefused
  cases hrefused

end Mainflux.Authn
