/-
  Mainflux.Authn.Api
  ──────────────────
  **THE HTTP AND gRPC ENDPOINTS OF THE AUTHN SERVICE.**

  Requests are validated, stamped with the current time and handed to the
  service.  Over HTTP the `Authorization` header is the issuer of the new key:
  for an API key the service logs it in, for a user key the service takes it
  as the subject, and the validator asks nothing of it.

    • `noEscalation_iff` — issuing over HTTP gives a caller no identity beyond
      the one already proved, except that asking for a user key gives any;
    • `expiresAt_iff` — an API key expires after the duration asked for as long
      as that many nanoseconds fit in 64 bits.
-/
import Mainflux.Authn.Soundness

namespace Mainflux.Authn

open Mainflux.Lib

/-! ## §1. HTTP. -/

/-- `issueKeyReq`: the header, and the two fields of the body. -/
structure IssueKeyReq where
  issuer : String
  type : KeyType
  duration : Int64
  deriving DecidableEq

/-- It is not possible to issue a reset key using the HTTP API. -/
def IssueKeyReq.validate (req : IssueKeyReq) : Except Err Unit :=
  if req.type = KeyType.userKey then .ok ()
  else if req.issuer = "" ∨ req.type ≠ KeyType.apiKey then .error .malformedEntity
  else .ok ()

/-- `keyReq`. -/
structure KeyReq where
  issuer : String
  id : String
  deriving DecidableEq

def KeyReq.validate (req : KeyReq) : Except Err Unit :=
  if req.issuer = "" ∨ req.id = "" then .error .malformedEntity else .ok ()

/-- `issueKeyRes`. -/
structure IssueKeyRes where
  id : String
  value : String
  issuedAt : Int
  expiresAt : Option Int
  deriving Repr, DecidableEq

variable (E : Env) (now : Nat)

/-- The key that `issueEndpoint` asks for.  The duration is in seconds and is
scaled in 64 bits. -/
def IssueKeyReq.newKey (req : IssueKeyReq) : Key where
  issuer := req.issuer
  issuedAt := now
  type := req.type
  expiresAt :=
    if req.duration * 1000000000 ≠ 0 then now + (req.duration * 1000000000).toInt else zeroTime

/-- `issueEndpoint`. -/
def issueEndpoint (req : IssueKeyReq) (w : World) : World × Except Err IssueKeyRes :=
  match req.validate with
  | .error e => (w, .error e)
  | .ok () =>
      match issue E now req.issuer (req.newKey now) w with
      | (w, .error e) => (w, .error e)
      | (w, .ok key) =>
          (w, .ok ⟨key.id, key.secret, key.issuedAt,
            if key.expiresAt = zeroTime then none else some key.expiresAt⟩)

/-- `revokeEndpoint`. -/
def revokeEndpoint (req : KeyReq) (w : World) : World × Except Err Unit :=
  match req.validate with
  | .error e => (w, .error e)
  | .ok () => revoke E now req.issuer req.id w

/-- `retrieveEndpoint`. -/
def retrieveEndpoint (req : KeyReq) (w : World) : Except Err Key :=
  match req.validate with
  | .error e => .error e
  | .ok () => retrieveKey E now req.issuer req.id w

/-! ## §2. gRPC. -/

/-- The status a gRPC client receives. -/
inductive Status
  | invalidArgument
  | unauthenticated (err : Err)
  | internal
  deriving Repr, DecidableEq

/-- `encodeError`. -/
def encodeError : Err → Status
  | .malformedEntity => .invalidArgument
  | .unauthorizedAccess => .unauthenticated .unauthorizedAccess
  | .keyExpired => .unauthenticated .keyExpired
  | _ => .internal

/-- `issueReq.validate`. -/
def validateIssue (issuer : String) (keyType : KeyType) : Except Err Unit :=
  if issuer = "" then .error .unauthorizedAccess
  else if keyType ≠ KeyType.userKey ∧ keyType ≠ KeyType.apiKey ∧ keyType ≠ KeyType.recoveryKey then
    .error .malformedEntity
  else .ok ()

/-- The gRPC `Issue`: the reply is the token. -/
def grpcIssue (issuer : String) (keyType : KeyType) (w : World) :
    World × Except Status String :=
  match validateIssue issuer keyType with
  | .error e => (w, .error (encodeError e))
  | .ok () =>
      match issue E now issuer { type := keyType, issuedAt := now } w with
      | (w, .error e) => (w, .error (encodeError e))
      | (w, .ok key) => (w, .ok key.secret)

/-- The gRPC `Identify`; `identityReq.kind` is never set by a client and so is
always a user key's. -/
def grpcIdentify (token : String) (w : World) : World × Except Status String :=
  if token = "" then (w, .error (encodeError .malformedEntity))
  else
    match identify E now token w with
    | (w, .error e) => (w, .error (encodeError e))
    | (w, .ok id) => (w, .ok id)

/-! ## §3. No escalation, and where it fails. -/

/-- A key returned for the header `a` identifies nobody whom `a`, as a user
key, did not identify already. -/
def NoEscalation (E : Env) (now : Nat) (req : IssueKeyReq) (w : World) : Prop :=
  ∀ res e, (issueEndpoint E now req w).2 = .ok res →
    (identify E now res.value (issueEndpoint E now req w).1).2 = .ok e →
    (∃ k, E.codec.parse now req.issuer = .ok k ∧ k.type = KeyType.userKey) ∧
      (identify E now req.issuer w).2 = .ok e

variable {E now} {w : World} {req : IssueKeyReq}

theorem newKey_issuedAt : (req.newKey now).issuedAt ≠ zeroTime := by
  have h : (now : Int) ≠ zeroTime := by
    unfold zeroTime
    omega
  exact h

/-- A valid request that is not for a user key is for an API key. -/
theorem validate_type (h : req.validate = .ok ()) (ht : req.type ≠ KeyType.userKey) :
    req.type = KeyType.apiKey := by
  rw [IssueKeyReq.validate, if_neg ht] at h
  split at h
  next => cases h
  next hne => exact not_not.mp fun hapi => hne (.inr hapi)

/-- What the endpoint returns and leaves behind is what the service does. -/
theorem issueEndpoint_ok {res : IssueKeyRes} (h : (issueEndpoint E now req w).2 = .ok res) :
    ∃ key, (issue E now req.issuer (req.newKey now) w).2 = .ok key ∧ res.value = key.secret ∧
      (issueEndpoint E now req w).1 = (issue E now req.issuer (req.newKey now) w).1 := by
  unfold issueEndpoint at h ⊢
  split at h
  next => cases h
  next hv =>
      split at h
      next => cases h
      next w' key hissue =>
          rw [hissue]
          exact ⟨key, rfl, by rw [← Except.ok.inj h], rfl⟩

/-- A user key of the service identifies its subject. -/
theorem identify_user {token : String} {k : Key} (hparse : E.codec.parse now token = .ok k)
    (ht : k.type = KeyType.userKey) (hiss : k.issuer = issuerName) :
    identify E now token w = (w, .ok k.secret) := by
  have hapi : k.type ≠ KeyType.apiKey := by rw [ht]; decide
  simp only [identify, hparse]
  rw [if_neg hapi, if_pos (.inr ht), if_neg (not_not.mpr hiss)]

/-- An API key asks for a login, and identifies the same user. -/
theorem noEscalation_api (hservice : NamesService w) (hunforged : E.Unforged w req.issuer)
    (ht : req.type = KeyType.apiKey) : NoEscalation E now req w := by
  intro res e hres hid
  obtain ⟨key, hkey, hval, hw⟩ := issueEndpoint_ok hres
  rw [issue_api newKey_issuedAt ht] at hkey hw
  obtain ⟨e', u, hlogin, -, rfl, -⟩ := userKey_ok hkey
  obtain ⟨-, k, hparse, hk, hsecret⟩ := login_ok hlogin
  obtain ⟨c, hc, htoken⟩ := hunforged (authentic_of_parse hparse)
  rw [htoken] at hparse ⊢
  obtain ⟨rfl, t, hcur⟩ := parse_sign.mp hparse
  -- the new token names the user who logged in
  have he : e = e' := by
    rw [hval] at hid
    obtain ⟨k', hparse', hcase⟩ := identify_ok hid
    obtain ⟨rfl, -⟩ := parse_sign.mp hparse'
    rcases hcase with ⟨-, hiss, -⟩ | ⟨hkind, -⟩
    · exact hiss.symm
    · have hkind' : (req.newKey now).type = KeyType.recoveryKey ∨
          (req.newKey now).type = KeyType.userKey := hkind
      rw [show (req.newKey now).type = KeyType.apiKey from ht] at hkind'
      exact absurd hkind' (by decide)
  have hiss : c.toKey.issuer = issuerName := by
    refine hservice c hc fun hapi => ?_
    have htype : c.toKey.type = KeyType.apiKey := congrArg (Option.getD · 0) hapi
    exact absurd (htype.symm.trans hk) (by decide)
  refine ⟨⟨c.toKey, hparse, hk⟩, ?_⟩
  rw [identify_user hparse hk hiss, hsecret, he]

/-- The key returned for a user-key request, whatever its header says. -/
def IssueKeyReq.loginKey (now : Nat) (req : IssueKeyReq) : Key :=
  { req.newKey now with
    secret := req.issuer, issuer := issuerName, expiresAt := now + loginDuration }

theorem issueEndpoint_user (E : Env) (now : Nat) (w : World) (ht : req.type = KeyType.userKey) :
    (issueEndpoint E now req w).1 = { w with signed := w.signed ++ [(req.loginKey now).claims] } ∧
      ∃ res, (issueEndpoint E now req w).2 = .ok res ∧
        res.value = E.codec.issue (req.loginKey now) := by
  have hvalid : req.validate = .ok () := by rw [IssueKeyReq.validate, if_pos ht]
  simp only [issueEndpoint, hvalid, issue_login newKey_issuedAt ht]
  exact ⟨rfl, _, rfl, rfl⟩

/-- The new key identifies the header itself. -/
theorem identify_loginKey (ht : req.type = KeyType.userKey) :
    (identify E now (E.codec.issue (req.loginKey now)) w).2 = .ok req.issuer := by
  have hcur : (req.loginKey now).claims.Current now KeyType.userKey := by
    refine ⟨⟨congrArg some ht, by decide, .inr (Int.le_refl _), .inl rfl⟩, .inr (.inr ?_)⟩
    have hexp : (req.loginKey now).expiresAt ≠ zeroTime := by
      have h : (now : Int) + loginDuration ≠ zeroTime := by
        unfold loginDuration zeroTime
        omega
      exact h
    rw [Key.claims, if_neg hexp]
    have hle : unix now ≤ unix (now + loginDuration) := by
      unfold unix loginDuration
      omega
    exact hle
  have hparse : E.codec.parse now (E.codec.issue (req.loginKey now))
      = .ok (req.loginKey now).claims.toKey := parse_sign.mpr ⟨rfl, _, hcur⟩
  rw [identify_user hparse ht rfl]
  rfl

/-- A user key is given to whoever asks, for any subject. -/
theorem escalation_user (hunforged : E.Unforged w req.issuer) (ht : req.type = KeyType.userKey) :
    ¬ NoEscalation E now req w := by
  intro hno
  obtain ⟨-, res, hres, hval⟩ := issueEndpoint_user E now w ht
  obtain ⟨⟨k, hparse, hk⟩, hid⟩ := hno res req.issuer hres (by rw [hval]; exact identify_loginKey ht)
  -- the header would be a token that carries itself as its subject
  obtain ⟨c, -, htoken⟩ := hunforged (authentic_of_parse hparse)
  rw [htoken] at hparse
  obtain ⟨rfl, -⟩ := parse_sign.mp hparse
  have hsub : c.subject = req.issuer := by
    obtain ⟨k', hparse', hcase⟩ := identify_ok hid
    rw [htoken, hparse] at hparse'
    cases hparse'
    rcases hcase with ⟨hapi, -⟩ | ⟨-, -, hsecret⟩
    · exact absurd (hk.symm.trans hapi) (by decide)
    · exact hsecret
  have hlt := length_subject_lt E.codec c
  rw [hsub, ← htoken] at hlt
  exact Nat.lt_irrefl _ hlt

/-- **No escalation, exactly.**  In every reachable state and for every request
that the validator accepts. -/
theorem noEscalation_iff (E : Env) (reqs : List Request) {now : Nat} {req : IssueKeyReq}
    (hvalid : req.validate = .ok ())
    (hunforged : E.Unforged (run (next E) .init reqs) req.issuer) :
    NoEscalation E now req (run (next E) .init reqs) ↔ req.type ≠ KeyType.userKey := by
  constructor
  · intro hno ht
    exact escalation_user hunforged ht hno
  · intro ht
    exact noEscalation_api (namesService_run reqs) hunforged (validate_type hvalid ht)

/-- Alice asks for an API key for `d` seconds. -/
def aliceAsks (C : Codec) (d : Int64) : IssueKeyReq := ⟨C.issue aliceUser, KeyType.apiKey, d⟩

/-- No token is empty. -/
theorem issue_ne_empty (C : Codec) (k : Key) : C.issue k ≠ "" := by
  intro h
  have hlt := length_subject_lt C k.claims
  rw [show C.sign k.claims = "" from h] at hlt
  exact Nat.not_lt_zero _ hlt

theorem aliceAsks_valid (C : Codec) (d : Int64) : (aliceAsks C d).validate = .ok () := by
  have hgood : ¬ (C.issue aliceUser = "" ∨ KeyType.apiKey ≠ KeyType.apiKey) := by
    simp [issue_ne_empty]
  exact (if_neg (show KeyType.apiKey ≠ KeyType.userKey by decide)).trans (if_neg hgood)

/-- Alice asks for an API key with her token. -/
theorem noEscalation_iff_alice :
    NoEscalation (demo demoCodec) clock ⟨demoCodec.issue aliceUser, KeyType.apiKey, 3600⟩
        (run (next (demo demoCodec)) .init [aliceLogin]) ↔
      KeyType.apiKey ≠ KeyType.userKey :=
  noEscalation_iff (demo demoCodec) [aliceLogin] (aliceAsks_valid demoCodec 3600)
    (fun _ => ⟨_, by rw [alice_first]; exact List.mem_cons_self, rfl⟩)

/-- Mallory asks for a user key with Alice's e-mail address as the header and is
Alice from then on. -/
theorem escalation_mallory :
    ¬ NoEscalation (demo demoCodec) clock ⟨"alice@example.com", KeyType.userKey, 0⟩ .init :=
  escalation_user (fun h => absurd h (not_authentic_of_at (by decide +kernel))) rfl

/-! ## §4. Durations. -/

/-- Scaling to nanoseconds is exact for up to 9223372036 seconds, some 292 years. -/
theorem scaled_iff {d : Int64} (hpos : 0 < d) :
    (d * 1000000000).toInt = d.toInt * 1000000000 ↔ d ≤ 9223372036 := by
  have hpos' : 0 < d.toInt := Int64.lt_iff_toInt_lt.mp hpos
  have hmul : (d * 1000000000).toInt = (d.toInt * 1000000000).bmod (2 ^ 64) := Int64.toInt_mul d _
  have hle : d ≤ 9223372036 ↔ d.toInt ≤ 9223372036 := Int64.le_iff_toInt_le
  rw [hmul, hle]
  constructor
  · intro h
    -- what 64 bits hold is below `2 ^ 63`
    have hlt : (d.toInt * 1000000000).bmod (2 ^ 64) < (2 ^ 64 + 1) / 2 := Int.bmod_lt (by decide)
    omega
  · intro h
    exact Int.bmod_eq_of_le (by omega) (by omega)

/-- The response has the expiry of the key that was asked for. -/
theorem issueEndpoint_expiresAt {res : IssueKeyRes} (ht : req.type = KeyType.apiKey)
    (h : (issueEndpoint E now req w).2 = .ok res) :
    res.expiresAt
      = if (req.newKey now).expiresAt = zeroTime then none else some (req.newKey now).expiresAt := by
  unfold issueEndpoint at h
  split at h
  next => cases h
  next hv =>
      split at h
      next => cases h
      next w' key hissue =>
          rw [issue_api newKey_issuedAt ht] at hissue
          obtain ⟨e, u, -, -, hkey, -⟩ := userKey_ok (congrArg Prod.snd hissue)
          rw [← Except.ok.inj h, hkey]
          rfl

/-- **When an API key expires as asked.** -/
theorem expiresAt_iff (E : Env) (now : Nat) (req : IssueKeyReq) (w : World) (res : IssueKeyRes)
    (hpos : 0 < req.duration) (ht : req.type = KeyType.apiKey)
    (hres : (issueEndpoint E now req w).2 = .ok res) :
    res.expiresAt = some (now + req.duration.toInt * 1000000000) ↔
      req.duration ≤ 9223372036 := by
  have hpos' : 0 < req.duration.toInt := Int64.lt_iff_toInt_lt.mp hpos
  rw [issueEndpoint_expiresAt ht hres, ← scaled_iff hpos]
  -- a scaled duration of zero is no duration at all
  by_cases hzero : req.duration * 1000000000 = 0
  · have hexp : (req.newKey now).expiresAt = zeroTime := if_neg (not_not.mpr hzero)
    rw [if_pos hexp, hzero]
    simp only [reduceCtorEq, Int64.toInt_zero, false_iff]
    omega
  · have hexp : (req.newKey now).expiresAt = now + (req.duration * 1000000000).toInt :=
      if_pos hzero
    have hlow : -9223372036854775808 ≤ (req.duration * 1000000000).toInt := Int64.le_toInt _
    have hne : (now : Int) + (req.duration * 1000000000).toInt ≠ zeroTime := by
      unfold zeroTime
      omega
    rw [hexp, if_neg hne, Option.some.injEq]
    omega

/-- Whatever the scaling gives, PostgreSQL can store it. -/
theorem newKey_fits (req : IssueKeyReq) : fitsTimestamp (req.newKey clock).expiresAt := by
  have hlow : -9223372036854775808 ≤ (req.duration * 1000000000).toInt := Int64.le_toInt _
  have hhigh : (req.duration * 1000000000).toInt < 9223372036854775808 := Int64.toInt_lt _
  by_cases hzero : req.duration * 1000000000 = 0
  · have hexp : (req.newKey clock).expiresAt = zeroTime := if_neg (not_not.mpr hzero)
    rw [hexp]
    decide
  · have hexp : (req.newKey clock).expiresAt = clock + (req.duration * 1000000000).toInt :=
      if_pos hzero
    rw [hexp, fitsTimestamp, clock]
    omega

theorem aliceAsks_ok (C : Codec) (d : Int64) :
    ∃ res, (issueEndpoint (demo C) clock (aliceAsks C d)
      (run (next (demo C)) .init [aliceLogin])).2 = .ok res := by
  have hclock : fitsTimestamp clock := by decide
  rw [alice_first]
  have hstep := step_api (w := ⟨[], 0, [aliceUser.claims]⟩)
    (r := ⟨clock, .issue (C.issue aliceUser) ((aliceAsks C d).newKey clock)⟩) (u := UUID.fill 0)
    ((aliceAsks C d).newKey clock) rfl newKey_issuedAt rfl (alice_login C) rfl (by decide)
    ⟨hclock, newKey_fits _⟩ (fun r hr => absurd hr List.not_mem_nil)
  have hissue := Reply.key.inj (congrArg Prod.snd hstep)
  unfold issueEndpoint
  rw [aliceAsks_valid]
  rcases hrun : issue (demo C) clock (aliceAsks C d).issuer ((aliceAsks C d).newKey clock)
    ⟨[], 0, [aliceUser.claims]⟩ with ⟨w', r⟩
  have hr : r = _ := (congrArg Prod.snd hrun).symm.trans hissue
  subst hr
  exact ⟨_, rfl⟩

/-- One hour. -/
theorem expiresAt_iff_alice :
    ∃ res, (issueEndpoint (demo demoCodec) clock (aliceAsks demoCodec 3600)
        (run (next (demo demoCodec)) .init [aliceLogin])).2 = .ok res ∧
      res.expiresAt = some (clock + 3600 * 1000000000) := by
  obtain ⟨res, hres⟩ := aliceAsks_ok demoCodec 3600
  exact ⟨res, hres, (expiresAt_iff (demo demoCodec) clock (aliceAsks demoCodec 3600) _ res
    (show (0 : Int64) < 3600 by decide) rfl hres).mpr (show (3600 : Int64) ≤ 9223372036 by decide)⟩

/-- `2 ^ 55` seconds are scaled to zero, and the key has no expiry. -/
theorem billion_years_no_expiry :
    ¬ ∀ (E : Env) (now : Nat) (req : IssueKeyReq) (w : World) (res : IssueKeyRes),
      0 < req.duration → req.type = KeyType.apiKey → (issueEndpoint E now req w).2 = .ok res →
        res.expiresAt = some (now + req.duration.toInt * 1000000000) := by
  intro h
  have hzero : ((aliceAsks demoCodec 36028797018963968).newKey clock).expiresAt = zeroTime := by
    have hwrap : (36028797018963968 : Int64) * 1000000000 = 0 := by decide
    rw [IssueKeyReq.newKey, aliceAsks, hwrap]
    rfl
  obtain ⟨res, hres⟩ := aliceAsks_ok demoCodec 36028797018963968
  have hpos : (0 : Int64) < 36028797018963968 := by decide
  have hexp := h (demo demoCodec) clock (aliceAsks demoCodec 36028797018963968) _ res hpos rfl hres
  rw [issueEndpoint_expiresAt rfl hres, if_pos hzero] at hexp
  cases hexp

end Mainflux.Authn
