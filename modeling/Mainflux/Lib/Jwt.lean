/-
  Mainflux.Lib.Jwt
  ────────────────
  **SIGNED COMPACT TOKENS (the parts of `jwt-go` that a tokenizer uses).**

  A token is three base64url segments joined by dots: the header, the claims
  and the MAC of the two.  The claims type is arbitrary.  What the code hands
  to `encoding/json` and `crypto/hmac` is a parameter (`Codec`): writing and
  reading the claims, reading the header's `alg`, and the MAC under the
  service's secret, about which nothing is assumed.

    • `parseWithClaims_signedString` — a signed token parses to its claims
      and fails only by the flags of the claims' own validation;
    • `Authentic` — the signature check passes; `authentic_of_ok` and
      `authentic_of_invalid` say that nothing else is ever accepted;
    • `readable_of_authentic` — an authentic token has base64url characters
      and dots only, so no e-mail address is one.
-/
import Mainflux.Lib.Base64

namespace Mainflux.Lib.Jwt

/-! ## §1. Signing methods and validation errors. -/

inductive Hash
  | sha256
  | sha384
  | sha512
  deriving Repr, DecidableEq

/-- A registered signing method; `other` are the asymmetric ones and `none`,
which no byte-string key satisfies. -/
inductive Method
  | hmac (h : Hash)
  | other
  deriving Repr, DecidableEq

/-- `GetSigningMethod`. -/
def getSigningMethod (alg : String) : Option Method :=
  if alg = "HS256" then some (.hmac .sha256)
  else if alg = "HS384" then some (.hmac .sha384)
  else if alg = "HS512" then some (.hmac .sha512)
  else if alg ∈ ["RS256", "RS384", "RS512", "PS256", "PS384", "PS512", "ES256", "ES384", "ES512",
      "none"] then some .other
  else none

/-- The bits of `ValidationError.Errors` that can stand together. -/
structure Flags where
  claimsInvalid : Bool := false
  expired : Bool := false
  issuedAt : Bool := false
  notValidYet : Bool := false
  signatureInvalid : Bool := false
  deriving Repr, DecidableEq

/-- Why a token is refused.  With `invalid` the caller's claims value has been
filled in. -/
inductive ValidationError (γ : Type)
  | malformed
  | unverifiable
  | invalid (flags : Flags) (claims : γ)
  deriving Repr, DecidableEq

/-! ## §2. What the library leaves to others. -/

/-- The header text of every signed token. -/
def headerText : String := "\x7b\"alg\":\"HS256\",\"typ\":\"JWT\"\x7d"

/-- The bytes of an ASCII text. -/
def ascii (s : String) : List UInt8 := s.toList.map fun c => UInt8.ofNat c.toNat

/-- `encoding/json` on the header and on claims of type `γ`, and the HMAC
under the secret.  `header` is `none` on a text that is no JSON object, else
the `alg` field if that is a string. -/
structure Codec (γ : Type) where
  header : List UInt8 → Option (Option String)
  marshal : γ → List UInt8
  unmarshal : List UInt8 → Option γ
  hmac : Hash → List Char → List UInt8
  header_text : header (ascii headerText) = some (some "HS256")
  unmarshal_marshal : ∀ c, unmarshal (marshal c) = some c

variable {γ : Type} (C : Codec γ)

/-! ## §3. Signing. -/

/-- `Token.SigningString`. -/
def Codec.signingString (c : γ) : List Char :=
  Base64.encode (ascii headerText) ++ '.' :: Base64.encode (C.marshal c)

/-- `Token.SignedString` with `HS256`. -/
def Codec.signedString (c : γ) : String :=
  String.ofList (C.signingString c ++
    '.' :: Base64.encode (C.hmac .sha256 (C.signingString c)))

/-! ## §4. Parsing. -/

/-- A parsed but unverified token. -/
structure Unverified (γ : Type) where
  method : Method
  claims : γ
  signing : List Char
  signature : List Char

/-- `Parser.ParseUnverified`. -/
def Codec.parseUnverified (token : String) : Except (ValidationError γ) (Unverified γ) :=
  match token.toList.splitOn '.' with
  | [p0, p1, p2] =>
      match (Base64.decode p0).bind C.header with
      | none => .error .malformed
      | some alg =>
          match (Base64.decode p1).bind C.unmarshal with
          | none => .error .malformed
          | some c =>
              match alg.bind getSigningMethod with
              | none => .error .unverifiable
              | some m => .ok ⟨m, c, p0 ++ '.' :: p1, p2⟩
  | _ => .error .malformed

/-- `SigningMethod.Verify` under a byte-string key. -/
def Codec.verify : Method → List Char → List Char → Bool
  | .hmac h, signing, signature => Base64.decode signature = some (C.hmac h signing)
  | .other, _, _ => false

/-- `Parser.ParseWithClaims`: `valid` is `Claims.Valid` at the current time,
`keyFunc` says for which methods there is a key. -/
def Codec.parseWithClaims (valid : γ → Flags) (keyFunc : Method → Bool) (token : String) :
    Except (ValidationError γ) γ :=
  match C.parseUnverified token with
  | .error e => .error e
  | .ok u =>
      if keyFunc u.method then
        let flags :=
          if C.verify u.method u.signing u.signature then valid u.claims
          else { valid u.claims with signatureInvalid := true }
        if flags = {} then .ok u.claims else .error (.invalid flags u.claims)
      else .error .unverifiable

/-- The token's signature is the right one. -/
def Codec.Authentic (token : String) : Prop :=
  ∃ u, C.parseUnverified token = .ok u ∧ C.verify u.method u.signing u.signature = true

/-! ## §5. A signed token parses. -/

theorem dot_notMem_encode (bytes : List UInt8) : '.' ∉ Base64.encode bytes := by
  intro h
  exact absurd (Base64.isSome_of_mem_encode h) (by decide)

theorem splitOn_three {a b c : List Char} (ha : '.' ∉ a) (hb : '.' ∉ b) (hc : '.' ∉ c) :
    (a ++ '.' :: (b ++ '.' :: c)).splitOn '.' = [a, b, c] := by
  rw [List.splitOn_append_cons_self_of_not_mem ha, List.splitOn_append_cons_self_of_not_mem hb,
    List.splitOn_eq_singleton hc]

theorem parseUnverified_signedString (c : γ) :
    C.parseUnverified (C.signedString c)
      = .ok ⟨.hmac .sha256, c, C.signingString c,
          Base64.encode (C.hmac .sha256 (C.signingString c))⟩ := by
  have hsplit : (C.signedString c).toList.splitOn '.'
      = [Base64.encode (ascii headerText), Base64.encode (C.marshal c),
          Base64.encode (C.hmac .sha256 (C.signingString c))] := by
    rw [Codec.signedString, String.toList_ofList]
    nth_rewrite 1 [Codec.signingString]
    rw [List.append_assoc, List.cons_append]
    exact splitOn_three (dot_notMem_encode _) (dot_notMem_encode _) (dot_notMem_encode _)
  have halg : (some "HS256").bind getSigningMethod = some (.hmac .sha256) := by decide
  simp only [Codec.parseUnverified, hsplit, Base64.decode_encode, Option.bind_some, C.header_text,
    C.unmarshal_marshal, halg, Codec.signingString]

/-- **Parsing a signed token** leaves only the validation of its claims. -/
theorem parseWithClaims_signedString {valid : γ → Flags} {keyFunc : Method → Bool} (c : γ)
    (hkey : keyFunc (.hmac .sha256) = true) :
    C.parseWithClaims valid keyFunc (C.signedString c)
      = if valid c = {} then .ok c else .error (.invalid (valid c) c) := by
  simp only [Codec.parseWithClaims, parseUnverified_signedString, hkey, if_true, Codec.verify,
    Base64.decode_encode, decide_true]

/-- A token is longer than the claims text it carries. -/
theorem length_marshal_lt (c : γ) : (C.marshal c).length < (C.signedString c).length := by
  have h := Base64.length_le_encode (C.marshal c)
  rw [Codec.signedString, String.length_ofList]
  simp only [Codec.signingString, List.length_append, List.length_cons]
  omega

/-! ## §6. Only authentic tokens are accepted. -/

variable {C}

theorem authentic_of_ok {valid : γ → Flags} {keyFunc : Method → Bool} {token : String} {c : γ}
    (h : C.parseWithClaims valid keyFunc token = .ok c) : C.Authentic token := by
  unfold Codec.parseWithClaims at h
  split at h
  next => cases h
  next u hu =>
      refine ⟨u, hu, ?_⟩
      by_contra hv
      simp only [hv] at h
      split at h
      · simp at h
      · cases h

/-- Before the signature is looked at, a failure fills in no flags. -/
theorem parseUnverified_ne_invalid (token : String) (flags : Flags) (c : γ) :
    C.parseUnverified token ≠ .error (.invalid flags c) := by
  unfold Codec.parseUnverified
  split
  · split
    · simp
    · split
      · simp
      · split <;> simp
  · simp

theorem authentic_of_invalid {valid : γ → Flags} {keyFunc : Method → Bool} {token : String}
    {flags : Flags} {c : γ} (hsig : flags.signatureInvalid = false)
    (h : C.parseWithClaims valid keyFunc token = .error (.invalid flags c)) :
    C.Authentic token := by
  unfold Codec.parseWithClaims at h
  split at h
  next e he =>
      cases h
      exact absurd he (parseUnverified_ne_invalid token flags c)
  next u hu =>
      refine ⟨u, hu, ?_⟩
      by_contra hv
      simp only [hv] at h
      split at h
      · -- the flags would have the signature bit
        simp only [if_false] at h
        split at h
        · cases h
        · injection h with h
          injection h with h
          rw [← h] at hsig
          cases hsig
      · cases h

/-- The three segments of a token that parses. -/
theorem parseUnverified_ok {token : String} {u : Unverified γ}
    (h : C.parseUnverified token = .ok u) :
    ∃ p0 p1 b0 b1, token.toList = p0 ++ '.' :: (p1 ++ '.' :: u.signature) ∧
      Base64.decode p0 = some b0 ∧ Base64.decode p1 = some b1 := by
  unfold Codec.parseUnverified at h
  split at h
  next p0 p1 p2 hsplit =>
      have hjoin : ['.'].intercalate (token.toList.splitOn '.') = token.toList :=
        List.intercalate_splitOn '.'
      rw [hsplit] at hjoin
      split at h
      next => cases h
      next alg halg =>
          split at h
          next => cases h
          next c hc =>
              split at h
              next => cases h
              next m hm =>
                  cases h
                  obtain ⟨b0, hb0, -⟩ := Option.bind_eq_some_iff.mp halg
                  obtain ⟨b1, hb1, -⟩ := Option.bind_eq_some_iff.mp hc
                  refine ⟨p0, p1, b0, b1, ?_, hb0, hb1⟩
                  rw [← hjoin]
                  simp [List.intercalate]
  next => cases h

/-- **The characters of an authentic token.** -/
theorem readable_of_authentic {token : String} (h : C.Authentic token) {ch : Char}
    (hch : ch ∈ token.toList) : ch = '.' ∨ Base64.Readable ch := by
  obtain ⟨u, hu, hv⟩ := h
  obtain ⟨p0, p1, b0, b1, hjoin, hb0, hb1⟩ := parseUnverified_ok hu
  have hb2 : ∃ b2, Base64.decode u.signature = some b2 := by
    unfold Codec.verify at hv
    split at hv
    · exact ⟨_, of_decide_eq_true hv⟩
    · cases hv
  obtain ⟨b2, hb2⟩ := hb2
  rw [hjoin] at hch
  simp only [List.mem_append, List.mem_cons] at hch
  rcases hch with h | rfl | h | rfl | h
  · exact .inr (Base64.readable_of_decode hb0 h)
  · exact .inl rfl
  · exact .inr (Base64.readable_of_decode hb1 h)
  · exact .inl rfl
  · exact .inr (Base64.readable_of_decode hb2 h)

end Mainflux.Lib.Jwt
