/-
  Mainflux.Authn.Service
  ──────────────────────
  **THE AUTHN SERVICE AND ITS KEY TABLE.**

  The four methods of `authn.Service` over the `keys` table, the identity
  provider and the tokenizer, with the time of a call as an argument.  The
  world also keeps, for the proofs only, the claims of every token that was
  ever signed (`signed`): "JWTs cannot be forged" is a statement about it
  (`Unforged`).

  §5 says once what each call can do to the world (`Effect`, `step_effect`);
  every result about runs is derived from that.
-/
import Mainflux.Authn.Tokenizer
import Mainflux.Lib.Table

namespace Mainflux.Authn

open Mainflux.Lib

/-! ## §1. The `keys` table. -/

structure KeyRow where
  id : UUID
  type : KeyType
  issuer : String
  issuedAt : Int
  expiresAt : Option Int
  deriving DecidableEq

/-- `toDBKey`: the zero expiry is stored as NULL. -/
def Key.toRow (key : Key) (id : UUID) : KeyRow where
  id := id
  type := key.type
  issuer := key.issuer
  issuedAt := timestamp key.issuedAt
  expiresAt := if key.expiresAt = zeroTime then none else some (timestamp key.expiresAt)

/-- `toKey` of the repository. -/
def KeyRow.toKey (r : KeyRow) : Key where
  id := uuidOut r.id
  type := r.type
  issuer := r.issuer
  issuedAt := r.issuedAt
  expiresAt := r.expiresAt.getD zeroTime

/-- `WHERE issuer = :issuer AND id = :id`. -/
abbrev KeyRow.Is (issuer : String) (id : UUID) (r : KeyRow) : Prop := r.issuer = issuer ∧ r.id = id

/-- `repo.Save`. -/
def save (key : Key) (keys : List KeyRow) : Except Err (List KeyRow) :=
  match uuidIn key.id with
  | none => .error (.pq .invalidTextRepresentation)
  | some id =>
      if 32767 < key.type.toNat then .error (.pq .numericValueOutOfRange)
      else if ¬ fitsVarchar 254 key.issuer then .error (.pq .stringDataRightTruncation)
      else if ¬ (fitsTimestamp key.issuedAt ∧ fitsTimestamp key.expiresAt) then
        .error (.pq .datetimeFieldOverflow)
      else if ∃ r ∈ keys, r.Is key.issuer id then .error .conflict
      else .ok (keys ++ [key.toRow id])

/-- `repo.Retrieve`. -/
def retrieve (issuer id : String) (keys : List KeyRow) : Except Err Key :=
  match uuidIn id with
  | none => .error .notFound
  | some u =>
      match keys.find? fun r => r.Is issuer u with
      | none => .error .notFound
      | some r => .ok r.toKey

/-- `repo.Remove`: deleting no row is no error. -/
def remove (issuer id : String) (keys : List KeyRow) : Except Err (List KeyRow) :=
  match uuidIn id with
  | none => .error (.pq .invalidTextRepresentation)
  | some u => .ok (deleteWhere (KeyRow.Is issuer u) keys)

/-! ## §2. The world. -/

/-- What the service runs on: the tokenizer's codec and secret, and the
identity provider's answer to its `n`-th call. -/
structure Env where
  codec : Codec
  idp : Nat → Option UUID

/-- The identity provider never gives one id twice. -/
def Env.Fresh (E : Env) : Prop := ∀ i j u, E.idp i = some u → E.idp j = some u → i = j

/-- The table, the number of calls of the identity provider and, as a ghost,
the claims of every token signed so far. -/
structure World where
  keys : List KeyRow
  ids : Nat
  signed : List Claims
  deriving DecidableEq

def World.init : World := ⟨[], 0, []⟩

/-- The assumption on signatures: a token that verifies was signed with the
secret by this service. -/
def Env.Unforged (E : Env) (w : World) (token : String) : Prop :=
  E.codec.Authentic token → ∃ c ∈ w.signed, token = E.codec.sign c

/-! ## §3. The service. -/

/-- Ten hours. -/
def loginDuration : Int := 36000000000000

/-- Five minutes. -/
def resetDuration : Int := 300000000000

def issuerName : String := "mainflux.authn"

variable (E : Env) (now : Int)

/-- `service.login`: only a user key with a subject is valid for login. -/
def login (token : String) : Except Err String :=
  match E.codec.parse now token with
  | .error e => .error e
  | .ok c =>
      if c.type ≠ KeyType.userKey then .error .unauthorizedAccess
      else if c.secret = "" then .error .unauthorizedAccess
      else .ok c.secret

/-- `tokenizer.Issue`, which leaves its trace in the ghost. -/
def tokenize (key : Key) (w : World) : World × String :=
  ({ w with signed := w.signed ++ [key.claims] }, E.codec.issue key)

/-- `service.tempKey`. -/
def tempKey (duration : Int) (key : Key) (w : World) : World × Except Err Key :=
  let key := { key with issuer := issuerName, expiresAt := key.issuedAt + duration }
  let (w, val) := tokenize E key w
  (w, .ok { key with secret := val })

/-- `service.loginKey`. -/
def loginKey (issuer : String) (key : Key) (w : World) : World × Except Err Key :=
  tempKey E loginDuration { key with secret := issuer } w

/-- `service.resetKey`. -/
def resetKey (issuer : String) (key : Key) (w : World) : World × Except Err Key :=
  match login E now issuer with
  | .error e => (w, .error e)
  | .ok email => tempKey E resetDuration { key with secret := email } w

/-- `service.userKey`. -/
def userKey (issuer : String) (key : Key) (w : World) : World × Except Err Key :=
  match login E now issuer with
  | .error e => (w, .error e)
  | .ok email =>
      match E.idp w.ids with
      | none => ({ w with ids := w.ids + 1 }, .error .idp)
      | some u =>
          let key := { key with issuer := email, id := uuidOut u }
          let (w, value) := tokenize E key { w with ids := w.ids + 1 }
          let key := { key with secret := value }
          match save key w.keys with
          | .error e => (w, .error e)
          | .ok keys => ({ w with keys := keys }, .ok key)

/-- `service.Issue`. -/
def issue (issuer : String) (key : Key) (w : World) : World × Except Err Key :=
  if key.issuedAt = zeroTime then (w, .error .invalidKeyIssuedAt)
  else if key.type = KeyType.apiKey then userKey E now issuer key w
  else if key.type = KeyType.recoveryKey then resetKey E now issuer key w
  else loginKey E issuer key w

/-- `service.Revoke`. -/
def revoke (issuer id : String) (w : World) : World × Except Err Unit :=
  match login E now issuer with
  | .error e => (w, .error e)
  | .ok email =>
      match remove email id w.keys with
      | .error e => (w, .error e)
      | .ok keys => ({ w with keys := keys }, .ok ())

/-- `service.Retrieve`. -/
def retrieveKey (issuer id : String) (w : World) : Except Err Key :=
  match login E now issuer with
  | .error e => .error e
  | .ok email => retrieve email id w.keys

/-- `service.Identify`. -/
def identify (token : String) (w : World) : World × Except Err String :=
  match E.codec.parse now token with
  | .error e => (w, .error e)
  | .ok c =>
      if c.type = KeyType.apiKey then
        match retrieve c.issuer c.id w.keys with
        | .error e => (w, .error e)
        | .ok k =>
            -- auto revoke: the error of the deletion is dropped
            if k.expired now then
              match remove c.issuer c.id w.keys with
              | .error _ => (w, .error .keyExpired)
              | .ok keys => ({ w with keys := keys }, .error .keyExpired)
            else (w, .ok c.issuer)
      else if c.type = KeyType.recoveryKey ∨ c.type = KeyType.userKey then
        if c.issuer ≠ issuerName then (w, .error .unauthorizedAccess) else (w, .ok c.secret)
      else (w, .error .unauthorizedAccess)

/-! ## §4. Requests. -/

inductive Call
  | issue (issuer : String) (key : Key)
  | revoke (issuer id : String)
  | retrieve (issuer id : String)
  | identify (token : String)
  deriving DecidableEq

inductive Reply
  | key (k : Except Err Key)
  | done (r : Except Err Unit)
  | subject (e : Except Err String)
  deriving DecidableEq

/-- A call and the time the clock shows, in nanoseconds since 1970. -/
structure Request where
  now : Nat
  call : Call
  deriving DecidableEq

/-- One call. -/
def step (w : World) (r : Request) : World × Reply :=
  match r.call with
  | .issue issuer key => ((issue E r.now issuer key w).1, .key (issue E r.now issuer key w).2)
  | .revoke issuer id => ((revoke E r.now issuer id w).1, .done (revoke E r.now issuer id w).2)
  | .retrieve issuer id => (w, .key (retrieveKey E r.now issuer id w))
  | .identify token =>
      ((identify E r.now token w).1, .subject (identify E r.now token w).2)

/-- The world after one call. -/
def next (w : World) (r : Request) : World := (step E w r).1

/-! ## §5. What the methods do. -/

variable {E now} {w : World} {keys keys' : List KeyRow} {issuer id token e : String}

theorem save_ok {key : Key} (h : save key keys = .ok keys') :
    ∃ u, uuidIn key.id = some u ∧ keys' = keys ++ [key.toRow u] := by
  unfold save at h
  split at h
  next => cases h
  next u hu =>
      split_ifs at h
      cases h
      exact ⟨u, hu, rfl⟩

theorem retrieve_ok {k : Key} (h : retrieve issuer id keys = .ok k) :
    ∃ u, uuidIn id = some u ∧ ∃ r ∈ keys, r.Is issuer u ∧ k = r.toKey := by
  unfold retrieve at h
  split at h
  next => cases h
  next u hu =>
      split at h
      next => cases h
      next r hr =>
          cases h
          have his : r.Is issuer u := by simpa using List.find?_some hr
          exact ⟨u, hu, r, List.mem_of_find?_eq_some hr, his, rfl⟩

theorem remove_ok (h : remove issuer id keys = .ok keys') :
    ∃ u, uuidIn id = some u ∧ keys' = deleteWhere (KeyRow.Is issuer u) keys := by
  unfold remove at h
  split at h
  next => cases h
  next u hu =>
      cases h
      exact ⟨u, hu, rfl⟩

theorem login_ok (h : login E now token = .ok e) :
    e ≠ "" ∧ ∃ k, E.codec.parse now token = .ok k ∧ k.type = KeyType.userKey ∧ k.secret = e := by
  unfold login at h
  split at h
  next => cases h
  next k hk =>
      split_ifs at h with ht hs
      cases h
      exact ⟨hs, k, hk, not_not.mp ht, rfl⟩

/-- **What `Identify` accepts.** -/
theorem identify_ok (h : (identify E now token w).2 = .ok e) :
    ∃ k, E.codec.parse now token = .ok k ∧
      (k.type = KeyType.apiKey ∧ k.issuer = e ∧
          (∃ u, uuidIn k.id = some u ∧ ∃ r ∈ w.keys, r.Is e u ∧ ¬ r.toKey.expired now) ∨
        (k.type = KeyType.recoveryKey ∨ k.type = KeyType.userKey) ∧ k.issuer = issuerName ∧
          k.secret = e) := by
  unfold identify at h
  split at h
  next => cases h
  next c hc =>
      refine ⟨c, hc, ?_⟩
      split at h
      next hapi =>
          split at h
          next => cases h
          next k hk =>
              split at h
              next =>
                  split at h <;> cases h
              next hexp =>
                  cases h
                  obtain ⟨u, hu, r, hr, his, rfl⟩ := retrieve_ok hk
                  exact .inl ⟨hapi, rfl, u, hu, r, hr, his, hexp⟩
      next =>
          split at h
          next htype =>
              split_ifs at h with hiss
              cases h
              exact .inr ⟨htype, not_not.mp hiss, rfl⟩
          next => cases h

/-- The call signs a token for the key `k`, on behalf of `e`: a login key is
GIVEN its subject, the other two authenticate it. -/
inductive Signs (E : Env) (w : World) (r : Request) : String → Key → Prop
  | login (issuer : String) (key : Key) (hcall : r.call = .issue issuer key)
      (ht : key.type ≠ KeyType.apiKey ∧ key.type ≠ KeyType.recoveryKey) :
      Signs E w r issuer
        { key with secret := issuer, issuer := issuerName,
                   expiresAt := key.issuedAt + loginDuration }
  | reset (issuer : String) (key : Key) (e : String) (hcall : r.call = .issue issuer key)
      (ht : key.type = KeyType.recoveryKey) (hlogin : login E r.now issuer = .ok e) :
      Signs E w r e
        { key with secret := e, issuer := issuerName, expiresAt := key.issuedAt + resetDuration }
  | api (issuer : String) (key : Key) (e : String) (u : UUID) (hcall : r.call = .issue issuer key)
      (ht : key.type = KeyType.apiKey) (hlogin : login E r.now issuer = .ok e)
      (hidp : E.idp w.ids = some u) : Signs E w r e { key with issuer := e, id := uuidOut u }

/-- The call is a successful `Revoke` of the key `u` by a holder of a user key
of `e`. -/
def Revokes (E : Env) (e : String) (u : UUID) (w : World) (r : Request) : Prop :=
  ∃ tok id, r.call = .revoke tok id ∧ login E r.now tok = .ok e ∧ uuidIn id = some u ∧
    (step E w r).2 = .done (.ok ())

/-- The key a call returns once it has signed `k`. -/
def Env.returned (E : Env) (k : Key) : Key := { k with secret := E.codec.issue k }

/-- **All a call can do.** -/
inductive Effect (E : Env) (w : World) (r : Request) : World → Reply → Prop
  | quiet (n : Nat) (rep : Reply) (hn : w.ids ≤ n)
      (hnew : ∀ issuer key, r.call = .issue issuer key → ∀ k, rep ≠ .key (.ok k))
      (hkept : ∀ e u, ¬ Revokes E e u w r) : Effect E w r { w with ids := n } rep
  | temp (e : String) (k : Key) (h : Signs E w r e k) (ht : k.type ≠ KeyType.apiKey) :
      Effect E w r { w with signed := w.signed ++ [k.claims] } (.key (.ok (E.returned k)))
  | lost (e : String) (k : Key) (err : Err) (h : Signs E w r e k) (ht : k.type = KeyType.apiKey) :
      Effect E w r { w with ids := w.ids + 1, signed := w.signed ++ [k.claims] }
        (.key (.error err))
  | saved (e : String) (k : Key) (u : UUID) (h : Signs E w r e k) (ht : k.type = KeyType.apiKey)
      (hid : k.id = uuidOut u) (hidp : E.idp w.ids = some u) :
      Effect E w r ⟨w.keys ++ [k.toRow u], w.ids + 1, w.signed ++ [k.claims]⟩
        (.key (.ok (E.returned k)))
  | removed (e : String) (u : UUID) (rep : Reply) (hrep : ∀ k, rep ≠ .key k)
      (honly : ∀ e' u', Revokes E e' u' w r → e' = e ∧ u' = u) :
      Effect E w r { w with keys := deleteWhere (KeyRow.Is e u) w.keys } rep

theorem not_revokes {r : Request} (h : ∀ tok id, r.call ≠ .revoke tok id) (e : String) (u : UUID) :
    ¬ Revokes E e u w r := by
  rintro ⟨tok, id, hcall, -⟩
  exact h tok id hcall

/-- A failed call does nothing to the world. -/
theorem Effect.failed {r : Request} {rep : Reply} (hkey : ∀ k, rep ≠ .key (.ok k))
    (hdone : (step E w r).2 = rep) (hrep : rep ≠ .done (.ok ())) : Effect E w r w rep := by
  refine .quiet w.ids rep (Nat.le_refl _) (fun _ _ _ => hkey) ?_
  rintro e u ⟨tok, id, -, -, -, hok⟩
  exact hrep (hdone.symm.trans hok)

theorem issue_effect {r : Request} {key : Key} (hcall : r.call = .issue issuer key) :
    Effect E w r (issue E r.now issuer key w).1 (.key (issue E r.now issuer key w).2) := by
  have hno : ∀ e u, ¬ Revokes E e u w r :=
    not_revokes fun tok id h => by rw [hcall] at h; cases h
  have hfail : ∀ n err, w.ids ≤ n → Effect E w r { w with ids := n } (.key (.error err)) :=
    fun n err hn => .quiet n _ hn (fun _ _ _ k h => by cases h) hno
  unfold issue
  split
  next => exact hfail w.ids _ (Nat.le_refl _)
  next hzero =>
      split
      next hapi =>
          unfold userKey
          split
          next => exact hfail w.ids _ (Nat.le_refl _)
          next email hlogin =>
              split
              next => exact hfail (w.ids + 1) _ (Nat.le_succ _)
              next u hidp =>
                  have hs := Signs.api issuer key email u hcall hapi hlogin hidp
                  simp only [tokenize]
                  split
                  next err hsave => exact .lost email _ err hs hapi
                  next keys hsave =>
                      obtain ⟨v, hv, rfl⟩ := save_ok hsave
                      rw [uuidIn_uuidOut] at hv
                      cases hv
                      exact .saved email _ u hs hapi rfl hidp
      next hapi =>
          split
          next hrec =>
              unfold resetKey
              split
              next => exact hfail w.ids _ (Nat.le_refl _)
              next email hlogin =>
                  exact .temp email _ (.reset issuer key email hcall hrec hlogin) hapi
          next hrec => exact .temp issuer _ (.login issuer key hcall ⟨hapi, hrec⟩) hapi

theorem revoke_effect {r : Request} (hcall : r.call = .revoke issuer id) :
    Effect E w r (revoke E r.now issuer id w).1 (.done (revoke E r.now issuer id w).2) := by
  have hstep : (step E w r).2 = .done (revoke E r.now issuer id w).2 := by simp only [step, hcall]
  cases hlogin : login E r.now issuer with
  | error err =>
      simp only [revoke, hlogin] at hstep ⊢
      exact .failed (fun k h => by cases h) hstep (fun h => by cases h)
  | ok email =>
      cases hrm : remove email id w.keys with
      | error err =>
          simp only [revoke, hlogin, hrm] at hstep ⊢
          exact .failed (fun k h => by cases h) hstep (fun h => by cases h)
      | ok keys =>
          simp only [revoke, hlogin, hrm]
          obtain ⟨u, hu, rfl⟩ := remove_ok hrm
          refine .removed email u _ (fun k h => by cases h) ?_
          rintro e' u' ⟨tok, id', hcall', hlogin', hu', -⟩
          rw [hcall] at hcall'
          cases hcall'
          rw [hlogin] at hlogin'
          rw [hu] at hu'
          exact ⟨(Except.ok.inj hlogin').symm, (Option.some.inj hu').symm⟩

theorem identify_effect {r : Request} (hcall : r.call = .identify token) :
    Effect E w r (identify E r.now token w).1 (.subject (identify E r.now token w).2) := by
  have hno : ∀ e u, ¬ Revokes E e u w r :=
    not_revokes fun tok id h => by rw [hcall] at h; cases h
  have hquiet : ∀ rep, Effect E w r w (.subject rep) :=
    fun rep => .quiet w.ids _ (Nat.le_refl _) (fun _ _ _ k h => by cases h) hno
  unfold identify
  split
  next => exact hquiet _
  next c hc =>
      split
      next =>
          split
          next => exact hquiet _
          next k hk =>
              split
              next =>
                  split
                  next => exact hquiet _
                  next keys hrm =>
                      obtain ⟨u, -, rfl⟩ := remove_ok hrm
                      exact .removed c.issuer u _ (fun k h => by cases h)
                        fun e' u' h => absurd h (hno e' u')
              next => exact hquiet _
      next =>
          split
          next => split <;> exact hquiet _
          next => exact hquiet _

/-- **Every call has one of these effects.** -/
theorem step_effect (E : Env) (w : World) (r : Request) :
    Effect E w r (step E w r).1 (step E w r).2 := by
  cases hcall : r.call with
  | issue issuer key =>
      have h := issue_effect (E := E) (w := w) hcall
      simpa only [step, hcall] using h
  | revoke issuer id =>
      have h := revoke_effect (E := E) (w := w) hcall
      simpa only [step, hcall] using h
  | retrieve issuer id =>
      simp only [step, hcall]
      refine .quiet w.ids _ (Nat.le_refl _) (fun _ _ h => by rw [hcall] at h; cases h) ?_
      exact not_revokes fun tok id h => by rw [hcall] at h; cases h
  | identify token =>
      have h := identify_effect (E := E) (w := w) hcall
      simpa only [step, hcall] using h

/-! ## §6. Successful calls. -/

/-- A key that can be saved. -/
theorem save_eq (keys : List KeyRow) (key : Key) {u : UUID} (hu : key.id = uuidOut u)
    (ht : key.type = KeyType.apiKey) (hissuer : fitsVarchar 254 key.issuer)
    (htimes : fitsTimestamp key.issuedAt ∧ fitsTimestamp key.expiresAt)
    (hfree : ∀ r ∈ keys, r.id ≠ u) : save key keys = .ok (keys ++ [key.toRow u]) := by
  have hnone : ¬ ∃ r ∈ keys, r.Is key.issuer u := by
    rintro ⟨r, hr, his⟩
    exact hfree r hr his.2
  have hsmall : ¬ 32767 < key.type.toNat := by
    rw [ht]
    decide
  simp only [save, hu, uuidIn_uuidOut, if_neg hsmall, hissuer, htimes, not_true, if_false,
    if_neg hnone, and_self]

theorem issue_login {key : Key} (hat : key.issuedAt ≠ zeroTime)
    (ht : key.type = KeyType.userKey) : issue E now issuer key w = loginKey E issuer key w := by
  have hapi : key.type ≠ KeyType.apiKey := by rw [ht]; decide
  have hrec : key.type ≠ KeyType.recoveryKey := by rw [ht]; decide
  rw [issue, if_neg hat, if_neg hapi, if_neg hrec]

theorem issue_api {key : Key} (hat : key.issuedAt ≠ zeroTime) (ht : key.type = KeyType.apiKey) :
    issue E now issuer key w = userKey E now issuer key w := by
  rw [issue, if_neg hat, if_pos ht]

/-- Issuing a login key. -/
theorem next_login {r : Request} (key : Key) (hcall : r.call = .issue issuer key)
    (hat : key.issuedAt ≠ zeroTime) (ht : key.type = KeyType.userKey) :
    next E w r = { w with
      signed := w.signed ++
        [{ key with secret := issuer, issuer := issuerName,
                    expiresAt := key.issuedAt + loginDuration : Key }.claims] } := by
  simp only [next, step, hcall, issue_login hat ht]
  rfl

/-- Issuing an API key. -/
theorem step_api {r : Request} (key : Key) {u : UUID} (hcall : r.call = .issue issuer key)
    (hat : key.issuedAt ≠ zeroTime) (ht : key.type = KeyType.apiKey)
    (hlogin : login E r.now issuer = .ok e) (hidp : E.idp w.ids = some u)
    (hissuer : fitsVarchar 254 e)
    (htimes : fitsTimestamp key.issuedAt ∧ fitsTimestamp key.expiresAt)
    (hfree : ∀ r ∈ w.keys, r.id ≠ u) :
    step E w r = (⟨w.keys ++ [{ key with issuer := e, id := uuidOut u : Key }.toRow u], w.ids + 1,
        w.signed ++ [{ key with issuer := e, id := uuidOut u : Key }.claims]⟩,
      .key (.ok (E.returned { key with issuer := e, id := uuidOut u }))) := by
  have hsave := save_eq w.keys
    { key with issuer := e, id := uuidOut u,
               secret := E.codec.issue { key with issuer := e, id := uuidOut u } }
    rfl ht hissuer htimes hfree
  simp only [step, hcall, issue_api hat ht, userKey, hlogin, hidp, tokenize, hsave]
  rfl

/-- What an API key that was returned has left behind. -/
theorem userKey_ok {key k : Key} (h : (userKey E now issuer key w).2 = .ok k) :
    ∃ e u, login E now issuer = .ok e ∧ E.idp w.ids = some u ∧
      k = E.returned { key with issuer := e, id := uuidOut u } ∧
      (userKey E now issuer key w).1
        = ⟨w.keys ++ [{ key with issuer := e, id := uuidOut u : Key }.toRow u], w.ids + 1,
            w.signed ++ [{ key with issuer := e, id := uuidOut u : Key }.claims]⟩ := by
  unfold userKey at h ⊢
  cases hlogin : login E now issuer with
  | error err =>
      simp only [hlogin] at h
      cases h
  | ok e =>
      cases hidp : E.idp w.ids with
      | none =>
          simp only [hlogin, hidp] at h
          cases h
      | some u =>
          simp only [hlogin, hidp, tokenize] at h ⊢
          split at h
          next => cases h
          next keys hsave =>
              obtain ⟨v, hv, rfl⟩ := save_ok hsave
              rw [uuidIn_uuidOut] at hv
              cases hv
              exact ⟨e, u, rfl, rfl, (Except.ok.inj h).symm, rfl⟩

/-- Identifying an API key whose row has expired deletes the row. -/
theorem identify_expired {k : Key} {u : UUID} (hparse : E.codec.parse now token = .ok k)
    (ht : k.type = KeyType.apiKey) (hu : uuidIn k.id = some u)
    (hrow : ∃ r ∈ w.keys, r.Is k.issuer u)
    (hexp : ∀ r ∈ w.keys, r.Is k.issuer u → r.toKey.expired now) :
    identify E now token w
      = ({ w with keys := deleteWhere (KeyRow.Is k.issuer u) w.keys }, .error .keyExpired) := by
  have hfound : ∃ r ∈ w.keys, r.Is k.issuer u ∧ retrieve k.issuer k.id w.keys = .ok r.toKey := by
    cases hf : w.keys.find? fun r => r.Is k.issuer u with
    | none =>
        obtain ⟨r, hr, his⟩ := hrow
        exact absurd (decide_eq_true his) (List.find?_eq_none.mp hf r hr)
    | some r =>
        have his : r.Is k.issuer u := by simpa using List.find?_some hf
        exact ⟨r, List.mem_of_find?_eq_some hf, his, by simp only [retrieve, hu, hf]⟩
  obtain ⟨r, hr, his, hret⟩ := hfound
  simp only [identify, hparse, if_pos ht, hret, if_pos (hexp r hr his), remove, hu]

end Mainflux.Authn
