/-
  Mainflux.Authn.Soundness
  ────────────────────────
  **EVERY IDENTIFIED TOKEN WAS ISSUED, IS IN TIME AND IS NOT REVOKED.**

  Two things are followed through a run: the claims that have been signed and
  the rows of the `keys` table.

    • `Ledger` — an invariant: API keys and rows carry ids the identity
      provider has given out, no two API keys the same one, and every other
      token names the service as its issuer;
    • `mem_signed_next`, `mem_keys_next` — where a signed claim and a row come
      from, and that a row outlives no successful `Revoke`.

  The main result is `identify_sound`.
-/
import Mainflux.Authn.Service
import Mainflux.Lib.Run

namespace Mainflux.Authn

open Mainflux.Lib

variable {E : Env} {w w' : World} {r : Request}

/-! ## §1. The ledger of signed claims. -/

theorem effect_of_step {rep : Reply} (h : step E w r = (w', rep)) : Effect E w r w' rep := by
  have heff := step_effect E w r
  rwa [h] at heff

theorem claims_type (k : Key) : k.claims.type = some k.type := rfl

/-- A temporary key: a login key is given its subject, a reset key
authenticates it. -/
theorem signs_temp {e : String} {k : Key} (h : Signs E w r e k) (ht : k.type ≠ KeyType.apiKey) :
    k.issuer = issuerName ∧ k.secret = e ∧ ∃ issuer key, r.call = .issue issuer key ∧
      (k.type ≠ KeyType.recoveryKey ∧ issuer = e ∧ k.expiresAt = key.issuedAt + loginDuration ∨
        k.type = KeyType.recoveryKey ∧ login E r.now issuer = .ok e ∧
          k.expiresAt = key.issuedAt + resetDuration) := by
  cases h with
  | login _ key hcall hne => exact ⟨rfl, rfl, e, key, hcall, .inl ⟨hne.2, rfl, rfl⟩⟩
  | reset issuer key _ hcall hrec hlogin =>
      exact ⟨rfl, rfl, issuer, key, hcall, .inr ⟨hrec, hlogin, rfl⟩⟩
  | api issuer key _ u hcall hapi _ _ => exact absurd hapi ht

/-- An API key: its id is the one the identity provider gives next. -/
theorem signs_api {e : String} {k : Key} (h : Signs E w r e k) (ht : k.type = KeyType.apiKey) :
    k.issuer = e ∧ (∃ u, E.idp w.ids = some u ∧ k.id = uuidOut u) ∧
      ∃ issuer key, r.call = .issue issuer key ∧ login E r.now issuer = .ok e := by
  cases h with
  | login _ key hcall hne => exact absurd ht hne.1
  | reset issuer key _ hcall hrec _ => exact absurd (hrec.symm.trans ht) (by decide)
  | api issuer key _ u hcall _ hlogin hidp =>
      exact ⟨rfl, ⟨u, hidp, rfl⟩, issuer, key, hcall, hlogin⟩

/-- Tokens that are no API keys name the service as their issuer. -/
def NamesService (w : World) : Prop :=
  ∀ c ∈ w.signed, c.type ≠ some KeyType.apiKey → c.issuer = issuerName

theorem namesService_append {e : String} {k : Key} (h : NamesService w) (hs : Signs E w r e k) :
    ∀ c ∈ w.signed ++ [k.claims], c.type ≠ some KeyType.apiKey → c.issuer = issuerName := by
  intro c hc ht
  rcases List.mem_append.mp hc with hc | hc
  · exact h c hc ht
  · rw [List.mem_singleton.mp hc] at ht ⊢
    exact (signs_temp hs fun h => ht (congrArg some h)).1

theorem namesService_next (h : NamesService w) : NamesService (next E w r) := by
  rcases hp : step E w r with ⟨w', rep⟩
  rw [next, hp]
  cases effect_of_step hp with
  | quiet n rep hn hnew hkept => exact h
  | temp e k hs ht => exact namesService_append h hs
  | lost e k err hs ht => exact namesService_append h hs
  | saved e k u hs ht hid hidp => exact namesService_append h hs
  | removed e u rep hrep honly => exact h

theorem namesService_run (reqs : List Request) : NamesService (run (next E) .init reqs) :=
  run_inv (C := fun _ _ => True) (fun _ _ h _ => namesService_next h)
    (fun _ hc => absurd hc List.not_mem_nil) (along_of_forall (fun _ _ => trivial) _ _)

/-- Ids in use were given out by the identity provider, each to one API key. -/
structure Ledger (E : Env) (w : World) : Prop where
  api_id : ∀ c ∈ w.signed, c.type = some KeyType.apiKey →
    ∃ i < w.ids, ∃ u, E.idp i = some u ∧ c.id = uuidOut u
  api_inj : ∀ c ∈ w.signed, ∀ c' ∈ w.signed, c.type = some KeyType.apiKey →
    c'.type = some KeyType.apiKey → c.id = c'.id → c = c'
  row_id : ∀ row ∈ w.keys, ∃ i < w.ids, E.idp i = some row.id

/-- A call that takes an id and signs an API key with it. -/
theorem Ledger.append {e : String} {k : Key} {keys : List KeyRow} (hfresh : E.Fresh)
    (h : Ledger E w) (hs : Signs E w r e k) (ht : k.type = KeyType.apiKey)
    (hrows : ∀ row ∈ keys, row ∈ w.keys ∨ E.idp w.ids = some row.id) :
    Ledger E ⟨keys, w.ids + 1, w.signed ++ [k.claims]⟩ := by
  obtain ⟨-, ⟨u, hu, hid⟩, -⟩ := signs_api hs ht
  -- an older API key has an older id
  have hold : ∀ c ∈ w.signed, c.type = some KeyType.apiKey → c.id ≠ k.claims.id := by
    intro c hc hct heq
    obtain ⟨i, hi, v, hv, hcid⟩ := h.api_id c hc hct
    have huv : v = u := uuidOut_injective (hcid.symm.trans (heq.trans hid))
    rw [huv] at hv
    exact absurd (hfresh i w.ids u hv hu) (Nat.ne_of_lt hi)
  constructor
  · intro c hc hct
    rcases List.mem_append.mp hc with hc | hc
    · obtain ⟨i, hi, v⟩ := h.api_id c hc hct
      exact ⟨i, Nat.lt_succ_of_lt hi, v⟩
    · rw [List.mem_singleton.mp hc]
      exact ⟨w.ids, Nat.lt_succ_self _, u, hu, hid⟩
  · intro c hc c' hc' hct hct' heq
    rcases List.mem_append.mp hc with hc | hc <;> rcases List.mem_append.mp hc' with hc' | hc'
    · exact h.api_inj c hc c' hc' hct hct' heq
    · rw [List.mem_singleton.mp hc'] at heq
      exact absurd heq (hold c hc hct)
    · rw [List.mem_singleton.mp hc] at heq
      exact absurd heq.symm (hold c' hc' hct')
    · rw [List.mem_singleton.mp hc, List.mem_singleton.mp hc']
  · intro row hrow
    rcases hrows row hrow with hrow | hrow
    · obtain ⟨i, hi, hv⟩ := h.row_id row hrow
      exact ⟨i, Nat.lt_succ_of_lt hi, hv⟩
    · exact ⟨w.ids, Nat.lt_succ_self _, hrow⟩

theorem Ledger.next (hfresh : E.Fresh) (h : Ledger E w) : Ledger E (next E w r) := by
  rcases hp : step E w r with ⟨w', rep⟩
  rw [Authn.next, hp]
  cases effect_of_step hp with
  | quiet n rep hn hnew hkept =>
      refine ⟨fun c hc hct => ?_, h.api_inj, fun row hrow => ?_⟩
      · obtain ⟨i, hi, v⟩ := h.api_id c hc hct
        exact ⟨i, Nat.lt_of_lt_of_le hi hn, v⟩
      · obtain ⟨i, hi, hv⟩ := h.row_id row hrow
        exact ⟨i, Nat.lt_of_lt_of_le hi hn, hv⟩
  | temp e k hs ht =>
      have hne : k.claims.type ≠ some KeyType.apiKey := fun h => ht (Option.some.inj h)
      have hmem : ∀ c ∈ w.signed ++ [k.claims], c.type = some KeyType.apiKey → c ∈ w.signed := by
        intro c hc hct
        rcases List.mem_append.mp hc with hc | hc
        · exact hc
        · rw [List.mem_singleton.mp hc] at hct
          exact absurd hct hne
      exact ⟨fun c hc hct => h.api_id c (hmem c hc hct) hct,
        fun c hc c' hc' hct hct' =>
          h.api_inj c (hmem c hc hct) c' (hmem c' hc' hct') hct hct', h.row_id⟩
  | lost e k err hs ht => exact h.append hfresh hs ht fun row hrow => .inl hrow
  | saved e k u hs ht hid hidp =>
      refine h.append hfresh hs ht fun row hrow => ?_
      rcases List.mem_append.mp hrow with hrow | hrow
      · exact .inl hrow
      · rw [List.mem_singleton.mp hrow]
        exact .inr hidp
  | removed e u rep hrep honly =>
      exact ⟨h.api_id, h.api_inj, fun row hrow => h.row_id row (mem_deleteWhere.mp hrow).1⟩

theorem ledger_run (hfresh : E.Fresh) (reqs : List Request) :
    Ledger E (run (next E) .init reqs) :=
  run_inv (C := fun _ _ => True) (fun _ _ h _ => h.next hfresh)
    ⟨fun _ hc => absurd hc List.not_mem_nil, fun _ hc => absurd hc List.not_mem_nil,
      fun _ hr => absurd hr List.not_mem_nil⟩
    (along_of_forall (fun _ _ => trivial) _ _)

/-! ## §2. Origins. -/

/-- The call signs the claims `c`; unless they are an API key's, it returns
the token. -/
def SignsClaims (E : Env) (w : World) (r : Request) (c : Claims) : Prop :=
  ∃ e k, Signs E w r e k ∧ c = k.claims ∧
    (k.type ≠ KeyType.apiKey → (step E w r).2 = .key (.ok (E.returned k)))

theorem mem_signed_next {c : Claims} (h : c ∈ (next E w r).signed) :
    c ∈ w.signed ∧ True ∨ SignsClaims E w r c := by
  rcases hp : step E w r with ⟨w', rep⟩
  rw [next, hp] at h
  have hrep : (step E w r).2 = rep := by rw [hp]
  cases effect_of_step hp with
  | quiet n rep hn hnew hkept => exact .inl ⟨h, trivial⟩
  | temp e k hs ht =>
      rcases List.mem_append.mp h with h | h
      · exact .inl ⟨h, trivial⟩
      · exact .inr ⟨e, k, hs, List.mem_singleton.mp h, fun _ => hrep⟩
  | lost e k err hs ht =>
      rcases List.mem_append.mp h with h | h
      · exact .inl ⟨h, trivial⟩
      · exact .inr ⟨e, k, hs, List.mem_singleton.mp h, fun hne => absurd ht hne⟩
  | saved e k u hs ht hid hidp =>
      rcases List.mem_append.mp h with h | h
      · exact .inl ⟨h, trivial⟩
      · exact .inr ⟨e, k, hs, List.mem_singleton.mp h, fun _ => hrep⟩
  | removed e u rep hrep honly => exact .inl ⟨h, trivial⟩

/-- The call saves the row and returns its API key. -/
def SavesRow (E : Env) (w : World) (r : Request) (row : KeyRow) : Prop :=
  ∃ e k u, Signs E w r e k ∧ k.type = KeyType.apiKey ∧ k.id = uuidOut u ∧ row = k.toRow u ∧
    k.claims ∈ (next E w r).signed ∧ (step E w r).2 = .key (.ok (E.returned k))

theorem not_revokes_of_key {e : String} {u : UUID} {k : Except Err Key}
    (h : (step E w r).2 = .key k) : ¬ Revokes E e u w r := by
  rintro ⟨_, _, _, _, _, hdone⟩
  rw [h] at hdone
  cases hdone

theorem mem_keys_next {row : KeyRow} (h : row ∈ (next E w r).keys) :
    row ∈ w.keys ∧ ¬ Revokes E row.issuer row.id w r ∨ SavesRow E w r row := by
  rcases hp : step E w r with ⟨w', rep⟩
  have hw : next E w r = w' := by rw [next, hp]
  rw [hw] at h
  have hrep : (step E w r).2 = rep := by rw [hp]
  cases effect_of_step hp with
  | quiet n rep hn hnew hkept => exact .inl ⟨h, hkept _ _⟩
  | temp e k hs ht => exact .inl ⟨h, not_revokes_of_key hrep⟩
  | lost e k err hs ht => exact .inl ⟨h, not_revokes_of_key hrep⟩
  | saved e k u hs ht hid hidp =>
      rcases List.mem_append.mp h with h | h
      · exact .inl ⟨h, not_revokes_of_key hrep⟩
      · refine .inr ⟨e, k, u, hs, ht, hid, List.mem_singleton.mp h, ?_, hrep⟩
        rw [hw]
        exact List.mem_append_right _ List.mem_cons_self
  | removed e u rep hrep' honly =>
      obtain ⟨h, hkeep⟩ := mem_deleteWhere.mp h
      refine .inl ⟨h, fun hrev => hkeep ?_⟩
      obtain ⟨he, hu⟩ := honly _ _ hrev
      exact ⟨he, hu⟩

theorem mem_signed_run {c : Claims} (h : c ∈ w.signed) (reqs : List Request) :
    c ∈ (run (next E) w reqs).signed := by
  refine run_inv (I := fun w : World => c ∈ w.signed) (C := fun _ _ => True) ?_ h
    (along_of_forall (fun _ _ => trivial) _ _)
  intro w r h _
  rcases hp : step E w r with ⟨w', rep⟩
  rw [next, hp]
  cases effect_of_step hp with
  | quiet n rep hn hnew hkept => exact h
  | temp e k hs ht => exact List.mem_append_left _ h
  | lost e k err hs ht => exact List.mem_append_left _ h
  | saved e k u hs ht hid hidp => exact List.mem_append_left _ h
  | removed e u rep hrep honly => exact h

/-! ## §3. Tokens in time. -/

/-- `IssuedAt` is the time of the call, as both endpoints set it. -/
def Request.Timely (r : Request) : Prop :=
  ∀ issuer key, r.call = .issue issuer key → key.issuedAt = r.now

/-- The token of a temporary key is accepted until its duration has passed, to
the second. -/
theorem unix_le_of_current {now at' : Nat} {d : Int} {c : Claims} {t : KeyType}
    (hexp : c.expiresAt = if (at' : Int) + d = zeroTime then 0 else unix (at' + d))
    (hlong : 1000000000 ≤ d) (hcur : c.Current now t) (ht : t ≠ KeyType.apiKey) :
    unix now ≤ unix (at' + d) := by
  have hnz : (at' : Int) + d ≠ zeroTime := by
    unfold zeroTime
    omega
  rw [if_neg hnz] at hexp
  rcases hcur.unexpired with h | h | h
  · exact absurd h ht
  · rw [hexp] at h
    unfold unix at h
    omega
  · rwa [hexp] at h

/-! ## §4. The main result. -/

/-- Where a token accepted as `e` at time `now`, after the calls `reqs`, comes
from: an earlier `Issue` returned it.  A login key was given `e` and a recovery
key authenticated `e`, and their durations have not passed, to the second.  An
API key authenticated `e`; its row is the one saved then, has not expired, and
no `Revoke` of its id by a holder of a user key of `e` has succeeded since. -/
def Traced (E : Env) (reqs : List Request) (token e : String) (now : Nat) : Prop :=
  ∃ pre r post issuer key k, reqs = pre ++ r :: post ∧ r.call = .issue issuer key ∧
    (step E (run (next E) .init pre) r).2 = .key (.ok k) ∧ k.secret = token ∧
    (k.type = KeyType.userKey ∧ issuer = e ∧ unix now ≤ unix (r.now + loginDuration) ∨
     k.type = KeyType.recoveryKey ∧ login E r.now issuer = .ok e ∧
       unix now ≤ unix (r.now + resetDuration) ∨
     k.type = KeyType.apiKey ∧ login E r.now issuer = .ok e ∧
       ∃ row ∈ (run (next E) .init reqs).keys, row.issuer = e ∧ k.id = uuidOut row.id ∧
         row = k.toRow row.id ∧ (∀ x, row.expiresAt = some x → now ≤ x) ∧
         ¬ Occurs (next E) (Revokes E e row.id) (run (next E) .init (pre ++ [r])) post)

/-- **Token soundness.**  Ids are fresh, `IssuedAt` is the time of the call and
the token is not forged: then whatever `Identify` accepts, at any time after any
calls, can be traced. -/
theorem identify_sound (E : Env) (hfresh : E.Fresh) {reqs : List Request}
    (htimely : ∀ r ∈ reqs, r.Timely) {token e : String} {now : Nat}
    (hunforged : E.Unforged (run (next E) .init reqs) token)
    (h : (identify E now token (run (next E) .init reqs)).2 = .ok e) :
    Traced E reqs token e now := by
  obtain ⟨k, hparse, hcase⟩ := identify_ok h
  obtain ⟨c, hc, rfl⟩ := hunforged (authentic_of_parse hparse)
  obtain ⟨rfl, t, hcur⟩ := parse_sign.mp hparse
  have htype : c.toKey.type = t := by rw [Claims.toKey, hcur.type_eq]; rfl
  rcases hcase with ⟨hapi, hiss, u, hu, row, hrow, his, hexp⟩ | ⟨hkind, hiss, hsub⟩
  · -- an API key: its row leads to the call that saved it
    obtain ⟨pre, r, post, rfl, hsave, hkept⟩ :=
      run_origin (P := fun w => row ∈ w.keys) (fun w r => mem_keys_next (E := E) (w := w) (r := r))
        List.not_mem_nil hrow
    obtain ⟨e', k', u', hs, hk', hid', rfl, hsigned, hrep⟩ := hsave
    obtain ⟨rfl, -, issuer, key, hcall, hlogin⟩ := signs_api hs hk'
    have hcapi : c.type = some KeyType.apiKey := by rw [hcur.type_eq, ← htype, hapi]
    have hledger := ledger_run hfresh (pre ++ r :: post)
    -- no two API keys have one id, so the token is the one that was returned
    have hcid : c.id = k'.claims.id := by
      obtain ⟨i, -, v, -, hv⟩ := hledger.api_id c hc hcapi
      have huv : u = v := by
        have hu' : uuidIn c.id = some u := hu
        rw [hv, uuidIn_uuidOut] at hu'
        exact (Option.some.inj hu').symm
      rw [hv, ← huv, ← his.2]
      exact hid'.symm
    have hmem : k'.claims ∈ (run (next E) .init (pre ++ r :: post)).signed := by
      rw [run_append]
      exact mem_signed_run hsigned post
    have hceq : c = k'.claims :=
      hledger.api_inj c hc _ hmem hcapi (congrArg some hk') hcid
    refine ⟨pre, r, post, issuer, key, E.returned k', rfl, hcall, hrep, ?_, .inr (.inr ?_)⟩
    · rw [hceq]
      rfl
    · refine ⟨hk', his.1 ▸ hlogin, k'.toRow u', hrow, his.1, hid', rfl, ?_, ?_⟩
      · intro x hx
        have hle : ¬ (k'.toRow u').expiresAt.getD zeroTime < now := hexp
        rw [hx] at hle
        exact Int.not_lt.mp hle
      · rw [← his.1]
        exact not_occurs_of_along hkept
  · -- a temporary key: the call that signed it returned it
    obtain ⟨pre, r, post, rfl, ⟨e', k', hs, rfl, hrep⟩, -⟩ :=
      run_origin (P := fun w => c ∈ w.signed)
        (fun w r => mem_signed_next (E := E) (w := w) (r := r)) List.not_mem_nil hc
    have ht : t = k'.type := Option.some.inj (hcur.type_eq.symm.trans (claims_type k'))
    have hnapi : t ≠ KeyType.apiKey := by
      rw [← htype]
      rcases hkind with h | h <;> rw [h] <;> decide
    obtain ⟨-, hsecret, issuer, key, hcall, hdur⟩ := signs_temp hs (ht ▸ hnapi)
    have hat : key.issuedAt = r.now :=
      htimely r (List.mem_append_right _ List.mem_cons_self) issuer key hcall
    have he : e' = e := hsecret.symm.trans hsub
    refine ⟨pre, r, post, issuer, key, E.returned k', rfl, hcall, hrep (ht ▸ hnapi), rfl, ?_⟩
    rw [he, hat] at hdur
    rcases hdur with ⟨hnrec, hgiven, hexp⟩ | ⟨hrec, hlogin, hexp⟩
    · refine .inl ⟨?_, hgiven, unix_le_of_current ?_ (by decide) hcur hnapi⟩
      · rcases hkind with h | h
        · exact absurd h hnrec
        · exact h
      · rw [← hexp]
        rfl
    · refine .inr (.inl ⟨hrec, hlogin, unix_le_of_current ?_ (by decide) hcur hnapi⟩)
      rw [← hexp]
      rfl

/-! ## §5. A run. -/

/-- An identity provider that knows sixteen ids. -/
def demo (C : Codec) : Env where
  codec := C
  idp n := if n < 16 then some (UUID.fill n) else none

theorem demo_fresh (C : Codec) : (demo C).Fresh := by
  intro i j u hi hj
  simp only [demo] at hi hj
  split at hi
  next h1 =>
      split at hj
      next h2 =>
          cases hi
          exact UUID.eq_of_fill_eq h1 h2 (Option.some.inj hj).symm
      next => cases hj
  next => cases hi

/-- September 2020. -/
def clock : Nat := 1600000000000000000

/-- Alice's login key. -/
def aliceUser : Key where
  issuer := issuerName
  secret := "alice@example.com"
  issuedAt := clock
  expiresAt := clock + loginDuration

/-- Alice logs in. -/
def aliceLogin : Request := ⟨clock, .issue "alice@example.com" { issuedAt := clock }⟩

/-- With the token of that key she asks for an API key that expires at `x`. -/
def aliceIssue (C : Codec) (x : Int) : Request :=
  ⟨clock, .issue (C.issue aliceUser)
    { type := KeyType.apiKey, issuedAt := clock, expiresAt := x }⟩

/-- Her API key. -/
def aliceAPI (x : Int) : Key where
  id := uuidOut (UUID.fill 0)
  type := KeyType.apiKey
  issuer := "alice@example.com"
  issuedAt := clock
  expiresAt := x

theorem alice_login (C : Codec) :
    login (demo C) clock (C.issue aliceUser) = .ok "alice@example.com" := by
  have hparse : (demo C).codec.parse clock (C.issue aliceUser) = aliceUser.claims.verdict clock :=
    parse_sign_eq C clock aliceUser.claims
  rw [login, hparse]
  decide +kernel

theorem alice_first (C : Codec) :
    run (next (demo C)) .init [aliceLogin] = ⟨[], 0, [aliceUser.claims]⟩ :=
  next_login { issuedAt := clock } rfl (by decide) rfl

/-- After both calls: one row, one id used, two tokens signed. -/
theorem alice_step (C : Codec) {x : Int} (hx : fitsTimestamp x) :
    step (demo C) (run (next (demo C)) .init [aliceLogin]) (aliceIssue C x)
      = (⟨[(aliceAPI x).toRow (UUID.fill 0)], 1, [aliceUser.claims, (aliceAPI x).claims]⟩,
          .key (.ok ((demo C).returned (aliceAPI x)))) := by
  have hat : (clock : Int) ≠ zeroTime := by decide
  have hfit : fitsTimestamp clock := by decide
  rw [alice_first]
  exact step_api { type := KeyType.apiKey, issuedAt := clock, expiresAt := x } rfl
    hat rfl (alice_login C) rfl (by decide) ⟨hfit, hx⟩ (fun r hr => absurd hr List.not_mem_nil)

theorem alice_run (C : Codec) {x : Int} (hx : fitsTimestamp x) :
    run (next (demo C)) .init [aliceLogin, aliceIssue C x]
      = ⟨[(aliceAPI x).toRow (UUID.fill 0)], 1, [aliceUser.claims, (aliceAPI x).claims]⟩ :=
  congrArg Prod.fst (alice_step C hx)

/-- The service with the secret `secret`. -/
def demoCodec : Codec := jsonCodec [115, 101, 99, 114, 101, 116]

theorem alice_timely (C : Codec) (x : Int) : ∀ r ∈ [aliceLogin, aliceIssue C x], r.Timely := by
  intro r hr issuer key hcall
  simp only [List.mem_cons, List.not_mem_nil, or_false] at hr
  rcases hr with rfl | rfl <;> cases hcall <;> rfl

/-- An API key that is found and has not expired. -/
theorem identify_alice (C : Codec) :
    (identify (demo C) (clock + 10000000000 : Nat) (C.issue (aliceAPI (clock + 3600000000000)))
      (run (next (demo C)) .init [aliceLogin, aliceIssue C (clock + 3600000000000)])).2
      = .ok "alice@example.com" := by
  have hparse : (demo C).codec.parse (clock + 10000000000 : Nat)
      (C.issue (aliceAPI (clock + 3600000000000)))
        = (aliceAPI (clock + 3600000000000)).claims.verdict (clock + 10000000000 : Nat) :=
    parse_sign_eq C _ _
  rw [identify, hparse, alice_run C (by decide)]
  decide +kernel

/-- Alice's API key for one hour, ten seconds after it was issued. -/
theorem identify_sound_alice :
    Traced (demo demoCodec) [aliceLogin, aliceIssue demoCodec (clock + 3600000000000)]
      (demoCodec.issue (aliceAPI (clock + 3600000000000))) "alice@example.com"
      (clock + 10000000000) := by
  refine identify_sound (demo demoCodec) (demo_fresh _) (alice_timely _ _) ?_
    (identify_alice demoCodec)
  intro _
  rw [alice_run demoCodec (by decide)]
  exact ⟨_, List.mem_cons_of_mem _ List.mem_cons_self, rfl⟩

end Mainflux.Authn
