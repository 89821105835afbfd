/-
  Mainflux.Authn.Expiry
  ─────────────────────
  **AN API KEY WITHOUT EXPIRY DIES ON ITS FIRST USE.**

  A key issued without a duration has the zero `ExpiresAt`; it is stored as
  NULL, read back as the zero time, and `Expired` compares that with the clock
  as if it were an expiry.  So the first `Identify` of the key deletes its row,
  and no `Identify` ever accepts it (`unlimited_key_dies`).
-/
import Mainflux.Authn.Soundness

namespace Mainflux.Authn

open Mainflux.Lib

variable {E : Env} {w : World} {r : Request} {u : UUID}

/-! ## §1. Rows without expiry. -/

/-- The id `u` has been given out, and no row of that id has an expiry. -/
def Unlimited (E : Env) (u : UUID) (w : World) : Prop :=
  (∃ i < w.ids, E.idp i = some u) ∧ ∀ row ∈ w.keys, row.id = u → row.expiresAt = none

theorem unlimited_next (hfresh : E.Fresh) (h : Unlimited E u w) : Unlimited E u (next E w r) := by
  obtain ⟨⟨i, hi, hu⟩, hrows⟩ := h
  rcases hp : step E w r with ⟨w', rep⟩
  rw [next, hp]
  cases effect_of_step hp with
  | quiet n rep hn hnew hkept => exact ⟨⟨i, Nat.lt_of_lt_of_le hi hn, hu⟩, hrows⟩
  | temp e k hs ht => exact ⟨⟨i, hi, hu⟩, hrows⟩
  | lost e k err hs ht => exact ⟨⟨i, Nat.lt_succ_of_lt hi, hu⟩, hrows⟩
  | saved e k v hs ht hid hidp =>
      refine ⟨⟨i, Nat.lt_succ_of_lt hi, hu⟩, fun row hrow hrid => ?_⟩
      rcases List.mem_append.mp hrow with hrow | hrow
      · exact hrows row hrow hrid
      · -- the new row has a new id
        rw [List.mem_singleton.mp hrow] at hrid
        have hv : v = u := hrid
        rw [hv] at hidp
        exact absurd (hfresh i w.ids u hu hidp) (Nat.ne_of_lt hi)
  | removed e v rep hrep honly =>
      exact ⟨⟨i, hi, hu⟩, fun row hrow => hrows row (mem_deleteWhere.mp hrow).1⟩

theorem unlimited_run (hfresh : E.Fresh) (h : Unlimited E u w) (reqs : List Request) :
    Unlimited E u (run (next E) w reqs) :=
  run_inv (C := fun _ _ => True) (fun _ _ h _ => unlimited_next hfresh h) h
    (along_of_forall (fun _ _ => trivial) _ _)

/-- A row without expiry counts as expired at every time. -/
theorem expired_of_unlimited {row : KeyRow} (h : row.expiresAt = none) (now : Nat) :
    row.toKey.expired now := by
  simp only [Key.expired, KeyRow.toKey, h, Option.getD_none]
  unfold zeroTime
  omega

/-- No API key of that id is ever accepted. -/
theorem identify_unlimited {c : Claims} (h : Unlimited E u w) (ht : c.type = some KeyType.apiKey)
    (hid : c.id = uuidOut u) (now : Nat) :
    ∃ err, (identify E now (E.codec.sign c) w).2 = .error err := by
  cases hres : (identify E now (E.codec.sign c) w).2 with
  | error err => exact ⟨err, rfl⟩
  | ok e =>
      obtain ⟨k, hparse, hcase⟩ := identify_ok hres
      obtain ⟨rfl, t, hcur⟩ := parse_sign.mp hparse
      have htype : c.toKey.type = KeyType.apiKey := by rw [Claims.toKey, ht]; rfl
      rcases hcase with ⟨-, -, v, hv, row, hrow, his, hexp⟩ | ⟨hkind, -⟩
      · have hvu : v = u := by
          have hv' : uuidIn c.id = some v := hv
          rw [hid, uuidIn_uuidOut] at hv'
          exact (Option.some.inj hv').symm
        exact absurd (expired_of_unlimited (h.2 row hrow (his.2.trans hvu)) now) hexp
      · rw [htype] at hkind
        exact absurd hkind (by decide)

/-! ## §2. Keys issued without a duration. -/

/-- What the documentation promises of a key that never expires: `Identify`
accepts its token at every time after `t`, whatever is called in between, as
long as no `Revoke` of it has succeeded. -/
def LivesUntilRevoked (E : Env) (w : World) (t : Nat) (e : String) (u : UUID) (token : String) :
    Prop :=
  ∀ reqs now, t ≤ now → ¬ Occurs (next E) (Revokes E e u) w reqs →
    (identify E now token (run (next E) w reqs)).2 = .ok e

/-- The call that issues such a key makes its id an unlimited one. -/
theorem unlimited_issued {k : Key} {signed : List Claims} (hfresh : E.Fresh) (h : Ledger E w)
    (hidp : E.idp w.ids = some u) (hexp : k.expiresAt = zeroTime) :
    Unlimited E u ⟨w.keys ++ [k.toRow u], w.ids + 1, signed⟩ := by
  refine ⟨⟨w.ids, Nat.lt_succ_self _, hidp⟩, fun row hrow hrid => ?_⟩
  rcases List.mem_append.mp hrow with hrow | hrow
  · -- an older row has an older id
    obtain ⟨i, hi, hv⟩ := h.row_id row hrow
    rw [hrid] at hv
    exact absurd (hfresh i w.ids u hv hidp) (Nat.ne_of_lt hi)
  · rw [List.mem_singleton.mp hrow]
    simp only [Key.toRow, hexp, if_true]

/-- The token of a key issued without a duration parses from then on. -/
theorem parse_unlimited {C : Codec} {k : Key} {at' now : Nat} (hat : k.issuedAt = at')
    (ht : k.type = KeyType.apiKey) (hle : at' ≤ now) :
    C.parse now (C.issue k) = .ok k.claims.toKey := by
  refine parse_sign.mpr ⟨rfl, KeyType.apiKey, ⟨congrArg some ht, by decide, .inr ?_, .inl rfl⟩,
    .inl rfl⟩
  simp only [Key.claims, hat, unix]
  omega

/-- **An API key without expiry dies on its first use.**  The key is issued,
its row is there, and the first `Identify` answers that it has expired and
deletes the row; nor does any later `Identify` accept the token. -/
theorem unlimited_key_dies (E : Env) (hfresh : E.Fresh) {reqs : List Request} {r : Request}
    (htimely : r.Timely) {issuer : String} {key k : Key} (hcall : r.call = .issue issuer key)
    (ht : key.type = KeyType.apiKey) (hexp : key.expiresAt = zeroTime)
    (hok : (step E (run (next E) .init reqs) r).2 = .key (.ok k)) :
    ∃ u, k.id = uuidOut u ∧ login E r.now issuer = .ok k.issuer ∧
      ¬ LivesUntilRevoked E (run (next E) .init (reqs ++ [r])) r.now k.issuer u k.secret ∧
      (∃ row ∈ (run (next E) .init (reqs ++ [r])).keys, row.Is k.issuer u) ∧
      (∀ now : Nat, r.now ≤ now →
        (identify E now k.secret (run (next E) .init (reqs ++ [r]))).2 = .error .keyExpired ∧
        ∀ row ∈ (identify E now k.secret (run (next E) .init (reqs ++ [r]))).1.keys,
          ¬ row.Is k.issuer u) ∧
      ∀ later (now : Nat), ∃ err,
        (identify E now k.secret (run (next E) .init (reqs ++ r :: later))).2 = .error err := by
  have hat : key.issuedAt = r.now := htimely issuer key hcall
  have hnz : key.issuedAt ≠ zeroTime := by
    rw [hat]
    unfold zeroTime
    omega
  simp only [step, hcall, issue_api hnz ht] at hok
  obtain ⟨e, u, hlogin, hidp, rfl, hw⟩ := userKey_ok (Reply.key.inj hok)
  have hnext : run (next E) .init (reqs ++ [r])
      = ⟨(run (next E) .init reqs).keys ++ [{ key with issuer := e, id := uuidOut u : Key }.toRow u],
          (run (next E) .init reqs).ids + 1,
          (run (next E) .init reqs).signed ++
            [{ key with issuer := e, id := uuidOut u : Key }.claims]⟩ := by
    rw [run_append, run_cons, run_nil, next, step, hcall]
    exact (congrArg Prod.fst (issue_api hnz ht)).trans hw
  have hlimit : Unlimited E u (run (next E) .init (reqs ++ [r])) := by
    rw [hnext]
    exact unlimited_issued hfresh (ledger_run hfresh reqs) hidp hexp
  have hrow : { key with issuer := e, id := uuidOut u : Key }.toRow u
      ∈ (run (next E) .init (reqs ++ [r])).keys := by
    rw [hnext]
    exact List.mem_append_right _ List.mem_cons_self
  have hdies : ∀ later (now : Nat), ∃ err, (identify E now
      (E.codec.issue { key with issuer := e, id := uuidOut u })
      (run (next E) .init (reqs ++ r :: later))).2 = .error err := by
    intro later now
    have hrun : run (next E) .init (reqs ++ r :: later)
        = run (next E) (run (next E) .init (reqs ++ [r])) later := by
      rw [← run_append, List.append_assoc, List.singleton_append]
    rw [hrun]
    exact identify_unlimited (unlimited_run hfresh hlimit later) (congrArg some ht) rfl now
  refine ⟨u, rfl, hlogin, ?_, ?_, ?_, hdies⟩
  · intro hlives
    obtain ⟨err, herr⟩ := hdies [] r.now
    have hok := hlives [] r.now (Nat.le_refl _) (fun h => h)
    rw [run_nil] at hok
    exact absurd (herr.symm.trans hok) (by simp)
  · exact ⟨_, hrow, rfl, rfl⟩
  · intro now hle
    have hparse : E.codec.parse now (E.codec.issue { key with issuer := e, id := uuidOut u })
        = .ok { key with issuer := e, id := uuidOut u : Key }.claims.toKey :=
      parse_unlimited hat ht hle
    have hdel := identify_expired hparse ht (uuidIn_uuidOut u) ⟨_, hrow, rfl, rfl⟩
      (fun row hr his => expired_of_unlimited (hlimit.2 row hr his.2) now)
    have hsecret : (E.returned { key with issuer := e, id := uuidOut u }).secret
        = E.codec.issue { key with issuer := e, id := uuidOut u } := rfl
    rw [hsecret, hdel]
    exact ⟨rfl, fun row hr => (mem_deleteWhere.mp hr).2⟩

/-- Alice's API key without a duration. -/
theorem unlimited_key_dies_alice :
    ∃ u, (aliceAPI zeroTime).id = uuidOut u ∧
      ¬ LivesUntilRevoked (demo demoCodec)
          (run (next (demo demoCodec)) .init ([aliceLogin] ++ [aliceIssue demoCodec zeroTime])) clock
          "alice@example.com" u (demoCodec.issue (aliceAPI zeroTime)) := by
  have hdies : ∀ C : Codec, ∃ u, (aliceAPI zeroTime).id = uuidOut u ∧
      ¬ LivesUntilRevoked (demo C) (run (next (demo C)) .init ([aliceLogin] ++ [aliceIssue C zeroTime]))
          clock "alice@example.com" u (C.issue (aliceAPI zeroTime)) := by
    intro C
    have hissued := congrArg Prod.snd (alice_step C (x := zeroTime) (by decide))
    obtain ⟨u, hid, -, hlives, -⟩ := unlimited_key_dies (demo C) (demo_fresh C)
      (alice_timely C zeroTime _ (List.mem_cons_of_mem _ List.mem_cons_self)) rfl rfl rfl hissued
    exact ⟨u, hid, hlives⟩
  exact hdies demoCodec

theorem alice_not_live (C : Codec) :
    ¬ LivesUntilRevoked (demo C) (run (next (demo C)) .init [aliceLogin, aliceIssue C zeroTime]) clock
        "alice@example.com" (UUID.fill 0) ((demo C).returned (aliceAPI zeroTime)).secret := by
  intro hlives
  have hlimit : Unlimited (demo C) (UUID.fill 0)
      (run (next (demo C)) .init [aliceLogin, aliceIssue C zeroTime]) := by
    rw [alice_run C (by decide)]
    refine ⟨⟨0, by decide, rfl⟩, fun row hrow _ => ?_⟩
    rw [List.mem_singleton.mp hrow]
    rfl
  obtain ⟨err, herr⟩ := identify_unlimited (c := (aliceAPI zeroTime).claims) hlimit rfl rfl clock
  have hok := hlives [] clock (Nat.le_refl _) (fun h => h)
  have htoken : ((demo C).returned (aliceAPI zeroTime)).secret
      = (demo C).codec.sign (aliceAPI zeroTime).claims := rfl
  rw [run_nil, htoken, herr] at hok
  cases hok

/-- The documentation's promise fails: the key is issued, and the first
`Identify` answers that it has expired. -/
theorem unlimited_key_not_live :
    (step (demo demoCodec) (run (next (demo demoCodec)) .init [aliceLogin])
      (aliceIssue demoCodec zeroTime)).2
        = .key (.ok ((demo demoCodec).returned (aliceAPI zeroTime))) ∧
    ¬ LivesUntilRevoked (demo demoCodec)
        (run (next (demo demoCodec)) .init [aliceLogin, aliceIssue demoCodec zeroTime]) clock
        "alice@example.com" (UUID.fill 0) ((demo demoCodec).returned (aliceAPI zeroTime)).secret :=
  ⟨congrArg Prod.snd (alice_step demoCodec (by decide)), alice_not_live demoCodec⟩

end Mainflux.Authn
