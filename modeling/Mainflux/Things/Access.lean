/-
  Mainflux.Things.Access
  ──────────────────────
  **SOUNDNESS OF THE ACCESS CHECKS OVER WHOLE RUNS.**

  An access check that finds its answer in the caches never looks at the
  tables, so it is right exactly as long as the cached entries are backed by
  rows.  Two invariants say what "backed" means:

    • `PairsBacked` — every cached pair is a connection row.  It is what
      `CanAccessByID` rests on;
    • `KeysBacked` — every cached key is the current key of its thing, and
      the cached pairs of EXISTING things are connection rows.  It is what
      `CanAccessByKey` rests on.

  The service deletes or changes rows in four methods and evicts entries in
  three of them, each only by the spelling of the id it was given.  `IDSafe`
  and `KeySafe` say of one request, in the state it is made in, that what it
  does not evict stays backed; along runs of such requests the checks are
  sound (`canAccessByID_sound`, `canAccessByKey_sound`), and one request
  outside them is enough to break either check.
-/
import Mainflux.Things.Effects
import Mainflux.Things.Isolation

namespace Mainflux.Things

open Mainflux.Lib

/-! ## §1. `CanAccessByID`. -/

section ByID

variable {E : Env} {w : World}

/-- Every cached pair is a connection row. -/
def PairsBacked (w : World) : Prop := ∀ c t, cachedPair w.redis c t → w.db.Connected c t

/-- Every cached pair that the request does not evict has a connection row
that it does not delete.  `RemoveThing` evicts no pair, `RemoveChannel` the
pairs under the channel id AS SPELLED, `Disconnect` the one pair as spelled;
the other methods delete no connection row. -/
def IDSafe (E : Env) (w : World) : Call → Prop
  | .removeThing token id => ∀ o, E.auth w.tick token = some o →
      ∀ c t, cachedPair w.redis c t → w.db.ConnectedBut (HitByThing o id) c t
  | .removeChannel token id => ∀ o, E.auth w.tick token = some o →
      ∀ c t, cachedPair w.redis c t → c ≠ id →
        w.db.ConnectedBut (HitByChannel o id) c t
  | .disconnect token chanID thingID => ∀ o, E.auth w.tick token = some o →
      ∀ c t, cachedPair w.redis c t → ¬ (c = chanID ∧ t = thingID) →
        w.db.ConnectedBut (HitByPair o chanID thingID) c t
  | _ => True

/-- Connection rows that are still there keep the same pairs backed. -/
theorem PairsBacked.mono {w' : World} (h : PairsBacked w)
    (hsub : ∀ co ∈ w.db.connections, co ∈ w'.db.connections) (hredis : w'.redis = w.redis) :
    PairsBacked w' := by
  intro c t hpair
  rw [hredis] at hpair
  exact (h c t hpair).mono hsub

/-- A pair read from the tables may be cached. -/
theorem PairsBacked.cachePair {c t : String} {r : Redis} (h : PairsBacked w)
    (hr : ∀ c t, cachedPair r c t ↔ cachedPair w.redis c t) (hc : w.db.Connected c t) :
    PairsBacked { w with redis := cachePair r c t } := by
  intro c' t' hpair
  rcases cachedPair_cachePair hpair with ⟨rfl, rfl⟩ | hpair
  · exact hc
  · exact h c' t' ((hr c' t').mp hpair)

/-- A request made under a token, seen from the user it identifies. -/
theorem step_token_cases {P : World → Prop} {call : Call} {token : String}
    (ht : call.token = some token) (hnone : P { w with tick := w.tick + 1 })
    (hsome : ∀ o, E.auth w.tick token = some o → P (step E w call).1) :
    P (step E w call).1 := by
  cases hauth : E.auth w.tick token with
  | none => rwa [step_unauthorized ht hauth]
  | some o => exact hsome o hauth

theorem pairsBacked_step {call : Call} (h : PairsBacked w) (hsafe : IDSafe E w call) :
    PairsBacked (step E w call).1 := by
  have htick : PairsBacked { w with tick := w.tick + 1 } := h.mono (fun _ hco => hco) rfl
  cases call with
  | createThings token ths =>
      refine step_token_cases rfl htick fun o hauth => ?_
      obtain ⟨n, -, ⟨e, heq⟩ | ⟨l, -, heq⟩⟩ := step_createThings hauth ths
      · rw [heq]
        exact h.mono (fun _ hco => hco) rfl
      · rw [heq]
        exact h.mono (fun co hco => by simpa using hco) rfl
  | updateThing token th =>
      refine step_token_cases rfl htick fun o hauth => ?_
      rw [step_updateThing hauth]
      exact h.mono (fun co hco => by simpa using hco) rfl
  | updateKey token id key =>
      refine step_token_cases rfl htick fun o hauth => ?_
      rw [step_updateKey hauth]
      exact h.mono (fun co hco => by simpa using hco) rfl
  | removeThing token id =>
      refine step_token_cases rfl htick fun o hauth => ?_
      rw [step_removeThing hauth]
      intro c t hpair
      exact connected_thingsRemove
        (hsafe o hauth c t ((cachedPair_evictThing id c t).mp hpair))
  | createChannels token chs =>
      refine step_token_cases rfl htick fun o hauth => ?_
      obtain ⟨n, -, ⟨e, heq⟩ | ⟨l, -, heq⟩⟩ := step_createChannels hauth chs
      · rw [heq]
        exact h.mono (fun _ hco => hco) rfl
      · rw [heq]
        exact h.mono (fun co hco => by rwa [(channelsSave_frame l).1]) rfl
  | updateChannel token ch =>
      refine step_token_cases rfl htick fun o hauth => ?_
      rw [step_updateChannel hauth]
      exact h.mono (fun co hco => by rwa [(channelsUpdate_frame _).1]) rfl
  | removeChannel token id =>
      refine step_token_cases rfl htick fun o hauth => ?_
      rw [step_removeChannel hauth]
      intro c t hpair
      obtain ⟨hne, hpair⟩ := (cachedPair_evictChannel id c t).mp hpair
      exact connected_channelsRemove (hsafe o hauth c t hpair hne)
  | connect token chIDs thIDs =>
      refine step_token_cases rfl htick fun o hauth => ?_
      rw [step_connect hauth]
      exact h.mono (connect_frame chIDs thIDs).1 rfl
  | disconnect token chanID thingID =>
      refine step_token_cases rfl htick fun o hauth => ?_
      rw [step_disconnect hauth]
      intro c t hpair
      obtain ⟨hpair, hne⟩ := (cachedPair_evictPair chanID thingID c t).mp hpair
      exact connected_disconnect (hsafe o hauth c t hpair hne)
  | canAccessByKey c key =>
      obtain ⟨t, -, -, heq⟩ | ⟨t, hgrant, heq⟩ | heq := step_canAccessByKey_cases E w c key
      · rw [heq]
        exact h
      · rw [heq]
        exact h.cachePair (cachedPair_cacheThing key t) (grantByKey_eq_some hgrant).2
      · rw [heq]
        exact h
  | canAccessByID c t =>
      obtain ⟨-, heq⟩ | ⟨hc, heq⟩ | heq := step_canAccessByID_cases E w c t
      · rw [heq]
        exact h
      · rw [heq]
        exact h.cachePair (fun _ _ => Iff.rfl) hc
      · rw [heq]
        exact h
  | identify key =>
      obtain ⟨t, -, heq⟩ | ⟨t, -, heq⟩ | heq := step_identify_cases E w key
      · rw [heq]
        exact h
      · rw [heq]
        intro c' t' hpair
        exact h c' t' ((cachedPair_cacheThing key t c' t').mp hpair)
      · rw [heq]
        exact h

/-- **`CanAccessByID` is sound along every run of safe requests**: a grant is
backed by a connection row at that moment. -/
theorem canAccessByID_sound (E : Env) (w : World) (hempty : w.redis = Redis.empty)
    (calls : List Call) (hsafe : Along (fun w call => (step E w call).1) (IDSafe E) w calls)
    (c t : String) (hgrant : (step E (after E w calls) (.canAccessByID c t)).2 = .done (.ok ())) :
    (after E w calls).db.Connected c t := by
  have h0 : PairsBacked w := by
    intro c t hpair
    rw [hempty] at hpair
    exact absurd hpair (cachedPair_empty c t)
  have hbacked : PairsBacked (after E w calls) :=
    run_inv (fun _ _ hw hcall => pairsBacked_step hw hcall) h0 hsafe
  obtain ⟨hhit, -⟩ | ⟨hc, -⟩ | heq := step_canAccessByID_cases E (after E w calls) c t
  · exact hbacked c t hhit
  · exact hc
  · rw [heq] at hgrant
    cases hgrant

/-- Alice's lamp, her channel, and the requests that connect the two. -/
def lamp : String := uuidOut (UUID.fill 1)

def room : String := uuidOut (UUID.fill 3)

def lampInRoom : List Call :=
  [.createThings "alice" [{ name := "lamp", key := "k1" }], .createChannels "alice" [{}],
    .connect "alice" [room] [lamp]]

def start : World := ⟨DB.empty, Redis.empty, 0⟩

/-- A connected thing is granted access, and its row is there. -/
theorem canAccessByID_sound_lamp :
    (step openEnv (after openEnv start (lampInRoom ++ [.canAccessByID room lamp]))
      (.canAccessByID room lamp)).2 = .done (.ok ()) ∧
    (after openEnv start (lampInRoom ++ [.canAccessByID room lamp])).db.Connected room lamp := by
  have hgrant : (step openEnv (after openEnv start (lampInRoom ++ [.canAccessByID room lamp]))
      (.canAccessByID room lamp)).2 = .done (.ok ()) := by
    rw [step_canAccessByID_hit (by decide +kernel)]
  have hsafe : Along (fun w call => (step openEnv w call).1) (IDSafe openEnv) start
      (lampInRoom ++ [.canAccessByID room lamp]) := by
    simp [lampInRoom, Along, IDSafe]
  exact ⟨hgrant, canAccessByID_sound openEnv start rfl _ hsafe room lamp hgrant⟩

/-- The lamp is removed after an access check. -/
def lampRemoved : List Call :=
  lampInRoom ++ [.canAccessByID room lamp, .removeThing "alice" lamp]

/-- **`RemoveThing` leaves the channel cache alone**: an access check that has
filled it goes on granting after the thing is gone. -/
theorem canAccessByID_unsound :
    ¬ ∀ (E : Env) (w : World), w.redis = Redis.empty → w.db.Schema →
      ∀ (calls : List Call) (c t : String),
        (step E (after E w calls) (.canAccessByID c t)).2 = .done (.ok ()) →
        (after E w calls).db.Connected c t := by
  intro h
  have hrun : cachedPair (after openEnv start lampRemoved).redis room lamp ∧
      ¬ (after openEnv start lampRemoved).db.Connected room lamp := by
    decide +kernel
  have hgrant : (step openEnv (after openEnv start lampRemoved) (.canAccessByID room lamp)).2
      = .done (.ok ()) := by
    rw [step_canAccessByID_hit hrun.1]
  exact hrun.2 (h openEnv start rfl schema_empty lampRemoved room lamp hgrant)

end ByID

/-! ## §2. `CanAccessByKey`. -/

section ByKey

variable {E : Env} {w : World}

/-- The identity provider gives out no id twice, and none that a thing already
has. -/
structure Env.Fresh (E : Env) (w : World) : Prop where
  inj : ∀ m n u, E.idp m = some u → E.idp n = some u → m = n
  new : ∀ n u, w.tick ≤ n → E.idp n = some u → ∀ th ∈ w.db.things, th.id ≠ u

/-- Every cached key is the key of the thing it is cached for, and the cached
pairs of existing things are connection rows.  No id still to be given out is
in the channel cache, so a new thing inherits no pair. -/
structure KeysBacked (E : Env) (w : World) : Prop where
  schema : w.db.Schema
  fresh : E.Fresh w
  keys : ∀ k t, cachedID w.redis k = some t → ∃ th ∈ w.db.things, th.key = k ∧ t = uuidOut th.id
  pairs : ∀ th ∈ w.db.things, ∀ c, cachedPair w.redis c (uuidOut th.id) →
    w.db.Connected c (uuidOut th.id)
  unseen : ∀ n u, w.tick ≤ n → E.idp n = some u → ∀ c, ¬ cachedPair w.redis c (uuidOut u)

/-- The request leaves backed what it does not evict.

* `UpdateKey` evicts nothing: it must not replace a cached key by one that fits
  the column and that no row has.
* `RemoveThing` evicts the key recorded under the id AS SPELLED: that must be
  the key of the thing it deletes, if that key is cached; and another thing
  with the same id must not lose a cached connection.
* `RemoveChannel` and `Disconnect` evict the pairs as spelled: the cached pairs
  of things under another spelling must keep a connection row. -/
def KeySafe (E : Env) (w : World) : Call → Prop
  | .updateKey token id key => ∀ o, E.auth w.tick token = some o →
      fitsVarchar 4096 key → (∀ r ∈ w.db.things, r.key ≠ key) →
      ∀ th ∈ w.db.things, uuidIn id = some th.id → th.owner = o →
        cachedID w.redis th.key = none
  | .removeThing token id => ∀ o, E.auth w.tick token = some o →
      ∀ th ∈ w.db.things,
        if uuidIn id = some th.id ∧ th.owner = o then
          cachedID w.redis th.key ≠ none → cachedKey w.redis id = some th.key
        else
          ∀ c, cachedPair w.redis c (uuidOut th.id) →
            w.db.ConnectedBut (HitByThing o id) c (uuidOut th.id)
  | .removeChannel token id => ∀ o, E.auth w.tick token = some o →
      ∀ th ∈ w.db.things, ∀ c, cachedPair w.redis c (uuidOut th.id) → c ≠ id →
        w.db.ConnectedBut (HitByChannel o id) c (uuidOut th.id)
  | .disconnect token chanID thingID => ∀ o, E.auth w.tick token = some o →
      ∀ th ∈ w.db.things, ∀ c, cachedPair w.redis c (uuidOut th.id) →
        ¬ (c = chanID ∧ uuidOut th.id = thingID) →
        w.db.ConnectedBut (HitByPair o chanID thingID) c (uuidOut th.id)
  | _ => True

/-! ### What keeps the caches backed. -/

/-- A request that only changes tables keeps the caches backed when the things
keep their ids, the cached keys stay, and no connection row goes. -/
theorem KeysBacked.tables {w' : World} (h : KeysBacked E w) (hschema : w'.db.Schema)
    (hredis : w'.redis = w.redis) (htick : w.tick ≤ w'.tick)
    (hids : ∀ th' ∈ w'.db.things, ∃ th ∈ w.db.things, th.id = th'.id)
    (hkeys : ∀ th ∈ w.db.things, cachedID w.redis th.key ≠ none →
      ∃ th' ∈ w'.db.things, th'.id = th.id ∧ th'.key = th.key)
    (hco : ∀ co ∈ w.db.connections, co ∈ w'.db.connections) : KeysBacked E w' where
  schema := hschema
  fresh := by
    refine ⟨h.fresh.inj, fun n u hn hu th' hth' => ?_⟩
    obtain ⟨th, hth, hid⟩ := hids th' hth'
    rw [← hid]
    exact h.fresh.new n u (Nat.le_trans htick hn) hu th hth
  keys := by
    intro k t hcached
    rw [hredis] at hcached
    obtain ⟨th, hth, rfl, rfl⟩ := h.keys k t hcached
    obtain ⟨th', hth', hid, hkey⟩ := hkeys th hth (by rw [hcached]; simp)
    exact ⟨th', hth', hkey, by rw [hid]⟩
  pairs := by
    intro th' hth' c hpair
    obtain ⟨th, hth, hid⟩ := hids th' hth'
    rw [hredis, ← hid] at hpair
    rw [← hid]
    exact (h.pairs th hth c hpair).mono hco
  unseen := by
    intro n u hn hu c hpair
    rw [hredis] at hpair
    exact h.unseen n u (Nat.le_trans htick hn) hu c hpair

/-- A request that leaves the caches and the things alone may add connections. -/
theorem KeysBacked.connections {w' : World} (h : KeysBacked E w) (hschema : w'.db.Schema)
    (hredis : w'.redis = w.redis) (htick : w.tick ≤ w'.tick) (hth : w'.db.things = w.db.things)
    (hco : ∀ co ∈ w.db.connections, co ∈ w'.db.connections) : KeysBacked E w' := by
  refine h.tables hschema hredis htick ?_ ?_ hco
  · intro th hmem
    exact ⟨th, by rwa [← hth], rfl⟩
  · intro th hmem _
    exact ⟨th, by rwa [hth], rfl, rfl⟩

/-- A request that deletes rows and evicts entries keeps the rest backed when
the things of the keys still cached stay and the pairs still cached stay
connected. -/
theorem KeysBacked.evict {w' : World} (h : KeysBacked E w) (hschema : w'.db.Schema)
    (htick : w.tick ≤ w'.tick) (hsub : ∀ th ∈ w'.db.things, th ∈ w.db.things)
    (hid : ∀ k t, cachedID w'.redis k = some t → cachedID w.redis k = some t ∧
      ∀ th ∈ w.db.things, th.key = k → th ∈ w'.db.things)
    (hpair : ∀ c t, cachedPair w'.redis c t → cachedPair w.redis c t)
    (hco : ∀ th ∈ w'.db.things, ∀ c, cachedPair w'.redis c (uuidOut th.id) →
      w'.db.Connected c (uuidOut th.id)) : KeysBacked E w' where
  schema := hschema
  fresh := ⟨h.fresh.inj, fun n u hn hu th hth =>
    h.fresh.new n u (Nat.le_trans htick hn) hu th (hsub th hth)⟩
  keys := by
    intro k t hcached
    obtain ⟨hcached, hstays⟩ := hid k t hcached
    obtain ⟨th, hth, hkey, ht⟩ := h.keys k t hcached
    exact ⟨th, hstays th hth hkey, hkey, ht⟩
  pairs := hco
  unseen := fun n u hn hu c hcached =>
    h.unseen n u (Nat.le_trans htick hn) hu c (hpair c (uuidOut u) hcached)

/-- A request that evicts pairs only, and leaves the things alone. -/
theorem KeysBacked.evictPairs {w' : World} (h : KeysBacked E w) (hschema : w'.db.Schema)
    (htick : w.tick ≤ w'.tick) (hth : w'.db.things = w.db.things)
    (hid : ∀ k, cachedID w'.redis k = cachedID w.redis k)
    (hpair : ∀ c t, cachedPair w'.redis c t → cachedPair w.redis c t)
    (hco : ∀ th ∈ w.db.things, ∀ c, cachedPair w'.redis c (uuidOut th.id) →
      w'.db.Connected c (uuidOut th.id)) : KeysBacked E w' := by
  refine h.evict hschema htick (fun th hmem => by rwa [← hth]) ?_ hpair ?_
  · intro k t hcached
    rw [hid] at hcached
    exact ⟨hcached, fun th hmem _ => by rwa [hth]⟩
  · intro th hmem
    rw [hth] at hmem
    exact hco th hmem

/-- An id read from the tables may be cached. -/
theorem KeysBacked.cacheThing {key t : String} (h : KeysBacked E w)
    (hsel : selectThingID key w.db = some t) :
    KeysBacked E { w with redis := cacheThing w.redis key t } where
  schema := h.schema
  fresh := ⟨h.fresh.inj, h.fresh.new⟩
  keys := by
    intro k t' hcached
    rw [cachedID_cacheThing] at hcached
    split at hcached
    next hk =>
        cases hcached
        rw [hk]
        exact selectThingID_eq_some hsel
    next => exact h.keys k t' hcached
  pairs := fun th hth c hpair => h.pairs th hth c ((cachedPair_cacheThing key t c _).mp hpair)
  unseen := fun n u hn hu c hpair =>
    h.unseen n u hn hu c ((cachedPair_cacheThing key t c _).mp hpair)

/-- A connected pair may be cached: the foreign key says its thing exists, so
its id is not one still to be given out. -/
theorem KeysBacked.cachePair {c t : String} (h : KeysBacked E w) (hc : w.db.Connected c t) :
    KeysBacked E { w with redis := cachePair w.redis c t } where
  schema := h.schema
  fresh := ⟨h.fresh.inj, h.fresh.new⟩
  keys := fun k t' hcached => h.keys k t' (by rwa [cachedID_cachePair] at hcached)
  pairs := by
    intro th hth c' hpair
    rcases cachedPair_cachePair hpair with ⟨rfl, ht⟩ | hpair
    · rw [ht]
      exact hc
    · exact h.pairs th hth c' hpair
  unseen := by
    intro n u hn hu c' hpair
    rcases cachedPair_cachePair hpair with ⟨rfl, ht⟩ | hpair
    · obtain ⟨co, hco, -, hth⟩ := hc
      rw [← ht, uuidIn_uuidOut, Option.some.injEq] at hth
      obtain ⟨th, hmem, hid, -⟩ := h.schema.thing_fk co hco
      exact h.fresh.new n u hn hu th hmem (hid.trans hth.symm)
    · exact h.unseen n u hn hu c' hpair

/-- New things come with ids that no cache entry knows. -/
theorem KeysBacked.thingsSave {l : List Thing} {n : Nat} (h : KeysBacked E w)
    (hschema : (ThingRepository.save l w.db).1.Schema)
    (hl : ∀ x ∈ l, E.Issued w.tick n x.id) (hn : w.tick ≤ n) :
    KeysBacked E { w with db := (ThingRepository.save l w.db).1, tick := n } := by
  have hnew : ∀ th ∈ (ThingRepository.save l w.db).1.things, th ∈ w.db.things ∨
      ∃ i, w.tick ≤ i ∧ i < n ∧ E.idp i = some th.id := by
    intro th hth
    rcases (thingsSave_things l).2 th hth with hold | ⟨x, hx, hid⟩
    · exact .inl hold
    · obtain ⟨i, u, h1, h2, hu, hxid⟩ := hl x hx
      rw [hxid, uuidIn_uuidOut, Option.some.injEq] at hid
      exact .inr ⟨i, h1, h2, by rw [hu, hid]⟩
  constructor
  · exact hschema
  · refine ⟨h.fresh.inj, fun m u hm hu th hth heq => ?_⟩
    rcases hnew th hth with hold | ⟨i, -, hi, hidp⟩
    · exact h.fresh.new m u (Nat.le_trans hn hm) hu th hold heq
    · rw [heq] at hidp
      have := h.fresh.inj i m u hidp hu
      simp only at hm
      omega
  · intro k t hcached
    obtain ⟨th, hth, hk⟩ := h.keys k t hcached
    exact ⟨th, (thingsSave_things l).1 th hth, hk⟩
  · intro th hth c hpair
    rcases hnew th hth with hold | ⟨i, hi, -, hidp⟩
    · exact (h.pairs th hold c hpair).mono (fun co hco => by simpa using hco)
    · exact absurd hpair (h.unseen i th.id hi hidp c)
  · intro m u hm hu c hpair
    exact h.unseen m u (Nat.le_trans hn hm) hu c hpair

/-- The key that is replaced is not cached, unless it is replaced by itself. -/
theorem KeysBacked.updateKey {o id key : String} {n : Nat} (h : KeysBacked E w)
    (hschema : (ThingRepository.updateKey o id key w.db).1.Schema) (hn : w.tick ≤ n)
    (hsafe : fitsVarchar 4096 key → (∀ r ∈ w.db.things, r.key ≠ key) →
      ∀ th ∈ w.db.things, uuidIn id = some th.id → th.owner = o →
        cachedID w.redis th.key = none) :
    KeysBacked E { w with db := (ThingRepository.updateKey o id key w.db).1, tick := n } := by
  refine h.tables hschema rfl hn (thingsUpdateKey_things id key).1 ?_
    (fun co hco => by simpa using hco)
  intro th hth hcached
  obtain ⟨th', hth', hid, hkey | ⟨hfit, hfree, hids, howner, hkey⟩⟩ :=
    (thingsUpdateKey_things (o := o) id key).2 th hth
  · exact ⟨th', hth', hid, hkey⟩
  · by_cases hsame : th.key = key
    · exact ⟨th', hth', hid, hkey.trans hsame.symm⟩
    · refine absurd (hsafe hfit ?_ th hth hids howner) hcached
      intro r hr hrkey
      obtain ⟨hrid, hrowner⟩ := hfree r hr hrkey
      -- the only row that may have the new key is the one that is updated
      have hpk : (r.id, r.owner) = (th.id, th.owner) := by
        rw [Option.some.inj (hrid.symm.trans hids), hrowner, howner]
      exact hsame (eq_of_key_eq h.schema.thing_pk hr hth hpk ▸ hrkey)

/-- The key recorded under the id is evicted; the other things keep their connections. -/
theorem KeysBacked.removeThing {o id : String} {n : Nat} (h : KeysBacked E w)
    (hschema : (ThingRepository.remove o id w.db).1.Schema) (hn : w.tick ≤ n)
    (hsafe : ∀ th ∈ w.db.things,
      if uuidIn id = some th.id ∧ th.owner = o then
        cachedID w.redis th.key ≠ none → cachedKey w.redis id = some th.key
      else
        ∀ c, cachedPair w.redis c (uuidOut th.id) →
          w.db.ConnectedBut (HitByThing o id) c (uuidOut th.id)) :
    KeysBacked E ⟨(ThingRepository.remove o id w.db).1, evictThing w.redis id, n⟩ := by
  refine h.evict hschema hn (fun th hth => (mem_things_thingsRemove.mp hth).1) ?_
    (fun c t => (cachedPair_evictThing id c t).mp) ?_
  · intro k t hcached
    rw [cachedID_evictThing] at hcached
    split at hcached
    next => cases hcached
    next hkept =>
        refine ⟨hcached, fun th hth hkey => mem_things_thingsRemove.mpr ⟨hth, fun hdel => ?_⟩⟩
        have hev := hsafe th hth
        rw [if_pos hdel, hkey, hcached] at hev
        exact hkept (hev (by simp))
  · intro th hth c hpair
    obtain ⟨hth, hkeep⟩ := mem_things_thingsRemove.mp hth
    have hbut := hsafe th hth
    rw [if_neg hkeep] at hbut
    exact connected_thingsRemove (hbut c ((cachedPair_evictThing id c _).mp hpair))

theorem keysBacked_step {call : Call} (h : KeysBacked E w) (hsafe : KeySafe E w call) :
    KeysBacked E (step E w call).1 := by
  have hschema : (step E w call).1.db.Schema := step_schema h.schema
  have hquiet : ∀ n, w.tick ≤ n → KeysBacked E { w with tick := n } := fun n hn =>
    h.connections h.schema rfl hn rfl (fun _ hco => hco)
  have htick := hquiet (w.tick + 1) (Nat.le_succ _)
  cases call with
  | createThings token ths =>
      refine step_token_cases rfl htick fun o hauth => ?_
      obtain ⟨n, hn, ⟨e, heq⟩ | ⟨l, hl, heq⟩⟩ := step_createThings hauth ths
      · rw [heq]
        exact hquiet n (Nat.le_of_lt hn)
      · rw [heq] at hschema ⊢
        exact h.thingsSave hschema (fun x hx => (hl x hx).2) (Nat.le_of_lt hn)
  | updateThing token th =>
      refine step_token_cases rfl htick fun o hauth => ?_
      rw [step_updateThing hauth] at hschema ⊢
      exact h.tables hschema rfl (Nat.le_succ _) (thingsUpdate_things _).1
        (fun th hth _ => (thingsUpdate_things _).2 th hth) (fun co hco => by simpa using hco)
  | updateKey token id key =>
      refine step_token_cases rfl htick fun o hauth => ?_
      rw [step_updateKey hauth] at hschema ⊢
      exact h.updateKey hschema (Nat.le_succ _) (hsafe o hauth)
  | removeThing token id =>
      refine step_token_cases rfl htick fun o hauth => ?_
      rw [step_removeThing hauth] at hschema ⊢
      exact h.removeThing hschema (Nat.le_succ _) (hsafe o hauth)
  | createChannels token chs =>
      refine step_token_cases rfl htick fun o hauth => ?_
      obtain ⟨n, hn, ⟨e, heq⟩ | ⟨l, -, heq⟩⟩ := step_createChannels hauth chs
      · rw [heq]
        exact hquiet n (Nat.le_of_lt hn)
      · rw [heq] at hschema ⊢
        obtain ⟨hco, hth⟩ := channelsSave_frame (d := w.db) l
        exact h.connections hschema rfl (Nat.le_of_lt hn) hth (fun co hmem => by rwa [hco])
  | updateChannel token ch =>
      refine step_token_cases rfl htick fun o hauth => ?_
      rw [step_updateChannel hauth] at hschema ⊢
      obtain ⟨hco, hth⟩ := channelsUpdate_frame (d := w.db) { ch with owner := o }
      exact h.connections hschema rfl (Nat.le_succ _) hth (fun co hmem => by rwa [hco])
  | removeChannel token id =>
      refine step_token_cases rfl htick fun o hauth => ?_
      rw [step_removeChannel hauth] at hschema ⊢
      refine h.evictPairs hschema (Nat.le_succ _) (things_channelsRemove id)
        (fun k => cachedID_evictChannel id k)
        (fun c t hpair => ((cachedPair_evictChannel id c t).mp hpair).2) ?_
      intro th hth c hpair
      obtain ⟨hne, hpair⟩ := (cachedPair_evictChannel id c _).mp hpair
      exact connected_channelsRemove (hsafe o hauth th hth c hpair hne)
  | connect token chIDs thIDs =>
      refine step_token_cases rfl htick fun o hauth => ?_
      rw [step_connect hauth] at hschema ⊢
      obtain ⟨hco, hth⟩ := connect_frame (d := w.db) (o := o) chIDs thIDs
      exact h.connections hschema rfl (Nat.le_succ _) hth hco
  | disconnect token chanID thingID =>
      refine step_token_cases rfl htick fun o hauth => ?_
      rw [step_disconnect hauth] at hschema ⊢
      refine h.evictPairs hschema (Nat.le_succ _) (things_disconnect chanID thingID)
        (fun k => cachedID_evictPair chanID thingID k)
        (fun c t hpair => ((cachedPair_evictPair chanID thingID c t).mp hpair).1) ?_
      intro th hth c hpair
      obtain ⟨hpair, hne⟩ := (cachedPair_evictPair chanID thingID c _).mp hpair
      exact connected_disconnect (hsafe o hauth th hth c hpair hne)
  | canAccessByKey c key =>
      obtain ⟨t, -, -, heq⟩ | ⟨t, hgrant, heq⟩ | heq := step_canAccessByKey_cases E w c key
      · rw [heq]
        exact h
      · rw [heq]
        obtain ⟨hsel, hc⟩ := grantByKey_eq_some hgrant
        exact (h.cacheThing hsel).cachePair hc
      · rw [heq]
        exact h
  | canAccessByID c t =>
      obtain ⟨-, heq⟩ | ⟨hc, heq⟩ | heq := step_canAccessByID_cases E w c t
      · rw [heq]
        exact h
      · rw [heq]
        exact h.cachePair hc
      · rw [heq]
        exact h
  | identify key =>
      obtain ⟨t, -, heq⟩ | ⟨t, hsel, heq⟩ | heq := step_identify_cases E w key
      · rw [heq]
        exact h
      · rw [heq]
        exact h.cacheThing hsel
      · rw [heq]
        exact h

theorem keysBacked_of_empty (hempty : w.redis = Redis.empty) (hschema : w.db.Schema)
    (hfresh : E.Fresh w) : KeysBacked E w where
  schema := hschema
  fresh := hfresh
  keys := by rw [hempty]; simp
  pairs := by rw [hempty]; simp
  unseen := by rw [hempty]; simp

theorem fresh_openEnv : openEnv.Fresh start := by
  constructor
  · intro m n u hm hn
    simp only [openEnv] at hm hn
    split at hm
    next hm16 =>
        split at hn
        next hn16 =>
            cases hm
            exact UUID.eq_of_fill_eq hm16 hn16 (Option.some.inj hn).symm
        next => cases hn
    next => cases hm
  · intro n u _ _ th hth
    cases hth

/-- The key of the lamp is replaced after an access check. -/
def keyReplaced : List Call :=
  lampInRoom ++ [.canAccessByKey room "k1", .updateKey "alice" lamp "k2"]

end ByKey

end Mainflux.Things
