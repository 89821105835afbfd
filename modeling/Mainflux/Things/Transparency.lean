/-
  Mainflux.Things.Transparency
  ────────────────────────────
  **THE CACHES CANNOT BE OBSERVED WHILE KEYS AND THINGS ARE STABLE.**

  The service behind Redis and the same service behind caches that always
  miss are run on the same requests.  `Coherent` relates the two: equal
  tables, cached ids that the tables would answer too, cached pairs that are
  connection rows spelled canonically.  Without `UpdateKey` and `RemoveThing`,
  and with ids in canonical form, every request keeps it and both services
  reply alike (`cache_transparent`).

  Requests that read no cache run the SAME commands on both sides, so one
  simulation of command programs covers them; the three access checks compare
  a hit with what the tables say.
-/
import Mainflux.Things.Access

namespace Mainflux.Things

open Mainflux.Lib

/-! ## §1. Stable requests. -/

/-- A canonical lower-case UUID string. -/
def Canonical (s : String) : Prop := ∃ u, s = uuidOut u

theorem Canonical.eq {a b : String} {u : UUID} (ha : Canonical a) (hb : Canonical b)
    (hua : uuidIn a = some u) (hub : uuidIn b = some u) : a = b := by
  obtain ⟨x, rfl⟩ := ha
  obtain ⟨y, rfl⟩ := hb
  rw [uuidIn_uuidOut] at hua hub
  rw [Option.some.inj hua, Option.some.inj hub]

/-- Neither `UpdateKey` nor `RemoveThing`, and ids in canonical form. -/
def Stable : Call → Prop
  | .updateKey _ _ _ => False
  | .removeThing _ _ => False
  | .removeChannel _ id => Canonical id
  | .disconnect _ chanID thingID => Canonical chanID ∧ Canonical thingID
  | .canAccessByKey chanID _ => Canonical chanID
  | .canAccessByID chanID thingID => Canonical chanID ∧ Canonical thingID
  | _ => True

/-- The cached entries say what the tables say. -/
structure Coherent (w : World) : Prop where
  ids : ∀ k t, cachedID w.redis k = some t → selectThingID k w.db = some t
  pairs : PairsBacked w
  canonical : ∀ c t, cachedPair w.redis c t → Canonical c ∧ Canonical t

section Steps

variable {E : Env} {w v : World} {call : Call}

/-- Canonical pairs are told apart by their UUIDs, so a stable request evicts
every pair whose row it deletes. -/
theorem idSafe_of_stable (h : Coherent w) (hs : Stable call) : IDSafe E w call := by
  cases call with
  | removeThing => exact hs.elim
  | removeChannel token id =>
      intro o _ c t hpair hne
      obtain ⟨co, hco, hc, ht⟩ := h.pairs c t hpair
      refine ⟨co, hco, fun hhit => hne ?_, hc, ht⟩
      exact (h.canonical c t hpair).1.eq hs hc hhit.1
  | disconnect token chanID thingID =>
      intro o _ c t hpair hne
      obtain ⟨co, hco, hc, ht⟩ := h.pairs c t hpair
      refine ⟨co, hco, fun hhit => hne ?_, hc, ht⟩
      obtain ⟨hcc, hct⟩ := h.canonical c t hpair
      exact ⟨hcc.eq hs.1 hc hhit.1, hct.eq hs.2 ht hhit.2.1⟩
  | _ => trivial

/-! ## §2. What a stable request does to the caches. -/

theorem selectThingID_thingsSave {d : DB} (l : List Thing) {k t : String}
    (h : selectThingID k d = some t) : selectThingID k (ThingRepository.save l d).1 = some t := by
  unfold ThingRepository.save
  split
  next d' hd =>
      refine transaction_inv (I := fun d => selectThingID k d = some t)
        (fun q hq a b hab ha => ?_) hd h
      obtain ⟨x, -, rfl⟩ := List.mem_map.mp hq
      obtain ⟨u, -, -, -, rfl⟩ := insertThing_ok hab
      -- new rows are appended, so the first row with the key is the same
      obtain ⟨th, hfind, rfl⟩ := Option.map_eq_some_iff.mp ha
      simp [selectThingID, List.find?_append, hfind]
  next => exact h

theorem selectThingID_thingsUpdate {d : DB} (x : Thing) (k : String) :
    selectThingID k (ThingRepository.update x d).1 = selectThingID k d := by
  unfold ThingRepository.update
  split
  next => rfl
  next => rfl
  next => rfl
  next d' n hd =>
      obtain ⟨u, -, -, rfl⟩ := updateThing_ok hd
      exact map_find?_updateWhere (fun _ _ => rfl) (fun _ _ => rfl)

theorem selectThingID_of_things {d d' : DB} (h : d'.things = d.things) (k : String) :
    selectThingID k d' = selectThingID k d := by
  simp only [selectThingID, h]

/-- A stable request never changes what the tables answer for a key they know. -/
theorem selectThingID_step (hs : Stable call) {k t : String} (h : selectThingID k w.db = some t) :
    selectThingID k (step E w call).1.db = some t := by
  cases hread : call.token with
  | none => rwa [step_access_db hread]
  | some token =>
      refine step_token_cases (P := fun w' => selectThingID k w'.db = some t) hread h
        fun o hauth => ?_
      cases call with
      | createThings _ ths =>
          cases hread
          obtain ⟨n, -, ⟨e, heq⟩ | ⟨l, -, heq⟩⟩ := step_createThings hauth ths
          · rwa [heq]
          · rw [heq]
            exact selectThingID_thingsSave l h
      | updateThing _ x =>
          cases hread
          rw [step_updateThing hauth]
          exact (selectThingID_thingsUpdate _ k).trans h
      | createChannels _ chs =>
          cases hread
          obtain ⟨n, -, ⟨e, heq⟩ | ⟨l, -, heq⟩⟩ := step_createChannels hauth chs
          · rwa [heq]
          · rw [heq]
            exact (selectThingID_of_things (channelsSave_frame l).2 k).trans h
      | updateChannel _ ch =>
          cases hread
          rw [step_updateChannel hauth]
          exact (selectThingID_of_things (channelsUpdate_frame _).2 k).trans h
      | removeChannel _ id =>
          cases hread
          rw [step_removeChannel hauth]
          exact (selectThingID_of_things (things_channelsRemove id) k).trans h
      | connect _ chIDs thIDs =>
          cases hread
          rw [step_connect hauth]
          exact (selectThingID_of_things (connect_frame chIDs thIDs).2 k).trans h
      | disconnect _ chanID thingID =>
          cases hread
          rw [step_disconnect hauth]
          exact (selectThingID_of_things (things_disconnect chanID thingID) k).trans h
      | updateKey => exact hs.elim
      | removeThing => exact hs.elim
      | canAccessByKey => cases hread
      | canAccessByID => cases hread
      | identify => cases hread

/-- Where the entries of the caches `r'` come from: they are those of `r`, ids that the
tables answer, and canonical pairs. -/
structure Filled (d : DB) (r r' : Redis) : Prop where
  ids : ∀ k t, cachedID r' k = some t → cachedID r k = some t ∨ selectThingID k d = some t
  pairs : ∀ c t, cachedPair r' c t → cachedPair r c t ∨ (Canonical c ∧ Canonical t)

section Filled

variable {d : DB} {r r' : Redis}

theorem Filled.refl (d : DB) (r : Redis) : Filled d r r :=
  ⟨fun _ _ h => .inl h, fun _ _ h => .inl h⟩

theorem Filled.evictChannel (d : DB) (r : Redis) (id : String) : Filled d r (evictChannel r id) where
  ids := by
    intro k t h
    rw [cachedID_evictChannel] at h
    exact .inl h
  pairs := fun c t h => .inl ((cachedPair_evictChannel id c t).mp h).2

theorem Filled.evictPair (d : DB) (r : Redis) (chanID thingID : String) :
    Filled d r (evictPair r chanID thingID) where
  ids := by
    intro k t h
    rw [cachedID_evictPair] at h
    exact .inl h
  pairs := fun c t h => .inl ((cachedPair_evictPair chanID thingID c t).mp h).1

theorem Filled.cacheThing {key t : String} (h : Filled d r r')
    (hsel : selectThingID key d = some t) : Filled d r (cacheThing r' key t) where
  ids := by
    intro k t' hcached
    rw [cachedID_cacheThing] at hcached
    split at hcached
    next hk =>
        cases hcached
        exact .inr (hk ▸ hsel)
    next => exact h.ids k t' hcached
  pairs := fun c t' hpair => h.pairs c t' ((cachedPair_cacheThing key t c t').mp hpair)

theorem Filled.cachePair {c t : String} (h : Filled d r r') (hc : Canonical c)
    (ht : Canonical t) : Filled d r (cachePair r' c t) where
  ids := by
    intro k t' hcached
    rw [cachedID_cachePair] at hcached
    exact h.ids k t' hcached
  pairs := by
    intro c' t' hpair
    rcases cachedPair_cachePair hpair with ⟨rfl, rfl⟩ | hpair
    · exact .inr ⟨hc, ht⟩
    · exact h.pairs c' t' hpair

end Filled

/-- A stable request adds to the caches at most the id that the tables answer, and the
pair it was asked about. -/
theorem step_redis (hs : Stable call) : Filled w.db w.redis (step E w call).1.redis := by
  cases hread : call.token with
  | some token =>
      refine step_token_cases (P := fun w' => Filled w.db w.redis w'.redis) hread (.refl _ _)
        fun o hauth => ?_
      cases call with
      | createThings _ ths =>
          cases hread
          obtain ⟨n, -, ⟨e, heq⟩ | ⟨l, -, heq⟩⟩ := step_createThings hauth ths
          · rw [heq]
            exact .refl _ _
          · rw [heq]
            exact .refl _ _
      | updateThing _ x =>
          cases hread
          rw [step_updateThing hauth]
          exact .refl _ _
      | createChannels _ chs =>
          cases hread
          obtain ⟨n, -, ⟨e, heq⟩ | ⟨l, -, heq⟩⟩ := step_createChannels hauth chs
          · rw [heq]
            exact .refl _ _
          · rw [heq]
            exact .refl _ _
      | updateChannel _ ch =>
          cases hread
          rw [step_updateChannel hauth]
          exact .refl _ _
      | removeChannel _ id =>
          cases hread
          rw [step_removeChannel hauth]
          exact .evictChannel _ _ id
      | connect _ chIDs thIDs =>
          cases hread
          rw [step_connect hauth]
          exact .refl _ _
      | disconnect _ chanID thingID =>
          cases hread
          rw [step_disconnect hauth]
          exact .evictPair _ _ chanID thingID
      | updateKey => exact hs.elim
      | removeThing => exact hs.elim
      | canAccessByKey => cases hread
      | canAccessByID => cases hread
      | identify => cases hread
  | none =>
      -- the access checks: only a miss that is granted writes
      cases call with
      | canAccessByKey c key =>
          obtain ⟨t, -, -, heq⟩ | ⟨t, hgrant, heq⟩ | heq := step_canAccessByKey_cases E w c key
          · rw [heq]
            exact .refl _ _
          · rw [heq]
            obtain ⟨hsel, -⟩ := grantByKey_eq_some hgrant
            obtain ⟨th, -, -, ht⟩ := selectThingID_eq_some hsel
            exact ((Filled.refl _ _).cacheThing hsel).cachePair hs ⟨th.id, ht⟩
          · rw [heq]
            exact .refl _ _
      | canAccessByID c t =>
          obtain ⟨-, heq⟩ | ⟨-, heq⟩ | heq := step_canAccessByID_cases E w c t
          · rw [heq]
            exact .refl _ _
          · rw [heq]
            exact (Filled.refl _ _).cachePair hs.1 hs.2
          · rw [heq]
            exact .refl _ _
      | identify key =>
          obtain ⟨t, -, heq⟩ | ⟨t, hsel, heq⟩ | heq := step_identify_cases E w key
          · rw [heq]
            exact .refl _ _
          · rw [heq]
            exact (Filled.refl _ _).cacheThing hsel
          · rw [heq]
            exact .refl _ _
      | _ => cases hread

theorem coherent_step (h : Coherent w) (hs : Stable call) : Coherent (step E w call).1 := by
  obtain ⟨hids, hpairs⟩ := step_redis (E := E) (w := w) hs
  refine ⟨?_, pairsBacked_step h.pairs (idSafe_of_stable h hs), ?_⟩
  · intro k t hcached
    rcases hids k t hcached with hold | hsel
    · exact selectThingID_step hs (h.ids k t hold)
    · exact selectThingID_step hs hsel
  · intro c t hcached
    rcases hpairs c t hcached with hold | hcanon
    · exact h.canonical c t hold
    · exact hcanon

/-! ## §3. The two services side by side. -/

/-- The same tables, at the same moment. -/
def SameTables (w v : World) : Prop := w.db = v.db ∧ w.tick = v.tick

/-- The command does not go to the caches. -/
def Cmd.Plain : Cmd → Prop
  | .get _ => False
  | .set _ _ => False
  | .del _ => False
  | .sAdd _ _ => False
  | .sRem _ _ => False
  | .sIsMember _ _ => False
  | _ => True

theorem plain_sim (c : Cmd) (w v : World) (hc : c.Plain) (h : SameTables w v) :
    (handle E c w).2 = (handleMiss E c v).2 ∧ SameTables (handle E c w).1 (handleMiss E c v).1 := by
  obtain ⟨hdb, htick⟩ := h
  cases c <;> first | exact hc.elim | simp [handle, handleMiss, SameTables, hdb, htick]

theorem uses_assignThings (o : String) (ths : List Thing) :
    (Service.assignThings o ths).Uses (S := Sig) Cmd.Plain := by
  induction ths with
  | nil => trivial
  | cons th ths ih =>
      refine ⟨trivial, fun r => ?_⟩
      cases r with
      | error e => trivial
      | ok id =>
          change Prog.Uses (S := Sig) _ (if th.key = "" then _ else _)
          split
          next =>
              refine ⟨trivial, fun r => ?_⟩
              cases r with
              | error e => trivial
              | ok key => exact ih.bind fun _ => trivial
          next => exact ih.bind fun _ => trivial

theorem uses_assignChannels (o : String) (chs : List Channel) :
    (Service.assignChannels o chs).Uses (S := Sig) Cmd.Plain := by
  induction chs with
  | nil => trivial
  | cons ch chs ih =>
      refine ⟨trivial, fun r => ?_⟩
      cases r with
      | error e => trivial
      | ok id => exact ih.bind fun _ => trivial

/-- A request that issues no cache command is served alike. -/
theorem sim_of_plain (hp : (serve call).Uses (S := Sig) Cmd.Plain) (h : SameTables w v) :
    (step E w call).2 = (stepMiss E v call).2 ∧
      SameTables (step E w call).1 (stepMiss E v call).1 :=
  Prog.run_sim (fun c w v => plain_sim (E := E) c w v) hp h

theorem stepMiss_canAccessByKey (c key : String) :
    stepMiss E v (.canAccessByKey c key)
      = match v.db.grantByKey c key with
        | some t => (v, .id (.ok t))
        | none => (v, .id (.error .unauthorizedAccess)) := by
  simp only [stepMiss, serve, Service.canAccessByKey, Service.hasThing, ThingCache.id,
    channelsHasThingByKey, cmd, Prog.run_bind, Prog.run_call, Prog.run_ret, Prog.run_pure,
    handleMiss, ChannelRepository.thingID, DB.grantByKey]
  cases selectThingID key v.db with
  | none => rfl
  | some t =>
      simp only [Prog.run_bind, Prog.run_call, Prog.run_ret, handleMiss]
      by_cases hc : v.db.Connected c t
      · rw [hasThing_eq_ok.mpr hc, if_pos hc]
        rfl
      · rw [if_neg hc]
        cases hh : ChannelRepository.hasThing c t v.db with
        | error e => rfl
        | ok u => exact absurd (hasThing_eq_ok.mp hh) hc

theorem stepMiss_canAccessByID (c t : String) :
    stepMiss E v (.canAccessByID c t)
      = if v.db.Connected c t then (v, .done (.ok ()))
        else (v, .done (.error .unauthorizedAccess)) := by
  simp only [stepMiss, serve, Service.canAccessByID, ChannelCache.hasThing, cmd, Prog.run_bind,
    Prog.run_call, Prog.run_ret, Prog.run_pure, handleMiss, Bool.false_eq_true, if_false]
  by_cases hc : v.db.Connected c t
  · rw [hasThing_eq_ok.mpr hc, if_pos hc]
    rfl
  · rw [if_neg hc]
    cases hh : ChannelRepository.hasThing c t v.db with
    | error e => rfl
    | ok u => exact absurd (hasThing_eq_ok.mp hh) hc

theorem stepMiss_identify (key : String) :
    stepMiss E v (.identify key)
      = match selectThingID key v.db with
        | some t => (v, .id (.ok t))
        | none => (v, .id (.error .unauthorizedAccess)) := by
  simp only [stepMiss, serve, Service.identify, ThingCache.id, cmd, Prog.run_bind,
    Prog.run_call, Prog.run_ret, handleMiss, ThingRepository.retrieveByKey]
  cases selectThingID key v.db <;> rfl

theorem grantByKey_eq_of_connected {d : DB} {c key t : String} (h : selectThingID key d = some t)
    (hc : d.Connected c t) : d.grantByKey c key = some t := by
  simp [DB.grantByKey, h, hc]

/-- **One stable request is answered alike**, and leaves the same tables. -/
theorem sim_step (h : Coherent w) (hsame : SameTables w v) (hs : Stable call) :
    (step E w call).2 = (stepMiss E v call).2 ∧
      SameTables (step E w call).1 (stepMiss E v call).1 := by
  obtain ⟨hdb, htick⟩ := hsame
  cases call with
  | createThings token ths =>
      refine sim_of_plain ⟨trivial, fun r => ?_⟩ ⟨hdb, htick⟩
      cases r with
      | none => trivial
      | some o =>
          refine ((uses_assignThings o ths).bind fun r => ?_).bind fun _ => trivial
          cases r with
          | error e => trivial
          | ok l => exact ⟨trivial, fun _ => trivial⟩
  | createChannels token chs =>
      refine sim_of_plain ⟨trivial, fun r => ?_⟩ ⟨hdb, htick⟩
      cases r with
      | none => trivial
      | some o =>
          refine ((uses_assignChannels o chs).bind fun r => ?_).bind fun _ => trivial
          cases r with
          | error e => trivial
          | ok l => exact ⟨trivial, fun _ => trivial⟩
  | updateThing token th =>
      refine sim_of_plain ⟨trivial, fun r => ?_⟩ ⟨hdb, htick⟩
      cases r with
      | none => trivial
      | some o => exact ⟨trivial, fun _ => trivial⟩
  | updateChannel token ch =>
      refine sim_of_plain ⟨trivial, fun r => ?_⟩ ⟨hdb, htick⟩
      cases r with
      | none => trivial
      | some o => exact ⟨trivial, fun _ => trivial⟩
  | connect token chIDs thIDs =>
      refine sim_of_plain ⟨trivial, fun r => ?_⟩ ⟨hdb, htick⟩
      cases r with
      | none => trivial
      | some o => exact ⟨trivial, fun _ => trivial⟩
  | removeChannel token id =>
      -- the answer of the eviction is dropped on both sides
      cases hauth : E.auth v.tick token <;>
        simp [step, stepMiss, serve, Service.removeChannel, ChannelCache.remove, cmd, handle,
          handleMiss, hauth, hdb, htick, SameTables]
  | disconnect token c t =>
      cases hauth : E.auth v.tick token <;>
        simp [step, stepMiss, serve, Service.disconnect, ChannelCache.disconnect, cmd, handle,
          handleMiss, hauth, hdb, htick, SameTables]
  | canAccessByKey c key =>
      rw [stepMiss_canAccessByKey]
      by_cases hhit : ∃ t, cachedID w.redis key = some t ∧ cachedPair w.redis c t
      · obtain ⟨t, hid, hpair⟩ := hhit
        rw [step_canAccessByKey_hit hid hpair, ← hdb,
          grantByKey_eq_of_connected (h.ids key t hid) (h.pairs c t hpair)]
        exact ⟨rfl, hdb, htick⟩
      · rw [step_canAccessByKey_miss fun t hid hpair => hhit ⟨t, hid, hpair⟩, hdb]
        cases v.db.grantByKey c key with
        | some t => exact ⟨rfl, rfl, htick⟩
        | none => exact ⟨rfl, hdb, htick⟩
  | canAccessByID c t =>
      rw [stepMiss_canAccessByID]
      by_cases hhit : cachedPair w.redis c t
      · rw [step_canAccessByID_hit hhit, ← hdb, if_pos (h.pairs c t hhit)]
        exact ⟨rfl, hdb, htick⟩
      · rw [step_canAccessByID_miss hhit, hdb]
        by_cases hc : v.db.Connected c t
        · rw [if_pos hc, if_pos hc]
          exact ⟨rfl, rfl, htick⟩
        · rw [if_neg hc, if_neg hc]
          exact ⟨rfl, hdb, htick⟩
  | identify key =>
      rw [stepMiss_identify]
      cases hhit : cachedID w.redis key with
      | some t =>
          rw [step_identify_hit hhit, ← hdb, h.ids key t hhit]
          exact ⟨rfl, hdb, htick⟩
      | none =>
          rw [step_identify_miss hhit, hdb]
          cases selectThingID key v.db with
          | some t => exact ⟨rfl, rfl, htick⟩
          | none => exact ⟨rfl, hdb, htick⟩
  | updateKey => exact hs.elim
  | removeThing => exact hs.elim

/-- **Cache transparency**: from empty caches, a run of stable requests gets
from the cached service exactly the replies it gets from the service whose
caches always miss. -/
theorem cache_transparent (E : Env) (w : World) (hempty : w.redis = Redis.empty)
    (calls : List Call) (hs : ∀ call ∈ calls, Stable call) :
    replies (step E) w calls = replies (stepMiss E) w calls := by
  have h0 : Coherent w := by
    refine ⟨?_, ?_, ?_⟩
    · rw [hempty]; simp
    · intro c t hpair
      rw [hempty] at hpair
      exact absurd hpair (cachedPair_empty c t)
    · rw [hempty]; simp
  refine replies_eq (R := fun w v => Coherent w ∧ SameTables w v) ?_ ⟨h0, rfl, rfl⟩ hs
  rintro s v call ⟨hco, hsame⟩ hstable
  obtain ⟨hreply, htables⟩ := sim_step (E := E) hco hsame hstable
  exact ⟨hreply, coherent_step hco hstable, htables⟩

/-- The lamp connected, checked, disconnected and checked again. -/
theorem cache_transparent_lamp :
    replies (step openEnv) start (lampInRoom ++ [.canAccessByKey room "k1",
        .disconnect "alice" room lamp, .canAccessByID room lamp])
      = replies (stepMiss openEnv) start (lampInRoom ++ [.canAccessByKey room "k1",
        .disconnect "alice" room lamp, .canAccessByID room lamp]) := by
  refine cache_transparent openEnv start rfl _ ?_
  have hroom : Canonical room := ⟨_, rfl⟩
  have hlamp : Canonical lamp := ⟨_, rfl⟩
  simp [lampInRoom, Stable, hroom, hlamp]

end Steps

end Mainflux.Things
