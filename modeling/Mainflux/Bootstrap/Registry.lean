/-
  Mainflux.Bootstrap.Registry
  ───────────────────────────
  **THE FOUR TABLES, AND EVERYTHING THAT RUNS OVER THEM.**

  To the three tables of `Bootstrap.Repository` comes `unknown_configs`: the
  devices that asked for a config and had none. `Bootstrap` writes it, and `Save`
  deletes from it in its own transaction.

  A run takes three kinds of step:

    • a call of the API by some user, with what becomes of each call it makes;
    • an attempt of a device to bootstrap;
    • an event handler.

  §4 says once what a call can do to the tables (`call_cases`).
-/
import Mainflux.Bootstrap.Reconnect

namespace Mainflux.Bootstrap

open Mainflux.Lib

open Consistency

/-! ## §1. Unknown devices. -/

/-- A row of `unknown_configs`. -/
structure UnknownRow where
  externalID : String
  externalKey : String
  deriving DecidableEq

/-- The tables with the world around them, and the unknown devices. -/
structure Registry where
  world : World
  unknown : List UnknownRow

abbrev Registry.db (s : Registry) : DB := s.world.db

/-- Whether a statement or a transaction takes effect. -/
def effective : Option RepoFault → Bool
  | none => true
  | some .unanswered => true
  | some .refused => false
  | some .lost => false

/-- The fourth statement of `Save`, in the transaction of the other three. -/
def saveUnknownAfter (net : Net) (cfg : Config) (connections : List String) (s : Registry) :
    List UnknownRow :=
  match effective net.write, (ConfigRepository.save cfg connections s.db).2 with
  | true, .ok _ =>
      deleteWhere (fun u => u.externalID = cfg.externalID ∧ u.externalKey = cfg.externalKey) s.unknown
  | _, _ => s.unknown

/-- What the commands of the service do to all four tables. -/
def registryHandler (net : Net) : Handler Sig Registry := fun c s =>
  ({ world := (handler net c s.world).1
     unknown := match c with
       | .configsSave cfg connections => saveUnknownAfter net cfg connections s
       | _ => s.unknown }, (handler net c s.world).2)

/-! ## §2. `Bootstrap`. -/

/-- `configRepository.RetrieveByExternalID`. -/
def ConfigRepository.retrieveByExternalID (externalID : String) (d : DB) : Except Err Config :=
  match d.configs.find? fun r => r.externalID = externalID with
  | none => .error .notFound
  | some r =>
      .ok { mfThing := r.mfThing, owner := r.owner, name := r.name.getD "",
            clientCert := r.clientCert.getD "", clientKey := r.clientKey.getD "",
            caCert := r.caCert.getD "", mfKey := r.mfKey,
            mfChannels := ConfigRepository.channelsOf r.owner r.mfThing d, externalID := externalID,
            externalKey := r.externalKey, content := r.content.getD "", state := r.state }

/-- `configRepository.SaveUnknown`: `external_id` is unique, and a duplicate is no
error. -/
def ConfigRepository.saveUnknown (key id : String) (unknown : List UnknownRow) : List UnknownRow :=
  if ∃ u ∈ unknown, u.externalID = id then unknown else unknown ++ [⟨id, key⟩]

/-- What becomes of an attempt to bootstrap: the decryption of keys, whether the
config can be read, and the outcome of `SaveUnknown`. -/
structure Attempt where
  dec : String → Except Err String
  readable : Bool
  saveUnknown : Option RepoFault

/-- `Bootstrap`. -/
def bootstrap (attempt : Attempt) (externalKey externalID : String) (secure : Bool) (s : Registry) :
    Registry × Except Err Config :=
  if attempt.readable then
    match ConfigRepository.retrieveByExternalID externalID s.db with
    | .error .notFound =>
        ({ s with
            unknown :=
              if effective attempt.saveUnknown then
                ConfigRepository.saveUnknown externalKey externalID s.unknown
              else s.unknown }, .error .notFound)
    | .error e => (s, .error e)
    | .ok cfg =>
        match if secure then attempt.dec externalKey else .ok externalKey with
        | .error e => (s, .error e)
        | .ok key => if cfg.externalKey ≠ key then (s, .error .notFound) else (s, .ok cfg)
  else (s, .error .unavailable)

/-! ## §3. Runs. -/

/-- The event handlers; the cleanup of `RemoveThing` is a statement of its own, and
runs also when the deletion has failed. -/
def handleEvent (write cleanup : Option RepoFault) (ev : Decoded) (d : DB) : DB :=
  match ev with
  | .removeThing id =>
      let d := if effective write then deleteConfigs (fun cfg => cfg.mfThing = id) d else d
      if effective cleanup then Bootstrap.cleanup d else d
  | ev => if effective write then ev.apply d else d

/-- One step of a run. -/
inductive RegistryStep
  | call (net : Net) (req : Request)
  | bootstrap (attempt : Attempt) (externalKey externalID : String) (secure : Bool)
  | event (write cleanup : Option RepoFault) (ev : Decoded)

/-- The state after a step. -/
def registryStep (s : Registry) : RegistryStep → Registry
  | .call net req => ((serve req).run (registryHandler net) s).1
  | .bootstrap attempt externalKey externalID secure =>
      (bootstrap attempt externalKey externalID secure s).1
  | .event write cleanup ev =>
      { s with world := { s.world with db := handleEvent write cleanup ev s.db } }

/-- Empty tables, and whatever connections Things has. -/
def emptyRegistry (links : List (String × String)) : Registry := ⟨Consistency.start links, []⟩

/-- The token of a call. -/
def Consistency.Request.key : Request → String
  | .add key _ => key
  | .update key _ => key
  | .updateCert key _ _ _ _ => key
  | .updateConnections key _ _ => key
  | .changeState key _ _ => key
  | .remove key _ => key

/-! ## §4. What a call can do. -/

section Calls

variable {net : Net}

theorem effective_iff {fault : Option RepoFault} : effective fault = true ↔ Effective fault := by
  unfold Effective
  cases fault with
  | none => simp [effective]
  | some f => cases f <;> simp [effective]

/-- The unknown devices play no part in what a call does to the other tables, or
in what it returns. -/
theorem registry_run {α : Type} (p : Prog Sig α) (s : Registry) :
    (p.run (registryHandler net) s).1.world = (p.run (handler net) s.world).1 ∧
      (p.run (registryHandler net) s).2 = (p.run (handler net) s.world).2 := by
  have huses : p.Uses fun _ => True := by
    induction p with
    | ret a => trivial
    | call c k ih => exact ⟨trivial, ih⟩
  have hsim := Prog.run_sim (H := registryHandler net) (G := handler net)
    (R := fun s w => s.world = w) (fun c s w _ h => by
      subst h
      exact ⟨rfl, rfl⟩) huses (s := s) (t := s.world) rfl
  exact ⟨hsim.2, hsim.1⟩

/-- What a call of `owner` can write. -/
inductive Written (net : Net) (owner : String) : Request → DB → DB → Prop
  /-- Columns of one config that are not keys. -/
  | config {req : Request} {d : DB} (id : String) (f : ConfigRow → ConfigRow)
      (hf : ∀ r, (f r).mfThing = r.mfThing ∧ (f r).owner = r.owner ∧ (f r).mfKey = r.mfKey ∧
        (f r).externalID = r.externalID) :
      Written net owner req d
        { d with configs := updateWhere (fun r => r.mfThing = id ∧ r.owner = owner) f d.configs }
  /-- A new config, with the channels that are not in the tables yet. -/
  | saved {key : String} {cfg : Config} {d d' : DB} (new : Config) (connections : List String)
      (howner : new.owner = owner) (hid : new.externalID = cfg.externalID)
      (hchannels : newChannels net d owner connections = .ok new.mfChannels)
      (hsave : ConfigRepository.save new connections d = (d', .ok new.mfThing)) :
      Written net owner (.add key cfg) d d'
  /-- New connections of a config. -/
  | replaced {key id : String} {connections : List String} {d d' : DB} (channels : List Channel)
      (hchannels : newChannels net d owner connections = .ok channels)
      (hupdate : ConfigRepository.updateConnections owner id channels connections d = (d', .ok ())) :
      Written net owner (.updateConnections key id connections) d d'
  /-- A config less, and the channels that dangle. -/
  | removed {key id : String} {d : DB} (hdeleted : effective net.write)
      (hcleaned : net.write = none ∧ effective net.cleanup) :
      Written net owner (.remove key id) d (cleanup (ConfigRepository.remove owner id d))
  /-- A config less, and no cleanup. -/
  | left {key id : String} {d : DB} (hdeleted : effective net.write)
      (hskipped : ¬ (net.write = none ∧ effective net.cleanup)) :
      Written net owner (.remove key id) d (ConfigRepository.remove owner id d)
  /-- Nothing but the cleanup. -/
  | cleaned {key id : String} {d : DB} (hkept : ¬ effective net.write) :
      Written net owner (.remove key id) d (cleanup d)

theorem repoCall_db {α : Type} (fault : Option RepoFault) (w : World) (done : DB × Except Err α) :
    (repoCall fault w done).1.db = if effective fault then done.1 else w.db := by
  cases fault with
  | none => rfl
  | some f => cases f <;> rfl

/-- `Remove`: an unanswered deletion ends it, a lost one does not. -/
theorem remove_db (w : World) {key owner : String} (id : String)
    (hid : net.identify key = some owner) :
    (Consistency.step w (.call net (.remove key id))).db
      = match net.write with
        | none =>
            if effective net.cleanup then Bootstrap.cleanup (ConfigRepository.remove owner id w.db)
            else ConfigRepository.remove owner id w.db
        | some .unanswered => ConfigRepository.remove owner id w.db
        | some .refused => w.db
        | some .lost => if effective net.cleanup then Bootstrap.cleanup w.db else w.db := by
  simp only [Consistency.step, serve, Service.remove, cmd, Prog.run_bind, run_identify, hid,
    Prog.run_call, Prog.run_ret, handler]
  cases net.write with
  | none => exact repoCall_db _ _ _
  | some f =>
      cases f with
      | refused => rfl
      | unanswered => rfl
      | lost => exact repoCall_db _ _ _

theorem written_remove (w : World) {key owner : String} (id : String)
    (hid : net.identify key = some owner) :
    (Consistency.step w (.call net (.remove key id))).db = w.db ∨
      Written net owner (.remove key id) w.db
        (Consistency.step w (.call net (.remove key id))).db := by
  rw [remove_db w id hid]
  cases hw : net.write with
  | none =>
      right
      by_cases hc : effective net.cleanup
      · simp only [if_pos hc]
        exact .removed (by rw [hw]; rfl) ⟨hw, hc⟩
      · simp only [if_neg hc]
        exact .left (by rw [hw]; rfl) fun h => hc h.2
  | some f =>
      cases f with
      | refused => exact .inl rfl
      | unanswered =>
          exact .inr (.left (by rw [hw]; rfl) fun h => by rw [hw] at h; cases h.1)
      | lost =>
          by_cases hc : effective net.cleanup
          · simp only [if_pos hc]
            exact .inr (.cleaned (by rw [hw]; decide))
          · exact .inl (if_neg hc)

/-- A write of columns that are not keys. -/
theorem written_config (w : World) (req : Request) (owner id : String) (f : ConfigRow → ConfigRow)
    (hf : ∀ r, (f r).mfThing = r.mfThing ∧ (f r).owner = r.owner ∧ (f r).mfKey = r.mfKey ∧
      (f r).externalID = r.externalID) :
    (repoCall net.write w (ConfigRepository.updateConfig owner id f w.db)).1.db = w.db ∨
      Written net owner req w.db
        (repoCall net.write w (ConfigRepository.updateConfig owner id f w.db)).1.db := by
  rw [repoCall_db]
  split
  · exact .inr (.config id f hf)
  · exact .inl rfl

theorem switchThing_db (w : World) (key : String) (cfg : Config) (state : State) :
    ((Service.switchThing key cfg state).run (handler net) w).1.db = w.db := by
  cases state with
  | active =>
      rw [Service.switchThing, Prog.run_each]
      exact (joined_loop (connects_connectThing net key cfg.mfThing) _ w).db
  | inactive =>
      rw [Service.switchThing, Prog.run_each]
      obtain ⟨taken, hparted⟩ := parted_loop net key cfg.mfThing (Service.toIDList cfg.mfChannels) w
      exact hparted.db

theorem reconnect_db (w : World) (key id : String) (state : State) (add remove : List String) :
    ((Service.reconnect key id state add remove).run (handler net) w).1.db = w.db := by
  cases state with
  | inactive => rfl
  | active =>
      obtain ⟨taken, h⟩ := reconnected_reconnect net w key id add remove
      exact h.db

theorem written_changeState (w : World) (key id : String) (state : State) :
    (Consistency.step w (.call net (.changeState key id state))).db = w.db ∨
      ∃ owner, net.identify key = some owner ∧
        Written net owner (.changeState key id state) w.db
          (Consistency.step w (.call net (.changeState key id state))).db := by
  rcases run_changeState net w key id state with hsame | ⟨owner, cfg, hfinds, -, hstep⟩
  · exact .inl (by rw [hsame])
  · rw [hstep]
    have hdb : ((Service.switchThing key cfg state).run (handler net) w).1.db = w.db :=
      switchThing_db w key cfg state
    rcases thenWrite_cases net (ConfigRepository.changeState owner id state)
      ((Service.switchThing key cfg state).run (handler net) w) with ⟨-, -, hwrite⟩ | hwrite
    · refine .inr ⟨owner, hfinds.1, ?_⟩
      rw [hwrite, hdb]
      exact .config id _ fun r => ⟨rfl, rfl, rfl, rfl⟩
    · exact .inl (by rw [hwrite, hdb])

theorem written_updateConnections (w : World) (key id : String) (connections : List String) :
    (Consistency.step w (.call net (.updateConnections key id connections))).db = w.db ∨
      ∃ owner, net.identify key = some owner ∧
        Written net owner (.updateConnections key id connections) w.db
          (Consistency.step w (.call net (.updateConnections key id connections))).db := by
  rcases run_updateConnections net w key id connections with
    hsame | ⟨owner, cfg, channels, hfinds, hchannels, hstep⟩
  · exact .inl (by rw [hsame])
  · rw [hstep]
    generalize hx : (Service.reconnect key id cfg.state _ _).run (handler net) w = x
    have hdb : x.1.db = w.db := by
      rw [← hx]
      exact reconnect_db w key id cfg.state _ _
    rcases thenWrite_cases net (ConfigRepository.updateConnections owner id channels connections) x
      with ⟨-, -, hwrite⟩ | hwrite
    · rw [hwrite, hdb]
      rcases ConfigRepository.updateConnections_cases owner id channels connections w.db with
        ⟨e, heq⟩ | ⟨d', heq, -⟩
      · exact .inl (by rw [heq])
      · refine .inr ⟨owner, hfinds.1, ?_⟩
        rw [heq]
        exact .replaced channels hchannels heq
    · exact .inl (by rw [hwrite, hdb])

/-! ### `Add`. -/

/-- Commands that leave `unknown_configs` alone. -/
def NotSave (c : Cmd) : Prop := ∀ cfg connections, c ≠ .configsSave cfg connections

theorem registry_run_plain {α : Type} {p : Prog Sig α} (h : p.Uses NotSave) (s : Registry) :
    p.run (registryHandler net) s
      = (⟨(p.run (handler net) s.world).1, s.unknown⟩, (p.run (handler net) s.world).2) := by
  induction p generalizing s with
  | ret a => rfl
  | call c k ih =>
      have hstep : registryHandler net c s
          = (⟨(handler net c s.world).1, s.unknown⟩, (handler net c s.world).2) := by
        unfold registryHandler
        cases c with
        | configsSave cfg connections => exact absurd rfl (h.1 cfg connections)
        | _ => rfl
      rw [Prog.run_call, Prog.run_call, hstep]
      exact ih _ (h.2 _) _

theorem uses_identify (key : String) : (Service.identify key).Uses NotSave := by
  refine ⟨fun _ _ => by simp, fun r => ?_⟩
  cases r with
  | none => trivial
  | some owner => trivial

theorem uses_fetchChannels (key : String) (ids : List String) :
    (Service.fetchChannels key ids).Uses NotSave := by
  induction ids with
  | nil => trivial
  | cons id ids ih =>
      refine ⟨fun _ _ => by simp, fun r => ?_⟩
      cases r with
      | error e => trivial
      | ok ch =>
          have hrest : (do return (← Service.fetchChannels key ids).map (ch :: ·)).Uses NotSave :=
            Prog.Uses.bind ih fun _ => trivial
          exact hrest

theorem uses_connectionChannels (channels existing : List String) (key : String) :
    (Service.connectionChannels channels existing key).Uses NotSave :=
  ⟨fun _ _ => by simp, fun ids => uses_fetchChannels key ids⟩

theorem uses_fetchThing (key id thingID : String) :
    (Service.fetchThing key id thingID).Uses NotSave := by
  refine ⟨fun _ _ => by simp, fun r => ?_⟩
  cases r with
  | ok th => trivial
  | error e =>
      by_cases hid : id = ""
      · cases e <;> simp only [hid] <;> trivial
      · cases e <;> simp only [hid, if_false] <;>
          first
          | trivial
          | exact ⟨fun _ _ => by simp, fun _ => trivial⟩

theorem uses_thing (key id : String) : (Service.thing key id).Uses NotSave := by
  unfold Service.thing
  by_cases hid : id = ""
  · rw [if_pos hid]
    refine ⟨fun _ _ => by simp, fun r => ?_⟩
    cases r with
    | error e => trivial
    | ok thingID => exact uses_fetchThing _ _ _
  · rw [if_neg hid]
    exact uses_fetchThing _ _ _

/-- The config that `Add` stores. -/
def newConfig (cfg : Config) (owner : String) (th : SdkThing) (channels : List Channel) : Config :=
  { cfg with mfThing := th.id, owner := owner, state := .inactive, mfKey := th.key,
             mfChannels := channels }

/-- **`Add` gets as far as `Save`, or changes no table and fails.** -/
theorem add_cases (s : Registry) (key : String) (cfg : Config) :
    let r := (serve (.add key cfg)).run (registryHandler net) s
    let connections := Service.toIDList cfg.mfChannels
    (r.1.db = s.db ∧ r.1.unknown = s.unknown ∧ r.2 ≠ .ok ()) ∨
      ∃ owner th channels, net.identify key = some owner ∧
        newChannels net s.db owner connections = .ok channels ∧
        r.1.db = (repoCall net.write s.world
          (ConfigRepository.save (newConfig cfg owner th channels) connections s.db)).1.db ∧
        r.1.unknown = saveUnknownAfter net (newConfig cfg owner th channels) connections s ∧
        (r.2 = .ok () → (repoCall net.write s.world
          (ConfigRepository.save (newConfig cfg owner th channels) connections s.db)).2.isOk) := by
  simp only [serve, Service.add, cmd, Prog.run_bind, registry_run_plain (uses_identify key),
    run_identify, Prog.run_pure]
  cases hid : net.identify key with
  | none => exact .inl ⟨rfl, rfl, by simp [Except.map]⟩
  | some owner =>
      simp only [Prog.run_bind, Prog.run_call, Prog.run_ret, registryHandler, handler]
      cases hlist : net.listExisting with
      | some e => exact .inl ⟨rfl, rfl, by simp [repoRead, Except.map]⟩
      | none =>
          simp only [repoRead, Prog.run_bind, registry_run_plain (uses_connectionChannels _ _ key),
            run_connectionChannels]
          cases hfetch : fetched net (net.order (Service.missing (Service.toIDList cfg.mfChannels)
              (Service.toIDList (ConfigRepository.listExisting owner
                (Service.toIDList cfg.mfChannels) s.db)))) with
          | error e => exact .inl ⟨rfl, rfl, by simp [Except.map]⟩
          | ok channels =>
              simp only [Prog.run_bind, registry_run_plain (uses_thing key cfg.mfThing)]
              rcases run_thing net s.world key cfg with ⟨id, th, -, -, hrun⟩ | ⟨e, w1, hrun, hw1⟩
              · have hnew : newChannels net s.db owner (Service.toIDList cfg.mfChannels)
                    = .ok channels := by simp only [newChannels, hlist, hfetch]
                refine .inr ⟨owner, th, channels, rfl, hnew, ?_⟩
                simp only [hrun, Prog.run_bind, Prog.run_call, Prog.run_ret, registryHandler, handler]
                have hdelete : ∀ (w : World) (t : String),
                    (sdkCall net.deleteThing w (w.deleteThing t, .ok ())).1.db = w.db := by
                  intro w t
                  rcases sdkCall_delete net.deleteThing w t with h | h
                  · rw [h]
                  · rw [h]
                    rfl
                -- after `Save` comes at most the deletion of the thing that was made for it
                rcases hsave : (repoCall net.write s.world (ConfigRepository.save
                    (newConfig cfg owner th channels) (Service.toIDList cfg.mfChannels) s.db)) with
                  ⟨w1, e | saved⟩
                · rw [newConfig] at hsave
                  simp only [hsave]
                  by_cases hid : cfg.mfThing = ""
                  · simp only [hid, if_true, Prog.run_bind, Prog.run_call, Prog.run_ret,
                      Prog.run_pure, registryHandler, handler]
                    exact ⟨hdelete _ _, rfl, by simp [Except.map]⟩
                  · simp only [hid, if_false, Prog.run_pure]
                    exact ⟨trivial, rfl, by simp [Except.map]⟩
                · rw [newConfig] at hsave
                  simp only [hsave, Prog.run_pure]
                  exact ⟨trivial, rfl, fun _ => rfl⟩
              · simp only [hrun, Prog.run_pure]
                refine .inl ⟨?_, trivial, by simp [Except.map]⟩
                rcases hw1 with rfl | ⟨t, rfl⟩
                · rfl
                · rfl

/-- What `Save` has written: a config with an external id that was free. -/
theorem save_rows {new : Config} {connections : List String} {d d' : DB}
    (h : ConfigRepository.save new connections d = (d', .ok new.mfThing)) :
    (∀ r ∈ d.configs, r.externalID ≠ new.externalID) ∧
      d' = ⟨d.configs ++ [toDBConfig new],
        d.channels ++ new.mfChannels.map (toDBChannel new.owner),
        d.connections ++ connectionRows new.owner new.mfThing connections⟩ := by
  unfold ConfigRepository.save at h
  split at h
  next => cases h
  next => cases h
  next d1 h1 =>
      split at h
      next => cases h
      next => cases h
      next d2 h2 =>
          split at h
          next => cases h
          next d3 h3 =>
              obtain ⟨hfree, rfl⟩ := insertConfig_ok h1
              obtain ⟨-, -, rfl⟩ := insertChannels_ok h2
              obtain ⟨-, -, -, -, rfl⟩ := insertConnections_ok h3
              exact ⟨fun r hr => (hfree r hr).2.2, (congrArg Prod.fst h).symm⟩

/-! ### All calls. -/

theorem registryStep_call (s : Registry) (req : Request) :
    (registryStep s (.call net req)).world = Consistency.step s.world (.call net req) :=
  (registry_run (serve req) s).1

/-- **What a call can do to the tables**: nothing, or one write of its user. -/
theorem call_cases (s : Registry) (net : Net) (req : Request) :
    (registryStep s (.call net req)).db = s.db ∨
      ∃ owner, net.identify req.key = some owner ∧
        Written net owner req s.db (registryStep s (.call net req)).db := by
  cases req with
  | add key cfg =>
      rcases @add_cases net s key cfg with ⟨hdb, -⟩ | ⟨owner, th, channels, hid, hnew, hdb, -⟩
      · exact .inl hdb
      · rw [repoCall_db] at hdb
        rcases ConfigRepository.save_cases (newConfig cfg owner th channels)
          (Service.toIDList cfg.mfChannels) s.db with ⟨e, hsave⟩ | ⟨d', hsave, -⟩
        · rw [hsave, ite_self] at hdb
          exact .inl hdb
        · by_cases hw : effective net.write
          · rw [if_pos hw] at hdb
            refine .inr ⟨owner, hid, ?_⟩
            rw [show (registryStep s (.call net (.add key cfg))).db = d' from
              hdb.trans (congrArg Prod.fst hsave)]
            exact .saved (newConfig cfg owner th channels) (Service.toIDList cfg.mfChannels) rfl rfl hnew
              hsave
          · rw [if_neg hw] at hdb
            exact .inl hdb
  | update key cfg =>
      rw [Registry.db, registryStep_call]
      simp only [Consistency.step, serve, Service.update, cmd, Prog.run_bind, run_identify]
      cases hid : net.identify key with
      | none => exact .inl rfl
      | some owner =>
          refine (written_config s.world (.update key cfg) owner cfg.mfThing _ ?_).imp id
            fun h => ⟨owner, hid, h⟩
          exact fun r => ⟨rfl, rfl, rfl, rfl⟩
  | updateCert key thingID clientCert clientKey caCert =>
      rw [Registry.db, registryStep_call]
      simp only [Consistency.step, serve, Service.updateCert, cmd, Prog.run_bind, run_identify]
      cases hid : net.identify key with
      | none => exact .inl rfl
      | some owner =>
          refine (written_config s.world (.updateCert key thingID clientCert clientKey caCert)
            owner thingID _ ?_).imp id fun h => ⟨owner, hid, h⟩
          exact fun r => ⟨rfl, rfl, rfl, rfl⟩
  | updateConnections key id connections =>
      rw [Registry.db, registryStep_call]
      exact written_updateConnections s.world key id connections
  | changeState key id state =>
      rw [Registry.db, registryStep_call]
      exact written_changeState s.world key id state
  | remove key id =>
      rw [Registry.db, registryStep_call]
      cases hid : net.identify key with
      | none =>
          left
          simp only [Consistency.step, serve, Service.remove, Prog.run_bind, run_identify, hid,
            Prog.run_pure]
      | some owner => exact (written_remove s.world id hid).imp (fun h => h) fun h => ⟨owner, hid, h⟩

end Calls

end Mainflux.Bootstrap
