/-
  Mainflux.Things.Service
  ───────────────────────
  **THE THINGS SERVICE AS COMMAND PROGRAMS.**

  Every method of `thingsService` is written as a program over the atomic
  commands it issues: a call to the authn service, an id from the identity
  provider, one Redis command, one repository method (one statement or one
  transaction).  The program text is the Go body, error paths included; what
  the commands DO is the business of a handler:

    • `handle` — the tables and the Redis keyspace;
    • `handleMiss` — the same tables behind caches that always miss.

  Running a program alone gives the sequential service (`step`); the same
  programs interleaved command by command are the concurrent one.  §5 says
  once, method by method, what a sequential call does.
-/
import Mainflux.Lib.Prog
import Mainflux.Things.Cache
import Mainflux.Things.Repository

namespace Mainflux.Things

open Mainflux.Lib

/-! ## §1. Commands. -/

/-- The atomic commands of the service. -/
inductive Cmd
  | authIdentify (token : String)
  | idpID
  | get (key : String)
  | set (key value : String)
  | del (keys : List String)
  | sAdd (key m : String)
  | sRem (key m : String)
  | sIsMember (key m : String)
  | thingsSave (ths : List Thing)
  | thingsUpdate (th : Thing)
  | thingsUpdateKey (owner id key : String)
  | thingsRetrieveByKey (key : String)
  | thingsRemove (owner id : String)
  | channelsSave (chs : List Channel)
  | channelsUpdate (ch : Channel)
  | channelsRemove (owner id : String)
  | channelsConnect (owner : String) (chIDs thIDs : List String)
  | channelsDisconnect (owner chanID thingID : String)
  | channelsThingID (key : String)
  | channelsHasThing (chanID thingID : String)

/-- What each command answers. -/
@[reducible] def Cmd.Res : Cmd → Type
  | .authIdentify _ => Option String
  | .idpID => Except Err String
  | .get _ => Except Redis.Error String
  | .set _ _ => Except Redis.Error Unit
  | .del _ => Except Redis.Error Unit
  | .sAdd _ _ => Except Redis.Error Unit
  | .sRem _ _ => Except Redis.Error Unit
  | .sIsMember _ _ => Except Redis.Error Bool
  | .thingsSave _ => Except Err (List Thing)
  | .thingsUpdate _ => Except Err Unit
  | .thingsUpdateKey _ _ _ => Except Err Unit
  | .thingsRetrieveByKey _ => Except Err String
  | .thingsRemove _ _ => Except Err Unit
  | .channelsSave _ => Except Err (List Channel)
  | .channelsUpdate _ => Except Err Unit
  | .channelsRemove _ _ => Except Err Unit
  | .channelsConnect _ _ _ => Except Err Unit
  | .channelsDisconnect _ _ _ => Except Err Unit
  | .channelsThingID _ => Except Err String
  | .channelsHasThing _ _ => Except Err Unit

abbrev Sig : Signature := ⟨Cmd, Cmd.Res⟩

/-- Issue one command and return its answer. -/
def cmd (c : Cmd) : Prog Sig c.Res := .call (S := Sig) c .ret

/-! ## §2. The cache clients and `channelRepository.HasThing`. -/

namespace ThingCache

/-- `thingCache.Save`. -/
def save (thingKey thingID : String) : Prog Sig (Except Redis.Error Unit) := do
  match ← cmd (.set (tkey thingKey) thingID) with
  | .error e => return .error e
  | .ok () => cmd (.set (tid thingID) thingKey)

/-- `thingCache.ID`. -/
def id (thingKey : String) : Prog Sig (Except Redis.Error String) := cmd (.get (tkey thingKey))

/-- `thingCache.Remove`. -/
def remove (thingID : String) : Prog Sig (Except Redis.Error Unit) := do
  match ← cmd (.get (tid thingID)) with
  | .error e => return .error e
  | .ok key => cmd (.del [tkey key, tid thingID])

end ThingCache

namespace ChannelCache

/-- `channelCache.Connect`. -/
def connect (chanID thingID : String) : Prog Sig (Except Redis.Error Unit) :=
  cmd (.sAdd (cid chanID) thingID)

/-- `channelCache.HasThing`: `.Val()` of a failed command is false. -/
def hasThing (chanID thingID : String) : Prog Sig Bool := do
  match ← cmd (.sIsMember (cid chanID) thingID) with
  | .ok b => return b
  | .error _ => return false

/-- `channelCache.Disconnect`. -/
def disconnect (chanID thingID : String) : Prog Sig (Except Redis.Error Unit) :=
  cmd (.sRem (cid chanID) thingID)

/-- `channelCache.Remove`. -/
def remove (chanID : String) : Prog Sig (Except Redis.Error Unit) := cmd (.del [cid chanID])

end ChannelCache

/-- `channelRepository.HasThing`: two queries, outside a transaction. -/
def channelsHasThingByKey (chanID key : String) : Prog Sig (Except Err String) := do
  match ← cmd (.channelsThingID key) with
  | .error e => return .error e
  | .ok thingID =>
      match ← cmd (.channelsHasThing chanID thingID) with
      | .error e => return .error e
      | .ok () => return .ok thingID

/-! ## §3. The service methods. -/

namespace Service

/-- The loop of `CreateThings`: an id, the owner and, where it is empty, a key
for each thing. -/
def assignThings (owner : String) : List Thing → Prog Sig (Except Err (List Thing))
  | [] => return .ok []
  | th :: ths => do
      match ← cmd .idpID with
      | .error e => return .error e
      | .ok id =>
          let th := { th with id := id, owner := owner }
          if th.key = "" then
            match ← cmd .idpID with
            | .error e => return .error e
            | .ok key => return (← assignThings owner ths).map ({ th with key := key } :: ·)
          else
            return (← assignThings owner ths).map (th :: ·)

/-- `CreateThings`. -/
def createThings (token : String) (things : List Thing) : Prog Sig (Except Err (List Thing)) := do
  match ← cmd (.authIdentify token) with
  | none => return .error .unauthorizedAccess
  | some owner =>
      match ← assignThings owner things with
      | .error e => return .error e
      | .ok things => cmd (.thingsSave things)

/-- `UpdateThing`. -/
def updateThing (token : String) (thing : Thing) : Prog Sig (Except Err Unit) := do
  match ← cmd (.authIdentify token) with
  | none => return .error .unauthorizedAccess
  | some owner => cmd (.thingsUpdate { thing with owner := owner })

/-- `UpdateKey`. -/
def updateKey (token id key : String) : Prog Sig (Except Err Unit) := do
  match ← cmd (.authIdentify token) with
  | none => return .error .unauthorizedAccess
  | some owner => cmd (.thingsUpdateKey owner id key)

/-- `RemoveThing`: the outcome of the eviction is dropped. -/
def removeThing (token id : String) : Prog Sig (Except Err Unit) := do
  match ← cmd (.authIdentify token) with
  | none => return .error .unauthorizedAccess
  | some owner =>
      let _ ← ThingCache.remove id
      cmd (.thingsRemove owner id)

/-- The loop of `CreateChannels`. -/
def assignChannels (owner : String) : List Channel → Prog Sig (Except Err (List Channel))
  | [] => return .ok []
  | ch :: chs => do
      match ← cmd .idpID with
      | .error e => return .error e
      | .ok id =>
          return (← assignChannels owner chs).map ({ ch with id := id, owner := owner } :: ·)

/-- `CreateChannels`. -/
def createChannels (token : String) (channels : List Channel) :
    Prog Sig (Except Err (List Channel)) := do
  match ← cmd (.authIdentify token) with
  | none => return .error .unauthorizedAccess
  | some owner =>
      match ← assignChannels owner channels with
      | .error e => return .error e
      | .ok channels => cmd (.channelsSave channels)

/-- `UpdateChannel`. -/
def updateChannel (token : String) (channel : Channel) : Prog Sig (Except Err Unit) := do
  match ← cmd (.authIdentify token) with
  | none => return .error .unauthorizedAccess
  | some owner => cmd (.channelsUpdate { channel with owner := owner })

/-- `RemoveChannel`. -/
def removeChannel (token id : String) : Prog Sig (Except Err Unit) := do
  match ← cmd (.authIdentify token) with
  | none => return .error .unauthorizedAccess
  | some owner =>
      let _ ← ChannelCache.remove id
      cmd (.channelsRemove owner id)

/-- `Connect`. -/
def connect (token : String) (chIDs thIDs : List String) : Prog Sig (Except Err Unit) := do
  match ← cmd (.authIdentify token) with
  | none => return .error .unauthorizedAccess
  | some owner => cmd (.channelsConnect owner chIDs thIDs)

/-- `Disconnect`. -/
def disconnect (token chanID thingID : String) : Prog Sig (Except Err Unit) := do
  match ← cmd (.authIdentify token) with
  | none => return .error .unauthorizedAccess
  | some owner =>
      let _ ← ChannelCache.disconnect chanID thingID
      cmd (.channelsDisconnect owner chanID thingID)

/-- `hasThing`: the cached answer to `CanAccessByKey`. -/
def hasThing (chanID key : String) : Prog Sig (Except Err String) := do
  match ← ThingCache.id key with
  | .error e => return .error (.redis e)
  | .ok thingID =>
      if ← ChannelCache.hasThing chanID thingID then return .ok thingID
      else return .error .unauthorizedAccess

/-- `CanAccessByKey`. -/
def canAccessByKey (chanID key : String) : Prog Sig (Except Err String) := do
  match ← hasThing chanID key with
  | .ok thingID => return .ok thingID
  | .error _ =>
      match ← channelsHasThingByKey chanID key with
      | .error _ => return .error .unauthorizedAccess
      | .ok thingID =>
          let _ ← ThingCache.save key thingID
          let _ ← ChannelCache.connect chanID thingID
          return .ok thingID

/-- `CanAccessByID`. -/
def canAccessByID (chanID thingID : String) : Prog Sig (Except Err Unit) := do
  if ← ChannelCache.hasThing chanID thingID then return .ok ()
  else
    match ← cmd (.channelsHasThing chanID thingID) with
    | .error _ => return .error .unauthorizedAccess
    | .ok () =>
        let _ ← ChannelCache.connect chanID thingID
        return .ok ()

/-- `Identify`. -/
def identify (key : String) : Prog Sig (Except Err String) := do
  match ← ThingCache.id key with
  | .ok id => return .ok id
  | .error _ =>
      match ← cmd (.thingsRetrieveByKey key) with
      | .error _ => return .error .unauthorizedAccess
      | .ok id =>
          let _ ← ThingCache.save key id
          return .ok id

end Service

/-! ## §4. The world the commands act on. -/

/-- The two services outside: the user each token identifies and the ids the
identity provider gives out, both depending on the moment they are asked. -/
structure Env where
  auth : Nat → String → Option String
  idp : Nat → Option UUID

/-- The tables, the keyspace, and the number of calls made to the services
outside. -/
structure World where
  db : DB
  redis : Redis
  tick : Nat

/-- The error of `uuid.NewV4` or the canonical text of the new id. -/
def Env.newID (E : Env) (n : Nat) : Except Err String :=
  match E.idp n with
  | some u => .ok (uuidOut u)
  | none => .error .idp

/-- The commands, behind caches that ALWAYS MISS: nothing is ever stored. -/
def handleMiss (E : Env) : Handler Sig World
  | .authIdentify token, w => ({ w with tick := w.tick + 1 }, E.auth w.tick token)
  | .idpID, w => ({ w with tick := w.tick + 1 }, E.newID w.tick)
  | .get _, w => (w, .error .nil)
  | .set _ _, w => (w, .ok ())
  | .del _, w => (w, .ok ())
  | .sAdd _ _, w => (w, .ok ())
  | .sRem _ _, w => (w, .ok ())
  | .sIsMember _ _, w => (w, .ok false)
  | .thingsSave ths, w =>
      ({ w with db := (ThingRepository.save ths w.db).1 }, (ThingRepository.save ths w.db).2)
  | .thingsUpdate th, w =>
      ({ w with db := (ThingRepository.update th w.db).1 }, (ThingRepository.update th w.db).2)
  | .thingsUpdateKey owner id key, w =>
      ({ w with db := (ThingRepository.updateKey owner id key w.db).1 },
        (ThingRepository.updateKey owner id key w.db).2)
  | .thingsRetrieveByKey key, w => (w, ThingRepository.retrieveByKey key w.db)
  | .thingsRemove owner id, w =>
      ({ w with db := (ThingRepository.remove owner id w.db).1 },
        (ThingRepository.remove owner id w.db).2)
  | .channelsSave chs, w =>
      ({ w with db := (ChannelRepository.save chs w.db).1 }, (ChannelRepository.save chs w.db).2)
  | .channelsUpdate ch, w =>
      ({ w with db := (ChannelRepository.update ch w.db).1 },
        (ChannelRepository.update ch w.db).2)
  | .channelsRemove owner id, w =>
      ({ w with db := (ChannelRepository.remove owner id w.db).1 },
        (ChannelRepository.remove owner id w.db).2)
  | .channelsConnect owner chIDs thIDs, w =>
      ({ w with db := (ChannelRepository.connect owner chIDs thIDs w.db).1 },
        (ChannelRepository.connect owner chIDs thIDs w.db).2)
  | .channelsDisconnect owner chanID thingID, w =>
      ({ w with db := (ChannelRepository.disconnect owner chanID thingID w.db).1 },
        (ChannelRepository.disconnect owner chanID thingID w.db).2)
  | .channelsThingID key, w => (w, ChannelRepository.thingID key w.db)
  | .channelsHasThing chanID thingID, w => (w, ChannelRepository.hasThing chanID thingID w.db)

/-- The commands, with the caches in Redis. -/
def handle (E : Env) : Handler Sig World
  | .get key, w => (w, w.redis.get key)
  | .set key value, w => ({ w with redis := w.redis.set key value }, .ok ())
  | .del keys, w => ({ w with redis := w.redis.del keys }, .ok ())
  | .sAdd key m, w => ({ w with redis := (w.redis.sAdd key m).1 }, (w.redis.sAdd key m).2)
  | .sRem key m, w => ({ w with redis := (w.redis.sRem key m).1 }, (w.redis.sRem key m).2)
  | .sIsMember key m, w => (w, w.redis.sIsMember key m)
  | c, w => handleMiss E c w

theorem handle_authIdentify (E : Env) (token : String) (w : World) :
    handle E (.authIdentify token) w = ({ w with tick := w.tick + 1 }, E.auth w.tick token) := by
  simp only [handle, handleMiss]

/-- The requests of the service. -/
inductive Call
  | createThings (token : String) (things : List Thing)
  | updateThing (token : String) (thing : Thing)
  | updateKey (token id key : String)
  | removeThing (token id : String)
  | createChannels (token : String) (channels : List Channel)
  | updateChannel (token : String) (channel : Channel)
  | removeChannel (token id : String)
  | connect (token : String) (chIDs thIDs : List String)
  | disconnect (token chanID thingID : String)
  | canAccessByKey (chanID key : String)
  | canAccessByID (chanID thingID : String)
  | identify (key : String)
  deriving DecidableEq

/-- The token a request is authenticated with; access checks carry none. -/
def Call.token : Call → Option String
  | .createThings token _ => some token
  | .updateThing token _ => some token
  | .updateKey token _ _ => some token
  | .removeThing token _ => some token
  | .createChannels token _ => some token
  | .updateChannel token _ => some token
  | .removeChannel token _ => some token
  | .connect token _ _ => some token
  | .disconnect token _ _ => some token
  | .canAccessByKey _ _ => none
  | .canAccessByID _ _ => none
  | .identify _ => none

/-- What a request returns. -/
inductive Reply
  | things (r : Except Err (List Thing))
  | channels (r : Except Err (List Channel))
  | done (r : Except Err Unit)
  | id (r : Except Err String)
  deriving DecidableEq

/-- The method that serves a request. -/
def serve : Call → Prog Sig Reply
  | .createThings token things => do return .things (← Service.createThings token things)
  | .updateThing token thing => do return .done (← Service.updateThing token thing)
  | .updateKey token id key => do return .done (← Service.updateKey token id key)
  | .removeThing token id => do return .done (← Service.removeThing token id)
  | .createChannels token channels => do
      return .channels (← Service.createChannels token channels)
  | .updateChannel token channel => do return .done (← Service.updateChannel token channel)
  | .removeChannel token id => do return .done (← Service.removeChannel token id)
  | .connect token chIDs thIDs => do return .done (← Service.connect token chIDs thIDs)
  | .disconnect token chanID thingID => do
      return .done (← Service.disconnect token chanID thingID)
  | .canAccessByKey chanID key => do return .id (← Service.canAccessByKey chanID key)
  | .canAccessByID chanID thingID => do return .done (← Service.canAccessByID chanID thingID)
  | .identify key => do return .id (← Service.identify key)

/-- One request, served alone. -/
def step (E : Env) (w : World) (call : Call) : World × Reply := (serve call).run (handle E) w

/-- One request, served alone behind caches that always miss. -/
def stepMiss (E : Env) (w : World) (call : Call) : World × Reply :=
  (serve call).run (handleMiss E) w

/-! ## §5. What a call does. -/

section Steps

variable {E : Env} {w : World}

/-- A request whose token identifies nobody changes nothing. -/
theorem step_unauthorized {call : Call} {token : String} (ht : call.token = some token)
    (hauth : E.auth w.tick token = none) :
    (step E w call).1 = { w with tick := w.tick + 1 } := by
  cases call <;> cases ht <;>
    simp [step, serve, cmd, handle_authIdentify, hauth, Service.createThings,
      Service.updateThing, Service.updateKey, Service.removeThing, Service.createChannels,
      Service.updateChannel, Service.removeChannel, Service.connect, Service.disconnect]

variable {token o : String} (hauth : E.auth w.tick token = some o)
include hauth

theorem step_updateThing (th : Thing) :
    step E w (.updateThing token th)
      = ({ w with db := (ThingRepository.update { th with owner := o } w.db).1,
                  tick := w.tick + 1 },
          .done (ThingRepository.update { th with owner := o } w.db).2) := by
  simp [step, serve, Service.updateThing, cmd, handle, handleMiss, hauth]

theorem step_updateKey (id key : String) :
    step E w (.updateKey token id key)
      = ({ w with db := (ThingRepository.updateKey o id key w.db).1, tick := w.tick + 1 },
          .done (ThingRepository.updateKey o id key w.db).2) := by
  simp [step, serve, Service.updateKey, cmd, handle, handleMiss, hauth]

theorem step_updateChannel (ch : Channel) :
    step E w (.updateChannel token ch)
      = ({ w with db := (ChannelRepository.update { ch with owner := o } w.db).1,
                  tick := w.tick + 1 },
          .done (ChannelRepository.update { ch with owner := o } w.db).2) := by
  simp [step, serve, Service.updateChannel, cmd, handle, handleMiss, hauth]

theorem step_connect (chIDs thIDs : List String) :
    step E w (.connect token chIDs thIDs)
      = ({ w with db := (ChannelRepository.connect o chIDs thIDs w.db).1, tick := w.tick + 1 },
          .done (ChannelRepository.connect o chIDs thIDs w.db).2) := by
  simp [step, serve, Service.connect, cmd, handle, handleMiss, hauth]

theorem step_disconnect (c t : String) :
    step E w (.disconnect token c t)
      = ({ db := (ChannelRepository.disconnect o c t w.db).1,
           redis := evictPair w.redis c t, tick := w.tick + 1 },
          .done (ChannelRepository.disconnect o c t w.db).2) := by
  simp [step, serve, Service.disconnect, ChannelCache.disconnect, cmd, handle, handleMiss,
    hauth, evictPair]

theorem step_removeChannel (c : String) :
    step E w (.removeChannel token c)
      = ({ db := (ChannelRepository.remove o c w.db).1,
           redis := evictChannel w.redis c, tick := w.tick + 1 },
          .done (ChannelRepository.remove o c w.db).2) := by
  simp [step, serve, Service.removeChannel, ChannelCache.remove, cmd, handle, handleMiss,
    hauth, evictChannel]

omit hauth in
theorem run_thingCache_remove (id : String) :
    ((ThingCache.remove id).run (handle E) w).1
      = { w with redis := evictThing w.redis id } := by
  simp only [ThingCache.remove, cmd, Prog.run_bind, Prog.run_call, Prog.run_ret, handle,
    evictThing]
  cases hkey : cachedKey w.redis id with
  | some key => rw [Redis.get_eq_ok.mpr hkey]; rfl
  | none =>
      cases hg : w.redis.get (tid id) with
      | error e => rfl
      | ok key =>
          rw [cachedKey, Redis.get_eq_ok.mp hg] at hkey
          cases hkey

theorem step_removeThing (id : String) :
    step E w (.removeThing token id)
      = ({ db := (ThingRepository.remove o id w.db).1,
           redis := evictThing w.redis id, tick := w.tick + 1 },
          .done (ThingRepository.remove o id w.db).2) := by
  simp [step, serve, Service.removeThing, cmd, handle, handleMiss, hauth,
    run_thingCache_remove]

omit hauth

/-! ### Access checks: a hit changes nothing, a miss asks the tables. -/

theorem run_channelCache_hasThing (c t : String) :
    (ChannelCache.hasThing c t).run (handle E) w = (w, decide (cachedPair w.redis c t)) := by
  simp only [ChannelCache.hasThing, cmd, Prog.run_bind, Prog.run_call, Prog.run_ret, handle]
  by_cases h : cachedPair w.redis c t
  · rw [Redis.sIsMember_eq_true.mpr h]
    simp [h]
  · cases hs : w.redis.sIsMember (cid c) t with
    | error e => simp [h]
    | ok b =>
        cases b with
        | true => exact absurd (Redis.sIsMember_eq_true.mp hs) h
        | false => simp [h]

theorem run_thingCache_id (key : String) :
    (ThingCache.id key).run (handle E) w = (w, w.redis.get (tkey key)) := rfl

theorem step_canAccessByID_hit {c t : String} (h : cachedPair w.redis c t) :
    step E w (.canAccessByID c t) = (w, .done (.ok ())) := by
  simp [step, serve, Service.canAccessByID, run_channelCache_hasThing, h]

theorem step_canAccessByID_miss {c t : String} (h : ¬ cachedPair w.redis c t) :
    step E w (.canAccessByID c t)
      = if w.db.Connected c t then
          ({ w with redis := cachePair w.redis c t }, .done (.ok ()))
        else (w, .done (.error .unauthorizedAccess)) := by
  simp only [step, serve, Service.canAccessByID, Prog.run_bind, run_channelCache_hasThing, h,
    decide_false, Bool.false_eq_true, if_false, cmd, Prog.run_call, Prog.run_ret, handle,
    handleMiss]
  by_cases hc : w.db.Connected c t
  · rw [hasThing_eq_ok.mpr hc, if_pos hc]
    rfl
  · rw [if_neg hc]
    cases hh : ChannelRepository.hasThing c t w.db with
    | error e => rfl
    | ok u => exact absurd (hasThing_eq_ok.mp hh) hc

theorem step_identify_hit {key t : String} (h : cachedID w.redis key = some t) :
    step E w (.identify key) = (w, .id (.ok t)) := by
  simp [step, serve, Service.identify, run_thingCache_id, Redis.get_eq_ok.mpr h]

theorem step_identify_miss {key : String} (h : cachedID w.redis key = none) :
    step E w (.identify key)
      = match selectThingID key w.db with
        | some t => ({ w with redis := cacheThing w.redis key t }, .id (.ok t))
        | none => (w, .id (.error .unauthorizedAccess)) := by
  simp only [step, serve, Service.identify, Prog.run_bind, run_thingCache_id]
  cases hg : w.redis.get (tkey key) with
  | ok t =>
      rw [cachedID, Redis.get_eq_ok.mp hg] at h
      cases h
  | error e =>
      simp only [cmd, Prog.run_bind, Prog.run_call, Prog.run_ret, handle, handleMiss,
        ThingRepository.retrieveByKey]
      cases selectThingID key w.db <;> rfl

theorem step_canAccessByKey_hit {c key t : String} (hid : cachedID w.redis key = some t)
    (hpair : cachedPair w.redis c t) : step E w (.canAccessByKey c key) = (w, .id (.ok t)) := by
  simp [step, serve, Service.canAccessByKey, Service.hasThing, run_thingCache_id,
    Redis.get_eq_ok.mpr hid, run_channelCache_hasThing, hpair]

/-- The cached half of `CanAccessByKey` fails without a trace. -/
theorem run_hasThing_miss {c key : String}
    (h : ∀ t, cachedID w.redis key = some t → ¬ cachedPair w.redis c t) :
    ∃ e, (Service.hasThing c key).run (handle E) w = (w, .error e) := by
  simp only [Service.hasThing, Prog.run_bind, run_thingCache_id]
  cases hg : w.redis.get (tkey key) with
  | error e => exact ⟨_, rfl⟩
  | ok t =>
      have hpair := h t (Redis.get_eq_ok.mp hg)
      simp [run_channelCache_hasThing, hpair]

theorem step_canAccessByKey_miss {c key : String}
    (h : ∀ t, cachedID w.redis key = some t → ¬ cachedPair w.redis c t) :
    step E w (.canAccessByKey c key)
      = match w.db.grantByKey c key with
        | some t =>
            ({ w with redis := cachePair (cacheThing w.redis key t) c t }, .id (.ok t))
        | none => (w, .id (.error .unauthorizedAccess)) := by
  obtain ⟨e, hmiss⟩ := run_hasThing_miss (E := E) h
  simp only [step, serve, Service.canAccessByKey, Prog.run_bind, hmiss, channelsHasThingByKey,
    cmd, Prog.run_call, Prog.run_ret, handle, handleMiss, ChannelRepository.thingID,
    DB.grantByKey]
  cases selectThingID key w.db with
  | none => rfl
  | some t =>
      simp only [Prog.run_bind, Prog.run_call, Prog.run_ret, handle, handleMiss]
      by_cases hc : w.db.Connected c t
      · rw [hasThing_eq_ok.mpr hc, if_pos hc]
        rfl
      · rw [if_neg hc]
        cases hh : ChannelRepository.hasThing c t w.db with
        | error e => rfl
        | ok u => exact absurd (hasThing_eq_ok.mp hh) hc

/-! What a check can do, hit or miss: the form in which invariants use it. -/

theorem step_canAccessByKey_cases (E : Env) (w : World) (c key : String) :
    (∃ t, cachedID w.redis key = some t ∧ cachedPair w.redis c t ∧
      step E w (.canAccessByKey c key) = (w, .id (.ok t))) ∨
    (∃ t, w.db.grantByKey c key = some t ∧
      step E w (.canAccessByKey c key)
        = ({ w with redis := cachePair (cacheThing w.redis key t) c t }, .id (.ok t))) ∨
    step E w (.canAccessByKey c key) = (w, .id (.error .unauthorizedAccess)) := by
  by_cases hhit : ∃ t, cachedID w.redis key = some t ∧ cachedPair w.redis c t
  · obtain ⟨t, hid, hpair⟩ := hhit
    exact .inl ⟨t, hid, hpair, step_canAccessByKey_hit hid hpair⟩
  · rw [step_canAccessByKey_miss fun t hid hpair => hhit ⟨t, hid, hpair⟩]
    cases w.db.grantByKey c key with
    | some t => exact .inr (.inl ⟨t, rfl, rfl⟩)
    | none => exact .inr (.inr rfl)

theorem step_canAccessByID_cases (E : Env) (w : World) (c t : String) :
    (cachedPair w.redis c t ∧ step E w (.canAccessByID c t) = (w, .done (.ok ()))) ∨
    (w.db.Connected c t ∧
      step E w (.canAccessByID c t)
        = ({ w with redis := cachePair w.redis c t }, .done (.ok ()))) ∨
    step E w (.canAccessByID c t) = (w, .done (.error .unauthorizedAccess)) := by
  by_cases hhit : cachedPair w.redis c t
  · exact .inl ⟨hhit, step_canAccessByID_hit hhit⟩
  · rw [step_canAccessByID_miss hhit]
    by_cases hc : w.db.Connected c t
    · exact .inr (.inl ⟨hc, if_pos hc⟩)
    · exact .inr (.inr (if_neg hc))

theorem step_identify_cases (E : Env) (w : World) (key : String) :
    (∃ t, cachedID w.redis key = some t ∧ step E w (.identify key) = (w, .id (.ok t))) ∨
    (∃ t, selectThingID key w.db = some t ∧
      step E w (.identify key)
        = ({ w with redis := cacheThing w.redis key t }, .id (.ok t))) ∨
    step E w (.identify key) = (w, .id (.error .unauthorizedAccess)) := by
  cases hhit : cachedID w.redis key with
  | some t => exact .inl ⟨t, rfl, step_identify_hit hhit⟩
  | none =>
      rw [step_identify_miss hhit]
      cases selectThingID key w.db with
      | some t => exact .inr (.inl ⟨t, rfl, rfl⟩)
      | none => exact .inr (.inr rfl)

/-! ### Creating: ids come from the identity provider. -/

/-- The id was given out between the moments `m` and `n`. -/
def Env.Issued (E : Env) (m n : Nat) (id : String) : Prop :=
  ∃ i u, m ≤ i ∧ i < n ∧ E.idp i = some u ∧ id = uuidOut u

theorem Env.Issued.mono {m m' n n' : Nat} {id : String} (h : E.Issued m' n' id) (hm : m ≤ m')
    (hn : n' ≤ n) : E.Issued m n id := by
  obtain ⟨i, u, h1, h2, hu, hid⟩ := h
  exact ⟨i, u, by omega, by omega, hu, hid⟩

theorem Env.issued_of_newID {n : Nat} {id : String} (h : E.newID n = .ok id) :
    E.Issued n (n + 1) id := by
  unfold Env.newID at h
  split at h
  next u hu => cases h; exact ⟨n, u, by omega, by omega, hu, rfl⟩
  next => cases h

/-- A property of the head and of every element of a successful rest. -/
theorem forall_mem_of_map_cons {α ε : Type} {P : α → Prop} {x : α} {r : Except ε (List α)}
    (hx : P x) (hr : ∀ l, r = .ok l → ∀ y ∈ l, P y) :
    ∀ l, r.map (x :: ·) = .ok l → ∀ y ∈ l, P y := by
  intro l hl y hy
  cases r with
  | error e => cases hl
  | ok l' =>
      cases hl
      rcases List.mem_cons.mp hy with rfl | hy
      · exact hx
      · exact hr l' rfl y hy

theorem run_assignThings (o : String) (ths : List Thing) (w : World) :
    ∃ n r, w.tick ≤ n ∧
      (Service.assignThings o ths).run (handle E) w = ({ w with tick := n }, r) ∧
      ∀ l, r = .ok l → ∀ th ∈ l, th.owner = o ∧ E.Issued w.tick n th.id := by
  induction ths generalizing w with
  | nil => exact ⟨w.tick, .ok [], by omega, rfl, by rintro _ ⟨⟩ th ⟨⟩⟩
  | cons th ths ih =>
      simp only [Service.assignThings, cmd, Prog.run_bind, Prog.run_call, Prog.run_ret, handle,
        handleMiss]
      cases hid : E.newID w.tick with
      | error e => exact ⟨w.tick + 1, .error e, by omega, rfl, by rintro _ ⟨⟩⟩
      | ok id =>
          have hissued := Env.issued_of_newID hid
          by_cases hkey : th.key = ""
          · simp only [hkey, if_true, Prog.run_bind, Prog.run_call, Prog.run_ret, handle,
              handleMiss]
            cases hid2 : E.newID (w.tick + 1) with
            | error e => exact ⟨w.tick + 1 + 1, .error e, by omega, rfl, by rintro _ ⟨⟩⟩
            | ok key =>
                obtain ⟨n, r, hn, hrun, hr⟩ := ih { w with tick := w.tick + 1 + 1 }
                replace hn : w.tick + 1 + 1 ≤ n := hn
                simp only [Prog.run_bind, hrun, Prog.run_pure]
                refine ⟨n, _, by omega, rfl, forall_mem_of_map_cons ?_ ?_⟩
                · exact ⟨rfl, hissued.mono (by omega) (by omega)⟩
                · intro l hl x hx
                  exact ⟨(hr l hl x hx).1, (hr l hl x hx).2.mono (by simp only; omega) (Nat.le_refl n)⟩
          · obtain ⟨n, r, hn, hrun, hr⟩ := ih { w with tick := w.tick + 1 }
            replace hn : w.tick + 1 ≤ n := hn
            simp only [hkey, if_false, Prog.run_bind, hrun, Prog.run_pure]
            refine ⟨n, _, by omega, rfl, forall_mem_of_map_cons ?_ ?_⟩
            · exact ⟨rfl, hissued.mono (by omega) (by omega)⟩
            · intro l hl x hx
              exact ⟨(hr l hl x hx).1, (hr l hl x hx).2.mono (by simp only; omega) (Nat.le_refl n)⟩

theorem run_assignChannels (o : String) (chs : List Channel) (w : World) :
    ∃ n r, w.tick ≤ n ∧
      (Service.assignChannels o chs).run (handle E) w = ({ w with tick := n }, r) ∧
      ∀ l, r = .ok l → ∀ ch ∈ l, ch.owner = o ∧ E.Issued w.tick n ch.id := by
  induction chs generalizing w with
  | nil => exact ⟨w.tick, .ok [], by omega, rfl, by rintro _ ⟨⟩ ch ⟨⟩⟩
  | cons ch chs ih =>
      simp only [Service.assignChannels, cmd, Prog.run_bind, Prog.run_call, Prog.run_ret,
        handle, handleMiss]
      cases hid : E.newID w.tick with
      | error e => exact ⟨w.tick + 1, .error e, by omega, rfl, by rintro _ ⟨⟩⟩
      | ok id =>
          have hissued := Env.issued_of_newID hid
          obtain ⟨n, r, hn, hrun, hr⟩ := ih { w with tick := w.tick + 1 }
          replace hn : w.tick + 1 ≤ n := hn
          simp only [Prog.run_bind, hrun, Prog.run_pure]
          refine ⟨n, _, by omega, rfl, forall_mem_of_map_cons ?_ ?_⟩
          · exact ⟨rfl, hissued.mono (by omega) (by omega)⟩
          · intro l hl x hx
            exact ⟨(hr l hl x hx).1, (hr l hl x hx).2.mono (by simp only; omega) (Nat.le_refl n)⟩

/-- `CreateThings` either stops at the identity provider or saves things that
carry the caller's name and new ids. -/
theorem step_createThings (hauth : E.auth w.tick token = some o) (ths : List Thing) :
    ∃ n, w.tick < n ∧
      ((∃ e, step E w (.createThings token ths) = ({ w with tick := n }, .things (.error e))) ∨
        ∃ l, (∀ th ∈ l, th.owner = o ∧ E.Issued w.tick n th.id) ∧
          step E w (.createThings token ths)
            = ({ w with db := (ThingRepository.save l w.db).1, tick := n },
                .things (ThingRepository.save l w.db).2)) := by
  obtain ⟨n, r, hn, hrun, hr⟩ := run_assignThings (E := E) o ths { w with tick := w.tick + 1 }
  refine ⟨n, hn, ?_⟩
  simp only [step, serve, Service.createThings, cmd, Prog.run_bind, Prog.run_call, Prog.run_ret,
    handle, handleMiss, hauth, hrun]
  cases r with
  | error e => exact .inl ⟨e, rfl⟩
  | ok l =>
      refine .inr ⟨l, ?_, rfl⟩
      intro th hth
      exact ⟨(hr l rfl th hth).1, (hr l rfl th hth).2.mono (by simp only; omega) (Nat.le_refl n)⟩

theorem step_createChannels (hauth : E.auth w.tick token = some o) (chs : List Channel) :
    ∃ n, w.tick < n ∧
      ((∃ e, step E w (.createChannels token chs)
          = ({ w with tick := n }, .channels (.error e))) ∨
        ∃ l, (∀ ch ∈ l, ch.owner = o ∧ E.Issued w.tick n ch.id) ∧
          step E w (.createChannels token chs)
            = ({ w with db := (ChannelRepository.save l w.db).1, tick := n },
                .channels (ChannelRepository.save l w.db).2)) := by
  obtain ⟨n, r, hn, hrun, hr⟩ :=
    run_assignChannels (E := E) o chs { w with tick := w.tick + 1 }
  refine ⟨n, hn, ?_⟩
  simp only [step, serve, Service.createChannels, cmd, Prog.run_bind, Prog.run_call,
    Prog.run_ret, handle, handleMiss, hauth, hrun]
  cases r with
  | error e => exact .inl ⟨e, rfl⟩
  | ok l =>
      refine .inr ⟨l, ?_, rfl⟩
      intro ch hch
      exact ⟨(hr l rfl ch hch).1, (hr l rfl ch hch).2.mono (by simp only; omega) (Nat.le_refl n)⟩

end Steps

end Mainflux.Things
