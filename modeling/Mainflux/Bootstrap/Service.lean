/-
  Mainflux.Bootstrap.Service
  ──────────────────────────
  **THE BOOTSTRAP SERVICE AS COMMAND PROGRAMS.**

  The methods of `bootstrapService` that write, as programs over what they ask
  of the services around them: the authn service, the Things SDK and the config
  repository.  The program text is the Go body, error paths included.  What the
  commands do is left to a handler, because the same text is run

    • against the Things service as its own repository and HTTP API define it
      (`Bootstrap.Retry`);
    • against a bare set of connections whose calls may fail
      (`Bootstrap.Links`).

  A Go map has no order of iteration; `mapRange` is the command that asks for
  one.
-/
import Mathlib.Data.List.Dedup
import Mainflux.Bootstrap.Configs
import Mainflux.Lib.Prog

namespace Mainflux.Bootstrap

open Mainflux.Lib

/-! ## §1. Commands. -/

/-- The fields of `mfsdk.Thing` that the service reads. -/
structure SdkThing where
  id : String
  key : String
  deriving DecidableEq

/-- What the service asks of the world. -/
inductive Cmd
  | authIdentify (token : String)
  | mapRange (keys : List String)
  | sdkCreateThing (token : String)
  | sdkThing (id token : String)
  | sdkDeleteThing (id token : String)
  | sdkChannel (id token : String)
  | sdkConnectThing (thingID chanID token : String)
  | sdkDisconnectThing (thingID chanID token : String)
  | configsListExisting (key : String) (ids : List String)
  | configsRetrieveByID (key id : String)
  | configsSave (cfg : Config) (connections : List String)
  | configsUpdate (cfg : Config)
  | configsUpdateCert (owner thingID clientCert clientKey caCert : String)
  | configsUpdateConnections (key id : String) (channels : List Channel)
      (connections : List String)
  | configsChangeState (key id : String) (state : State)
  | configsRemove (key id : String)
  | configsCleanup
  deriving DecidableEq

/-- What each command answers. -/
@[reducible] def Cmd.Res : Cmd → Type
  | .authIdentify _ => Option String
  | .mapRange _ => List String
  | .sdkCreateThing _ => Except SdkErr String
  | .sdkThing _ _ => Except SdkErr SdkThing
  | .sdkDeleteThing _ _ => Except SdkErr Unit
  | .sdkChannel _ _ => Except SdkErr Channel
  | .sdkConnectThing _ _ _ => Except SdkErr Unit
  | .sdkDisconnectThing _ _ _ => Except SdkErr Unit
  | .configsListExisting _ _ => Except Err (List Channel)
  | .configsRetrieveByID _ _ => Except Err Config
  | .configsSave _ _ => Except Err String
  | _ => Except Err Unit

abbrev Sig : Signature := ⟨Cmd, Cmd.Res⟩

/-- Issue one command and return its answer. -/
def cmd (c : Cmd) : Prog Sig c.Res := .call (S := Sig) c .ret

/-! ## §2. Helpers of the service. -/

namespace Service

/-- `identify`. -/
def identify (token : String) : Prog Sig (Except Err String) := do
  match ← cmd (.authIdentify token) with
  | none => return .error .unauthorizedAccess
  | some owner => return .ok owner

/-- `toIDList`. -/
def toIDList (channels : List Channel) : List String := channels.map Channel.id

/-- The keys of the map `add` of `connectionChannels`. -/
def missing (channels existing : List String) : List String :=
  channels.dedup.filter fun ch => ch ∉ existing

/-- The loop of `connectionChannels`. -/
def fetchChannels (key : String) : List String → Prog Sig (Except Err (List Channel))
  | [] => return .ok []
  | id :: ids => do
      match ← cmd (.sdkChannel id key) with
      | .error _ => return .error .malformedEntity
      | .ok ch => return (← fetchChannels key ids).map (ch :: ·)

/-- `connectionChannels`. -/
def connectionChannels (channels existing : List String) (key : String) :
    Prog Sig (Except Err (List Channel)) := do
  let ids ← cmd (.mapRange (missing channels existing))
  fetchChannels key ids

/-- The second loop of `updateList`: the keys left in the map `disconnect`, and
the elements that were not in it when their turn came.  The second of two equal
elements is one of these. -/
def updateListLoop : List String → List String → List String × List String
  | disconnect, [] => ([], disconnect)
  | disconnect, c :: connections =>
      if c ∈ disconnect then updateListLoop (disconnect.filter fun d => d ≠ c) connections
      else
        (c :: (updateListLoop disconnect connections).1,
          (updateListLoop disconnect connections).2)

/-- `updateList`. -/
def updateList (cfg : Config) (connections : List String) :
    Prog Sig (List String × List String) := do
  let (add, disconnect) := updateListLoop (toIDList cfg.mfChannels).dedup connections
  let remove ← cmd (.mapRange disconnect)
  return (add, remove)

/-- The second half of `thing`: an existing thing that cannot be read is
deleted. -/
def fetchThing (key id thingID : String) : Prog Sig (Except Err SdkThing) := do
  match ← cmd (.sdkThing thingID key) with
  | .ok thing => return .ok thing
  | .error .notFound => return .error .notFound
  | .error _ =>
      if id = "" then return .error .things
      else
        let _ ← cmd (.sdkDeleteThing thingID key)
        return .error .things

/-- `thing`. -/
def thing (key id : String) : Prog Sig (Except Err SdkThing) := do
  if id = "" then
    match ← cmd (.sdkCreateThing key) with
    | .error e => return .error (.sdk e)
    | .ok thingID => fetchThing key id thingID
  else fetchThing key id id

/-- The body of the disconnecting loops: a missing connection is passed over. -/
def disconnectThing (key thingID chanID : String) : Prog Sig (Except Err Unit) := do
  match ← cmd (.sdkDisconnectThing thingID chanID key) with
  | .ok () => return .ok ()
  | .error .notFound => return .ok ()
  | .error _ => return .error .things

/-- The body of the connecting loop of `ChangeState`. -/
def connectThing (key thingID chanID : String) : Prog Sig (Except Err Unit) := do
  match ← cmd (.sdkConnectThing thingID chanID key) with
  | .ok () => return .ok ()
  | .error _ => return .error .things

/-- The body of the connecting loop of `UpdateConnections`. -/
def connectListed (key thingID chanID : String) : Prog Sig (Except Err Unit) := do
  match ← cmd (.sdkConnectThing thingID chanID key) with
  | .ok () => return .ok ()
  | .error .notFound => return .error .malformedEntity
  | .error _ => return .error .things

/-! ## §3. The methods. -/

/-- `Add`. -/
def add (key : String) (cfg : Config) : Prog Sig (Except Err Config) := do
  match ← identify key with
  | .error e => return .error e
  | .ok owner =>
      let toConnect := toIDList cfg.mfChannels
      match ← cmd (.configsListExisting owner toConnect) with
      | .error e => return .error e
      | .ok existing =>
          match ← connectionChannels toConnect (toIDList existing) key with
          | .error e => return .error e
          | .ok channels =>
              match ← thing key cfg.mfThing with
              | .error e => return .error e
              | .ok mfThing =>
                  let new := { cfg with mfThing := mfThing.id, owner := owner, state := .inactive,
                                        mfKey := mfThing.key, mfChannels := channels }
                  match ← cmd (.configsSave new toConnect) with
                  | .ok saved =>
                      return .ok { new with mfThing := saved, mfChannels := channels ++ existing }
                  | .error e =>
                      if cfg.mfThing = "" then
                        let _ ← cmd (.sdkDeleteThing new.mfThing key)
                        return .error e
                      else return .error e

/-- `Update`. -/
def update (key : String) (cfg : Config) : Prog Sig (Except Err Unit) := do
  match ← identify key with
  | .error e => return .error e
  | .ok owner => cmd (.configsUpdate { cfg with owner := owner })

/-- `UpdateCert`. -/
def updateCert (key thingID clientCert clientKey caCert : String) :
    Prog Sig (Except Err Unit) := do
  match ← identify key with
  | .error e => return .error e
  | .ok owner => cmd (.configsUpdateCert owner thingID clientCert clientKey caCert)

/-- The calls on Things of `UpdateConnections`: none unless the config is
active. -/
def reconnect (key id : String) (state : State) (add remove : List String) :
    Prog Sig (Except Err Unit) := do
  match state with
  | .inactive => return .ok ()
  | .active =>
      match ← Prog.each (disconnectThing key id) remove with
      | .error e => return .error e
      | .ok () => Prog.each (connectListed key id) add

/-- `UpdateConnections`. -/
def updateConnections (key id : String) (connections : List String) :
    Prog Sig (Except Err Unit) := do
  match ← identify key with
  | .error e => return .error e
  | .ok owner =>
      match ← cmd (.configsRetrieveByID owner id) with
      | .error e => return .error e
      | .ok cfg =>
          let (add, remove) ← updateList cfg connections
          match ← cmd (.configsListExisting owner connections) with
          | .error e => return .error e
          | .ok existing =>
              match ← connectionChannels connections (toIDList existing) key with
              | .error e => return .error e
              | .ok channels =>
                  match ← reconnect key id cfg.state add remove with
                  | .error e => return .error e
                  | .ok () => cmd (.configsUpdateConnections owner id channels connections)

/-- `Remove`; the outcome of the cleanup is dropped. -/
def remove (key id : String) : Prog Sig (Except Err Unit) := do
  match ← identify key with
  | .error e => return .error e
  | .ok owner =>
      match ← cmd (.configsRemove owner id) with
      | .error e => return .error e
      | .ok () =>
          let _ ← cmd .configsCleanup
          return .ok ()

/-- The calls on Things of `ChangeState`. -/
def switchThing (key : String) (cfg : Config) : State → Prog Sig (Except Err Unit)
  | .active => Prog.each (connectThing key cfg.mfThing) (toIDList cfg.mfChannels)
  | .inactive => Prog.each (disconnectThing key cfg.mfThing) (toIDList cfg.mfChannels)

/-- `ChangeState`. -/
def changeState (key id : String) (state : State) : Prog Sig (Except Err Unit) := do
  match ← identify key with
  | .error e => return .error e
  | .ok owner =>
      match ← cmd (.configsRetrieveByID owner id) with
      | .error e => return .error e
      | .ok cfg =>
          if cfg.state = state then return .ok ()
          else
            match ← switchThing key cfg state with
            | .error e => return .error e
            | .ok () => cmd (.configsChangeState owner id state)

end Service

end Mainflux.Bootstrap
