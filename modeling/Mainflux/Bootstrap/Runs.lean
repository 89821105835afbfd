/-
  Mainflux.Bootstrap.Runs
  ───────────────────────
  **RUNS OF THE BOOTSTRAP API BESIDE THINGS, AND WHICH STEPS ARE SAFE.**

  A run interleaves three kinds of step:

    • a call of the bootstrap API, in which any SDK or repository call may fail;
    • an operation of Things that the bootstrap consumer handles;
    • the handling of the oldest record of the stream.

  `Consistent` is what the README says of the two states: the thing of an
  ACTIVE config is connected to all channels of the config, that of an INACTIVE
  one to none.  `Safe` is a condition on one step, the state it is taken from
  and the failures during it.
-/
import Mainflux.Bootstrap.Configs
import Mainflux.Bootstrap.Links

namespace Mainflux.Bootstrap.Consistency

open Mainflux.Lib

/-! ## §1. Runs. -/

/-- The writing calls of the API. -/
inductive Request
  | add (key : String) (cfg : Config)
  | update (key : String) (cfg : Config)
  | updateCert (key thingID clientCert clientKey caCert : String)
  | updateConnections (key id : String) (connections : List String)
  | changeState (key id : String) (state : State)
  | remove (key id : String)

/-- The method that serves a request. -/
def serve : Request → Prog Sig (Except Err Unit)
  | .add key cfg => do return (← Service.add key cfg).map fun _ => ()
  | .update key cfg => Service.update key cfg
  | .updateCert key thingID clientCert clientKey caCert =>
      Service.updateCert key thingID clientCert clientKey caCert
  | .updateConnections key id connections => Service.updateConnections key id connections
  | .changeState key id state => Service.changeState key id state
  | .remove key id => Service.remove key id

/-- The operations of Things that the consumer handles.  A removal is announced
also when the caller does not own what he removes, and then removes nothing. -/
inductive Operation
  | disconnect (c t : String)
  | removeThing (t : String) (owned : Bool)
  | removeChannel (c : String) (owned : Bool)
  | updateChannel (channel : Channel)

def World.operate (w : World) : Operation → World
  | .disconnect c t => (w.disconnect c t).1
  | .removeThing t owned =>
      { w with
        links := if owned then deleteWhere (fun p => p.2 = t) w.links else w.links
        pending := w.pending ++ [.removeThing t] }
  | .removeChannel c owned =>
      { w with
        links := if owned then deleteWhere (fun p => p.1 = c) w.links else w.links
        pending := w.pending ++ [.removeChannel c] }
  | .updateChannel channel => { w with pending := w.pending ++ [.updateChannel channel] }

/-- One step of a run. -/
inductive Step
  | call (net : Net) (req : Request)
  | operate (op : Operation)
  -- the consumer handles the oldest pending record
  | handle

def step (w : World) : Step → World
  | .call net req => ((serve req).run (handler net) w).1
  | .operate op => w.operate op
  | .handle =>
      match w.pending with
      | [] => w
      | ev :: evs => { w with db := ev.apply w.db, pending := evs }

/-- What handling a list of records does. -/
def settle (evs : List Decoded) (d : DB) : DB := evs.foldl (fun d ev => ev.apply d) d

/-- Settling what records decode to is consuming them. -/
theorem settle_decode (records : List Things.Record) (d : DB) :
    settle (records.map decode) d = consume records d := by
  rw [settle, List.foldl_map]
  simp only [← handle_eq_apply]
  rfl

/-- The tables once all pending records are handled. -/
def settled (w : World) : DB := settle w.pending w.db

/-- Empty tables, and whatever connections Things has. -/
def start (links : List (String × String)) : World := ⟨⟨[], [], []⟩, links, []⟩

/-- **Active means connected to every channel of the config, inactive means
connected to none.** -/
def Consistent (d : DB) (links : List (String × String)) : Prop :=
  ∀ cfg ∈ d.configs, ∀ co ∈ d.connections, co.OfConfig cfg →
    (cfg.state = .active → (co.channelID, cfg.mfThing) ∈ links) ∧
      (cfg.state = .inactive → (co.channelID, cfg.mfThing) ∉ links)

instance (d : DB) (links : List (String × String)) : Decidable (Consistent d links) :=
  inferInstanceAs (Decidable (∀ cfg ∈ d.configs, ∀ co ∈ d.connections, co.OfConfig cfg →
    (cfg.state = .active → (co.channelID, cfg.mfThing) ∈ links) ∧
      (cfg.state = .inactive → (co.channelID, cfg.mfThing) ∉ links)))

/-! ## §2. When a step is safe. -/

/-- The write takes effect. -/
def Effective (fault : Option RepoFault) : Prop := fault = none ∨ fault = some .unanswered

/-- No other config that has channels is active. -/
def Quiet (d : DB) (t : String) : Prop :=
  ∀ cfg ∈ d.configs, cfg.mfThing ≠ t → cfg.state = .active →
    ∀ co ∈ d.connections, ¬ co.OfConfig cfg

/-- `ChangeState` to the other state, of a config with the channels `cs`.

* To active: no channels, or the first connection is refused, or all are made
  and the write takes effect.
* To inactive: no channels, or the first disconnection is refused, or all take
  effect and no other config that has channels is active. -/
def SafeSwitch (net : Net) (w : World) (t : String) (cs : List String) : State → Prop
  | .active =>
      cs = [] ∨ (∃ c e, cs.head? = some c ∧ net.connect c = some (.refused e)) ∨
        (∀ c ∈ cs, net.connect c = none) ∧ Effective net.write
  | .inactive =>
      cs = [] ∨ FirstRefused net.disconnect cs ∨ AllTaken net.disconnect cs ∧ Quiet w.db t

/-- The channels that Things returns for the loop of `connectionChannels`. -/
def fetched (net : Net) : List String → Except Err (List Channel)
  | [] => .ok []
  | id :: ids =>
      match net.channel id with
      | .error _ => .error .malformedEntity
      | .ok ch => (fetched net ids).map (ch :: ·)

/-- `connectionChannels`, when the tables and Things answer. -/
def newChannels (net : Net) (d : DB) (owner : String) (connections : List String) :
    Except Err (List Channel) :=
  match net.listExisting with
  | some e => .error e
  | none =>
      fetched net (net.order (Service.missing connections
        (Service.toIDList (ConfigRepository.listExisting owner connections d))))

/-- `UpdateConnections` gets as far as the write, and the write stores the
list. -/
def Stores (net : Net) (d : DB) (owner id : String) (connections : List String)
    (channels : List Channel) : Prop :=
  connections ≠ [] ∧ Effective net.write ∧
    (ConfigRepository.updateConnections owner id channels connections d).2 = .ok ()

/-- `UpdateConnections` of a config with the channels `cs`.

* Inactive: if the list is stored, no listed channel is connected.
* Active: no channel is removed, or the first disconnection is refused, or
  (none of the channels is called like the text of the list, and) either all
  calls are made and the list is stored, or all channels are removed, all
  disconnections take effect and no other config that has channels is
  active. -/
def SafeUpdate (net : Net) (w : World) (owner id : String) (cs connections : List String)
    (channels : List Channel) : State → Prop
  | .inactive =>
      Stores net w.db owner id connections channels → ∀ c ∈ connections, (c, id) ∉ w.links
  | .active =>
      let add := (Service.updateListLoop cs.dedup connections).1
      let remove := net.order (Service.updateListLoop cs.dedup connections).2
      remove = [] ∨ FirstRefused net.disconnect remove ∨
        pqArray connections ∉ cs ∧
          ((∀ c ∈ remove, net.disconnect c = none ∨
                net.disconnect c = some (.refused .notFound)) ∧
              (∀ c ∈ add, net.connect c = none ∧ (c, id) ∉ w.links) ∧ add.Nodup ∧
              Stores net w.db owner id connections channels ∨
            (∀ c ∈ cs, c ∈ remove) ∧ AllTaken net.disconnect remove ∧ Quiet w.db id)

/-- The thing that `Add` fetches. -/
def askedThing (net : Net) (cfg : Config) : Option String :=
  if cfg.mfThing = "" then net.createThing.toOption else some cfg.mfThing

/-- A call with this token finds the config. -/
def Finds (net : Net) (w : World) (key id owner : String) (cfg : Config) : Prop :=
  net.identify key = some owner ∧ net.retrieve = none ∧
    ConfigRepository.retrieveByID owner id w.db = .ok cfg

/-- When a call is safe. -/
def SafeCall (net : Net) (w : World) : Request → Prop
  | .add _ cfg => ∀ id th, askedThing net cfg = some id → net.thing id = .ok th →
      ∀ c ∈ Service.toIDList cfg.mfChannels, (c, th.id) ∉ w.links
  | .changeState key id state => ∀ owner cfg, Finds net w key id owner cfg → cfg.state ≠ state →
      SafeSwitch net w id (Service.toIDList cfg.mfChannels) state
  | .updateConnections key id connections => ∀ owner cfg channels, Finds net w key id owner cfg →
      newChannels net w.db owner connections = .ok channels →
        SafeUpdate net w owner id (Service.toIDList cfg.mfChannels) connections channels cfg.state
  | _ => True

/-- When an operation of Things is safe: a disconnected pair that a config has
is the only pair of the config, and no other config that has channels is
active. -/
def SafeOperation (w : World) : Operation → Prop
  | .disconnect c t => (c, t) ∈ w.links → w.db.HasConnection c t →
      (∀ co ∈ w.db.connections, co.configID = t → co.channelID = c) ∧ Quiet w.db t
  | _ => True

/-- When a step is safe.  Calls and operations come when the records of the
step before have been handled. -/
def Safe (w : World) : Step → Prop
  | .call net req => w.pending = [] ∧ SafeCall net w req
  | .operate op => w.pending = [] ∧ SafeOperation w op
  | .handle => True

end Mainflux.Bootstrap.Consistency
