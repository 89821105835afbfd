/-
  Mainflux.Bootstrap.Configs
  ──────────────────────────
  **THE CONFIG REPOSITORY, AS THE BOOTSTRAP SERVICE CALLS IT.**

  `bootstrap/configs.go` declares the entities, `postgres/configs.go` the
  methods behind the API: `Save`, `RetrieveByID`, `Update`, `UpdateCert`,
  `UpdateConnections`, `Remove`, `ChangeState` and `ListExisting`.  Each method
  is one statement or one transaction, so an error leaves the tables alone.

  Two statements deserve a second look:

    • `updateConnections` does nothing for an EMPTY list;
    • its `NOT IN ($3)` compares with the single text of the bound array, so
      for any other list it deletes every row of the config.
-/
import Mainflux.Bootstrap.Repository

namespace Mainflux.Bootstrap

open Mainflux.Lib

/-! ## §1. Entities and errors. -/

/-- `bootstrap.Config`. -/
structure Config where
  mfThing : String := ""
  owner : String := ""
  name : String := ""
  clientCert : String := ""
  clientKey : String := ""
  caCert : String := ""
  mfKey : String := ""
  mfChannels : List Channel := []
  externalID : String := ""
  externalKey : String := ""
  content : String := ""
  state : State := .inactive
  deriving DecidableEq

/-- The errors of `sdk/go/sdk.go` that the bootstrap service can meet. -/
inductive SdkErr
  | unauthorized
  | notFound
  | invalidArgs
  | failedCreation
  | failedRemoval
  | failedConnection
  | failedDisconnect
  | fetchFailed
  -- the request got no answer
  | transport
  deriving Repr, DecidableEq

/-- The errors of the service and of its repository. -/
inductive Err
  | notFound
  | malformedEntity
  | unauthorizedAccess
  | conflict
  | things
  | pq (e : PqError)
  | sdk (e : SdkErr)
  -- the database did not answer
  | unavailable
  deriving Repr, DecidableEq

/-! ## §2. Rows and entities. -/

/-- `char(36)` fills up with blanks, and cuts off blanks that are too many. -/
def char36 (s : String) : String :=
  if s.length ≤ 36 then s ++ String.ofList (List.replicate (36 - s.length) ' ')
  else String.ofList (s.toList.take 36)

/-- `char(36)` takes the text: nothing but blanks is too much. -/
def fitsChar36 (s : String) : Prop := (s.toList.drop 36).all (· == ' ') = true

instance (s : String) : Decidable (fitsChar36 s) := inferInstanceAs (Decidable (_ = true))

/-- `toDBConfig`, as the row that is inserted. -/
def toDBConfig (cfg : Config) : ConfigRow where
  mfThing := cfg.mfThing
  owner := cfg.owner
  name := nullString cfg.name
  clientCert := nullString cfg.clientCert
  clientKey := nullString cfg.clientKey
  caCert := nullString cfg.caCert
  mfKey := char36 cfg.mfKey
  externalID := cfg.externalID
  externalKey := cfg.externalKey
  content := nullString cfg.content
  state := cfg.state

/-- `toDBChannel`. -/
def toDBChannel (owner : String) (ch : Channel) : ChannelRow :=
  ⟨ch.id, owner, nullString ch.name, ch.metadata⟩

/-- `toChannel`. -/
def toChannel (ch : ChannelRow) : Channel := ⟨ch.mfChannel, ch.name.getD "", ch.metadata⟩

/-- The rows of `insertConnections` and `updateConnections`. -/
def connectionRows (owner id : String) (connections : List String) : List ConnectionRow :=
  connections.map fun conn => ⟨conn, owner, id, owner⟩

/-! ## §3. Statements. -/

/-- A failed statement: the class and the constraint it names. -/
abbrev PqFailure := PqError × String

/-- `INSERT INTO configs`. -/
def insertConfig (cfg : Config) (d : DB) : Except PqError DB :=
  if ¬ fitsVarchar 254 cfg.owner ∨ ¬ fitsChar36 cfg.mfKey then
    .error .stringDataRightTruncation
  else if ∃ r ∈ d.configs, r.mfThing = cfg.mfThing ∨ r.mfKey = char36 cfg.mfKey ∨
      r.externalID = cfg.externalID then
    .error .uniqueViolation
  else .ok { d with configs := d.configs ++ [toDBConfig cfg] }

/-- `insertChannels`: one statement for all rows.  The empty owner is sent as
NULL, which the primary key refuses. -/
def insertChannels (owner : String) (channels : List Channel) (d : DB) : Except PqError DB :=
  if channels = [] then .ok d
  else if owner = "" then .error .notNullViolation
  else if ¬ fitsVarchar 254 owner then .error .stringDataRightTruncation
  else if ¬ (channels.map Channel.id).Nodup ∨
      ∃ ch ∈ channels, ∃ r ∈ d.channels, r.mfChannel = ch.id then
    .error .uniqueViolation
  else .ok { d with channels := d.channels ++ channels.map (toDBChannel owner) }

/-- `insertConnections`: one statement for all rows; keys are checked before
references, and the reference to `channels` before that to `configs`. -/
def insertConnections (owner id : String) (connections : List String) (d : DB) :
    Except PqFailure DB :=
  if connections = [] then .ok d
  else if ¬ fitsVarchar 256 owner then .error (.stringDataRightTruncation, "")
  else if ¬ connections.Nodup ∨
      ∃ co ∈ connectionRows owner id connections, co ∈ d.connections then
    .error (.uniqueViolation, "connections_pkey")
  else if ¬ ∀ co ∈ connectionRows owner id connections, ∃ ch ∈ d.channels, co.OfChannel ch then
    .error (.foreignKeyViolation, "connections_channel_id_fkey")
  else if ¬ ∃ cfg ∈ d.configs, cfg.mfThing = id ∧ cfg.owner = owner then
    .error (.foreignKeyViolation, "connections_config_id_fkey")
  else .ok { d with connections := d.connections ++ connectionRows owner id connections }

/-- `pq.Array` of texts: quoted items between braces. -/
def pqArray (items : List String) : String :=
  let quote (s : String) : List Char :=
    '"' :: (s.toList.flatMap fun c => if c = '"' ∨ c = '\\' then ['\\', c] else [c]) ++ ['"']
  String.ofList ('\x7b' :: [','].intercalate (items.map quote) ++ ['\x7d'])

/-- The rows that `updateConnections` deletes. -/
abbrev ConnectionRow.Replaced (key id : String) (connections : List String)
    (co : ConnectionRow) : Prop :=
  co.configID = id ∧ co.configOwner = key ∧ co.channelOwner = key ∧
    co.channelID ≠ pqArray connections

/-- `updateConnections`. -/
def updateConnections (key id : String) (connections : List String) (d : DB) :
    Except PqFailure DB :=
  if connections = [] then .ok d
  else
    match insertConnections key id connections
        { d with
          connections := deleteWhere (ConnectionRow.Replaced key id connections) d.connections } with
    | .error e => .error e
    | .ok d' =>
        if (selectWhere (ConnectionRow.Replaced key id connections) d.connections).length = 0 then
          .ok d'
        else .ok (cleanup d')

/-! ## §4. `configRepository`. -/

namespace ConfigRepository

/-- `configRepository.Save`.  Only the first two statements map a duplicate to
`ErrConflict`. -/
def save (cfg : Config) (connections : List String) (d : DB) : DB × Except Err String :=
  match insertConfig cfg d with
  | .error .uniqueViolation => (d, .error .conflict)
  | .error e => (d, .error (.pq e))
  | .ok d1 =>
      match insertChannels cfg.owner cfg.mfChannels d1 with
      | .error .uniqueViolation => (d, .error .conflict)
      | .error e => (d, .error (.pq e))
      | .ok d2 =>
          match insertConnections cfg.owner cfg.mfThing connections d2 with
          | .error e => (d, .error (.pq e.1))
          | .ok d3 => (d3, .ok cfg.mfThing)

/-- The channels that `RetrieveByID` joins to a config. -/
def channelsOf (key id : String) (d : DB) : List Channel :=
  d.connections.filterMap fun co =>
    if co.configID = id ∧ co.configOwner = key then
      (d.channels.find? fun ch => ch.mfChannel = co.channelID ∧ ch.owner = co.configOwner).map
        toChannel
    else none

/-- `configRepository.RetrieveByID`: the certificates are not read. -/
def retrieveByID (key id : String) (d : DB) : Except Err Config :=
  match d.configs.find? fun r => r.mfThing = id ∧ r.owner = key with
  | none => .error .notFound
  | some r =>
      .ok { mfThing := r.mfThing, owner := key, name := r.name.getD "", mfKey := r.mfKey,
            mfChannels := channelsOf key id d, externalID := r.externalID,
            externalKey := r.externalKey, content := r.content.getD "", state := r.state }

/-- The three `UPDATE configs ... WHERE mainflux_thing AND owner` methods. -/
def updateConfig (key id : String) (f : ConfigRow → ConfigRow) (d : DB) : DB × Except Err Unit :=
  ({ d with configs := updateWhere (fun r => r.mfThing = id ∧ r.owner = key) f d.configs },
    if (selectWhere (fun r => r.mfThing = id ∧ r.owner = key) d.configs).length = 0 then
      .error .notFound
    else .ok ())

/-- `configRepository.Update`. -/
def update (cfg : Config) (d : DB) : DB × Except Err Unit :=
  updateConfig cfg.owner cfg.mfThing
    (fun r => { r with name := nullString cfg.name, content := nullString cfg.content }) d

/-- `configRepository.UpdateCert`. -/
def updateCert (owner thingID clientCert clientKey caCert : String) (d : DB) :
    DB × Except Err Unit :=
  updateConfig owner thingID
    (fun r => { r with
      clientCert := some clientCert, clientKey := some clientKey, caCert := some caCert }) d

/-- `configRepository.ChangeState`. -/
def changeState (key id : String) (state : State) (d : DB) : DB × Except Err Unit :=
  updateConfig key id (fun r => { r with state := state }) d

/-- `configRepository.UpdateConnections`. -/
def updateConnections (key id : String) (channels : List Channel) (connections : List String)
    (d : DB) : DB × Except Err Unit :=
  match insertChannels key channels d with
  | .error .uniqueViolation => (d, .error .conflict)
  | .error e => (d, .error (.pq e))
  | .ok d1 =>
      match Bootstrap.updateConnections key id connections d1 with
      | .error (.foreignKeyViolation, "connections_config_id_fkey") => (d, .error .notFound)
      | .error e => (d, .error (.pq e.1))
      | .ok d2 => (d2, .ok ())

/-- The first statement of `configRepository.Remove`; `cleanup` is the second. -/
def remove (key id : String) (d : DB) : DB :=
  deleteConfigs (fun cfg => cfg.mfThing = id ∧ cfg.owner = key) d

/-- `configRepository.ListExisting`. -/
def listExisting (key : String) (ids : List String) (d : DB) : List Channel :=
  if ids = [] then []
  else (selectWhere (fun ch => ch.owner = key ∧ ch.mfChannel ∈ ids) d.channels).map toChannel

/-! ## §5. Reading and updating one config. -/

section OneConfig

variable {d : DB} {r : ConfigRow}

/-- `mainflux_thing` is unique, so the query finds the row. -/
theorem find?_config (hkey : (d.configs.map fun r => r.mfThing).Nodup) (hr : r ∈ d.configs) :
    d.configs.find? (fun s => s.mfThing = r.mfThing ∧ s.owner = r.owner) = some r := by
  cases hfind : d.configs.find? (fun s => s.mfThing = r.mfThing ∧ s.owner = r.owner) with
  | none => exact absurd (List.find?_eq_none.mp hfind r hr) (by simp)
  | some s =>
      have hs : s.mfThing = r.mfThing ∧ s.owner = r.owner := by
        simpa using List.find?_some hfind
      rw [eq_of_key_eq hkey (List.mem_of_find?_eq_some hfind) hr hs.1]

theorem retrieveByID_row (hkey : (d.configs.map fun r => r.mfThing).Nodup) (hr : r ∈ d.configs) :
    ∃ cfg, retrieveByID r.owner r.mfThing d = .ok cfg ∧ cfg.state = r.state ∧
      cfg.mfThing = r.mfThing ∧ cfg.mfChannels = channelsOf r.owner r.mfThing d := by
  refine ⟨_, by rw [retrieveByID, find?_config hkey hr], rfl, rfl, rfl⟩

/-- A config that the query finds is a row. -/
theorem row_of_retrieveByID {key id : String} {cfg : Config}
    (h : retrieveByID key id d = .ok cfg) :
    ∃ r ∈ d.configs, r.mfThing = id ∧ r.owner = key ∧ cfg.state = r.state ∧ cfg.mfThing = id ∧
      cfg.mfChannels = channelsOf key id d := by
  unfold retrieveByID at h
  split at h
  next => cases h
  next r hfind =>
      cases h
      have hr : r.mfThing = id ∧ r.owner = key := by simpa using List.find?_some hfind
      exact ⟨r, List.mem_of_find?_eq_some hfind, hr.1, hr.2, rfl, hr.1, rfl⟩

/-- The channels of a config come from its connection rows. -/
theorem mem_channelsOf {key id : String} {ch : Channel} (h : ch ∈ channelsOf key id d) :
    ∃ co ∈ d.connections, co.configID = id ∧ co.configOwner = key ∧ ch.id = co.channelID := by
  obtain ⟨co, hco, hch⟩ := List.mem_filterMap.mp h
  split at hch
  next hof =>
      obtain ⟨row, hfind, rfl⟩ := Option.map_eq_some_iff.mp hch
      have hrow : row.mfChannel = co.channelID ∧ row.owner = co.configOwner := by
        simpa using List.find?_some hfind
      exact ⟨co, hco, hof.1, hof.2, hrow.1⟩
  next => cases hch

theorem changeState_row (hr : r ∈ d.configs) (state : State) :
    changeState r.owner r.mfThing state d
      = ({ d with
            configs := updateWhere (fun s => s.mfThing = r.mfThing ∧ s.owner = r.owner)
              (fun s => { s with state := state }) d.configs }, .ok ()) := by
  have hsome : ¬ (selectWhere (fun s => s.mfThing = r.mfThing ∧ s.owner = r.owner)
      d.configs).length = 0 := by
    intro h
    exact length_selectWhere_eq_zero.mp h r hr ⟨rfl, rfl⟩
  rw [changeState, updateConfig, if_neg hsome]

end OneConfig

end ConfigRepository

end Mainflux.Bootstrap
