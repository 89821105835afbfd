/-
  Mainflux.Things.Repository
  ──────────────────────────
  **THE THINGS DATABASE AND ITS REPOSITORIES.**

  The three tables of `things/postgres/init.go` (`things`, `channels`,
  `connections`), the SQL statements the repositories issue on them, and the
  methods of `thingRepository` and `channelRepository` with their error
  mappings.  Ids are text on the Go side and `uuid` values in the tables:
  every statement first reads the text it is given, and a text that is no
  UUID fails with `invalid_text_representation`.

  `DB.Schema` is what the declarations of `init.go` enforce: the primary
  keys, the unique thing key, the two foreign keys and the column widths.
-/
import Mainflux.Lib.Postgres
import Mainflux.Lib.Redis
import Mainflux.Lib.Table

namespace Mainflux.Things

open Mainflux.Lib

/-! ## §1. Entities and errors. -/

/-- `things.Metadata`: a map, or nil. -/
abbrev Metadata := Option JsonObject

/-- `things.Thing`. -/
structure Thing where
  id : String := ""
  owner : String := ""
  name : String := ""
  key : String := ""
  metadata : Metadata := none
  deriving DecidableEq

/-- `things.Channel`. -/
structure Channel where
  id : String := ""
  owner : String := ""
  name : String := ""
  metadata : Metadata := none
  deriving DecidableEq

/-- The errors of the things package, and the errors of the drivers and of the
identity provider that it passes on. -/
inductive Err
  | malformedEntity
  | unauthorizedAccess
  | notFound
  | conflict
  | noRows
  | idp
  | pq (e : PqError)
  | redis (e : Redis.Error)
  deriving Repr, DecidableEq

/-! ## §2. The tables. -/

structure ThingRow where
  id : UUID
  owner : String
  name : String
  key : String
  metadata : JsonObject
  deriving DecidableEq

structure ChannelRow where
  id : UUID
  owner : String
  name : String
  metadata : Option JsonObject
  deriving DecidableEq

structure ConnectionRow where
  channelID : UUID
  channelOwner : String
  thingID : UUID
  thingOwner : String
  deriving DecidableEq

structure DB where
  things : List ThingRow
  channels : List ChannelRow
  connections : List ConnectionRow
  deriving DecidableEq

/-- The database the migrations leave. -/
def DB.empty : DB := ⟨[], [], []⟩

/-- `WHERE id = :id AND owner = :owner`. -/
abbrev ThingRow.Is (id : UUID) (owner : String) (r : ThingRow) : Prop :=
  r.id = id ∧ r.owner = owner

/-- `WHERE id = :id AND owner = :owner`. -/
abbrev ChannelRow.Is (id : UUID) (owner : String) (r : ChannelRow) : Prop :=
  r.id = id ∧ r.owner = owner

/-- The row references the thing `(id, owner)`. -/
abbrev ConnectionRow.OfThing (id : UUID) (owner : String) (co : ConnectionRow) : Prop :=
  co.thingID = id ∧ co.thingOwner = owner

/-- The row references the channel `(id, owner)`. -/
abbrev ConnectionRow.OfChannel (id : UUID) (owner : String) (co : ConnectionRow) : Prop :=
  co.channelID = id ∧ co.channelOwner = owner

/-- What the declarations of `init.go` enforce. -/
structure DB.Schema (d : DB) : Prop where
  thing_pk : (d.things.map fun r => (r.id, r.owner)).Nodup
  thing_key : (d.things.map fun r => r.key).Nodup
  thing_width : ∀ r ∈ d.things,
    fitsVarchar 254 r.owner ∧ fitsVarchar 4096 r.key ∧ fitsVarchar 1024 r.name
  channel_pk : (d.channels.map fun r => (r.id, r.owner)).Nodup
  channel_width : ∀ r ∈ d.channels, fitsVarchar 254 r.owner ∧ fitsVarchar 1024 r.name
  connection_pk : d.connections.Nodup
  channel_fk : ∀ co ∈ d.connections, ∃ ch ∈ d.channels, ch.Is co.channelID co.channelOwner
  thing_fk : ∀ co ∈ d.connections, ∃ th ∈ d.things, th.Is co.thingID co.thingOwner

/-! ## §3. The statements. -/

/-- The metadata of `toDBThing`: nil and the empty map are both stored as
`{}`. -/
def metadataObject (m : Metadata) : JsonObject := m.getD []

/-- `INSERT INTO things (id, owner, name, key, metadata) VALUES (...)`. -/
def insertThing (th : Thing) (d : DB) : Except PqError DB :=
  match uuidIn th.id with
  | none => .error .invalidTextRepresentation
  | some id =>
      if fitsVarchar 254 th.owner ∧ fitsVarchar 4096 th.key ∧ fitsVarchar 1024 th.name then
        if ∃ r ∈ d.things, r.Is id th.owner ∨ r.key = th.key then .error .uniqueViolation
        else .ok { d with
          things := d.things ++ [⟨id, th.owner, th.name, th.key, metadataObject th.metadata⟩] }
      else .error .stringDataRightTruncation

/-- `UPDATE things SET name, metadata WHERE owner AND id`; the new tables and
the number of rows affected. -/
def updateThing (th : Thing) (d : DB) : Except PqError (DB × Nat) :=
  match uuidIn th.id with
  | none => .error .invalidTextRepresentation
  | some id =>
      if fitsVarchar 1024 th.name then
        .ok ({ d with
            things := updateWhere (ThingRow.Is id th.owner)
              (fun r => { r with name := th.name, metadata := metadataObject th.metadata }) d.things },
          (selectWhere (ThingRow.Is id th.owner) d.things).length)
      else .error .stringDataRightTruncation

/-- `UPDATE things SET key WHERE owner AND id`. -/
def updateThingKey (owner id key : String) (d : DB) : Except PqError (DB × Nat) :=
  match uuidIn id with
  | none => .error .invalidTextRepresentation
  | some id =>
      if fitsVarchar 4096 key then
        -- the unique index refuses a key that a row not updated already has
        if (∃ r ∈ d.things, r.Is id owner) ∧ ∃ r ∈ d.things, ¬ r.Is id owner ∧ r.key = key then
          .error .uniqueViolation
        else
          .ok ({ d with
              things := updateWhere (ThingRow.Is id owner)
                (fun r => { r with key := key }) d.things },
            (selectWhere (ThingRow.Is id owner) d.things).length)
      else .error .stringDataRightTruncation

/-- `DELETE FROM things WHERE id AND owner`, cascading to `connections`. -/
def deleteThing (owner id : String) (d : DB) : Except PqError DB :=
  match uuidIn id with
  | none => .error .invalidTextRepresentation
  | some id =>
      .ok { d with
        things := deleteWhere (ThingRow.Is id owner) d.things
        connections := deleteWhere (ConnectionRow.OfThing id owner) d.connections }

/-- `SELECT id FROM things WHERE key = $1`: the first row's id, as text. -/
def selectThingID (key : String) (d : DB) : Option String :=
  (d.things.find? (fun r => r.key = key)).map (fun r => uuidOut r.id)

/-- `dbMetadata.Value`: nil and the empty map are both stored as NULL. -/
def metadataValue (m : Metadata) : Option JsonObject :=
  if (m.getD []).isEmpty then none else m

/-- `INSERT INTO channels (id, owner, name, metadata) VALUES (...)`. -/
def insertChannel (ch : Channel) (d : DB) : Except PqError DB :=
  match uuidIn ch.id with
  | none => .error .invalidTextRepresentation
  | some id =>
      if fitsVarchar 254 ch.owner ∧ fitsVarchar 1024 ch.name then
        if ∃ r ∈ d.channels, r.Is id ch.owner then .error .uniqueViolation
        else .ok { d with
          channels := d.channels ++ [⟨id, ch.owner, ch.name, metadataValue ch.metadata⟩] }
      else .error .stringDataRightTruncation

/-- `UPDATE channels SET name, metadata WHERE owner AND id`. -/
def updateChannel (ch : Channel) (d : DB) : Except PqError (DB × Nat) :=
  match uuidIn ch.id with
  | none => .error .invalidTextRepresentation
  | some id =>
      if fitsVarchar 1024 ch.name then
        .ok ({ d with
            channels := updateWhere (ChannelRow.Is id ch.owner)
              (fun r => { r with name := ch.name, metadata := metadataValue ch.metadata })
              d.channels },
          (selectWhere (ChannelRow.Is id ch.owner) d.channels).length)
      else .error .stringDataRightTruncation

/-- `DELETE FROM channels WHERE id AND owner`, cascading to `connections`. -/
def deleteChannel (owner id : String) (d : DB) : Except PqError DB :=
  match uuidIn id with
  | none => .error .invalidTextRepresentation
  | some id =>
      .ok { d with
        channels := deleteWhere (ChannelRow.Is id owner) d.channels
        connections := deleteWhere (ConnectionRow.OfChannel id owner) d.connections }

/-- `INSERT INTO connections (...) VALUES (:channel, :owner, :thing, :owner)`.
The primary key is checked when the row is written, the foreign keys at the
end of the statement. -/
def insertConnection (owner chID thID : String) (d : DB) : Except PqError DB :=
  match uuidIn chID, uuidIn thID with
  | some ch, some th =>
      if fitsVarchar 254 owner then
        if (⟨ch, owner, th, owner⟩ : ConnectionRow) ∈ d.connections then .error .uniqueViolation
        else if (∃ r ∈ d.channels, r.Is ch owner) ∧ ∃ r ∈ d.things, r.Is th owner then
          .ok { d with connections := d.connections ++ [⟨ch, owner, th, owner⟩] }
        else .error .foreignKeyViolation
      else .error .stringDataRightTruncation
  | _, _ => .error .invalidTextRepresentation

/-- `DELETE FROM connections WHERE channel_id AND channel_owner AND thing_id
AND thing_owner`. -/
def deleteConnection (owner chanID thingID : String) (d : DB) : Except PqError (DB × Nat) :=
  match uuidIn chanID, uuidIn thingID with
  | some ch, some th =>
      .ok ({ d with
          connections := deleteWhere (fun co => co = ⟨ch, owner, th, owner⟩) d.connections },
        (selectWhere (fun co => co = ⟨ch, owner, th, owner⟩) d.connections).length)
  | _, _ => .error .invalidTextRepresentation

/-- `SELECT EXISTS (SELECT 1 FROM connections WHERE channel_id = $1 AND
thing_id = $2)`: the owners play no part. -/
def existsConnection (chanID thingID : String) (d : DB) : Except PqError Bool :=
  match uuidIn chanID, uuidIn thingID with
  | some ch, some th => .ok (∃ co ∈ d.connections, co.channelID = ch ∧ co.thingID = th)
  | _, _ => .error .invalidTextRepresentation

/-! ## §4. `thingRepository`. -/

namespace ThingRepository

/-- The error mapping of `Save`. -/
def saveErr : PqError → Err
  | .invalidTextRepresentation => .malformedEntity
  | .stringDataRightTruncation => .malformedEntity
  | .uniqueViolation => .conflict
  | e => .pq e

/-- `thingRepository.Save`: one transaction; a failed insert rolls back. -/
def save (ths : List Thing) (d : DB) : DB × Except Err (List Thing) :=
  match transaction (ths.map insertThing) d with
  | .ok d' => (d', .ok ths)
  | .error e => (d, .error (saveErr e))

/-- `thingRepository.Update`. -/
def update (th : Thing) (d : DB) : DB × Except Err Unit :=
  match updateThing th d with
  | .error .invalidTextRepresentation => (d, .error .malformedEntity)
  | .error .stringDataRightTruncation => (d, .error .malformedEntity)
  | .error e => (d, .error (.pq e))
  | .ok (d', cnt) => (d', if cnt = 0 then .error .notFound else .ok ())

/-- `thingRepository.UpdateKey`. -/
def updateKey (owner id key : String) (d : DB) : DB × Except Err Unit :=
  match updateThingKey owner id key d with
  | .error .invalidTextRepresentation => (d, .error .malformedEntity)
  | .error .uniqueViolation => (d, .error .conflict)
  | .error e => (d, .error (.pq e))
  | .ok (d', cnt) => (d', if cnt = 0 then .error .notFound else .ok ())

/-- `thingRepository.RetrieveByKey`. -/
def retrieveByKey (key : String) (d : DB) : Except Err String :=
  match selectThingID key d with
  | some id => .ok id
  | none => .error .notFound

/-- `thingRepository.Remove`: the outcome of the statement is dropped. -/
def remove (owner id : String) (d : DB) : DB × Except Err Unit :=
  match deleteThing owner id d with
  | .ok d' => (d', .ok ())
  | .error _ => (d, .ok ())

end ThingRepository

/-! ## §5. `channelRepository`. -/

namespace ChannelRepository

/-- `channelRepository.Save`: one transaction; a failed insert rolls back.
The error mapping is that of `thingRepository.Save`. -/
def save (chs : List Channel) (d : DB) : DB × Except Err (List Channel) :=
  match transaction (chs.map insertChannel) d with
  | .ok d' => (d', .ok chs)
  | .error e => (d, .error (ThingRepository.saveErr e))

/-- `channelRepository.Update`. -/
def update (ch : Channel) (d : DB) : DB × Except Err Unit :=
  match updateChannel ch d with
  | .error .invalidTextRepresentation => (d, .error .malformedEntity)
  | .error .stringDataRightTruncation => (d, .error .malformedEntity)
  | .error e => (d, .error (.pq e))
  | .ok (d', cnt) => (d', if cnt = 0 then .error .notFound else .ok ())

/-- `channelRepository.Remove`: the outcome of the statement is dropped. -/
def remove (owner id : String) (d : DB) : DB × Except Err Unit :=
  match deleteChannel owner id d with
  | .ok d' => (d', .ok ())
  | .error _ => (d, .ok ())

/-- The inserts of `Connect`, in the order of its two loops. -/
def connectStmts (owner : String) (chIDs thIDs : List String) : List (DB → Except PqError DB) :=
  chIDs.flatMap (fun chID => thIDs.map (fun thID => insertConnection owner chID thID))

/-- `channelRepository.Connect`: one transaction over the product. -/
def connect (owner : String) (chIDs thIDs : List String) (d : DB) : DB × Except Err Unit :=
  match transaction (connectStmts owner chIDs thIDs) d with
  | .ok d' => (d', .ok ())
  | .error .foreignKeyViolation => (d, .error .notFound)
  | .error .uniqueViolation => (d, .error .conflict)
  | .error e => (d, .error (.pq e))

/-- `channelRepository.Disconnect`. -/
def disconnect (owner chanID thingID : String) (d : DB) : DB × Except Err Unit :=
  match deleteConnection owner chanID thingID d with
  | .error e => (d, .error (.pq e))
  | .ok (d', cnt) => (d', if cnt = 0 then .error .notFound else .ok ())

/-- The first query of `channelRepository.HasThing`. -/
def thingID (key : String) (d : DB) : Except Err String :=
  match selectThingID key d with
  | some id => .ok id
  | none => .error .noRows

/-- `channelRepository.hasThing`. -/
def hasThing (chanID thingID : String) (d : DB) : Except Err Unit :=
  match existsConnection chanID thingID d with
  | .error e => .error (.pq e)
  | .ok false => .error .unauthorizedAccess
  | .ok true => .ok ()

end ChannelRepository

/-! ## §6. What the queries say of the tables. -/

/-- The tables hold a connection row between the channel and the thing the two
texts denote, under whatever owners. -/
def DB.Connected (d : DB) (c t : String) : Prop :=
  ∃ co ∈ d.connections, uuidIn c = some co.channelID ∧ uuidIn t = some co.thingID

instance (d : DB) (c t : String) : Decidable (d.Connected c t) :=
  inferInstanceAs (Decidable (∃ co ∈ d.connections, _))

theorem hasThing_eq_ok {d : DB} {c t : String} :
    ChannelRepository.hasThing c t d = .ok () ↔ d.Connected c t := by
  unfold ChannelRepository.hasThing existsConnection DB.Connected
  cases hc : uuidIn c with
  | none => simp
  | some ch =>
      cases ht : uuidIn t with
      | none => simp
      | some th =>
          simp only [Option.some.injEq]
          by_cases h : ∃ co ∈ d.connections, co.channelID = ch ∧ co.thingID = th
          · simp only [h, decide_true, true_iff]
            simpa only [eq_comm] using h
          · simp only [h, decide_false, reduceCtorEq, false_iff]
            simpa only [eq_comm] using h

/-- What the tables alone grant to a key on a channel. -/
def DB.grantByKey (d : DB) (c key : String) : Option String :=
  match selectThingID key d with
  | some t => if d.Connected c t then some t else none
  | none => none

theorem selectThingID_eq_some {d : DB} {key t : String} (h : selectThingID key d = some t) :
    ∃ th ∈ d.things, th.key = key ∧ t = uuidOut th.id := by
  unfold selectThingID at h
  obtain ⟨th, hfind, rfl⟩ := Option.map_eq_some_iff.mp h
  exact ⟨th, List.mem_of_find?_eq_some hfind, by simpa using List.find?_some hfind, rfl⟩

theorem grantByKey_eq_some {d : DB} {c key t : String} (h : d.grantByKey c key = some t) :
    selectThingID key d = some t ∧ d.Connected c t := by
  unfold DB.grantByKey at h
  split at h
  next t' ht' =>
      split at h
      next hc => cases h; exact ⟨ht', hc⟩
      next => cases h
  next => cases h

/-! ## §7. What a statement that succeeds has done. -/

section Inversion

variable {d d' : DB} {n : Nat} {owner id key : String}

theorem insertThing_ok {th : Thing} (h : insertThing th d = .ok d') :
    ∃ u, uuidIn th.id = some u ∧
      (fitsVarchar 254 th.owner ∧ fitsVarchar 4096 th.key ∧ fitsVarchar 1024 th.name) ∧
      (∀ r ∈ d.things, ¬ r.Is u th.owner ∧ r.key ≠ th.key) ∧
      d' = { d with
        things := d.things
          ++ [⟨u, th.owner, th.name, th.key, metadataObject th.metadata⟩] } := by
  unfold insertThing at h
  split at h
  next => cases h
  next u hu =>
      split at h
      next hfit =>
          split at h
          next => cases h
          next hfree =>
              cases h
              refine ⟨u, hu, hfit, ?_, rfl⟩
              intro r hr
              exact not_or.mp fun hbad => hfree ⟨r, hr, hbad⟩
      next => cases h

theorem updateThing_ok {th : Thing} (h : updateThing th d = .ok (d', n)) :
    ∃ u, uuidIn th.id = some u ∧ fitsVarchar 1024 th.name ∧
      d' = { d with
        things := updateWhere (ThingRow.Is u th.owner)
          (fun r => { r with name := th.name, metadata := metadataObject th.metadata }) d.things } := by
  unfold updateThing at h
  split at h
  next => cases h
  next u hu =>
      split at h
      next hfit => cases h; exact ⟨u, hu, hfit, rfl⟩
      next => cases h

theorem updateThingKey_ok (h : updateThingKey owner id key d = .ok (d', n)) :
    ∃ u, uuidIn id = some u ∧ fitsVarchar 4096 key ∧
      ((∃ r ∈ d.things, r.Is u owner) → ∀ r ∈ d.things, ¬ r.Is u owner → r.key ≠ key) ∧
      n = (selectWhere (ThingRow.Is u owner) d.things).length ∧
      d' = { d with
        things := updateWhere (ThingRow.Is u owner) (fun r => { r with key := key })
          d.things } := by
  unfold updateThingKey at h
  split at h
  next => cases h
  next u hu =>
      split at h
      next hfit =>
          split at h
          next => cases h
          next hfree =>
              cases h
              refine ⟨u, hu, hfit, ?_, rfl, rfl⟩
              intro hex r hr hne hkey
              exact hfree ⟨hex, r, hr, hne, hkey⟩
      next => cases h

theorem deleteThing_ok (h : deleteThing owner id d = .ok d') :
    ∃ u, uuidIn id = some u ∧
      d' = { d with
        things := deleteWhere (ThingRow.Is u owner) d.things
        connections := deleteWhere (ConnectionRow.OfThing u owner) d.connections } := by
  unfold deleteThing at h
  split at h
  next => cases h
  next u hu => cases h; exact ⟨u, hu, rfl⟩

theorem insertChannel_ok {ch : Channel} (h : insertChannel ch d = .ok d') :
    ∃ u, uuidIn ch.id = some u ∧
      (fitsVarchar 254 ch.owner ∧ fitsVarchar 1024 ch.name) ∧
      (∀ r ∈ d.channels, ¬ r.Is u ch.owner) ∧
      d' = { d with
        channels := d.channels ++ [⟨u, ch.owner, ch.name, metadataValue ch.metadata⟩] } := by
  unfold insertChannel at h
  split at h
  next => cases h
  next u hu =>
      split at h
      next hfit =>
          split at h
          next => cases h
          next hfree =>
              cases h
              exact ⟨u, hu, hfit, fun r hr hbad => hfree ⟨r, hr, hbad⟩, rfl⟩
      next => cases h

theorem updateChannel_ok {ch : Channel} (h : updateChannel ch d = .ok (d', n)) :
    ∃ u, uuidIn ch.id = some u ∧ fitsVarchar 1024 ch.name ∧
      n = (selectWhere (ChannelRow.Is u ch.owner) d.channels).length ∧
      d' = { d with
        channels := updateWhere (ChannelRow.Is u ch.owner)
          (fun r => { r with name := ch.name, metadata := metadataValue ch.metadata })
          d.channels } := by
  unfold updateChannel at h
  split at h
  next => cases h
  next u hu =>
      split at h
      next hfit => cases h; exact ⟨u, hu, hfit, rfl, rfl⟩
      next => cases h

theorem deleteChannel_ok (h : deleteChannel owner id d = .ok d') :
    ∃ u, uuidIn id = some u ∧
      d' = { d with
        channels := deleteWhere (ChannelRow.Is u owner) d.channels
        connections := deleteWhere (ConnectionRow.OfChannel u owner) d.connections } := by
  unfold deleteChannel at h
  split at h
  next => cases h
  next u hu => cases h; exact ⟨u, hu, rfl⟩

theorem insertConnection_ok {chID thID : String} (h : insertConnection owner chID thID d = .ok d') :
    ∃ ch th, uuidIn chID = some ch ∧ uuidIn thID = some th ∧
      (⟨ch, owner, th, owner⟩ : ConnectionRow) ∉ d.connections ∧
      (∃ r ∈ d.channels, r.Is ch owner) ∧ (∃ r ∈ d.things, r.Is th owner) ∧
      d' = { d with connections := d.connections ++ [⟨ch, owner, th, owner⟩] } := by
  unfold insertConnection at h
  split at h
  next ch th hch hth =>
      split at h
      next =>
          split at h
          next => cases h
          next hnew =>
              split at h
              next hfk => cases h; exact ⟨ch, th, hch, hth, hnew, hfk.1, hfk.2, rfl⟩
              next => cases h
      next => cases h
  next => cases h

theorem deleteConnection_ok {c t : String} (h : deleteConnection owner c t d = .ok (d', n)) :
    ∃ ch th, uuidIn c = some ch ∧ uuidIn t = some th ∧
      n = (selectWhere (fun co => co = ⟨ch, owner, th, owner⟩) d.connections).length ∧
      d' = { d with
        connections := deleteWhere (fun co => co = ⟨ch, owner, th, owner⟩) d.connections } := by
  unfold deleteConnection at h
  split at h
  next ch th hch hth => cases h; exact ⟨ch, th, hch, hth, rfl, rfl⟩
  next => cases h

end Inversion

end Mainflux.Things
