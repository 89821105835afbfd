/-
  Mainflux.Adapters.RouteMap
  ──────────────────────────
  **WHAT THE PROTOCOL ADAPTERS SHARE: stream fields, metadata, route maps.**

  The LoRa and OPC-UA adapters read the stream `mainflux.things`, take one
  text out of the metadata of a thing or channel and keep a two-way map between
  Mainflux ids and protocol ids in Redis.  Their packages repeat each other up
  to key formats and field names, which are parameters here.

  A command may fail: it is refused before it took effect, or its reply is lost
  after it did (`Answer`).  `get_served` and `remove_served` are the calls while
  none fails.
-/
import Mainflux.Lib.Json
import Mainflux.Lib.Redis
import Mainflux.Things.Events

namespace Mainflux.Adapters

open Mainflux.Lib

open Mainflux.Things (Record)

/-! ## §1. Errors and stream fields. -/

/-- The errors a handler can return. -/
inductive Err
  -- json.Unmarshal
  | malformedJSON
  -- errMetadataType: the metadata says nothing about the protocol
  | metadataType
  -- errMetadataFormat
  | metadataFormat
  -- errMetadataDevEUI, errMetadataAppID, errMetadataNodeID, errMetadataServerURI
  | metadataField (name : String)
  -- redis.Nil and WRONGTYPE
  | redis (e : Redis.Error)
  -- the command got no answer
  | noAnswer
  deriving DecidableEq

/-- `read`: the field, or the default. -/
def read (event : Record) (key default : String) : String := (event.lookup key).getD default

/-- The metadata of a record, the empty map when the record has none. -/
def readMetadata (event : Record) : Except Err JsonObject :=
  match Json.unmarshal (read event "metadata" "\x7b\x7d") with
  | some m => .ok (m.getD [])
  | none => .error .malformedJSON

/-- The object that the metadata holds under the name of the protocol. -/
def protocolFields (protocol : String) (metadata : JsonObject) : Except Err JsonObject :=
  match metadata.lookup protocol with
  | none => .error .metadataType
  | some (.obj fields) => .ok fields
  | some _ => .error .metadataFormat

/-- A text in it. -/
def textField (field : String) (fields : JsonObject) : Except Err String :=
  match fields.lookup field with
  | some (.str s) => .ok s
  | _ => .error (.metadataField field)

/-! ## §2. Commands that may fail. -/

/-- How a command ends: done, refused before it took effect, or done with the
reply lost. -/
inductive Answer
  | done
  | refused
  | lost
  deriving DecidableEq

/-- A command that changes a store. -/
def Answer.write {σ : Type} (a : Answer) (command : σ → σ) (s : σ) : σ × Option Err :=
  match a with
  | .done => (command s, none)
  | .refused => (s, some .noAnswer)
  | .lost => (command s, some .noAnswer)

/-- `GET`. -/
def Answer.get (a : Answer) (r : Redis) (key : String) : Except Err String :=
  if a = .done then (r.get key).mapError .redis else .error .noAnswer

/-! ## §3. The route map. -/

/-- A `routerMap`: the key a Mainflux id is stored at, and the key of a protocol
id. -/
structure RouteMap where
  mfxKey : String → String
  protocolKey : String → String

namespace RouteMap

variable (m : RouteMap)

/-- `Save`; the answers to its commands, in order. -/
def save (mfxID protocolID : String) (answers : Nat → Answer) (r : Redis) : Redis × Option Err :=
  match (answers 0).write (fun r => r.set (m.mfxKey mfxID) protocolID) r with
  | (r, some e) => (r, some e)
  | (r, none) => (answers 1).write (fun r => r.set (m.protocolKey protocolID) mfxID) r

/-- `Get`. -/
def get (id : String) (answer : Answer) (r : Redis) : Except Err String :=
  answer.get r (m.protocolKey id)

/-- `Remove`: an id the map does not hold is an error (`redis.Nil`). -/
def remove (mfxID : String) (answers : Nat → Answer) (r : Redis) : Redis × Option Err :=
  match (answers 0).get r (m.mfxKey mfxID) with
  | .error e => (r, some e)
  | .ok protocolID =>
      (answers 1).write (fun r => r.del [m.mfxKey mfxID, m.protocolKey protocolID]) r

/-! ## §4. While Redis serves every command. -/

variable {m}

theorem get_served {id v : String} {r : Redis} :
    m.get id .done r = .ok v ↔ r.lookup (m.protocolKey id) = some v := by
  show (r.get (m.protocolKey id)).mapError Err.redis = .ok v ↔ _
  rw [← Redis.get_eq_ok]
  cases r.get (m.protocolKey id) with
  | error e => exact iff_of_false (fun h => by cases h) fun h => by cases h
  | ok v => simp only [Except.mapError, Except.ok.injEq]

/-- `Remove`, as the commands that it issues. -/
theorem remove_served (mfxID : String) (r : Redis) :
    (m.remove mfxID (fun _ => .done) r).1
      = (r.lookup (m.mfxKey mfxID)).elim r fun protocolID =>
          r.del [m.mfxKey mfxID, m.protocolKey protocolID] := by
  have hget : ∀ v, r.get (m.mfxKey mfxID) = .ok v ↔ r.lookup (m.mfxKey mfxID) = some v :=
    fun v => Redis.get_eq_ok
  show (match (r.get (m.mfxKey mfxID)).mapError Err.redis with
    | .error e => (r, some e)
    | .ok l => (r.del [m.mfxKey mfxID, m.protocolKey l], none)).1 = _
  cases h : r.get (m.mfxKey mfxID) with
  | ok v =>
      rw [(hget v).mp h]
      rfl
  | error e =>
      have hnone : r.lookup (m.mfxKey mfxID) = none := by
        cases hlookup : r.lookup (m.mfxKey mfxID) with
        | none => rfl
        | some v =>
            rw [(hget v).mpr hlookup] at h
            cases h
      rw [hnone]
      rfl

end RouteMap

end Mainflux.Adapters
