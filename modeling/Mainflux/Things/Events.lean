/-
  Mainflux.Things.Events
  ──────────────────────
  **THE EVENT-STORE MIDDLEWARE OF THE THINGS SERVICE.**

  `redis/streams.go` wraps the service: it calls the wrapped method, returns
  its error, and after a nil error appends one record (or one record per
  entity) to the stream `mainflux.things`.  `redis/events.go` encodes an event
  as a field map; empty names and nil metadata leave no field.

  `json.Marshal` of a metadata map enters the records only as a text, so it is
  a parameter of the encoding.
-/
import Mainflux.Things.Service

namespace Mainflux.Things

open Mainflux.Lib

/-! ## §1. Events and their records. -/

/-- The events of `redis/events.go`. -/
inductive Event
  | createThing (id owner name : String) (metadata : Metadata)
  | updateThing (id name : String) (metadata : Metadata)
  | removeThing (id : String)
  | createChannel (id owner name : String) (metadata : Metadata)
  | updateChannel (id name : String) (metadata : Metadata)
  | removeChannel (id : String)
  | connectThing (chanID thingID : String)
  | disconnectThing (chanID thingID : String)
  deriving DecidableEq

/-- A stream record: the fields of a `map[string]interface{}` whose values are
all strings. -/
abbrev Record := List (String × String)

def thingPrefix : String := "thing."

def channelPrefix : String := "channel."

section Encode

variable (marshal : JsonObject → String)

/-- `if name != "" { val["name"] = name }`. -/
def nameField (name : String) : Record := if name = "" then [] else [("name", name)]

/-- `if metadata != nil { val["metadata"] = string(json.Marshal(metadata)) }`. -/
def metadataField : Metadata → Record
  | none => []
  | some m => [("metadata", marshal m)]

/-- `Encode`. -/
def Event.encode : Event → Record
  | .createThing id owner name metadata =>
      [("id", id), ("owner", owner), ("operation", thingPrefix ++ "create")]
        ++ nameField name ++ metadataField marshal metadata
  | .updateThing id name metadata =>
      [("id", id), ("operation", thingPrefix ++ "update")]
        ++ nameField name ++ metadataField marshal metadata
  | .removeThing id => [("id", id), ("operation", thingPrefix ++ "remove")]
  | .createChannel id owner name metadata =>
      [("id", id), ("owner", owner), ("operation", channelPrefix ++ "create")]
        ++ nameField name ++ metadataField marshal metadata
  | .updateChannel id name metadata =>
      [("id", id), ("operation", channelPrefix ++ "update")]
        ++ nameField name ++ metadataField marshal metadata
  | .removeChannel id => [("id", id), ("operation", channelPrefix ++ "remove")]
  | .connectThing chanID thingID =>
      [("chan_id", chanID), ("thing_id", thingID), ("operation", thingPrefix ++ "connect")]
  | .disconnectThing chanID thingID =>
      [("chan_id", chanID), ("thing_id", thingID), ("operation", thingPrefix ++ "disconnect")]

end Encode

/-! ## §2. The middleware. -/

/-- The events the middleware appends after the wrapped service has replied. -/
def emit : Call → Reply → List Event
  | .createThings _ _, .things (.ok sths) =>
      sths.map fun th => .createThing th.id th.owner th.name th.metadata
  | .updateThing _ thing, .done (.ok ()) =>
      [.updateThing thing.id thing.name thing.metadata]
  -- the key is never sent over the stream
  | .updateKey _ _ _, _ => []
  | .removeThing _ id, .done (.ok ()) => [.removeThing id]
  | .createChannels _ _, .channels (.ok schs) =>
      schs.map fun ch => .createChannel ch.id ch.owner ch.name ch.metadata
  | .updateChannel _ channel, .done (.ok ()) =>
      [.updateChannel channel.id channel.name channel.metadata]
  | .removeChannel _ id, .done (.ok ()) => [.removeChannel id]
  | .connect _ chIDs thIDs, .done (.ok ()) =>
      chIDs.flatMap fun chID => thIDs.map fun thID => .connectThing chID thID
  | .disconnect _ chanID thingID, .done (.ok ()) => [.disconnectThing chanID thingID]
  | _, _ => []

/-- One request through the middleware: the state afterwards, the reply and
what was appended to the stream. -/
def eventStore (E : Env) (w : World) (call : Call) : World × Reply × List Event :=
  ((step E w call).1, (step E w call).2, emit call (step E w call).2)

/-- The events of one request. -/
def events (E : Env) (w : World) (call : Call) : List Event := (eventStore E w call).2.2

section Emitted

variable {E : Env} {w : World} {token o : String} (hauth : E.auth w.tick token = some o)
include hauth

/-- `RemoveThing` is announced whatever the repository did. -/
theorem events_removeThing (id : String) :
    events E w (.removeThing token id) = [.removeThing id] := by
  have hok : (ThingRepository.remove o id w.db).2 = .ok () := by
    unfold ThingRepository.remove
    split <;> rfl
  simp only [events, eventStore, step_removeThing hauth, hok, emit]

/-- `RemoveChannel` is announced whatever the repository did. -/
theorem events_removeChannel (id : String) :
    events E w (.removeChannel token id) = [.removeChannel id] := by
  have hok : (ChannelRepository.remove o id w.db).2 = .ok () := by
    unfold ChannelRepository.remove
    split <;> rfl
  simp only [events, eventStore, step_removeChannel hauth, hok, emit]

theorem events_updateChannel (ch : Channel) :
    events E w (.updateChannel token ch)
      = if (ChannelRepository.update { ch with owner := o } w.db).2 = .ok () then
          [.updateChannel ch.id ch.name ch.metadata]
        else [] := by
  simp only [events, eventStore, step_updateChannel hauth]
  cases h : (ChannelRepository.update { ch with owner := o } w.db).2 <;> simp [emit]

theorem events_disconnect (c t : String) :
    events E w (.disconnect token c t)
      = if (ChannelRepository.disconnect o c t w.db).2 = .ok () then [.disconnectThing c t]
        else [] := by
  simp only [events, eventStore, step_disconnect hauth]
  cases h : (ChannelRepository.disconnect o c t w.db).2 <;> simp [emit]

end Emitted

end Mainflux.Things
