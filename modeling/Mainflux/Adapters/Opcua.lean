/-
  Mainflux.Adapters.Opcua
  ───────────────────────
  **THE OPC-UA ADAPTER AS A CONSUMER OF THE THINGS STREAM.**

  `opcua/redis/streams.go` (decoders and the switch of `Subscribe`),
  `opcua/redis/routemap.go` and the methods of `opcua/service.go` they reach.
  Unlike LoRa it refuses empty ids, handles connections, and starts a
  subscription for each.
-/
import Mainflux.Adapters.RouteMap

namespace Mainflux.Adapters.Opcua

open Mainflux.Lib

open Mainflux.Things (Record)

/-! ## §1. Decoding. -/

structure CreateThingEvent where
  id : String
  opcuaNodeID : String
  deriving DecidableEq

structure CreateChannelEvent where
  id : String
  opcuaServerURI : String
  deriving DecidableEq

structure ConnectThingEvent where
  chanID : String
  thingID : String
  deriving DecidableEq

/-- The text must not be empty. -/
def nonEmptyField (field : String) (fields : JsonObject) : Except Err String := do
  let val ← textField field fields
  if val = "" then throw (.metadataField field)
  return val

/-- `decodeCreateThing`. -/
def decodeCreateThing (event : Record) : Except Err CreateThingEvent := do
  let metadata ← readMetadata event
  let metadataVal ← protocolFields "opcua" metadata
  let val ← nonEmptyField "nodeID" metadataVal
  return ⟨read event "id" "", val⟩

/-- `decodeRemoveThing`. -/
def decodeRemoveThing (event : Record) : String := read event "id" ""

/-- `decodeCreateChannel`. -/
def decodeCreateChannel (event : Record) : Except Err CreateChannelEvent := do
  let metadata ← readMetadata event
  let metadataVal ← protocolFields "opcua" metadata
  let val ← nonEmptyField "serverURI" metadataVal
  return ⟨read event "id" "", val⟩

/-- `decodeRemoveChannel`. -/
def decodeRemoveChannel (event : Record) : String := read event "id" ""

/-- `decodeConnectThing`, and `decodeDisconnectThing` with the same body. -/
def decodeConnectThing (event : Record) : ConnectThingEvent :=
  ⟨read event "chan_id" "", read event "thing_id" ""⟩

/-- A record as the switch of `Subscribe` takes it. -/
inductive Decoded
  | createThing (ev : CreateThingEvent)
  | removeThing (id : String)
  | createChannel (ev : CreateChannelEvent)
  | removeChannel (id : String)
  | connectThing (ev : ConnectThingEvent)
  | disconnectThing (ev : ConnectThingEvent)
  -- an operation the adapter does not know
  | skipped
  deriving DecidableEq

/-- The decoder each operation goes to; an update is a creation. -/
def decode (event : Record) : Except Err Decoded :=
  let operation := read event "operation" ""
  if operation = "thing.create" then (decodeCreateThing event).map .createThing
  else if operation = "thing.update" then (decodeCreateThing event).map .createThing
  else if operation = "thing.remove" then .ok (.removeThing (decodeRemoveThing event))
  else if operation = "channel.create" then (decodeCreateChannel event).map .createChannel
  else if operation = "channel.update" then (decodeCreateChannel event).map .createChannel
  else if operation = "channel.remove" then .ok (.removeChannel (decodeRemoveChannel event))
  else if operation = "thing.connect" then .ok (.connectThing (decodeConnectThing event))
  else if operation = "thing.disconnect" then .ok (.disconnectThing (decodeConnectThing event))
  else .ok .skipped

/-! ## §2. Handling. -/

/-- `NewRouteMapRepository(client, prefix)`: both directions share one key
format. -/
def routeMap (keys : String) : RouteMap where
  mfxKey := fun mfxID => s!"{keys}:{mfxID}"
  protocolKey := fun opcuaID => s!"{keys}:{opcuaID}"

def thingsRM : RouteMap := routeMap "thing"

def channelsRM : RouteMap := routeMap "channel"

def connectRM : RouteMap := routeMap "connection"

/-- The adapter: its route maps, and the subscriptions (server and node) it has
started. -/
structure State where
  redis : Redis
  subscriptions : List (String × String)

/-- The state with the outcome of a route map method. -/
def State.set (s : State) (x : Redis × Option Err) : State × Option Err :=
  ({ s with redis := x.1 }, x.2)

/-- `ConnectThing`: the subscription starts before the pair is saved. -/
def connectThing (ev : ConnectThingEvent) (answers : Nat → Answer) (s : State) :
    State × Option Err :=
  match channelsRM.get ev.chanID (answers 0) s.redis with
  | .error e => (s, some e)
  | .ok serverURI =>
      match thingsRM.get ev.thingID (answers 1) s.redis with
      | .error e => (s, some e)
      | .ok nodeID =>
          let c := s!"{ev.chanID}:{ev.thingID}"
          { s with subscriptions := s.subscriptions ++ [(serverURI, nodeID)] }.set
            (connectRM.save c c (fun i => answers (i + 2)) s.redis)

/-- The service methods the handlers call. -/
def apply (answers : Nat → Answer) : Decoded → State → State × Option Err
  | .createThing ev, s => s.set (thingsRM.save ev.id ev.opcuaNodeID answers s.redis)
  | .removeThing id, s => s.set (thingsRM.remove id answers s.redis)
  | .createChannel ev, s => s.set (channelsRM.save ev.id ev.opcuaServerURI answers s.redis)
  | .removeChannel id, s => s.set (channelsRM.remove id answers s.redis)
  | .connectThing ev, s => connectThing ev answers s
  | .disconnectThing ev, s =>
      s.set (connectRM.remove s!"{ev.chanID}:{ev.thingID}" answers s.redis)
  | .skipped, s => (s, none)

/-- One record; what the service's commands answered is given with it. -/
def handle (event : Record) (answers : Nat → Answer) (s : State) : State × Option Err :=
  match decode event with
  | .ok d => apply answers d s
  | .error e => (s, some e)

end Mainflux.Adapters.Opcua
