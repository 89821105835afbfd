/-
  Mainflux.Adapters.Lora
  ──────────────────────
  **THE LORA ADAPTER AS A CONSUMER OF THE THINGS STREAM.**

  `lora/redis/streams.go` (decoders and the switch of `Subscribe`),
  `lora/redis/routemap.go` and the methods of `lora/service.go` they reach.
-/
import Mainflux.Adapters.RouteMap

namespace Mainflux.Adapters.Lora

open Mainflux.Lib

open Mainflux.Things (Record)

/-! ## §1. Decoding. -/

structure CreateThingEvent where
  id : String
  loraDevEUI : String
  deriving DecidableEq

structure CreateChannelEvent where
  id : String
  loraAppID : String
  deriving DecidableEq

/-- `decodeCreateThing`. -/
def decodeCreateThing (event : Record) : Except Err CreateThingEvent := do
  let metadata ← readMetadata event
  let lm ← protocolFields "lora" metadata
  let val ← textField "devEUI" lm
  return ⟨read event "id" "", val⟩

/-- `decodeRemoveThing`. -/
def decodeRemoveThing (event : Record) : String := read event "id" ""

/-- `decodeCreateChannel`. -/
def decodeCreateChannel (event : Record) : Except Err CreateChannelEvent := do
  let metadata ← readMetadata event
  let lm ← protocolFields "lora" metadata
  let val ← textField "appID" lm
  return ⟨read event "id" "", val⟩

/-- `decodeRemoveChannel`. -/
def decodeRemoveChannel (event : Record) : String := read event "id" ""

/-- A record as the switch of `Subscribe` takes it. -/
inductive Decoded
  | createThing (ev : CreateThingEvent)
  | removeThing (id : String)
  | createChannel (ev : CreateChannelEvent)
  | removeChannel (id : String)
  -- an operation the adapter does not know
  | skipped
  deriving DecidableEq

/-- The decoder each operation goes to; an update is a creation. -/
def decode (event : Record) : Except Err Decoded :=
  let operation := read event "operation" ""
  if operation = "thing.create" then (decodeCreateThing event).map .createThing
  else if operation = "thing.update" then (decodeCreateThing event).map .createThing
  else if operation = "thing.remove" then .ok (.removeThing (decodeRemoveThing event))
  else if operation = "channel.create" then (decodeCreateChannel event).map .createChannel
  else if operation = "channel.update" then (decodeCreateChannel event).map .createChannel
  else if operation = "channel.remove" then .ok (.removeChannel (decodeRemoveChannel event))
  else .ok .skipped

/-! ## §2. Handling. -/

/-- `NewRouteMapRepository(client, prefix)`. -/
def routeMap (keys : String) : RouteMap where
  mfxKey := fun mfxID => s!"{keys}:mfx:lora:{mfxID}"
  protocolKey := fun loraID => s!"{keys}:lora:mfx:{loraID}"

def thingsRM : RouteMap := routeMap "thing"

def channelsRM : RouteMap := routeMap "channel"

/-- The service methods the handlers call. -/
def apply (answers : Nat → Answer) : Decoded → Redis → Redis × Option Err
  | .createThing ev, r => thingsRM.save ev.id ev.loraDevEUI answers r
  | .removeThing id, r => thingsRM.remove id answers r
  | .createChannel ev, r => channelsRM.save ev.id ev.loraAppID answers r
  | .removeChannel id, r => channelsRM.remove id answers r
  | .skipped, r => (r, none)

/-- One record; what the service's commands answered is given with it. -/
def handle (event : Record) (answers : Nat → Answer) (r : Redis) : Redis × Option Err :=
  match decode event with
  | .ok d => apply answers d r
  | .error e => (r, some e)

end Mainflux.Adapters.Lora
