/-
  Mainflux.Messaging.Handlers
  ───────────────────────────
  **THE HTTP AND THE WEBSOCKET HANDLER, statement by statement.**

  Both ask for the same things as the CoAP handler does, so they are programs over its
  signature: whether the key may use the channel, and then to publish, or to subscribe
  and to publish every frame that is read.  The HTTP handler decodes the request before
  it asks, the WebSocket handler afterwards.
-/
import Mainflux.Coap.Transport
import Mainflux.Messaging.Subject

namespace Mainflux.Messaging

open Mainflux.Lib

open Coap.Api (Sig cmd RpcError)

/-! ## §1. HTTP. -/

namespace Http

/-- A POST; `body` is `none` when reading it fails. -/
structure Request where
  uri : Text
  authorization : Text := []
  contentType : Text := []
  body : Option (List UInt8) := some []
  deriving DecidableEq

inductive Status
  | accepted
  | badRequest
  | forbidden
  | notFound
  | internalServerError
  | serviceUnavailable
  deriving DecidableEq

def protocol : Text := ['h', 't', 't', 'p']

/-- `decodeRequest`: the message, which has no publisher yet; `none` for `errMalformedData` and
`errMalformedSubtopic`. -/
def decodeRequest (chanID : Text) (r : Request) : Option Coap.Api.Publication :=
  match channelPart r.uri with
  | none => none
  | some (_, part) =>
      match Messaging.parseSubtopic part, r.body with
      | some subtopic, some payload =>
          some { protocol := protocol, contentType := r.contentType, channel := chanID,
                 subtopic := subtopic, publisher := [], payload := payload }
      | _, _ => none

/-- `encodeError` on an error of the things service. -/
def encodeError : RpcError → Status
  | .status .permissionDenied => .forbidden
  | .status .other => .serviceUnavailable
  | .plain => .internalServerError

/-- `adapterService.Publish` between `decodeRequest` and the two encoders. -/
def publish (token : Text) (msg : Coap.Api.Publication) : Prog Sig Status := do
  let thid ← cmd (.canAccessByKey token msg.channel)
  match thid.err with
  | some e => return encodeError e
  | none =>
      match ← cmd (.publish { msg with publisher := thid.value }) with
      -- an error of the broker has no status of gRPC
      | some _ => return .internalServerError
      | none => return .accepted

/-- The route and its handler. -/
def serve (r : Request) : Prog Sig Status :=
  match route r.uri with
  | none => return .notFound
  | some chanID =>
      match decodeRequest chanID r with
      | none => return .badRequest
      | some msg => publish r.authorization msg

end Http

/-! ## §2. WebSocket. -/

namespace Ws

/-- A GET with the two headers; `upgrades` tells whether the connection is upgraded, and `frames` are
the payloads that are read from it. -/
structure Handshake where
  uri : Text
  authorization : Text := []
  contentType : Text := []
  upgrades : Bool := true
  frames : List (List UInt8) := []
  deriving DecidableEq

inductive Reply
  | notFound
  | forbidden
  | badRequest
  | serviceUnavailable
  | notUpgraded
  /-- The connection is closed at once. -/
  | notSubscribed
  /-- The connection was used until no frame was left, or the broker was gone. -/
  | broadcast
  deriving DecidableEq

def protocol : Text := ['w', 's']

def contentTypeKey : Text := ['c', 'o', 'n', 't', 'e', 'n', 't', '-', 't', 'y', 'p', 'e']

/-- `authKey` of `authorize`. -/
def authKey (r : Handshake) : Option Text :=
  if r.authorization = [] then (getQuery r.uri Coap.Api.authorization).head?
  else some r.authorization

/-- `contentType`. -/
def contentType (r : Handshake) : Text :=
  if r.contentType = [] then ((getQuery r.uri contentTypeKey).head?).getD [] else r.contentType

/-- `subscription`. -/
structure Subscription where
  pubID : Text
  chanID : Text
  subtopic : Text
  deriving DecidableEq

/-- `broadcast`. -/
def broadcast (sub : Subscription) (contentType : Text) : List (List UInt8) → Prog Sig Unit
  | [] => return ()
  | payload :: reads => do
      match ← cmd (.publish ⟨sub.chanID, sub.subtopic, sub.pubID, contentType, protocol, payload⟩) with
      | some .failedConnection => return ()
      -- any other error is logged
      | _ => broadcast sub contentType reads

/-- The rest of `handshake`, once the client is authorized as `pubID`. -/
def connect (r : Handshake) (pubID chanID : Text) : Prog Sig Reply :=
  match channelPart r.uri with
  | none => return .badRequest
  | some (_, part) =>
      match Messaging.parseSubtopic part with
      | none => return .badRequest
      | some subtopic =>
          if r.upgrades then do
            -- there is no id to subscribe under
            match ← cmd (.subscribe chanID subtopic []) with
            | some _ => return .notSubscribed
            | none =>
                broadcast ⟨pubID, chanID, subtopic⟩ (contentType r) r.frames
                return .broadcast
          else return .notUpgraded

/-- The route and `handshake`. -/
def serve (r : Handshake) : Prog Sig Reply :=
  match route r.uri with
  | none => return .notFound
  | some chanID =>
      match authKey r with
      | none => return .forbidden
      | some key => do
          let id ← cmd (.canAccessByKey key chanID)
          match id.err with
          | some (.status .permissionDenied) => return .forbidden
          | some _ => return .serviceUnavailable
          | none => connect r id.value chanID

end Ws

end Mainflux.Messaging
