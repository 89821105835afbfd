/-
  Mainflux.Adapters.OpcuaSubscribe
  ────────────────────────────────
  **WHAT A SUBSCRIPTION OF THE OPC-UA ADAPTER DOES WITH A DATA CHANGE.**

  `opcua/gopcua/subscribe.go`.  The handler of a subscription turns each item that
  the server reports into a message under the server and the node of its
  configuration (`messageOf`); `publish` finds channel and thing in the route maps
  and writes the payload.
-/
import Mainflux.Adapters.Opcua
import Mainflux.Adapters.OpcuaValues
import Mainflux.Lib.FloatText

namespace Mainflux.Adapters.Opcua

open Mainflux.Lib

open FlatJson (writeNat)

/-! ## §1. The handler. -/

/-- A monitored item of a notification, as the handler reads it. -/
structure Item where
  value : Variant
  sourceTimestamp : Time

/-- What `Data` of a message holds. -/
inductive Data
  | bool (b : Bool)
  | int64 (n : Int64)
  | uint64 (n : UInt64)
  | float64 (x : Binary64)
  | string (s : String)
  | int (n : Int)
  deriving DecidableEq

/-- `opcua.Message`. -/
structure Message where
  serverURI : String
  nodeID : String
  type : String
  time : Int
  data : Data
  deriving DecidableEq

/-- The conversion of `runHandler`; every other type is sent as `0`. -/
def dataOf (v : Variant) : Data :=
  match v.type with
  | .boolean => .bool v.bool
  | .int64 => .int64 v.int
  | .uint64 => .uint64 v.uint
  | .float | .double => .float64 v.float
  | .string => .string v.string
  | _ => .int 0

/-- The message of an item; server and node are those of the subscription. -/
def messageOf (serverURI nodeID : String) (item : Item) : Message where
  serverURI := serverURI
  nodeID := nodeID
  type := item.value.type.toString
  time := item.sourceTimestamp.seconds
  data := dataOf item.value

/-! ## §2. Publishing. -/

/-- `%d`. -/
def writeInt (n : Int) : List Char := (if n < 0 then ['-'] else []) ++ writeNat n.natAbs

/-- `%v`. -/
def Data.format : Data → List Char
  | .bool true => ['t', 'r', 'u', 'e']
  | .bool false => ['f', 'a', 'l', 's', 'e']
  | .int64 n => writeInt n.toInt
  | .uint64 n => writeNat n.toNat
  | .float64 x => x.format
  | .string s => s.toList
  | .int n => writeInt n

/-- The payload. -/
def senML (m : Message) : List Char :=
  "[\x7b\"n\":\"".toList ++ m.type.toList ++ "\", \"t\": ".toList ++ writeInt m.time ++
    ", \"v\":".toList ++ m.data.format ++ "\x7d]".toList

/-- The message for the broker. -/
structure Published where
  publisher : String
  channel : String
  payload : List Char
  deriving DecidableEq

inductive PublishErr
  | notFoundServerURI
  | notFoundNodeID
  | notFoundConn
  deriving DecidableEq

/-- The key of a connection. -/
def connKey (chanID thingID : String) : String := s!"{chanID}:{thingID}"

/-- `publish`, up to the broker; Redis serves every command. -/
def publish (m : Message) (r : Redis) : Except PublishErr Published :=
  match channelsRM.get m.serverURI .done r with
  | .error _ => .error .notFoundServerURI
  | .ok chanID =>
      match thingsRM.get m.nodeID .done r with
      | .error _ => .error .notFoundNodeID
      | .ok thingID =>
          match connectRM.get (connKey chanID thingID) .done r with
          | .error _ => .error .notFoundConn
          | .ok _ => .ok ⟨thingID, chanID, senML m⟩

/-- **A message is published under the channel and the thing that `Get` finds,
if their connection is there.** -/
theorem publish_eq_ok {m : Message} {r : Redis} {p : Published} :
    publish m r = .ok p ↔
      channelsRM.get m.serverURI .done r = .ok p.channel ∧
        thingsRM.get m.nodeID .done r = .ok p.publisher ∧
        (∃ v, connectRM.get (connKey p.channel p.publisher) .done r = .ok v) ∧
        p.payload = senML m := by
  unfold publish
  constructor
  · intro h
    split at h
    next => cases h
    next chanID hchan =>
        split at h
        next => cases h
        next thingID hthing =>
            split at h
            next => cases h
            next v hconn =>
                cases h
                exact ⟨hchan, hthing, ⟨v, hconn⟩, rfl⟩
  · rcases p with ⟨publisher, channel, payload⟩
    rintro ⟨hchan, hthing, ⟨v, hconn⟩, rfl⟩
    simp only [hchan, hthing, hconn]

end Mainflux.Adapters.Opcua
