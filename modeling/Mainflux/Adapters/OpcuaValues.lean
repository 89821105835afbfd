/-
  Mainflux.Adapters.OpcuaValues
  ─────────────────────────────
  **THE VALUES OF AN OPC-UA SERVER.**

  What the adapter uses of `ua.NodeID`, `ua.Variant` and the times of
  `ua.DataValue`.  A variant holds one value of its type; each accessor reads the
  types that it knows and answers every other with a zero value.
-/
import Mainflux.Lib.Binary64

namespace Mainflux.Adapters.Opcua

open Mainflux.Lib

/-! ## §1. Node ids. -/

/-- `ua.NodeID`: a number, or a text under the letter of its kind.  The three
encodings of a number are one here. -/
inductive NodeID
  | numeric (ns : UInt16) (nid : UInt32)
  | text (kind : Char) (ns : UInt16) (id : String)
  deriving DecidableEq

namespace NodeID

/-- `IntID`. -/
def intID : NodeID → UInt32
  | .numeric _ nid => nid
  | .text _ _ _ => 0

/-- `String`. -/
def toString : NodeID → String
  | .numeric ns nid => if ns = 0 then s!"i={nid}" else s!"ns={ns};i={nid}"
  | .text kind ns id => if ns = 0 then s!"{kind}={id}" else s!"ns={ns};{kind}={id}"

end NodeID

/-! ## §2. Variants. -/

/-- `ua.TypeID`. -/
inductive TypeID
  | null
  | boolean
  | sbyte
  | byte
  | int16
  | uint16
  | int32
  | uint32
  | int64
  | uint64
  | float
  | double
  | string
  | dateTime
  | guid
  | byteString
  | xmlElement
  | nodeID
  | expandedNodeID
  | statusCode
  | qualifiedName
  | localizedText
  | extensionObject
  | dataValue
  | variant
  | diagnosticInfo
  deriving DecidableEq

/-- `String`. -/
def TypeID.toString : TypeID → String
  | .null => "TypeID(0)"
  | .boolean => "TypeIDBoolean"
  | .sbyte => "TypeIDSByte"
  | .byte => "TypeIDByte"
  | .int16 => "TypeIDInt16"
  | .uint16 => "TypeIDUint16"
  | .int32 => "TypeIDInt32"
  | .uint32 => "TypeIDUint32"
  | .int64 => "TypeIDInt64"
  | .uint64 => "TypeIDUint64"
  | .float => "TypeIDFloat"
  | .double => "TypeIDDouble"
  | .string => "TypeIDString"
  | .dateTime => "TypeIDDateTime"
  | .guid => "TypeIDGUID"
  | .byteString => "TypeIDByteString"
  | .xmlElement => "TypeIDXMLElement"
  | .nodeID => "TypeIDNodeID"
  | .expandedNodeID => "TypeIDExpandedNodeID"
  | .statusCode => "TypeIDStatusCode"
  | .qualifiedName => "TypeIDQualifiedName"
  | .localizedText => "TypeIDLocalizedText"
  | .extensionObject => "TypeIDExtensionObject"
  | .dataValue => "TypeIDDataValue"
  | .variant => "TypeIDVariant"
  | .diagnosticInfo => "TypeIDDiagnosticInfo"

/-- What a variant of a type holds: of a qualified name its name, of a localized
text its text, and nothing of the types that the adapter does not read. -/
abbrev TypeID.Value : TypeID → Type
  | .boolean => Bool
  | .sbyte => Int8
  | .byte => UInt8
  | .int16 => Int16
  | .uint16 => UInt16
  | .int32 => Int32
  | .uint32 => UInt32
  | .int64 => Int64
  | .uint64 => UInt64
  | .float => Binary32
  | .double => Binary64
  | .string | .qualifiedName | .localizedText => String
  | .nodeID => NodeID
  | _ => Unit

/-- `ua.Variant`, of one value. -/
structure Variant where
  type : TypeID
  value : type.Value

namespace Variant

/-- `Bool`. -/
def bool : Variant → Bool
  | ⟨.boolean, b⟩ => b
  | _ => false

/-- `Float`. -/
def float : Variant → Binary64
  | ⟨.float, x⟩ => x.toBinary64
  | ⟨.double, x⟩ => x
  | _ => Binary64.zero

/-- `Int`. -/
def int : Variant → Int64
  | ⟨.sbyte, n⟩ => n.toInt64
  | ⟨.int16, n⟩ => n.toInt64
  | ⟨.int32, n⟩ => n.toInt64
  | ⟨.int64, n⟩ => n
  | _ => 0

/-- `Uint`. -/
def uint : Variant → UInt64
  | ⟨.byte, n⟩ => n.toUInt64
  | ⟨.uint16, n⟩ => n.toUInt64
  | ⟨.uint32, n⟩ => n.toUInt64
  | ⟨.uint64, n⟩ => n
  | _ => 0

/-- `String`. -/
def string : Variant → String
  | ⟨.string, s⟩ => s
  | ⟨.localizedText, s⟩ => s
  | ⟨.qualifiedName, s⟩ => s
  | _ => ""

/-- `NodeID`. -/
def nodeID : Variant → Option NodeID
  | ⟨.nodeID, n⟩ => some n
  | _ => none

end Variant

/-! ## §3. Times. -/

/-- `time.Time`, as `ReadTime` makes it: nanoseconds since 1970, or the zero time
where the server sends none. -/
inductive Time
  | zero
  | unix (nanos : Int64)
  deriving DecidableEq

/-- `Unix`: the whole seconds. -/
def Time.seconds : Time → Int
  | .zero => -62135596800
  | .unix nanos => nanos.toInt / 1000000000

end Mainflux.Adapters.Opcua
