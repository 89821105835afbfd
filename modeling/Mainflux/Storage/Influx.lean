/-
  Mainflux.Storage.Influx
  ───────────────────────
  **THE INFLUXDB WRITER AND READER.**

  The writer opens a database for each channel and writes one point for each
  message, under the measurement that the message names as its topic. The reader
  asks the database of a channel for the measurement `messages`.

  InfluxDB is taken at its documentation: a point needs a measurement, and a point
  of a series and time that it has is merged into the row it has (`Lib.Series`).
  `NewPoint` of the client library is the one under `vendor`.
-/
import Mainflux.Lib.Series
import Mainflux.Storage.Senml

namespace Mainflux.Storage

open Mainflux.Lib

open Mainflux.Messaging

/-! ## §1. Points. -/

structure Tags where
  channel : Text
  subtopic : Text
  publisher : Text
  devname : Text
  name : Text
  unit : Text
  deriving DecidableEq

structure Fields (Num : Type) where
  protocol : Option Text := none
  updateTime : Option Text := none
  value : Option Num := none
  stringValue : Option Text := none
  dataValue : Option Text := none
  boolValue : Option Bool := none
  sum : Option Num := none
  deriving DecidableEq

structure Point (Num : Type) where
  measurement : Text
  tags : Tags
  fields : Fields Num
  time : Int

/-- `tagsOf`, less the package variables that it sets. -/
def tagsOf {Num : Type} (m : Message Num) : Tags where
  channel := m.channel
  subtopic := m.subtopic
  publisher := m.publisher
  devname := m.devname
  name := m.name
  unit := m.unit

/-- `fieldsOf`: the first value that is set, and the sum. -/
def fieldsOf {Num : Type} (rt : Runtime Num) (m : Message Num) : Fields Num :=
  let ret : Fields Num :=
    { protocol := some m.protocol, updateTime := some (rt.formatFloat m.updateTime), sum := m.sum }
  match m.value, m.stringValue, m.dataValue, m.boolValue with
  | some v, _, _, _ => { ret with value := some v }
  | none, some v, _, _ => { ret with stringValue := some v }
  | none, none, some v, _ => { ret with dataValue := some v }
  | none, none, none, b => { ret with boolValue := b }

/-! ## §2. The client library. -/

section Client

variable {Num : Type}

inductive PointError
  | timeOutOfRange
  | unsupportedValue
  | keyTooLong
  deriving DecidableEq

/-- `time.Time{}`, in nanoseconds. -/
def zeroTime : Int := -62135596800000000000

def minNanoTime : Int := -9223372036854775808 + 2

def maxNanoTime : Int := 9223372036854775807 - 1

/-- A backslash before each of the characters in `marks`. -/
def escapeWith (marks : List Char) (s : Text) : Text :=
  s.flatMap fun c => if c ∈ marks then ['\\', c] else [c]

/-- `unescapeMeasurement`. -/
def unescapeMeasurement : Text → Text
  | '\\' :: ',' :: cs => ',' :: unescapeMeasurement cs
  | '\\' :: ' ' :: cs => ' ' :: unescapeMeasurement cs
  | c :: cs => c :: unescapeMeasurement cs
  | [] => []

/-- `AppendHashKey`: tags without a value are skipped. -/
def hashKey (tags : Tags) : Text :=
  [(['c', 'h', 'a', 'n', 'n', 'e', 'l'], tags.channel),
    (['d', 'e', 'v', 'n', 'a', 'm', 'e'], tags.devname), (['n', 'a', 'm', 'e'], tags.name),
    (['p', 'u', 'b', 'l', 'i', 's', 'h', 'e', 'r'], tags.publisher),
    (['s', 'u', 'b', 't', 'o', 'p', 'i', 'c'], tags.subtopic),
    (['u', 'n', 'i', 't'], tags.unit)].flatMap fun tag =>
      if tag.2 = [] then [] else ',' :: tag.1 ++ '=' :: escapeWith [',', ' ', '='] tag.2

/-- `MakeKey`. -/
def makeKey (measurement : Text) (tags : Tags) : Text :=
  escapeWith [',', ' '] (unescapeMeasurement measurement) ++ hashKey tags

/-- The length of a text in bytes. -/
def byteLength (s : Text) : Nat := (s.map Char.utf8Size).sum

/-- The length of the longest name of a field that is set. -/
def Fields.longest (fields : Fields Num) : Nat :=
  [(fields.protocol.isSome, 8), (fields.updateTime.isSome, 10), (fields.value.isSome, 5),
    (fields.stringValue.isSome, 11), (fields.dataValue.isSome, 9), (fields.boolValue.isSome, 9),
    (fields.sum.isSome, 3)].foldl (fun n field => if field.1 then max n field.2 else n) 0

/-- `NewPoint`. -/
def newPoint (rt : Runtime Num) (measurement : Text) (tags : Tags) (fields : Fields Num)
    (time : Int) : Except PointError (Point Num) :=
  if time ≠ zeroTime ∧ (time < minNanoTime ∨ maxNanoTime < time) then .error .timeOutOfRange
  else if fields.value.any (!rt.finite ·) || fields.sum.any (!rt.finite ·) then
    .error .unsupportedValue
  else if 65535 < byteLength (makeKey measurement tags) + 4 + fields.longest then .error .keyTooLong
  else .ok { measurement, tags, fields, time }

end Client

/-! ## §3. The database. -/

section Database

variable {Num : Type}

/-- Where a row is stored. -/
structure Series where
  database : Text
  measurement : Text
  tags : Tags
  time : Int
  deriving DecidableEq

structure Influx (Num : Type) where
  databases : List Text := []
  rows : Series.Rows Series (Fields Num) := ∅

inductive WriteError
  | databaseNotFound
  | missingMeasurement
  deriving DecidableEq

/-- `CREATE DATABASE`. -/
def Influx.createDatabase (s : Influx Num) (name : Text) : Influx Num :=
  if name = [] ∨ name ∈ s.databases then s else { s with databases := name :: s.databases }

/-- The fields of a later point replace those of an earlier one. -/
def Fields.merge (new old : Fields Num) : Fields Num where
  protocol := new.protocol.or old.protocol
  updateTime := new.updateTime.or old.updateTime
  value := new.value.or old.value
  stringValue := new.stringValue.or old.stringValue
  dataValue := new.dataValue.or old.dataValue
  boolValue := new.boolValue.or old.boolValue
  sum := new.sum.or old.sum

def Point.series (database : Text) (pt : Point Num) : Series where
  database := database
  measurement := pt.measurement
  tags := pt.tags
  time := pt.time

/-- `Write` of a batch of one point. -/
def Influx.write (s : Influx Num) (database : Text) (pt : Point Num) :
    Influx Num × Option WriteError :=
  if database ∉ s.databases then (s, some .databaseNotFound)
  else if pt.measurement = [] then (s, some .missingMeasurement)
  else ({ s with rows := Series.put Fields.merge s.rows (pt.series database) pt.fields }, none)

end Database

/-! ## §4. The writer. -/

section Writer

variable {Num : Type} (rt : Runtime Num)

inductive SaveError
  | point (err : PointError)
  | write (err : WriteError)
  deriving DecidableEq

/-- InfluxDB, and the package variable `final_error`. -/
structure Writer (Num : Type) where
  influx : Influx Num := {}
  finalError : Option SaveError := none

/-- `Save`. -/
def save (w : Writer Num) : List (Message Num) → Writer Num × Option SaveError
  | [] => (w, w.finalError)
  | m :: ms =>
      let influx := w.influx.createDatabase m.channel
      match newPoint rt m.topic (tagsOf m) (fieldsOf rt m) (rt.unix m.time) with
      | .error err => ({ w with influx := influx }, some (.point err))
      | .ok pt =>
          let (influx, err) := influx.write m.channel pt
          save { influx := influx, finalError := err.map .write } ms

/-- `channelExists`. -/
def channelExists (channels : List Text) (channel : Text) : Bool :=
  ['*'] ∈ channels || channel ∈ channels

/-- `consume`, from the message on: what `Save` returns, if it is called. -/
def consume (channels : List Text) (w : Writer Num) (msg : Envelope Num) :
    Writer Num × Option (Option SaveError) :=
  match transform rt msg with
  | .error _ => (w, none)
  | .ok norm =>
      let (w, err) := save rt w (norm.filter fun m => channelExists channels m.channel)
      (w, some err)

end Writer

/-! ## §5. The reader. -/

section Reader

variable {Num : Type} (rt : Runtime Num)

structure Page (Num : Type) where
  total : Nat := 0
  offset : Nat := 0
  limit : Nat := 0
  messages : List (Message Num) := []

/-- The filters of the reader API. -/
inductive Filter
  | channel
  | subtopic
  | publisher
  | name
  | protocol
  deriving DecidableEq

def Filter.holds (value : Text) (row : Series × Fields Num) : Filter → Bool
  | .channel => row.1.tags.channel = value
  | .subtopic => row.1.tags.subtopic = value
  | .publisher => row.1.tags.publisher = value
  | .name => row.1.tags.name = value
  | .protocol => row.2.protocol = some value

/-- The rows that a query for the measurement `messages` selects. -/
def Influx.select (s : Influx Num) (chanID : Text) (query : List (Filter × Text)) :
    List (Series × Fields Num) :=
  (s.rows.entries.map fun e => (e.1, e.2)).filter fun row =>
    row.1.database = chanID && row.1.measurement = messagesWord && row.1.tags.channel = chanID &&
      query.all fun q => q.1.holds q.2 row

/-- `parseMessage`. -/
def parseMessage (row : Series × Fields Num) : Message Num where
  channel := row.1.tags.channel
  topic := []
  subtopic := row.1.tags.subtopic
  publisher := row.1.tags.publisher
  devname := row.1.tags.devname
  protocol := row.2.protocol.getD []
  name := row.1.tags.name
  unit := row.1.tags.unit
  time := rt.seconds (row.1.time.fdiv 1000000000)
  updateTime := rt.parseFloat (row.2.updateTime.getD [])
  value := row.2.value
  stringValue := row.2.stringValue
  dataValue := row.2.dataValue
  boolValue := row.2.boolValue
  sum := row.2.sum

/-- `ORDER BY time DESC LIMIT limit OFFSET offset`; a limit of zero is none. -/
def page (offset limit : Nat) (rows : List (Series × Fields Num)) : List (Series × Fields Num) :=
  let rows := (rows.mergeSort fun a b => b.1.time ≤ a.1.time).drop offset
  if limit = 0 then rows else rows.take limit

/-- `ReadAll`; `none` for an error. -/
def readAll (s : Influx Num) (chanID : Text) (offset limit : Nat) (query : List (Filter × Text)) :
    Option (Page Num) :=
  if chanID ∉ s.databases then none
  else
    match page offset limit (s.select chanID query) with
    | [] => some {}
    | row :: rows =>
        some
          { total := (s.select chanID query).countP (·.2.protocol.isSome)
            offset := offset
            limit := limit
            messages := (row :: rows).map (parseMessage rt) }

/-- The number of messages stored for a channel. -/
def Influx.stored (s : Influx Num) (chanID : Text) : Nat := (s.select chanID []).length

end Reader

end Mainflux.Storage
