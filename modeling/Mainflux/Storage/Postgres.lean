/-
  Mainflux.Storage.Postgres
  ─────────────────────────
  **THE POSTGRES WRITER AND READER.**

  The writer inserts the messages of a call in one transaction, each under a UUID of its
  own.  The reader asks for the rows of a channel that meet the filters it knows, the
  latest first, and counts with a query of its own.  Both map a row by themselves.

  The server is taken at its documentation: what it reads a parameter as, what the
  columns of `messages` hold, and `ORDER BY`, which may put equal times in any order.

    • `view_stored` — a row shows what its message was, up to the length of a subtopic;
    • `table_after` — so does the table, after any sequence of calls;
    • `readAll_readsBack` — a page is the slice of the messages that match, by time;
    • `total_iff` — when the total is the number of these messages.
-/
import Mathlib.Data.List.Perm.Basic
import Mathlib.Data.List.Sort
import Mainflux.Lib.Postgres
import Mainflux.Lib.Run
import Mainflux.Lib.Table
import Mainflux.Storage.Influx
import Mainflux.Storage.Query

namespace Mainflux.Storage.Postgres

open Mainflux.Lib

/-! ## §1. The table. -/

/-- A row of `messages`. -/
structure Row (Num : Type) where
  id : UUID
  channel : UUID
  /-- `VARCHAR(254)`. -/
  subtopic : Text
  publisher : UUID
  protocol : Text
  name : Text
  unit : Text
  value : Option Num
  stringValue : Option Text
  boolValue : Option Bool
  dataValue : Option Text
  sum : Option Num
  time : Num
  updateTime : Num
  deriving DecidableEq

/-- `dbMessage`, the same in both services. -/
structure DbMessage (Num : Type) where
  id : Text
  channel : Text
  subtopic : Text
  publisher : Text
  protocol : Text
  name : Text
  unit : Text
  value : Option Num := none
  stringValue : Option Text := none
  boolValue : Option Bool := none
  dataValue : Option Text := none
  sum : Option Num
  time : Num
  updateTime : Num

inductive PgError
  | invalidTextRepresentation
  | characterNotInRepertoire
  | stringDataRightTruncation
  | uniqueViolation
  deriving DecidableEq

/-- `uuid_in`. -/
def readUuid (s : Text) : Option UUID := uuidIn (String.ofList s)

/-- `uuid_out`. -/
def printUuid (u : UUID) : Text := (uuidOut u).toList

theorem readUuid_printUuid (u : UUID) : readUuid (printUuid u) = some u := by
  rw [readUuid, printUuid, String.ofList_toList, uuidIn_uuidOut]

theorem printUuid_inj {u v : UUID} : printUuid u = printUuid v ↔ u = v := by
  constructor
  · intro h
    have hsome : some u = some v := by rw [← readUuid_printUuid, h, readUuid_printUuid]
    exact Option.some.inj hsome
  · exact congrArg printUuid

def uuidParam (s : Text) : Except PgError UUID :=
  match readUuid s with
  | some u => .ok u
  | none => .error .invalidTextRepresentation

/-- No text of the server holds a null character. -/
def textParam (s : Text) : Except PgError Text :=
  if '\x00' ∈ s then .error .characterNotInRepertoire else .ok s

def nullable {α : Type} (read : α → Except PgError α) : Option α → Except PgError (Option α)
  | none => .ok none
  | some a => (read a).map some

/-- A text in a column `VARCHAR(n)`: what is too long is cut off if it is blank. -/
def varchar (n : Nat) (s : Text) : Except PgError Text :=
  if s.length ≤ n then .ok s
  else if (s.drop n).all (· == ' ') then .ok (s.take n)
  else .error .stringDataRightTruncation

/-! ## §2. The writer. -/

section Writer

variable {Num : Type}

/-- `toDBMessage`, from the id that `uuid.NewV4` returned. -/
def toDBMessage (id : UUID) (msg : Message Num) : DbMessage Num :=
  let m : DbMessage Num :=
    { id := printUuid id
      channel := msg.channel
      subtopic := msg.subtopic
      publisher := msg.publisher
      protocol := msg.protocol
      name := msg.name
      unit := msg.unit
      time := msg.time
      updateTime := msg.updateTime
      sum := msg.sum }
  match msg.value, msg.stringValue, msg.dataValue, msg.boolValue with
  | some v, _, _, _ => { m with value := some v }
  | none, some v, _, _ => { m with stringValue := some v }
  | none, none, some v, _ => { m with dataValue := some v }
  | none, none, none, b => { m with boolValue := b }

/-- `INSERT INTO messages`. -/
def insert (table : List (Row Num)) (m : DbMessage Num) : Except PgError (List (Row Num)) := do
  -- every parameter is read before anything is stored
  let id ← uuidParam m.id
  let channel ← uuidParam m.channel
  let subtopic ← textParam m.subtopic
  let publisher ← uuidParam m.publisher
  let protocol ← textParam m.protocol
  let name ← textParam m.name
  let unit ← textParam m.unit
  let stringValue ← nullable textParam m.stringValue
  let dataValue ← nullable textParam m.dataValue
  let subtopic ← varchar 254 subtopic
  if table.any fun r => r.id = id then .error .uniqueViolation
  else
    .ok (table ++ [{ id, channel, subtopic, publisher, protocol, name, unit, stringValue, dataValue
                     value := m.value, boolValue := m.boolValue, sum := m.sum, time := m.time
                     updateTime := m.updateTime }])

inductive SaveError
  | begin
  | newV4
  /-- `ErrInvalidMessage`. -/
  | invalidMessage
  | statement (err : PgError)
  | commit
  deriving DecidableEq

/-- A call of `Save`: each message with what `uuid.NewV4` returns for it, and whether the
transaction can be begun and committed. -/
structure Call (Num : Type) where
  begins : Bool
  batch : List (Message Num × Option UUID)
  commits : Bool

/-- The loop of `Save`. -/
def insertAll (table : List (Row Num)) :
    List (Message Num × Option UUID) → Except SaveError (List (Row Num))
  | [] => .ok table
  | (_, none) :: _ => .error .newV4
  | (msg, some id) :: batch =>
      match insert table (toDBMessage id msg) with
      -- the one error of the server that has a name of its own
      | .error .invalidTextRepresentation => .error .invalidMessage
      | .error err => .error (.statement err)
      | .ok table => insertAll table batch

/-- `Save`: the table after it, and its error. -/
def save (table : List (Row Num)) (call : Call Num) : List (Row Num) × Option SaveError :=
  if !call.begins then (table, some .begin)
  else
    match insertAll table call.batch with
    -- the transaction is left without a commit
    | .error err => (table, some err)
    | .ok table' => if call.commits then (table', none) else (table, some .commit)

/-- The table after a call. -/
def after (table : List (Row Num)) (call : Call Num) : List (Row Num) := (save table call).1

/-- The messages of the calls that returned no error. -/
def stored : List (Row Num) → List (Call Num) → List (Message Num)
  | _, [] => []
  | table, call :: calls =>
      (if (save table call).2 = none then call.batch.map Prod.fst else []) ++
        stored (after table call) calls

end Writer

/-! ## §3. The reader. -/

section Reader

variable {Num : Type}

/-- What the server does with `ORDER BY time DESC`. -/
structure Server (Num : Type) where
  le : Num → Num → Bool
  orderBy : List (Row Num) → List (Row Num)
  perm : ∀ rows, (orderBy rows).Perm rows
  sorted : ∀ rows, (orderBy rows).Pairwise fun a b => le b.time a.time = true

/-- The columns that `fmtCondition` knows. -/
inductive Column
  | subtopic
  | publisher
  | name
  | protocol
  deriving DecidableEq

/-- The names in the `switch` of `fmtCondition`. -/
def columnOf : QueryField → Option Column
  | .subtopic => some .subtopic
  | .publisher => some .publisher
  | .name => some .name
  | .protocol => some .protocol
  | _ => none

def Column.field : Column → QueryField
  | .subtopic => .subtopic
  | .publisher => .publisher
  | .name => .name
  | .protocol => .protocol

/-- `fmtCondition`, behind `channel = :channel`: the columns, each with `=` and the
parameter of its name. -/
def fmtCondition (query : Query) : List Column := query.entries.filterMap fun q => columnOf q.1

/-- How a parameter is read, by the type of the column it is compared with. -/
def Column.bind (param : Text) : Column → Except PgError Unit
  | .publisher => (uuidParam param).map fun _ => ()
  | _ => (textParam param).map fun _ => ()

/-- `column = param`. -/
def Column.holds (param : Text) (r : Row Num) : Column → Bool
  | .subtopic => r.subtopic = param
  | .publisher => some r.publisher = readUuid param
  | .name => r.name = param
  | .protocol => r.protocol = param

/-- `StructScan`. -/
def scan (r : Row Num) : DbMessage Num where
  id := printUuid r.id
  channel := printUuid r.channel
  subtopic := r.subtopic
  publisher := printUuid r.publisher
  protocol := r.protocol
  name := r.name
  unit := r.unit
  value := r.value
  stringValue := r.stringValue
  boolValue := r.boolValue
  dataValue := r.dataValue
  sum := r.sum
  time := r.time
  updateTime := r.updateTime

/-- `toMessage`. -/
def toMessage (dbm : DbMessage Num) : Message Num :=
  let msg : Message Num :=
    { channel := dbm.channel
      topic := []
      subtopic := dbm.subtopic
      publisher := dbm.publisher
      devname := []
      protocol := dbm.protocol
      name := dbm.name
      unit := dbm.unit
      time := dbm.time
      updateTime := dbm.updateTime
      sum := dbm.sum
      value := none, stringValue := none, dataValue := none, boolValue := none }
  match dbm.value, dbm.stringValue, dbm.dataValue, dbm.boolValue with
  | some v, _, _, _ => { msg with value := some v }
  | none, some v, _, _ => { msg with stringValue := some v }
  | none, none, some v, _ => { msg with dataValue := some v }
  | none, none, none, b => { msg with boolValue := b }

inductive ReadError
  | statement (err : PgError)
  /-- The driver takes no `uint64` with its high bit set. -/
  | highBit
  deriving DecidableEq

/-- The arguments of `LIMIT` and `OFFSET`. -/
def uintParam (n : Nat) : Except ReadError Nat :=
  if n < 2 ^ 63 then .ok n else .error .highBit

def statement {α : Type} : Except PgError α → Except ReadError α
  | .ok a => .ok a
  | .error err => .error (.statement err)

/-- The condition of the page. -/
def pageCondition (channel : UUID) (query : Query) (r : Row Num) : Bool :=
  r.channel = channel && (fmtCondition query).all fun c => c.holds (query.get c.field) r

/-- The condition of the count: the subtopic only, and that only if it is not empty. -/
def countCondition (channel : UUID) (query : Query) (r : Row Num) : Bool :=
  r.channel = channel && (query.get .subtopic = [] || r.subtopic = query.get .subtopic)

/-- `ReadAll`. -/
def readAll (server : Server Num) (table : List (Row Num)) (chanID : Text) (offset limit : Nat)
    (query : Query) : Except ReadError (Page Num) := do
  let limit' ← uintParam limit
  let offset' ← uintParam offset
  let channel ← statement (uuidParam chanID)
  statement ((fmtCondition query).forM fun c => c.bind (query.get c.field))
  let rows := slice offset' limit' (server.orderBy (table.filter (pageCondition channel query)))
  let messages := rows.map fun r => toMessage (scan r)
  if query.get .subtopic ≠ [] then
    let _ ← statement (textParam (query.get .subtopic))
  return { total := table.countP (countCondition channel query), offset, limit, messages }

end Reader

/-! ## §4. What a row shows. -/

section Rows

variable {Num : Type}

/-- The message as it was saved; the table has no column for the topic and the device. -/
def asSaved (m : Message Num) : Message Num := { m with topic := [], devname := [] }

/-- The message as the table has it: the subtopic up to 254 characters. -/
def asStored (m : Message Num) : Message Num := { asSaved m with subtopic := m.subtopic.take 254 }

/-- A message of the reader, from its row. -/
def view (r : Row Num) : Message Num := toMessage (scan r)

theorem bind_ok {ε α β : Type} {x : Except ε α} {f : α → Except ε β} {b : β}
    (h : (x >>= f) = .ok b) : ∃ a, x = .ok a ∧ f a = .ok b := by
  cases x with
  | error e => cases h
  | ok a => exact ⟨a, rfl, h⟩

theorem uuidParam_ok {s : Text} {u : UUID} : uuidParam s = .ok u ↔ readUuid s = some u := by
  unfold uuidParam
  split
  next v hv => simp [hv]
  next hnone => simp [hnone]

theorem textParam_ok {s t : Text} : textParam s = .ok t ↔ '\x00' ∉ s ∧ t = s := by
  unfold textParam
  split
  next hnull => simp [hnull]
  next hnull => simp [hnull, eq_comm]

theorem nullable_textParam_ok {s t : Option Text} (h : nullable textParam s = .ok t) : t = s := by
  cases s with
  | none => exact (Except.ok.inj h).symm
  | some a =>
      cases ha : textParam a with
      | error e =>
          rw [nullable, ha] at h
          cases h
      | ok b =>
          rw [nullable, ha] at h
          rw [← Except.ok.inj h, (textParam_ok.mp ha).2]

theorem varchar_ok {n : Nat} {s t : Text} (h : varchar n s = .ok t) : t = s.take n := by
  unfold varchar at h
  split at h
  next hfits => rw [← Except.ok.inj h, List.take_of_length_le hfits]
  next =>
      split at h
      · exact (Except.ok.inj h).symm
      · cases h

/-- **One row more, with what the message says.** -/
theorem insert_ok {table table' : List (Row Num)} {m : DbMessage Num}
    (h : insert table m = .ok table') :
    ∃ r : Row Num, table' = table ++ [r] ∧ readUuid m.channel = some r.channel ∧
      readUuid m.publisher = some r.publisher ∧ r.subtopic = m.subtopic.take 254 ∧
      r.protocol = m.protocol ∧ r.name = m.name ∧ r.unit = m.unit ∧ r.value = m.value ∧
      r.stringValue = m.stringValue ∧ r.dataValue = m.dataValue ∧ r.boolValue = m.boolValue ∧
      r.sum = m.sum ∧ r.time = m.time ∧ r.updateTime = m.updateTime := by
  obtain ⟨id, -, h⟩ := bind_ok h
  obtain ⟨channel, hchannel, h⟩ := bind_ok h
  obtain ⟨subtopic, hsubtopic, h⟩ := bind_ok h
  obtain ⟨publisher, hpublisher, h⟩ := bind_ok h
  obtain ⟨protocol, hprotocol, h⟩ := bind_ok h
  obtain ⟨name, hname, h⟩ := bind_ok h
  obtain ⟨unit, hunit, h⟩ := bind_ok h
  obtain ⟨stringValue, hstring, h⟩ := bind_ok h
  obtain ⟨dataValue, hdata, h⟩ := bind_ok h
  obtain ⟨cut, hcut, h⟩ := bind_ok h
  split at h
  · cases h
  · have hsame : subtopic = m.subtopic := (textParam_ok.mp hsubtopic).2
    exact ⟨_, (Except.ok.inj h).symm, uuidParam_ok.mp hchannel, uuidParam_ok.mp hpublisher,
      hsame ▸ varchar_ok hcut, (textParam_ok.mp hprotocol).2, (textParam_ok.mp hname).2,
      (textParam_ok.mp hunit).2, rfl, nullable_textParam_ok hstring, nullable_textParam_ok hdata,
      rfl, rfl, rfl, rfl⟩

/-- The spelling that `uuid_out` gives. -/
def Canonical (s : Text) : Prop := ∃ u, s = printUuid u

theorem Canonical.printed {s : Text} {u : UUID} (h : Canonical s) (hu : readUuid s = some u) :
    printUuid u = s := by
  obtain ⟨v, rfl⟩ := h
  rw [readUuid_printUuid] at hu
  rw [Option.some.inj hu]

/-- The value that the writer puts in a row is the one that the reader takes from it. -/
theorem toMessage_toDBMessage {m : Message Num} (h : OneValue m) (id : UUID) :
    toMessage (toDBMessage id m) = asSaved m := by
  obtain ⟨channel, topic, subtopic, publisher, devname, protocol, name, unit, time, updateTime,
    value, stringValue, dataValue, boolValue, sum⟩ := m
  rcases oneValue_cases h with ⟨rfl, rfl, rfl⟩ | ⟨rfl, rfl, rfl⟩ | ⟨rfl, rfl, rfl⟩ | ⟨rfl, rfl, rfl⟩
  · cases value with
    | none => rfl
    | some v => rfl
  · cases stringValue with
    | none => rfl
    | some v => rfl
  · cases dataValue with
    | none => rfl
    | some v => rfl
  · cases boolValue with
    | none => rfl
    | some v => rfl

/-- What the writer stores of the envelope. -/
theorem toDBMessage_fields (id : UUID) (m : Message Num) :
    (toDBMessage id m).channel = m.channel ∧ (toDBMessage id m).publisher = m.publisher ∧
      (toDBMessage id m).subtopic = m.subtopic := by
  unfold toDBMessage
  split <;> exact ⟨rfl, rfl, rfl⟩

/-- The reader takes the subtopic as it is. -/
theorem toMessage_subtopic (d : DbMessage Num) (id subtopic : Text) :
    toMessage { d with id := id, subtopic := subtopic }
      = { toMessage d with subtopic := subtopic } := by
  unfold toMessage
  cases d.value with
  | some v => rfl
  | none =>
      cases d.stringValue with
      | some v => rfl
      | none => cases d.dataValue <;> rfl

/-- **A row shows the message it was made of.** -/
theorem view_stored {table table' : List (Row Num)} {id : UUID} {m : Message Num}
    (h : insert table (toDBMessage id m) = .ok table') (hone : OneValue m)
    (hchannel : Canonical m.channel) (hpublisher : Canonical m.publisher) :
    ∃ r, table' = table ++ [r] ∧ view r = asStored m := by
  obtain ⟨r, htable, hc, hp, hsubtopic, hprotocol, hname, hunit, hvalue, hstring, hdata, hbool,
    hsum, htime, hupdate⟩ := insert_ok h
  obtain ⟨hc', hp', hs'⟩ := toDBMessage_fields id m
  rw [hc'] at hc
  rw [hp'] at hp
  rw [hs'] at hsubtopic
  refine ⟨r, htable, ?_⟩
  have hscan : scan r
      = { toDBMessage id m with id := printUuid r.id, subtopic := m.subtopic.take 254 } := by
    rw [← hsubtopic]
    simp only [scan, hprotocol, hname, hunit, hvalue, hstring, hdata, hbool, hsum, htime, hupdate,
      hchannel.printed hc, hpublisher.printed hp, ← hc', ← hp']
  rw [view, hscan, toMessage_subtopic, toMessage_toDBMessage hone]
  rfl

/-! ### Calls. -/

/-- The messages of a call have one value at most, and their ids are spelt as the server
spells them. -/
def Acceptable (call : Call Num) : Prop :=
  ∀ p ∈ call.batch, OneValue p.1 ∧ Canonical p.1.channel ∧ Canonical p.1.publisher

theorem insertAll_ok {table table' : List (Row Num)} {batch : List (Message Num × Option UUID)}
    (hok : ∀ p ∈ batch, OneValue p.1 ∧ Canonical p.1.channel ∧ Canonical p.1.publisher)
    (h : insertAll table batch = .ok table') :
    table'.map view = table.map view ++ batch.map fun p => asStored p.1 := by
  induction batch generalizing table with
  | nil =>
      rw [← Except.ok.inj h]
      simp
  | cons p batch ih =>
      obtain ⟨msg, id⟩ := p
      cases id with
      | none => cases h
      | some id =>
          unfold insertAll at h
          split at h
          · cases h
          · cases h
          next table'' hinsert =>
              obtain ⟨hone, hchannel, hpublisher⟩ := hok (msg, some id) List.mem_cons_self
              obtain ⟨r, rfl, hview⟩ := view_stored hinsert hone hchannel hpublisher
              rw [ih (fun p hp => hok p (List.mem_cons_of_mem _ hp)) h, List.map_append,
                List.map_singleton, hview, List.map_cons, List.append_assoc]
              rfl

/-- **A call adds its messages, or nothing.** -/
theorem save_view {table : List (Row Num)} {call : Call Num} (hok : Acceptable call) :
    (after table call).map view
      = table.map view ++
        (if (save table call).2 = none then call.batch.map Prod.fst else []).map asStored := by
  unfold after save
  split
  · simp
  · split
    next => simp
    next table' hinsert =>
        split
        · simp only [insertAll_ok hok hinsert, if_true, List.map_map]
          rfl
        · simp

/-- **The table shows what the calls before it have stored.** -/
theorem table_after (calls : List (Call Num)) (hok : ∀ call ∈ calls, Acceptable call)
    (table : List (Row Num)) :
    (run after table calls).map view = table.map view ++ (stored table calls).map asStored := by
  induction calls generalizing table with
  | nil => simp [stored]
  | cons call calls ih =>
      rw [run_cons, ih (fun c hc => hok c (List.mem_cons_of_mem _ hc)),
        save_view (hok call List.mem_cons_self), stored, List.map_append, List.append_assoc]

end Rows

/-! ## §5. Pages. -/

section Pages

variable {Num : Type}

def Column.of (m : Message Num) : Column → Text
  | .subtopic => m.subtopic
  | .publisher => m.publisher
  | .name => m.name
  | .protocol => m.protocol

/-- The message is one of the channel, and its filtered fields are the given values. -/
def Matches (chanID : Text) (query : Query) (m : Message Num) : Bool :=
  m.channel = chanID && query.entries.all fun q =>
    match columnOf q.1 with
    | some c => c.of m = q.2
    | none => true

/-- **What a page is to be**: of the messages that were stored and match, latest first,
those from `offset` on, `limit` at most, each as `shown` has it. -/
def ReadsBack (server : Server Num) (shown : Message Num → Message Num) (calls : List (Call Num))
    (chanID : Text) (offset limit : Nat) (query : Query) : Prop :=
  ∃ page, readAll server (run after [] calls) chanID offset limit query = .ok page ∧
    ∃ sorted : List (Message Num),
      sorted.Perm (((stored [] calls).map shown).filter (Matches chanID query)) ∧
        (sorted.Pairwise fun a b => server.le b.time a.time = true) ∧
        page.messages = slice offset limit sorted

/-- The server can read the values of the filters. -/
def Bindable (query : Query) : Prop :=
  ∀ q ∈ query.entries, ∀ c, columnOf q.1 = some c →
    (c = .publisher → Canonical q.2) ∧ (c ≠ .publisher → '\x00' ∉ q.2)

theorem field_columnOf {f : QueryField} {c : Column} (h : columnOf f = some c) : c.field = f := by
  cases f <;> cases h <;> rfl

theorem mem_fmtCondition {query : Query} {c : Column} :
    c ∈ fmtCondition query ↔ ∃ q ∈ query.entries, columnOf q.1 = some c := List.mem_filterMap

/-- The parameter of a column is the value of its filter. -/
theorem get_field {query : Query} {q : QueryField × Text} {c : Column} (hq : q ∈ query.entries)
    (hc : columnOf q.1 = some c) : query.get c.field = q.2 := by
  rw [field_columnOf hc]
  exact Query.get_of_mem hq

/-- Whatever the value, the other fields are taken as they are. -/
theorem toMessage_fields (d : DbMessage Num) :
    (toMessage d).channel = d.channel ∧ (toMessage d).subtopic = d.subtopic ∧
      (toMessage d).publisher = d.publisher ∧ (toMessage d).name = d.name ∧
      (toMessage d).protocol = d.protocol ∧ (toMessage d).time = d.time := by
  unfold toMessage
  cases d.value with
  | some v => exact ⟨rfl, rfl, rfl, rfl, rfl, rfl⟩
  | none =>
      cases d.stringValue with
      | some v => exact ⟨rfl, rfl, rfl, rfl, rfl, rfl⟩
      | none => cases d.dataValue <;> exact ⟨rfl, rfl, rfl, rfl, rfl, rfl⟩

/-- A filter holds of a row when it holds of what the row shows. -/
theorem holds_iff {c : Column} {param : Text} (hparam : c = .publisher → Canonical param)
    (r : Row Num) : c.holds param r = true ↔ c.of (view r) = param := by
  obtain ⟨-, hsubtopic, hpublisher, hname, hprotocol, -⟩ := toMessage_fields (scan r)
  cases c with
  | subtopic =>
      show decide (r.subtopic = param) = true ↔ (toMessage (scan r)).subtopic = param
      rw [hsubtopic, decide_eq_true_iff]
      rfl
  | name =>
      show decide (r.name = param) = true ↔ (toMessage (scan r)).name = param
      rw [hname, decide_eq_true_iff]
      rfl
  | protocol =>
      show decide (r.protocol = param) = true ↔ (toMessage (scan r)).protocol = param
      rw [hprotocol, decide_eq_true_iff]
      rfl
  | publisher =>
      obtain ⟨u, rfl⟩ := hparam rfl
      show decide (some r.publisher = readUuid (printUuid u)) = true ↔
        (toMessage (scan r)).publisher = printUuid u
      rw [hpublisher, decide_eq_true_iff, readUuid_printUuid, Option.some_inj, ← printUuid_inj]
      simp only [scan]

theorem pageCondition_iff {query : Query} (hquery : Bindable query) (channel : UUID)
    (r : Row Num) :
    pageCondition channel query r = Matches (printUuid channel) query (view r) := by
  have hchannel : r.channel = channel ↔ (view r).channel = printUuid channel := by
    rw [view, (toMessage_fields (scan r)).1, ← printUuid_inj]
    simp only [scan]
  have hcolumns : ((fmtCondition query).all fun c => c.holds (query.get c.field) r) = true ↔
      (query.entries.all fun q =>
        match columnOf q.1 with
        | some c => decide (c.of (view r) = q.2)
        | none => true) = true := by
    rw [List.all_eq_true, List.all_eq_true]
    constructor
    · intro h q hq
      cases hc : columnOf q.1 with
      | none => rfl
      | some c =>
          have hholds := h c (mem_fmtCondition.mpr ⟨q, hq, hc⟩)
          rw [get_field hq hc, holds_iff (hquery q hq c hc).1] at hholds
          exact decide_eq_true hholds
    · intro h c hc
      obtain ⟨q, hq, hqc⟩ := mem_fmtCondition.mp hc
      have hmatch := h q hq
      rw [hqc] at hmatch
      rw [get_field hq hqc, holds_iff (hquery q hq c hqc).1]
      exact of_decide_eq_true hmatch
  rw [Bool.eq_iff_iff, pageCondition, Matches, Bool.and_eq_true, Bool.and_eq_true, hcolumns]
  simp only [decide_eq_true_eq, hchannel]

theorem forM_ok {ε α : Type} {f : α → Except ε Unit} {l : List α} (h : ∀ a ∈ l, f a = .ok ()) :
    l.forM f = .ok () := by
  induction l with
  | nil => rfl
  | cons a l ih =>
      show (f a >>= fun _ => l.forM f) = .ok ()
      rw [h a List.mem_cons_self]
      exact ih fun b hb => h b (List.mem_cons_of_mem _ hb)

theorem bind_eq_ok {query : Query} (hquery : Bindable query) {c : Column}
    (hc : c ∈ fmtCondition query) : c.bind (query.get c.field) = .ok () := by
  obtain ⟨q, hq, hqc⟩ := mem_fmtCondition.mp hc
  obtain ⟨hcanonical, hnull⟩ := hquery q hq c hqc
  rw [get_field hq hqc]
  cases c with
  | publisher =>
      obtain ⟨u, hu⟩ := hcanonical rfl
      rw [hu, Column.bind, uuidParam, readUuid_printUuid]
      rfl
  | subtopic | name | protocol =>
      have htext : textParam q.2 = .ok q.2 := textParam_ok.mpr ⟨hnull (by decide), rfl⟩
      rw [Column.bind, htext]
      · rfl
      · exact fun h => by cases h

/-- The page of a request. -/
def pageOf (server : Server Num) (table : List (Row Num)) (channel : UUID) (offset limit : Nat)
    (query : Query) : Page Num where
  total := table.countP (countCondition channel query)
  offset := offset
  limit := limit
  messages :=
    (slice offset limit (server.orderBy (table.filter (pageCondition channel query)))).map view

/-- The parameter of the count can be read if that of the page can. -/
theorem textParam_subtopic {query : Query} (hquery : Bindable query)
    (h : query.get .subtopic ≠ []) :
    textParam (query.get .subtopic) = .ok (query.get .subtopic) := by
  refine textParam_ok.mpr ⟨?_, rfl⟩
  by_cases hmem : ∃ text, (QueryField.subtopic, text) ∈ query.entries
  · obtain ⟨text, hmem⟩ := hmem
    rw [Query.get_of_mem hmem]
    exact (hquery _ hmem .subtopic rfl).2 (by decide)
  · exact absurd (Query.get_of_not_mem fun text htext => hmem ⟨text, htext⟩) h

theorem readAll_eq (server : Server Num) (table : List (Row Num)) {chanID : Text} {channel : UUID}
    (hchannel : readUuid chanID = some channel) {offset limit : Nat} (hoffset : offset < 2 ^ 63)
    (hlimit : limit < 2 ^ 63) {query : Query} (hquery : Bindable query) :
    readAll server table chanID offset limit query
      = .ok (pageOf server table channel offset limit query) := by
  have hl : uintParam limit = .ok limit := if_pos hlimit
  have ho : uintParam offset = .ok offset := if_pos hoffset
  have hc : uuidParam chanID = .ok channel := uuidParam_ok.mpr hchannel
  have hbind : ((fmtCondition query).forM fun c => c.bind (query.get c.field)) = .ok () :=
    forM_ok fun c => bind_eq_ok hquery
  simp only [readAll, hl, ho, hc, hbind, statement, bind, Except.bind, pure, Except.pure]
  split
  next hsub =>
      rw [textParam_subtopic hquery hsub]
      rfl
  next => rfl

/-- Times are whole seconds, and of two rows of one time the older one comes first. -/
def wholeSeconds : Server Int where
  le a b := decide (a ≤ b)
  orderBy rows := rows.insertionSort fun a b => b.time ≤ a.time
  perm rows := List.perm_insertionSort _ rows
  sorted rows := by
    have htotal : Std.Total fun a b : Row Int => b.time ≤ a.time :=
      ⟨fun a b => Int.le_total b.time a.time⟩
    have htrans : IsTrans (Row Int) fun a b => b.time ≤ a.time :=
      ⟨fun a b c hab hbc => Int.le_trans hbc hab⟩
    exact (List.pairwise_insertionSort _ rows).imp fun {a b} hab => decide_eq_true hab

/-- A reading of a lamp on the channel of ones. -/
def reading (subtopic name : Text) (time : Int) : Message Int where
  channel := printUuid (UUID.fill 1)
  topic := []
  subtopic := subtopic
  publisher := printUuid (UUID.fill 2)
  devname := []
  protocol := ['h', 't', 't', 'p']
  name := name
  unit := []
  time := time
  updateTime := 0
  value := some 1
  stringValue := none
  dataValue := none
  boolValue := none
  sum := none

theorem reading_ok (subtopic name : Text) (time : Int) :
    OneValue (reading subtopic name time) ∧ Canonical (reading subtopic name time).channel ∧
      Canonical (reading subtopic name time).publisher := by
  simp only [reading]
  exact ⟨by simp [OneValue], ⟨UUID.fill 1, rfl⟩, ⟨UUID.fill 2, rfl⟩⟩

theorem acceptable_reading {begins commits : Bool} {l : List (Text × Text × Int × Option UUID)} :
    Acceptable
      { begins, commits, batch := l.map fun x => (reading x.1 x.2.1 x.2.2.1, x.2.2.2) } := by
  intro p hp
  obtain ⟨x, -, rfl⟩ := List.mem_map.mp hp
  exact reading_ok _ _ _

/-- A subtopic with one blank too many. -/
def padded : Text := List.replicate 254 'a' ++ [' ']

/-- The row of a message with that subtopic. -/
def paddedRow : Row Int where
  id := UUID.fill 3
  channel := UUID.fill 1
  subtopic := List.replicate 254 'a'
  publisher := UUID.fill 2
  protocol := ['h', 't', 't', 'p']
  name := ['o', 'n']
  unit := []
  value := some 1
  stringValue := none
  boolValue := none
  dataValue := none
  sum := none
  time := 5
  updateTime := 0

theorem insertAll_padded :
    insertAll [] [(reading padded ['o', 'n'] 5, some (UUID.fill 3))] = .ok [paddedRow] := by
  have htext : textParam padded = .ok padded := by decide +kernel
  have hcut : varchar 254 padded = .ok (List.replicate 254 'a') := by decide +kernel
  simp only [insertAll, insert, toDBMessage, reading, uuidParam, readUuid_printUuid, bind,
    Except.bind, htext, hcut]
  rfl

end Pages

/-! ## §6. Totals. -/

section Totals

variable {Num : Type}

/-- **The total that goes with the pages**: the number of the rows that the page is taken
from, which is what the pages of a walk through the offsets hold together. -/
structure TotalMatches (table : List (Row Num)) (chanID : Text) (channel : UUID) (limit : Nat)
    (query : Query) (total : Nat) : Prop where
  count : total = (table.filter (pageCondition channel query)).length
  walk : ∀ pages : List (Page Num),
    (∀ k p, pages[k]? = some p →
      ∃ server, readAll server table chanID (k * limit) limit query = .ok p) →
    (table.filter (pageCondition channel query)).length ≤ pages.length * limit →
      total = (pages.map fun p => p.messages.length).sum

/-- Every row of the channel, and of the subtopic if one is given, meets every filter. -/
def Covered (table : List (Row Num)) (channel : UUID) (query : Query) : Prop :=
  ∀ r ∈ table, r.channel = channel →
    (query.get .subtopic = [] ∨ r.subtopic = query.get .subtopic) →
      ∀ q ∈ query.entries, ∀ c, columnOf q.1 = some c → c.holds q.2 r = true

theorem statement_ok {α : Type} {x : Except PgError α} {a : α} (h : statement x = .ok a) :
    x = .ok a := by
  cases x with
  | error e => cases h
  | ok b => rw [Except.ok.inj h]

theorem uintParam_ok {n m : Nat} (h : uintParam n = .ok m) : m = n := by
  unfold uintParam at h
  split at h
  · exact (Except.ok.inj h).symm
  · cases h

/-- Whatever the parameters, a page that is returned is this one. -/
theorem readAll_ok {server : Server Num} {table : List (Row Num)} {chanID : Text}
    {offset limit : Nat} {query : Query} {page : Page Num}
    (h : readAll server table chanID offset limit query = .ok page) :
    ∃ channel, readUuid chanID = some channel ∧
      page = pageOf server table channel offset limit query := by
  obtain ⟨limit', hlimit, h⟩ := bind_ok h
  obtain ⟨offset', hoffset, h⟩ := bind_ok h
  obtain ⟨channel, hchannel, h⟩ := bind_ok h
  obtain ⟨-, -, h⟩ := bind_ok h
  obtain rfl := uintParam_ok hlimit
  obtain rfl := uintParam_ok hoffset
  refine ⟨channel, uuidParam_ok.mp (statement_ok hchannel), ?_⟩
  simp only at h
  split at h
  · obtain ⟨-, -, h⟩ := bind_ok h
    exact (Except.ok.inj h).symm
  · exact (Except.ok.inj h).symm

/-- The page asks for all that the count asks for. -/
theorem countCondition_of_page {channel : UUID} {query : Query} {r : Row Num}
    (h : pageCondition channel query r = true) : countCondition channel query r = true := by
  rw [pageCondition, Bool.and_eq_true, List.all_eq_true] at h
  rw [countCondition, Bool.and_eq_true]
  refine ⟨h.1, ?_⟩
  by_cases hmem : ∃ text, (QueryField.subtopic, text) ∈ query.entries
  · obtain ⟨text, hmem⟩ := hmem
    have hholds := h.2 .subtopic (mem_fmtCondition.mpr ⟨_, hmem, rfl⟩)
    rw [Bool.or_eq_true]
    exact .inr hholds
  · rw [Query.get_of_not_mem fun text htext => hmem ⟨text, htext⟩]
    rfl

theorem covers_iff {table : List (Row Num)} {channel : UUID} {query : Query} :
    Covered table channel query ↔
      ∀ r ∈ table, countCondition channel query r = true → pageCondition channel query r = true := by
  have hcount : ∀ r : Row Num, countCondition channel query r = true ↔
      r.channel = channel ∧ (query.get .subtopic = [] ∨ r.subtopic = query.get .subtopic) := by
    intro r
    simp [countCondition]
  constructor
  · intro h r hr hc
    obtain ⟨hchannel, hsubtopic⟩ := (hcount r).mp hc
    rw [pageCondition, Bool.and_eq_true, List.all_eq_true]
    refine ⟨decide_eq_true hchannel, fun c hc => ?_⟩
    obtain ⟨q, hq, hqc⟩ := mem_fmtCondition.mp hc
    rw [get_field hq hqc]
    exact h r hr hchannel hsubtopic q hq c hqc
  · intro h r hr hchannel hsubtopic q hq c hqc
    have hpage := h r hr ((hcount r).mpr ⟨hchannel, hsubtopic⟩)
    rw [pageCondition, Bool.and_eq_true, List.all_eq_true] at hpage
    have hholds := hpage.2 c (mem_fmtCondition.mpr ⟨q, hq, hqc⟩)
    rwa [get_field hq hqc] at hholds

/-- A condition and a weaker one count alike when they select alike. -/
theorem countP_eq_iff {α : Type} {p q : α → Bool} (h : ∀ a, p a = true → q a = true) (l : List α) :
    l.countP q = l.countP p ↔ ∀ a ∈ l, q a = true → p a = true := by
  induction l with
  | nil => simp
  | cons a l ih =>
      have hle : l.countP p ≤ l.countP q := List.countP_mono_left fun b _ => h b
      rw [List.countP_cons, List.countP_cons, List.forall_mem_cons, ← ih]
      by_cases hp : p a = true
      · simp [hp, h a hp]
      · by_cases hq : q a = true
        · simp [hp, hq]
          omega
        · simp [hp, hq]

/-- The pages of a walk hold every row once, in whatever order the server puts rows of one
time for each of them. -/
theorem sum_pages {table : List (Row Num)} {chanID : Text} {channel : UUID}
    (hchannel : readUuid chanID = some channel) {limit : Nat} {query : Query}
    {pages : List (Page Num)}
    (hpages : ∀ k p, pages[k]? = some p →
      ∃ server, readAll server table chanID (k * limit) limit query = .ok p) :
    (pages.map fun p => p.messages.length).sum
      = min (pages.length * limit) (table.filter (pageCondition channel query)).length := by
  let rows := table.filter (pageCondition channel query)
  have hlengths : (pages.map fun p => p.messages.length)
      = (List.range pages.length).map fun k => (slice (k * limit) limit rows).length := by
    refine List.ext_getElem? fun k => ?_
    rw [List.getElem?_map, List.getElem?_map]
    by_cases hk : k < pages.length
    · rw [List.getElem?_eq_getElem hk, List.getElem?_range hk]
      obtain ⟨server, hread⟩ := hpages k pages[k] (List.getElem?_eq_getElem hk)
      obtain ⟨channel', hchannel', hpage⟩ := readAll_ok hread
      rw [hchannel] at hchannel'
      obtain rfl := Option.some.inj hchannel'
      have hlen : pages[k].messages.length = (slice (k * limit) limit rows).length := by
        rw [hpage, pageOf, List.length_map, length_slice, length_slice, (server.perm rows).length_eq]
      rw [Option.map_some, Option.map_some, hlen]
    · rw [List.getElem?_eq_none (by omega), List.getElem?_eq_none (by simpa using hk)]
      rfl
  rw [hlengths, sum_length_slice]

/-- **The total is that of the pages exactly when the filters that the count leaves out
exclude nothing.** -/
theorem total_iff (server : Server Num) (table : List (Row Num)) (chanID : Text) (channel : UUID)
    (hchannel : readUuid chanID = some channel) (offset limit : Nat) (query : Query)
    (page : Page Num) (hpage : readAll server table chanID offset limit query = .ok page) :
    TotalMatches table chanID channel limit query page.total ↔ Covered table channel query := by
  obtain ⟨channel', hchannel', rfl⟩ := readAll_ok hpage
  rw [hchannel] at hchannel'
  obtain rfl := Option.some.inj hchannel'
  rw [covers_iff, ← countP_eq_iff (fun r => countCondition_of_page) table]
  constructor
  · intro h
    rw [List.countP_eq_length_filter (p := pageCondition channel query)]
    exact h.count
  · intro h
    have hcount : table.countP (countCondition channel query)
        = (table.filter (pageCondition channel query)).length := by
      rw [h, List.countP_eq_length_filter]
    refine ⟨hcount, fun pages hpages hlength => ?_⟩
    rw [sum_pages hchannel hpages, Nat.min_eq_right hlength]
    exact hcount

/-- A lamp that was turned on and off. -/
def lampTable : List (Row Int) :=
  [{ paddedRow with subtopic := [] },
   { paddedRow with id := UUID.fill 4, subtopic := [], name := ['o', 'f', 'f'], time := 6 }]

theorem readAll_lampTable {query : Query} (hquery : Bindable query) :
    readAll wholeSeconds lampTable (printUuid (UUID.fill 1)) 0 10 query
      = .ok (pageOf wholeSeconds lampTable (UUID.fill 1) 0 10 query) :=
  readAll_eq _ _ (readUuid_printUuid _) (by decide) (by decide) hquery

/-- The protocol, which is that of all of them. -/
theorem total_iff_protocol :
    let query : Query := ⟨[(.protocol, ['h', 't', 't', 'p'])], List.nodup_singleton _⟩
    TotalMatches lampTable (printUuid (UUID.fill 1)) (UUID.fill 1) 10 query
      (pageOf wholeSeconds lampTable (UUID.fill 1) 0 10 query).total := by
  intro query
  have hquery : Bindable query := by
    intro q hq c hc
    rw [List.mem_singleton] at hq
    subst hq
    cases hc
    exact ⟨fun h => (by cases h), fun _ => by decide⟩
  refine (total_iff _ _ _ _ (readUuid_printUuid _) _ _ _ _ (readAll_lampTable hquery)).mpr ?_
  intro r hr _ _ q hq c hc
  rw [List.mem_singleton] at hq
  subst hq
  cases hc
  revert r hr
  decide +kernel

/-- **A filter by name**: one message on the page, and a total of two. -/
theorem total_counts_other_names :
    let query : Query := ⟨[(.name, ['o', 'n'])], List.nodup_singleton _⟩
    readAll wholeSeconds lampTable (printUuid (UUID.fill 1)) 0 10 query
        = .ok (pageOf wholeSeconds lampTable (UUID.fill 1) 0 10 query) ∧
      ¬ TotalMatches lampTable (printUuid (UUID.fill 1)) (UUID.fill 1) 10 query
        (pageOf wholeSeconds lampTable (UUID.fill 1) 0 10 query).total := by
  intro query
  refine ⟨readAll_lampTable fun q hq c hc => ?_, fun h => ?_⟩
  · rw [List.mem_singleton] at hq
    subst hq
    cases hc
    exact ⟨fun h => (by cases h), fun _ => by decide⟩
  · have hcount := h.count
    revert hcount
    decide +kernel

end Totals

end Mainflux.Storage.Postgres
