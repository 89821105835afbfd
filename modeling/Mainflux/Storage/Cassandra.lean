/-
  Mainflux.Storage.Cassandra
  ──────────────────────────
  **THE CASSANDRA WRITER AND READER.**

  The reader binds the value of every entry of the query map and writes a placeholder for
  those of the entries that it knows.  It asks for `offset + limit` rows, drops the error
  of that query, skips the first `offset` rows by hand and counts with a second query.
  The writer draws one id for a whole call, and inserts under the key `(channel, time,
  id)`.

  `gocql` is the client library under `vendor`: it refuses a statement whose values are
  not as many as its placeholders, and an `int` of more than 32 bits.  Cassandra is taken
  at its documentation: a limit is strictly positive, and an `INSERT` under a key that
  exists replaces its row.

    • `readAll_eq` — what the reader returns, in the terms of the rows that match;
    • `statements_iff` — when the statements are well formed and the page is the slice;
    • `save_perm` — a call under distinct keys adds one row for each message;
    • `lossless_iff` — when a call of the writer loses no message.
-/
import Mathlib.Data.List.Nodup
import Mathlib.Data.List.Perm.Basic
import Mainflux.Lib.Postgres
import Mainflux.Lib.Table
import Mainflux.Storage.Influx
import Mainflux.Storage.Query

namespace Mainflux.Storage.Cassandra

open Mainflux.Lib

/-! ## §1. The table. -/

/-- A row of `messages`. -/
structure Row (Num : Type) where
  id : UUID
  channel : Text
  subtopic : Text
  publisher : Text
  protocol : Text
  name : Text
  unit : Text
  value : Option Num
  stringValue : Option Text
  boolValue : Option Bool
  dataValue : Option Text
  sum : Option Num
  time : Num
  updateTime : Num
  deriving DecidableEq

/-- `PRIMARY KEY (channel, time, id)`. -/
def Row.key {Num : Type} (r : Row Num) : Text × Num × UUID := (r.channel, r.time, r.id)

/-! ## §2. The reader. -/

section Reader

variable {Num : Type}

/-- The columns that a condition can name. -/
inductive Column
  | channel
  | subtopic
  | publisher
  | name
  | protocol
  deriving DecidableEq

/-- The names in the `switch`; `queryFields` has no `channel`. -/
def columnOf : QueryField → Option Column
  | .subtopic => some .subtopic
  | .publisher => some .publisher
  | .name => some .name
  | .protocol => some .protocol
  | _ => none

def Column.of (r : Row Num) : Column → Text
  | .channel => r.channel
  | .subtopic => r.subtopic
  | .publisher => r.publisher
  | .name => r.name
  | .protocol => r.protocol

/-- A statement: the columns compared with a placeholder, in their order, and whether
`LIMIT ?` follows. -/
structure Statement where
  columns : List Column
  limited : Bool

/-- The values of a call of `session.Query`: texts, and behind them the limit. -/
structure Values where
  texts : List Text
  limit : Option Nat

def Statement.placeholders (stmt : Statement) : Nat := stmt.columns.length + stmt.limited.toNat

def Values.count (vals : Values) : Nat := vals.texts.length + vals.limit.toList.length

/-- `buildSelectQuery`. -/
def buildSelectQuery (names : List QueryField) : Statement where
  columns := .channel :: names.filterMap columnOf
  limited := true

/-- `buildCountQuery`. -/
def buildCountQuery (names : List QueryField) : Statement where
  columns := .channel :: names.filterMap columnOf
  limited := false

inductive CqlError
  /-- `gocql: expected %d values send got %d`. -/
  | values (expected got : Nat)
  /-- `marshal int: value %d out of range`. -/
  | marshalInt (value : Nat)
  /-- `LIMIT must be strictly positive`. -/
  | limitNotPositive
  deriving DecidableEq

/-- The rows for which each column is the value at its place. -/
def matching (table : List (Row Num)) (stmt : Statement) (vals : Values) : List (Row Num) :=
  table.filter fun r => (stmt.columns.zip vals.texts).all fun p => p.1.of r = p.2

/-- `marshalInt` of a `uint64`: what is left of it in an `int32`. -/
def marshalInt (n : Nat) : Except CqlError Int :=
  if 2 ^ 32 - 1 < n then .error (.marshalInt n) else .ok (Int.bmod n (2 ^ 32))

/-- The rows of a `SELECT`. -/
def select (table : List (Row Num)) (stmt : Statement) (vals : Values) :
    Except CqlError (List (Row Num)) :=
  if vals.count ≠ stmt.placeholders then .error (.values stmt.placeholders vals.count)
  else
    match vals.limit with
    | none => .ok (matching table stmt vals)
    | some n =>
        match marshalInt n with
        | .error err => .error err
        | .ok n =>
            if n ≤ 0 then .error .limitNotPositive
            else .ok ((matching table stmt vals).take n.toNat)

/-- `SELECT COUNT(*)`. -/
def count (table : List (Row Num)) (stmt : Statement) (vals : Values) : Except CqlError Nat :=
  (select table stmt vals).map List.length

/-- The loop that skips the first rows. -/
def skip {α : Type} : Nat → List α → List α
  | 0, rows => rows
  | _ + 1, [] => []
  | n + 1, _ :: rows => skip n rows

/-- `scanner.Scan`. -/
def scan (r : Row Num) : Message Num where
  channel := r.channel
  topic := []
  subtopic := r.subtopic
  publisher := r.publisher
  devname := []
  protocol := r.protocol
  name := r.name
  unit := r.unit
  time := r.time
  updateTime := r.updateTime
  value := r.value
  stringValue := r.stringValue
  dataValue := r.dataValue
  boolValue := r.boolValue
  sum := r.sum

/-- `vals`, with every value of the map. -/
def vals (chanID : Text) (offset limit : BitVec 64) (query : Query) : Values where
  texts := chanID :: query.entries.map Prod.snd
  limit := some (offset + limit).toNat

/-- `vals[:len(vals)-1]`. -/
def countVals (chanID : Text) (query : Query) : Values where
  texts := chanID :: query.entries.map Prod.snd
  limit := none

/-- `ReadAll`. -/
def readAll (table : List (Row Num)) (chanID : Text) (offset limit : BitVec 64) (query : Query) :
    Except CqlError (Page Num) :=
  let names := query.entries.map Prod.fst
  let rows :=
    match select table (buildSelectQuery names) (vals chanID offset limit query) with
    | .ok rows => rows
    -- an iterator with an error has no rows, and nobody asks it for the error
    | .error _ => []
  let messages := (skip offset.toNat rows).map scan
  match count table (buildCountQuery names) (countVals chanID query) with
  | .error err => .error err
  | .ok total => .ok { total, offset := offset.toNat, limit := limit.toNat, messages }

/-! ### The statement. -/

/-- The rows of the channel that meet every filter. -/
def wanted (table : List (Row Num)) (chanID : Text) (query : Query) : List (Row Num) :=
  table.filter fun r => r.channel = chanID && query.entries.all fun q =>
    match columnOf q.1 with
    | some c => c.of r = q.2
    | none => true

/-- The value was given for the column. -/
def Belongs (chanID : Text) (query : Query) (c : Column) (text : Text) : Prop :=
  c = .channel ∧ text = chanID ∨ ∃ q ∈ query.entries, columnOf q.1 = some c ∧ q.2 = text

/-- As many values as placeholders, and each at the place of its column. -/
structure Aligned (chanID : Text) (query : Query) (stmt : Statement) (vals : Values) : Prop where
  count : vals.count = stmt.placeholders
  columns : List.Forall₂ (Belongs chanID query) stmt.columns vals.texts

/-- **Well-formed statements, and the page they are for.** -/
structure WellFormed (table : List (Row Num)) (chanID : Text) (offset limit : BitVec 64)
    (query : Query) : Prop where
  select : Aligned chanID query (buildSelectQuery (query.entries.map Prod.fst))
    (vals chanID offset limit query)
  count : Aligned chanID query (buildCountQuery (query.entries.map Prod.fst))
    (countVals chanID query)
  page : ∃ page, readAll table chanID offset limit query = .ok page ∧
    page.messages = (slice offset.toNat limit.toNat (wanted table chanID query)).map scan ∧
    page.total = (wanted table chanID query).length

/-- The reader has a column for every name in the query. -/
def Known (query : Query) : Prop := ∀ q ∈ query.entries, columnOf q.1 ≠ none

/-! ### Placeholders and values. -/

/-- A column for every entry: as many columns as values, in the same order. -/
theorem zip_columns {es : List (QueryField × Text)} (h : ∀ q ∈ es, columnOf q.1 ≠ none) :
    ((es.map Prod.fst).filterMap columnOf).length = es.length ∧
      ∀ r : Row Num, (((es.map Prod.fst).filterMap columnOf).zip (es.map Prod.snd)).all
          (fun p => p.1.of r = p.2)
        = es.all fun q =>
            match columnOf q.1 with
            | some c => c.of r = q.2
            | none => true := by
  induction es with
  | nil => exact ⟨rfl, fun _ => rfl⟩
  | cons q es ih =>
      obtain ⟨hlength, hall⟩ := ih fun p hp => h p (List.mem_cons_of_mem _ hp)
      obtain ⟨c, hc⟩ := Option.ne_none_iff_exists'.mp (h q List.mem_cons_self)
      refine ⟨?_, fun r => ?_⟩
      · rw [List.map_cons, List.filterMap_cons_some hc, List.length_cons, hlength, List.length_cons]
      · rw [List.map_cons, List.filterMap_cons_some hc, List.map_cons, List.zip_cons_cons,
          List.all_cons, List.all_cons, hall r, hc]

theorem known_columns_iff {query : Query} :
    Known query ↔
      ((query.entries.map Prod.fst).filterMap columnOf).length = query.entries.length := by
  have hlength : query.entries.length = (query.entries.map Prod.fst).length :=
    (List.length_map _).symm
  rw [hlength, List.filterMap_length_eq_length]
  simp only [List.forall_mem_map, Known, Option.isSome_iff_ne_none]

theorem belongs_columns {chanID : Text} {query : Query} {es : List (QueryField × Text)}
    (hsub : ∀ q ∈ es, q ∈ query.entries) (h : ∀ q ∈ es, columnOf q.1 ≠ none) :
    List.Forall₂ (Belongs chanID query) ((es.map Prod.fst).filterMap columnOf)
      (es.map Prod.snd) := by
  induction es with
  | nil => exact .nil
  | cons q es ih =>
      obtain ⟨c, hc⟩ := Option.ne_none_iff_exists'.mp (h q List.mem_cons_self)
      rw [List.map_cons, List.filterMap_cons_some hc, List.map_cons]
      refine .cons (.inr ⟨q, hsub q List.mem_cons_self, hc, rfl⟩) (ih ?_ ?_)
      · exact fun p hp => hsub p (List.mem_cons_of_mem _ hp)
      · exact fun p hp => h p (List.mem_cons_of_mem _ hp)

section Bound

variable {table : List (Row Num)} {chanID : Text} {offset limit : BitVec 64} {query : Query}

theorem countVals_count :
    (countVals chanID query).count = query.entries.length + 1 := by
  simp [Values.count, countVals]

theorem buildCountQuery_placeholders :
    (buildCountQuery (query.entries.map Prod.fst)).placeholders
      = ((query.entries.map Prod.fst).filterMap columnOf).length + 1 := by
  simp [Statement.placeholders, buildCountQuery]

theorem vals_count : (vals chanID offset limit query).count = query.entries.length + 2 := by
  simp [Values.count, vals]

theorem buildSelectQuery_placeholders :
    (buildSelectQuery (query.entries.map Prod.fst)).placeholders
      = ((query.entries.map Prod.fst).filterMap columnOf).length + 2 := by
  simp [Statement.placeholders, buildSelectQuery]

/-- **The values go with the placeholders exactly when all names are known.** -/
theorem aligned_count_iff :
    Aligned chanID query (buildCountQuery (query.entries.map Prod.fst)) (countVals chanID query) ↔
      Known query := by
  constructor
  · intro h
    have hcount := h.count
    rw [countVals_count, buildCountQuery_placeholders] at hcount
    rw [known_columns_iff]
    omega
  · intro h
    refine ⟨?_, .cons (.inl ⟨rfl, rfl⟩) (belongs_columns (fun q hq => hq) h)⟩
    rw [countVals_count, buildCountQuery_placeholders, known_columns_iff.mp h]

theorem Known.aligned_select (h : Known query) :
    Aligned chanID query (buildSelectQuery (query.entries.map Prod.fst))
      (vals chanID offset limit query) := by
  refine ⟨?_, .cons (.inl ⟨rfl, rfl⟩) (belongs_columns (fun q hq => hq) h)⟩
  rw [vals_count, buildSelectQuery_placeholders, known_columns_iff.mp h]

/-- The condition that the values make of the placeholders. -/
theorem Known.matching_eq (h : Known query) (limited : Bool) (limit : Option Nat) :
    matching table ⟨.channel :: (query.entries.map Prod.fst).filterMap columnOf, limited⟩
        ⟨chanID :: query.entries.map Prod.snd, limit⟩
      = wanted table chanID query := by
  unfold matching wanted
  refine List.filter_congr fun r _ => ?_
  rw [List.zip_cons_cons, List.all_cons, (zip_columns h).2 r]
  rfl

theorem Known.count_eq (h : Known query) :
    count table (buildCountQuery (query.entries.map Prod.fst)) (countVals chanID query)
      = .ok (wanted table chanID query).length := by
  have haligned : Aligned chanID query (buildCountQuery (query.entries.map Prod.fst))
      (countVals chanID query) := aligned_count_iff.mpr h
  have hmatching : matching table _ _ = wanted table chanID query := h.matching_eq false none
  rw [count, select, if_neg (not_not_intro haligned.count)]
  show (Except.ok (matching table _ _)).map List.length = _
  rw [buildCountQuery, countVals, hmatching]
  rfl

theorem marshalInt_of_lt {n : Nat} (h : n < 2 ^ 31) : marshalInt n = .ok n := by
  have hint : Int.bmod n (2 ^ 32) = n := by
    apply Int.bmod_eq_of_le <;> omega
  rw [marshalInt, if_neg (by omega), hint]

/-- A number with more bits is refused, or it is negative when it arrives. -/
theorem marshalInt_of_le {n : Nat} (h : 2 ^ 31 ≤ n) {i : Int} (hi : marshalInt n = .ok i) :
    i ≤ 0 := by
  unfold marshalInt at hi
  split at hi
  · cases hi
  · rw [← Except.ok.inj hi, Int.bmod]
    split <;> omega

/-- The rows of a `SELECT` with as many values as placeholders, or none where it fails. -/
theorem select_getD {stmt : Statement} {texts : List Text} {n : Nat}
    (h : (Values.mk texts (some n)).count = stmt.placeholders) :
    (match select table stmt ⟨texts, some n⟩ with
      | .ok rows => rows
      | .error _ => [])
      = if 0 < n ∧ n < 2 ^ 31 then (matching table stmt ⟨texts, some n⟩).take n else [] := by
  rw [select, if_neg (not_not_intro h)]
  by_cases hfits : n < 2 ^ 31
  · simp only [marshalInt_of_lt hfits]
    by_cases hzero : n = 0
    · rw [if_pos (by omega), if_neg (by omega)]
    · rw [if_neg (by omega), if_pos ⟨by omega, hfits⟩, Int.toNat_natCast]
  · rw [if_neg fun hlt => hfits hlt.2]
    cases hint : marshalInt n with
    | error err => simp only [hint]
    | ok i =>
        simp only [hint]
        rw [if_pos (marshalInt_of_le (by omega) hint)]

theorem Known.select_eq (h : Known query) :
    (match select table (buildSelectQuery (query.entries.map Prod.fst))
        (vals chanID offset limit query) with
      | .ok rows => rows
      | .error _ => [])
      = if 0 < (offset + limit).toNat ∧ (offset + limit).toNat < 2 ^ 31 then
          (wanted table chanID query).take (offset + limit).toNat
        else [] := by
  have haligned : Aligned chanID query (buildSelectQuery (query.entries.map Prod.fst))
      (vals chanID offset limit query) := h.aligned_select
  rw [← h.matching_eq true (some (offset + limit).toNat)]
  exact select_getD haligned.count

theorem skip_eq_drop {α : Type} (n : Nat) (rows : List α) : skip n rows = rows.drop n := by
  induction n generalizing rows with
  | zero => rfl
  | succ n ih =>
      cases rows with
      | nil => rfl
      | cons r rows => exact ih rows

/-- What is left for the page. -/
def returned (table : List (Row Num)) (chanID : Text) (offset limit : BitVec 64) (query : Query) :
    List (Row Num) :=
  (if 0 < (offset + limit).toNat ∧ (offset + limit).toNat < 2 ^ 31 then
    (wanted table chanID query).take (offset + limit).toNat
  else []).drop offset.toNat

theorem readAll_eq (h : Known query) :
    readAll table chanID offset limit query
      = .ok
          { total := (wanted table chanID query).length
            offset := offset.toNat
            limit := limit.toNat
            messages := (returned table chanID offset limit query).map scan } := by
  unfold readAll returned
  simp only [h.select_eq, h.count_eq, skip_eq_drop]

/-- The page is empty as soon as the limit does not fit, whatever there is to return. -/
theorem length_returned (table : List (Row Num)) (chanID : Text) (offset limit : BitVec 64)
    (query : Query) :
    (returned table chanID offset limit query).length
      = if offset.toNat + limit.toNat < 2 ^ 31 then
          min (offset.toNat + limit.toNat) (wanted table chanID query).length - offset.toNat
        else 0 := by
  have hn : (offset + limit).toNat = (offset.toNat + limit.toNat) % 2 ^ 64 := BitVec.toNat_add _ _
  have hlimit := limit.isLt
  unfold returned
  rw [List.length_drop, hn]
  split
  next hfits =>
      rw [List.length_take]
      split <;> omega
  next hfits =>
      rw [List.length_nil]
      split <;> omega

theorem returned_eq_slice_iff :
    (returned table chanID offset limit query).map scan
        = (slice offset.toNat limit.toNat (wanted table chanID query)).map scan ↔
      offset.toNat + limit.toNat < 2 ^ 31 ∨ (wanted table chanID query).length ≤ offset.toNat ∨
        limit.toNat = 0 := by
  have hlength := length_returned table chanID offset limit query
  have hslice := length_slice offset.toNat limit.toNat (wanted table chanID query)
  constructor
  · intro h
    have heq := congrArg List.length h
    rw [List.length_map, List.length_map, hslice, hlength] at heq
    split at heq <;> omega
  · intro h
    by_cases hfits : offset.toNat + limit.toNat < 2 ^ 31
    · have hn : (offset + limit).toNat = offset.toNat + limit.toNat := by
        rw [BitVec.toNat_add]
        omega
      by_cases hzero : 0 < offset.toNat + limit.toNat
      · rw [returned, hn, if_pos ⟨hzero, hfits⟩, List.drop_take, slice]
        congr 2
        omega
      · -- nothing is asked for, and Cassandra refuses to return nothing
        have hempty : (returned table chanID offset limit query).length = 0 := by
          rw [hlength, if_pos hfits]
          omega
        rw [List.length_eq_zero_iff.mp hempty, slice, show limit.toNat = 0 by omega, List.take_zero]
    · have hnone : (slice offset.toNat limit.toNat (wanted table chanID query)).length = 0 := by
        rw [hslice]
        omega
      rw [if_neg hfits] at hlength
      rw [List.length_eq_zero_iff.mp hlength, List.length_eq_zero_iff.mp hnone]

end Bound

/-- **The statements are well formed and the page is what was asked for exactly when every
name in the query is known and the last row that is asked for has a number of 31 bits**, or
there is no row to return anyhow. -/
theorem statements_iff (table : List (Row Num)) (chanID : Text) (offset limit : BitVec 64)
    (query : Query) :
    WellFormed table chanID offset limit query ↔
      Known query ∧ (offset.toNat + limit.toNat < 2 ^ 31 ∨
        (wanted table chanID query).length ≤ offset.toNat ∨ limit.toNat = 0) := by
  constructor
  · rintro ⟨-, hcount, page, hread, hmessages, -⟩
    have hknown : Known query := aligned_count_iff.mp hcount
    rw [readAll_eq hknown] at hread
    rw [← Except.ok.inj hread] at hmessages
    exact ⟨hknown, returned_eq_slice_iff.mp hmessages⟩
  · rintro ⟨hknown, hrows⟩
    exact ⟨hknown.aligned_select, aligned_count_iff.mpr hknown, _, readAll_eq hknown,
      returned_eq_slice_iff.mpr hrows, rfl⟩

/-- **A filter by value**: the reader API takes it, and the reader has a value too many. -/
theorem value_not_wellFormed :
    ¬ ∀ (chanID : Text) (offset limit : BitVec 64) (query : Query),
      WellFormed ([] : List (Row Int)) chanID offset limit query := by
  intro h
  have hcount := (h ['c'] 0 10 ⟨[(.v, ['5'])], List.nodup_singleton _⟩).count.count
  revert hcount
  decide

end Reader

/-! ## §3. The writer. -/

section Writer

variable {Num : Type}

/-- The rows of a table, one for each key. -/
structure Table (Num : Type) where
  rows : List (Row Num)
  keys : (rows.map Row.key).Nodup

/-- What becomes of a statement: it is done, or `Exec` returns an error, and whether the
row was written then is not known. -/
inductive Outcome
  | done
  | failed (err : String) (written : Bool)
  deriving DecidableEq

/-- The values that `Save` binds, under the id of the call. -/
def rowOf (id : UUID) (msg : Message Num) : Row Num where
  id := id
  channel := msg.channel
  subtopic := msg.subtopic
  publisher := msg.publisher
  protocol := msg.protocol
  name := msg.name
  unit := msg.unit
  value := msg.value
  stringValue := msg.stringValue
  boolValue := msg.boolValue
  dataValue := msg.dataValue
  sum := msg.sum
  time := msg.time
  updateTime := msg.updateTime

/-- What of a message is in the key. -/
def stamp (msg : Message Num) : Text × Num := (msg.channel, msg.time)

theorem key_rowOf_inj {id : UUID} {m m' : Message Num} :
    (rowOf id m).key = (rowOf id m').key ↔ stamp m = stamp m' := by
  simp [Row.key, rowOf, stamp]

variable [DecidableEq Num]

theorem key_insert (t : Table Num) (r : Row Num) :
    ((deleteWhere (fun r' => r'.key = r.key) t.rows ++ [r]).map Row.key).Nodup := by
  refine nodup_map_insert (nodup_map_deleteWhere t.keys) fun r' hr' => ?_
  exact (mem_deleteWhere.mp hr').2

/-- `INSERT`: the row of the key is replaced. -/
def Table.insert (t : Table Num) (r : Row Num) : Table Num where
  rows := deleteWhere (fun r' => r'.key = r.key) t.rows ++ [r]
  keys := key_insert t r

/-- `Save`, from the id that `gocql.TimeUUID` returned before the loop. -/
def save (t : Table Num) (id : UUID) : List (Message Num × Outcome) → Table Num × Option String
  | [] => (t, none)
  | (msg, .done) :: batch => save (t.insert (rowOf id msg)) id batch
  | (msg, .failed err written) :: _ =>
      (if written then t.insert (rowOf id msg) else t, some err)

/-- **Nothing is lost**: the rows that were there, and one more for each message. -/
def Lossless (t : Table Num) (id : UUID) (batch : List (Message Num × Outcome)) : Prop :=
  (save t id batch).1.rows.Perm (t.rows ++ batch.map fun p => rowOf id p.1)

/-- Under a key that is new, one row more. -/
theorem insert_new {t : Table Num} {r : Row Num} (h : ∀ r' ∈ t.rows, r'.key ≠ r.key) :
    (t.insert r).rows = t.rows ++ [r] := by
  show deleteWhere (fun r' => r'.key = r.key) t.rows ++ [r] = t.rows ++ [r]
  rw [deleteWhere_eq_self h]

/-- **Distinct keys**: every message finds its key free. -/
theorem save_perm {t : Table Num} {id : UUID} {batch : List (Message Num × Outcome)}
    (hnil : (save t id batch).2 = none)
    (hfree : ∀ r ∈ t.rows, ∀ p ∈ batch, r.key ≠ (rowOf id p.1).key)
    (hstamps : (batch.map fun p => stamp p.1).Nodup) : Lossless t id batch := by
  induction batch generalizing t with
  | nil => simp [Lossless, save]
  | cons p batch ih =>
      obtain ⟨msg, outcome⟩ := p
      cases outcome with
      | failed err written => cases hnil
      | done =>
          rw [List.map_cons, List.nodup_cons] at hstamps
          have hrows := insert_new fun r hr => hfree r hr (msg, .done) List.mem_cons_self
          -- the message is in the table now, and nobody behind it has its key
          have hfree' : ∀ r ∈ (t.insert (rowOf id msg)).rows, ∀ p ∈ batch,
              r.key ≠ (rowOf id p.1).key := by
            intro r hr p hp
            rw [hrows, List.mem_append, List.mem_singleton] at hr
            rcases hr with hold | rfl
            · exact hfree r hold p (List.mem_cons_of_mem _ hp)
            · intro hkey
              exact hstamps.1 (List.mem_map.mpr ⟨p, hp, (key_rowOf_inj.mp hkey).symm⟩)
          have hrest := ih hnil hfree' hstamps.2
          unfold Lossless at hrest ⊢
          rw [hrows, List.append_assoc] at hrest
          exact hrest

/-- **A call of the writer loses no message exactly when no two of its messages have one
channel and one time.** -/
theorem lossless_iff (t : Table Num) (id : UUID) (hid : ∀ r ∈ t.rows, r.id ≠ id)
    (batch : List (Message Num × Outcome)) (hnil : (save t id batch).2 = none) :
    Lossless t id batch ↔ (batch.map fun p => stamp p.1).Nodup := by
  constructor
  · intro h
    -- all keys of the table are distinct, those of the new rows among them
    have hkeys : ((t.rows ++ batch.map fun p => rowOf id p.1).map Row.key).Nodup :=
      (h.map Row.key).nodup_iff.mp (save t id batch).1.keys
    rw [List.map_append, List.map_map] at hkeys
    have hnew := hkeys.of_append_right
    refine List.Nodup.of_map (fun s : Text × Num => (s.1, s.2, id)) ?_
    rw [List.map_map]
    exact hnew
  · intro hstamps
    refine save_perm hnil (fun r hr p _ hkey => hid r hr ?_) hstamps
    have hsame : r.key.2.2 = (rowOf id p.1).key.2.2 := by rw [hkey]
    exact hsame

/-- A record of a pack. -/
def measured (name : Text) (time : Int) : Message Int where
  channel := ['c']
  topic := []
  subtopic := []
  publisher := ['p']
  devname := []
  protocol := ['h', 't', 't', 'p']
  name := name
  unit := []
  time := time
  updateTime := 0
  value := some 1
  stringValue := none
  dataValue := none
  boolValue := none
  sum := none

/-- Two records of different times. -/
theorem lossless_iff_times :
    Lossless (Table.mk [] List.nodup_nil) (UUID.fill 3)
      [(measured ['t'] 5, .done), (measured ['h'] 6, .done)] :=
  (lossless_iff (Table.mk [] List.nodup_nil) (UUID.fill 3) (fun r hr => by cases hr) _ rfl).mpr
    (by decide)

/-- **Two sensors measured at one time**: the second record replaces the first. -/
theorem pack_loses_record :
    ¬ ∀ (t : Table Int) (id : UUID), (∀ r ∈ t.rows, r.id ≠ id) →
      ∀ batch : List (Message Int × Outcome), (save t id batch).2 = none →
        Lossless t id batch := by
  intro h
  have hlossless := h (Table.mk [] List.nodup_nil) (UUID.fill 3) (fun r hr => by cases hr)
    [(measured ['t'] 5, .done), (measured ['h'] 5, .done)] rfl
  have hlength := hlossless.length_eq
  revert hlength
  decide +kernel

end Writer

end Mainflux.Storage.Cassandra
