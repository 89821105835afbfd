/-
  Mainflux.Storage.Columns
  ────────────────────────
  **HOW THE INFLUXDB READER PUTS A ROW TOGETHER.**

  InfluxDB returns a row as a list of cells and, for all rows of the response, a list of
  the names of their columns.  `parseMessage` goes through both: it finds the field of the
  message by the capitalised name of the column, sets it if the cell is of its type, and
  gives the columns that end in `value` to `parseValues`.  The time comes as a text in the
  format of RFC 3339.

    • `parse_eq` — in whatever order the columns come, and whichever of the absent ones
      are there as nulls, the message is `parseMessage` of `Storage.Influx`;
    • `unixNano_eq` — the writer's split of a time into seconds and nanoseconds is exact;
    • `columns_roundTrip_iff` — a message is read back as it was exactly when its time is
      a whole number of seconds.
-/
import Mathlib.Algebra.Order.Floor.Ring
import Mathlib.Data.List.Sort
import Mathlib.Data.Rat.Floor
import Mathlib.Tactic.FieldSimp
import Mainflux.Storage.Readback

namespace Mainflux.Storage

open Mainflux.Lib

open Mainflux.Messaging

/-! ## §1. The reader. -/

section Reader

variable {Num : Type}

/-- A cell of a response; a `json.Number` by what its `Float64` is. -/
inductive Cell (Num : Type)
  | null
  | text (s : Text)
  | number (x : Num)
  | bool (b : Bool)

/-- `unicode`'s part of `strings.Title`, for the ASCII names of columns. -/
def isSeparator (c : Char) : Bool := !(c.isAlphanum || c == '_')

/-- `strings.Title`, behind the character `prev`. -/
def titleFrom (prev : Char) : Text → Text
  | [] => []
  | c :: cs => (if isSeparator prev then c.toUpper else c) :: titleFrom c cs

/-- `strings.Title`. -/
def title (s : Text) : Text := titleFrom ' ' s

/-- The fields of `senml.Message` that are no pointers. -/
inductive Member
  | channel
  | topic
  | subtopic
  | publisher
  | devname
  | protocol
  | name
  | unit
  | time
  | updateTime
  deriving DecidableEq

/-- `FieldByName`; a pointer is a field of neither type of the `switch`. -/
def fieldByName (name : Text) : Option Member :=
  [(['C', 'h', 'a', 'n', 'n', 'e', 'l'], Member.channel), (['T', 'o', 'p', 'i', 'c'], .topic),
    (['S', 'u', 'b', 't', 'o', 'p', 'i', 'c'], .subtopic),
    (['P', 'u', 'b', 'l', 'i', 's', 'h', 'e', 'r'], .publisher),
    (['D', 'e', 'v', 'n', 'a', 'm', 'e'], .devname),
    (['P', 'r', 'o', 't', 'o', 'c', 'o', 'l'], .protocol), (['N', 'a', 'm', 'e'], .name),
    (['U', 'n', 'i', 't'], .unit), (['T', 'i', 'm', 'e'], .time),
    (['U', 'p', 'd', 'a', 't', 'e', 'T', 'i', 'm', 'e'], .updateTime)].lookup name

/-- `SetString`; a field of another type is left alone. -/
def Member.setString (m : Message Num) (s : Text) : Member → Message Num
  | .channel => { m with channel := s }
  | .topic => { m with topic := s }
  | .subtopic => { m with subtopic := s }
  | .publisher => { m with publisher := s }
  | .devname => { m with devname := s }
  | .protocol => { m with protocol := s }
  | .name => { m with name := s }
  | .unit => { m with unit := s }
  | .time => m
  | .updateTime => m

/-- `SetFloat`; a field of another type is left alone. -/
def Member.setFloat (m : Message Num) (x : Num) : Member → Message Num
  | .time => { m with time := x }
  | .updateTime => { m with updateTime := x }
  | _ => m

/-- The type of the field is `float64`. -/
def Member.isFloat : Member → Bool
  | .time => true
  | .updateTime => true
  | _ => false

def sumWord : Text := ['s', 'u', 'm']

def valueWord : Text := ['v', 'a', 'l', 'u', 'e']

def timeWord : Text := ['t', 'i', 'm', 'e']

/-- `parseValues`. -/
def parseValues (cell : Cell Num) (name : Text) (m : Message Num) : Message Num :=
  match cell with
  | .null => m
  | .number x =>
      if name = sumWord then { m with sum := some x }
      else if valueWord.isSuffixOf (name.map Char.toLower) then { m with value := some x }
      else m
  | .bool b =>
      if name = sumWord then m
      else if valueWord.isSuffixOf (name.map Char.toLower) then { m with boolValue := some b }
      else m
  | .text s =>
      if name = sumWord then m
      else if valueWord.isSuffixOf (name.map Char.toLower) then
        -- the beginning of the name tells the two fields of type string apart
        if ['s', 't', 'r', 'i', 'n', 'g'].isPrefixOf name then { m with stringValue := some s }
        else if ['d', 'a', 't', 'a'].isPrefixOf name then { m with dataValue := some s }
        else m
      else m

/-- A round of the loop of `parseMessage`; `none` where a type assertion panics.
`parseTime` is `time.Parse(time.RFC3339, ·)`, in nanoseconds. -/
def parseColumn (rt : Runtime Num) (parseTime : Text → Option Int) (m : Message Num)
    (column : Text × Cell Num) : Option (Message Num) :=
  let m := parseValues column.2 column.1 m
  match fieldByName (title column.1) with
  | none => some m
  | some field =>
      match column.2 with
      | .text s =>
          if !field.isFloat then some (field.setString m s)
          else if column.1 = timeWord then
            match parseTime s with
            | none => some m
            -- `t.Unix()`: the fraction of the second is gone
            | some t => some (field.setFloat m (rt.seconds (t.fdiv 1000000000)))
          else some (field.setFloat m (rt.parseFloat s))
      -- `fields[i].(string)` of a cell that is no string, without an `ok`
      | _ => if field.isFloat then none else some m

/-- `senml.Message{}`. -/
def zeroMessage (rt : Runtime Num) : Message Num where
  channel := []
  topic := []
  subtopic := []
  publisher := []
  devname := []
  protocol := []
  name := []
  unit := []
  time := rt.zero
  updateTime := rt.zero
  value := none
  stringValue := none
  dataValue := none
  boolValue := none
  sum := none

/-- `parseMessage`, from the names of the columns and the cells of a row. -/
def parseColumns (rt : Runtime Num) (parseTime : Text → Option Int) (names : List Text)
    (fields : List (Cell Num)) : Option (Message Num) :=
  (names.zip fields).foldlM (parseColumn rt parseTime) (zeroMessage rt)

end Reader

/-! ## §2. The columns of a row. -/

section Columns

variable {Num : Type} {rt : Runtime Num}

/-- The columns of the measurement: the time, the tags and the fields of the writer. -/
inductive Col
  | time
  | channel
  | subtopic
  | publisher
  | devname
  | name
  | unit
  | protocol
  | updateTime
  | value
  | stringValue
  | dataValue
  | boolValue
  | sum
  deriving DecidableEq

/-- The name of a column, the keys of `tagsOf` and `fieldsOf`. -/
def Col.text : Col → Text
  | .time => timeWord
  | .channel => ['c', 'h', 'a', 'n', 'n', 'e', 'l']
  | .subtopic => ['s', 'u', 'b', 't', 'o', 'p', 'i', 'c']
  | .publisher => ['p', 'u', 'b', 'l', 'i', 's', 'h', 'e', 'r']
  | .devname => ['d', 'e', 'v', 'n', 'a', 'm', 'e']
  | .name => ['n', 'a', 'm', 'e']
  | .unit => ['u', 'n', 'i', 't']
  | .protocol => ['p', 'r', 'o', 't', 'o', 'c', 'o', 'l']
  | .updateTime => ['u', 'p', 'd', 'a', 't', 'e', 'T', 'i', 'm', 'e']
  | .value => valueWord
  | .stringValue => ['s', 't', 'r', 'i', 'n', 'g', 'V', 'a', 'l', 'u', 'e']
  | .dataValue => ['d', 'a', 't', 'a', 'V', 'a', 'l', 'u', 'e']
  | .boolValue => ['b', 'o', 'o', 'l', 'V', 'a', 'l', 'u', 'e']
  | .sum => sumWord

/-- A field that may be absent. -/
def Cell.of {α : Type} (f : α → Cell Num) (x : Option α) : Cell Num :=
  match x with
  | none => .null
  | some v => f v

/-- What InfluxDB has in a column of a row; `rfc3339` writes the timestamp. -/
def Col.cell (rfc3339 : Int → Text) (row : Series × Fields Num) : Col → Cell Num
  | .time => .text (rfc3339 row.1.time)
  | .channel => .text row.1.tags.channel
  | .subtopic => .text row.1.tags.subtopic
  | .publisher => .text row.1.tags.publisher
  | .devname => .text row.1.tags.devname
  | .name => .text row.1.tags.name
  | .unit => .text row.1.tags.unit
  | .protocol => .of .text row.2.protocol
  | .updateTime => .of .text row.2.updateTime
  | .value => .of .number row.2.value
  | .stringValue => .of .text row.2.stringValue
  | .dataValue => .of .text row.2.dataValue
  | .boolValue => .of .bool row.2.boolValue
  | .sum => .of .number row.2.sum

def Col.isTag : Col → Bool
  | .channel => true
  | .subtopic => true
  | .publisher => true
  | .devname => true
  | .name => true
  | .unit => true
  | _ => false

/-- The cells that a column may have: a tag without a value is not stored, and comes
back as a null. -/
def Col.Shows (rfc3339 : Int → Text) (row : Series × Fields Num) (c : Col) (cell : Cell Num) :
    Prop :=
  cell = c.cell rfc3339 row ∨ cell = .null ∧ c.isTag ∧ c.cell rfc3339 row = .text []

/-- **A response with the row**: columns in any order, and a column that is left out is
one that would be null. -/
structure Layout (rfc3339 : Int → Text) (row : Series × Fields Num) where
  columns : List Col
  cells : List (Cell Num)
  shows : List.Forall₂ (Col.Shows rfc3339 row) columns cells
  complete : ∀ c ∉ columns, c.Shows rfc3339 row .null

/-- What `parseMessage` makes of a response. -/
def Layout.parse {rfc3339 : Int → Text} {row : Series × Fields Num} (rt : Runtime Num)
    (parseTime : Text → Option Int) (l : Layout rfc3339 row) : Option (Message Num) :=
  parseColumns rt parseTime (l.columns.map Col.text) l.cells

/-! ### What a column is of a message. -/

/-- The part of a message that a column holds. -/
def Col.slot (m : Message Num) : Col → Cell Num
  | .time => .number m.time
  | .channel => .text m.channel
  | .subtopic => .text m.subtopic
  | .publisher => .text m.publisher
  | .devname => .text m.devname
  | .name => .text m.name
  | .unit => .text m.unit
  | .protocol => .text m.protocol
  | .updateTime => .number m.updateTime
  | .value => .of .number m.value
  | .stringValue => .of .text m.stringValue
  | .dataValue => .of .text m.dataValue
  | .boolValue => .of .bool m.boolValue
  | .sum => .of .number m.sum

/-- The part of a column, taken from another message. -/
def Col.copy (src m : Message Num) : Col → Message Num
  | .time => { m with time := src.time }
  | .channel => { m with channel := src.channel }
  | .subtopic => { m with subtopic := src.subtopic }
  | .publisher => { m with publisher := src.publisher }
  | .devname => { m with devname := src.devname }
  | .name => { m with name := src.name }
  | .unit => { m with unit := src.unit }
  | .protocol => { m with protocol := src.protocol }
  | .updateTime => { m with updateTime := src.updateTime }
  | .value => { m with value := src.value }
  | .stringValue => { m with stringValue := src.stringValue }
  | .dataValue => { m with dataValue := src.dataValue }
  | .boolValue => { m with boolValue := src.boolValue }
  | .sum => { m with sum := src.sum }

theorem of_injective {α : Type} {f : α → Cell Num} (hf : ∀ a b, f a = f b → a = b)
    (hnull : ∀ a, f a ≠ .null) {x y : Option α} (h : Cell.of f x = Cell.of f y) : x = y := by
  cases x with
  | none =>
      cases y with
      | none => rfl
      | some b => exact absurd h.symm (hnull b)
  | some a =>
      cases y with
      | none => exact absurd h (hnull a)
      | some b => rw [hf a b h]

/-- A message is its topic and its columns. -/
theorem message_ext {m m' : Message Num} (htopic : m.topic = m'.topic)
    (h : ∀ c : Col, c.slot m = c.slot m') : m = m' := by
  have htext : ∀ {s s' : Text}, (Cell.text s : Cell Num) = .text s' → s = s' :=
    fun h => Cell.text.inj h
  have hnumber : ∀ {x x' : Num}, Cell.number x = .number x' → x = x' := fun h => Cell.number.inj h
  obtain ⟨⟩ := m
  obtain ⟨⟩ := m'
  simp only [Message.mk.injEq]
  exact ⟨htext (h .channel), htopic, htext (h .subtopic), htext (h .publisher),
    htext (h .devname), htext (h .protocol), htext (h .name), htext (h .unit),
    hnumber (h .time), hnumber (h .updateTime),
    of_injective (fun _ _ => Cell.number.inj) (by simp) (h .value),
    of_injective (fun _ _ => Cell.text.inj) (by simp) (h .stringValue),
    of_injective (fun _ _ => Cell.text.inj) (by simp) (h .dataValue),
    of_injective (fun _ _ => Cell.bool.inj) (by simp) (h .boolValue),
    of_injective (fun _ _ => Cell.number.inj) (by simp) (h .sum)⟩

theorem topic_copy (src m : Message Num) (c : Col) : (c.copy src m).topic = m.topic := by
  cases c <;> rfl

theorem slot_copy (src m : Message Num) (c c' : Col) :
    c.slot (c'.copy src m) = if c = c' then c.slot src else c.slot m := by
  cases c' <;> cases c <;> rfl

/-- After some columns have been copied. -/
theorem slot_foldl_copy (src : Message Num) (cs : List Col) (m : Message Num) (c : Col) :
    c.slot (cs.foldl (fun m c => c.copy src m) m) = if c ∈ cs then c.slot src else c.slot m := by
  induction cs generalizing m with
  | nil => rfl
  | cons c' cs ih =>
      rw [List.foldl_cons, ih, slot_copy]
      simp only [List.mem_cons]
      by_cases hcs : c ∈ cs
      · simp [hcs]
      · simp [hcs]

theorem topic_foldl_copy (src : Message Num) (cs : List Col) (m : Message Num) :
    (cs.foldl (fun m c => c.copy src m) m).topic = m.topic := by
  induction cs generalizing m with
  | nil => rfl
  | cons c cs ih => rw [List.foldl_cons, ih, topic_copy]

end Columns

/-! ## §3. One row. -/

section Row

variable {Num : Type} {rt : Runtime Num}

/-- The field of the message that a column is for, if it is no pointer. -/
def Col.member : Col → Option Member
  | .time => some .time
  | .channel => some .channel
  | .subtopic => some .subtopic
  | .publisher => some .publisher
  | .devname => some .devname
  | .name => some .name
  | .unit => some .unit
  | .protocol => some .protocol
  | .updateTime => some .updateTime
  | _ => none

/-- The capitalised name of a column is the name of its field. -/
theorem fieldByName_title (c : Col) : fieldByName (title c.text) = c.member := by
  cases c <;> decide

def Col.isValue : Col → Bool
  | .value => true
  | .stringValue => true
  | .dataValue => true
  | .boolValue => true
  | _ => false

theorem text_eq_sumWord (c : Col) : c.text = sumWord ↔ c = .sum := by
  cases c <;> decide

theorem text_eq_timeWord (c : Col) : c.text = timeWord ↔ c = .time := by
  cases c <;> decide

theorem suffix_text (c : Col) :
    valueWord.isSuffixOf (c.text.map Char.toLower) = c.isValue := by
  cases c <;> decide

theorem string_prefix_text (c : Col) :
    ['s', 't', 'r', 'i', 'n', 'g'].isPrefixOf c.text = decide (c = .stringValue) := by
  cases c <;> decide

theorem data_prefix_text (c : Col) :
    ['d', 'a', 't', 'a'].isPrefixOf c.text = decide (c = .dataValue) := by
  cases c <;> decide

/-- A null changes nothing, but for the two times. -/
theorem parseColumn_null (parseTime : Text → Option Int) (m : Message Num) {c : Col}
    (htime : c ≠ .time) (hupdate : c ≠ .updateTime) :
    parseColumn rt parseTime m (c.text, .null) = some m := by
  simp only [parseColumn, parseValues, fieldByName_title]
  cases c <;> first | rfl | contradiction

variable {rfc3339 : Int → Text} {parseTime : Text → Option Int} {row : Series × Fields Num}

theorem exists_of_ne_null {α : Type} {f : α → Cell Num} {x : Option α}
    (h : Cell.of f x ≠ .null) : ∃ v, x = some v := by
  cases x with
  | none => exact absurd rfl h
  | some v => exact ⟨v, rfl⟩

/-- **A round of the loop** copies the part of its column. -/
theorem parseColumn_cell (htime : parseTime (rfc3339 row.1.time) = some row.1.time) (m : Message Num)
    {c : Col} (hcell : c.cell rfc3339 row ≠ .null) :
    parseColumn rt parseTime m (c.text, c.cell rfc3339 row) = some (c.copy (parseMessage rt row) m) := by
  simp only [parseColumn, parseValues, fieldByName_title, text_eq_sumWord, text_eq_timeWord,
    suffix_text, string_prefix_text, data_prefix_text]
  cases c with
  | time =>
      simp only [Col.cell, Col.member, Col.isValue, htime]
      rfl
  | channel | subtopic | publisher | devname | name | unit => rfl
  | _ =>
      -- a field that is set
      obtain ⟨v, hv⟩ := exists_of_ne_null hcell
      simp only [Col.cell, Col.copy, parseMessage, hv]
      rfl

theorem of_eq_null {α : Type} {f : α → Cell Num} (hnull : ∀ a, f a ≠ .null) {x : Option α}
    (h : Cell.of f x = .null) : x = none := by
  cases x with
  | none => rfl
  | some v => exact absurd h (hnull v)

/-- A column that may be null is neither of the times. -/
theorem ne_time_of_null {c : Col} (h : c.Shows rfc3339 row .null) : c ≠ .time := by
  rintro rfl
  rcases h with hcell | ⟨-, htag, -⟩
  · cases hcell
  · cases htag

theorem ne_updateTime_of_null (hset : row.2.updateTime ≠ none) {c : Col}
    (h : c.Shows rfc3339 row .null) : c ≠ .updateTime := by
  rintro rfl
  rcases h with hcell | ⟨-, htag, -⟩
  · obtain ⟨v, hv⟩ := Option.ne_none_iff_exists'.mp hset
    simp [Col.cell, hv, Cell.of] at hcell
  · cases htag

/-- What is not there is the zero value of its field. -/
theorem slot_of_null (hset : row.2.updateTime ≠ none) {c : Col} (h : c.Shows rfc3339 row .null) :
    c.slot (parseMessage rt row) = c.slot (zeroMessage rt) := by
  have htime := ne_time_of_null h
  have hupdate := ne_updateTime_of_null hset h
  rcases h with hcell | ⟨-, htag, hempty⟩
  · cases c with
    | time | updateTime => contradiction
    | channel | subtopic | publisher | devname | name | unit => cases hcell
    | _ =>
        -- a field that is not set
        have hnone := of_eq_null (by simp) hcell.symm
        simp only [Col.slot, parseMessage, zeroMessage, hnone, Option.getD_none]
  · cases c with
    | channel | subtopic | publisher | devname | name | unit => exact hempty
    | _ => cases htag

/-- **The loop** copies the columns that are not null. -/
theorem foldlM_parseColumn (rt : Runtime Num) (hset : row.2.updateTime ≠ none)
    (htime : parseTime (rfc3339 row.1.time) = some row.1.time) {columns : List Col}
    {cells : List (Cell Num)} (h : List.Forall₂ (Col.Shows rfc3339 row) columns cells)
    (m : Message Num) :
    ∃ cs : List Col,
      ((columns.map Col.text).zip cells).foldlM (parseColumn rt parseTime) m
          = some (cs.foldl (fun m c => c.copy (parseMessage rt row) m) m) ∧
        ∀ c ∈ columns, c ∉ cs → c.Shows rfc3339 row .null := by
  induction h generalizing m with
  | nil => exact ⟨[], rfl, fun c hc => absurd hc List.not_mem_nil⟩
  | @cons c cell columns cells hshow h ih =>
      simp only [List.map_cons, List.zip_cons_cons, List.foldlM_cons]
      by_cases hnull : cell = .null
      · -- a null is passed over: it is in the column of neither time
        subst hnull
        rw [parseColumn_null parseTime m (ne_time_of_null hshow) (ne_updateTime_of_null hset hshow)]
        obtain ⟨cs, hfold, hcs⟩ := ih m
        refine ⟨cs, hfold, fun c' hc' hnot => ?_⟩
        rcases List.mem_cons.mp hc' with rfl | hc'
        · exact hshow
        · exact hcs c' hc' hnot
      · obtain rfl : cell = c.cell rfc3339 row := hshow.resolve_right fun h => hnull h.1
        rw [parseColumn_cell htime m hnull]
        obtain ⟨cs, hfold, hcs⟩ := ih (c.copy (parseMessage rt row) m)
        refine ⟨c :: cs, hfold, fun c' hc' hnot => ?_⟩
        rcases List.mem_cons.mp hc' with rfl | hc'
        · exact absurd List.mem_cons_self hnot
        · exact hcs c' hc' fun h => hnot (List.mem_cons_of_mem _ h)

/-- **The order of the columns does not matter**, nor which of the absent ones are there:
the loop makes the message that `Storage.Influx` has for the row. -/
theorem parse_eq (hset : row.2.updateTime ≠ none)
    (htime : parseTime (rfc3339 row.1.time) = some row.1.time) (l : Layout rfc3339 row) :
    l.parse rt parseTime = some (parseMessage rt row) := by
  obtain ⟨cs, hfold, hcs⟩ := foldlM_parseColumn rt hset htime l.shows (zeroMessage rt)
  rw [Layout.parse, parseColumns, hfold]
  congr 1
  apply message_ext
  · rw [topic_foldl_copy]
    rfl
  · intro c
    rw [slot_foldl_copy]
    split
    · rfl
    next hnot =>
        symm
        apply slot_of_null hset
        by_cases hc : c ∈ l.columns
        · exact hcs c hc hnot
        · exact l.complete c hc

end Row

/-! ## §4. Times as rationals. -/

section Rationals

/-- The part of a number before the point. -/
def trunc (x : ℚ) : Int := x.num.tdiv x.den

/-- `time.Unix(int64(sec), int64(dec*(1e9)))` of `sec, dec := math.Modf(x)`. -/
def unixNano (x : ℚ) : Int := trunc x * 1000000000 + trunc ((x - trunc x) * 1000000000)

/-- How numbers and times are written and read: `strconv.FormatFloat`,
`strconv.ParseFloat`, the timestamps of InfluxDB and `time.Parse(time.RFC3339, ·)`. -/
structure Texts where
  formatFloat : ℚ → Text
  parseFloat : Text → ℚ
  rfc3339 : Int → Text
  parseTime : Text → Option Int

def rationals (t : Texts) : Runtime ℚ where
  zero := 0
  isZero := (· == 0)
  add := (· + ·)
  finite := fun _ => true
  unix := unixNano
  seconds := fun n => n
  formatFloat := t.formatFloat
  parseFloat := t.parseFloat
  sort := List.insertionSort fun a b => a.time ≤ b.time
  sort_perm := List.perm_insertionSort _

theorem trunc_intCast (k : Int) : trunc (k : ℚ) = k := by
  simp [trunc]

/-- **The writer's split of a time is exact** to the nanosecond. -/
theorem unixNano_eq {x : ℚ} {n : Int} (h : x = n / 1000000000) : unixNano x = n := by
  -- the fraction is a whole number of nanoseconds
  have hdec : (x - trunc x) * 1000000000 = ((n - trunc x * 1000000000 : Int) : ℚ) := by
    push_cast
    rw [h]
    ring
  rw [unixNano, hdec, trunc_intCast]
  omega

/-- What `parseMessage` has left of the time. -/
theorem seconds_eq_iff {n : Int} :
    ((n.fdiv 1000000000 : Int) : ℚ) = n / 1000000000 ↔ ∃ s : Int, (n : ℚ) / 1000000000 = s := by
  constructor
  · intro h
    exact ⟨_, h.symm⟩
  · rintro ⟨s, hs⟩
    have hn : n = s * 1000000000 := by
      have : (n : ℚ) = s * 1000000000 := by
        rw [← hs]
        ring
      exact_mod_cast this
    rw [hs, hn, Int.mul_fdiv_cancel _ (by decide)]

end Rationals

/-! ## §5. The round trip. -/

section RoundTrip

variable {Num : Type} {rt : Runtime Num}

/-- The fields of a point, without the two texts that are read back elsewhere. -/
theorem fieldsOf_eq {m : Message Num} (hone : OneValue m) :
    fieldsOf rt m =
      { protocol := some m.protocol
        updateTime := some (rt.formatFloat m.updateTime)
        value := m.value
        stringValue := m.stringValue
        dataValue := m.dataValue
        boolValue := m.boolValue
        sum := m.sum } := by
  unfold fieldsOf
  -- only one of the four can be set, so that the first of them is all of them
  rcases oneValue_cases hone with ⟨hs, hd, hb⟩ | ⟨hv, hd, hb⟩ | ⟨hv, hs, hb⟩ | ⟨hv, hs, hd⟩
  · rw [hs, hd, hb]
    cases m.value with
    | none => rfl
    | some v => rfl
  · rw [hv, hd, hb]
    cases m.stringValue with
    | none => rfl
    | some v => rfl
  · rw [hv, hs, hb]
    cases m.dataValue with
    | none => rfl
    | some v => rfl
  · rw [hv, hs, hd]

/-- The message that is read from the row of a message. -/
theorem parseMessage_keyed {m : Message Num} (hone : OneValue m) :
    parseMessage rt (keyed rt m) =
      { m with
        topic := []
        time := rt.seconds ((rt.unix m.time).fdiv 1000000000)
        updateTime := rt.parseFloat (rt.formatFloat m.updateTime) } := by
  unfold keyed
  rw [fieldsOf_eq hone]
  rfl

/-- **What the reader makes of the row of a message**: the message without its topic, and
with the whole seconds of its time. -/
theorem parse_keyed {t : Texts} {m : Message ℚ} {n : Int} (hone : OneValue m)
    (hnano : m.time = n / 1000000000)
    (hfloat : t.parseFloat (t.formatFloat m.updateTime) = m.updateTime)
    (htime : t.parseTime (t.rfc3339 n) = some n)
    (l : Layout t.rfc3339 (keyed (rationals t) m)) :
    l.parse (rationals t) t.parseTime
      = some { m with topic := [], time := (n.fdiv 1000000000 : Int) } := by
  have hunix : (rationals t).unix m.time = n := unixNano_eq hnano
  have hset : (keyed (rationals t) m).2.updateTime ≠ none := by
    simp [keyed, fieldsOf_eq hone]
  have hparse : t.parseTime (t.rfc3339 (keyed (rationals t) m).1.time)
      = some (keyed (rationals t) m).1.time := by
    simp only [keyed, hunix, htime]
  have hupdate : (rationals t).parseFloat ((rationals t).formatFloat m.updateTime) = m.updateTime :=
    hfloat
  rw [parse_eq hset hparse l, parseMessage_keyed hone, hunix, hupdate]
  rfl

end RoundTrip

/-- **A message is read back as it was written, up to its topic, exactly when its time is
a whole number of seconds.**  Its update time is a text that `ParseFloat` reads as it was,
and its timestamp one that `time.Parse` does. -/
theorem columns_roundTrip_iff (t : Texts) (m : Message ℚ) (n : Int) (hone : OneValue m)
    (hnano : m.time = n / 1000000000)
    (hfloat : t.parseFloat (t.formatFloat m.updateTime) = m.updateTime)
    (htime : t.parseTime (t.rfc3339 n) = some n)
    (l : Layout t.rfc3339 (keyed (rationals t) m)) :
    l.parse (rationals t) t.parseTime = some { m with topic := [] } ↔ ∃ s : Int, m.time = s := by
  rw [parse_keyed hone hnano hfloat htime l, hnano, ← seconds_eq_iff]
  constructor
  · intro h
    exact congrArg Message.time (Option.some.inj h)
  · intro h
    rw [h]

/-- A response with all columns. -/
def Layout.full {Num : Type} (rfc3339 : Int → Text) (row : Series × Fields Num) :
    Layout rfc3339 row where
  columns := [.time, .boolValue, .channel, .dataValue, .devname, .name, .protocol, .publisher,
    .stringValue, .subtopic, .sum, .unit, .updateTime, .value]
  cells := [Col.time, .boolValue, .channel, .dataValue, .devname, .name, .protocol, .publisher,
    .stringValue, .subtopic, .sum, .unit, .updateTime, .value].map (Col.cell rfc3339 row)
  shows := List.forall₂_map_right_iff.mpr (List.forall₂_same.mpr fun _ _ => .inl rfl)
  complete := by
    intro c hc
    cases c <;> exact absurd (by decide) hc

/-- The texts of zero, of half a second and of five seconds after 1970. -/
def stamps : Texts where
  formatFloat := fun x => if x = 0 then ['0'] else []
  parseFloat := fun _ => 0
  rfc3339 := fun n =>
    if n = 500000000 then "1970-01-01T00:00:00.5Z".toList
    else if n = 5000000000 then "1970-01-01T00:00:05Z".toList
    else []
  parseTime := fun s =>
    if s = "1970-01-01T00:00:00.5Z".toList then some 500000000
    else if s = "1970-01-01T00:00:05Z".toList then some 5000000000
    else none

/-- `{"n": "on", "vb": true, "t": time}`, on channel `1`. -/
def blink (time : ℚ) : Message ℚ where
  channel := ['1']
  topic := messagesWord
  subtopic := []
  publisher := ['l']
  devname := []
  protocol := ['m', 'q', 't', 't']
  name := ['o', 'n']
  unit := []
  time := time
  updateTime := 0
  value := none
  stringValue := none
  dataValue := none
  boolValue := some true
  sum := none

/-- The condition holds of the record at five seconds. -/
theorem columns_roundTrip_iff_blink :
    OneValue (blink 5) ∧
      (Layout.full stamps.rfc3339 (keyed (rationals stamps) (blink 5))).parse (rationals stamps)
          stamps.parseTime = some { blink 5 with topic := [] } := by
  have hone : OneValue (blink 5) := by simp [OneValue, blink]
  refine ⟨hone, (columns_roundTrip_iff stamps (blink 5) 5000000000 hone ?_ rfl ?_ _).mpr ⟨5, ?_⟩⟩
  · norm_num [blink]
  · decide
  · norm_num [blink]

/-- **Half a second is lost**: the reader puts the record at zero. -/
theorem fraction_lost :
    OneValue (blink (1 / 2)) ∧ (blink (1 / 2)).time = (500000000 : Int) / 1000000000 ∧
      (Layout.full stamps.rfc3339 (keyed (rationals stamps) (blink (1 / 2)))).parse
          (rationals stamps) stamps.parseTime = some { blink (1 / 2) with topic := [], time := 0 } ∧
      (Layout.full stamps.rfc3339 (keyed (rationals stamps) (blink (1 / 2)))).parse
          (rationals stamps) stamps.parseTime ≠ some { blink (1 / 2) with topic := [] } := by
  have hone : OneValue (blink (1 / 2)) := by simp [OneValue, blink]
  have hnano : (blink (1 / 2)).time = (500000000 : Int) / 1000000000 := by norm_num [blink]
  have hread := parse_keyed (t := stamps) hone hnano rfl (by decide)
    (Layout.full stamps.rfc3339 (keyed (rationals stamps) (blink (1 / 2))))
  have hzero : Int.fdiv 500000000 1000000000 = 0 := by decide
  rw [hzero] at hread
  refine ⟨hone, hnano, hread, fun h => ?_⟩
  rw [hread] at h
  have htime := congrArg Message.time (Option.some.inj h)
  norm_num [blink] at htime

end Mainflux.Storage
