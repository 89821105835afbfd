/-
  Mainflux.Storage.Mongo
  ──────────────────────
  **THE MONGODB WRITER AND READER.**

  The writer makes a document of every message and inserts the documents of a call in
  order.  A field whose value is empty is left out of its document.  The reader filters,
  sorts and counts with one and the same condition.

  The server is taken at its documentation: an insertion that fails has stored what stands
  in front of the failing document, a condition on a field holds of no document without
  that field, a missing value sorts below every number, and equal times may come in any order.

    • `message_document` — a document shows what its message was;
    • `consumed_exact` — after any run of the writer, a page is the slice of the messages
      that match, by time, and its total counts them.
-/
import Mathlib.Algebra.Ring.Int.Defs
import Mathlib.Data.List.Perm.Basic
import Mathlib.Data.List.Sort
import Mainflux.Lib.Table
import Mainflux.Storage.Influx
import Mainflux.Storage.Query
import Mainflux.Storage.Readback

namespace Mainflux.Storage.Mongo

open Mainflux.Lib

/-! ## §1. Documents. -/

/-- The struct `message`, the same in both services. -/
structure DbMessage (Num : Type) where
  channel : Text
  subtopic : Text
  publisher : Text
  protocol : Text
  name : Text
  unit : Text
  value : Option Num := none
  stringValue : Option Text := none
  boolValue : Option Bool := none
  dataValue : Option Text := none
  sum : Option Num := none
  time : Num
  updateTime : Num

/-- A document of the collection, apart from its id. -/
structure Document (Num : Type) where
  channel : Option Text
  subtopic : Option Text
  publisher : Option Text
  protocol : Option Text
  name : Option Text
  unit : Option Text
  value : Option Num
  stringValue : Option Text
  boolValue : Option Bool
  dataValue : Option Text
  sum : Option Num
  time : Option Num
  updateTime : Option Num

section Codec

variable {Num : Type} (rt : Runtime Num)

/-- `omitempty` of a string. -/
def ofText (s : Text) : Option Text := if s = [] then none else some s

/-- `omitempty` of a number, which is empty when it equals zero. -/
def ofNum (x : Num) : Option Num := if rt.isZero x then none else some x

/-- The encoder of a struct; a pointer is empty when it is nil. -/
def encode (m : DbMessage Num) : Document Num where
  channel := ofText m.channel
  subtopic := ofText m.subtopic
  publisher := ofText m.publisher
  protocol := ofText m.protocol
  name := ofText m.name
  unit := ofText m.unit
  value := m.value
  stringValue := m.stringValue
  boolValue := m.boolValue
  dataValue := m.dataValue
  sum := m.sum
  time := ofNum rt m.time
  updateTime := ofNum rt m.updateTime

/-- `cursor.Decode` into a new struct. -/
def decode (d : Document Num) : DbMessage Num where
  channel := d.channel.getD []
  subtopic := d.subtopic.getD []
  publisher := d.publisher.getD []
  protocol := d.protocol.getD []
  name := d.name.getD []
  unit := d.unit.getD []
  value := d.value
  stringValue := d.stringValue
  boolValue := d.boolValue
  dataValue := d.dataValue
  sum := d.sum
  time := d.time.getD rt.zero
  updateTime := d.updateTime.getD rt.zero

end Codec

/-! ## §2. The writer. -/

section Writer

variable {Num : Type} (rt : Runtime Num)

/-- The loop body of `Save`. -/
def toDBMessage (msg : Message Num) : DbMessage Num :=
  let m : DbMessage Num :=
    { channel := msg.channel
      subtopic := msg.subtopic
      publisher := msg.publisher
      protocol := msg.protocol
      name := msg.name
      unit := msg.unit
      time := msg.time
      updateTime := msg.updateTime }
  let m :=
    match msg.value, msg.stringValue, msg.dataValue, msg.boolValue with
    | some v, _, _, _ => { m with value := some v }
    | none, some v, _, _ => { m with stringValue := some v }
    | none, none, some v, _ => { m with dataValue := some v }
    | none, none, none, b => { m with boolValue := b }
  { m with sum := msg.sum }

inductive SaveError
  /-- `ErrEmptySlice`. -/
  | emptySlice
  | bulkWrite
  deriving DecidableEq

/-- A call of `Save`: how many of the documents the server inserts, and whether its answer comes back. -/
structure Call (Num : Type) where
  batch : List (Message Num)
  inserts : Nat
  answered : Bool

/-- The messages of a call that are in the collection after it. -/
def Call.stored (call : Call Num) : List (Message Num) := call.batch.take call.inserts

/-- `Save`: the collection after it, and its error. -/
def save (collection : List (Document Num)) (call : Call Num) : List (Document Num) × Option SaveError :=
  let msgs := call.batch.map fun msg => encode rt (toDBMessage msg)
  if msgs = [] then (collection, some .emptySlice)
  else
    (collection ++ msgs.take call.inserts,
      if call.inserts < msgs.length ∨ !call.answered then some .bulkWrite else none)

/-- A message that the writer is handed, and what the server does with the call of `Save` that it leads to. -/
structure Handed (Num : Type) where
  msg : Envelope Num
  inserts : Nat
  answered : Bool

/-- `consume` over this repository. -/
def consume (channels : List Text) (collection : List (Document Num)) (h : Handed Num) :
    List (Document Num) :=
  match transform rt h.msg with
  | .error _ => collection
  | .ok norm =>
      let msgs := norm.filter fun m => channelExists channels m.channel
      (save rt collection { batch := msgs, inserts := h.inserts, answered := h.answered }).1

end Writer

/-! ## §3. The reader. -/

inductive Column
  | channel
  | subtopic
  | publisher
  | name
  | protocol
  deriving DecidableEq

/-- The names in the `switch` of `fmtCondition`. -/
def columnOf : QueryField → Option Column
  | .subtopic => some .subtopic
  | .publisher => some .publisher
  | .name => some .name
  | .protocol => some .protocol
  | _ => none

section Reader

variable {Num : Type} (rt : Runtime Num)

def Document.get (d : Document Num) : Column → Option Text
  | .channel => d.channel
  | .subtopic => d.subtopic
  | .publisher => d.publisher
  | .name => d.name
  | .protocol => d.protocol

/-- `fmtCondition`. -/
def fmtCondition (chanID : Text) (query : Query) : List (Column × Text) :=
  (.channel, chanID) :: query.entries.filterMap fun q => (columnOf q.1).map fun c => (c, q.2)

/-- A condition on equalities. -/
def holds (filter : List (Column × Text)) (d : Document Num) : Bool :=
  filter.all fun e => d.get e.1 = some e.2

/-- The order of the server on times that may be missing. -/
def leTime (le : Num → Num → Bool) : Option Num → Option Num → Bool
  | none, _ => true
  | some _, none => false
  | some a, some b => le a b

/-- What the server does with `sort`, and how many documents fit into its first batch. -/
structure Server (Num : Type) where
  le : Num → Num → Bool
  sort : List (Document Num) → List (Document Num)
  perm : ∀ ds, (sort ds).Perm ds
  sorted : ∀ ds, (sort ds).Pairwise fun a b => leTime le b.time a.time = true
  firstBatch : Nat

/-- `int64(n)`. -/
def int64 (n : Nat) : Int := (BitVec.ofNat 64 n).toInt

inductive ReadError
  /-- A `skip` or `limit` below zero. -/
  | badValue
  deriving DecidableEq

/-- `Find` of the driver: a limit below zero asks for one batch. -/
def find (server : Server Num) (collection : List (Document Num)) (filter : List (Column × Text))
    (skip limit : Int) : Except ReadError (List (Document Num)) :=
  let ds := (server.sort (collection.filter (holds filter))).drop skip.toNat
  if skip < 0 ∨ limit = -2 ^ 63 then .error .badValue
  else if limit = 0 then .ok ds
  else if 0 < limit then .ok (ds.take limit.toNat)
  else .ok (ds.take (min limit.natAbs server.firstBatch))

/-- The loop body of `ReadAll`. -/
def toMessage (m : DbMessage Num) : Message Num :=
  let msg : Message Num :=
    { channel := m.channel
      topic := []
      subtopic := m.subtopic
      publisher := m.publisher
      devname := []
      protocol := m.protocol
      name := m.name
      unit := m.unit
      time := m.time
      updateTime := m.updateTime
      sum := m.sum
      value := none, stringValue := none, dataValue := none, boolValue := none }
  match m.value, m.stringValue, m.dataValue, m.boolValue with
  | some v, _, _, _ => { msg with value := some v }
  | none, some v, _, _ => { msg with stringValue := some v }
  | none, none, some v, _ => { msg with dataValue := some v }
  | none, none, none, b => { msg with boolValue := b }

/-- `ReadAll`. -/
def readAll (server : Server Num) (collection : List (Document Num)) (chanID : Text) (offset limit : Nat)
    (query : Query) : Except ReadError (Page Num) :=
  let filter := fmtCondition chanID query
  match find server collection filter (int64 offset) (int64 limit) with
  | .error err => .error err
  | .ok ds =>
      .ok { total := collection.countP (holds filter), offset, limit
            messages := ds.map fun d => toMessage (decode rt d) }

end Reader

/-! ## §4. What a document shows. -/

section Exact

variable {Num : Type} (rt : Runtime Num)

/-- A number as it is read back: a zero of either sign is the zero. -/
def whole (x : Num) : Num := if rt.isZero x then rt.zero else x

/-- A message as it is read back. -/
def asStored (m : Message Num) : Message Num :=
  { m with topic := [], devname := [], time := whole rt m.time, updateTime := whole rt m.updateTime }

/-- The text that a message has in a column. -/
def Column.of (m : Message Num) : Column → Text
  | .channel => m.channel
  | .subtopic => m.subtopic
  | .publisher => m.publisher
  | .name => m.name
  | .protocol => m.protocol

/-- The messages a query is to find: an empty value finds none. -/
def Matches (chanID : Text) (query : Query) (m : Message Num) : Bool :=
  (fmtCondition chanID query).all fun e => e.2 ≠ [] && e.1.of m = e.2

/-- Later, as far as the server tells times apart. -/
def Later (server : Server Num) (a b : Message Num) : Prop :=
  leTime server.le (ofNum rt b.time) (ofNum rt a.time) = true

variable {rt}

theorem getD_ofText (s : Text) : (ofText s).getD [] = s := by
  unfold ofText
  split
  · rename_i h
    rw [h]
    rfl
  · rfl

theorem getD_ofNum (x : Num) : (ofNum rt x).getD rt.zero = whole rt x := by
  unfold ofNum whole
  split <;> rfl

theorem ofText_eq_some {s t : Text} : ofText s = some t ↔ t ≠ [] ∧ s = t := by
  unfold ofText
  split
  · rename_i h
    constructor
    · intro hnone
      exact absurd hnone.symm (Option.some_ne_none t)
    · rintro ⟨ht, rfl⟩
      exact absurd h ht
  · rename_i h
    constructor
    · intro hsome
      rw [← Option.some.inj hsome]
      exact ⟨h, rfl⟩
    · rintro ⟨-, rfl⟩
      rfl

theorem decode_encode (m : DbMessage Num) :
    decode rt (encode rt m)
      = { m with time := whole rt m.time, updateTime := whole rt m.updateTime } := by
  simp only [decode, encode, getD_ofText, getD_ofNum]

/-- **A document shows what its message was.** -/
theorem message_document {m : Message Num} (h : OneValue m) :
    toMessage (decode rt (encode rt (toDBMessage m))) = asStored rt m := by
  rw [decode_encode]
  obtain ⟨channel, topic, subtopic, publisher, devname, protocol, name, unit, time, updateTime, value,
    stringValue, dataValue, boolValue, sum⟩ := m
  rcases oneValue_cases h with ⟨rfl, rfl, rfl⟩ | ⟨rfl, rfl, rfl⟩ | ⟨rfl, rfl, rfl⟩ | ⟨rfl, rfl, rfl⟩
  · cases value with
    | none => rfl
    | some v => rfl
  · cases stringValue with
    | none => rfl
    | some v => rfl
  · cases dataValue with
    | none => rfl
    | some v => rfl
  · cases boolValue with
    | none => rfl
    | some v => rfl

/-- What the writer puts in a column. -/
theorem get_encode (m : Message Num) (c : Column) :
    (encode rt (toDBMessage m)).get c = ofText (c.of m) := by
  have hfields : (toDBMessage m).channel = m.channel ∧ (toDBMessage m).subtopic = m.subtopic ∧
      (toDBMessage m).publisher = m.publisher ∧ (toDBMessage m).name = m.name ∧
      (toDBMessage m).protocol = m.protocol := by
    unfold toDBMessage
    split <;> exact ⟨rfl, rfl, rfl, rfl, rfl⟩
  obtain ⟨hchannel, hsubtopic, hpublisher, hname, hprotocol⟩ := hfields
  cases c with
  | channel => exact congrArg ofText hchannel
  | subtopic => exact congrArg ofText hsubtopic
  | publisher => exact congrArg ofText hpublisher
  | name => exact congrArg ofText hname
  | protocol => exact congrArg ofText hprotocol

/-- The condition of the server is that on the messages. -/
theorem holds_document (chanID : Text) (query : Query) (m : Message Num) :
    holds (fmtCondition chanID query) (encode rt (toDBMessage m)) = Matches chanID query m := by
  rw [holds, Matches]
  refine List.all_congr rfl fun e => ?_
  rw [get_encode, ← Bool.decide_and]
  exact decide_eq_decide.mpr ofText_eq_some

theorem time_document (m : Message Num) : (encode rt (toDBMessage m)).time = ofNum rt m.time := by
  have htime : (toDBMessage m).time = m.time := by
    unfold toDBMessage
    split <;> rfl
  exact congrArg (ofNum rt) htime

/-! ## §5. Whole runs. -/

/-- What a call adds. -/
theorem save_eq (collection : List (Document Num)) (call : Call Num) :
    (save rt collection call).1
      = collection ++ call.stored.map fun m => encode rt (toDBMessage m) := by
  simp only [save, Call.stored]
  split
  · rename_i hempty
    rw [List.map_eq_nil_iff.mp hempty, List.take_nil, List.map_nil, List.append_nil]
  · rw [List.map_take]

/-- A call that reports nothing has stored all of its messages. -/
theorem stored_of_save {collection : List (Document Num)} {call : Call Num}
    (h : (save rt collection call).2 = none) : call.stored = call.batch := by
  simp only [save] at h
  split at h
  · exact absurd h (Option.some_ne_none _)
  · split at h
    · exact absurd h (Option.some_ne_none _)
    · rename_i hall
      rw [List.length_map] at hall
      exact List.take_of_length_le (Nat.le_of_not_lt (not_or.mp hall).1)

/-- The messages that the writer saves of what it is handed. -/
def Handed.messages (rt : Runtime Num) (channels : List Text) (h : Handed Num) : List (Message Num) :=
  match transform rt h.msg with
  | .error _ => []
  | .ok norm => norm.filter fun m => channelExists channels m.channel

/-- The messages that are in the collection after a run. -/
def saved (rt : Runtime Num) (channels : List Text) (hs : List (Handed Num)) : List (Message Num) :=
  hs.flatMap fun h => (h.messages rt channels).take h.inserts

/-- One message more. -/
theorem consume_eq (channels : List Text) (collection : List (Document Num)) (h : Handed Num) :
    consume rt channels collection h
      = collection ++ ((h.messages rt channels).take h.inserts).map fun m => encode rt (toDBMessage m) := by
  unfold consume Handed.messages
  cases transform rt h.msg with
  | error err => simp only [List.take_nil, List.map_nil, List.append_nil]
  | ok norm => exact save_eq collection _

/-- **The collection after any run of the writer.** -/
theorem consumed_eq (channels : List Text) (collection : List (Document Num)) (hs : List (Handed Num)) :
    hs.foldl (consume rt channels) collection
      = collection ++ (saved rt channels hs).map fun m => encode rt (toDBMessage m) := by
  induction hs generalizing collection with
  | nil => simp only [List.foldl_nil, saved, List.flatMap_nil, List.map_nil, List.append_nil]
  | cons h hs ih =>
      rw [List.foldl_cons, consume_eq, ih, List.append_assoc, ← List.map_append]
      rfl

/-- No message of the transformer has two values. -/
theorem oneValue_saved {channels : List Text} {hs : List (Handed Num)} {m : Message Num}
    (hm : m ∈ saved rt channels hs) : OneValue m := by
  obtain ⟨h, -, hm⟩ := List.mem_flatMap.mp hm
  have hmessages := List.mem_of_mem_take hm
  unfold Handed.messages at hmessages
  cases htransform : transform rt h.msg with
  | error err =>
      rw [htransform] at hmessages
      exact absurd hmessages List.not_mem_nil
  | ok norm =>
      rw [htransform] at hmessages
      obtain ⟨r, hr, rfl⟩ := messages_shape htransform m (List.mem_filter.mp hmessages).1
      unfold Record.values at hr
      simp only [OneValue, messageOf]
      omega

/-- How many messages a page may have: the driver takes a limit of 64 bits for a signed number. -/
def fetched (server : Server Num) (limit : Nat) : Nat :=
  if limit < 2 ^ 63 then limit else min (2 ^ 64 - limit) server.firstBatch

theorem int64_eq {n : Nat} (h : n < 2 ^ 64) : int64 n = if n < 2 ^ 63 then (n : Int) else n - 2 ^ 64 := by
  rw [int64, BitVec.toInt_eq_toNat_cond, BitVec.toNat_ofNat, Nat.mod_eq_of_lt h]
  split <;> split <;> omega

/-- **What `Find` returns** for any numbers that a request can have. -/
theorem find_eq (server : Server Num) (collection : List (Document Num)) (filter : List (Column × Text))
    {offset limit : Nat} (hoffset : offset < 2 ^ 64) (hpos : 0 < limit) (hlimit : limit < 2 ^ 64) :
    find server collection filter (int64 offset) (int64 limit)
      = if 2 ^ 63 ≤ offset ∨ limit = 2 ^ 63 then .error .badValue
        else .ok (slice offset (fetched server limit) (server.sort (collection.filter (holds filter)))) := by
  simp only [find, int64_eq hoffset, int64_eq hlimit, fetched, slice]
  by_cases hbad : 2 ^ 63 ≤ offset ∨ limit = 2 ^ 63
  · rw [if_pos hbad, if_pos (by split <;> split <;> omega)]
  · obtain ⟨hoff, hlim⟩ := not_or.mp hbad
    rw [if_neg hbad, if_pos (Nat.lt_of_not_le hoff), if_neg (by split <;> omega),
      if_neg (by split <;> omega)]
    by_cases hsmall : limit < 2 ^ 63
    · rw [if_pos hsmall, if_pos hsmall, if_pos (by omega)]
      rfl
    · have habs : ((limit : Int) - 2 ^ 64).natAbs = 2 ^ 64 - limit := by omega
      rw [if_neg hsmall, if_neg hsmall, if_neg (by omega), habs]
      rfl

theorem later_asStored {server : Server Num} (hzero : rt.isZero rt.zero = true) {a b : Message Num}
    (h : leTime server.le (ofNum rt b.time) (ofNum rt a.time) = true) :
    Later rt server (asStored rt a) (asStored rt b) := by
  have hwhole : ∀ x, ofNum rt (whole rt x) = ofNum rt x := by
    intro x
    unfold whole
    split
    · rename_i hx
      rw [ofNum, ofNum, if_pos hx, if_pos hzero]
    · rfl
  rw [Later, asStored, asStored, hwhole, hwhole]
  exact h

/-- **Pages and totals are exact**: there is one order of the messages that match, the latest first, of
which every page is a slice and whose length is every total. -/
theorem readAll_exact (hzero : rt.isZero rt.zero = true) (server : Server Num) {ms : List (Message Num)}
    (hone : ∀ m ∈ ms, OneValue m) (chanID : Text) (query : Query) :
    ∃ sorted : List (Message Num),
      sorted.Perm ((ms.filter (Matches chanID query)).map (asStored rt)) ∧
        sorted.Pairwise (Later rt server) ∧
        ∀ offset limit, offset < 2 ^ 64 → 0 < limit → limit < 2 ^ 64 →
          readAll rt server (ms.map fun m => encode rt (toDBMessage m)) chanID offset limit query
            = if 2 ^ 63 ≤ offset ∨ limit = 2 ^ 63 then .error .badValue
              else .ok { total := sorted.length, offset := offset, limit := limit
                         messages := slice offset (fetched server limit) sorted } := by
  let doc := fun m : Message Num => encode rt (toDBMessage m)
  let shown := fun d : Document Num => toMessage (decode rt d)
  let matching := (ms.filter (Matches chanID query)).map doc
  have hfilter : (ms.map doc).filter (holds (fmtCondition chanID query)) = matching := by
    rw [List.filter_map]
    refine congrArg (List.map doc) (List.filter_congr fun m _ => ?_)
    exact holds_document chanID query m
  have hseen : ∀ m ∈ ms.filter (Matches chanID query), shown (doc m) = asStored rt m :=
    fun m hm => message_document (hone m (List.mem_filter.mp hm).1)
  have hshown : matching.map shown = (ms.filter (Matches chanID query)).map (asStored rt) := by
    rw [List.map_map]
    exact List.map_congr_left hseen
  have hperm := server.perm matching
  refine ⟨(server.sort matching).map shown, hshown ▸ hperm.map shown, ?_, ?_⟩
  · -- the documents are those of messages, whose times they carry
    refine List.pairwise_map.mpr ((server.sorted matching).imp_of_mem fun {a b} ha hb hab => ?_)
    obtain ⟨m, hm, rfl⟩ := List.mem_map.mp (hperm.mem_iff.mp ha)
    obtain ⟨n, hn, rfl⟩ := List.mem_map.mp (hperm.mem_iff.mp hb)
    rw [time_document, time_document] at hab
    rw [hseen m hm, hseen n hn]
    exact later_asStored hzero hab
  · intro offset limit hoffset hpos hlimit
    simp only [readAll, find_eq server _ _ hoffset hpos hlimit]
    by_cases hbad : 2 ^ 63 ≤ offset ∨ limit = 2 ^ 63
    · simp only [if_pos hbad]
    · simp only [if_neg hbad, List.countP_eq_length_filter, doc, hfilter, List.length_map,
        hperm.length_eq, slice, List.map_take, List.map_drop, shown]

/-- One order of the messages that match, the latest first, of which every page is a slice and whose length
is every total; what a call of `Save` that reports nothing was to save is all among it. -/
def PagesExact (rt : Runtime Num) (server : Server Num) (channels : List Text) (hs : List (Handed Num))
    (chanID : Text) (query : Query) : Prop :=
  ∃ sorted : List (Message Num),
    sorted.Perm (((saved rt channels hs).filter (Matches chanID query)).map (asStored rt)) ∧
      sorted.Pairwise (Later rt server) ∧
      (∀ h ∈ hs, ∀ collection,
        (save rt collection ⟨h.messages rt channels, h.inserts, h.answered⟩).2 = none →
          ∀ m ∈ h.messages rt channels, Matches chanID query m = true → asStored rt m ∈ sorted) ∧
      ∀ offset limit, offset < 2 ^ 64 → 0 < limit → limit < 2 ^ 64 →
        readAll rt server (hs.foldl (consume rt channels) []) chanID offset limit query
          = if 2 ^ 63 ≤ offset ∨ limit = 2 ^ 63 then .error .badValue
            else .ok { total := sorted.length, offset := offset, limit := limit
                       messages := slice offset (fetched server limit) sorted }

end Exact

/-! ### A server of whole seconds. -/

/-- The latest time first, and no time last. -/
def latestFirst : Collation (Option Int) where
  le a b := leTime (fun x y => decide (x ≤ y)) b a
  total a b := by
    cases a with
    | none => exact .inr (by cases b <;> rfl)
    | some x =>
        cases b with
        | none => exact .inl rfl
        | some y => exact (Int.le_total y x).imp decide_eq_true decide_eq_true
  trans {a b c} hab hbc := by
    cases c with
    | none => rfl
    | some z =>
        cases b with
        | none => exact absurd hbc Bool.false_ne_true
        | some y =>
            cases a with
            | none => exact absurd hab Bool.false_ne_true
            | some x => exact decide_eq_true (Int.le_trans (of_decide_eq_true hbc) (of_decide_eq_true hab))

def wholeSeconds : Server Int where
  le x y := decide (x ≤ y)
  sort := latestFirst.orderBy Document.time
  perm := latestFirst.perm_orderBy Document.time
  sorted := latestFirst.pairwise_orderBy Document.time
  firstBatch := 101

end Mainflux.Storage.Mongo
