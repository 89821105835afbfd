/-
  Mainflux.Storage.Readback
  ─────────────────────────
  **WHAT THE INFLUXDB READER FINDS OF WHAT THE WRITER HAS SAVED.**

  The writer takes the topic of a message as its measurement, the reader asks for
  the measurement `messages`. Of the five adapters only Aedes fills the topic in,
  with the third level of the MQTT topic.

    • `readBack_iff` — a payload is saved and read back exactly when it came
      through Aedes on a topic `channels/<id>/messages…`, holds a record, makes
      points that the client library takes, and none of its values is overwritten
      within the payload;
    • `http_not_read_back` — a message of the HTTP adapter is not saved.
-/
import Mathlib.Data.List.Sort
import Mainflux.Storage.Influx

namespace Mainflux.Storage

open Mainflux.Lib

open Mainflux.Messaging

/-! ## §1. The statement. -/

section Statement

variable {Num : Type} {rt : Runtime Num}

/-- The value fields. -/
inductive Kind
  | number
  | string
  | data
  | bool
  deriving DecidableEq

inductive Value (Num : Type)
  | number (x : Num)
  | text (s : Text)
  | flag (b : Bool)
  deriving DecidableEq

def Message.get (kind : Kind) (m : Message Num) : Option (Value Num) :=
  match kind with
  | .number => m.value.map .number
  | .string => m.stringValue.map .text
  | .data => m.dataValue.map .text
  | .bool => m.boolValue.map .flag

/-- An entry with the publisher, the name and the value of a message. -/
structure SameReading (m e : Message Num) : Prop where
  publisher : e.publisher = m.publisher
  name : e.name = m.name
  value : ∀ kind v, m.get kind = some v → e.get kind = some v

/-- **A published payload is saved and read back**, whatever the writer and the
database have been through before. -/
def ReadBack (channels : List Text) (p : Published rt) : Prop :=
  ∀ w : Writer Num,
    (consume rt channels w p.envelope).2 = some none ∧
      ∀ m ∈ p.messages, ∀ limit,
        (consume rt channels w p.envelope).1.influx.stored m.channel ≤ limit →
          ∃ page, readAll rt (consume rt channels w p.envelope).1.influx m.channel 0 limit [] = some page ∧
            ∃ e ∈ page.messages, SameReading m e

/-- Two messages of one payload that make points of one series and time. -/
structure SamePoint (rt : Runtime Num) (m m' : Message Num) : Prop where
  name : m.name = m'.name
  unit : m.unit = m'.unit
  time : rt.unix m.time = rt.unix m'.time

/-- The client library takes the point of a message. -/
def PointOk (rt : Runtime Num) (m : Message Num) : Prop :=
  ∃ pt, newPoint rt m.topic (tagsOf m) (fieldsOf rt m) (rt.unix m.time) = .ok pt

/-- The third level of an MQTT topic. -/
def thirdLevel (topic : Text) : Option Text := ((topic.splitOn '/').drop 2).head?

/-- A message whose value no later one of the payload overwrites. -/
def Stands (p : Published rt) (kind : Kind) (v : Value Num) (m' : Message Num) : Prop :=
  ∃ before after, p.messages = before ++ m' :: after ∧ m'.get kind = some v ∧
    ∀ m'' ∈ after, SamePoint rt m'' m' → m''.get kind = none

/-- When a payload is read back. -/
structure Storable (p : Published rt) : Prop where
  aedes : ∃ access clientID topic,
    p.source = .aedes access clientID topic ∧ thirdLevel topic = some messagesWord
  records : p.records ≠ []
  points : ∀ m ∈ p.messages, PointOk rt m
  values : ∀ m ∈ p.messages, ∀ kind v, m.get kind = some v →
    ∃ m', Stands p kind v m' ∧ m'.name = m.name

end Statement

/-! ## §2. What `Save` leaves behind. -/

section Save

variable {Num : Type} {rt : Runtime Num}

/-- The row that a message is written to, and its fields. -/
def keyed (rt : Runtime Num) (m : Message Num) : Series × Fields Num :=
  ({ database := m.channel, measurement := m.topic, tags := tagsOf m, time := rt.unix m.time },
    fieldsOf rt m)

theorem newPoint_eq_ok {measurement : Text} {tags : Tags} {fields : Fields Num} {time : Int}
    {pt : Point Num} (h : newPoint rt measurement tags fields time = .ok pt) :
    pt = { measurement, tags, fields, time } := by
  unfold newPoint at h
  split at h
  · cases h
  split at h
  · cases h
  split at h
  · cases h
  · exact (Except.ok.inj h).symm

/-- `Save` without an error has made every point. -/
theorem pointOk_of_save {w : Writer Num} {ms : List (Message Num)} (h : (save rt w ms).2 = none) :
    ∀ m ∈ ms, PointOk rt m := by
  induction ms generalizing w with
  | nil => exact fun m hm => absurd hm List.not_mem_nil
  | cons m ms ih =>
      unfold save at h
      cases hpt : newPoint rt m.topic (tagsOf m) (fieldsOf rt m) (rt.unix m.time) with
      | error err => simp [hpt] at h
      | ok pt =>
          simp only [hpt] at h
          intro x hx
          rcases List.mem_cons.mp hx with rfl | hx
          · exact ⟨pt, hpt⟩
          · exact ih h x hx

/-- A message without a topic makes a point that is refused. -/
theorem save_without_topic {w : Writer Num} {ms : List (Message Num)} (hne : ms ≠ [])
    (htopic : ∀ m ∈ ms, m.topic = []) : (save rt w ms).2 ≠ none := by
  induction ms generalizing w with
  | nil => exact absurd rfl hne
  | cons m ms ih =>
      unfold save
      cases hpt : newPoint rt m.topic (tagsOf m) (fieldsOf rt m) (rt.unix m.time) with
      | error err => simp
      | ok pt =>
          simp only
          cases ms with
          | cons m' ms => exact ih (List.cons_ne_nil _ _) fun x hx => htopic x (List.mem_cons_of_mem _ hx)
          | nil =>
              -- the last write decides
              have hmeasurement : pt.measurement = [] := by
                rw [newPoint_eq_ok hpt]
                exact htopic m List.mem_cons_self
              rw [save, Influx.write, if_pos hmeasurement]
              split
              · simp
              · simp

theorem mem_createDatabase {s : Influx Num} {name : Text} (h : name ≠ []) :
    name ∈ (s.createDatabase name).databases := by
  unfold Influx.createDatabase
  split
  next hor => exact hor.resolve_left h
  next => exact List.mem_cons_self

theorem rows_createDatabase (s : Influx Num) (name : Text) :
    (s.createDatabase name).rows = s.rows := by
  unfold Influx.createDatabase
  split
  · rfl
  · rfl

/-- One message, accepted. -/
theorem save_cons {w : Writer Num} {m : Message Num} {ms : List (Message Num)}
    (hchannel : m.channel ≠ []) (htopic : m.topic ≠ []) (hpoint : PointOk rt m) :
    ∃ s : Influx Num, save rt w (m :: ms) = save rt { influx := s, finalError := none } ms ∧
      s.rows = Series.put Fields.merge w.influx.rows (keyed rt m).1 (keyed rt m).2 ∧
      m.channel ∈ s.databases := by
  obtain ⟨pt, hpt⟩ := hpoint
  have hdb : m.channel ∈ (w.influx.createDatabase m.channel).databases :=
    mem_createDatabase hchannel
  refine ⟨{ (w.influx.createDatabase m.channel) with
    rows := Series.put Fields.merge w.influx.rows (keyed rt m).1 (keyed rt m).2 }, ?_, rfl, hdb⟩
  rw [save]
  simp only [hpt]
  obtain rfl := newPoint_eq_ok hpt
  simp only [Influx.write, hdb, not_true_eq_false, if_false, if_neg htopic, rows_createDatabase]
  rfl

/-- **A run of accepted messages**: the rows are those of `Lib.Series`, the
database of the channel is there, and `Save` returns nothing. -/
theorem save_spec {w : Writer Num} {ms : List (Message Num)} {c : Text} (hc : c ≠ [])
    (hchannel : ∀ m ∈ ms, m.channel = c) (htopic : ∀ m ∈ ms, m.topic ≠ [])
    (hpoint : ∀ m ∈ ms, PointOk rt m) :
    (save rt w ms).1.influx.rows = Series.putAll Fields.merge w.influx.rows (ms.map (keyed rt)) ∧
      (c ∈ w.influx.databases ∨ ms ≠ [] → c ∈ (save rt w ms).1.influx.databases) ∧
      (w.finalError = none ∨ ms ≠ [] → (save rt w ms).2 = none) := by
  induction ms generalizing w with
  | nil =>
      refine ⟨rfl, fun h => h.resolve_right fun h => h rfl, fun h => ?_⟩
      exact h.resolve_right fun h => h rfl
  | cons m ms ih =>
      have hm := hchannel m List.mem_cons_self
      obtain ⟨s, hsave, hrows, hdb⟩ := @save_cons Num rt w m ms (hm ▸ hc)
        (htopic m List.mem_cons_self) (hpoint m List.mem_cons_self)
      obtain ⟨hrows', hdb', herr'⟩ := ih (w := { influx := s, finalError := none })
        (fun x hx => hchannel x (List.mem_cons_of_mem _ hx))
        (fun x hx => htopic x (List.mem_cons_of_mem _ hx))
        (fun x hx => hpoint x (List.mem_cons_of_mem _ hx))
      rw [hsave]
      refine ⟨?_, fun _ => hdb' (.inl (hm ▸ hdb)), fun _ => herr' (.inl rfl)⟩
      rw [hrows']
      simp only [hrows]
      rfl

end Save

/-! ## §3. What the reader finds. -/

section Read

variable {Num : Type} {rt : Runtime Num}

def Fields.get (kind : Kind) (fields : Fields Num) : Option (Value Num) :=
  match kind with
  | .number => fields.value.map .number
  | .string => fields.stringValue.map .text
  | .data => fields.dataValue.map .text
  | .bool => fields.boolValue.map .flag

theorem field_get (kind : Kind) : Series.Field Fields.merge (@Fields.get Num kind) := by
  intro v old
  cases kind with
  | number => cases hv : v.value <;> simp [Fields.get, Fields.merge, hv]
  | string => cases hv : v.stringValue <;> simp [Fields.get, Fields.merge, hv]
  | data => cases hv : v.dataValue <;> simp [Fields.get, Fields.merge, hv]
  | bool => cases hv : v.boolValue <;> simp [Fields.get, Fields.merge, hv]

theorem get_parseMessage (kind : Kind) (row : Series × Fields Num) :
    (parseMessage rt row).get kind = row.2.get kind := by
  cases kind <;> rfl

/-- A resolved record has its one value in the fields of its point. -/
theorem get_fieldsOf {msg : Envelope Num} {r : Record Num} (h : r.values ≤ 1) (kind : Kind) :
    (fieldsOf rt (messageOf msg r)).get kind = (messageOf msg r).get kind := by
  simp only [Record.values] at h
  cases hv : r.value <;> cases hs : r.stringValue <;> cases hd : r.dataValue <;>
    cases hb : r.boolValue <;> simp only [hv, hs, hd, hb] at h <;>
    first
    | (simp at h; done)
    | (cases kind <;> simp [fieldsOf, messageOf, Fields.get, Message.get, hv, hs, hd, hb])

/-- At most one value. -/
theorem kind_unique {msg : Envelope Num} {r : Record Num} (h : r.values ≤ 1) {k k' : Kind}
    {v v' : Value Num} (hk : (messageOf msg r).get k = some v)
    (hk' : (messageOf msg r).get k' = some v') : k = k' := by
  simp only [Record.values] at h
  cases hv : r.value <;> cases hs : r.stringValue <;> cases hd : r.dataValue <;>
    cases hb : r.boolValue <;> simp only [hv, hs, hd, hb] at h <;>
    first
    | (simp at h; done)
    | (cases k <;> cases k' <;> simp_all [messageOf, Message.get])

/-- A page that is long enough holds every row. -/
theorem mem_page {limit : Nat} {rows : List (Series × Fields Num)} (h : rows.length ≤ limit)
    (row : Series × Fields Num) : row ∈ page 0 limit rows ↔ row ∈ rows := by
  have hperm := List.mergeSort_perm rows fun a b => b.1.time ≤ a.1.time
  unfold page
  simp only [List.drop_zero]
  split
  · exact hperm.mem_iff
  · rw [List.take_of_length_le (by rw [hperm.length_eq]; exact h), hperm.mem_iff]

theorem mem_select {s : Influx Num} {c : Text} {k : Series} {fields : Fields Num} :
    (k, fields) ∈ s.select c [] ↔
      s.rows.lookup k = some fields ∧ k.database = c ∧ k.measurement = messagesWord ∧
        k.tags.channel = c := by
  have hentry : (∃ e ∈ s.rows.entries, (e.1, e.2) = (k, fields)) ↔ s.rows.lookup k = some fields := by
    rw [← Option.mem_def, AList.mem_lookup_iff]
    constructor
    · rintro ⟨⟨k', f'⟩, he, heq⟩
      cases heq
      exact he
    · exact fun h => ⟨_, h, rfl⟩
  simp [Influx.select, ← hentry, and_assoc]

/-- **The entries of a long enough page are the rows of the channel.** -/
theorem mem_readAll {s : Influx Num} {c : Text} {limit : Nat} (hdb : c ∈ s.databases)
    (hlimit : s.stored c ≤ limit) :
    ∃ page, readAll rt s c 0 limit [] = some page ∧
      ∀ e, e ∈ page.messages ↔ ∃ row ∈ s.select c [], parseMessage rt row = e := by
  have hmem : ∀ row, row ∈ page 0 limit (s.select c []) ↔ row ∈ s.select c [] := mem_page hlimit
  unfold readAll
  rw [if_neg (by simpa using hdb)]
  split
  next hnil =>
      refine ⟨_, rfl, fun e => ⟨fun he => absurd he List.not_mem_nil, ?_⟩⟩
      rintro ⟨row, hrow, -⟩
      rw [← hmem, hnil] at hrow
      exact absurd hrow List.not_mem_nil
  next row rows hcons =>
      refine ⟨_, rfl, fun e => ?_⟩
      simp only [← hcons, List.mem_map, hmem]

end Read

/-! ## §4. One published payload. -/

section Payload

variable {Num : Type} {rt : Runtime Num} (p : Published rt)

theorem message_eq : ∀ m ∈ p.messages, ∃ r : Record Num, r.values ≤ 1 ∧ m = messageOf p.envelope r :=
  messages_shape p.valid

theorem channel_eq {m : Message Num} (h : m ∈ p.messages) : m.channel = p.envelope.channel := by
  obtain ⟨r, -, rfl⟩ := message_eq p m h
  rfl

theorem topic_eq_envelope {m : Message Num} (h : m ∈ p.messages) : m.topic = p.envelope.topic := by
  obtain ⟨r, -, rfl⟩ := message_eq p m h
  rfl

theorem get_fields {m : Message Num} (h : m ∈ p.messages) (kind : Kind) :
    (fieldsOf rt m).get kind = m.get kind := by
  obtain ⟨r, hvalues, rfl⟩ := message_eq p m h
  exact get_fieldsOf hvalues kind

/-- The messages of a payload differ in name, unit and time only. -/
theorem samePoint_iff {m m' : Message Num} (h : m ∈ p.messages) (h' : m' ∈ p.messages) :
    (keyed rt m).1 = (keyed rt m').1 ↔ SamePoint rt m m' := by
  obtain ⟨r, -, rfl⟩ := message_eq p m h
  obtain ⟨r', -, rfl⟩ := message_eq p m' h'
  constructor
  · intro heq
    simp only [keyed, tagsOf, messageOf, Series.mk.injEq, Tags.mk.injEq] at heq
    exact ⟨heq.2.2.1.2.2.2.2.1, heq.2.2.1.2.2.2.2.2, heq.2.2.2⟩
  · rintro ⟨hname, hunit, htime⟩
    simp only [messageOf] at hname hunit htime
    simp [keyed, tagsOf, messageOf, hname, hunit, htime]

/-- What an adapter puts on NATS: the records, and a topic only if it is Aedes. -/
theorem envelope_cases {source : Source} {publisher : Text} {records : List (Record Num)}
    {msg : Envelope Num} (h : source.envelope publisher records = some msg) :
    msg.payload = some records ∧
      ((∃ access clientID topic, source = .aedes access clientID topic ∧
          parseTopic topic = some msg.channel ∧ msg.topic = (thirdLevel topic).getD []) ∨
        (∀ access clientID topic, source ≠ .aedes access clientID topic) ∧ msg.topic = []) := by
  cases source with
  | http channel subtopic contentType =>
      obtain rfl := Option.some.inj h
      exact ⟨rfl, .inr ⟨by simp, rfl⟩⟩
  | ws channel subtopic contentType =>
      obtain rfl := Option.some.inj h
      exact ⟨rfl, .inr ⟨by simp, rfl⟩⟩
  | coap channel subtopic contentType =>
      obtain rfl := Option.some.inj h
      exact ⟨rfl, .inr ⟨by simp, rfl⟩⟩
  | verne access words =>
      obtain ⟨pub, -, rfl⟩ := Option.map_eq_some_iff.mp h
      exact ⟨rfl, .inr ⟨by simp, rfl⟩⟩
  | aedes access clientID topic =>
      simp only [Source.envelope] at h
      split at h
      next checked pub msgtopic haccepted =>
          obtain ⟨hparse, -, -, hpub⟩ := authorizePublish_accepted.mp haccepted
          obtain ⟨rfl, rfl⟩ := Prod.mk.inj hpub
          obtain rfl := Option.some.inj h
          exact ⟨rfl, .inl ⟨access, clientID, topic, rfl, hparse, rfl⟩⟩
      next => cases h

theorem messages_eq_nil : p.messages = [] ↔ p.records = [] := by
  obtain ⟨records, hpayload, -, hmessages⟩ := transform_eq_ok p.valid
  obtain rfl : records = p.records :=
    Option.some.inj (hpayload.symm.trans (envelope_cases p.sent).1)
  have hresolve : resolveFrom rt [] rt.zero rt.zero [] p.records = [] ↔ p.records = [] := by
    cases p.records with
    | nil => simp [resolveFrom]
    | cons r rs => simp [resolveFrom]
  rw [hmessages, List.map_eq_nil_iff, ← hresolve, ← List.length_eq_zero_iff,
    (rt.sort_perm _).length_eq, List.length_eq_zero_iff]

/-- Only Aedes fills the topic. -/
theorem topic_messages :
    p.envelope.topic = messagesWord ↔
      ∃ access clientID topic,
        p.source = .aedes access clientID topic ∧ thirdLevel topic = some messagesWord := by
  have hne : ([] : Text) ≠ messagesWord := by decide
  obtain ⟨-, ⟨access, clientID, topic, hsource, -, htopic⟩ | ⟨hother, htopic⟩⟩ := envelope_cases p.sent
  · rw [htopic]
    constructor
    · intro h
      refine ⟨access, clientID, topic, hsource, ?_⟩
      cases hlevel : thirdLevel topic with
      | none =>
          rw [hlevel] at h
          exact absurd h hne
      | some level =>
          rw [hlevel] at h
          exact congrArg some h
    · rintro ⟨access', clientID', topic', hsource', hlevel⟩
      rw [hsource] at hsource'
      cases hsource'
      rw [hlevel]
      rfl
  · rw [htopic]
    constructor
    · exact fun h => absurd h hne
    · rintro ⟨access, clientID, topic, hsource, -⟩
      exact absurd hsource (hother access clientID topic)

/-- A topic names a channel. -/
theorem channel_ne (h : p.envelope.topic ≠ []) : p.envelope.channel ≠ [] := by
  obtain ⟨-, ⟨access, clientID, topic, -, hparse, -⟩ | ⟨-, htopic⟩⟩ := envelope_cases p.sent
  · unfold parseTopic at hparse
    split at hparse
    next id hexec =>
        rw [← Option.some.inj hparse]
        exact exec_ne_nil hexec
    next => exact exec_ne_nil hparse
  · exact absurd htopic h

theorem consume_eq {channels : List Text} (h : channelExists channels p.envelope.channel)
    (w : Writer Num) :
    consume rt channels w p.envelope
      = ((save rt w p.messages).1, some (save rt w p.messages).2) := by
  have hall : p.messages.filter (fun m => channelExists channels m.channel) = p.messages := by
    rw [List.filter_eq_self]
    intro m hm
    rw [channel_eq p hm]
    exact h
  rw [consume, p.valid]
  simp only [hall]

/-- The last write of a value, in terms of the messages. -/
theorem lastSet_iff {kind : Kind} {k : Series} {v : Value Num} :
    Series.LastSet (Fields.get kind) (p.messages.map (keyed rt)) k v ↔
      ∃ m', Stands p kind v m' ∧ (keyed rt m').1 = k := by
  constructor
  · rintro ⟨before, fields, after, hsplit, hv, hafter⟩
    obtain ⟨before', rest, hmessages, -, hrest⟩ := List.map_eq_append_iff.mp hsplit
    obtain ⟨m', after', rfl, hm', rfl⟩ := List.map_eq_cons_iff.mp hrest
    have hmem : m' ∈ p.messages := by
      rw [hmessages]
      simp
    have hkey : (keyed rt m').1 = k := congrArg Prod.fst hm'
    have hfields : fieldsOf rt m' = fields := congrArg Prod.snd hm'
    refine ⟨m', ⟨before', after', hmessages, ?_, fun m'' hm'' hsame => ?_⟩, hkey⟩
    · rw [← get_fields p hmem, hfields]
      exact hv
    · have hmem'' : m'' ∈ p.messages := by
        rw [hmessages]
        simp [hm'']
      rw [← get_fields p hmem'']
      exact hafter _ (List.mem_map_of_mem hm'') (((samePoint_iff p hmem'' hmem).mpr hsame).trans hkey)
  · rintro ⟨m', ⟨before, after, hmessages, hv, hafter⟩, rfl⟩
    have hmem : m' ∈ p.messages := by
      rw [hmessages]
      simp
    refine ⟨before.map (keyed rt), fieldsOf rt m', after.map (keyed rt), ?_, ?_, ?_⟩
    · rw [hmessages, List.map_append, List.map_cons]
      rfl
    · rw [get_fields p hmem]
      exact hv
    · intro kv hkv hkey
      obtain ⟨m'', hm'', rfl⟩ := List.mem_map.mp hkv
      have hmem'' : m'' ∈ p.messages := by
        rw [hmessages]
        simp [hm'']
      exact (get_fields p hmem'' kind).trans
        (hafter m'' hm'' ((samePoint_iff p hmem'' hmem).mp hkey))

/-- The rows of a payload on a topic, and what `Save` returns. -/
theorem save_messages (htopic : p.envelope.topic ≠ [])
    (hpoints : ∀ m ∈ p.messages, PointOk rt m) (w : Writer Num) :
    (save rt w p.messages).1.influx.rows
        = Series.putAll Fields.merge w.influx.rows (p.messages.map (keyed rt)) ∧
      (p.messages ≠ [] → p.envelope.channel ∈ (save rt w p.messages).1.influx.databases ∧
        (save rt w p.messages).2 = none) := by
  obtain ⟨hrows, hdb, herr⟩ := save_spec (w := w) (channel_ne p htopic)
    (fun m hm => channel_eq p hm) (fun m hm => topic_eq_envelope p hm ▸ htopic) hpoints
  exact ⟨hrows, fun hne => ⟨hdb (.inr hne), herr (.inr hne)⟩⟩

/-- The row of a message of the payload is one that the reader selects. -/
theorem select_of_lookup {w : Writer Num} {m : Message Num} {fields : Fields Num}
    (hm : m ∈ p.messages) (htopic : p.envelope.topic = messagesWord)
    (h : (save rt w p.messages).1.influx.rows.lookup (keyed rt m).1 = some fields) :
    ((keyed rt m).1, fields) ∈ (save rt w p.messages).1.influx.select m.channel [] := by
  refine mem_select.mpr ⟨h, rfl, ?_, rfl⟩
  exact (topic_eq_envelope p hm).trans htopic

end Payload

/-! ## §5. Reading back. -/

section Main

variable {Num : Type} {rt : Runtime Num} {p : Published rt} {channels : List Text}

theorem publisher_eq {m : Message Num} (h : m ∈ p.messages) : m.publisher = p.envelope.publisher := by
  obtain ⟨r, -, rfl⟩ := message_eq p m h
  rfl

theorem kind_eq {m : Message Num} (h : m ∈ p.messages) {k k' : Kind} {v v' : Value Num}
    (hk : m.get k = some v) (hk' : m.get k' = some v') : k = k' := by
  obtain ⟨r, hvalues, rfl⟩ := message_eq p m h
  exact kind_unique hvalues hk hk'

theorem Stands.mem {kind : Kind} {v : Value Num} {m' : Message Num} (h : Stands p kind v m') :
    m' ∈ p.messages := by
  obtain ⟨before, after, hsplit, -⟩ := h
  rw [hsplit]
  simp

/-- The conditions are enough. -/
theorem readBack_of_storable (hexists : channelExists channels p.envelope.channel)
    (h : Storable p) : ReadBack channels p := by
  intro w
  have htopic := (topic_messages p).mpr h.aedes
  have hne : p.messages ≠ [] := mt (messages_eq_nil p).mp h.records
  have hword : p.envelope.topic ≠ [] := htopic ▸ List.cons_ne_nil _ _
  obtain ⟨hrows, hsaved⟩ := save_messages p hword h.points w
  obtain ⟨hdb, herr⟩ := hsaved hne
  rw [consume_eq p hexists w]
  refine ⟨congrArg some herr, fun m hm limit hlimit => ?_⟩
  have hchannel := channel_eq p hm
  obtain ⟨page, hpage, hentries⟩ := @mem_readAll Num rt _ _ _ (hchannel ▸ hdb) hlimit
  refine ⟨page, hpage, ?_⟩
  simp only [hentries]
  -- a message has one value at most; one without a value has a row of its own
  by_cases hvalue : ∃ kind v, m.get kind = some v
  · obtain ⟨kind, v, hv⟩ := hvalue
    obtain ⟨m', hstands, hname⟩ := h.values m hm kind v hv
    have hlast := (lastSet_iff p).mpr ⟨m', hstands, rfl⟩
    have hlookup : ((save rt w p.messages).1.influx.rows.lookup (keyed rt m').1).bind (Fields.get kind)
        = some v := by
      rw [hrows]
      exact (Series.lookup_putAll_eq_some (field_get kind)).mpr (.inl hlast)
    obtain ⟨fields, hfields, hget⟩ := Option.bind_eq_some_iff.mp hlookup
    have hselect := select_of_lookup p hstands.mem htopic hfields
    rw [channel_eq p hstands.mem, ← hchannel] at hselect
    refine ⟨_, ⟨_, hselect, rfl⟩, ?_, hname, fun kind' v' hv' => ?_⟩
    · exact (publisher_eq hstands.mem).trans (publisher_eq hm).symm
    · obtain rfl := kind_eq hm hv hv'
      rw [get_parseMessage, ← hv', hv]
      exact hget
  · have hrow : (keyed rt m).1 ∈ (save rt w p.messages).1.influx.rows := by
      rw [hrows]
      exact Series.mem_putAll.mpr (.inr ⟨_, List.mem_map_of_mem hm, rfl⟩)
    obtain ⟨fields, hfields⟩ := Option.isSome_iff_exists.mp (AList.lookup_isSome.mpr hrow)
    refine ⟨_, ⟨_, select_of_lookup p hm htopic hfields, rfl⟩, rfl, rfl, fun kind v hv => ?_⟩
    exact absurd ⟨kind, v, hv⟩ hvalue

/-- A payload without a record returns what an earlier `Save` has left. -/
theorem records_of_readBack (hexists : channelExists channels p.envelope.channel)
    (h : ReadBack channels p) : p.records ≠ [] := by
  intro hnil
  have herr := (h { finalError := some (.write .missingMeasurement) }).1
  rw [consume_eq p hexists, (messages_eq_nil p).mpr hnil] at herr
  simp [save] at herr

/-- What is found in a database that was empty comes from the payload, and from
the measurement `messages`. -/
theorem entry_of_readBack (hexists : channelExists channels p.envelope.channel)
    (h : ReadBack channels p) {m : Message Num} (hm : m ∈ p.messages) :
    ∃ k fields, (save rt {} p.messages).1.influx.rows.lookup k = some fields ∧
      k.measurement = messagesWord ∧ SameReading m (parseMessage rt (k, fields)) := by
  have hread := (h {}).2 m hm _ (Nat.le_refl _)
  rw [consume_eq p hexists] at hread
  obtain ⟨page, hpage, e, he, hsame⟩ := hread
  have hdb : m.channel ∈ (save rt {} p.messages).1.influx.databases := by
    by_contra hno
    rw [readAll, if_pos hno] at hpage
    cases hpage
  obtain ⟨page', hpage', hentries⟩ := @mem_readAll Num rt _ _ _ hdb (Nat.le_refl _)
  obtain rfl : page = page' := Option.some.inj (hpage.symm.trans hpage')
  obtain ⟨⟨k, fields⟩, hrow, rfl⟩ := (hentries e).mp he
  obtain ⟨hlookup, -, hmeasurement, -⟩ := mem_select.mp hrow
  exact ⟨k, fields, hlookup, hmeasurement, hsame⟩

/-- The conditions are needed. -/
theorem storable_of_readBack (hexists : channelExists channels p.envelope.channel)
    (h : ReadBack channels p) : Storable p := by
  have hrecords := records_of_readBack hexists h
  have hne : p.messages ≠ [] := mt (messages_eq_nil p).mp hrecords
  have herr : (save rt {} p.messages).2 = none := by
    have hsaved := (h {}).1
    rw [consume_eq p hexists] at hsaved
    exact Option.some.inj hsaved
  have hpoints := pointOk_of_save herr
  have hword : p.envelope.topic ≠ [] := fun hnil =>
    save_without_topic hne (fun m hm => (topic_eq_envelope p hm).trans hnil) herr
  obtain ⟨hrows, -⟩ := save_messages p hword hpoints {}
  have htopic : p.envelope.topic = messagesWord := by
    obtain ⟨m, hm⟩ := List.exists_mem_of_ne_nil _ hne
    obtain ⟨k, fields, hlookup, hmeasurement, -⟩ := entry_of_readBack hexists h hm
    -- every row of the store has been written for a message of the payload
    have hrow : k ∈ (save rt {} p.messages).1.influx.rows :=
      AList.lookup_isSome.mp (by rw [hlookup]; rfl)
    rw [hrows] at hrow
    rcases Series.mem_putAll.mp hrow with hold | ⟨kv, hkv, rfl⟩
    · exact absurd hold (AList.notMem_empty _)
    · obtain ⟨m', hm', rfl⟩ := List.mem_map.mp hkv
      exact (topic_eq_envelope p hm').symm.trans hmeasurement
  refine ⟨(topic_messages p).mp htopic, hrecords, hpoints, fun m hm kind v hv => ?_⟩
  obtain ⟨k, fields, hlookup, -, hsame⟩ := entry_of_readBack hexists h hm
  have hget : ((save rt {} p.messages).1.influx.rows.lookup k).bind (Fields.get kind) = some v := by
    rw [hlookup, ← hsame.value kind v hv, get_parseMessage]
    rfl
  rw [hrows, Series.lookup_putAll_eq_some (field_get kind)] at hget
  rcases hget with hlast | ⟨hold, -⟩
  · obtain ⟨m', hstands, hkey⟩ := (lastSet_iff p).mp hlast
    refine ⟨m', hstands, ?_⟩
    rw [← hsame.name, ← hkey]
    rfl
  · rw [AList.lookup_empty] at hold
    cases hold

/-- **The InfluxDB reader finds a published payload exactly when it came through
Aedes on a topic `channels/<id>/messages…`**, holds a record, makes points that
the client library takes, and has no value that it overwrites itself. -/
theorem readBack_iff (p : Published rt) (channels : List Text)
    (hexists : channelExists channels p.envelope.channel) : ReadBack channels p ↔ Storable p :=
  ⟨storable_of_readBack hexists, readBack_of_storable hexists⟩

end Main

/-- Whole numbers, on which `float64` is exact; short lists are sorted by
insertion. -/
def wholeNumbers : Runtime Int where
  zero := 0
  isZero := (· == 0)
  add := (· + ·)
  finite := fun _ => true
  unix := (· * 1000000000)
  seconds := id
  formatFloat := fun n => (toString n).toList
  parseFloat := fun s => (String.ofList s).toInt?.getD 0
  sort := List.insertionSort fun a b => a.time ≤ b.time
  sort_perm := List.perm_insertionSort _

/-- The record `{"n": "a", "v": 5, "t": 1}`. -/
def temperature : Record Int :=
  { baseTime := 0, baseValue := 0, baseSum := 0, name := ['a'], time := 1, updateTime := 0
    value := some 5 }

/-- It is posted to channel `1` of the HTTP adapter. -/
def httpPost : Published wholeNumbers where
  source := .http ['1'] [] []
  publisher := ['t']
  records := [temperature]
  envelope := _
  messages := _
  sent := rfl
  valid := rfl

/-- It is published on `channels/1/messages` of the Aedes adapter. -/
def aedesPost : Published wholeNumbers where
  source := .aedes (fun _ => true) ['d'] (channelsSlash ++ '1' :: '/' :: messagesWord)
  publisher := ['t']
  records := [temperature]
  envelope := _
  messages := _
  sent := rfl
  valid := rfl

/-- The condition of `readBack_iff` is met by the same record through Aedes. -/
theorem aedes_read_back :
    channelExists [['*']] aedesPost.envelope.channel = true ∧ ReadBack [['*']] aedesPost := by
  refine ⟨by decide, (readBack_iff aedesPost [['*']] (by decide)).mpr ⟨?_, by decide, ?_, ?_⟩⟩
  · exact ⟨_, _, _, rfl, by decide⟩
  · intro m hm
    obtain rfl := List.mem_singleton.mp hm
    exact ⟨_, rfl⟩
  · intro m hm kind v hv
    obtain rfl := List.mem_singleton.mp hm
    exact ⟨_, ⟨[], [], rfl, hv, fun m'' hm'' => absurd hm'' List.not_mem_nil⟩, rfl⟩

/-- **A record posted to the HTTP adapter is not saved**: its point has no
measurement. The error is kept for a later payload without records. -/
theorem http_not_read_back :
    (consume wholeNumbers [['*']] {} httpPost.envelope).2
        = some (some (.write .missingMeasurement)) ∧
      (consume wholeNumbers [['*']] {} httpPost.envelope).1.finalError
        = some (.write .missingMeasurement) ∧
      ¬ ReadBack [['*']] httpPost := by
  have hrefused : (consume wholeNumbers [['*']] {} httpPost.envelope).2
      = some (some (.write .missingMeasurement)) := by decide
  refine ⟨hrefused, by decide, fun h => ?_⟩
  have hsaved := (h {}).1
  rw [hrefused] at hsaved
  cases hsaved

end Mainflux.Storage
