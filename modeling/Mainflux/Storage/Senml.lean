/-
  Mainflux.Storage.Senml
  ──────────────────────
  **FROM A PUBLISHED MESSAGE TO SENML MESSAGES.**

  What the writers are handed: the message that an adapter put on NATS, the
  records of its payload, and the transformer that validates the records, resolves
  their base fields and copies the envelope of the message into each of them.

  Floating-point numbers are a parameter: `Runtime` names the operations that the
  code uses. The payload is taken as the records that `json.Unmarshal` or
  `cbor.Unmarshal` find in it.
-/
import Mainflux.Messaging.Verne

namespace Mainflux.Storage

open Mainflux.Lib

open Mainflux.Messaging

/-! ## §1. Records and messages. -/

/-- One record of a pack. -/
structure Record (Num : Type) where
  baseName : Text := []
  baseTime : Num
  baseUnit : Text := []
  baseVersion : Nat := 0
  baseValue : Num
  baseSum : Num
  name : Text := []
  unit : Text := []
  time : Num
  updateTime : Num
  value : Option Num := none
  stringValue : Option Text := none
  dataValue : Option Text := none
  boolValue : Option Bool := none
  sum : Option Num := none
  deriving DecidableEq

/-- `mainflux.Message`; the payload as its records, `none` when it is not of the
format of its content type. -/
structure Envelope (Num : Type) where
  channel : Text
  topic : Text
  subtopic : Text
  publisher : Text
  devname : Text
  protocol : Text
  contentType : Text
  payload : Option (List (Record Num))

/-- `senml.Message` of the transformer. -/
structure Message (Num : Type) where
  channel : Text
  topic : Text
  subtopic : Text
  publisher : Text
  devname : Text
  protocol : Text
  name : Text
  unit : Text
  time : Num
  updateTime : Num
  value : Option Num
  stringValue : Option Text
  dataValue : Option Text
  boolValue : Option Bool
  sum : Option Num
  deriving DecidableEq

/-- At most one of value, string, data and bool is set. -/
def OneValue {Num : Type} (m : Message Num) : Prop :=
  m.value.toList.length + m.stringValue.toList.length + m.dataValue.toList.length
    + m.boolValue.toList.length ≤ 1

/-- Three of the four are not set. -/
theorem oneValue_cases {Num : Type} {m : Message Num} (h : OneValue m) :
    (m.stringValue = none ∧ m.dataValue = none ∧ m.boolValue = none) ∨
      (m.value = none ∧ m.dataValue = none ∧ m.boolValue = none) ∨
      (m.value = none ∧ m.stringValue = none ∧ m.boolValue = none) ∨
      m.value = none ∧ m.stringValue = none ∧ m.dataValue = none := by
  have hset : ∀ {α : Type} (x : Option α), x = none ∨ x.toList.length = 1 := by
    intro α x
    cases x with
    | none => exact .inl rfl
    | some v => exact .inr rfl
  unfold OneValue at h
  rcases hset m.value with hv | hv <;> rcases hset m.stringValue with hs | hs <;>
    rcases hset m.dataValue with hd | hd <;> rcases hset m.boolValue with hb | hb <;>
    first
    | omega
    | simp [hv, hs, hd, hb]

/-- What the code uses of `float64`, `time` and `sort`. -/
structure Runtime (Num : Type) where
  zero : Num
  /-- `x == 0`. -/
  isZero : Num → Bool
  add : Num → Num → Num
  /-- Neither an infinity nor not a number. -/
  finite : Num → Bool
  /-- `time.Unix` of `math.Modf`, in nanoseconds. -/
  unix : Num → Int
  /-- `float64(t.Unix())` of whole seconds. -/
  seconds : Int → Num
  /-- `strconv.FormatFloat(x, 'f', -1, 64)`. -/
  formatFloat : Num → Text
  /-- `strconv.ParseFloat`, with its value on an error. -/
  parseFloat : Text → Num
  /-- `sort.Sort` by time, which is not stable. -/
  sort : List (Record Num) → List (Record Num)
  sort_perm : ∀ rs, (sort rs).Perm rs

/-! ## §2. The transformer. -/

section Transform

variable {Num : Type} (rt : Runtime Num)

inductive SenmlError
  | malformed
  | versionChange
  | emptyName
  | badChar
  | tooManyValues
  | noValues
  deriving DecidableEq

/-- Characters that a name may hold behind its first one only. -/
def isMark (c : Char) : Bool := c == '-' || c == ':' || c == '.' || c == '/' || c == '_'

/-- The number of value fields of a record. -/
def Record.values (r : Record Num) : Nat :=
  r.value.toList.length + r.boolValue.toList.length + r.dataValue.toList.length
    + r.stringValue.toList.length

/-- The loop of `senml.Validate`, from the base fields read so far. -/
def validateFrom (bver : Nat) (bname : Text) (bsum : Num) : List (Record Num) → Option SenmlError
  | [] => none
  | r :: rs =>
      let bver := if bver = 0 ∧ r.baseVersion ≠ 0 then r.baseVersion else bver
      let bname' := if r.baseName ≠ [] then r.baseName else bname
      let bsum' := if rt.isZero r.baseSum then bsum else r.baseSum
      let name := bname' ++ r.name
      if r.baseVersion ≠ bver then some .versionChange
      else if name = [] then some .emptyName
      else if name.head?.any isMark then some .badChar
      else if name.any fun c => !(c.isAlphanum || isMark c) then some .badChar
      else if 1 < r.values then some .tooManyValues
      else if r.values = 0 ∧ r.sum = none ∧ rt.isZero bsum' then some .noValues
      else validateFrom bver bname' bsum' rs

/-- `senml.Validate`. -/
def validate (records : List (Record Num)) : Option SenmlError :=
  validateFrom rt 0 [] rt.zero records

/-- `senml.Decode`. -/
def decode (msg : Envelope Num) : Except SenmlError (List (Record Num)) :=
  match msg.payload with
  | none => .error .malformed
  | some records =>
      match validate rt records with
      | some err => .error err
      | none => .ok records

/-- The loop of `senml.Normalize`, from the base fields read so far. -/
def resolveFrom (bname : Text) (btime bsum : Num) (bunit : Text) :
    List (Record Num) → List (Record Num)
  | [] => []
  | r :: rs =>
      let btime := if rt.isZero r.baseTime then btime else r.baseTime
      let bsum := if rt.isZero r.baseSum then bsum else r.baseSum
      let bunit := if r.baseUnit ≠ [] then r.baseUnit else bunit
      let bname := if r.baseName ≠ [] then r.baseName else bname
      { baseName := []
        baseTime := rt.zero
        baseUnit := []
        baseVersion := if r.baseVersion = 10 then 0 else r.baseVersion
        baseValue := rt.zero
        baseSum := rt.zero
        name := bname ++ r.name
        unit := if r.unit = [] then bunit else r.unit
        time := rt.add btime r.time
        updateTime := r.updateTime
        value := r.value.map fun v => if rt.isZero r.baseValue then v else rt.add r.baseValue v
        stringValue := r.stringValue
        dataValue := r.dataValue
        boolValue := r.boolValue
        sum := r.sum.map fun s => rt.add bsum s } :: resolveFrom bname btime bsum bunit rs

/-- `senml.Normalize`. -/
def normalize (records : List (Record Num)) : Except SenmlError (List (Record Num)) :=
  match validate rt records with
  | some err => .error err
  | none => .ok (rt.sort (resolveFrom rt [] rt.zero rt.zero [] records))

/-- The message of a resolved record. -/
def messageOf (msg : Envelope Num) (r : Record Num) : Message Num where
  channel := msg.channel
  topic := msg.topic
  subtopic := msg.subtopic
  publisher := msg.publisher
  devname := msg.devname
  protocol := msg.protocol
  name := r.name
  unit := r.unit
  time := r.time
  updateTime := r.updateTime
  value := r.value
  stringValue := r.stringValue
  dataValue := r.dataValue
  boolValue := r.boolValue
  sum := r.sum

/-- `Transform`. -/
def transform (msg : Envelope Num) : Except SenmlError (List (Message Num)) := do
  let raw ← decode rt msg
  let normalized ← normalize rt raw
  return normalized.map (messageOf msg)

end Transform

/-! ## §3. The adapters. -/

/-- A request that an adapter answers by publishing: what the HTTP, WebSocket and
CoAP adapters read off it, and the topics of the MQTT adapters. -/
inductive Source
  | http (channel subtopic contentType : Text)
  | ws (channel subtopic contentType : Text)
  | coap (channel subtopic contentType : Text)
  | verne (access : Text → Bool) (words : List Text)
  | aedes (access : Text → Bool) (clientID topic : Text)

def mqttWord : Text := ['m', 'q', 't', 't']

/-- The message that is put on NATS. Only the Aedes adapter fills the topic and
the device name. -/
def Source.envelope {Num : Type} (publisher : Text) (records : List (Record Num)) :
    Source → Option (Envelope Num)
  | .http channel subtopic contentType =>
      some
        { channel, subtopic, publisher, contentType
          topic := [], devname := [], protocol := ['h', 't', 't', 'p'], payload := some records }
  | .ws channel subtopic contentType =>
      some
        { channel, subtopic, publisher, contentType
          topic := [], devname := [], protocol := ['w', 's'], payload := some records }
  | .coap channel subtopic contentType =>
      some
        { channel, subtopic, publisher, contentType
          topic := [], devname := [], protocol := ['c', 'o', 'a', 'p'], payload := some records }
  | .verne access words =>
      (Verne.authOnPublish access words).map fun p =>
        { channel := p.channel, subtopic := p.subtopic, contentType := p.contentType, publisher
          topic := [], devname := [], protocol := mqttWord, payload := some records }
  | .aedes access clientID topic =>
      match authorizePublish access topic with
      | .accepted _ (p, msgtopic) =>
          some
            { channel := p.channel, subtopic := p.subtopic, contentType := p.contentType, publisher
              topic := msgtopic, devname := clientID, protocol := mqttWord
              payload := some records }
      | _ => none

/-- A valid SenML payload that an adapter has published, with the messages that
result from it. -/
structure Published {Num : Type} (rt : Runtime Num) where
  source : Source
  publisher : Text
  records : List (Record Num)
  envelope : Envelope Num
  messages : List (Message Num)
  sent : source.envelope publisher records = some envelope
  valid : transform rt envelope = .ok messages

/-! ## §4. The messages of one payload. -/

section Messages

variable {Num : Type} {rt : Runtime Num}

/-- A chain of checks passes when each of them does. -/
theorem check_eq_none {α : Type} {p : Prop} [Decidable p] {e : α} {x : Option α} :
    (if p then some e else x) = none ↔ ¬ p ∧ x = none := by
  split <;> simp_all

theorem values_of_validate {bver : Nat} {bname : Text} {bsum : Num} {records : List (Record Num)}
    (h : validateFrom rt bver bname bsum records = none) : ∀ r ∈ records, r.values ≤ 1 := by
  induction records generalizing bver bname bsum with
  | nil => exact fun r hr => absurd hr List.not_mem_nil
  | cons r rs ih =>
      simp only [validateFrom, check_eq_none] at h
      obtain ⟨-, -, -, -, hvalues, -, hrest⟩ := h
      intro x hx
      rcases List.mem_cons.mp hx with rfl | hx
      · omega
      · exact ih hrest x hx

/-- Resolving keeps the number of value fields. -/
theorem values_of_resolve {bname bunit : Text} {btime bsum : Num} {records : List (Record Num)}
    {r : Record Num} (h : r ∈ resolveFrom rt bname btime bsum bunit records) :
    ∃ r' ∈ records, r.values = r'.values := by
  induction records generalizing bname btime bsum bunit with
  | nil => cases h
  | cons r' rs ih =>
      rcases List.mem_cons.mp h with rfl | h
      · refine ⟨r', List.mem_cons_self, ?_⟩
        unfold Record.values
        cases r'.value <;> rfl
      · obtain ⟨x, hx, hvalues⟩ := ih h
        exact ⟨x, List.mem_cons_of_mem _ hx, hvalues⟩

/-- What `Transform` makes of a message. -/
theorem transform_eq_ok {msg : Envelope Num} {ms : List (Message Num)}
    (h : transform rt msg = .ok ms) :
    ∃ records, msg.payload = some records ∧ validate rt records = none ∧
      ms = (rt.sort (resolveFrom rt [] rt.zero rt.zero [] records)).map (messageOf msg) := by
  unfold transform decode at h
  cases hpayload : msg.payload with
  | none =>
      rw [hpayload] at h
      cases h
  | some records =>
      rw [hpayload] at h
      cases hvalid : validate rt records with
      | some err =>
          simp only [hvalid] at h
          cases h
      | none =>
          simp only [hvalid] at h
          -- the records are validated once more before they are resolved
          change (do let normalized ← normalize rt records; pure (normalized.map (messageOf msg))) = _ at h
          simp only [normalize, hvalid] at h
          exact ⟨records, rfl, hvalid, (Except.ok.inj h).symm⟩

/-- **Every message of a payload has the envelope of the payload**, and at most
one value. -/
theorem messages_shape {msg : Envelope Num} {ms : List (Message Num)}
    (h : transform rt msg = .ok ms) :
    ∀ m ∈ ms, ∃ r : Record Num, r.values ≤ 1 ∧ m = messageOf msg r := by
  obtain ⟨records, -, hvalid, rfl⟩ := transform_eq_ok h
  intro m hm
  obtain ⟨r, hr, rfl⟩ := List.mem_map.mp hm
  obtain ⟨r', hr', hvalues⟩ := values_of_resolve ((rt.sort_perm _).mem_iff.mp hr)
  exact ⟨r, hvalues ▸ values_of_validate hvalid r' hr', rfl⟩

end Messages

end Mainflux.Storage
