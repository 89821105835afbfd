/-
  Mainflux.Messaging.Wire
  ───────────────────────
  **THE MESSAGE ON THE BROKER: what the generated code writes and reads.**

  `Message` is what adapters publish and writers receive.  `MarshalToSizedBuffer` fills a
  buffer from its end, the last field first; `Unmarshal` reads records in any order, lets
  a later value of a field replace an earlier one, and keeps the bytes of fields it does
  not know.

    • `arrives_as_published` — a message arrives as it was published;
    • `backward_writer` — the backward writer agrees with the plain encoding;
    • `unmarshal_iff_records` — what is accepted, and as which message;
    • `published_again` — a message that was read can be published again unchanged;
    • `unmarshal_append` — reading is a fold over concatenation.
-/
import Mainflux.Lib.Wire

namespace Mainflux.Messaging

open Mainflux.Lib

open Mainflux.Lib.Wire

/-! ## §1. The generated code. -/

/-- `Message`; strings are their bytes. -/
structure Message where
  channel : List UInt8 := []
  topic : List UInt8 := []
  subtopic : List UInt8 := []
  publisher : List UInt8 := []
  devname : List UInt8 := []
  protocol : List UInt8 := []
  contentType : List UInt8 := []
  payload : List UInt8 := []
  /-- `XXX_unrecognized`. -/
  unrecognized : List UInt8 := []
  deriving DecidableEq

namespace Message

def schema : Schema where
  message := "Message"
  field
    | 1 => some (.bytes "Channel")
    | 2 => some (.bytes "Topic")
    | 3 => some (.bytes "Subtopic")
    | 4 => some (.bytes "Publisher")
    | 5 => some (.bytes "Devname")
    | 6 => some (.bytes "Protocol")
    | 7 => some (.bytes "ContentType")
    | 8 => some (.bytes "Payload")
    | _ => none

/-- The assignments of `Unmarshal`, by field number. -/
def assign (m : Message) (fieldNum : Nat) (v : List UInt8) : Message :=
  match fieldNum with
  | 1 => { m with channel := v }
  | 2 => { m with topic := v }
  | 3 => { m with subtopic := v }
  | 4 => { m with publisher := v }
  | 5 => { m with devname := v }
  | 6 => { m with protocol := v }
  | 7 => { m with contentType := v }
  | 8 => { m with payload := v }
  | _ => m

def apply (m : Message) : Record → Message
  | .bytes fieldNum v => m.assign fieldNum v
  | .varint _ _ => m
  | .unknown p => { m with unrecognized := m.unrecognized ++ p }

/-- The blocks of `Size`, and of `MarshalToSizedBuffer` from the last to the first. -/
def known (m : Message) : List Part :=
  [.bytes 0xA m.channel, .bytes 0x12 m.topic, .bytes 0x1A m.subtopic, .bytes 0x22 m.publisher,
    .bytes 0x2A m.devname, .bytes 0x32 m.protocol, .bytes 0x3A m.contentType, .bytes 0x42 m.payload]

theorem known_fits (m : Message) : ∀ part ∈ known m, part.Fits schema := by
  intro part hpart
  simp only [known, List.mem_cons, List.not_mem_nil, or_false] at hpart
  rcases hpart with rfl | rfl | rfl | rfl | rfl | rfl | rfl | rfl <;>
    exact ⟨by decide, by decide, by decide, _, rfl⟩

theorem known_rebuild (m : Message) :
    ((known m).flatMap Part.records).foldl apply {} = { m with unrecognized := [] } := by
  obtain ⟨c, t, s, p, d, r, ct, pl, u⟩ := m
  simp only [known, List.flatMap_cons, List.flatMap_nil, List.append_nil, List.foldl_append]
  rw [foldl_bytes apply 0xA c _ ⟨c, [], [], [], [], [], [], [], []⟩ rfl (fun h => by rw [h]),
    foldl_bytes apply 0x12 t _ ⟨c, t, [], [], [], [], [], [], []⟩ rfl (fun h => by rw [h]),
    foldl_bytes apply 0x1A s _ ⟨c, t, s, [], [], [], [], [], []⟩ rfl (fun h => by rw [h]),
    foldl_bytes apply 0x22 p _ ⟨c, t, s, p, [], [], [], [], []⟩ rfl (fun h => by rw [h]),
    foldl_bytes apply 0x2A d _ ⟨c, t, s, p, d, [], [], [], []⟩ rfl (fun h => by rw [h]),
    foldl_bytes apply 0x32 r _ ⟨c, t, s, p, d, r, [], [], []⟩ rfl (fun h => by rw [h]),
    foldl_bytes apply 0x3A ct _ ⟨c, t, s, p, d, r, ct, [], []⟩ rfl (fun h => by rw [h]),
    foldl_bytes apply 0x42 pl _ ⟨c, t, s, p, d, r, ct, pl, []⟩ rfl (fun h => by rw [h])]

theorem unrecognized_assign (m : Message) (n : Nat) (v : List UInt8) :
    (m.assign n v).unrecognized = m.unrecognized := by
  unfold assign
  split <;> rfl

/-- A new value takes at most the room of its record. -/
theorem size_assign (m : Message) (n : Nat) (v : List UInt8) :
    totalSize (known (m.assign n v)) ≤ totalSize (known m) + (1 + v.length + sov v.length) := by
  unfold assign
  split <;> simp only [totalSize, known, List.map_cons, List.map_nil, List.sum_cons, List.sum_nil]
  case h_1 => have := Part.size_bytes_le 0xA v; omega
  case h_2 => have := Part.size_bytes_le 0x12 v; omega
  case h_3 => have := Part.size_bytes_le 0x1A v; omega
  case h_4 => have := Part.size_bytes_le 0x22 v; omega
  case h_5 => have := Part.size_bytes_le 0x2A v; omega
  case h_6 => have := Part.size_bytes_le 0x32 v; omega
  case h_7 => have := Part.size_bytes_le 0x3A v; omega
  case h_8 => have := Part.size_bytes_le 0x42 v; omega
  case h_9 => exact Nat.le_add_right _ _

/-- The generated code of `Message`. -/
def generated : Generated Message where
  schema := schema
  zero := {}
  apply := apply
  known := known
  unrecognized := unrecognized
  fits := known_fits
  rebuild m := by rw [known_rebuild]; rfl
  apply_nil m := by rw [apply, List.append_nil]
  apply_append m p q := by rw [apply, apply, apply, List.append_assoc]
  unrecognized_zero := rfl
  unrecognized_apply m r := by
    cases r with
    | bytes n v => exact (unrecognized_assign m n v).trans (List.append_nil _).symm
    | varint n v => exact (List.append_nil _).symm
    | unknown p => rfl
  size_zero := rfl
  size_apply m r := by
    cases r with
    | bytes n v => exact size_assign m n v
    | varint n v => exact Nat.le_add_right _ _
    | unknown p => exact Nat.le_refl _

/-- `m.Size()`. -/
def size : Message → Nat := generated.size

/-- `m.Marshal()`. -/
def marshal : Message → Option (List UInt8) := generated.marshal

/-- `m.MarshalToSizedBuffer(dAtA)`: the buffer, and how many bytes it took. -/
def marshalToSizedBuffer (m : Message) (dAtA : List UInt8) : Option (List UInt8 × Nat) :=
  Wire.marshalToSizedBuffer (generated.parts m) dAtA

/-- `m.XXX_Marshal(b, false)`, on the whole capacity of `b`. -/
def xxxMarshal : Message → List UInt8 → Option (List UInt8) := generated.xxxMarshal

/-- `m.Unmarshal(dAtA)`. -/
def unmarshal : Message → List UInt8 → Except Failure Message := generated.unmarshal

/-- `proto.Marshal(m)`. -/
def protoMarshal : Message → Option (List UInt8) := generated.protoMarshal

/-- `proto.Unmarshal(dAtA, m)`. -/
def protoUnmarshal : List UInt8 → Except Failure Message := generated.protoUnmarshal

/-! ## §2. What a message is. -/

/-- The bytes kept are records of fields that are not those of a message. -/
def Sound (m : Message) : Prop := generated.Sound m

/-- The message that a sequence of records makes: the last value of each field, and all that is
not a field of it, in order. -/
def withRecords (m : Message) (rs : List Record) : Message where
  channel := lastValue 1 m.channel rs
  topic := lastValue 2 m.topic rs
  subtopic := lastValue 3 m.subtopic rs
  publisher := lastValue 4 m.publisher rs
  devname := lastValue 5 m.devname rs
  protocol := lastValue 6 m.protocol rs
  contentType := lastValue 7 m.contentType rs
  payload := lastValue 8 m.payload rs
  unrecognized := m.unrecognized ++ rs.flatMap Record.raw

theorem withRecords_cons (m : Message) (r : Record) (rs : List Record) :
    m.withRecords (r :: rs) = (m.apply r).withRecords rs := by
  unfold withRecords
  simp only [lastValue_cons]
  cases r with
  | bytes n v =>
      rw [apply]
      unfold assign
      split
      case h_9 n h₁ h₂ h₃ h₄ h₅ h₆ h₇ h₈ =>
        simp only [Record.valueOf, if_neg h₁, if_neg h₂, if_neg h₃, if_neg h₄, if_neg h₅,
          if_neg h₆, if_neg h₇, if_neg h₈]
        rfl
      all_goals rfl
  | varint n v => rfl
  | unknown p =>
      rw [List.flatMap_cons, Record.raw, ← List.append_assoc]
      rfl

theorem foldl_apply (m : Message) (rs : List Record) : rs.foldl apply m = m.withRecords rs := by
  induction rs generalizing m with
  | nil =>
      rw [withRecords, List.flatMap_nil, List.append_nil]
      rfl
  | cons r rs ih => rw [List.foldl_cons, ih, withRecords_cons]

/-- A field on the wire, left out when it is empty. -/
def plainField (tag : UInt8) (v : List UInt8) : List UInt8 :=
  if v = [] then [] else tag :: (encode v.length ++ v)

/-- The encoding of a message, from the front. -/
def plain (m : Message) : List UInt8 :=
  plainField 0xA m.channel ++ plainField 0x12 m.topic ++ plainField 0x1A m.subtopic ++
    plainField 0x22 m.publisher ++ plainField 0x2A m.devname ++ plainField 0x32 m.protocol ++
    plainField 0x3A m.contentType ++ plainField 0x42 m.payload ++ m.unrecognized

theorem encoded_bytes (tag : UInt8) (v : List UInt8) :
    (Part.bytes tag v).encoded = plainField tag v := by
  rw [Part.encoded, plainField]
  cases v with
  | nil => rfl
  | cons b v =>
      have hne := List.cons_ne_nil b v
      rw [if_pos (List.length_pos_of_ne_nil hne), if_neg hne]

theorem encodedOf_parts (m : Message) : encodedOf (generated.parts m) = m.plain := by
  have hparts : generated.parts m = known m ++ [.raw m.unrecognized] := rfl
  rw [hparts, encodedOf, plain]
  simp only [known, List.cons_append, List.nil_append, List.flatMap_cons, List.flatMap_nil,
    encoded_bytes, List.append_assoc, List.append_nil]
  rfl

/-! ## §3. The results. -/

/-- **A message arrives as it was published**, whichever way it was written. -/
theorem arrives_as_published {m : Message} (hsound : m.Sound) (hsize : m.size < 2 ^ 63) :
    ∃ dAtA, m.marshal = some dAtA ∧ m.protoMarshal = some dAtA ∧ dAtA.length = m.size ∧
      protoUnmarshal dAtA = .ok m :=
  ⟨generated.encoding m, generated.marshal_eq m, generated.protoMarshal_eq m,
    generated.length_encoding m, Generated.unmarshal_encoding hsound hsize⟩

/-- A field of number 9, which messages do not have. -/
def withForeign : Message :=
  { channel := [0x31], payload := [0x7B, 0x7D], unrecognized := [0x48, 0x01] }

theorem sound_withForeign : withForeign.Sound := by
  have htag : Reads [0x48] 72 := ⟨rfl, by decide, by decide⟩
  have hvalue : Reads [0x01] 1 := ⟨rfl, by decide, by decide⟩
  have hskips : Skips 0 ([0x48] ++ [0x01]) := .last (.varint htag (by decide) hvalue)
  have hchunk : Chunk schema ([0x48] ++ [0x01]) (.unknown ([0x48] ++ [0x01])) :=
    .unknown htag (by decide) (by decide) rfl hskips
  refine ⟨[.unknown [0x48, 0x01]], .cons hchunk .nil, fun r hr => ?_⟩
  rw [List.mem_singleton.mp hr]
  rfl

theorem arrives_as_published_withForeign :
    ∃ dAtA, withForeign.marshal = some dAtA ∧ withForeign.protoMarshal = some dAtA ∧
      dAtA.length = withForeign.size ∧ protoUnmarshal dAtA = .ok withForeign :=
  arrives_as_published sound_withForeign (by decide)

/-- **The backward writer** leaves the plain encoding at the end of the buffer and the front as it
was, and panics exactly when the buffer is shorter than `Size`; what `XXX_Marshal` returns is
the beginning of that buffer. -/
theorem backward_writer (m : Message) (dAtA : List UInt8) :
    m.plain.length = m.size ∧
    m.marshalToSizedBuffer dAtA =
      (if dAtA.length < m.size then none
      else some (dAtA.take (dAtA.length - m.size) ++ m.plain, m.size)) ∧
    m.xxxMarshal dAtA =
      (if dAtA.length < m.size then none
      else some ((dAtA.take (dAtA.length - m.size) ++ m.plain).take m.size)) := by
  have hbuffer := marshalToSizedBuffer_eq (generated.parts m) dAtA
  rw [encodedOf_parts] at hbuffer
  refine ⟨?_, hbuffer, ?_⟩
  · rw [← encodedOf_parts]
    exact length_encodedOf _
  · rw [xxxMarshal, Generated.xxxMarshal, hbuffer]
    split
    next h => exact (if_pos h).symm
    next h => exact (if_neg h).symm

/-- **What is accepted, and as which message**: what is a sequence of records, in one way only,
with the last value of each field. -/
theorem unmarshal_iff_records {d : List UInt8} (hd : d.length < 2 ^ 63) {m m' : Message} :
    m.unmarshal d = .ok m' ↔
      ∃ rs, (∀ qs, Parses schema d qs ↔ qs = rs) ∧ m' = m.withRecords rs := by
  have hfold : m.unmarshal d = .ok m' ↔ ∃ rs, Parses schema d rs ∧ m' = rs.foldl apply m :=
    unmarshalFrom_ok_iff hd
  rw [hfold]
  constructor
  · rintro ⟨rs, hrs, rfl⟩
    refine ⟨rs, fun qs => ⟨fun hqs => hqs.unique hd hrs, fun heq => heq ▸ hrs⟩, ?_⟩
    exact foldl_apply m rs
  · rintro ⟨rs, hrs, rfl⟩
    exact ⟨rs, (hrs rs).mpr rfl, (foldl_apply m rs).symm⟩

/-- A message that a client wrote with its fields out of order, one of them twice and one unknown. -/
def shuffled : List UInt8 := [0x42, 0x01, 0x7B, 0x48, 0x01, 0x0A, 0x01, 0x31, 0x42, 0x01, 0x7D]

theorem unmarshal_iff_records_shuffled :
    ({} : Message).unmarshal shuffled
        = .ok { channel := [0x31], payload := [0x7D], unrecognized := [0x48, 0x01] } ↔
      ∃ rs, (∀ qs, Parses schema shuffled qs ↔ qs = rs) ∧
        { channel := [0x31], payload := [0x7D], unrecognized := [0x48, 0x01] }
          = ({} : Message).withRecords rs :=
  unmarshal_iff_records (by decide)

/-- **What was read can be published again**: no longer than it was, and read as the same. -/
theorem published_again {d : List UInt8} (hd : d.length < 2 ^ 63) {m : Message}
    (h : protoUnmarshal d = .ok m) :
    ∃ d', m.protoMarshal = some d' ∧ d'.length ≤ d.length ∧ protoUnmarshal d' = .ok m := by
  obtain ⟨-, hsize, hagain⟩ := Generated.reencode hd h
  refine ⟨generated.encoding m, generated.protoMarshal_eq m, ?_, hagain⟩
  rw [generated.length_encoding]
  exact hsize

theorem unmarshal_shuffled :
    ({} : Message).unmarshal shuffled
      = .ok { channel := [0x31], payload := [0x7D], unrecognized := [0x48, 0x01] } := by
  decide +kernel

theorem published_again_shuffled :
    ∃ d', ({ channel := [0x31], payload := [0x7D], unrecognized := [0x48, 0x01] } :
        Message).protoMarshal = some d' ∧ d'.length ≤ shuffled.length ∧
      protoUnmarshal d' = .ok { channel := [0x31], payload := [0x7D], unrecognized := [0x48, 0x01] } :=
  published_again (by decide) unmarshal_shuffled

/-- **Reading is a fold over concatenation.** -/
theorem unmarshal_append {a b : List UInt8} (hlen : (a ++ b).length < 2 ^ 63) {m m' m'' : Message}
    (ha : m.unmarshal a = .ok m') :
    m.unmarshal (a ++ b) = .ok m'' ↔ m'.unmarshal b = .ok m'' :=
  unmarshalFrom_append hlen ha

theorem unmarshal_append_shuffled :
    ({} : Message).unmarshal (shuffled ++ [0x0A, 0x01, 0x32])
        = .ok { channel := [0x32], payload := [0x7D], unrecognized := [0x48, 0x01] } ↔
      ({ channel := [0x31], payload := [0x7D], unrecognized := [0x48, 0x01] } :
        Message).unmarshal [0x0A, 0x01, 0x32]
        = .ok { channel := [0x32], payload := [0x7D], unrecognized := [0x48, 0x01] } :=
  unmarshal_append (by decide) unmarshal_shuffled

end Message

end Mainflux.Messaging
