/-
  Mainflux.Grpc.Wire
  ──────────────────
  **THE MESSAGES OF THE TWO GRPC SERVICES: what the generated code writes and reads.**

  Three kinds of message: one string (`ThingID`, `Token`, `UserID`), a string and a
  channel id (`AccessByKeyReq`, `AccessByIDReq`), a string and a number (`IssueReq`).
  The generator writes the same code for each field of a kind, so a kind is one definition
  with the names as parameters.
-/
import Mainflux.Lib.Wire

namespace Mainflux.Grpc

open Mainflux.Lib.Wire

/-! ## §1. One string. -/

structure Value where
  value : List UInt8 := []
  unrecognized : List UInt8 := []
  deriving DecidableEq

namespace Value

def assign (m : Value) (fieldNum : Nat) (v : List UInt8) : Value :=
  match fieldNum with
  | 1 => { m with value := v }
  | _ => m

def apply (m : Value) : Record → Value
  | .bytes fieldNum v => m.assign fieldNum v
  | .varint _ _ => m
  | .unknown p => { m with unrecognized := m.unrecognized ++ p }

def known (m : Value) : List Part := [.bytes 0xa m.value]

theorem known_rebuild (m : Value) :
    ((known m).flatMap Part.records).foldl apply {} = { m with unrecognized := [] } := by
  simp only [known, List.flatMap_cons, List.flatMap_nil, List.append_nil]
  exact foldl_bytes apply 0xa m.value {} { value := m.value } rfl (fun h => by rw [h])

theorem unrecognized_assign (m : Value) (n : Nat) (v : List UInt8) :
    (m.assign n v).unrecognized = m.unrecognized := by
  unfold assign
  split <;> rfl

theorem size_assign (m : Value) (n : Nat) (v : List UInt8) :
    totalSize (known (m.assign n v)) ≤ totalSize (known m) + (1 + v.length + sov v.length) := by
  unfold assign
  split <;> simp only [totalSize, known, List.map_cons, List.map_nil, List.sum_cons, List.sum_nil]
  case h_1 => have := Part.size_bytes_le 0xa v; omega
  case h_2 => exact Nat.le_add_right _ _

/-- The generated code of a message with the one field `Value`. -/
def generated (message : String) : Generated Value where
  schema :=
    { message := message
      field := fun
        | 1 => some (.bytes "Value")
        | _ => none }
  zero := {}
  apply := apply
  known := known
  unrecognized := unrecognized
  fits m part hpart := by
    rw [List.mem_singleton.mp hpart]
    exact ⟨by decide, by decide, by decide, _, rfl⟩
  rebuild m := by rw [known_rebuild]; rfl
  apply_nil m := by rw [apply, List.append_nil]
  apply_append m p q := by rw [apply, apply, apply, List.append_assoc]
  unrecognized_zero := rfl
  unrecognized_apply m r := by
    cases r with
    | bytes n v => exact (unrecognized_assign m n v).trans (List.append_nil _).symm
    | varint n v => exact (List.append_nil _).symm
    | unknown p => rfl
  size_zero := rfl
  size_apply m r := by
    cases r with
    | bytes n v => exact size_assign m n v
    | varint n v => exact Nat.le_add_right _ _
    | unknown p => exact Nat.le_refl _

end Value

abbrev ThingID.generated : Generated Value := Value.generated "ThingID"

abbrev Token.generated : Generated Value := Value.generated "Token"

abbrev UserID.generated : Generated Value := Value.generated "UserID"

/-! ## §2. A string and a channel id. -/

structure Access where
  /-- `Token` or `ThingID`. -/
  subject : List UInt8 := []
  chanID : List UInt8 := []
  unrecognized : List UInt8 := []
  deriving DecidableEq

namespace Access

def assign (m : Access) (fieldNum : Nat) (v : List UInt8) : Access :=
  match fieldNum with
  | 1 => { m with subject := v }
  | 2 => { m with chanID := v }
  | _ => m

def apply (m : Access) : Record → Access
  | .bytes fieldNum v => m.assign fieldNum v
  | .varint _ _ => m
  | .unknown p => { m with unrecognized := m.unrecognized ++ p }

def known (m : Access) : List Part := [.bytes 0xa m.subject, .bytes 0x12 m.chanID]

theorem known_rebuild (m : Access) :
    ((known m).flatMap Part.records).foldl apply {} = { m with unrecognized := [] } := by
  obtain ⟨s, c, u⟩ := m
  simp only [known, List.flatMap_cons, List.flatMap_nil, List.append_nil, List.foldl_append]
  rw [foldl_bytes apply 0xa s _ ⟨s, [], []⟩ rfl (fun h => by rw [h]),
    foldl_bytes apply 0x12 c _ ⟨s, c, []⟩ rfl (fun h => by rw [h])]

theorem unrecognized_assign (m : Access) (n : Nat) (v : List UInt8) :
    (m.assign n v).unrecognized = m.unrecognized := by
  unfold assign
  split <;> rfl

theorem size_assign (m : Access) (n : Nat) (v : List UInt8) :
    totalSize (known (m.assign n v)) ≤ totalSize (known m) + (1 + v.length + sov v.length) := by
  unfold assign
  split <;> simp only [totalSize, known, List.map_cons, List.map_nil, List.sum_cons, List.sum_nil]
  case h_1 => have := Part.size_bytes_le 0xa v; omega
  case h_2 => have := Part.size_bytes_le 0x12 v; omega
  case h_3 => exact Nat.le_add_right _ _

/-- The generated code of a message with the fields `field` and `ChanID`. -/
def generated (message field : String) : Generated Access where
  schema :=
    { message := message
      field := fun
        | 1 => some (.bytes field)
        | 2 => some (.bytes "ChanID")
        | _ => none }
  zero := {}
  apply := apply
  known := known
  unrecognized := unrecognized
  fits m part hpart := by
    simp only [known, List.mem_cons, List.not_mem_nil, or_false] at hpart
    rcases hpart with rfl | rfl <;> exact ⟨by decide, by decide, by decide, _, rfl⟩
  rebuild m := by rw [known_rebuild]; rfl
  apply_nil m := by rw [apply, List.append_nil]
  apply_append m p q := by rw [apply, apply, apply, List.append_assoc]
  unrecognized_zero := rfl
  unrecognized_apply m r := by
    cases r with
    | bytes n v => exact (unrecognized_assign m n v).trans (List.append_nil _).symm
    | varint n v => exact (List.append_nil _).symm
    | unknown p => rfl
  size_zero := rfl
  size_apply m r := by
    cases r with
    | bytes n v => exact size_assign m n v
    | varint n v => exact Nat.le_add_right _ _
    | unknown p => exact Nat.le_refl _

end Access

abbrev AccessByKeyReq.generated : Generated Access := Access.generated "AccessByKeyReq" "Token"

abbrev AccessByIDReq.generated : Generated Access := Access.generated "AccessByIDReq" "ThingID"

/-! ## §3. An issuer and a type of key. -/

structure IssueReq where
  issuer : List UInt8 := []
  type : UInt32 := 0
  unrecognized : List UInt8 := []
  deriving DecidableEq

namespace IssueReq

def schema : Schema where
  message := "IssueReq"
  field
    | 1 => some (.bytes "Issuer")
    | 2 => some (.varint "Type")
    | _ => none

def assign (m : IssueReq) (fieldNum : Nat) (v : List UInt8) : IssueReq :=
  match fieldNum with
  | 1 => { m with issuer := v }
  | _ => m

/-- `m.Type |= uint32(b&0x7F) << shift`: the low bits of the number. -/
def assignNumber (m : IssueReq) (fieldNum v : Nat) : IssueReq :=
  match fieldNum with
  | 2 => { m with type := UInt32.ofNat v }
  | _ => m

def apply (m : IssueReq) : Record → IssueReq
  | .bytes fieldNum v => m.assign fieldNum v
  | .varint fieldNum v => m.assignNumber fieldNum v
  | .unknown p => { m with unrecognized := m.unrecognized ++ p }

def known (m : IssueReq) : List Part := [.bytes 0xa m.issuer, .varint 0x10 m.type.toNat]

theorem known_rebuild (m : IssueReq) :
    ((known m).flatMap Part.records).foldl apply {} = { m with unrecognized := [] } := by
  obtain ⟨i, t, u⟩ := m
  have htype : apply ⟨i, 0, []⟩ (.varint (fieldNum (0x10 : UInt8).toNat).toNat t.toNat)
      = ⟨i, t, []⟩ := by
    show (⟨i, UInt32.ofNat t.toNat, []⟩ : IssueReq) = ⟨i, t, []⟩
    rw [UInt32.ofNat_toNat]
  simp only [known, List.flatMap_cons, List.flatMap_nil, List.append_nil, List.foldl_append]
  rw [foldl_bytes apply 0xa i _ ⟨i, 0, []⟩ rfl (fun h => by rw [h])]
  refine foldl_varint apply 0x10 t.toNat _ _ htype fun h => ?_
  rw [show t = 0 from UInt32.toNat_inj.mp h]

theorem unrecognized_assign (m : IssueReq) (n : Nat) (v : List UInt8) :
    (m.assign n v).unrecognized = m.unrecognized := by
  unfold assign
  split <;> rfl

theorem unrecognized_assignNumber (m : IssueReq) (n v : Nat) :
    (m.assignNumber n v).unrecognized = m.unrecognized := by
  unfold assignNumber
  split <;> rfl

theorem size_assign (m : IssueReq) (n : Nat) (v : List UInt8) :
    totalSize (known (m.assign n v)) ≤ totalSize (known m) + (1 + v.length + sov v.length) := by
  unfold assign
  split <;> simp only [totalSize, known, List.map_cons, List.map_nil, List.sum_cons, List.sum_nil]
  case h_1 => have := Part.size_bytes_le 0xa v; omega
  case h_2 => exact Nat.le_add_right _ _

theorem size_assignNumber (m : IssueReq) (n v : Nat) :
    totalSize (known (m.assignNumber n v)) ≤ totalSize (known m) + (1 + sov v) := by
  unfold assignNumber
  split <;> simp only [totalSize, known, List.map_cons, List.map_nil, List.sum_cons, List.sum_nil]
  case h_1 =>
    have hsize := Part.size_varint_le 0x10 (UInt32.ofNat v).toNat
    -- the number may have lost its high bits
    have hlow : (UInt32.ofNat v).toNat ≤ v := by
      rw [UInt32.toNat_ofNat']
      exact Nat.mod_le _ _
    have hsov : sov (UInt32.ofNat v).toNat ≤ sov v := by
      rw [← length_encode, ← length_encode]
      exact length_encode_mono hlow
    omega
  case h_2 => exact Nat.le_add_right _ _

def generated : Generated IssueReq where
  schema := schema
  zero := {}
  apply := apply
  known := known
  unrecognized := unrecognized
  fits m part hpart := by
    simp only [known, List.mem_cons, List.not_mem_nil, or_false] at hpart
    rcases hpart with rfl | rfl
    · exact ⟨by decide, by decide, by decide, _, rfl⟩
    · exact ⟨by decide, by decide, by decide,
        Nat.lt_trans m.type.toNat_lt (by decide), _, rfl⟩
  rebuild m := by rw [known_rebuild]; rfl
  apply_nil m := by rw [apply, List.append_nil]
  apply_append m p q := by rw [apply, apply, apply, List.append_assoc]
  unrecognized_zero := rfl
  unrecognized_apply m r := by
    cases r with
    | bytes n v => exact (unrecognized_assign m n v).trans (List.append_nil _).symm
    | varint n v => exact (unrecognized_assignNumber m n v).trans (List.append_nil _).symm
    | unknown p => rfl
  size_zero := rfl
  size_apply m r := by
    cases r with
    | bytes n v => exact size_assign m n v
    | varint n v => exact size_assignNumber m n v
    | unknown p => exact Nat.le_refl _

end IssueReq

/-! ## §4. No field at all. -/

/-- `empty.Empty`. -/
structure EmptyMessage where
  unrecognized : List UInt8 := []
  deriving DecidableEq

namespace EmptyMessage

def apply (m : EmptyMessage) : Record → EmptyMessage
  | .unknown p => { m with unrecognized := m.unrecognized ++ p }
  | _ => m

def generated : Generated EmptyMessage where
  schema := { message := "Empty", field := fun _ => none }
  zero := {}
  apply := apply
  known _ := []
  unrecognized := unrecognized
  fits _ _ hpart := absurd hpart List.not_mem_nil
  rebuild _ := rfl
  apply_nil m := by rw [apply, List.append_nil]
  apply_append m p q := by rw [apply, apply, apply, List.append_assoc]
  unrecognized_zero := rfl
  unrecognized_apply m r := by
    cases r with
    | bytes n v => exact (List.append_nil _).symm
    | varint n v => exact (List.append_nil _).symm
    | unknown p => rfl
  size_zero := rfl
  size_apply m r := by
    cases r with
    | bytes n v => exact Nat.zero_le _
    | varint n v => exact Nat.zero_le _
    | unknown p => exact Nat.le_refl _

end EmptyMessage

/-! ## §5. Texts on the wire. -/

/-- The bytes of a text. -/
def utf8 (s : String) : List UInt8 := s.toByteArray.data.toList

/-- The text of bytes. -/
def text (b : List UInt8) : String := (String.fromUTF8? ⟨b.toArray⟩).getD ""

/-- Short enough to stand in a message of two. -/
def Sendable (b : List UInt8) : Prop := b.length < 2 ^ 61

theorem text_utf8 (s : String) : text (utf8 s) = s := by
  have hbytes : (⟨(utf8 s).toArray⟩ : ByteArray) = s.toByteArray := by rw [utf8, Array.toArray_toList]
  rw [text, hbytes, String.fromUTF8?, dif_pos s.isValidUTF8]
  rfl

theorem utf8_eq_nil {s : String} : utf8 s = [] ↔ s = "" := by
  constructor
  · intro h
    rw [← text_utf8 s, h]
    rfl
  · rintro rfl
    rfl

theorem size_bytes_lt (tag : UInt8) {v : List UInt8} (h : Sendable v) :
    (Part.bytes tag v).size < 2 ^ 61 + 16 := by
  have hlen : v.length < 2 ^ 61 := h
  have hsize := Part.size_bytes_le tag v
  have hsov := sov_le_ten (show v.length < 2 ^ 64 by omega)
  omega

theorem Value.size_lt (message : String) {v : List UInt8} (h : Sendable v) :
    (Value.generated message).size { value := v } < 2 ^ 63 := by
  have hsize := size_bytes_lt 0xa h
  show (Part.bytes 0xa v).size + 0 < 2 ^ 63
  omega

theorem Access.size_lt (message field : String) {v c : List UInt8} (hv : Sendable v) (hc : Sendable c) :
    (Access.generated message field).size { subject := v, chanID := c } < 2 ^ 63 := by
  have hv := size_bytes_lt 0xa hv
  have hc := size_bytes_lt 0x12 hc
  show (Part.bytes 0xa v).size + ((Part.bytes 0x12 c).size + 0) < 2 ^ 63
  omega

theorem IssueReq.size_lt {v : List UInt8} (t : UInt32) (h : Sendable v) :
    IssueReq.generated.size { issuer := v, type := t } < 2 ^ 63 := by
  have hv := size_bytes_lt 0xa h
  have ht := Part.size_varint_le 0x10 t.toNat
  have hsov := sov_le_ten (Nat.lt_trans t.toNat_lt (by decide))
  show (Part.bytes 0xa v).size + ((Part.varint 0x10 t.toNat).size + 0) < 2 ^ 63
  omega

/-- One string is read as it was written, under whatever names of messages. -/
theorem Value.read (message message' : String) {v : List UInt8} (h : Sendable v) :
    (Value.generated message').protoUnmarshal ((Value.generated message).encoding { value := v })
      = .ok { value := v } :=
  Generated.unmarshal_encoding (Generated.sound_of_nil rfl) (Value.size_lt message' h)

theorem EmptyMessage.read :
    EmptyMessage.generated.protoUnmarshal (EmptyMessage.generated.encoding {}) = .ok {} :=
  Generated.unmarshal_encoding (Generated.sound_of_nil rfl) (by decide)

end Mainflux.Grpc
