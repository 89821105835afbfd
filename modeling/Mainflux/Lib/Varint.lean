/-
  Mainflux.Lib.Varint
  ───────────────────
  **VARINTS: seven bits a byte, lowest first, the top bit on all bytes but the last.**

  A reader takes bytes up to the first one below 128, at most ten of them, and keeps the
  value modulo 2^64; it takes longer forms of a number than the one a writer produces.
  A writer fills a buffer from its end, so it has to know the length of a form before it
  writes it: `sov`.

    • `readVarint_ok_iff` — what the reader accepts, and as which value;
    • `length_encode` — `sov` is the length of the shortest form;
    • `encodeVarint_eq` — the writer leaves the shortest form in front of what the buffer
      already holds, and panics exactly when there is no room for it.
-/
import Mathlib.Algebra.Ring.Nat
import Mathlib.Data.Nat.Size
import Mathlib.Data.List.Basic

namespace Mainflux.Lib.Wire

/-! ## §1. Forms of a number. -/

/-- What a reader of the wire format reports. -/
inductive Failure
  | intOverflow
  | unexpectedEOF
  | invalidLength
  | unexpectedEndOfGroup
  /-- Wire type 4 where a field should begin. -/
  | endGroup (message : String)
  | illegalTag (message : String) (fieldNum : Int) (wire : Nat)
  | wrongWireType (wireType : Nat) (field : String)
  | illegalWireType (wireType : Nat)
  deriving DecidableEq

/-- One whole varint. -/
def IsVarint : List UInt8 → Prop
  | [] => False
  | b :: bs => if b.toNat < 128 then bs = [] else IsVarint bs

/-- The number behind the bytes, however many. -/
def value : List UInt8 → Nat
  | [] => 0
  | b :: bs => b.toNat % 128 + 128 * value bs

/-- The shortest form. -/
def encode (v : Nat) : List UInt8 :=
  if v < 128 then [UInt8.ofNat v] else UInt8.ofNat (v % 128 + 128) :: encode (v / 128)

theorem encode_of_lt {v : Nat} (h : v < 128) : encode v = [UInt8.ofNat v] := by
  rw [encode, if_pos h]

theorem encode_of_ge {v : Nat} (h : 128 ≤ v) :
    encode v = UInt8.ofNat (v % 128 + 128) :: encode (v / 128) := by
  rw [encode, if_neg (Nat.not_lt.mpr h)]

theorem toNat_ofNat_of_lt {n : Nat} (h : n < 256) : (UInt8.ofNat n).toNat = n := by
  rw [UInt8.toNat_ofNat']
  exact Nat.mod_eq_of_lt h

theorem isVarint_encode (v : Nat) : IsVarint (encode v) := by
  induction v using Nat.strongRecOn with
  | ind v ih =>
      by_cases h : v < 128
      · rw [encode_of_lt h, IsVarint, toNat_ofNat_of_lt (by omega), if_pos h]
      · rw [encode_of_ge (by omega), IsVarint, toNat_ofNat_of_lt (by omega), if_neg (by omega)]
        exact ih (v / 128) (by omega)

theorem value_encode (v : Nat) : value (encode v) = v := by
  induction v using Nat.strongRecOn with
  | ind v ih =>
      by_cases h : v < 128
      · rw [encode_of_lt h, value, value, toNat_ofNat_of_lt (by omega)]
        omega
      · rw [encode_of_ge (by omega), value, toNat_ofNat_of_lt (by omega), ih _ (by omega)]
        omega

theorem encode_ne_nil (v : Nat) : encode v ≠ [] := by
  intro h
  have hv := isVarint_encode v
  rw [h] at hv
  exact hv

theorem IsVarint.ne_nil {p : List UInt8} (h : IsVarint p) : p ≠ [] := by
  rintro rfl
  exact h

/-- No varint is the beginning of another. -/
theorem IsVarint.eq_of_append {p q s t : List UInt8} (hp : IsVarint p) (hq : IsVarint q)
    (h : p ++ s = q ++ t) : p = q ∧ s = t := by
  induction p generalizing q with
  | nil => exact absurd hp id
  | cons b bs ih =>
      cases q with
      | nil => exact absurd hq id
      | cons c cs =>
          obtain ⟨rfl, htail⟩ := List.cons.inj h
          rw [IsVarint] at hp hq
          by_cases hb : b.toNat < 128
          · rw [if_pos hb] at hp hq
            rw [hp, hq] at htail ⊢
            exact ⟨rfl, htail⟩
          · rw [if_neg hb] at hp hq
            obtain ⟨rfl, hst⟩ := ih hp hq htail
            exact ⟨rfl, hst⟩

/-- **The shortest form is the shortest.** -/
theorem length_encode_le {p : List UInt8} (hp : IsVarint p) : (encode (value p)).length ≤ p.length := by
  induction p with
  | nil => exact absurd hp id
  | cons b bs ih =>
      rw [IsVarint] at hp
      by_cases hb : b.toNat < 128
      · rw [if_pos hb] at hp
        rw [hp, value, value, encode_of_lt (by omega)]
        exact Nat.le_refl _
      · rw [if_neg hb] at hp
        have hbs := ih hp
        rw [value]
        by_cases hv : b.toNat % 128 + 128 * value bs < 128
        · rw [encode_of_lt hv, List.length_cons, List.length_cons]
          exact Nat.succ_le_succ (Nat.zero_le _)
        · have hdiv : (b.toNat % 128 + 128 * value bs) / 128 = value bs := by omega
          rw [encode_of_ge (by omega), hdiv, List.length_cons, List.length_cons]
          exact Nat.succ_le_succ hbs

/-- As for a smaller number. -/
theorem length_encode_mono {v w : Nat} (h : v ≤ w) : (encode v).length ≤ (encode w).length := by
  induction w using Nat.strongRecOn generalizing v with
  | ind w ih =>
      by_cases hw : w < 128
      · rw [encode_of_lt hw, encode_of_lt (by omega)]
        exact Nat.le_refl _
      · rw [encode_of_ge (by omega : 128 ≤ w)]
        by_cases hv : v < 128
        · rw [encode_of_lt hv]
          exact Nat.succ_le_succ (Nat.zero_le _)
        · rw [encode_of_ge (by omega), List.length_cons, List.length_cons]
          exact Nat.succ_le_succ (ih (w / 128) (by omega) (by omega))

/-! ## §2. Reading. -/

/-- The loop that reads a varint from what is left of a buffer: `wire |= uint64(b&0x7F) << shift`
in 64 bits. -/
def readVarint : List UInt8 → Nat → Nat → Except Failure (Nat × List UInt8)
  | [], shift, _ => if 64 ≤ shift then .error .intOverflow else .error .unexpectedEOF
  | b :: rest, shift, wire =>
      if 64 ≤ shift then .error .intOverflow
      else if b.toNat < 0x80 then .ok (wire ||| ((b.toNat &&& 0x7F) <<< shift) % 2 ^ 64, rest)
      else readVarint rest (shift + 7) (wire ||| ((b.toNat &&& 0x7F) <<< shift) % 2 ^ 64)

theorem low_bits (b : UInt8) : b.toNat &&& 0x7F = b.toNat % 128 := Nat.and_two_pow_sub_one_eq_mod _ 7

/-- The bits of one more byte, below those of the bytes after it. -/
theorem or_value (wire shift : Nat) (b : UInt8) (bs : List UInt8) :
    wire ||| ((b.toNat &&& 0x7F) <<< shift) % 2 ^ 64 ||| (value bs <<< (shift + 7)) % 2 ^ 64
      = wire ||| (value (b :: bs) <<< shift) % 2 ^ 64 := by
  have hvalue : value (b :: bs) = value bs <<< 7 ||| (b.toNat &&& 0x7F) := by
    have hor := Nat.two_pow_add_eq_or_of_lt (i := 7) (Nat.mod_lt b.toNat (by decide)) (value bs)
    rw [low_bits, Nat.shiftLeft_eq, Nat.mul_comm, ← hor, value, Nat.add_comm]
  rw [hvalue, Nat.shiftLeft_or_distrib, ← Nat.shiftLeft_add, Nat.add_comm 7 shift,
    Nat.or_mod_two_pow, Nat.or_assoc, Nat.or_comm (_ % 2 ^ 64)]

theorem readVarint_loop {d rest : List UInt8} {shift wire v : Nat} :
    readVarint d shift wire = .ok (v, rest) ↔
      ∃ p, d = p ++ rest ∧ IsVarint p ∧ shift + 7 * (p.length - 1) < 64 ∧
        v = wire ||| (value p <<< shift) % 2 ^ 64 := by
  induction d generalizing shift wire with
  | nil =>
      constructor
      · intro h
        rw [readVarint] at h
        split at h <;> exact absurd h (by simp)
      · rintro ⟨p, hp, hv, -⟩
        exact absurd (List.append_eq_nil_iff.mp hp.symm).1 hv.ne_nil
  | cons b d ih =>
      rw [readVarint]
      by_cases hs : 64 ≤ shift
      · rw [if_pos hs]
        constructor
        · intro h
          exact absurd h (by simp)
        · rintro ⟨p, -, -, hlt, -⟩
          omega
      · rw [if_neg hs]
        by_cases hb : b.toNat < 0x80
        · -- the last byte
          rw [if_pos hb]
          constructor
          · intro h
            obtain ⟨rfl, rfl⟩ := Prod.mk.inj (Except.ok.inj h)
            refine ⟨[b], rfl, ?_, by simpa using hs, ?_⟩
            · rw [IsVarint, if_pos hb]
            · rw [value, value, low_bits, Nat.mul_zero, Nat.add_zero]
          · rintro ⟨p, hp, hv, -, rfl⟩
            cases p with
            | nil => exact absurd hv id
            | cons c p =>
                obtain ⟨rfl, rfl⟩ := List.cons.inj hp
                rw [IsVarint, if_pos hb] at hv
                rw [hv, value, value, low_bits, Nat.mul_zero, Nat.add_zero]
                rfl
        · rw [if_neg hb, ih]
          constructor
          · rintro ⟨p, rfl, hv, hlt, rfl⟩
            refine ⟨b :: p, rfl, ?_, ?_, or_value wire shift b p⟩
            · rw [IsVarint, if_neg hb]
              exact hv
            · have := List.length_pos_of_ne_nil hv.ne_nil
              rw [List.length_cons]
              omega
          · rintro ⟨p, hp, hv, hlt, rfl⟩
            cases p with
            | nil => exact absurd hv id
            | cons c p =>
                obtain ⟨rfl, rfl⟩ := List.cons.inj hp
                rw [IsVarint, if_neg hb] at hv
                refine ⟨p, rfl, hv, ?_, (or_value wire shift b p).symm⟩
                have := List.length_pos_of_ne_nil hv.ne_nil
                rw [List.length_cons] at hlt
                omega

/-- **What the reader accepts**: a varint of at most ten bytes, as its number modulo 2^64. -/
theorem readVarint_ok_iff {d rest : List UInt8} {v : Nat} :
    readVarint d 0 0 = .ok (v, rest) ↔
      ∃ p, d = p ++ rest ∧ IsVarint p ∧ p.length ≤ 10 ∧ v = value p % 2 ^ 64 := by
  rw [readVarint_loop]
  simp only [Nat.zero_or, Nat.shiftLeft_zero, Nat.zero_add]
  constructor
  · rintro ⟨p, hp, hv, hlt, rfl⟩
    exact ⟨p, hp, hv, by omega, rfl⟩
  · rintro ⟨p, hp, hv, hlt, rfl⟩
    exact ⟨p, hp, hv, by omega, rfl⟩

/-! ## §3. The length of a form. -/

/-- `(math_bits.Len64(x|1) + 6) / 7`. -/
def sov (x : Nat) : Nat := (Nat.size (x ||| 1) + 6) / 7

/-- The bit that `x|1` sets makes a positive number no longer. -/
theorem size_or_one {x : Nat} (h : 0 < x) : Nat.size (x ||| 1) = Nat.size x := by
  apply Nat.le_antisymm
  · have hpos : 0 < Nat.size x := Nat.size_pos.mpr h
    have hone : 1 < 2 ^ Nat.size x := Nat.one_lt_two_pow (by omega)
    exact Nat.size_le.mpr (Nat.or_lt_two_pow (Nat.lt_size_self x) hone)
  · exact Nat.size_le_size Nat.left_le_or

theorem size_div_128 {x : Nat} (h : 128 ≤ x) : Nat.size x = Nat.size (x / 128) + 7 := by
  have hpos : 0 < Nat.size (x / 128) := Nat.size_pos.mpr (by omega)
  apply Nat.le_antisymm
  · rw [Nat.size_le, Nat.pow_add]
    have := Nat.lt_size_self (x / 128)
    omega
  · have hpow : 2 ^ (Nat.size (x / 128) - 1) ≤ x / 128 := Nat.lt_size.mp (by omega)
    have hmul : 2 ^ (Nat.size (x / 128) + 6) ≤ x := by
      rw [show Nat.size (x / 128) + 6 = (Nat.size (x / 128) - 1) + 7 by omega, Nat.pow_add]
      omega
    exact Nat.lt_size.mpr hmul

/-- **`sov` is the length of the shortest form.** -/
theorem length_encode (v : Nat) : (encode v).length = sov v := by
  induction v using Nat.strongRecOn with
  | ind v ih =>
      rw [sov]
      by_cases h : v < 128
      · have hle : Nat.size (v ||| 1) ≤ 7 := Nat.size_le.mpr (Nat.or_lt_two_pow h (by decide))
        have hpos : 0 < Nat.size (v ||| 1) := Nat.size_pos.mpr Nat.right_le_or
        rw [encode_of_lt h, List.length_singleton]
        omega
      · have hrest : (encode (v / 128)).length = (Nat.size (v / 128) + 6) / 7 := by
          rw [ih (v / 128) (by omega), sov, size_or_one (by omega)]
        have hsize : Nat.size (v ||| 1) = Nat.size (v / 128) + 7 :=
          (size_or_one (by omega)).trans (size_div_128 (by omega))
        rw [encode_of_ge (by omega), List.length_cons, hrest, hsize]
        omega

theorem sov_le_ten {v : Nat} (h : v < 2 ^ 64) : sov v ≤ 10 := by
  have hsize : Nat.size (v ||| 1) ≤ 64 := Nat.size_le.mpr (Nat.or_lt_two_pow h (by decide))
  rw [sov]
  omega

/-- A number is read back from its shortest form, whatever follows. -/
theorem readVarint_encode {v : Nat} (h : v < 2 ^ 64) (rest : List UInt8) :
    readVarint (encode v ++ rest) 0 0 = .ok (v, rest) := by
  refine readVarint_ok_iff.mpr ⟨encode v, rfl, isVarint_encode v, ?_, ?_⟩
  · rw [length_encode]
    exact sov_le_ten h
  · rw [value_encode, Nat.mod_eq_of_lt h]

/-! ## §4. Writing into a buffer from its end. -/

/-- `copy(dAtA[i:], v)`. -/
def overwrite (dAtA : List UInt8) (i : Nat) (v : List UInt8) : List UInt8 :=
  dAtA.take i ++ v.take (dAtA.length - i) ++ dAtA.drop (i + v.length)

/-- `dAtA[i] = b`, which panics outside. -/
def setByte (dAtA : List UInt8) (i : Nat) (b : UInt8) : Option (List UInt8) :=
  if i < dAtA.length then some (dAtA.set i b) else none

/-- The loop of `encodeVarint`, and the assignment after it. -/
def putVarint (dAtA : List UInt8) (offset v : Nat) : Option (List UInt8) :=
  if 1 <<< 7 ≤ v then
    (setByte dAtA offset (UInt8.ofNat (v &&& 0x7f ||| 0x80))).bind fun dAtA =>
      putVarint dAtA (offset + 1) (v >>> 7)
  else setByte dAtA offset (UInt8.ofNat v)
termination_by v
decreasing_by
  rw [Nat.shiftRight_eq_div_pow]
  exact Nat.div_lt_self (Nat.lt_of_lt_of_le (by decide) ‹1 <<< 7 ≤ v›) (by decide)

/-- `encodeVarint`: the buffer and where the form begins.  An offset below zero panics at the
first assignment. -/
def encodeVarint (dAtA : List UInt8) (offset v : Nat) : Option (List UInt8 × Nat) :=
  if offset < sov v then none
  else (putVarint dAtA (offset - sov v) v).map fun dAtA => (dAtA, offset - sov v)

theorem setByte_append (a : List UInt8) (c b : UInt8) (t : List UInt8) :
    setByte (a ++ c :: t) a.length b = some (a ++ b :: t) := by
  rw [setByte, if_pos (by simp), List.set_append_right _ _ (Nat.le_refl _), Nat.sub_self]
  rfl

theorem group_byte (v : Nat) : v &&& 0x7f ||| 0x80 = v % 128 + 128 := by
  have hor := Nat.two_pow_add_eq_or_of_lt (i := 7) (Nat.mod_lt v (by decide)) 1
  calc v &&& 0x7f ||| 0x80 = 2 ^ 7 * 1 ||| v % 2 ^ 7 := by
        rw [Nat.or_comm]
        exact congrArg _ (Nat.and_two_pow_sub_one_eq_mod v 7)
    _ = v % 128 + 128 := by
        rw [← hor]
        omega

/-- **The writer leaves the shortest form** where there is room for it. -/
theorem putVarint_eq (a junk t : List UInt8) (v : Nat) (h : junk.length = sov v) :
    putVarint (a ++ junk ++ t) a.length v = some (a ++ encode v ++ t) := by
  induction v using Nat.strongRecOn generalizing a junk with
  | ind v ih =>
      rw [← length_encode] at h
      obtain ⟨c, junk, rfl⟩ := List.exists_cons_of_ne_nil (fun hnil : junk = [] =>
        encode_ne_nil v (List.length_eq_zero_iff.mp (by rw [← h, hnil]; rfl)))
      rw [putVarint, List.append_assoc, List.cons_append]
      by_cases hv : 1 <<< 7 ≤ v
      · have hv' : 128 ≤ v := hv
        rw [encode_of_ge hv', List.length_cons, List.length_cons, length_encode] at h
        rw [if_pos hv, setByte_append, Option.bind_some, group_byte, Nat.shiftRight_eq_div_pow,
          encode_of_ge hv']
        -- the rest of the form goes behind the byte just written
        have hrest := ih (v / 2 ^ 7) (by omega) (a ++ [UInt8.ofNat (v % 128 + 128)]) junk
          (Nat.succ.inj h)
        simpa using hrest
      · have hv' : v < 128 := Nat.lt_of_not_le hv
        rw [encode_of_lt hv'] at h ⊢
        rw [if_neg hv, setByte_append, List.length_eq_zero_iff.mp (Nat.succ.inj h)]
        simp

/-- **In front of what the buffer holds**, or a panic. -/
theorem encodeVarint_eq (a t : List UInt8) (v : Nat) :
    encodeVarint (a ++ t) a.length v
      = if a.length < sov v then none
        else some (a.take (a.length - sov v) ++ (encode v ++ t), a.length - sov v) := by
  rw [encodeVarint]
  by_cases h : a.length < sov v
  · rw [if_pos h, if_pos h]
  · rw [if_neg h, if_neg h]
    have hput := putVarint_eq (a.take (a.length - sov v)) (a.drop (a.length - sov v)) t v
      (by rw [List.length_drop]; omega)
    rw [List.take_append_drop, List.length_take, Nat.min_eq_left (Nat.sub_le _ _)] at hput
    rw [hput, Option.map_some, List.append_assoc]

/-- `copy(dAtA[i:], v)` in front of what the buffer holds. -/
theorem overwrite_eq (a t v : List UInt8) (h : v.length ≤ a.length) :
    overwrite (a ++ t) (a.length - v.length) v = a.take (a.length - v.length) ++ (v ++ t) := by
  have hend : a.length - v.length + v.length = a.length := by omega
  have hroom : v.length ≤ (a ++ t).length - (a.length - v.length) := by
    rw [List.length_append]
    omega
  rw [overwrite, hend, List.take_append_of_le_length (Nat.sub_le _ _), List.drop_left,
    List.append_assoc, List.take_of_length_le hroom]

end Mainflux.Lib.Wire
