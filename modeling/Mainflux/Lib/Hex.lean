/-
  Mainflux.Lib.Hex
  ────────────────
  **BYTES AS HEXADECIMAL DIGITS.**

  `encode` writes each byte as two lower-case digits; `decode` reads digits of either
  case, and fails on anything else and on half a byte.

    • `decode_encode` — reading what was written gives the bytes back;
    • `decode_eq_none` — what cannot be read: an odd number of digits, or something that
      is no digit;
    • `length_of_decode` — two digits make a byte.
-/
import Mathlib.Data.List.Basic

namespace Mainflux.Lib.Hex

/-- The digit of a number below sixteen. -/
def digit (n : UInt8) : UInt8 :=
  -- '0' is 48; 'a' is 97, for the number ten
  if n < 10 then n + 48 else n + 87

/-- The value of a digit. -/
def value (c : UInt8) : Option UInt8 :=
  if 48 ≤ c ∧ c ≤ 57 then some (c - 48)
  else if 97 ≤ c ∧ c ≤ 102 then some (c - 87)
  else if 65 ≤ c ∧ c ≤ 70 then some (c - 55)
  else none

def encode (bytes : List UInt8) : List UInt8 :=
  bytes.flatMap fun b : UInt8 => [digit (b >>> 4), digit (b &&& 15)]

def decode : List UInt8 → Option (List UInt8)
  | [] => some []
  | [_] => none
  | hi :: lo :: rest =>
      match value hi, value lo, decode rest with
      | some hi, some lo, some bytes => some ((hi <<< 4 ||| lo) :: bytes)
      | _, _, _ => none

/-- Whole bytes, and digits only. -/
def IsHex (s : List UInt8) : Prop := 2 ∣ s.length ∧ ∀ c ∈ s, (value c).isSome

/-- A byte is read back from its two digits. -/
theorem byte_back (b : UInt8) :
    value (digit (b >>> 4)) = some (b >>> 4) ∧ value (digit (b &&& 15)) = some (b &&& 15) ∧
      (b >>> 4) <<< 4 ||| (b &&& 15) = b := by
  -- all bytes are tried
  have hall : ∀ n < 256, value (digit (UInt8.ofNat n >>> 4)) = some (UInt8.ofNat n >>> 4) ∧
      value (digit (UInt8.ofNat n &&& 15)) = some (UInt8.ofNat n &&& 15) ∧
      (UInt8.ofNat n >>> 4) <<< 4 ||| (UInt8.ofNat n &&& 15) = UInt8.ofNat n := by
    decide +kernel
  have hb := hall b.toNat b.toNat_lt
  rwa [UInt8.ofNat_toNat] at hb

@[simp] theorem decode_encode (bytes : List UInt8) : decode (encode bytes) = some bytes := by
  induction bytes with
  | nil => rfl
  | cons b bytes ih =>
      obtain ⟨hhi, hlo, hback⟩ := byte_back b
      show decode (digit (b >>> 4) :: digit (b &&& 15) :: encode bytes) = _
      simp only [decode, hhi, hlo, ih, hback]

theorem length_of_decode {s bytes : List UInt8} (h : decode s = some bytes) :
    s.length = 2 * bytes.length := by
  fun_induction decode s generalizing bytes with
  | case1 =>
      cases h
      rfl
  | case2 => cases h
  | case3 hi lo rest h' l' tail htail hlo hhi ih =>
      cases h
      rw [List.length_cons, List.length_cons, ih htail, List.length_cons]
      omega
  | case4 => cases h

/-- **What cannot be read.** -/
theorem decode_eq_none {s : List UInt8} : decode s = none ↔ ¬ IsHex s := by
  fun_induction decode s with
  | case1 => simp [IsHex]
  | case2 c => simp [IsHex]
  | case3 hi lo rest h' l' tail htail hlo hhi ih =>
      have hrest : IsHex rest := not_not.mp (mt ih.mpr (by simp [htail]))
      refine iff_of_false (by simp) (not_not_intro ⟨?_, ?_⟩)
      · rw [List.length_cons, List.length_cons]
        obtain ⟨k, hk⟩ := hrest.1
        exact ⟨k + 1, by omega⟩
      · simp only [List.forall_mem_cons, hhi, hlo, Option.isSome_some, true_and]
        exact hrest.2
  | case4 hi lo rest hcases ih =>
      -- if these were digits and the rest could be read, so could the whole
      refine iff_of_true rfl fun h => ?_
      obtain ⟨⟨k, hk⟩, hdigits⟩ := h
      simp only [List.forall_mem_cons] at hdigits
      obtain ⟨h', hhi⟩ := Option.isSome_iff_exists.mp hdigits.1
      obtain ⟨l', hlo⟩ := Option.isSome_iff_exists.mp hdigits.2.1
      have hrest : IsHex rest := by
        refine ⟨⟨k - 1, ?_⟩, hdigits.2.2⟩
        simp only [List.length_cons] at hk
        omega
      cases htail : decode rest with
      | none => exact ih.mp htail hrest
      | some tail => exact hcases h' l' tail hhi hlo htail

end Mainflux.Lib.Hex
