/-
  Mainflux.Lib.Base64
  ───────────────────
  **UNPADDED BASE64URL.**

  `encode` writes three bytes as four characters of the URL alphabet and
  drops the trailing `=` signs; `decode` puts them back and reads the text
  as a lenient reader does: line breaks are skipped and the unused low bits
  of a last, incomplete group are ignored.

    • `decode_encode` — reading what was written gives the bytes back;
    • `readable_of_decode` — a text that can be read has only characters of
      the alphabet, `=` and line breaks (`Readable`);
    • `isSome_of_mem_encode`, `length_le_encode` — a written text is made of
      the alphabet alone and is never shorter than the bytes.
-/
import Mathlib.Data.List.Basic

namespace Mainflux.Lib.Base64

/-! ## §1. The alphabet. -/

/-- The sixty-four characters, in order. -/
def alphabet : List Char :=
  "ABCDEFGHIJKLMNOPQRSTUVWXYZabcdefghijklmnopqrstuvwxyz0123456789-_".toList

/-- The character of a sextet. -/
def charOf (n : Nat) : Char := alphabet.getD n 'A'

/-- The sextet of a character. -/
def valueOf (c : Char) : Option Nat :=
  if 'A' ≤ c ∧ c ≤ 'Z' then some (c.toNat - 65)
  else if 'a' ≤ c ∧ c ≤ 'z' then some (c.toNat - 71)
  else if '0' ≤ c ∧ c ≤ '9' then some (c.toNat + 4)
  else if c = '-' then some 62
  else if c = '_' then some 63
  else none

theorem valueOf_charOf : ∀ n < 64, valueOf (charOf n) = some n := by decide +kernel

/-- What may stand in a text that `decode` reads. -/
def Readable (c : Char) : Prop := (valueOf c).isSome ∨ c = '=' ∨ c = '\r' ∨ c = '\n'

instance (c : Char) : Decidable (Readable c) :=
  inferInstanceAs (Decidable ((valueOf c).isSome ∨ c = '=' ∨ c = '\r' ∨ c = '\n'))

/-! ## §2. Writing and reading. -/

/-- The text of a byte sequence, without padding. -/
def encode : List UInt8 → List Char
  | [] => []
  | [a] => [charOf (a.toNat / 4), charOf (a.toNat % 4 * 16)]
  | [a, b] =>
      [charOf (a.toNat / 4), charOf (a.toNat % 4 * 16 + b.toNat / 16), charOf (b.toNat % 16 * 4)]
  | a :: b :: c :: rest =>
      charOf (a.toNat / 4) :: charOf (a.toNat % 4 * 16 + b.toNat / 16) ::
        charOf (b.toNat % 16 * 4 + c.toNat / 64) :: charOf (c.toNat % 64) :: encode rest

/-- Groups of four characters; only the last may be padded. -/
def readGroups : List Char → Option (List UInt8)
  | [] => some []
  | [a, b, '=', '='] =>
      match valueOf a, valueOf b with
      | some a, some b => some [UInt8.ofNat (a * 4 + b / 16)]
      | _, _ => none
  | [a, b, c, '='] =>
      match valueOf a, valueOf b, valueOf c with
      | some a, some b, some c =>
          some [UInt8.ofNat (a * 4 + b / 16), UInt8.ofNat (b % 16 * 16 + c / 4)]
      | _, _, _ => none
  | a :: b :: c :: d :: rest =>
      match valueOf a, valueOf b, valueOf c, valueOf d, readGroups rest with
      | some a, some b, some c, some d, some bytes =>
          some (UInt8.ofNat (a * 4 + b / 16) :: UInt8.ofNat (b % 16 * 16 + c / 4) ::
            UInt8.ofNat (c % 4 * 64 + d) :: bytes)
      | _, _, _, _, _ => none
  | _ => none

/-- Complete the text with `=` to a multiple of four. -/
def pad (cs : List Char) : List Char :=
  if cs.length % 4 = 0 then cs else cs ++ List.replicate (4 - cs.length % 4) '='

/-- The bytes of an unpadded text; line breaks are skipped. -/
def decode (cs : List Char) : Option (List UInt8) :=
  readGroups ((pad cs).filter fun c => c ≠ '\r' ∧ c ≠ '\n')

/-! ## §3. Reading back. -/

/-- One full group of three bytes. -/
theorem group_back (a b c : UInt8) :
    UInt8.ofNat (a.toNat / 4 * 4 + (a.toNat % 4 * 16 + b.toNat / 16) / 16) = a ∧
    UInt8.ofNat ((a.toNat % 4 * 16 + b.toNat / 16) % 16 * 16 +
      (b.toNat % 16 * 4 + c.toNat / 64) / 4) = b ∧
    UInt8.ofNat ((b.toNat % 16 * 4 + c.toNat / 64) % 4 * 64 + c.toNat % 64) = c := by
  have ha := a.toNat_lt
  have hb := b.toNat_lt
  have hc := c.toNat_lt
  refine ⟨?_, ?_, ?_⟩ <;> apply UInt8.toNat_inj.mp <;> rw [UInt8.toNat_ofNat'] <;> omega

/-- Characters that stand for a sextet are no line breaks and no padding. -/
theorem ne_of_isSome {c : Char} (h : (valueOf c).isSome) : c ≠ '\r' ∧ c ≠ '\n' ∧ c ≠ '=' := by
  refine ⟨?_, ?_, ?_⟩ <;> rintro rfl <;> exact absurd h (by decide)

theorem isSome_charOf {n : Nat} (h : n < 64) : (valueOf (charOf n)).isSome := by
  rw [valueOf_charOf n h]
  rfl

/-- A written text is made of the alphabet alone. -/
theorem isSome_of_mem_encode {bytes : List UInt8} {c : Char} (h : c ∈ encode bytes) :
    (valueOf c).isSome := by
  fun_induction encode bytes with
  | case1 => cases h
  | case2 a =>
      have ha := a.toNat_lt
      rcases List.mem_cons.mp h with rfl | h
      · exact isSome_charOf (by omega)
      · rw [List.mem_singleton.mp h]
        exact isSome_charOf (by omega)
  | case3 a b =>
      have ha := a.toNat_lt
      have hb := b.toNat_lt
      simp only [List.mem_cons, List.not_mem_nil, or_false] at h
      rcases h with rfl | rfl | rfl <;> exact isSome_charOf (by omega)
  | case4 a b d rest ih =>
      have ha := a.toNat_lt
      have hb := b.toNat_lt
      have hd := d.toNat_lt
      simp only [List.mem_cons] at h
      rcases h with rfl | rfl | rfl | rfl | h
      · exact isSome_charOf (by omega)
      · exact isSome_charOf (by omega)
      · exact isSome_charOf (by omega)
      · exact isSome_charOf (by omega)
      · exact ih h

theorem pad_group (a b c d : Char) (rest : List Char) :
    pad (a :: b :: c :: d :: rest) = a :: b :: c :: d :: pad rest := by
  have hlen : (a :: b :: c :: d :: rest).length % 4 = rest.length % 4 := by
    simp only [List.length_cons]
    omega
  unfold pad
  rw [hlen]
  split <;> rfl

/-- A full group whose last character is no padding. -/
theorem readGroups_group {a b c d : Char} {i j k l : Nat} {rest : List Char}
    (ha : valueOf a = some i) (hb : valueOf b = some j) (hc : valueOf c = some k)
    (hd : valueOf d = some l) :
    readGroups (a :: b :: c :: d :: rest)
      = (readGroups rest).map fun bytes =>
          UInt8.ofNat (i * 4 + j / 16) :: UInt8.ofNat (j % 16 * 16 + k / 4) ::
            UInt8.ofNat (k % 4 * 64 + l) :: bytes := by
  have hne : d ≠ '=' := (ne_of_isSome (by rw [hd]; rfl)).2.2
  rw [readGroups]
  · rw [ha, hb, hc, hd]
    cases readGroups rest <;> rfl
  · intro h1 h2
    exact absurd h2 hne
  · intro h1
    exact absurd h1 hne

/-- The last group of two bytes. -/
theorem readGroups_two {a b c : Char} {i j k : Nat} (ha : valueOf a = some i)
    (hb : valueOf b = some j) (hc : valueOf c = some k) :
    readGroups [a, b, c, '=']
      = some [UInt8.ofNat (i * 4 + j / 16), UInt8.ofNat (j % 16 * 16 + k / 4)] := by
  have hne : c ≠ '=' := (ne_of_isSome (by rw [hc]; rfl)).2.2
  rw [readGroups]
  · rw [ha, hb, hc]
  · intro h
    exact absurd h hne

theorem readGroups_pad_encode (bytes : List UInt8) :
    readGroups (pad (encode bytes)) = some bytes := by
  fun_induction encode bytes with
  | case1 => rfl
  | case2 a =>
      have ha := a.toNat_lt
      show readGroups [_, _, '=', '='] = _
      simp only [readGroups, valueOf_charOf _ (show a.toNat / 4 < 64 by omega),
        valueOf_charOf _ (show a.toNat % 4 * 16 < 64 by omega)]
      rw [show a.toNat / 4 * 4 + a.toNat % 4 * 16 / 16 = a.toNat by omega, UInt8.ofNat_toNat]
  | case3 a b =>
      have ha := a.toNat_lt
      have hb := b.toNat_lt
      show readGroups [_, _, _, '='] = _
      rw [readGroups_two (valueOf_charOf _ (by omega)) (valueOf_charOf _ (by omega))
        (valueOf_charOf _ (by omega))]
      -- the third sextet carries the low half of `b` and two zero bits
      rw [show a.toNat / 4 * 4 + (a.toNat % 4 * 16 + b.toNat / 16) / 16 = a.toNat by omega,
        show (a.toNat % 4 * 16 + b.toNat / 16) % 16 * 16 + b.toNat % 16 * 4 / 4 = b.toNat by omega,
        UInt8.ofNat_toNat, UInt8.ofNat_toNat]
  | case4 a b c rest ih =>
      have ha := a.toNat_lt
      have hb := b.toNat_lt
      have hc := c.toNat_lt
      obtain ⟨h1, h2, h3⟩ := group_back a b c
      rw [pad_group, readGroups_group (valueOf_charOf _ (by omega)) (valueOf_charOf _ (by omega))
        (valueOf_charOf _ (by omega)) (valueOf_charOf _ (by omega)), ih, Option.map_some, h1, h2,
        h3]

theorem mem_pad {cs : List Char} {c : Char} (h : c ∈ pad cs) : c ∈ cs ∨ c = '=' := by
  unfold pad at h
  split at h
  · exact .inl h
  · rcases List.mem_append.mp h with h | h
    · exact .inl h
    · exact .inr (List.eq_of_mem_replicate h)

/-- **Reading what was written gives the bytes back.** -/
@[simp] theorem decode_encode (bytes : List UInt8) : decode (encode bytes) = some bytes := by
  have hkeep : (pad (encode bytes)).filter (fun c => c ≠ '\r' ∧ c ≠ '\n') = pad (encode bytes) := by
    rw [List.filter_eq_self]
    intro c hc
    rcases mem_pad hc with h | rfl
    · obtain ⟨h1, h2, -⟩ := ne_of_isSome (isSome_of_mem_encode h)
      exact decide_eq_true ⟨h1, h2⟩
    · decide
  rw [decode, hkeep, readGroups_pad_encode]

/-! ## §4. What a readable text is made of. -/

theorem mem_of_readGroups {cs : List Char} {bytes : List UInt8} (h : readGroups cs = some bytes)
    {c : Char} (hc : c ∈ cs) : (valueOf c).isSome ∨ c = '=' := by
  fun_induction readGroups cs generalizing bytes with
  | case1 => cases hc
  | case2 a b i j hj hi =>
      simp only [List.mem_cons, List.not_mem_nil, or_false] at hc
      rcases hc with rfl | rfl | rfl | rfl <;> simp [*]
  | case4 a b d _ i j k hk hj hi =>
      simp only [List.mem_cons, List.not_mem_nil, or_false] at hc
      rcases hc with rfl | rfl | rfl | rfl <;> simp [*]
  | case6 a b d e rest _ _ i j k l bytes' hrest hl hk hj hi ih =>
      simp only [List.mem_cons] at hc
      rcases hc with rfl | rfl | rfl | rfl | hc
      · simp [*]
      · simp [*]
      · simp [*]
      · simp [*]
      · exact ih hrest hc
  | case3 => cases h
  | case5 => cases h
  | case7 => cases h
  | case8 => cases h

/-- **A readable text has readable characters only.** -/
theorem readable_of_decode {cs : List Char} {bytes : List UInt8} (h : decode cs = some bytes)
    {c : Char} (hc : c ∈ cs) : Readable c := by
  by_cases hr : c = '\r'
  · exact .inr (.inr (.inl hr))
  by_cases hn : c = '\n'
  · exact .inr (.inr (.inr hn))
  have hpad : c ∈ pad cs := by
    unfold pad
    split
    · exact hc
    · exact List.mem_append_left _ hc
  rcases mem_of_readGroups h (List.mem_filter.mpr ⟨hpad, decide_eq_true ⟨hr, hn⟩⟩) with h | h
  · exact .inl h
  · exact .inr (.inl h)

theorem length_le_encode (bytes : List UInt8) : bytes.length ≤ (encode bytes).length := by
  fun_induction encode bytes with
  | case1 => exact Nat.le_refl 0
  | case2 => simp
  | case3 => simp
  | case4 a b c rest ih =>
      simp only [List.length_cons]
      omega

end Mainflux.Lib.Base64
