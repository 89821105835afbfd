/-
  Mainflux.Lib.FlatJson
  ─────────────────────
  **FLAT JSON OBJECTS: WRITING AND READING BACK.**

  Objects whose values are texts and natural numbers, written without blanks
  and with fields in the given order.  Printable ASCII stands for itself; any
  other character, the quote and the backslash are written as an escape of
  six hexadecimal digits, so the text is ASCII and goes byte for byte.

  `readBytes_writeBytes` — reading what was written gives the fields back.
-/
import Mainflux.Lib.Postgres

namespace Mainflux.Lib.FlatJson

/-! ## §1. Characters and texts. -/

/-- Characters that stand for themselves. -/
def Plain (c : Char) : Prop := 32 ≤ c.toNat ∧ c.toNat < 127 ∧ c ≠ '"' ∧ c ≠ '\\'

instance (c : Char) : Decidable (Plain c) := inferInstanceAs (Decidable (_ ∧ _))

/-- The digit of weight `16 ^ i`. -/
def hexDigit (n i : Nat) : Fin 16 := ⟨n / 16 ^ i % 16, Nat.mod_lt _ (by decide)⟩

/-- A character inside a quoted text. -/
def escape (c : Char) : List Char :=
  if Plain c then [c]
  else '\\' :: 'u' :: ([5, 4, 3, 2, 1, 0].map fun i => hexChar (hexDigit c.toNat i))

def writeString (s : List Char) : List Char := '"' :: (s.flatMap escape ++ ['"'])

/-- The code point of six digits. -/
def codePoint (a b c d e f : Fin 16) : Nat :=
  ((((a.val * 16 + b) * 16 + c) * 16 + d) * 16 + e) * 16 + f

/-- The rest of a quoted text, up to the closing quote. -/
def readChars : List Char → Option (List Char × List Char)
  | '"' :: cs => some ([], cs)
  | '\\' :: 'u' :: a :: b :: c :: d :: e :: f :: cs =>
      match hexVal a, hexVal b, hexVal c, hexVal d, hexVal e, hexVal f, readChars cs with
      | some a, some b, some c, some d, some e, some f, some (s, rest) =>
          some (Char.ofNat (codePoint a b c d e f) :: s, rest)
      | _, _, _, _, _, _, _ => none
  | c :: cs =>
      match readChars cs with
      | some (s, rest) => some (c :: s, rest)
      | none => none
  | [] => none

theorem readChars_plain {c : Char} (h : Plain c) (cs : List Char) :
    readChars (c :: cs) = (readChars cs).map fun r => (c :: r.1, r.2) := by
  rw [readChars]
  · cases readChars cs <;> rfl
  · exact fun hc => h.2.2.1 hc
  · intro a b d e f g cs' hc _
    exact absurd hc h.2.2.2

theorem codePoint_hexDigit {n : Nat} (h : n < 1114112) :
    codePoint (hexDigit n 5) (hexDigit n 4) (hexDigit n 3) (hexDigit n 2) (hexDigit n 1)
      (hexDigit n 0) = n := by
  simp only [codePoint, hexDigit, Nat.reducePow]
  omega

theorem readChars_escape (c : Char) (cs : List Char) :
    readChars (escape c ++ cs) = (readChars cs).map fun r => (c :: r.1, r.2) := by
  unfold escape
  split
  next h => exact readChars_plain h cs
  next h =>
      have hc : c.toNat < 1114112 := by
        rcases c.valid with h | h
        · exact Nat.lt_trans h (by decide)
        · exact h.2
      simp only [List.map_cons, List.map_nil, List.cons_append, List.nil_append, readChars,
        hexVal_hexChar]
      cases readChars cs with
      | none => rfl
      | some r =>
          simp only [codePoint_hexDigit hc, Char.ofNat_toNat, Option.map_some]

theorem readChars_flatMap (s rest : List Char) :
    readChars (s.flatMap escape ++ '"' :: rest) = some (s, rest) := by
  induction s with
  | nil => rfl
  | cons c s ih => rw [List.flatMap_cons, List.append_assoc, readChars_escape, ih]; rfl

/-! ## §2. Numbers. -/

/-- Decimal digits, lowest first. -/
def digits : Nat → Nat → List Nat
  | 0, _ => []
  | fuel + 1, n => n % 10 :: if n < 10 then [] else digits fuel (n / 10)

def digitChar (d : Nat) : Char := Char.ofNat (48 + d)

def writeNat (n : Nat) : List Char := ((digits (n + 1) n).map digitChar).reverse

/-- The value of decimal digits, highest first. -/
def readNat (cs : List Char) : Nat := cs.foldl (fun n c => n * 10 + (c.toNat - 48)) 0

theorem digitChar_isDigit : ∀ d < 10, (digitChar d).isDigit ∧ (digitChar d).toNat - 48 = d := by
  decide

theorem digits_lt {fuel n d : Nat} (h : d ∈ digits fuel n) : d < 10 := by
  induction fuel generalizing n with
  | zero => cases h
  | succ fuel ih =>
      rcases List.mem_cons.mp h with rfl | h
      · omega
      · split at h
        · cases h
        · exact ih h

theorem readNat_digits (fuel n : Nat) (h : n < fuel) :
    readNat ((digits fuel n).map digitChar).reverse = n := by
  induction fuel generalizing n with
  | zero => omega
  | succ fuel ih =>
      have hlast := (digitChar_isDigit (n % 10) (by omega)).2
      simp only [digits, List.map_cons, List.reverse_cons, readNat, List.foldl_append,
        List.foldl_cons, List.foldl_nil, hlast]
      split
      next hlt =>
          simp only [List.map_nil, List.reverse_nil, List.foldl_nil]
          omega
      next hge =>
          have hrest := ih (n / 10) (by omega)
          rw [readNat] at hrest
          rw [hrest]
          omega

theorem isDigit_of_mem_writeNat {n : Nat} {c : Char} (h : c ∈ writeNat n) : c.isDigit := by
  obtain ⟨d, hd, rfl⟩ := List.mem_map.mp (List.mem_reverse.mp h)
  exact (digitChar_isDigit d (digits_lt hd)).1

/-- A number ends before the first character that is no digit. -/
theorem takeWhile_writeNat (n : Nat) {c : Char} (hc : c.isDigit = false) (rest : List Char) :
    (writeNat n ++ c :: rest).takeWhile Char.isDigit = writeNat n ∧
      (writeNat n ++ c :: rest).dropWhile Char.isDigit = c :: rest := by
  have hall : ∀ d ∈ writeNat n, d.isDigit = true := fun d hd => isDigit_of_mem_writeNat hd
  rw [List.takeWhile_append_of_pos hall, List.dropWhile_append_of_pos hall]
  simp [hc]

/-! ## §3. Objects. -/

inductive Scalar
  | str (s : String)
  | int (n : Int)
  deriving Repr, DecidableEq

def writeScalar : Scalar → List Char
  | .str s => writeString s.toList
  | .int (.ofNat n) => writeNat n
  | .int (.negSucc n) => '-' :: writeNat (n + 1)

def writeField (f : String × Scalar) : List Char :=
  writeString f.1.toList ++ ':' :: writeScalar f.2

/-- The fields after the first one and the closing brace. -/
def writeMore (fs : List (String × Scalar)) : List Char :=
  fs.flatMap (fun f => ',' :: writeField f) ++ ['\x7d']

def writeObject : List (String × Scalar) → List Char
  | [] => ['\x7b', '\x7d']
  | f :: fs => '\x7b' :: (writeField f ++ writeMore fs)

def readScalar : List Char → Option (Scalar × List Char)
  | '"' :: cs => (readChars cs).map fun r => (.str (String.ofList r.1), r.2)
  | '-' :: cs => some (.int (-(readNat (cs.takeWhile Char.isDigit))), cs.dropWhile Char.isDigit)
  | cs => some (.int (readNat (cs.takeWhile Char.isDigit)), cs.dropWhile Char.isDigit)

def readField : List Char → Option ((String × Scalar) × List Char)
  | '"' :: cs =>
      match readChars cs with
      | some (k, ':' :: cs) => (readScalar cs).map fun r => ((String.ofList k, r.1), r.2)
      | _ => none
  | _ => none

def readMore : Nat → List Char → Option (List (String × Scalar))
  | _, ['\x7d'] => some []
  | fuel + 1, ',' :: cs =>
      match readField cs with
      | some (f, cs) => (readMore fuel cs).map (f :: ·)
      | none => none
  | _, _ => none

def readObject : List Char → Option (List (String × Scalar))
  | '\x7b' :: cs =>
      if cs = ['\x7d'] then some []
      else
        match readField cs with
        | some (f, cs) => (readMore cs.length cs).map (f :: ·)
        | none => none
  | _ => none

/-! ## §4. Reading back. -/

theorem writeNat_ne_nil (n : Nat) : writeNat n ≠ [] := by
  simp [writeNat, digits]

/-- A written number starts with a digit. -/
theorem writeNat_cons (n : Nat) : ∃ d ds, writeNat n = d :: ds ∧ d.isDigit := by
  cases h : writeNat n with
  | nil => exact absurd h (writeNat_ne_nil n)
  | cons d ds => exact ⟨d, ds, rfl, isDigit_of_mem_writeNat (h ▸ List.mem_cons_self)⟩

theorem readScalar_digits {d : Char} (h : d.isDigit) (ds : List Char) :
    readScalar (d :: ds)
      = some (.int (readNat ((d :: ds).takeWhile Char.isDigit)),
          (d :: ds).dropWhile Char.isDigit) := by
  rw [readScalar]
  · intro cs heq
    rw [(List.cons.inj heq).1] at h
    exact absurd h (by decide)
  · intro cs heq
    rw [(List.cons.inj heq).1] at h
    exact absurd h (by decide)

theorem readScalar_writeScalar (v : Scalar) {c : Char} (hc : c.isDigit = false)
    (rest : List Char) : readScalar (writeScalar v ++ c :: rest) = some (v, c :: rest) := by
  cases v with
  | str s =>
      simp only [writeScalar, writeString, List.cons_append, List.append_assoc, readScalar,
        List.nil_append, readChars_flatMap, Option.map_some, String.ofList_toList]
  | int n =>
      cases n with
      | ofNat n =>
          obtain ⟨htake, hdrop⟩ := takeWhile_writeNat n hc rest
          have hval : readNat (writeNat n) = n := readNat_digits (n + 1) n (Nat.lt_succ_self n)
          obtain ⟨d, ds, heq, hd⟩ := writeNat_cons n
          rw [writeScalar]
          rw [heq, List.cons_append] at htake hdrop ⊢
          rw [readScalar_digits hd, htake, hdrop, ← heq, hval]
          rfl
      | negSucc n =>
          obtain ⟨htake, hdrop⟩ := takeWhile_writeNat (n + 1) hc rest
          have hval : readNat (writeNat (n + 1)) = n + 1 := readNat_digits _ _ (Nat.lt_succ_self _)
          simp only [writeScalar, List.cons_append, readScalar, htake, hdrop, hval]
          rfl

theorem readField_writeField (f : String × Scalar) {c : Char} (hc : c.isDigit = false)
    (rest : List Char) : readField (writeField f ++ c :: rest) = some (f, c :: rest) := by
  obtain ⟨k, v⟩ := f
  simp only [writeField, writeString, List.cons_append, List.append_assoc, List.nil_append,
    readField, readChars_flatMap, readScalar_writeScalar v hc, Option.map_some,
    String.ofList_toList]

/-- What follows a field starts with a comma or the closing brace. -/
theorem writeMore_cons (fs : List (String × Scalar)) :
    ∃ c rest, writeMore fs = c :: rest ∧ c.isDigit = false := by
  cases fs with
  | nil => exact ⟨'\x7d', [], rfl, by decide⟩
  | cons f fs => exact ⟨',', _, rfl, by decide⟩

theorem readMore_writeMore (fs : List (String × Scalar)) (fuel : Nat) (h : fs.length ≤ fuel) :
    readMore fuel (writeMore fs) = some fs := by
  induction fs generalizing fuel with
  | nil => cases fuel <;> rfl
  | cons f fs ih =>
      cases fuel with
      | zero => simp at h
      | succ fuel =>
          obtain ⟨c, rest, heq, hc⟩ := writeMore_cons fs
          have hone : writeMore (f :: fs) = ',' :: (writeField f ++ writeMore fs) := by
            simp only [writeMore, List.flatMap_cons, List.cons_append, List.append_assoc]
          have hrest := ih fuel (Nat.le_of_succ_le_succ h)
          rw [hone, heq] at *
          simp only [readMore, readField_writeField f hc, hrest, Option.map_some]

theorem length_le_writeMore (fs : List (String × Scalar)) : fs.length ≤ (writeMore fs).length := by
  induction fs with
  | nil => simp
  | cons f fs ih =>
      simp only [writeMore, List.flatMap_cons, List.length_append, List.length_cons] at ih ⊢
      omega

/-- **Reading a written object gives its fields back.** -/
theorem readObject_writeObject (fs : List (String × Scalar)) :
    readObject (writeObject fs) = some fs := by
  cases fs with
  | nil => rfl
  | cons f fs =>
      obtain ⟨c, rest, heq, hc⟩ := writeMore_cons fs
      have hmore := readMore_writeMore fs _ (length_le_writeMore fs)
      have hne : writeField f ++ writeMore fs ≠ ['\x7d'] := by
        intro h
        exact absurd (List.cons.inj h).1 (by decide)
      simp only [writeObject, readObject, if_neg hne]
      rw [heq] at hmore ⊢
      simp only [readField_writeField f hc, hmore, Option.map_some]

/-! ## §5. Bytes. -/

/-- The bytes of an ASCII text. -/
def toBytes (cs : List Char) : List UInt8 := cs.map fun c => UInt8.ofNat c.toNat

def ofBytes (bs : List UInt8) : List Char := bs.map fun b => Char.ofNat b.toNat

theorem ofBytes_toBytes {cs : List Char} (h : ∀ c ∈ cs, c.toNat < 128) :
    ofBytes (toBytes cs) = cs := by
  rw [ofBytes, toBytes, List.map_map]
  refine (List.map_congr_left fun c hc => ?_).trans (List.map_id _)
  have hmod : (UInt8.ofNat c.toNat).toNat = c.toNat := by
    rw [UInt8.toNat_ofNat']
    exact Nat.mod_eq_of_lt (Nat.lt_trans (h c hc) (by decide))
  simp only [Function.comp_apply, hmod, Char.ofNat_toNat, id_eq]

theorem escape_ascii {c d : Char} (h : d ∈ escape c) : d.toNat < 128 := by
  have hhex : ∀ x : Fin 16, (hexChar x).toNat < 128 := by decide
  unfold escape at h
  split at h
  next hp =>
      rw [List.mem_singleton.mp h]
      exact Nat.lt_trans hp.2.1 (by decide)
  next =>
      simp only [List.mem_cons, List.map_cons, List.map_nil, List.not_mem_nil, or_false] at h
      rcases h with rfl | rfl | rfl | rfl | rfl | rfl | rfl | rfl
      · decide
      · decide
      all_goals exact hhex _

theorem writeString_ascii {s : List Char} {d : Char} (h : d ∈ writeString s) : d.toNat < 128 := by
  simp only [writeString, List.mem_cons, List.mem_append, List.mem_flatMap, List.not_mem_nil,
    or_false] at h
  rcases h with rfl | ⟨c, -, hd⟩ | rfl
  · decide
  · exact escape_ascii hd
  · decide

theorem writeNat_ascii {n : Nat} {d : Char} (h : d ∈ writeNat n) : d.toNat < 128 := by
  obtain ⟨x, hx, rfl⟩ := List.mem_map.mp (List.mem_reverse.mp h)
  have hall : ∀ x < 10, (digitChar x).toNat < 128 := by decide
  exact hall x (digits_lt hx)

theorem writeField_ascii {f : String × Scalar} {d : Char} (h : d ∈ writeField f) :
    d.toNat < 128 := by
  rcases List.mem_append.mp h with h | h
  · exact writeString_ascii h
  · rcases List.mem_cons.mp h with rfl | h
    · decide
    · obtain ⟨k, v⟩ := f
      cases v with
      | str s => exact writeString_ascii h
      | int n =>
          cases n with
          | ofNat n => exact writeNat_ascii h
          | negSucc n =>
              rcases List.mem_cons.mp h with rfl | h
              · decide
              · exact writeNat_ascii h

theorem writeObject_ascii {fs : List (String × Scalar)} {d : Char} (h : d ∈ writeObject fs) :
    d.toNat < 128 := by
  cases fs with
  | nil =>
      rcases List.mem_cons.mp h with rfl | h
      · decide
      · rw [List.mem_singleton.mp h]
        decide
  | cons f fs =>
      rcases List.mem_cons.mp h with rfl | h
      · decide
      · rcases List.mem_append.mp h with h | h
        · exact writeField_ascii h
        · simp only [writeMore, List.mem_append, List.mem_flatMap, List.mem_cons, List.not_mem_nil,
            or_false] at h
          rcases h with ⟨g, -, rfl | hd⟩ | rfl
          · decide
          · exact writeField_ascii hd
          · decide

def writeBytes (fs : List (String × Scalar)) : List UInt8 := toBytes (writeObject fs)

def readBytes (bs : List UInt8) : Option (List (String × Scalar)) := readObject (ofBytes bs)

/-- **Reading written bytes gives the fields back.** -/
@[simp] theorem readBytes_writeBytes (fs : List (String × Scalar)) :
    readBytes (writeBytes fs) = some fs := by
  rw [readBytes, writeBytes, ofBytes_toBytes fun c hc => writeObject_ascii hc,
    readObject_writeObject]

/-! ## §6. Escaping never shortens. -/

theorem length_le_flatMap_escape (s : List Char) : s.length ≤ (s.flatMap escape).length := by
  induction s with
  | nil => exact Nat.le_refl 0
  | cons c s ih =>
      have hpos : 0 < (escape c).length := by
        unfold escape
        split <;> simp
      simp only [List.flatMap_cons, List.length_append, List.length_cons]
      omega

/-- The text of an object is at least as long as each of its texts. -/
theorem length_le_writeBytes {fs : List (String × Scalar)} {k s : String}
    (h : (k, Scalar.str s) ∈ fs) : s.length ≤ (writeBytes fs).length := by
  have hfield : s.length ≤ (writeField (k, .str s)).length := by
    have := length_le_flatMap_escape s.toList
    rw [String.length_toList] at this
    simp only [writeField, writeScalar, writeString, List.length_append, List.length_cons]
    omega
  rw [writeBytes, toBytes, List.length_map]
  cases fs with
  | nil => cases h
  | cons f fs =>
      rw [writeObject, List.length_cons, List.length_append]
      rcases List.mem_cons.mp h with rfl | h
      · omega
      · have hsub := (List.sublist_flatten_of_mem
          (List.mem_map_of_mem (f := fun f => ',' :: writeField f) h)).length_le
        simp only [writeMore, List.length_append, List.flatMap, List.length_cons] at hsub ⊢
        omega

end Mainflux.Lib.FlatJson
