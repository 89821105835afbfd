/-
  Mainflux.Lib.Json
  ─────────────────
  **`encoding/json` FOR GENERIC VALUES: `Marshal` AND `Unmarshal`.**

  The values are those of `interface{}`: a map is kept as its fields in the
  order of the keys, which is the order `Marshal` writes them in, and a number
  as the literal it is written with.  `IsValue` says that a `Json` is such a
  value.

    • `marshal` escapes as Go does (the HTML characters and the two line
      separators included);
    • `unmarshal` is the whole grammar: blanks, every escape, surrogate pairs,
      repeated keys (the last one counts);
    • `unmarshal_marshal` — reading what was written gives the value back.
-/
import Mathlib.Data.String.Basic
import Mainflux.Lib.FlatJson

namespace Mainflux.Lib.Json

open FlatJson (hexDigit)

/-! ## §1. Quoted texts. -/

/-- Characters that `Marshal` writes as `\uXXXX`. -/
def ByUnit (c : Char) : Prop :=
  c.toNat < 32 ∨ c = '<' ∨ c = '>' ∨ c = '&' ∨ c.toNat = 8232 ∨ c.toNat = 8233

instance (c : Char) : Decidable (ByUnit c) := inferInstanceAs (Decidable (_ ∨ _))

/-- A character inside a quoted text. -/
def escape (c : Char) : List Char :=
  if c = '"' then ['\\', '"']
  else if c = '\\' then ['\\', '\\']
  else if c = '\n' then ['\\', 'n']
  else if c = '\r' then ['\\', 'r']
  else if c = '\t' then ['\\', 't']
  else if ByUnit c then '\\' :: 'u' :: ([3, 2, 1, 0].map fun i => hexChar (hexDigit c.toNat i))
  else [c]

def writeString (s : String) : List Char := '"' :: (s.toList.flatMap escape ++ ['"'])

/-- What stands inside the quotes: a character, or a UTF-16 code unit. -/
inductive Piece
  | char (c : Char)
  | unit (n : Nat)

/-- The escapes of one letter. -/
def letterEscape : Char → Option Char
  | '"' => some '"'
  | '\\' => some '\\'
  | '/' => some '/'
  | 'b' => some '\x08'
  | 'f' => some '\x0c'
  | 'n' => some '\n'
  | 'r' => some '\r'
  | 't' => some '\t'
  | _ => none

/-- The code unit of four digits. -/
def unitOf (a b c d : Char) : Option Nat :=
  match hexVal a, hexVal b, hexVal c, hexVal d with
  | some a, some b, some c, some d => some (((a.val * 16 + b) * 16 + c) * 16 + d)
  | _, _, _, _ => none

/-- One more piece in front. -/
def consPiece (p : Piece) : Option (List Piece × List Char) → Option (List Piece × List Char)
  | some (ps, rest) => some (p :: ps, rest)
  | none => none

/-- The rest of a quoted text, up to the closing quote. -/
def readPieces : List Char → Option (List Piece × List Char)
  | [] => none
  | '"' :: cs => some ([], cs)
  | '\\' :: 'u' :: a :: b :: c :: d :: cs =>
      match unitOf a b c d with
      | some n => consPiece (.unit n) (readPieces cs)
      | none => none
  | '\\' :: e :: cs =>
      match letterEscape e with
      | some c => consPiece (.char c) (readPieces cs)
      | none => none
  | c :: cs => if c = '\\' ∨ c.toNat < 32 then none else consPiece (.char c) (readPieces cs)

/-- A code unit alone: its character, U+FFFD for half a surrogate pair. -/
def ofUnit (n : Nat) : Char := if 55296 ≤ n ∧ n < 57344 then Char.ofNat 65533 else Char.ofNat n

/-- The two halves of a surrogate pair. -/
abbrev IsPair (hi lo : Nat) : Prop := (55296 ≤ hi ∧ hi < 56320) ∧ 56320 ≤ lo ∧ lo < 57344

/-- `unquote`. -/
def unquote : List Piece → List Char
  | [] => []
  | .char c :: ps => c :: unquote ps
  | [.unit n] => [ofUnit n]
  | .unit n :: .char c :: ps => ofUnit n :: c :: unquote ps
  | .unit hi :: .unit lo :: ps =>
      if IsPair hi lo then
        Char.ofNat ((hi - 55296) * 1024 + (lo - 56320) + 65536) :: unquote ps
      else ofUnit hi :: unquote (.unit lo :: ps)

/-- A quoted text whose opening quote has been read. -/
def readString (cs : List Char) : Option (String × List Char) :=
  match readPieces cs with
  | some (ps, rest) => some (String.ofList (unquote ps), rest)
  | none => none

/-- How a character is written. -/
def pieceOf (c : Char) : Piece :=
  if ByUnit c ∧ c ≠ '\n' ∧ c ≠ '\r' ∧ c ≠ '\t' then .unit c.toNat else .char c

theorem unitOf_hexDigits {n : Nat} (h : n < 65536) :
    unitOf (hexChar (hexDigit n 3)) (hexChar (hexDigit n 2)) (hexChar (hexDigit n 1))
      (hexChar (hexDigit n 0)) = some n := by
  simp only [unitOf, hexVal_hexChar, Option.some.injEq, hexDigit, Nat.reducePow]
  omega

theorem ByUnit.lt {c : Char} (h : ByUnit c) : c.toNat < 55296 := by
  rcases h with h | rfl | rfl | rfl | h | h
  · omega
  · decide
  · decide
  · decide
  · omega
  · omega

/-- A written character is read as its piece. -/
theorem readPieces_escape (c : Char) (cs : List Char) :
    readPieces (escape c ++ cs) = consPiece (pieceOf c) (readPieces cs) := by
  unfold escape
  split
  next h => subst h; rfl
  next hquote =>
  split
  next h => subst h; rfl
  next hback =>
  split
  next h => subst h; rfl
  next hn =>
  split
  next h => subst h; rfl
  next hr =>
  split
  next h => subst h; rfl
  next ht =>
  split
  next h =>
      have hlt := h.lt
      simp only [List.map_cons, List.map_nil, List.cons_append, List.nil_append, readPieces,
        unitOf_hexDigits (n := c.toNat) (by omega), pieceOf, h, hn, hr, ht, ne_eq,
        not_false_eq_true, and_self, if_true]
  next h =>
      have hge : ¬ c.toNat < 32 := fun hlt => h (.inl hlt)
      rw [List.singleton_append, readPieces]
      · simp only [hback, hge, or_self, if_false, pieceOf, h, false_and]
      · exact hquote
      · intro _ _ _ _ _ hc _
        exact absurd hc hback
      · intro _ _ hc _
        exact absurd hc hback

theorem readPieces_flatMap (s rest : List Char) :
    readPieces (s.flatMap escape ++ '"' :: rest) = some (s.map pieceOf, rest) := by
  induction s with
  | nil => rfl
  | cons c s ih =>
      rw [List.flatMap_cons, List.append_assoc, readPieces_escape, ih]
      rfl

/-- No written code unit is half a pair, so the pieces are read one by one. -/
theorem unquote_cons {n : Nat} (h : n < 55296) (ps : List Piece) :
    unquote (.unit n :: ps) = Char.ofNat n :: unquote ps := by
  have hof : ofUnit n = Char.ofNat n := if_neg (by omega)
  cases ps with
  | nil => simp only [unquote, hof]
  | cons p ps =>
      cases p with
      | char c => simp only [unquote, hof]
      | unit lo =>
          rw [unquote, if_neg (by omega), hof]

theorem unquote_map_pieceOf (s : List Char) : unquote (s.map pieceOf) = s := by
  induction s with
  | nil => rfl
  | cons c s ih =>
      rw [List.map_cons]
      by_cases h : ByUnit c ∧ c ≠ '\n' ∧ c ≠ '\r' ∧ c ≠ '\t'
      · rw [pieceOf, if_pos h, unquote_cons h.1.lt, ih, Char.ofNat_toNat]
      · rw [pieceOf, if_neg h, unquote, ih]

theorem readString_writeString (s : String) (rest : List Char) :
    readString (s.toList.flatMap escape ++ '"' :: rest) = some (s, rest) := by
  rw [readString, readPieces_flatMap]
  simp only [unquote_map_pieceOf, String.ofList_toList]

/-! ## §2. Numbers. -/

/-- `-`, if it stands there. -/
def scanMinus : List Char → List Char × List Char
  | [] => ([], [])
  | c :: cs => if c = '-' then ([c], cs) else ([], c :: cs)

/-- `0`, or digits that do not start with `0`. -/
def scanInt : List Char → Option (List Char × List Char)
  | [] => none
  | c :: cs =>
      if c = '0' then some ([c], cs)
      else if c.isDigit then some (c :: cs.takeWhile Char.isDigit, cs.dropWhile Char.isDigit)
      else none

/-- At least one digit. -/
def scanDigits (cs : List Char) : Option (List Char × List Char) :=
  if cs.takeWhile Char.isDigit = [] then none
  else some (cs.takeWhile Char.isDigit, cs.dropWhile Char.isDigit)

/-- The fraction, if it stands there. -/
def scanFrac : List Char → Option (List Char × List Char)
  | [] => some ([], [])
  | c :: cs =>
      if c = '.' then (scanDigits cs).map fun r => (c :: r.1, r.2)
      else some ([], c :: cs)

/-- The sign of an exponent, if it stands there. -/
def scanSign : List Char → List Char × List Char
  | [] => ([], [])
  | c :: cs => if c = '+' ∨ c = '-' then ([c], cs) else ([], c :: cs)

/-- The exponent, if it stands there. -/
def scanExp : List Char → Option (List Char × List Char)
  | [] => some ([], [])
  | c :: cs =>
      if c = 'e' ∨ c = 'E' then
        (scanDigits (scanSign cs).2).map fun r => (c :: ((scanSign cs).1 ++ r.1), r.2)
      else some ([], c :: cs)

/-- A number literal and what follows it. -/
def scanNumber (cs : List Char) : Option (List Char × List Char) :=
  match scanInt (scanMinus cs).2 with
  | none => none
  | some (int, cs') =>
      match scanFrac cs' with
      | none => none
      | some (frac, cs') =>
          match scanExp cs' with
          | none => none
          | some (exp, cs') => some ((scanMinus cs).1 ++ int ++ frac ++ exp, cs')

/-- The text starts with no character of a number. -/
def EndsNumber : List Char → Prop
  | [] => True
  | c :: _ => c.isDigit = false ∧ c ≠ '.' ∧ c ≠ 'e' ∧ c ≠ 'E' ∧ c ≠ '+' ∧ c ≠ '-'

section Extend

variable {t : List Char} (ht : EndsNumber t)
include ht

theorem takeWhile_extend (cs : List Char) :
    (cs ++ t).takeWhile Char.isDigit = cs.takeWhile Char.isDigit ∧
      (cs ++ t).dropWhile Char.isDigit = cs.dropWhile Char.isDigit ++ t := by
  induction cs with
  | nil =>
      cases t with
      | nil => exact ⟨rfl, rfl⟩
      | cons c t => simp [ht.1]
  | cons c cs ih =>
      by_cases hc : c.isDigit
      · simp [hc, ih]
      · simp [hc]

theorem scanMinus_extend (cs : List Char) :
    scanMinus (cs ++ t) = ((scanMinus cs).1, (scanMinus cs).2 ++ t) := by
  cases cs with
  | nil =>
      cases t with
      | nil => rfl
      | cons c t => simp only [List.nil_append, scanMinus, ht.2.2.2.2.2, if_false]
  | cons c cs =>
      by_cases hc : c = '-'
      · simp only [List.cons_append, scanMinus, hc, if_true]
      · simp only [List.cons_append, scanMinus, hc, if_false]

theorem scanSign_extend (cs : List Char) :
    scanSign (cs ++ t) = ((scanSign cs).1, (scanSign cs).2 ++ t) := by
  cases cs with
  | nil =>
      cases t with
      | nil => rfl
      | cons c t =>
          simp only [List.nil_append, scanSign, ht.2.2.2.2.1, ht.2.2.2.2.2, or_self, if_false]
  | cons c cs =>
      by_cases hc : c = '+' ∨ c = '-'
      · simp only [List.cons_append, scanSign, hc, if_true]
      · simp only [List.cons_append, scanSign, hc, if_false]

theorem scanDigits_extend {cs ds r : List Char} (h : scanDigits cs = some (ds, r)) :
    scanDigits (cs ++ t) = some (ds, r ++ t) := by
  obtain ⟨htake, hdrop⟩ := takeWhile_extend ht cs
  unfold scanDigits at h ⊢
  rw [htake, hdrop]
  split at h
  next => cases h
  next hne =>
      rw [if_neg hne]
      cases h
      rfl

theorem scanInt_extend {cs ds r : List Char} (h : scanInt cs = some (ds, r)) :
    scanInt (cs ++ t) = some (ds, r ++ t) := by
  cases cs with
  | nil => cases h
  | cons c cs =>
      rw [List.cons_append, scanInt]
      rw [scanInt] at h
      obtain ⟨htake, hdrop⟩ := takeWhile_extend ht cs
      rw [htake, hdrop]
      split at h
      next hc =>
          cases h
          rw [if_pos hc]
      next hc =>
          rw [if_neg hc]
          split at h
          next hd =>
              cases h
              rw [if_pos hd]
          next => cases h

theorem scanFrac_extend {cs ds r : List Char} (h : scanFrac cs = some (ds, r)) :
    scanFrac (cs ++ t) = some (ds, r ++ t) := by
  cases cs with
  | nil =>
      cases h
      cases t with
      | nil => rfl
      | cons c t => simp only [List.nil_append, scanFrac, ht.2.1, if_false]
  | cons c cs =>
      rw [List.cons_append, scanFrac]
      rw [scanFrac] at h
      split at h
      next hc =>
          rw [if_pos hc]
          obtain ⟨⟨ds', r'⟩, hdigits, heq⟩ := Option.map_eq_some_iff.mp h
          cases heq
          rw [scanDigits_extend ht hdigits]
          rfl
      next hc =>
          cases h
          rw [if_neg hc]
          rfl

theorem scanExp_extend {cs ds r : List Char} (h : scanExp cs = some (ds, r)) :
    scanExp (cs ++ t) = some (ds, r ++ t) := by
  cases cs with
  | nil =>
      cases h
      cases t with
      | nil => rfl
      | cons c t => simp only [List.nil_append, scanExp, ht.2.2.1, ht.2.2.2.1, or_self, if_false]
  | cons c cs =>
      rw [List.cons_append, scanExp, scanSign_extend ht]
      rw [scanExp] at h
      split at h
      next hc =>
          rw [if_pos hc]
          obtain ⟨⟨ds', r'⟩, hdigits, heq⟩ := Option.map_eq_some_iff.mp h
          cases heq
          rw [scanDigits_extend ht hdigits]
          rfl
      next hc =>
          cases h
          rw [if_neg hc]
          rfl

/-- A number ends where no character can go on with it. -/
theorem scanNumber_extend {cs ds r : List Char} (h : scanNumber cs = some (ds, r)) :
    scanNumber (cs ++ t) = some (ds, r ++ t) := by
  unfold scanNumber at h ⊢
  rw [scanMinus_extend ht]
  split at h
  next => cases h
  next int cs1 hint =>
      rw [scanInt_extend ht hint]
      split at h
      next => cases h
      next frac cs2 hfrac =>
          simp only [scanFrac_extend ht hfrac]
          split at h
          next => cases h
          next exp cs3 hexp =>
              simp only [scanExp_extend ht hexp]
              cases h
              rfl

end Extend

/-! ## §3. Values. -/

mutual

/-- `json.Marshal`. -/
def write : Json → List Char
  | .null => ['n', 'u', 'l', 'l']
  | .bool true => ['t', 'r', 'u', 'e']
  | .bool false => ['f', 'a', 'l', 's', 'e']
  | .num literal => literal.toList
  | .str s => writeString s
  | .arr [] => ['[', ']']
  | .arr (v :: vs) => '[' :: (write v ++ writeItems vs)
  | .obj [] => ['\x7b', '\x7d']
  | .obj ((k, v) :: fs) => '\x7b' :: (writeString k ++ ':' :: (write v ++ writeFields fs))

/-- The items after the first one and the closing bracket. -/
def writeItems : List Json → List Char
  | [] => [']']
  | v :: vs => ',' :: (write v ++ writeItems vs)

/-- The fields after the first one and the closing brace. -/
def writeFields : List (String × Json) → List Char
  | [] => ['\x7d']
  | (k, v) :: fs => ',' :: (writeString k ++ ':' :: (write v ++ writeFields fs))

end

/-- `json.Marshal` of a map. -/
def marshal (m : JsonObject) : String := String.ofList (write (.obj m))

def isSpace (c : Char) : Bool := c = ' ' || c = '\t' || c = '\r' || c = '\n'

def skipSpace (cs : List Char) : List Char := cs.dropWhile isSpace

/-- `m[key] = v`, the fields in the order of their keys. -/
def insertField (key : String) (v : Json) : JsonObject → JsonObject
  | [] => [(key, v)]
  | (k, w) :: fs =>
      if key < k then (key, v) :: (k, w) :: fs
      else if key = k then (key, v) :: fs
      else (k, w) :: insertField key v fs

/-- The map of the fields read, in the order they stand in the text. -/
def ofFields (fs : List (String × Json)) : JsonObject :=
  fs.foldl (fun m f => insertField f.1 f.2 m) []

/-- What a value starts with decides what it is: a literal name. -/
def readName : List Char → Option (Json × List Char)
  | 'n' :: 'u' :: 'l' :: 'l' :: cs => some (.null, cs)
  | 't' :: 'r' :: 'u' :: 'e' :: cs => some (.bool true, cs)
  | 'f' :: 'a' :: 'l' :: 's' :: 'e' :: cs => some (.bool false, cs)
  | _ => none

/-- A name or a number. -/
def readScalar (cs : List Char) : Option (Json × List Char) :=
  match readName cs with
  | some r => some r
  | none => (scanNumber cs).map fun r => (.num (String.ofList r.1), r.2)

section Lists

variable {α : Type} (close : Char) (more : List Char → Option (List α × List Char))

/-- After an opening bracket: the closing one, or elements. -/
def readList (cs : List Char) : Option (List α × List Char) :=
  match skipSpace cs with
  | [] => none
  | c :: cs => if c = close then some ([], cs) else more (c :: cs)

/-- After an element: the closing bracket, or a comma and more elements. -/
def readMore (a : α) (cs : List Char) : Option (List α × List Char) :=
  match skipSpace cs with
  | [] => none
  | c :: cs =>
      if c = close then some ([a], cs)
      else if c = ',' then (more cs).map fun r => (a :: r.1, r.2)
      else none

end Lists

/-- A colon. -/
def readColon (cs : List Char) : Option (List Char) :=
  match skipSpace cs with
  | ':' :: cs => some cs
  | _ => none

/-- A key and the colon behind it. -/
def readKey (cs : List Char) : Option (String × List Char) :=
  match skipSpace cs with
  | '"' :: cs =>
      match readString cs with
      | some (k, cs) => (readColon cs).map fun cs => (k, cs)
      | none => none
  | _ => none

mutual

/-- A value. -/
def readValue : Nat → List Char → Option (Json × List Char)
  | 0, _ => none
  | fuel + 1, cs =>
      match skipSpace cs with
      | '"' :: cs => (readString cs).map fun r => (.str r.1, r.2)
      | '[' :: cs => (readList ']' (readItems fuel) cs).map fun r => (.arr r.1, r.2)
      | '\x7b' :: cs => (readList '\x7d' (readFields fuel) cs).map fun r => (.obj (ofFields r.1), r.2)
      | cs => readScalar cs

/-- Items up to the closing bracket. -/
def readItems : Nat → List Char → Option (List Json × List Char)
  | 0, _ => none
  | fuel + 1, cs =>
      match readValue fuel cs with
      | some (v, cs) => readMore ']' (readItems fuel) v cs
      | none => none

/-- Fields up to the closing brace. -/
def readFields : Nat → List Char → Option (List (String × Json) × List Char)
  | 0, _ => none
  | fuel + 1, cs =>
      match readKey cs with
      | some (k, cs) =>
          match readValue fuel cs with
          | some (v, cs) => readMore '\x7d' (readFields fuel) (k, v) cs
          | none => none
      | none => none

end

/-- A whole text is one value. -/
def readJson (cs : List Char) : Option Json :=
  match readValue (2 * cs.length + 1) cs with
  | some (v, rest) => if skipSpace rest = [] then some v else none
  | none => none

/-- `json.Unmarshal` into a `map[string]interface{}`: `null` leaves the map
nil, any other value that is no object is refused. -/
def unmarshal (text : String) : Option (Option JsonObject) :=
  match readJson text.toList with
  | some .null => some none
  | some (.obj fs) => some (some fs)
  | _ => none

/-! ## §4. Reading back. -/

mutual

/-- The value is one a Go program can hold: its number literals are literals,
and its maps are kept in the order of their keys, each key once. -/
def IsValue : Json → Prop
  | .num literal => scanNumber literal.toList = some (literal.toList, [])
  | .arr items => AreItems items
  | .obj fields => (fields.map Prod.fst).Pairwise (· < ·) ∧ AreFields fields
  | _ => True

def AreItems : List Json → Prop
  | [] => True
  | v :: vs => IsValue v ∧ AreItems vs

def AreFields : List (String × Json) → Prop
  | [] => True
  | (_, v) :: fs => IsValue v ∧ AreFields fs

end

/-- A key behind all others goes to the end. -/
theorem insertField_last {key : String} (v : Json) {m : JsonObject}
    (h : ∀ f ∈ m, f.1 < key) : insertField key v m = m ++ [(key, v)] := by
  induction m with
  | nil => rfl
  | cons f m ih =>
      have hf := h f List.mem_cons_self
      rw [insertField, if_neg (lt_asymm hf), if_neg (ne_of_gt hf),
        ih fun g hg => h g (List.mem_cons_of_mem _ hg)]
      rfl

theorem foldl_insertField {m fs : JsonObject}
    (h : ((m ++ fs).map Prod.fst).Pairwise (· < ·)) :
    fs.foldl (fun m f => insertField f.1 f.2 m) m = m ++ fs := by
  induction fs generalizing m with
  | nil => exact (List.append_nil m).symm
  | cons f fs ih =>
      have hlast : ∀ g ∈ m, g.1 < f.1 := by
        intro g hg
        rw [List.map_append, List.pairwise_append] at h
        exact h.2.2 g.1 (List.mem_map_of_mem hg) f.1 List.mem_cons_self
      rw [List.foldl_cons, insertField_last f.2 hlast, ih (by simpa using h),
        List.append_assoc, List.singleton_append]

/-- Fields in the order of their keys are the map they make. -/
theorem ofFields_sorted {fs : JsonObject} (h : (fs.map Prod.fst).Pairwise (· < ·)) :
    ofFields fs = fs :=
  foldl_insertField (m := []) h

/-- The first character of a number. -/
theorem scanNumber_head {cs ds r : List Char} (h : scanNumber cs = some (ds, r)) :
    ∃ c cs', cs = c :: cs' ∧ (c = '-' ∨ c.isDigit) := by
  cases cs with
  | nil => cases h
  | cons c cs =>
      refine ⟨c, cs, rfl, ?_⟩
      by_contra hc
      rw [not_or] at hc
      have h0 : c ≠ '0' := by
        intro heq
        subst heq
        exact hc.2 rfl
      simp only [scanNumber, scanMinus, scanInt, hc.1, hc.2, h0, if_false] at h
      cases h

section Heads

variable {c : Char} (hc : c = '-' ∨ c.isDigit)
include hc

theorem readName_number (cs : List Char) : readName (c :: cs) = none := by
  unfold readName
  split
  next h => cases h; exact absurd hc (by decide)
  next h => cases h; exact absurd hc (by decide)
  next h => cases h; exact absurd hc (by decide)
  next => rfl

theorem not_isSpace_number : isSpace c = false := by
  by_contra h
  rw [Bool.not_eq_false] at h
  simp only [isSpace, Bool.or_eq_true, decide_eq_true_eq] at h
  rcases h with ((rfl | rfl) | rfl) | rfl <;> exact absurd hc (by decide)

theorem skipSpace_number (cs : List Char) : skipSpace (c :: cs) = c :: cs := by
  simp [skipSpace, not_isSpace_number hc]

/-- What starts like a number is read as one. -/
theorem readValue_number (fuel : Nat) (cs : List Char) :
    readValue (fuel + 1) (c :: cs)
      = (scanNumber (c :: cs)).map fun r => (.num (String.ofList r.1), r.2) := by
  rw [readValue, skipSpace_number hc]
  split
  next h => cases h; exact absurd hc (by decide)
  next h => cases h; exact absurd hc (by decide)
  next h => cases h; exact absurd hc (by decide)
  next => rw [readScalar, readName_number hc]

end Heads

/-- The characters between values. -/
theorem endsNumber_writeItems (vs : List Json) (rest : List Char) :
    EndsNumber (writeItems vs ++ rest) := by
  cases vs with
  | nil => simp [writeItems, EndsNumber]
  | cons v vs => simp [writeItems, EndsNumber]

theorem endsNumber_writeFields (fs : List (String × Json)) (rest : List Char) :
    EndsNumber (writeFields fs ++ rest) := by
  cases fs with
  | nil => simp [writeFields, EndsNumber]
  | cons f fs => simp [writeFields, EndsNumber]

/-- The first character of a value is no blank and closes no list. -/
theorem write_head {v : Json} (hv : IsValue v) :
    ∃ c cs, write v = c :: cs ∧ isSpace c = false ∧ c ≠ ']' := by
  cases v with
  | null => exact ⟨_, _, rfl, rfl, by decide⟩
  | bool b =>
      cases b with
      | false => exact ⟨_, _, rfl, rfl, by decide⟩
      | true => exact ⟨_, _, rfl, rfl, by decide⟩
  | num literal =>
      simp only [IsValue] at hv
      obtain ⟨c, cs, hcs, hc⟩ := scanNumber_head hv
      refine ⟨c, cs, by rw [write, hcs], not_isSpace_number hc, ?_⟩
      intro heq
      subst heq
      exact absurd hc (by decide)
  | str s => exact ⟨_, _, rfl, rfl, by decide⟩
  | arr items =>
      cases items with
      | nil => exact ⟨_, _, rfl, rfl, by decide⟩
      | cons v vs => exact ⟨'[', _, by rw [write], rfl, by decide⟩
  | obj fields =>
      cases fields with
      | nil => exact ⟨_, _, rfl, rfl, by decide⟩
      | cons f fs => exact ⟨'\x7b', _, by rw [write], rfl, by decide⟩

/-- A list that starts with a value is not closed at once. -/
theorem readList_write {v : Json} (hv : IsValue v)
    (more : List Char → Option (List Json × List Char)) (cs : List Char) :
    readList ']' more (write v ++ cs) = more (write v ++ cs) := by
  obtain ⟨c, cs', hcs, hspace, hclose⟩ := write_head hv
  have hskip : skipSpace (c :: (cs' ++ cs)) = c :: (cs' ++ cs) := by simp [skipSpace, hspace]
  simp only [hcs, List.cons_append, readList, hskip, hclose, if_false]

theorem readKey_write (k : String) (cs : List Char) :
    readKey (writeString k ++ ':' :: cs) = some (k, cs) := by
  have htext : writeString k ++ ':' :: cs
      = '"' :: (k.toList.flatMap escape ++ '"' :: ':' :: cs) := by simp [writeString]
  have hskip : ∀ cs, skipSpace ('"' :: cs) = '"' :: cs := fun _ => rfl
  rw [htext]
  simp only [readKey, hskip, readString_writeString]
  rfl

mutual

/-- A written value is read back, whatever follows it. -/
theorem readValue_write : (v : Json) → IsValue v → ∀ (rest : List Char) (fuel : Nat),
    EndsNumber rest → 2 * (write v ++ rest).length + 1 ≤ fuel →
    readValue fuel (write v ++ rest) = some (v, rest)
  | v, hv, rest, 0, hrest, hfuel => absurd hfuel (by omega)
  | .null, _, rest, fuel + 1, _, _ => rfl
  | .bool true, _, rest, fuel + 1, _, _ => rfl
  | .bool false, _, rest, fuel + 1, _, _ => rfl
  | .num literal, hv, rest, fuel + 1, hrest, _ => by
      simp only [IsValue] at hv
      obtain ⟨c, cs, hcs, hc⟩ := scanNumber_head hv
      have hscan := scanNumber_extend hrest hv
      rw [List.nil_append] at hscan
      rw [write, hcs, List.cons_append, readValue_number hc, ← List.cons_append, ← hcs, hscan,
        Option.map_some, String.ofList_toList]
  | .str s, _, rest, fuel + 1, _, _ => by
      have htext : write (.str s) ++ rest = '"' :: (s.toList.flatMap escape ++ '"' :: rest) := by
        simp [write, writeString]
      rw [htext]
      show (readString _).map _ = _
      rw [readString_writeString]
      rfl
  | .arr [], _, rest, fuel + 1, _, _ => rfl
  | .arr (v :: vs), hv, rest, fuel + 1, hrest, hfuel => by
      simp only [IsValue, AreItems] at hv
      have htext : write (.arr (v :: vs)) ++ rest = '[' :: (write v ++ (writeItems vs ++ rest)) := by
        simp [write]
      rw [htext, List.length_cons] at hfuel
      rw [htext]
      show (readList ']' (readItems fuel) _).map _ = _
      rw [readList_write hv.1, readItems_write v vs hv.1 hv.2 rest fuel (by omega)]
      rfl
  | .obj [], _, rest, fuel + 1, _, _ => rfl
  | .obj ((k, v) :: fs), hv, rest, fuel + 1, hrest, hfuel => by
      simp only [IsValue, AreFields] at hv
      have htext : write (.obj ((k, v) :: fs)) ++ rest
          = '\x7b' :: (writeString k ++ ':' :: (write v ++ (writeFields fs ++ rest))) := by
        simp [write]
      rw [htext, List.length_cons] at hfuel
      rw [htext]
      have hfields := readFields_write k v fs hv.2.1 hv.2.2 rest fuel (by omega)
      show (readFields fuel (writeString k ++ ':' :: _)).map _ = _
      rw [hfields, Option.map_some, ofFields_sorted hv.1]
termination_by v => sizeOf v

theorem readItems_write (v : Json) (vs : List Json) (hv : IsValue v) (hvs : AreItems vs)
    (rest : List Char) (fuel : Nat)
    (hfuel : 2 * (write v ++ (writeItems vs ++ rest)).length + 2 ≤ fuel) :
    readItems fuel (write v ++ (writeItems vs ++ rest)) = some (v :: vs, rest) := by
  match fuel, vs with
  | 0, _ => omega
  | fuel + 1, [] =>
      rw [readItems, readValue_write v hv _ fuel (endsNumber_writeItems [] rest) (by omega)]
      rfl
  | fuel + 1, w :: ws =>
      rw [readItems, readValue_write v hv _ fuel (endsNumber_writeItems (w :: ws) rest) (by omega)]
      have htext : writeItems (w :: ws) ++ rest = ',' :: (write w ++ (writeItems ws ++ rest)) := by
        simp [writeItems]
      rw [htext, List.length_append, List.length_cons] at hfuel
      simp only [AreItems] at hvs
      rw [htext]
      show (readItems fuel _).map _ = _
      rw [readItems_write w ws hvs.1 hvs.2 rest fuel (by omega)]
      rfl
termination_by sizeOf (v :: vs)

theorem readFields_write (k : String) (v : Json) (fs : List (String × Json)) (hv : IsValue v)
    (hfs : AreFields fs) (rest : List Char) (fuel : Nat)
    (hfuel : 2 * (writeString k ++ ':' :: (write v ++ (writeFields fs ++ rest))).length + 2 ≤ fuel) :
    readFields fuel (writeString k ++ ':' :: (write v ++ (writeFields fs ++ rest)))
      = some ((k, v) :: fs, rest) := by
  match fuel, fs with
  | 0, _ => omega
  | fuel + 1, [] =>
      rw [List.length_append, List.length_cons] at hfuel
      simp only [readFields, readKey_write,
        readValue_write v hv _ fuel (endsNumber_writeFields [] rest) (by omega)]
      rfl
  | fuel + 1, (l, w) :: gs =>
      rw [List.length_append, List.length_cons] at hfuel
      simp only [readFields, readKey_write,
        readValue_write v hv _ fuel (endsNumber_writeFields ((l, w) :: gs) rest) (by omega)]
      have htext : writeFields ((l, w) :: gs) ++ rest
          = ',' :: (writeString l ++ ':' :: (write w ++ (writeFields gs ++ rest))) := by
        simp [writeFields]
      rw [htext, List.length_append, List.length_cons] at hfuel
      simp only [AreFields] at hfs
      rw [htext]
      show (readFields fuel _).map _ = _
      rw [readFields_write l w gs hfs.1 hfs.2 rest fuel (by omega)]
      rfl
termination_by sizeOf v + sizeOf fs

end

/-- **What `Marshal` wrote, `Unmarshal` reads back.** -/
theorem unmarshal_marshal {m : JsonObject} (h : IsValue (.obj m)) :
    unmarshal (marshal m) = some (some m) := by
  have hread := readValue_write (.obj m) h [] (2 * (write (.obj m)).length + 1) trivial
    (by rw [List.append_nil])
  rw [List.append_nil] at hread
  simp only [unmarshal, marshal, String.toList_ofList, readJson, hread]
  rfl

/-! ## §5. Looking into a map. -/

/-- Where each key stands once, a lookup finds every field. -/
theorem lookup_eq_some_iff {m : JsonObject} (h : (m.map Prod.fst).Pairwise (· < ·)) {k : String}
    {v : Json} : m.lookup k = some v ↔ (k, v) ∈ m := by
  induction m with
  | nil => simp
  | cons f m ih =>
      obtain ⟨l, w⟩ := f
      rw [List.map_cons, List.pairwise_cons] at h
      rw [List.lookup_cons, List.mem_cons, Prod.mk.injEq]
      by_cases hk : k = l
      · subst hk
        simp only [beq_self_eq_true, Option.some.injEq, true_and]
        constructor
        · intro hw
          exact .inl hw.symm
        · rintro (hw | hin)
          · exact hw.symm
          · exact absurd (h.1 k (List.mem_map_of_mem hin)) (lt_irrefl k)
      · have hbeq : (k == l) = false := beq_false_of_ne hk
        simp only [hbeq, hk, false_and, false_or]
        exact ih h.2

theorem isValue_of_mem {m : JsonObject} (h : AreFields m) {k : String} {v : Json}
    (hin : (k, v) ∈ m) : IsValue v := by
  induction m with
  | nil => cases hin
  | cons f m ih =>
      obtain ⟨l, w⟩ := f
      rw [AreFields] at h
      rcases List.mem_cons.mp hin with heq | hin
      · cases heq
        exact h.1
      · exact ih h.2 hin

end Mainflux.Lib.Json
