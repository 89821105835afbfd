/-
  Mainflux.Lib.Postgres
  ─────────────────────
  **WHAT A CLIENT SEES OF POSTGRESQL.**

    • the `uuid` type: `uuidIn` reads every textual form the server accepts
      (either case, braces, a hyphen after any group of four digits),
      `uuidOut` prints the canonical lower-case form; reading back what was
      printed gives the same value (`uuidIn_uuidOut`);
    • `varchar(n)` lengths, `timestamp` range and rounding, `jsonb` values;
    • the error classes a statement can fail with;
    • transactions: statements one after another on a working copy, all or
      nothing (`transaction`), with the rule that what every statement
      preserves the transaction preserves (`transaction_rel`).
-/
import Mathlib.Algebra.Ring.Nat
import Mathlib.Data.List.Basic

namespace Mainflux.Lib

/-! ## §1. Error classes and column types. -/

/-- The error classes (condition names) a statement fails with. -/
inductive PqError
  | uniqueViolation
  | foreignKeyViolation
  | notNullViolation
  | invalidTextRepresentation
  | stringDataRightTruncation
  | numericValueOutOfRange
  | datetimeFieldOverflow
  deriving Repr, DecidableEq

/-- `varchar(n)` holds at most `n` characters; a longer text is refused (the
server forgives excess blanks, which no caller relies on). -/
def fitsVarchar (n : Nat) (s : String) : Prop := s.length ≤ n

instance (n : Nat) (s : String) : Decidable (fitsVarchar n s) :=
  inferInstanceAs (Decidable (s.length ≤ n))

/-- The range of `timestamp`, from 4713 BC to 294276 AD, in nanoseconds since
1970. -/
def fitsTimestamp (t : Int) : Prop := -210866803200000000000 ≤ t ∧ t < 9224318016000000000000

instance (t : Int) : Decidable (fitsTimestamp t) :=
  inferInstanceAs (Decidable (_ ∧ _))

/-- `timestamp` keeps microseconds: nanoseconds are rounded, half to even. -/
def timestamp (t : Int) : Int :=
  if t % 1000 < 500 ∨ t % 1000 = 500 ∧ t / 1000 % 2 = 0 then t / 1000 * 1000
  else (t / 1000 + 1) * 1000

/-- A JSON value (a number is kept as its literal). -/
inductive Json
  | null
  | bool (b : Bool)
  | num (literal : String)
  | str (s : String)
  | arr (items : List Json)
  | obj (fields : List (String × Json))

mutual

/-- Equality of JSON values is decided by the shape of the value. -/
def Json.decEq : (a b : Json) → Decidable (a = b)
  | .null, .null => isTrue rfl
  | .bool a, .bool b => if h : a = b then isTrue (by rw [h]) else isFalse (by simpa using h)
  | .num a, .num b => if h : a = b then isTrue (by rw [h]) else isFalse (by simpa using h)
  | .str a, .str b => if h : a = b then isTrue (by rw [h]) else isFalse (by simpa using h)
  | .arr a, .arr b =>
      match Json.decEqItems a b with
      | isTrue h => isTrue (by rw [h])
      | isFalse h => isFalse (by simpa using h)
  | .obj a, .obj b =>
      match Json.decEqFields a b with
      | isTrue h => isTrue (by rw [h])
      | isFalse h => isFalse (by simpa using h)
  | .null, .bool _ | .null, .num _ | .null, .str _ | .null, .arr _ | .null, .obj _
  | .bool _, .null | .bool _, .num _ | .bool _, .str _ | .bool _, .arr _ | .bool _, .obj _
  | .num _, .null | .num _, .bool _ | .num _, .str _ | .num _, .arr _ | .num _, .obj _
  | .str _, .null | .str _, .bool _ | .str _, .num _ | .str _, .arr _ | .str _, .obj _
  | .arr _, .null | .arr _, .bool _ | .arr _, .num _ | .arr _, .str _ | .arr _, .obj _
  | .obj _, .null | .obj _, .bool _ | .obj _, .num _ | .obj _, .str _ | .obj _, .arr _ =>
      isFalse (by simp)

def Json.decEqItems : (a b : List Json) → Decidable (a = b)
  | [], [] => isTrue rfl
  | [], _ :: _ => isFalse (by simp)
  | _ :: _, [] => isFalse (by simp)
  | x :: xs, y :: ys =>
      match Json.decEq x y, Json.decEqItems xs ys with
      | isTrue h1, isTrue h2 => isTrue (by rw [h1, h2])
      | isFalse h, _ => isFalse (by simp [h])
      | _, isFalse h => isFalse (by simp [h])

def Json.decEqFields : (a b : List (String × Json)) → Decidable (a = b)
  | [], [] => isTrue rfl
  | [], _ :: _ => isFalse (by simp)
  | _ :: _, [] => isFalse (by simp)
  | (k, x) :: xs, (l, y) :: ys =>
      match instDecidableEqString k l, Json.decEq x y, Json.decEqFields xs ys with
      | isTrue h0, isTrue h1, isTrue h2 => isTrue (by rw [h0, h1, h2])
      | isFalse h, _, _ => isFalse (by simp [h])
      | _, isFalse h, _ => isFalse (by simp [h])
      | _, _, isFalse h => isFalse (by simp [h])

end

instance : DecidableEq Json := Json.decEq

/-- The fields of a JSON object. -/
abbrev JsonObject := List (String × Json)

/-! ## §2. The `uuid` type. -/

/-- A UUID: sixteen bytes, kept as thirty-two hexadecimal digits. -/
structure UUID where
  digits : List (Fin 16)
  size : digits.length = 32
  deriving DecidableEq

/-- The lower-case digit. -/
def hexChar (d : Fin 16) : Char :=
  ['0', '1', '2', '3', '4', '5', '6', '7', '8', '9', 'a', 'b', 'c', 'd', 'e', 'f'].getD d '0'

/-- The value of a digit of either case. -/
def hexVal (c : Char) : Option (Fin 16) :=
  if '0' ≤ c ∧ c ≤ '9' then some (Fin.ofNat 16 (c.toNat - 48))
  else if 'a' ≤ c ∧ c ≤ 'f' then some (Fin.ofNat 16 (c.toNat - 87))
  else if 'A' ≤ c ∧ c ≤ 'F' then some (Fin.ofNat 16 (c.toNat - 55))
  else none

/-- Drop a leading hyphen. -/
def skipHyphen : List Char → List Char
  | '-' :: cs => cs
  | cs => cs

/-- Read `n` bytes of two digits each; a hyphen may follow every second byte
except the last. -/
def readBytes : Nat → List Char → Option (List (Fin 16) × List Char)
  | 0, cs => some ([], cs)
  | n + 1, hi :: lo :: cs =>
      match hexVal hi, hexVal lo with
      | some h, some l =>
          -- byte number `15 - n` is the second of its pair when `n` is even
          match readBytes n (if n % 2 = 0 ∧ 0 < n then skipHyphen cs else cs) with
          | some (ds, rest) => some (h :: l :: ds, rest)
          | none => none
      | _, _ => none
  | _ + 1, _ => none

/-- The digits of a UUID literal, if the whole text is one. -/
def readDigits : List Char → Option (List (Fin 16))
  | '{' :: cs =>
      match readBytes 16 cs with
      | some (ds, ['}']) => some ds
      | _ => none
  | cs =>
      match readBytes 16 cs with
      | some (ds, []) => some ds
      | _ => none

/-- `uuid_in`. -/
def uuidIn (s : String) : Option UUID :=
  match readDigits s.toList with
  | some ds => if h : ds.length = 32 then some ⟨ds, h⟩ else none
  | none => none

/-- The canonical text of a digit list: groups of 8, 4, 4, 4 and 12. -/
def canonical (ds : List (Fin 16)) : List Char :=
  let cs := ds.map hexChar
  cs.take 8 ++ '-' :: (cs.drop 8).take 4 ++ '-' :: (cs.drop 12).take 4 ++
    '-' :: (cs.drop 16).take 4 ++ '-' :: cs.drop 20

/-- `uuid_out`. -/
def uuidOut (u : UUID) : String := String.ofList (canonical u.digits)

theorem hexVal_hexChar (d : Fin 16) : hexVal (hexChar d) = some d := by
  revert d; decide

theorem hexChar_ne_brace (d : Fin 16) : hexChar d ≠ '{' := by
  revert d; decide

theorem hexChar_ne_hyphen (d : Fin 16) : hexChar d ≠ '-' := by
  revert d; decide

@[simp] theorem skipHyphen_hyphen (cs : List Char) : skipHyphen ('-' :: cs) = cs := rfl

@[simp] theorem skipHyphen_hexChar (d : Fin 16) (cs : List Char) :
    skipHyphen (hexChar d :: cs) = hexChar d :: cs := by
  unfold skipHyphen
  split
  next h => exact absurd (List.cons.inj h).1 (hexChar_ne_hyphen d)
  next => rfl

/-- Reading one printed byte. -/
theorem readBytes_hexChar (n : Nat) (h l : Fin 16) (cs : List Char) :
    readBytes (n + 1) (hexChar h :: hexChar l :: cs)
      = (readBytes n (if n % 2 = 0 ∧ 0 < n then skipHyphen cs else cs)).map
          (fun r => (h :: l :: r.1, r.2)) := by
  simp only [readBytes, hexVal_hexChar]
  cases readBytes n (if n % 2 = 0 ∧ 0 < n then skipHyphen cs else cs) <;> rfl

theorem readDigits_of_ne_brace {c : Char} {cs : List Char} (hc : c ≠ '{')
    {ds : List (Fin 16)} (h : readBytes 16 (c :: cs) = some (ds, [])) :
    readDigits (c :: cs) = some ds := by
  unfold readDigits
  split
  next heq => exact absurd (List.cons.inj heq).1 hc
  next => rw [h]

theorem readDigits_canonical (ds : List (Fin 16)) (h : ds.length = 32) :
    readDigits (canonical ds) = some ds := by
  match ds, h with
  | [d0, d1, d2, d3, d4, d5, d6, d7, d8, d9, d10, d11, d12, d13, d14, d15,
     d16, d17, d18, d19, d20, d21, d22, d23, d24, d25, d26, d27, d28, d29, d30, d31], _ =>
      simp only [canonical, List.map_cons, List.map_nil, List.take_succ_cons, List.take_zero,
        List.drop_succ_cons, List.drop_zero, List.cons_append, List.nil_append]
      refine readDigits_of_ne_brace (hexChar_ne_brace d0) ?_
      simp [readBytes_hexChar, readBytes, hexVal_hexChar]

/-- **Reading a printed UUID gives it back.** -/
@[simp] theorem uuidIn_uuidOut (u : UUID) : uuidIn (uuidOut u) = some u := by
  obtain ⟨ds, h⟩ := u
  simp only [uuidIn, uuidOut, String.toList_ofList, readDigits_canonical ds h, h, dite_true]

theorem skipHyphen_cases {cs : List Char} : cs = skipHyphen cs ∨ cs = '-' :: skipHyphen cs := by
  unfold skipHyphen
  split
  · exact .inr rfl
  · exact .inl rfl

/-- What has been read are digits and hyphens. -/
theorem readBytes_chars {n : Nat} {cs rest : List Char} {ds : List (Fin 16)}
    (h : readBytes n cs = some (ds, rest)) :
    ∃ front, cs = front ++ rest ∧ ∀ c ∈ front, (hexVal c).isSome ∨ c = '-' := by
  induction n generalizing cs ds with
  | zero =>
      obtain ⟨-, rfl⟩ := Prod.mk.inj (Option.some.inj h)
      exact ⟨[], rfl, fun c hc => absurd hc List.not_mem_nil⟩
  | succ n ih =>
      match cs with
      | [] => cases h
      | [_] => cases h
      | hi :: lo :: cs =>
          simp only [readBytes] at h
          split at h
          next d e hhi hlo =>
              split at h
              next ds' rest' hread =>
                  obtain ⟨-, rfl⟩ := Prod.mk.inj (Option.some.inj h)
                  obtain ⟨front, hfront, hchars⟩ := ih hread
                  have hdigits : ∀ c, c = hi ∨ c = lo → (hexVal c).isSome := by
                    rintro c (rfl | rfl)
                    · rw [hhi]
                      rfl
                    · rw [hlo]
                      rfl
                  -- the hyphen, if there is one
                  have hhyphen : ∃ mid : List Char, cs = mid ++ (front ++ rest') ∧ ∀ c ∈ mid, c = '-' := by
                    split at hfront
                    · rcases @skipHyphen_cases cs with heq | heq
                      · exact ⟨[], by rw [← hfront]; exact heq, by simp⟩
                      · exact ⟨['-'], by rw [← hfront]; exact heq, by simp⟩
                    · exact ⟨[], hfront, by simp⟩
                  obtain ⟨mid, rfl, hmid⟩ := hhyphen
                  refine ⟨hi :: lo :: (mid ++ front), by simp, fun c hc => ?_⟩
                  simp only [List.mem_cons, List.mem_append] at hc
                  rcases hc with rfl | rfl | hc | hc
                  · exact .inl (hdigits _ (.inl rfl))
                  · exact .inl (hdigits _ (.inr rfl))
                  · exact .inr (hmid c hc)
                  · exact hchars c hc
              next => cases h
          next => cases h

/-- A text that is read as a UUID has digits, hyphens and braces. -/
theorem uuidIn_chars {s : String} {u : UUID} (h : uuidIn s = some u) :
    ∀ c ∈ s.toList, (hexVal c).isSome ∨ c = '-' ∨ c = '{' ∨ c = '}' := by
  unfold uuidIn at h
  split at h
  next ds hdigits =>
      unfold readDigits at hdigits
      split at hdigits
      next cs hcs =>
          split at hdigits
          next ds' hread =>
              obtain ⟨front, hfront, hchars⟩ := readBytes_chars hread
              intro c hc
              rw [hcs, hfront] at hc
              simp only [List.mem_cons, List.mem_append, List.not_mem_nil, or_false] at hc
              rcases hc with rfl | hc | rfl
              · simp
              · exact (hchars c hc).imp_right .inl
              · simp
          next => cases hdigits
      next =>
          split at hdigits
          next ds' hread =>
              obtain ⟨front, hfront, hchars⟩ := readBytes_chars hread
              intro c hc
              rw [hfront, List.append_nil] at hc
              exact (hchars c hc).imp_right .inl
          next => cases hdigits
  next => cases h

theorem uuidOut_injective {u v : UUID} (h : uuidOut u = uuidOut v) : u = v := by
  have := uuidIn_uuidOut u
  rw [h, uuidIn_uuidOut] at this
  exact (Option.some.inj this).symm

@[simp] theorem uuidOut_inj {u v : UUID} : uuidOut u = uuidOut v ↔ u = v :=
  ⟨uuidOut_injective, fun h => by rw [h]⟩

/-- The UUID all of whose digits are `n`. -/
def UUID.fill (n : Nat) : UUID := ⟨List.replicate 32 (Fin.ofNat 16 n), List.length_replicate⟩

theorem UUID.eq_of_fill_eq {m n : Nat} (hm : m < 16) (hn : n < 16)
    (h : UUID.fill m = UUID.fill n) : m = n := by
  have hhead := congrArg (fun u : UUID => u.digits.head?) h
  simp only [UUID.fill, List.head?_replicate] at hhead
  have hval := congrArg Fin.val (Option.some.inj hhead)
  simp only [Fin.ofNat, Nat.mod_eq_of_lt hm, Nat.mod_eq_of_lt hn] at hval
  exact hval

/-- Upper case reads as lower case does. -/
example : uuidIn "{AAAAAAAA-AAAA-AAAA-AAAA-AAAAAAAAAAAA}" = some (UUID.fill 10) := by
  decide +kernel

/-! ## §3. Transactions. -/

section Transactions

variable {δ ε : Type}

/-- Statements one after another on a working copy.  The first failure ends
the transaction with its error. -/
def transaction : List (δ → Except ε δ) → δ → Except ε δ
  | [], d => .ok d
  | q :: qs, d =>
      match q d with
      | .ok d' => transaction qs d'
      | .error e => .error e

/-- The statements of one list, then those of the other. -/
theorem transaction_append (qs rs : List (δ → Except ε δ)) (d : δ) :
    transaction (qs ++ rs) d
      = match transaction qs d with
        | .ok d' => transaction rs d'
        | .error e => .error e := by
  induction qs generalizing d with
  | nil => rfl
  | cons q qs ih =>
      simp only [List.cons_append, transaction]
      cases q d with
      | ok d' => exact ih d'
      | error e => rfl

/-- What every statement of a transaction relates, in a reflexive and
transitive way, the committed transaction relates. -/
theorem transaction_rel {R : δ → δ → Prop} (hrefl : ∀ d, R d d)
    (htrans : ∀ {a b c}, R a b → R b c → R a c)
    {qs : List (δ → Except ε δ)} (hq : ∀ q ∈ qs, ∀ d d', q d = .ok d' → R d d')
    {d d' : δ} (h : transaction qs d = .ok d') : R d d' := by
  induction qs generalizing d with
  | nil =>
      cases h
      exact hrefl _
  | cons q qs ih =>
      simp only [transaction] at h
      cases hd : q d with
      | error e => rw [hd] at h; cases h
      | ok d1 =>
          rw [hd] at h
          exact htrans (hq q List.mem_cons_self d d1 hd)
            (ih (fun q' hq' => hq q' (List.mem_cons_of_mem _ hq')) h)

/-- What every statement of a transaction preserves, the committed
transaction preserves. -/
theorem transaction_inv {I : δ → Prop} {qs : List (δ → Except ε δ)}
    (hq : ∀ q ∈ qs, ∀ d d', q d = .ok d' → I d → I d')
    {d d' : δ} (h : transaction qs d = .ok d') (hd : I d) : I d' :=
  transaction_rel (R := fun a b => I a → I b) (fun _ h => h)
    (fun hab hbc ha => hbc (hab ha)) hq h hd

/-- A part of the tables that no statement of a transaction touches. -/
theorem transaction_keeps {γ : Type} (f : δ → γ) {qs : List (δ → Except ε δ)}
    (hq : ∀ q ∈ qs, ∀ d d', q d = .ok d' → f d' = f d)
    {d d' : δ} (h : transaction qs d = .ok d') : f d' = f d := by
  refine transaction_rel (R := fun a b => f b = f a) (fun _ => rfl) ?_ hq h
  intro a b c hab hbc
  exact hbc.trans hab

end Transactions

end Mainflux.Lib
