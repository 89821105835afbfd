/-
  Mainflux.Lib.InfluxQL
  ─────────────────────
  **CONDITIONS OF INFLUXQL.**

  The part of the query language of InfluxDB in which a query asks for rows whose columns
  have given values: equalities of a column and a string literal, joined by `AND`.

  A literal stands between two quotes and is one line of text.  A backslash in it is
  followed by one of four characters and stands for what that one stands for; anything
  else behind a backslash is an error.  Columns are names, or are quoted in the same way.

    • `scanString_cons`, `scanString_escape` — one character of a literal;
    • `scanString_inv`, `scanString_escape_inv` — and what it must have been, from what
      has been read;
    • `scanIdent_name` — a name.
-/
import Mainflux.Lib.Text

namespace Mainflux.Lib.InfluxQL

/-! ## §1. Literals. -/

/-- Not in a literal: the reader of the scanner takes a carriage return for the end of a
line, and a NUL for the end of the text. -/
def isBreak (c : Char) : Bool := c == '\n' || c == '\r' || c == '\x00'

/-- What a character stands for behind a backslash. -/
def unescape (c : Char) : Option Char :=
  if c = 'n' then some '\n'
  else if c = '\\' ∨ c = '"' ∨ c = '\'' then some c
  else none

/-- `ScanString`, behind the first quote: the text, and what follows the last quote. -/
def scanString (ending : Char) : Text → Option (Text × Text)
  | [] => none
  | [c] => if c = ending then some ([], []) else none
  | c :: d :: cs =>
      if c = ending then some ([], d :: cs)
      else if isBreak c then none
      else if c = '\\' then
        -- the two characters are one
        match unescape d with
        | none => none
        | some e => (scanString ending cs).map fun r => (e :: r.1, r.2)
      else (scanString ending (d :: cs)).map fun r => (c :: r.1, r.2)

section Scan

variable {ending : Char}

theorem scanString_ending (cs : Text) : scanString ending (ending :: cs) = some ([], cs) := by
  cases cs with
  | nil => simp [scanString]
  | cons d cs => simp [scanString]

/-- A character that stands for itself. -/
theorem scanString_cons {c : Char} (cs : Text) (hend : c ≠ ending) (hbreak : isBreak c = false)
    (hback : c ≠ '\\') :
    scanString ending (c :: cs) = (scanString ending cs).map fun r => (c :: r.1, r.2) := by
  cases cs with
  | nil => simp [scanString, hend]
  | cons d cs => simp [scanString, hend, hbreak, hback]

theorem scanString_break {c : Char} (cs : Text) (hend : c ≠ ending) (hbreak : isBreak c = true) :
    scanString ending (c :: cs) = none := by
  cases cs with
  | nil => simp [scanString, hend]
  | cons d cs => simp [scanString, hend, hbreak]

/-- A backslash and the character behind it. -/
theorem scanString_escape (d : Char) (cs : Text) (hend : ending ≠ '\\') :
    scanString ending ('\\' :: d :: cs)
      = (unescape d).bind fun e => (scanString ending cs).map fun r => (e :: r.1, r.2) := by
  have hbreak : isBreak '\\' = false := by decide
  simp only [scanString, if_neg hend.symm, hbreak, Bool.false_eq_true, if_false, if_true]
  cases unescape d with
  | none => rfl
  | some e => rfl

/-- The first character of a text that does not start with a backslash. -/
theorem scanString_inv {c d : Char} {cs x r : Text} (hback : c ≠ '\\')
    (h : scanString ending (c :: cs) = some (d :: x, r)) :
    c ≠ ending ∧ isBreak c = false ∧ d = c ∧ scanString ending cs = some (x, r) := by
  by_cases hend : c = ending
  · subst hend
    rw [scanString_ending] at h
    cases h
  by_cases hbreak : isBreak c = true
  · rw [scanString_break cs hend hbreak] at h
    cases h
  have hbreak : isBreak c = false := Bool.eq_false_iff.mpr hbreak
  rw [scanString_cons cs hend hbreak hback] at h
  obtain ⟨y, hy, heq⟩ := Option.map_eq_some_iff.mp h
  obtain ⟨⟨rfl, rfl⟩, rfl⟩ := (by simpa using heq : (c = d ∧ y.1 = x) ∧ y.2 = r)
  exact ⟨hend, hbreak, rfl, hy⟩

/-- The first character of a text that starts with a backslash. -/
theorem scanString_escape_inv {d : Char} {cs x r : Text} (hend : ending ≠ '\\')
    (h : scanString ending ('\\' :: cs) = some (d :: x, r)) :
    ∃ c cs', cs = c :: cs' ∧ unescape c = some d ∧ scanString ending cs' = some (x, r) := by
  cases cs with
  | nil => simp [scanString, hend.symm] at h
  | cons c cs' =>
      rw [scanString_escape c cs' hend] at h
      obtain ⟨e, he, h⟩ := Option.bind_eq_some_iff.mp h
      obtain ⟨y, hy, heq⟩ := Option.map_eq_some_iff.mp h
      obtain ⟨⟨rfl, rfl⟩, rfl⟩ := (by simpa using heq : (e = d ∧ y.1 = x) ∧ y.2 = r)
      exact ⟨c, cs', rfl, he, hy⟩

end Scan

/-! ## §2. Conditions. -/

def isBlank (c : Char) : Bool := c == ' ' || c == '\t' || c == '\n'

def skipBlank (s : Text) : Text := s.dropWhile isBlank

def isIdentFirst (c : Char) : Bool := c.isAlpha || c == '_'

def isIdentChar (c : Char) : Bool := c.isAlphanum || c == '_'

/-- The words that are no names, whatever their case. -/
def keywords : List String :=
  ["all", "alter", "analyze", "and", "any", "as", "asc", "begin", "by", "cardinality",
    "create", "continuous", "database", "databases", "default", "delete", "desc",
    "destinations", "diagnostics", "distinct", "drop", "duration", "end", "every", "exact",
    "explain", "false", "field", "for", "from", "grant", "grants", "group", "groups", "in",
    "inf", "insert", "into", "key", "keys", "kill", "limit", "measurement", "measurements",
    "name", "offset", "on", "or", "order", "password", "policy", "policies", "privileges",
    "queries", "query", "read", "replication", "resample", "retention", "revoke", "select",
    "series", "set", "show", "shard", "shards", "slimit", "soffset", "stats", "subscription",
    "subscriptions", "tag", "to", "true", "user", "users", "values", "where", "with",
    "write"]

/-- A word, and what follows it. -/
def word (s : Text) : Text × Text := (s.takeWhile isIdentChar, s.dropWhile isIdentChar)

def lower (s : Text) : String := String.ofList (s.map Char.toLower)

/-- The name of a column. -/
def scanIdent : Text → Option (Text × Text)
  | [] => none
  | c :: cs =>
      -- quoted, with the escapes of a literal
      if c = '"' then scanString '"' cs
      else if !isIdentFirst c then none
      else if lower (word (c :: cs)).1 ∈ keywords then none
      else some (word (c :: cs))

/-- `AND`. -/
def scanAnd (s : Text) : Option Text := if lower (word s).1 = "and" then some (word s).2 else none

/-- A column and a literal that it equals, and what follows. -/
def parseEquality (s : Text) : Option ((Text × Text) × Text) :=
  match scanIdent (skipBlank s) with
  | none => none
  | some (name, s) =>
      match skipBlank s with
      | '=' :: s =>
          match skipBlank s with
          | '\'' :: s => (scanString '\'' s).map fun r => ((name, r.1), r.2)
          | _ => none
      | _ => none

/-- What follows an equality, with at most as many further ones as the first argument. -/
def parseRest : Nat → Text → Option (List (Text × Text))
  | 0, s => if skipBlank s = [] then some [] else none
  | fuel + 1, s =>
      if skipBlank s = [] then some []
      else
        match (scanAnd (skipBlank s)).bind parseEquality with
        | none => none
        | some (eq, s) => (parseRest fuel s).map (eq :: ·)

/-- **A condition**: the equalities it joins, in their order; `none` for a text that is an
error, or a condition of another form. -/
def parseCondition (s : Text) : Option (List (Text × Text)) :=
  match parseEquality s with
  | none => none
  | some (eq, s) => (parseRest s.length s).map (eq :: ·)

/-- A name that is no keyword, up to the equals sign behind it. -/
theorem scanIdent_name {c : Char} {name : Text} (t : Text) (hfirst : isIdentFirst c = true)
    (hname : ∀ d ∈ c :: name, isIdentChar d = true) (hword : lower (c :: name) ∉ keywords) :
    scanIdent (c :: name ++ '=' :: t) = some (c :: name, '=' :: t) := by
  -- the equals sign ends the word
  have hstop : isIdentChar '=' = false := by decide
  have hcut : word (c :: (name ++ '=' :: t)) = (c :: name, '=' :: t) := by
    rw [← List.cons_append, word, List.takeWhile_append_of_pos hname,
      List.dropWhile_append_of_pos hname, List.takeWhile_cons_of_neg (by simp [hstop]),
      List.dropWhile_cons_of_neg (by simp [hstop]), List.append_nil]
  have hquote : c ≠ '"' := by
    rintro rfl
    exact absurd hfirst (by decide)
  rw [List.cons_append, scanIdent, if_neg hquote, hfirst, hcut, if_neg (by decide), if_neg hword]

end Mainflux.Lib.InfluxQL
