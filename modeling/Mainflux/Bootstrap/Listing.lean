/-
  Mainflux.Bootstrap.Listing
  ──────────────────────────
  **WHICH CONFIGS A LISTING SHOWS.**

  `parseFilter` sorts the query of the URL into two maps, and `retrieveAll`
  turns each entry of these maps into a comparison with a numbered parameter.
  The maps are walked in any order; the numbers line up all the same
  (`all_retrieveAll`).  What the comparisons MEAN is another matter:

    • `mainflux_id` is no column of `configs`, so the statement is refused;
    • `LIKE` takes `%`, `_` and `\` for patterns, and NULL matches nothing;
    • `mainflux_key` is `CHAR(36)`, which does not count blanks at the end;
    • the driver takes no offset and no limit of 2^63 or more.

  `listsExactly_iff_sound` says for which queries the page is what was asked for, whatever
  the tables hold.
-/
import Mathlib.Data.List.DropRight
import Mainflux.Bootstrap.Configs
import Mainflux.Lib.Like

namespace Mainflux.Bootstrap

open Mainflux.Lib
open Mainflux.Lib.Like

/-! ## §1. The filter. -/

/-- `url.Values`: a map, in the order of a loop over it. -/
structure Values where
  entries : List (String × List String)
  keys : (entries.map Prod.fst).Nodup

/-- `values.Get`. -/
def Values.get (values : Values) (k : String) : String :=
  ((values.entries.lookup k).getD []).headD ""

/-- The value of a parameter that the query has. -/
def Values.given (values : Values) (k : String) : Option String :=
  (values.entries.lookup k).map fun vs => vs.headD ""

/-- `bootstrap.Filter`, with its maps in the order of a loop over them. -/
structure Filter where
  fullMatch : List (String × String)
  partialMatch : List (String × String)

/-- `fullMatch` of `transport.go`. -/
def fullMatch : List String := ["state", "external_id", "mainflux_id", "mainflux_key"]

/-- `partialMatch` of `transport.go`. -/
def partialMatch : List String := ["name"]

/-- `strings.ToLower`. -/
def toLower (m : CaseMap) (s : String) : String := String.ofList (m.map s.toList)

/-- `parseFilter`. -/
def parseFilter (m : CaseMap) (values : Values) : Filter :=
  let keys := values.entries.map Prod.fst
  { fullMatch := (keys.filter (· ∈ fullMatch)).map fun k => (k, values.get k)
    partialMatch := (keys.filter (· ∈ partialMatch)).map fun k => (k, toLower m (values.get k)) }

/-! ## §2. The clause. -/

inductive Op
  | eq
  /-- `LOWER(column) LIKE '%' || $n || '%'`. -/
  | like
  deriving DecidableEq

/-- A comparison of a column with the parameter of that number. -/
structure Comparison where
  column : String
  op : Op
  number : Nat

/-- The variables of `retrieveAll`. -/
structure Clause where
  queries : List Comparison
  params : List String
  counter : Nat

/-- The body of both loops. -/
def Clause.add (op : Op) (c : Clause) (kv : String × String) : Clause where
  queries := c.queries ++ [⟨kv.1, op, c.counter⟩]
  params := c.params ++ [kv.2]
  counter := c.counter + 1

/-- `retrieveAll`. -/
def retrieveAll (key : String) (filter : Filter) : Clause :=
  filter.partialMatch.foldl (Clause.add .like)
    (filter.fullMatch.foldl (Clause.add .eq) ⟨[⟨"owner", .eq, 1⟩], [key], 2⟩)

/-- `P` of every comparison, with its parameter. -/
def Clause.all (P : String → Op → String → Bool) (c : Clause) : Bool :=
  c.queries.all fun q =>
    match c.params[q.number - 1]? with
    | some v => P q.column q.op v
    | none => false

/-- Every number is that of a parameter, and the counter comes next. -/
structure Clause.Numbered (c : Clause) : Prop where
  counter : c.counter = c.params.length + 1
  number : ∀ q ∈ c.queries, 1 ≤ q.number ∧ q.number ≤ c.params.length

theorem Clause.Numbered.add {c : Clause} (h : c.Numbered) (op : Op) (kv : String × String) :
    (c.add op kv).Numbered := by
  have hlength : (c.add op kv).params.length = c.params.length + 1 := by
    simp only [Clause.add, List.length_append, List.length_singleton]
  constructor
  · rw [hlength]
    show c.counter + 1 = _
    rw [h.counter]
  · intro q hq
    rw [hlength]
    rcases List.mem_append.mp hq with hq | hq
    · have := h.number q hq
      omega
    · rw [List.mem_singleton.mp hq]
      show 1 ≤ c.counter ∧ c.counter ≤ _
      have := h.counter
      omega

/-- **What is added is compared with its own parameter, and what was there with the same as
before.** -/
theorem Clause.Numbered.all_add {c : Clause} (h : c.Numbered) (P : String → Op → String → Bool)
    (op : Op) (kv : String × String) :
    (c.add op kv).all P = (c.all P && P kv.1 op kv.2) := by
  simp only [Clause.all, Clause.add, List.all_append, List.all_cons, List.all_nil, Bool.and_true]
  congr 1
  · rw [Bool.eq_iff_iff, List.all_eq_true, List.all_eq_true]
    refine forall_congr' fun q => forall_congr' fun hq => ?_
    have hnumber := h.number q hq
    rw [List.getElem?_append_left (by omega)]
  · rw [h.counter, Nat.add_sub_cancel, List.getElem?_append_right (Nat.le_refl _), Nat.sub_self]
    rfl

theorem Clause.Numbered.all_foldl {c : Clause} (h : c.Numbered) (P : String → Op → String → Bool)
    (op : Op) (kvs : List (String × String)) :
    (kvs.foldl (Clause.add op) c).Numbered ∧
      (kvs.foldl (Clause.add op) c).all P = (c.all P && kvs.all fun kv => P kv.1 op kv.2) := by
  induction kvs generalizing c with
  | nil => exact ⟨h, (Bool.and_true _).symm⟩
  | cons kv kvs ih =>
      obtain ⟨hnumbered, hall⟩ := ih (h.add op kv)
      refine ⟨hnumbered, ?_⟩
      rw [List.foldl_cons, hall, h.all_add, List.all_cons, Bool.and_assoc]

/-- **The clause compares the owner, and each entry of the filter with its own value.** -/
theorem all_retrieveAll (P : String → Op → String → Bool) (key : String) (filter : Filter) :
    (retrieveAll key filter).all P
      = (P "owner" .eq key && (filter.fullMatch.all fun kv => P kv.1 .eq kv.2) &&
          filter.partialMatch.all fun kv => P kv.1 .like kv.2) := by
  have hstart : Clause.Numbered ⟨[⟨"owner", .eq, 1⟩], [key], 2⟩ := by
    refine ⟨rfl, fun q hq => ?_⟩
    rw [List.mem_singleton.mp hq]
    exact ⟨Nat.le_refl _, Nat.le_refl _⟩
  obtain ⟨hfull, hall⟩ := hstart.all_foldl P .eq filter.fullMatch
  rw [retrieveAll, (hfull.all_foldl P .like filter.partialMatch).2, hall]
  simp only [Clause.all, List.all_cons, List.all_nil, Bool.and_true]
  rfl

/-! ## §3. The server. -/

/-- The columns of `configs`. -/
inductive Column
  | mainfluxThing
  | owner
  | name
  | mainfluxKey
  | externalID
  | externalKey
  | content
  | clientCert
  | clientKey
  | caCert
  | state
  deriving DecidableEq

def columnOf : String → Option Column
  | "mainflux_thing" => some .mainfluxThing
  | "owner" => some .owner
  | "name" => some .name
  | "mainflux_key" => some .mainfluxKey
  | "external_id" => some .externalID
  | "external_key" => some .externalKey
  | "content" => some .content
  | "client_cert" => some .clientCert
  | "client_key" => some .clientKey
  | "ca_cert" => some .caCert
  | "state" => some .state
  | _ => none

/-- What a row holds in a column. -/
inductive Cell
  /-- `TEXT` and `VARCHAR`. -/
  | text (s : Option String)
  /-- `CHAR(36)`. -/
  | char (s : String)
  | bigint (n : Int)

/-- The number that stands for a state. -/
def State.number : State → Int
  | .inactive => 0
  | .active => 1

def Column.cell (r : ConfigRow) : Column → Cell
  | .mainfluxThing => .text (some r.mfThing)
  | .owner => .text (some r.owner)
  | .name => .text r.name
  | .mainfluxKey => .char r.mfKey
  | .externalID => .text (some r.externalID)
  | .externalKey => .text (some r.externalKey)
  | .content => .text r.content
  | .clientCert => .text r.clientCert
  | .clientKey => .text r.clientKey
  | .caCert => .text r.caCert
  | .state => .bigint r.state.number

/-- No text of the server holds a null character. -/
abbrev NoNull (s : String) : Prop := '\x00' ∉ s.toList

/-- The column can hold the value. -/
def Cell.Fits : Cell → Prop
  | .text s => ∀ t, s = some t → NoNull t
  | .char s => NoNull s ∧ s.length = 36
  | .bigint _ => True

/-- A table that the server can hold. -/
structure Stored (d : DB) : Prop where
  schema : d.Schema
  fits : ∀ r ∈ d.configs, ∀ c : Column, (c.cell r).Fits

/-- `isspace`. -/
def isSpace (c : Char) : Bool :=
  c = ' ' || c = '\t' || c = '\n' || c = '\x0b' || c = '\x0c' || c = '\r'

/-- The digits of a number. -/
def digits (ds : Text) : Option Nat :=
  if ds ≠ [] ∧ ds.all Char.isDigit = true then
    some (ds.foldl (fun n c => 10 * n + (c.toNat - '0'.toNat)) 0)
  else none

/-- The input of `BIGINT`. -/
def int8in (s : String) : Option Int :=
  match (s.toList.dropWhile isSpace).rdropWhile isSpace with
  | '-' :: ds =>
      if ds = "9223372036854775808".toList then some (-9223372036854775808)
      else (digits ds).bind fun n => if n < 2 ^ 63 then some (-n) else none
  | '+' :: ds => (digits ds).bind fun n => if n < 2 ^ 63 then some n else none
  | ds => (digits ds).bind fun n => if n < 2 ^ 63 then some n else none

/-- A `CHAR` value without the blanks that do not count. -/
def trimmed (s : String) : Text := s.toList.rdropWhile (· == ' ')

/-- The statement with this comparison is prepared, and its parameter is read. -/
def binds (column : String) (op : Op) (param : String) : Bool :=
  match columnOf column, op with
  -- `undefined_column`
  | none, _ => false
  | some .state, .eq => (int8in param).isSome
  -- there is no `lower(bigint)`
  | some .state, .like => false
  | some _, _ => decide (NoNull param)

/-- What the comparison says of a row. -/
def Cell.compare (m : CaseMap) (op : Op) (param : String) : Cell → Bool
  | .text none => false
  | .text (some s) =>
      match op with
      | .eq => s = param
      | .like => like (search param.toList) (m.map s.toList)
  | .char s =>
      match op with
      | .eq => trimmed s = trimmed param
      | .like => like (search param.toList) (m.map (trimmed s))
  | .bigint n =>
      match op with
      | .eq => int8in param = some n
      | .like => false

def holds (m : CaseMap) (r : ConfigRow) (column : String) (op : Op) (param : String) : Bool :=
  match columnOf column with
  | none => false
  | some c => (c.cell r).compare m op param

/-- The settings of the server that a listing depends on: the mapping to lower case, which is
that of Go, and the order of texts. -/
structure Server where
  letters : CaseMap
  collation : Collation String

/-! ## §4. `RetrieveAll`. -/

/-- `bootstrap.ConfigsPage`. -/
structure ConfigsPage where
  total : Nat := 0
  offset : Nat := 0
  limit : Nat := 0
  configs : List Config := []
  deriving DecidableEq

/-- What is scanned of a row. -/
def listed (key : String) (r : ConfigRow) : Config where
  mfThing := r.mfThing
  owner := key
  name := r.name.getD ""
  mfKey := r.mfKey
  externalID := r.externalID
  externalKey := r.externalKey
  content := r.content.getD ""
  state := r.state

/-- `configRepository.RetrieveAll`.  An error of the statement is logged, and the page that is
returned is empty. -/
def ConfigRepository.retrieveAll (server : Server) (key : String) (filter : Filter)
    (offset limit : Nat) (d : DB) : ConfigsPage :=
  let search := Bootstrap.retrieveAll key filter
  if search.all binds = true ∧ limit < 2 ^ 63 ∧ offset < 2 ^ 63 then
    let rows := d.configs.filter fun r => search.all (holds server.letters r)
    let page := slice offset limit (server.collation.orderBy (fun r => r.mfThing) rows)
    { total := d.configs.countP fun r => search.all (holds server.letters r)
      limit, offset
      configs := page.map (listed key) }
  else {}

/-! ## §5. What is asked for. -/

/-- The config has the values that the query gives, and its name contains the text that the query
gives, whatever the case of the letters. -/
def wanted (m : CaseMap) (owner : String) (values : Values) (r : ConfigRow) : Bool :=
  r.owner = owner &&
    (values.given "state").all (fun v => int8in v = some r.state.number) &&
    (values.given "external_id").all (fun v => r.externalID = v) &&
    (values.given "mainflux_id").all (fun v => r.mfThing = v) &&
    (values.given "mainflux_key").all (fun v => r.mfKey = v) &&
    (values.given "name").all (fun v => m.map v.toList <:+: m.map (r.name.getD "").toList)

/-- The page is the slice of all such configs, ordered by Thing id, and counts them all. -/
def Exact (server : Server) (owner : String) (values : Values) (offset limit : Nat) (d : DB)
    (page : ConfigsPage) : Prop :=
  ∃ rows, rows.Perm (d.configs.filter (wanted server.letters owner values)) ∧
    rows.Pairwise (server.collation.before fun r => r.mfThing) ∧
    page.configs = (slice offset limit rows).map (listed owner) ∧ page.total = rows.length

/-- Every listing with this query is exact, whatever the tables hold, whoever asks, and in
whatever order the loops go over the maps. -/
def ListsExactly (server : Server) (values : Values) (offset limit : Nat) : Prop :=
  ∀ (d : DB) (owner : String) (filter : Filter), Stored d →
    filter.fullMatch.Perm (parseFilter server.letters values).fullMatch →
    filter.partialMatch.Perm (parseFilter server.letters values).partialMatch →
    Exact server owner values offset limit d
      (ConfigRepository.retrieveAll server owner filter offset limit d)

/-! ## §6. What is compared. -/

theorem Values.given_eq (values : Values) (k : String) :
    values.given k = if k ∈ values.entries.map Prod.fst then some (values.get k) else none := by
  unfold Values.given Values.get
  cases hlookup : values.entries.lookup k with
  | none =>
      have hnot : k ∉ values.entries.map Prod.fst := by
        intro hmem
        obtain ⟨e, he, rfl⟩ := List.mem_map.mp hmem
        exact absurd (List.lookup_eq_none_iff.mp hlookup e he) (by simp)
      rw [if_neg hnot]
      rfl
  | some vs =>
      obtain ⟨a, b, hab, -⟩ := List.lookup_eq_some_iff.mp hlookup
      have hmem : k ∈ values.entries.map Prod.fst := by
        rw [hab]
        simp
      rw [if_pos hmem]
      rfl

/-- The entries that a loop over the parameters makes. -/
theorem all_parse (values : Values) (names : List String) (f : String → String)
    (P : String → String → Bool) :
    ((((values.entries.map Prod.fst).filter (· ∈ names)).map fun k => (k, f (values.get k))).all
        fun kv => P kv.1 kv.2)
      = names.all fun k => (values.given k).all fun v => P k (f v) := by
  rw [Bool.eq_iff_iff, List.all_map, List.all_eq_true, List.all_eq_true]
  simp only [List.mem_filter, decide_eq_true_eq, Values.given_eq, Function.comp_apply]
  constructor
  · intro h k hk
    split
    next hgiven => exact h k ⟨hgiven, hk⟩
    next => rfl
  · intro h k hk
    have hall := h k hk.2
    rw [if_pos hk.1] at hall
    exact hall

/-- **All the comparisons, in whatever order they are made.** -/
theorem all_listing {m : CaseMap} {values : Values} {filter : Filter}
    (hfull : filter.fullMatch.Perm (parseFilter m values).fullMatch)
    (hpart : filter.partialMatch.Perm (parseFilter m values).partialMatch)
    (P : String → Op → String → Bool) (owner : String) :
    (Bootstrap.retrieveAll owner filter).all P = true ↔
      P "owner" .eq owner = true ∧
        (∀ k ∈ fullMatch, ∀ v, values.given k = some v → P k .eq v = true) ∧
        ∀ v, values.given "name" = some v → P "name" .like (toLower m v) = true := by
  have hf : (filter.fullMatch.all fun kv => P kv.1 .eq kv.2)
      = fullMatch.all fun k => (values.given k).all fun v => P k .eq v :=
    hfull.all_eq.trans (all_parse values fullMatch id fun k v => P k .eq v)
  have hp : (filter.partialMatch.all fun kv => P kv.1 .like kv.2)
      = partialMatch.all fun k => (values.given k).all fun v => P k .like (toLower m v) :=
    hpart.all_eq.trans (all_parse values partialMatch (toLower m) fun k v => P k .like v)
  rw [all_retrieveAll, hf, hp]
  simp only [Bool.and_eq_true, List.all_eq_true, Option.all_eq_true, and_assoc, partialMatch,
    List.mem_singleton, forall_eq]

section Row

variable {m : CaseMap} {owner : String} {values : Values} {offset limit : Nat} {r : ConfigRow}

/-- The row can be in the table. -/
abbrev ConfigRow.Fits (r : ConfigRow) : Prop := ∀ c : Column, (c.cell r).Fits

/-- The driver or the server refuses the statement. -/
def Refused (values : Values) (offset limit : Nat) : Prop :=
  (values.given "mainflux_id").isSome ∨ 2 ^ 63 ≤ offset ∨ 2 ^ 63 ≤ limit

/-- The statement is carried out, and the row is in the result. -/
def Found (m : CaseMap) (owner : String) (values : Values) (offset limit : Nat) (r : ConfigRow) :
    Prop :=
  ¬ Refused values offset limit ∧ r.owner = owner ∧
    (∀ v, values.given "state" = some v → int8in v = some r.state.number) ∧
    (∀ v, values.given "external_id" = some v → r.externalID = v) ∧
    (∀ v, values.given "mainflux_key" = some v → NoNull v ∧ trimmed r.mfKey = trimmed v) ∧
    ∀ v, values.given "name" = some v →
      NoNull v ∧ ∃ s, r.name = some s ∧ like (search (m.map v.toList)) (m.map s.toList) = true

theorem noNull_toLower {v : String} : NoNull (toLower m v) ↔ NoNull v := by
  rw [NoNull, toLower, String.toList_ofList, m.null_mem]

/-- What the server does with the statement, comparison by comparison. -/
theorem binds_iff {filter : Filter}
    (hfull : filter.fullMatch.Perm (parseFilter m values).fullMatch)
    (hpart : filter.partialMatch.Perm (parseFilter m values).partialMatch) (owner : String) :
    (Bootstrap.retrieveAll owner filter).all binds = true ↔
      NoNull owner ∧ (∀ v, values.given "state" = some v → (int8in v).isSome = true) ∧
        (∀ v, values.given "external_id" = some v → NoNull v) ∧ values.given "mainflux_id" = none ∧
        (∀ v, values.given "mainflux_key" = some v → NoNull v) ∧
        ∀ v, values.given "name" = some v → NoNull v := by
  have howner : binds "owner" .eq owner = true ↔ NoNull owner := decide_eq_true_iff
  have hid : (∀ v, values.given "mainflux_id" = some v → binds "mainflux_id" .eq v = true) ↔
      values.given "mainflux_id" = none := by
    constructor
    · intro h
      cases hgiven : values.given "mainflux_id" with
      | none => rfl
      | some v => exact absurd (h v hgiven) Bool.false_ne_true
    · intro h v hv
      rw [h] at hv
      cases hv
  have htext : ∀ k, binds k .eq = (fun v => decide (NoNull v)) →
      ((∀ v, values.given k = some v → binds k .eq v = true) ↔
        ∀ v, values.given k = some v → NoNull v) := by
    intro k hk
    simp only [hk, decide_eq_true_eq]
  have hname : (∀ v, values.given "name" = some v → binds "name" .like (toLower m v) = true) ↔
      ∀ v, values.given "name" = some v → NoNull v := by
    refine forall_congr' fun v => imp_congr_right fun _ => ?_
    rw [← noNull_toLower (m := m)]
    exact decide_eq_true_iff
  rw [all_listing hfull hpart, howner, hname]
  simp only [fullMatch, List.forall_mem_cons, List.not_mem_nil, false_imp_iff, implies_true,
    and_true]
  rw [hid, htext "external_id" rfl, htext "mainflux_key" rfl]
  simp only [and_assoc]
  rfl

theorem holds_iff {filter : Filter}
    (hfull : filter.fullMatch.Perm (parseFilter m values).fullMatch)
    (hpart : filter.partialMatch.Perm (parseFilter m values).partialMatch)
    (hid : values.given "mainflux_id" = none) :
    (Bootstrap.retrieveAll owner filter).all (holds m r) = true ↔
      r.owner = owner ∧ (∀ v, values.given "state" = some v → int8in v = some r.state.number) ∧
        (∀ v, values.given "external_id" = some v → r.externalID = v) ∧
        (∀ v, values.given "mainflux_key" = some v → trimmed r.mfKey = trimmed v) ∧
        ∀ v, values.given "name" = some v →
          ∃ s, r.name = some s ∧ like (search (m.map v.toList)) (m.map s.toList) = true := by
  have hname : ∀ v, holds m r "name" .like (toLower m v) = true ↔
      ∃ s, r.name = some s ∧ like (search (m.map v.toList)) (m.map s.toList) = true := by
    intro v
    show Cell.compare m .like (toLower m v) (.text r.name) = true ↔ _
    cases r.name with
    | none => exact iff_of_false Bool.false_ne_true (by rintro ⟨s, hs, -⟩; cases hs)
    | some s => simp only [Cell.compare, toLower, String.toList_ofList, Option.some.injEq,
        exists_eq_left']
  have hnone : ∀ v, ¬ values.given "mainflux_id" = some v := by
    intro v hv
    rw [hid] at hv
    cases hv
  rw [all_listing hfull hpart]
  simp only [fullMatch, List.forall_mem_cons, List.not_mem_nil, false_imp_iff, implies_true,
    and_true, and_assoc, hname, hnone, true_and]
  simp only [holds, columnOf, Column.cell, Cell.compare, decide_eq_true_eq]

theorem not_refused_iff : ¬ Refused values offset limit ↔
    values.given "mainflux_id" = none ∧ limit < 2 ^ 63 ∧ offset < 2 ^ 63 := by
  rw [Refused, Option.isSome_iff_ne_none]
  constructor
  · intro h
    refine ⟨?_, ?_, ?_⟩
    · by_contra hid
      exact h (.inl hid)
    · by_contra hlimit
      exact h (.inr (.inr (Nat.le_of_not_lt hlimit)))
    · by_contra hoffset
      exact h (.inr (.inl (Nat.le_of_not_lt hoffset)))
  · rintro ⟨hid, hlimit, hoffset⟩ (h | h | h)
    · exact h hid
    · omega
    · omega

/-- The values of a row that fits have no null character to be refused. -/
theorem found_iff {filter : Filter}
    (hfull : filter.fullMatch.Perm (parseFilter m values).fullMatch)
    (hpart : filter.partialMatch.Perm (parseFilter m values).partialMatch) (hr : r.Fits) :
    ((Bootstrap.retrieveAll owner filter).all binds = true ∧ limit < 2 ^ 63 ∧ offset < 2 ^ 63) ∧
        (Bootstrap.retrieveAll owner filter).all (holds m r) = true ↔
      Found m owner values offset limit r := by
  rw [Found, not_refused_iff, binds_iff hfull hpart]
  constructor
  · rintro ⟨⟨⟨-, -, -, hid, hkeys, hnames⟩, hpage⟩, hholds⟩
    obtain ⟨howner, hstate, hexternal, hkey, hname⟩ := (holds_iff hfull hpart hid).mp hholds
    exact ⟨⟨hid, hpage⟩, howner, hstate, hexternal, fun v hv => ⟨hkeys v hv, hkey v hv⟩,
      fun v hv => ⟨hnames v hv, hname v hv⟩⟩
  · rintro ⟨⟨hid, hpage⟩, howner, hstate, hexternal, hkey, hname⟩
    have hnull : NoNull owner := howner ▸ hr .owner _ rfl
    have hexternalNull : ∀ v, values.given "external_id" = some v → NoNull v := by
      intro v hv
      rw [← hexternal v hv]
      exact hr .externalID _ rfl
    have hisSome : ∀ v, values.given "state" = some v → (int8in v).isSome = true := by
      intro v hv
      rw [hstate v hv]
      rfl
    exact ⟨⟨⟨hnull, hisSome, hexternalNull, hid, fun v hv => (hkey v hv).1,
      fun v hv => (hname v hv).1⟩, hpage⟩, (holds_iff hfull hpart hid).mpr
        ⟨howner, hstate, hexternal, fun v hv => (hkey v hv).2, fun v hv => (hname v hv).2⟩⟩

theorem wanted_iff : wanted m owner values r = true ↔
    r.owner = owner ∧ (∀ v, values.given "state" = some v → int8in v = some r.state.number) ∧
      (∀ v, values.given "external_id" = some v → r.externalID = v) ∧
      (∀ v, values.given "mainflux_id" = some v → r.mfThing = v) ∧
      (∀ v, values.given "mainflux_key" = some v → r.mfKey = v) ∧
      ∀ v, values.given "name" = some v → m.map v.toList <:+: m.map (r.name.getD "").toList := by
  simp only [wanted, Bool.and_eq_true, Option.all_eq_true, decide_eq_true_eq, and_assoc]

end Row

/-! ## §7. One row at a time. -/

section Rows

variable {server : Server} {owner : String} {values : Values} {filter : Filter} {offset limit : Nat}

/-- The statement is carried out and selects the row. -/
abbrev Selected (server : Server) (owner : String) (filter : Filter) (offset limit : Nat)
    (r : ConfigRow) : Prop :=
  ((Bootstrap.retrieveAll owner filter).all binds = true ∧ limit < 2 ^ 63 ∧ offset < 2 ^ 63) ∧
    (Bootstrap.retrieveAll owner filter).all (holds server.letters r) = true

/-- A listing is exact when it selects the rows that are wanted. -/
theorem exact_of_selected {d : DB}
    (h : ∀ r ∈ d.configs, Selected server owner filter offset limit r ↔
      wanted server.letters owner values r = true) :
    Exact server owner values offset limit d
      (ConfigRepository.retrieveAll server owner filter offset limit d) := by
  unfold ConfigRepository.retrieveAll
  dsimp only
  split
  next hpass =>
      have hfilter : d.configs.filter (fun r =>
            (Bootstrap.retrieveAll owner filter).all (holds server.letters r))
          = d.configs.filter (wanted server.letters owner values) := by
        refine List.filter_congr fun r hr => ?_
        rw [Bool.eq_iff_iff, ← h r hr]
        exact ⟨fun hh => ⟨hpass, hh⟩, fun hh => hh.2⟩
      refine ⟨_, server.collation.perm_orderBy _ _, server.collation.pairwise_orderBy _ _, ?_, ?_⟩
      · rw [hfilter]
      · rw [← hfilter, (server.collation.perm_orderBy _ _).length_eq, List.countP_eq_length_filter]
  next hfail =>
      have hnone : d.configs.filter (wanted server.letters owner values) = [] := by
        refine List.filter_eq_nil_iff.mpr fun r hr hw => ?_
        exact hfail ((h r hr).mpr hw).1
      refine ⟨[], ?_, List.Pairwise.nil, ?_, rfl⟩
      · rw [hnone]
      · simp [slice]

/-- A table with this config and nothing else. -/
abbrev DB.single (r : ConfigRow) : DB := ⟨[r], [], []⟩

theorem stored_single {r : ConfigRow} (hr : r.Fits) : Stored (DB.single r) := by
  refine ⟨⟨List.nodup_singleton _, List.nodup_singleton _, List.nodup_singleton _, List.nodup_nil,
    List.nodup_nil, ?_, ?_⟩, ?_⟩
  · intro co hco
    cases hco
  · intro co hco
    cases hco
  · intro s hs
    rw [List.mem_singleton.mp hs]
    exact hr

/-- The total tells whether the only row is in the result. -/
theorem selected_of_exact {r : ConfigRow}
    (h : Exact server owner values offset limit (DB.single r)
      (ConfigRepository.retrieveAll server owner filter offset limit (DB.single r))) :
    Selected server owner filter offset limit r ↔ wanted server.letters owner values r = true := by
  obtain ⟨rows, hperm, -, -, htotal⟩ := h
  rw [hperm.length_eq] at htotal
  unfold ConfigRepository.retrieveAll at htotal
  dsimp only at htotal
  split at htotal
  next hpass =>
      rw [← List.countP_eq_length_filter] at htotal
      simp only [List.countP_singleton] at htotal
      constructor
      · intro hs
        rw [if_pos hs.2] at htotal
        by_contra hw
        rw [if_neg hw] at htotal
        cases htotal
      · intro hw
        rw [if_pos hw] at htotal
        by_contra hs
        rw [if_neg fun hh => hs ⟨hpass, hh⟩] at htotal
        cases htotal
  next hfail =>
      refine iff_of_false (fun hs => hfail hs.1) fun hw => ?_
      rw [List.filter_cons_of_pos hw] at htotal
      cases htotal

/-- **A query lists exactly when it finds the rows that are wanted.** -/
theorem listsExactly_iff_found : ListsExactly server values offset limit ↔
    ∀ (owner : String) (r : ConfigRow), r.Fits →
      (Found server.letters owner values offset limit r ↔
        wanted server.letters owner values r = true) := by
  constructor
  · intro h owner r hr
    have hexact := h (DB.single r) owner (parseFilter server.letters values) (stored_single hr)
      (List.Perm.refl _) (List.Perm.refl _)
    rw [← found_iff (List.Perm.refl _) (List.Perm.refl _) hr]
    exact selected_of_exact hexact
  · intro h d owner filter hd hfull hpart
    refine exact_of_selected fun r hr => ?_
    rw [Selected, found_iff hfull hpart (hd.fits r hr)]
    exact h owner r (hd.fits r hr)

end Rows

/-! ## §8. Blanks at the end of a key. -/

/-- What the column makes of a text. -/
def pad (t : Text) : String := String.ofList (t ++ List.replicate (36 - t.length) ' ')

theorem length_pad {t : Text} (h : t.length ≤ 36) : (pad t).length = 36 := by
  rw [pad, String.length_ofList, List.length_append, List.length_replicate]
  omega

theorem trimmed_pad (s : String) : trimmed (pad (trimmed s)) = trimmed s := by
  have hblank : ∀ (t : Text) (n : Nat),
      (t ++ List.replicate n ' ').rdropWhile (· == ' ') = t.rdropWhile (· == ' ') := by
    intro t n
    induction n with
    | zero => rw [List.replicate_zero, List.append_nil]
    | succ n ih =>
        rw [List.replicate_succ', ← List.append_assoc, List.rdropWhile_concat_pos _ _ _ rfl, ih]
  rw [trimmed, pad, String.toList_ofList, hblank]
  exact List.rdropWhile_idempotent _ _

theorem length_trimmed_le (s : String) : (trimmed s).length ≤ s.length := by
  rw [← String.length_toList]
  exact (List.rdropWhile_prefix _ _).length_le

/-- A text of 36 characters is the column's text for what it is without the blanks. -/
theorem pad_trimmed {s : String} (h : s.length = 36) : pad (trimmed s) = s := by
  have hsplit : trimmed s ++ s.toList.rtakeWhile (· == ' ') = s.toList :=
    List.rdropWhile_append_rtakeWhile
  have hblanks : s.toList.rtakeWhile (· == ' ')
      = List.replicate (s.toList.rtakeWhile (· == ' ')).length ' ' := by
    refine List.eq_replicate_iff.mpr ⟨rfl, fun c hc => ?_⟩
    have hblank := List.mem_rtakeWhile_imp hc
    exact eq_of_beq hblank
  have hlength : (trimmed s).length + (s.toList.rtakeWhile (· == ' ')).length = 36 := by
    rw [← List.length_append, hsplit, String.length_toList, h]
  have hcount : (s.toList.rtakeWhile (· == ' ')).length = 36 - (trimmed s).length := by
    omega
  rw [hcount] at hblanks
  rw [pad, ← hblanks, hsplit, String.ofList_toList]

/-- Keys of 36 characters are told apart. -/
theorem trimmed_inj {s t : String} (hs : s.length = 36) (ht : t.length = 36) :
    trimmed s = trimmed t ↔ s = t := by
  constructor
  · intro h
    rw [← pad_trimmed hs, h, pad_trimmed ht]
  · rintro rfl
    rfl

/-! ## §9. When the listing is exact. -/

/-- No config can have the values, and the server finds none: the state is none, the key is too
long, or a text has a null character. -/
def Hopeless (values : Values) : Prop :=
  (∃ v, values.given "state" = some v ∧ ∀ s : State, int8in v ≠ some s.number) ∨
    (∃ v, values.given "mainflux_key" = some v ∧ 36 < (trimmed v).length) ∨
    ∃ k ∈ ["external_id", "mainflux_key", "name"], ∃ v, values.given k = some v ∧ ¬ NoNull v

/-- The key, if there is one, is as long as the column. -/
def KeyFits (values : Values) : Prop :=
  ∀ v, values.given "mainflux_key" = some v → v.length = 36

/-- The text, if there is one, is not empty and has no pattern in it. -/
def NamePlain (values : Values) : Prop :=
  ∀ v, values.given "name" = some v → v ≠ "" ∧ ∀ c ∈ v.toList, ¬ Special c

/-- The queries that are listed as they should be. -/
def Sound (values : Values) (offset limit : Nat) : Prop :=
  Hopeless values ∨
    (Refused values offset limit ∧
      (¬ KeyFits values ∨ ∃ v, values.given "mainflux_id" = some v ∧ ¬ NoNull v)) ∨
    (¬ Refused values offset limit ∧ KeyFits values ∧ NamePlain values)

section Rows

variable {m : CaseMap} {owner : String} {values : Values} {offset limit : Nat} {r : ConfigRow}

/-- What is wanted, and has values that no row can have, is not there. -/
theorem not_hopeless_of_wanted (hr : r.Fits) (hw : wanted m owner values r = true) :
    ¬ Hopeless values := by
  obtain ⟨-, hstate, hexternal, -, hkey, hname⟩ := wanted_iff.mp hw
  rintro (⟨v, hv, hno⟩ | ⟨v, hv, hlong⟩ | ⟨k, hk, v, hv, hnull⟩)
  · exact hno r.state (hstate v hv)
  · have hlength : r.mfKey.length = 36 := (hr .mainfluxKey).2
    have hle := length_trimmed_le v
    rw [← hkey v hv, hlength] at hle
    rw [← hkey v hv] at hlong
    omega
  · simp only [List.mem_cons, List.not_mem_nil, or_false] at hk
    rcases hk with rfl | rfl | rfl
    · exact hnull (hexternal v hv ▸ hr .externalID _ rfl)
    · exact hnull (hkey v hv ▸ (hr .mainfluxKey).1)
    · -- a null character of the text would be one of the name
      have hin : '\x00' ∈ m.map (r.name.getD "").toList :=
        (hname v hv).subset (m.null_mem.mpr (not_not.mp hnull))
      cases hrname : r.name with
      | none =>
          rw [hrname] at hin
          cases hin
      | some s =>
          rw [hrname] at hin
          exact hr .name s hrname (m.null_mem.mp hin)

theorem not_hopeless_of_found (hr : r.Fits) (hf : Found m owner values offset limit r) :
    ¬ Hopeless values := by
  obtain ⟨-, -, hstate, hexternal, hkey, hname⟩ := hf
  rintro (⟨v, hv, hno⟩ | ⟨v, hv, hlong⟩ | ⟨k, hk, v, hv, hnull⟩)
  · exact hno r.state (hstate v hv)
  · have hle := length_trimmed_le r.mfKey
    rw [(hkey v hv).2, (hr .mainfluxKey).2] at hle
    omega
  · simp only [List.mem_cons, List.not_mem_nil, or_false] at hk
    rcases hk with rfl | rfl | rfl
    · exact hnull (hexternal v hv ▸ hr .externalID _ rfl)
    · exact hnull (hkey v hv).1
    · exact hnull (hname v hv).1

/-- A name that is not empty holds a text by its pattern, if the pattern is the text. -/
theorem named_iff {v : String} (hne : v ≠ "") (hplain : ∀ c ∈ v.toList, ¬ Special c)
    (hr : r.Fits) :
    (NoNull v ∧ ∃ s, r.name = some s ∧ like (search (m.map v.toList)) (m.map s.toList) = true) ↔
      m.map v.toList <:+: m.map (r.name.getD "").toList := by
  have hlike : ∀ s : String, like (search (m.map v.toList)) (m.map s.toList) = true ↔
      m.map v.toList <:+: m.map s.toList := fun s => like_search (m.plain_iff.mpr hplain) _
  cases hname : r.name with
  | none =>
      refine iff_of_false ?_ fun hin => ?_
      · rintro ⟨-, s, hs, -⟩
        cases hs
      · -- the empty name contains no text but the empty one
        have hnil : m.map v.toList = [] := List.infix_nil.mp hin
        exact hne (String.toList_eq_nil_iff.mp (List.map_eq_nil_iff.mp hnil))
  | some s =>
      constructor
      · rintro ⟨-, t, ht, hmatch⟩
        cases ht
        exact (hlike s).mp hmatch
      · intro hin
        refine ⟨fun hnull => ?_, s, rfl, (hlike s).mpr hin⟩
        exact hr .name s hname (m.null_mem.mp (hin.subset (m.null_mem.mpr hnull)))

/-- **A sound query finds what is wanted.** -/
theorem found_iff_wanted (hr : r.Fits) (h : Sound values offset limit) :
    Found m owner values offset limit r ↔ wanted m owner values r = true := by
  rcases h with h | ⟨hrefused, h⟩ | ⟨hpass, hkeyFits, hplain⟩
  · exact iff_of_false (fun hf => not_hopeless_of_found hr hf h)
      fun hw => not_hopeless_of_wanted hr hw h
  · refine iff_of_false (fun hf => hf.1 hrefused) fun hw => ?_
    obtain ⟨-, -, -, hid, hkey, -⟩ := wanted_iff.mp hw
    rcases h with hkeyFits | ⟨v, hv, hnull⟩
    · exact hkeyFits fun v hv => hkey v hv ▸ (hr .mainfluxKey).2
    · exact hnull (hid v hv ▸ hr .mainfluxThing _ rfl)
  · rw [Found, wanted_iff]
    have hid : ∀ v, values.given "mainflux_id" = some v → r.mfThing = v := by
      intro v hv
      rw [(not_refused_iff.mp hpass).1] at hv
      cases hv
    have hkey : (∀ v, values.given "mainflux_key" = some v →
          NoNull v ∧ trimmed r.mfKey = trimmed v) ↔
        ∀ v, values.given "mainflux_key" = some v → r.mfKey = v := by
      refine forall_congr' fun v => forall_congr' fun hv => ?_
      rw [trimmed_inj (hr .mainfluxKey).2 (hkeyFits v hv)]
      refine and_iff_right_of_imp fun heq => ?_
      exact heq ▸ (hr .mainfluxKey).1
    have hname : (∀ v, values.given "name" = some v → NoNull v ∧
          ∃ s, r.name = some s ∧ like (search (m.map v.toList)) (m.map s.toList) = true) ↔
        ∀ v, values.given "name" = some v →
          m.map v.toList <:+: m.map (r.name.getD "").toList :=
      forall_congr' fun v => forall_congr' fun hv =>
        named_iff (hplain v hv).1 (hplain v hv).2 hr
    rw [hkey, hname]
    exact ⟨fun ⟨_, ho, hs, he, hk, hn⟩ => ⟨ho, hs, he, hid, hk, hn⟩,
      fun ⟨ho, hs, he, _, hk, hn⟩ => ⟨hpass, ho, hs, he, hk, hn⟩⟩

/-- A row with the values of the query that the columns take as they are. -/
def sampleRow (values : Values) (state : State) (mfKey : String) (name : Option String) :
    ConfigRow where
  mfThing := (values.given "mainflux_id").getD "t"
  owner := "o"
  name := name
  clientCert := none
  clientKey := none
  caCert := none
  mfKey := mfKey
  externalID := (values.given "external_id").getD "e"
  externalKey := "k"
  content := none
  state := state

/-- The value of a parameter, or another text without null characters. -/
theorem noNull_getD {k s : String} (h : ∀ v, values.given k = some v → NoNull v) (hs : NoNull s) :
    NoNull ((values.given k).getD s) := by
  cases hgiven : values.given k with
  | none => exact hs
  | some v => exact h v hgiven

theorem sampleRow_fits {state : State} {mfKey : String} {name : Option String}
    (hid : ∀ v, values.given "mainflux_id" = some v → NoNull v)
    (hexternal : ∀ v, values.given "external_id" = some v → NoNull v)
    (hkey : NoNull mfKey ∧ mfKey.length = 36) (hname : ∀ s, name = some s → NoNull s) :
    (sampleRow values state mfKey name).Fits := by
  have hthis : ∀ {s : String}, NoNull s → ∀ t, some s = some t → NoNull t := by
    intro s hs t ht
    cases ht
    exact hs
  have hnone : ∀ t : String, none = some t → NoNull t := by
    intro t ht
    cases ht
  intro c
  cases c with
  | mainfluxThing => exact hthis (noNull_getD hid (by decide))
  | owner => exact hthis (show NoNull "o" by decide)
  | name => exact hname
  | mainfluxKey => exact hkey
  | externalID => exact hthis (noNull_getD hexternal (by decide))
  | externalKey => exact hthis (show NoNull "k" by decide)
  | content => exact hnone
  | clientCert => exact hnone
  | clientKey => exact hnone
  | caCert => exact hnone
  | state => trivial

/-- What a query that is not hopeless allows for a row. -/
theorem exists_values (h : ¬ Hopeless values) :
    (∃ s : State, ∀ v, values.given "state" = some v → int8in v = some s.number) ∧
      (∀ v, values.given "external_id" = some v → NoNull v) ∧
      (∀ v, values.given "mainflux_key" = some v → NoNull v ∧ (trimmed v).length ≤ 36) ∧
      ∀ v, values.given "name" = some v → NoNull v := by
  have hnull : ∀ k ∈ ["external_id", "mainflux_key", "name"], ∀ v,
      values.given k = some v → NoNull v := by
    intro k hk v hv
    by_contra hno
    exact h (.inr (.inr ⟨k, hk, v, hv, not_not.mpr hno⟩))
  refine ⟨?_, hnull _ (by simp), fun v hv => ⟨hnull _ (by simp) v hv, ?_⟩, hnull _ (by simp)⟩
  · cases hgiven : values.given "state" with
    | none => exact ⟨.inactive, fun v hv => by cases hv⟩
    | some v =>
        by_contra hno
        refine h (.inl ⟨v, hgiven, fun s hs => hno ⟨s, fun w hw => ?_⟩⟩)
        cases hw
        exact hs
  · by_contra hlong
    exact h (.inr (.inl ⟨v, hv, Nat.lt_of_not_le hlong⟩))

theorem noNull_pad {t : Text} (h : '\x00' ∉ t) : NoNull (pad t) := by
  rw [NoNull, pad, String.toList_ofList, List.mem_append, List.mem_replicate]
  rintro (hin | ⟨-, heq⟩)
  · exact h hin
  · exact absurd heq (by decide)

theorem null_trimmed {v : String} (h : NoNull v) : '\x00' ∉ trimmed v :=
  fun hin => h ((List.rdropWhile_prefix _ _).subset hin)

/-- A key for the row: that of the query, as the column holds it. -/
def sampleKey (values : Values) : String :=
  pad (trimmed ((values.given "mainflux_key").getD ""))

theorem sampleKey_fits
    (h : ∀ v, values.given "mainflux_key" = some v → NoNull v ∧ (trimmed v).length ≤ 36) :
    NoNull (sampleKey values) ∧ (sampleKey values).length = 36 := by
  unfold sampleKey
  cases hgiven : values.given "mainflux_key" with
  | none => exact ⟨by decide, by decide⟩
  | some v => exact ⟨noNull_pad (null_trimmed (h v hgiven).1), length_pad (h v hgiven).2⟩

/-- The server takes it for the key of the query. -/
theorem trimmed_sampleKey {v : String} (hv : values.given "mainflux_key" = some v) :
    trimmed (sampleKey values) = trimmed v := by
  rw [sampleKey, hv]
  exact trimmed_pad v

/-- A row is found, whatever is said of the key and of the name, if the query is not refused. -/
theorem sampleRow_found {state : State} {name : Option String} (hpass : ¬ Refused values offset limit)
    (hstate : ∀ v, values.given "state" = some v → int8in v = some state.number)
    (hkey : ∀ v, values.given "mainflux_key" = some v → NoNull v)
    (hname : ∀ v, values.given "name" = some v →
      NoNull v ∧ ∃ s, name = some s ∧ like (search (m.map v.toList)) (m.map s.toList) = true) :
    Found m "o" values offset limit (sampleRow values state (sampleKey values) name) := by
  refine ⟨hpass, rfl, hstate, fun v hv => ?_, fun v hv => ⟨hkey v hv, trimmed_sampleKey hv⟩, hname⟩
  show (values.given "external_id").getD "e" = v
  rw [hv]
  rfl

/-- A row is wanted when its name is, and the key is one that the column can hold. -/
theorem sampleRow_wanted {state : State} {name : Option String} (hkeyFits : KeyFits values)
    (hstate : ∀ v, values.given "state" = some v → int8in v = some state.number)
    (hname : ∀ v, values.given "name" = some v →
      m.map v.toList <:+: m.map (name.getD "").toList) :
    wanted m "o" values (sampleRow values state (sampleKey values) name) = true := by
  refine wanted_iff.mpr ⟨rfl, hstate, fun v hv => ?_, fun v hv => ?_, fun v hv => ?_, hname⟩
  · show (values.given "external_id").getD "e" = v
    rw [hv]
    rfl
  · show (values.given "mainflux_id").getD "t" = v
    rw [hv]
    rfl
  · show sampleKey values = v
    rw [sampleKey, hv]
    exact pad_trimmed (hkeyFits v hv)

/-- There is a name that the server finds. -/
theorem exists_name (m : CaseMap) (h : ∀ v, values.given "name" = some v → NoNull v) :
    ∃ name : Option String, (∀ s, name = some s → NoNull s) ∧
      ∀ v, values.given "name" = some v →
        NoNull v ∧ ∃ s, name = some s ∧ like (search (m.map v.toList)) (m.map s.toList) = true := by
  cases hgiven : values.given "name" with
  | none =>
      refine ⟨none, fun s hs => ?_, fun v hv => ?_⟩
      · cases hs
      · cases hv
  | some v =>
      have hv : NoNull v := h v hgiven
      obtain ⟨s, hdrawn, hlike⟩ := exists_match (m.map v.toList)
      refine ⟨some (String.ofList s), fun t ht => ?_, fun w hw => ?_⟩
      · cases ht
        rw [NoNull, String.toList_ofList]
        exact m.null_drawn hdrawn hv
      · cases hw
        refine ⟨hv, String.ofList s, rfl, ?_⟩
        rw [String.toList_ofList, m.map_drawn hdrawn]
        exact hlike

/-- A query that is not refused says nothing of the id. -/
theorem id_of_not_refused (h : ¬ Refused values offset limit) :
    ∀ v, values.given "mainflux_id" = some v → NoNull v := by
  intro v hv
  rw [(not_refused_iff.mp h).1] at hv
  cases hv

section Queries

variable (h : ∀ (owner : String) (r : ConfigRow), r.Fits →
    (Found m owner values offset limit r ↔ wanted m owner values r = true))
  (hhope : ¬ Hopeless values)

include h hhope

/-- A refused query: a row that is wanted, and no row is returned. -/
theorem unwanted_of_refused (hrefused : Refused values offset limit) :
    ¬ KeyFits values ∨ ∃ v, values.given "mainflux_id" = some v ∧ ¬ NoNull v := by
  obtain ⟨⟨state, hstate⟩, hexternal, hkey, hname⟩ := exists_values hhope
  by_contra hno
  rw [not_or, not_not] at hno
  have hid : ∀ v, values.given "mainflux_id" = some v → NoNull v := by
    intro v hv hnull
    exact hno.2 ⟨v, hv, not_not.mpr hnull⟩
  have hfits : (sampleRow values state (sampleKey values) (values.given "name")).Fits :=
    sampleRow_fits hid hexternal (sampleKey_fits hkey) hname
  have hwanted : wanted m "o" values
      (sampleRow values state (sampleKey values) (values.given "name")) = true := by
    refine sampleRow_wanted hno.1 hstate fun v hv => ?_
    rw [hv]
    exact List.infix_refl _
  exact ((h "o" _ hfits).mpr hwanted).1 hrefused

/-- The key: a row with one that is another, up to the blanks. -/
theorem keyFits_of_found (hpass : ¬ Refused values offset limit) : KeyFits values := by
  obtain ⟨⟨state, hstate⟩, hexternal, hkey, hname⟩ := exists_values hhope
  obtain ⟨name, hnameNull, hmatch⟩ := exists_name m hname
  have hfits : (sampleRow values state (sampleKey values) name).Fits :=
    sampleRow_fits (id_of_not_refused hpass) hexternal (sampleKey_fits hkey) hnameNull
  have hfound : Found m "o" values offset limit
      (sampleRow values state (sampleKey values) name) :=
    sampleRow_found hpass hstate (fun v hv => (hkey v hv).1) hmatch
  obtain ⟨-, -, -, -, hsame, -⟩ := wanted_iff.mp ((h "o" _ hfits).mp hfound)
  intro v hv
  rw [← hsame v hv]
  exact (sampleKey_fits hkey).2

/-- The name is not empty: a row without one. -/
theorem name_ne_empty_of_found (hpass : ¬ Refused values offset limit) :
    values.given "name" ≠ some "" := by
  intro hv
  obtain ⟨⟨state, hstate⟩, hexternal, hkey, hname⟩ := exists_values hhope
  have hfits : (sampleRow values state (sampleKey values) none).Fits :=
    sampleRow_fits (id_of_not_refused hpass) hexternal (sampleKey_fits hkey) fun s hs => by cases hs
  have hwanted : wanted m "o" values (sampleRow values state (sampleKey values) none) = true := by
    refine sampleRow_wanted (keyFits_of_found h hhope hpass) hstate fun w hw => ?_
    rw [hv] at hw
    cases hw
    exact List.infix_refl _
  obtain ⟨-, -, -, -, -, hfound⟩ := (h "o" _ hfits).mpr hwanted
  obtain ⟨-, s, hs, -⟩ := hfound "" hv
  cases hs

/-- The name is no pattern: a row whose name matches and does not hold the text. -/
theorem plain_of_found (hpass : ¬ Refused values offset limit) {v : String}
    (hv : values.given "name" = some v) : ∀ c ∈ v.toList, ¬ Special c := by
  obtain ⟨⟨state, hstate⟩, hexternal, hkey, hname⟩ := exists_values hhope
  by_contra hspecial
  obtain ⟨s, -, hdrawn, hlike, hno⟩ :=
    exists_overmatch (t := m.map v.toList) fun hp => hspecial (m.plain_iff.mp hp)
  have hnull : NoNull (String.ofList s) := by
    rw [NoNull, String.toList_ofList]
    exact m.null_drawn hdrawn (hname v hv)
  have hfits : (sampleRow values state (sampleKey values) (some (String.ofList s))).Fits := by
    refine sampleRow_fits (id_of_not_refused hpass) hexternal (sampleKey_fits hkey) fun t ht => ?_
    cases ht
    exact hnull
  have hfound : Found m "o" values offset limit
      (sampleRow values state (sampleKey values) (some (String.ofList s))) := by
    refine sampleRow_found hpass hstate (fun v hv => (hkey v hv).1) fun w hw => ?_
    rw [hv] at hw
    cases hw
    refine ⟨hname v hv, String.ofList s, rfl, ?_⟩
    rw [String.toList_ofList, m.map_drawn hdrawn]
    exact hlike
  obtain ⟨-, -, -, -, -, hin⟩ := wanted_iff.mp ((h "o" _ hfits).mp hfound)
  have hinfix := hin v hv
  rw [show (sampleRow values state (sampleKey values) (some (String.ofList s))).name.getD ""
    = String.ofList s from rfl, String.toList_ofList, m.map_drawn hdrawn] at hinfix
  exact hno hinfix

end Queries

/-- **A query that always finds what is wanted is sound**: a row for each way to fail. -/
theorem sound_of_found
    (h : ∀ (owner : String) (r : ConfigRow), r.Fits →
      (Found m owner values offset limit r ↔ wanted m owner values r = true)) :
    Sound values offset limit := by
  by_cases hhope : Hopeless values
  · exact .inl hhope
  by_cases hrefused : Refused values offset limit
  · exact .inr (.inl ⟨hrefused, unwanted_of_refused h hhope hrefused⟩)
  · refine .inr (.inr ⟨hrefused, keyFits_of_found h hhope hrefused, fun v hv => ⟨?_, ?_⟩⟩)
    · intro hempty
      rw [hempty] at hv
      exact name_ne_empty_of_found h hhope hrefused hv
    · exact plain_of_found h hhope hrefused hv

end Rows

/-- **The queries that are listed exactly, whatever the tables hold.** -/
theorem listsExactly_iff_sound (server : Server) (values : Values) (offset limit : Nat) :
    ListsExactly server values offset limit ↔ Sound values offset limit := by
  rw [listsExactly_iff_found]
  exact ⟨sound_of_found, fun h owner r hr => found_iff_wanted hr h⟩

/-- A server with the letters of ASCII, and texts in the order of their characters. -/
def plainServer : Server := ⟨.ascii, .byCharacters⟩

/-- A config, as `Save` leaves it. -/
def sampleListed (name : String) : ConfigRow where
  mfThing := "t"
  owner := "o"
  name := some name
  clientCert := none
  clientKey := none
  caCert := none
  mfKey := "11111111-1111-1111-1111-111111111111"
  externalID := "e"
  externalKey := "k"
  content := none
  state := .active

/-- A query with one parameter. -/
def oneParam (k v : String) : Values := ⟨[(k, [v])], List.nodup_singleton _⟩

/-- **The config is there, and no query for its Thing id finds it; a query for `_` finds a name
without one.** -/
theorem query_for_thing_id_fails :
    Stored (DB.single (sampleListed "ab")) ∧
      ¬ Exact plainServer "o" (oneParam "mainflux_id" "t") 0 10 (DB.single (sampleListed "ab"))
        (ConfigRepository.retrieveAll plainServer "o"
          (parseFilter plainServer.letters (oneParam "mainflux_id" "t")) 0 10
          (DB.single (sampleListed "ab"))) ∧
      ¬ Exact plainServer "o" (oneParam "name" "_") 0 10 (DB.single (sampleListed "ab"))
        (ConfigRepository.retrieveAll plainServer "o"
          (parseFilter plainServer.letters (oneParam "name" "_")) 0 10
          (DB.single (sampleListed "ab"))) := by
  have hfits : (sampleListed "ab").Fits := by
    intro c
    cases c with
    | mainfluxKey => exact ⟨by decide, by decide⟩
    | state => trivial
    | content | clientCert | clientKey | caCert =>
        intro t ht
        cases ht
    | mainfluxThing | owner | name | externalID | externalKey =>
        intro t ht
        cases ht
        decide
  refine ⟨stored_single hfits, fun hexact => ?_, fun hexact => ?_⟩
  · have hselected := (selected_of_exact hexact).mpr (by decide +kernel)
    exact absurd hselected.1.1 (by decide)
  · have hw := (selected_of_exact hexact).mp ⟨⟨by decide, by decide, by decide⟩, by decide +kernel⟩
    exact absurd hw (by decide +kernel)

end Mainflux.Bootstrap
