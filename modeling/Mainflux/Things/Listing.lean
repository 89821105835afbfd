/-
  Mainflux.Things.Listing
  ───────────────────────
  **WHICH THINGS AND CHANNELS A LISTING SHOWS.**

  `RetrieveAll` of the two repositories is one statement for the page and one
  for the total.  Two clauses are added when there is something to look for:
  one for the name, one for the metadata; the page has them in one order, the
  total in the other.  Which of them are added, and the parameter of the name,
  is up to `getNameQuery` and `getMetadataQuery`.

    • the page and the total are of the same entities (`page_eq`), whatever
      the offset and the limit are;
    • the text to look for is not escaped: with a `%`, a `_` or a `\` in it,
      names are listed that do not hold it;
    • the driver takes no offset and no limit of 2^63 or more, and the server
      no null character.

  `listing_iff` says for which requests the page is what was asked for,
  whatever the tables hold.
-/
import Mathlib.Data.List.Lex
import Mathlib.Order.Fin.Basic
import Mainflux.Lib.Like
import Mainflux.Things.Repository

namespace Mainflux.Things

open Mainflux.Lib
open Mainflux.Lib.Like

/-! ## §1. The server. -/

mutual

/-- `jsonb` takes no text with a null character, be it a key or a value. -/
def hasNull : Json → Bool
  | .str s => '\x00' ∈ s.toList
  | .arr items => anyNull items
  | .obj fields => fieldNull fields
  | _ => false

def anyNull : List Json → Bool
  | [] => false
  | v :: vs => hasNull v || anyNull vs

def fieldNull : List (String × Json) → Bool
  | [] => false
  | (k, v) :: fs => decide ('\x00' ∈ k.toList) || hasNull v || fieldNull fs

end

/-- What a listing relies on: the mapping to lower case, which is that of Go, and the containment
of `jsonb`. -/
structure Server where
  letters : CaseMap
  contains : JsonObject → JsonObject → Bool
  contains_nil : ∀ m, contains m [] = true
  nil_contains : ∀ f, f ≠ [] → contains [] f = false
  contains_self : ∀ f, contains f f = true

/-- `ORDER BY id`: the bytes of the ids are compared. -/
def uuidOrder : Collation UUID where
  le a b := decide (a.digits ≤ b.digits)
  total a b := by
    rw [decide_eq_true_eq, decide_eq_true_eq]
    exact le_total _ _
  trans h h' := decide_eq_true (le_trans (of_decide_eq_true h) (of_decide_eq_true h'))

/-! ## §2. The statements. -/

/-- The clauses that may be added to `WHERE owner = :owner`. -/
inductive Clause
  /-- `AND LOWER(name) LIKE :name`. -/
  | name
  /-- `AND metadata @> :metadata`. -/
  | metadata
  deriving DecidableEq

/-- `getNameQuery`. -/
def getNameQuery (m : CaseMap) (name : Text) : List Clause × Text :=
  let name := m.map name
  if name ≠ [] then ([.name], search name) else ([], name)

/-- `getMetadataQuery`; what the API has read can be marshalled. -/
def getMetadataQuery (m : Metadata) : JsonObject × List Clause :=
  if (m.getD []).length > 0 then (m.getD [], [.metadata]) else ([], [])

/-- `params`. -/
structure Params where
  owner : String
  limit : Nat
  offset : Nat
  name : Text
  metadata : JsonObject

/-- The columns that the statements read, and what is scanned of a row. -/
structure Table (ρ ε : Type) where
  id : ρ → UUID
  owner : ρ → String
  name : ρ → String
  metadata : ρ → Option JsonObject
  scan : String → ρ → ε

inductive ListErr
  /-- The driver takes no `uint64` with its high bit set. -/
  | highBit
  /-- The server takes no null character. -/
  | nullCharacter
  deriving DecidableEq

/-- The server reads a parameter when a clause has it. -/
def Clause.refuses (params : Params) : Clause → Bool
  | .name => '\x00' ∈ params.name
  | .metadata => fieldNull params.metadata

def Clause.holds {ρ ε : Type} (server : Server) (t : Table ρ ε) (params : Params) (r : ρ) :
    Clause → Bool
  | .name => like params.name (server.letters.map (t.name r).toList)
  | .metadata =>
      match t.metadata r with
      | none => false
      | some m => server.contains m params.metadata

/-- The rows that `WHERE owner = :owner` and the clauses select. -/
def select {ρ ε : Type} (server : Server) (t : Table ρ ε) (params : Params)
    (clauses : List Clause) (rows : List ρ) : Except ListErr (List ρ) :=
  if '\x00' ∈ params.owner.toList ∨ clauses.any (Clause.refuses params) = true then
    .error .nullCharacter
  else
    .ok (rows.filter fun r =>
      t.owner r = params.owner && clauses.all (Clause.holds server t params r))

/-- The page of `RetrieveAll`. -/
structure Page (ε : Type) where
  items : List ε
  total : Nat
  offset : Nat
  limit : Nat

/-- `total`. -/
def total {ρ ε : Type} (server : Server) (t : Table ρ ε) (clauses : List Clause) (params : Params)
    (rows : List ρ) : Except ListErr Nat :=
  (select server t params clauses rows).map List.length

/-- `RetrieveAll`, over either table. -/
def retrieveAll {ρ ε : Type} (server : Server) (t : Table ρ ε) (owner : String)
    (offset limit : Nat) (name : Text) (metadata : Metadata) (rows : List ρ) :
    Except ListErr (Page ε) := do
  let (nq, name) := getNameQuery server.letters name
  let (m, mq) := getMetadataQuery metadata
  let params : Params := { owner, limit, offset, name, metadata := m }
  if 2 ^ 63 ≤ limit ∨ 2 ^ 63 ≤ offset then
    .error .highBit
  let selected ← select server t params (mq ++ nq) rows
  let items := (slice offset limit (uuidOrder.orderBy t.id selected)).map (t.scan owner)
  let total ← total server t (nq ++ mq) params rows
  return { items, total, offset, limit }

/-- The things; `toThing` reads the metadata from the text of the column. -/
def thingTable : Table ThingRow Thing where
  id := ThingRow.id
  owner := ThingRow.owner
  name := ThingRow.name
  metadata r := some r.metadata
  scan owner r := ⟨uuidOut r.id, owner, r.name, r.key, some r.metadata⟩

/-- The channels; a NULL is scanned as nil. -/
def channelTable : Table ChannelRow Channel where
  id := ChannelRow.id
  owner := ChannelRow.owner
  name := ChannelRow.name
  metadata := ChannelRow.metadata
  scan owner r := ⟨uuidOut r.id, owner, r.name, r.metadata⟩

/-- `thingRepository.RetrieveAll`. -/
def ThingRepository.retrieveAll (server : Server) (owner : String) (offset limit : Nat)
    (name : Text) (metadata : Metadata) (d : DB) : Except ListErr (Page Thing) :=
  Things.retrieveAll server thingTable owner offset limit name metadata d.things

/-- `channelRepository.RetrieveAll`. -/
def ChannelRepository.retrieveAll (server : Server) (owner : String) (offset limit : Nat)
    (name : Text) (metadata : Metadata) (d : DB) : Except ListErr (Page Channel) :=
  Things.retrieveAll server channelTable owner offset limit name metadata d.channels

/-! ## §3. What is asked for. -/

section Generic

variable {ρ ε : Type} {server : Server} {t : Table ρ ε} {owner : String} {name : Text}
  {metadata : Metadata} {offset limit : Nat} {rows : List ρ} {r : ρ}

/-- The entity is the owner's, its name holds the text, whatever the case of the letters, and its
metadata contains that of the request. -/
def wanted (server : Server) (t : Table ρ ε) (owner : String) (name : Text) (metadata : Metadata)
    (r : ρ) : Bool :=
  t.owner r = owner && (server.letters.map name <:+: server.letters.map (t.name r).toList) &&
    server.contains ((t.metadata r).getD []) (metadata.getD [])

/-- The page is the slice of all such entities, ordered by id, and counts them all. -/
def Exact (server : Server) (t : Table ρ ε) (owner : String) (offset limit : Nat) (name : Text)
    (metadata : Metadata) (rows : List ρ) (page : Page ε) : Prop :=
  ∃ found, found.Perm (rows.filter (wanted server t owner name metadata)) ∧
    found.Pairwise (uuidOrder.before t.id) ∧
    page.items = (slice offset limit found).map (t.scan owner) ∧ page.total = found.length

/-! ## §4. What the statements select. -/

/-- The parameters and the clauses of a request. -/
def paramsOf (server : Server) (owner : String) (offset limit : Nat) (name : Text)
    (metadata : Metadata) : Params :=
  { owner, limit, offset
    name := (getNameQuery server.letters name).2
    metadata := (getMetadataQuery metadata).1 }

def clausesOf (server : Server) (name : Text) (metadata : Metadata) : List Clause :=
  (getMetadataQuery metadata).2 ++ (getNameQuery server.letters name).1

/-- The order of the clauses does not matter. -/
theorem select_perm {params : Params} {cs cs' : List Clause} (h : cs.Perm cs') :
    select server t params cs rows = select server t params cs' rows := by
  unfold select
  rw [h.any_eq]
  simp only [h.all_eq]

/-- **The page and the total are of the same rows.** -/
theorem page_eq (server : Server) (t : Table ρ ε) (owner : String) (offset limit : Nat)
    (name : Text) (metadata : Metadata) (rows : List ρ) :
    retrieveAll server t owner offset limit name metadata rows
      = if 2 ^ 63 ≤ limit ∨ 2 ^ 63 ≤ offset then .error .highBit
        else
          (select server t (paramsOf server owner offset limit name metadata)
            (clausesOf server name metadata) rows).map fun found =>
              { items := (slice offset limit (uuidOrder.orderBy t.id found)).map (t.scan owner)
                total := found.length, offset, limit } := by
  unfold retrieveAll total
  by_cases hhigh : 2 ^ 63 ≤ limit ∨ 2 ^ 63 ≤ offset
  · simp only [if_pos hhigh]
    rfl
  · simp only [if_neg hhigh]
    have hperm : ((getNameQuery server.letters name).1 ++ (getMetadataQuery metadata).2).Perm
        ((getMetadataQuery metadata).2 ++ (getNameQuery server.letters name).1) :=
      List.perm_append_comm
    rw [select_perm hperm]
    show _ = (select server t (paramsOf server owner offset limit name metadata)
      (clausesOf server name metadata) rows).map _
    cases hselect : select server t (paramsOf server owner offset limit name metadata)
      (clausesOf server name metadata) rows with
    | error err =>
        unfold paramsOf clausesOf at hselect
        rw [hselect]
        rfl
    | ok found =>
        unfold paramsOf clausesOf at hselect
        rw [hselect]
        rfl

/-- The clause for the name: a search for the text, if there is one. -/
theorem nameClause (params : Params) (h : params.name = (getNameQuery server.letters name).2) :
    (getNameQuery server.letters name).1.all (Clause.holds server t params r) = true ↔
      name = [] ∨
        like (search (server.letters.map name)) (server.letters.map (t.name r).toList) = true := by
  by_cases hname : name = []
  · rw [hname]
    exact iff_of_true rfl (.inl rfl)
  · have hmap : server.letters.map name ≠ [] := fun h => hname (List.map_eq_nil_iff.mp h)
    unfold getNameQuery at h ⊢
    simp only [if_pos hmap] at h ⊢
    simp only [List.all_cons, List.all_nil, Bool.and_true, Clause.holds, h, hname, false_or]

/-- The clause for the metadata: NULL contains what the empty object contains. -/
theorem metadataClause (params : Params) (h : params.metadata = (getMetadataQuery metadata).1) :
    (getMetadataQuery metadata).2.all (Clause.holds server t params r)
      = server.contains ((t.metadata r).getD []) (metadata.getD []) := by
  unfold getMetadataQuery at h ⊢
  by_cases hlength : (metadata.getD []).length > 0
  · simp only [if_pos hlength] at h ⊢
    simp only [List.all_cons, List.all_nil, Bool.and_true, Clause.holds, h]
    cases t.metadata r with
    | none => exact (server.nil_contains _ (List.ne_nil_of_length_pos hlength)).symm
    | some m => rfl
  · have hnil : metadata.getD [] = [] :=
      List.length_eq_zero_iff.mp (Nat.eq_zero_of_not_pos hlength)
    simp only [hnil, server.contains_nil]
    rfl

/-- What is selected, row by row. -/
def Found (server : Server) (t : Table ρ ε) (owner : String) (name : Text) (metadata : Metadata)
    (r : ρ) : Prop :=
  t.owner r = owner ∧
    (name = [] ∨
      like (search (server.letters.map name)) (server.letters.map (t.name r).toList) = true) ∧
    server.contains ((t.metadata r).getD []) (metadata.getD []) = true

/-- The request has no null character. -/
def Clean (owner : String) (name : Text) (metadata : Metadata) : Prop :=
  '\x00' ∉ owner.toList ∧ '\x00' ∉ name ∧ fieldNull (metadata.getD []) = false

theorem refuses_iff :
    ('\x00' ∈ (paramsOf server owner offset limit name metadata).owner.toList ∨
        (clausesOf server name metadata).any
          (Clause.refuses (paramsOf server owner offset limit name metadata)) = true) ↔
      ¬ Clean owner name metadata := by
  have hname : (getNameQuery server.letters name).1.any
        (Clause.refuses (paramsOf server owner offset limit name metadata)) = true ↔
      '\x00' ∈ name := by
    by_cases hnil : name = []
    · rw [hnil]
      exact iff_of_false Bool.false_ne_true List.not_mem_nil
    · have hmap : server.letters.map name ≠ [] := fun h => hnil (List.map_eq_nil_iff.mp h)
      simp only [paramsOf, getNameQuery, if_pos hmap, List.any_cons, List.any_nil, Bool.or_false,
        Clause.refuses, decide_eq_true_eq, search, List.mem_cons, List.mem_append,
        server.letters.null_mem, List.not_mem_nil, or_false]
      exact ⟨fun h => by rcases h with h | h | h <;> first | exact h | exact absurd h (by decide),
        fun h => .inr (.inl h)⟩
  have hmetadata : (getMetadataQuery metadata).2.any
        (Clause.refuses (paramsOf server owner offset limit name metadata)) = true ↔
      fieldNull (metadata.getD []) = true := by
    unfold paramsOf getMetadataQuery
    by_cases hlength : (metadata.getD []).length > 0
    · simp only [if_pos hlength, List.any_cons, List.any_nil, Bool.or_false, Clause.refuses]
    · have hnil : metadata.getD [] = [] :=
        List.length_eq_zero_iff.mp (Nat.eq_zero_of_not_pos hlength)
      simp only [hnil]
      exact iff_of_false Bool.false_ne_true Bool.false_ne_true
  rw [clausesOf, List.any_append, Bool.or_eq_true, hname, hmetadata, Clean]
  show '\x00' ∈ owner.toList ∨ _ ↔ _
  rw [not_and_or, not_and_or, not_not, not_not, Bool.not_eq_false, or_comm (a := '\x00' ∈ name)]

/-- The rows of the page, before they are cut. -/
theorem select_eq (hclean : Clean owner name metadata) :
    ∃ p : ρ → Bool, (∀ r, p r = true ↔ Found server t owner name metadata r) ∧
      select server t (paramsOf server owner offset limit name metadata)
        (clausesOf server name metadata) rows = .ok (rows.filter p) := by
  refine ⟨_, fun r => ?_, by rw [select, if_neg (not_not.mpr hclean ∘ refuses_iff.mp)]⟩
  rw [clausesOf, List.all_append, Bool.and_eq_true, Bool.and_eq_true, decide_eq_true_eq,
    nameClause _ rfl, metadataClause _ rfl, Found, and_comm (a := _ = true)]
  rfl

/-- A request that gets a page. -/
theorem accepted_of_ok {page : Page ε}
    (h : retrieveAll server t owner offset limit name metadata rows = .ok page) :
    limit < 2 ^ 63 ∧ offset < 2 ^ 63 ∧ Clean owner name metadata := by
  rw [page_eq] at h
  split at h
  next => cases h
  next hhigh =>
      rw [not_or, Nat.not_le, Nat.not_le] at hhigh
      refine ⟨hhigh.1, hhigh.2, ?_⟩
      by_contra hclean
      rw [select, if_pos (refuses_iff.mpr hclean)] at h
      cases h

/-- The page of a request that is accepted is exact if the rows that are wanted are found. -/
theorem exact_of_found (hlimit : limit < 2 ^ 63) (hoffset : offset < 2 ^ 63)
    (hclean : Clean owner name metadata)
    (h : ∀ r ∈ rows, Found server t owner name metadata r ↔
      wanted server t owner name metadata r = true) :
    ∃ page, retrieveAll server t owner offset limit name metadata rows = .ok page ∧
      Exact server t owner offset limit name metadata rows page := by
  obtain ⟨p, hp, hselect⟩ : ∃ p : ρ → Bool,
      (∀ r, p r = true ↔ Found server t owner name metadata r) ∧
        select server t (paramsOf server owner offset limit name metadata)
          (clausesOf server name metadata) rows = .ok (rows.filter p) := select_eq hclean
  have hhigh : ¬ (2 ^ 63 ≤ limit ∨ 2 ^ 63 ≤ offset) := by
    omega
  have hfilter : rows.filter p = rows.filter (wanted server t owner name metadata) := by
    refine List.filter_congr fun r hr => ?_
    rw [Bool.eq_iff_iff, hp]
    exact h r hr
  refine ⟨_, by rw [page_eq, if_neg hhigh, hselect]; rfl, uuidOrder.orderBy t.id (rows.filter p), ?_,
    uuidOrder.pairwise_orderBy _ _, rfl, ?_⟩
  · rw [← hfilter]
    exact uuidOrder.perm_orderBy _ _
  · exact (uuidOrder.perm_orderBy _ _).length_eq.symm

/-- The total of a table with one row tells whether the row is found. -/
theorem found_of_exact {page : Page ε}
    (h : retrieveAll server t owner offset limit name metadata [r] = .ok page)
    (hexact : Exact server t owner offset limit name metadata [r] page) :
    Found server t owner name metadata r ↔ wanted server t owner name metadata r = true := by
  obtain ⟨hlimit, hoffset, hclean⟩ := accepted_of_ok h
  obtain ⟨p, hp, hselect⟩ : ∃ p : ρ → Bool,
      (∀ r, p r = true ↔ Found server t owner name metadata r) ∧
        select server t (paramsOf server owner offset limit name metadata)
          (clausesOf server name metadata) [r] = .ok ([r].filter p) := select_eq hclean
  have hhigh : ¬ (2 ^ 63 ≤ limit ∨ 2 ^ 63 ≤ offset) := by
    omega
  rw [page_eq, if_neg hhigh, hselect] at h
  cases h
  obtain ⟨found, hperm, -, -, htotal⟩ := hexact
  rw [hperm.length_eq, ← List.countP_eq_length_filter] at htotal
  have hcount : [r].countP p = [r].countP (wanted server t owner name metadata) := by
    rw [← htotal, List.countP_eq_length_filter]
  simp only [List.countP_singleton] at hcount
  rw [← hp]
  constructor
  · intro hfound
    rw [if_pos hfound] at hcount
    by_contra hno
    rw [if_neg hno] at hcount
    cases hcount
  · intro hwanted
    rw [if_pos hwanted] at hcount
    by_contra hno
    rw [if_neg hno] at hcount
    cases hcount

/-! ## §5. When the listing is exact. -/

/-- The columns of a table: what they can hold, and that they can hold it. -/
structure Columns (t : Table ρ ε) where
  Stored : List ρ → Prop
  width : ∀ {rows r}, Stored rows → r ∈ rows →
    fitsVarchar 254 (t.owner r) ∧ fitsVarchar 1024 (t.name r)
  exists_row : ∀ {owner name : String} (m : JsonObject), fitsVarchar 254 owner →
    fitsVarchar 1024 name →
    ∃ r, Stored [r] ∧ t.owner r = owner ∧ t.name r = name ∧ t.metadata r = some m

/-- No row matches the pattern: the owner is too long, or every text that matches is. -/
def Unmatched (server : Server) (owner : String) (name : Text) : Prop :=
  254 < owner.length ∨ 1024 < (shortest (server.letters.map name)).length

/-- The requests that are listed as they should be. -/
def Sound (server : Server) (owner : String) (offset limit : Nat) (name : Text)
    (metadata : Metadata) : Prop :=
  limit < 2 ^ 63 ∧ offset < 2 ^ 63 ∧ Clean owner name metadata ∧
    ((∀ c ∈ name, ¬ Special c) ∨ Unmatched server owner name)

/-- A text in the name, by its pattern. -/
theorem found_iff_wanted_of_plain (h : ∀ c ∈ name, ¬ Special c) :
    Found server t owner name metadata r ↔ wanted server t owner name metadata r = true := by
  have hname : (name = [] ∨
        like (search (server.letters.map name)) (server.letters.map (t.name r).toList) = true) ↔
      server.letters.map name <:+: server.letters.map (t.name r).toList := by
    rw [like_search (server.letters.plain_iff.mpr h)]
    refine or_iff_right_of_imp fun hnil => ?_
    rw [hnil]
    exact List.nil_infix
  rw [Found, hname]
  simp only [wanted, Bool.and_eq_true, decide_eq_true_eq, and_assoc]

theorem length_map (m : CaseMap) (s : Text) : (m.map s).length = s.length := List.length_map _

/-- What no row matches is not wanted either. -/
theorem found_iff_wanted_of_unmatched (h : Unmatched server owner name)
    (howner : fitsVarchar 254 (t.owner r)) (hwidth : fitsVarchar 1024 (t.name r)) :
    Found server t owner name metadata r ↔ wanted server t owner name metadata r = true := by
  have howner' : (t.owner r).length ≤ 254 := howner
  have hwidth' : (server.letters.map (t.name r).toList).length ≤ 1024 := by
    rw [length_map, String.length_toList]
    exact hwidth
  simp only [Found, wanted, Bool.and_eq_true, decide_eq_true_eq]
  rcases h with h | h
  · have hne : t.owner r ≠ owner := by
      intro heq
      rw [heq] at howner'
      omega
    exact iff_of_false (fun hf => hne hf.1) fun hw => hne hw.1.1
  · have hlength := (shortest_spec (server.letters.map name)).1
    refine iff_of_false (fun hf => ?_) fun hw => ?_
    · rcases hf.2.1 with hnil | hlike
      · rw [hnil] at h
        exact absurd h (show ¬ 1024 < (shortest []).length by decide)
      · have := shortest_le hlike
        omega
    · have := hw.1.2.length_le
      omega

/-- **The listing is exact, whatever the table holds, for these requests and no others.** -/
theorem exact_iff_sound (columns : Columns t) :
    (∀ rows, columns.Stored rows →
      ∃ page, retrieveAll server t owner offset limit name metadata rows = .ok page ∧
        Exact server t owner offset limit name metadata rows page) ↔
      Sound server owner offset limit name metadata := by
  constructor
  · intro h
    -- any table tells whether the request is accepted
    obtain ⟨any, hany, -⟩ := columns.exists_row [] (show fitsVarchar 254 "" by decide)
      (show fitsVarchar 1024 "" by decide)
    obtain ⟨page, hok, -⟩ := h [any] hany
    obtain ⟨hlimit, hoffset, hclean⟩ := accepted_of_ok hok
    refine ⟨hlimit, hoffset, hclean, ?_⟩
    by_contra hno
    rw [not_or, Unmatched, not_or, Nat.not_lt, Nat.not_lt] at hno
    obtain ⟨hspecial, howner, hshort⟩ := hno
    -- a name that matches the pattern and does not hold the text
    obtain ⟨s, hlength, hdrawn, hlike, hinfix⟩ :=
      exists_overmatch (t := server.letters.map name) fun hp =>
        hspecial (server.letters.plain_iff.mp hp)
    have hfits : fitsVarchar 1024 (String.ofList s) := by
      show (String.ofList s).length ≤ 1024
      rw [String.length_ofList]
      omega
    obtain ⟨r, hr, hrowner, hrname, hrmetadata⟩ :=
      columns.exists_row (metadata.getD []) howner hfits
    obtain ⟨page', hok', hexact⟩ := h [r] hr
    have hmap : server.letters.map (t.name r).toList = s := by
      rw [hrname, String.toList_ofList, server.letters.map_drawn hdrawn]
    have hfound : Found server t owner name metadata r := by
      refine ⟨hrowner, .inr (hmap ▸ hlike), ?_⟩
      rw [hrmetadata]
      exact server.contains_self _
    have hwanted := (found_of_exact hok' hexact).mp hfound
    simp only [wanted, Bool.and_eq_true, decide_eq_true_eq, hmap] at hwanted
    exact hinfix hwanted.1.2
  · rintro ⟨hlimit, hoffset, hclean, hname⟩ rows hrows
    refine exact_of_found hlimit hoffset hclean fun r hr => ?_
    rcases hname with hplain | hunmatched
    · exact found_iff_wanted_of_plain hplain
    · obtain ⟨howner, hwidth⟩ := columns.width hrows hr
      exact found_iff_wanted_of_unmatched hunmatched howner hwidth

end Generic

/-! ## §6. Things and channels. -/

/-- The table of the things. -/
def thingColumns : Columns thingTable where
  Stored rows := ∃ d : DB, d.Schema ∧ d.things = rows
  width := by
    rintro rows r ⟨d, hd, rfl⟩ hr
    obtain ⟨howner, -, hname⟩ := hd.thing_width r hr
    exact ⟨howner, hname⟩
  exists_row := by
    intro owner name m howner hname
    refine ⟨⟨UUID.fill 0, owner, name, "", m⟩, ⟨⟨[_], [], []⟩, ?_, rfl⟩, rfl, rfl, rfl⟩
    refine ⟨List.nodup_singleton _, List.nodup_singleton _, ?_, List.nodup_nil, ?_, List.nodup_nil,
      ?_, ?_⟩
    · intro r hr
      rw [List.mem_singleton.mp hr]
      exact ⟨howner, show fitsVarchar 4096 "" by decide, hname⟩
    · intro r hr
      cases hr
    · intro co hco
      cases hco
    · intro co hco
      cases hco

/-- The table of the channels. -/
def channelColumns : Columns channelTable where
  Stored rows := ∃ d : DB, d.Schema ∧ d.channels = rows
  width := by
    rintro rows r ⟨d, hd, rfl⟩ hr
    exact hd.channel_width r hr
  exists_row := by
    intro owner name m howner hname
    refine ⟨⟨UUID.fill 0, owner, name, some m⟩, ⟨⟨[], [_], []⟩, ?_, rfl⟩, rfl, rfl, rfl⟩
    refine ⟨List.nodup_nil, List.nodup_nil, ?_, List.nodup_singleton _, ?_, List.nodup_nil, ?_, ?_⟩
    · intro r hr
      cases hr
    · intro r hr
      rw [List.mem_singleton.mp hr]
      exact ⟨howner, hname⟩
    · intro co hco
      cases hco
    · intro co hco
      cases hco

/-- **Both listings are exact, whatever the database holds, for the sound requests and no
others.** -/
theorem listing_iff (server : Server) (owner : String) (offset limit : Nat) (name : Text)
    (metadata : Metadata) :
    ((∀ d : DB, d.Schema →
        ∃ page,
          ThingRepository.retrieveAll server owner offset limit name metadata d = .ok page ∧
            Exact server thingTable owner offset limit name metadata d.things page) ↔
      Sound server owner offset limit name metadata) ∧
    ((∀ d : DB, d.Schema →
        ∃ page,
          ChannelRepository.retrieveAll server owner offset limit name metadata d = .ok page ∧
            Exact server channelTable owner offset limit name metadata d.channels page) ↔
      Sound server owner offset limit name metadata) := by
  constructor
  · rw [← exact_iff_sound thingColumns]
    constructor
    · rintro h rows ⟨d, hd, rfl⟩
      exact h d hd
    · intro h d hd
      exact h d.things ⟨d, hd, rfl⟩
  · rw [← exact_iff_sound channelColumns]
    constructor
    · rintro h rows ⟨d, hd, rfl⟩
      exact h d hd
    · intro h d hd
      exact h d.channels ⟨d, hd, rfl⟩

/-- A server with the letters of ASCII; an object contains another when it has all its fields. -/
def plainServer : Server where
  letters := .ascii
  contains m f := f.all (· ∈ m)
  contains_nil m := rfl
  nil_contains f hf := by
    cases f with
    | nil => exact absurd rfl hf
    | cons kv f => rfl
  contains_self f := List.all_eq_true.mpr fun kv hkv => decide_eq_true hkv

/-- **A search for `_` lists a thing whose name has none.** -/
theorem underscore_lists_any_name :
    ∃ d : DB, d.Schema ∧ ¬ ∃ page,
      ThingRepository.retrieveAll plainServer "o" 0 10 ['_'] none d = .ok page ∧
        Exact plainServer thingTable "o" 0 10 ['_'] none d.things page := by
  obtain ⟨r, ⟨d, hd, hrows⟩, howner, hname, hmetadata⟩ :=
    thingColumns.exists_row [] (show fitsVarchar 254 "o" by decide)
      (show fitsVarchar 1024 "a" by decide)
  refine ⟨d, hd, ?_⟩
  rintro ⟨page, hok, hexact⟩
  rw [ThingRepository.retrieveAll, hrows] at hok
  rw [hrows] at hexact
  have hfound : Found plainServer thingTable "o" ['_'] none r := by
    refine ⟨howner, .inr ?_, ?_⟩
    · rw [hname]
      decide
    · rfl
  have hwanted := (found_of_exact hok hexact).mp hfound
  simp only [wanted, hname, Bool.and_eq_true, decide_eq_true_eq] at hwanted
  exact absurd hwanted.1.2 (by decide)

end Mainflux.Things
