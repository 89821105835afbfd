/-
  Mainflux.Storage.Condition
  ──────────────────────────
  **WHAT THE INFLUXDB READER ASKS FOR.**

  `fmtCondition` writes the condition of a query as a text, with the channel id and the
  values of the query map spliced in.  InfluxDB reads the text (`Lib.InfluxQL`).  All
  values stand between single quotes.  Of a subtopic and a publisher the single quotes are
  escaped, of a name and a protocol the double ones; backslashes are not escaped at all.
  A value is taken as its characters.

    • `scan_exact` — when a literal is read as the value it was written for;
    • `parse_iff` — a condition is read as the equalities it was written for exactly when
      all its values are;
    • `condition_iff` — for the channels that have passed authorization, whose ids need no
      escape.
-/
import Mainflux.Lib.InfluxQL
import Mainflux.Storage.Influx
import Mainflux.Things.Granted

namespace Mainflux.Storage

open Mainflux.Lib

open Mainflux.Lib.InfluxQL

/-! ## §1. `fmtCondition`. -/

def channelWord : Text := ['c', 'h', 'a', 'n', 'n', 'e', 'l']

def subtopicWord : Text := ['s', 'u', 'b', 't', 'o', 'p', 'i', 'c']

def publisherWord : Text := ['p', 'u', 'b', 'l', 'i', 's', 'h', 'e', 'r']

def nameWord : Text := ['n', 'a', 'm', 'e']

def protocolWord : Text := ['p', 'r', 'o', 't', 'o', 'c', 'o', 'l']

/-- `case "channel", "subtopic", "publisher"`. -/
def IsTag (name : Text) : Prop := name = channelWord ∨ name = subtopicWord ∨ name = publisherWord

instance : DecidablePred IsTag := fun _ => inferInstanceAs (Decidable (_ ∨ _ ∨ _))

/-- `case "name", "protocol"`. -/
def IsField (name : Text) : Prop := name = nameWord ∨ name = protocolWord

instance : DecidablePred IsField := fun _ => inferInstanceAs (Decidable (_ ∨ _))

/-- A round of the loop of `fmtCondition`. -/
def addCondition (condition : Text) (q : Text × Text) : Text :=
  if IsTag q.1 then
    condition ++ [' ', 'A', 'N', 'D', ' '] ++ q.1 ++ ['=', '\''] ++ escapeWith ['\''] q.2 ++ ['\'']
  else if IsField q.1 then
    condition ++ [' ', 'A', 'N', 'D', ' ', '"'] ++ q.1 ++ ['"', '=', '\''] ++ escapeWith ['"'] q.2
      ++ ['\'']
  else condition

/-- `fmtCondition`; the map as the loop goes through it. -/
def fmtCondition (chanID : Text) (query : List (Text × Text)) : Text :=
  query.foldl addCondition (channelWord ++ ['=', '\''] ++ chanID ++ ['\''])

/-! ## §2. One literal. -/

section Literal

variable {mark : Char} {rest : Text}

/-- A value with the character `mark` escaped, behind its first quote. -/
def literal (mark : Char) (v rest : Text) : Text := escapeWith [mark] v ++ '\'' :: rest

/-- The values that are read as they were written, if `mark` is escaped in them. -/
inductive Kept (mark : Char) : Text → Prop
  | nil : Kept mark []
  | mark {v : Text} : Kept mark v → Kept mark (mark :: v)
  | plain {c : Char} {v : Text} : c ≠ '\\' → c ≠ '\'' → isBreak c = false → Kept mark v →
      Kept mark (c :: v)
  -- the backslash escapes the one that was put in, and the mark stands for itself
  | pair {v : Text} : mark ≠ '\'' → Kept mark v → Kept mark ('\\' :: mark :: v)

theorem literal_nil : literal mark [] rest = '\'' :: rest := rfl

theorem literal_mark (v : Text) :
    literal mark (mark :: v) rest = '\\' :: mark :: literal mark v rest := by
  simp [literal, escapeWith]

theorem literal_cons {c : Char} (h : c ≠ mark) (v : Text) :
    literal mark (c :: v) rest = c :: literal mark v rest := by
  simp [literal, escapeWith, h]

theorem escapeWith_of_not_mem {v : Text} (h : mark ∉ v) : escapeWith [mark] v = v := by
  induction v with
  | nil => rfl
  | cons c v ih =>
      obtain ⟨hc, hv⟩ : mark ≠ c ∧ mark ∉ v := by simpa using h
      have htail : escapeWith [mark] v = v := ih hv
      unfold escapeWith at htail ⊢
      rw [List.flatMap_cons, htail, if_neg (by simpa using Ne.symm hc), List.singleton_append]

theorem unescape_eq_backslash {c : Char} (h : unescape c = some '\\') : c = '\\' := by
  unfold unescape at h
  split at h
  · exact absurd (Option.some.inj h) (by decide)
  split at h
  · exact Option.some.inj h
  · cases h

theorem mark_ne_backslash (hm : mark = '\'' ∨ mark = '"') : mark ≠ '\\' := by
  rcases hm with rfl | rfl <;> decide

theorem unescape_mark (hm : mark = '\'' ∨ mark = '"') : unescape mark = some mark := by
  rcases hm with rfl | rfl <;> decide

/-- A kept value, up to the quote behind it. -/
theorem scan_of_kept (hm : mark = '\'' ∨ mark = '"') {v : Text} (h : Kept mark v) :
    scanString '\'' (literal mark v rest) = some (v, rest) := by
  have hend : '\'' ≠ '\\' := by decide
  have hmark : ∀ {v : Text}, scanString '\'' (literal mark v rest) = some (v, rest) →
      scanString '\'' (literal mark (mark :: v) rest) = some (mark :: v, rest) := by
    intro v ih
    rw [literal_mark, scanString_escape _ _ hend, unescape_mark hm, ih]
    rfl
  -- along the way in which the value is kept
  induction h with
  | nil => exact scanString_ending rest
  | mark _ ih => exact hmark ih
  | @plain c v hback hquote hbreak _ ih =>
      -- a double quote may be the mark
      by_cases hc : c = mark
      · rw [hc]
        exact hmark ih
      · rw [literal_cons hc, scanString_cons _ hquote hbreak hback, ih]
        rfl
  | @pair v hquote _ ih =>
      have hbreak : isBreak mark = false := by rcases hm with rfl | rfl <;> decide
      rw [literal_cons (mark_ne_backslash hm).symm, literal_mark, scanString_escape _ _ hend,
        scanString_cons _ hquote hbreak (mark_ne_backslash hm), ih]
      rfl

/-- What is read behind a backslash of the value, if a backslash is read. -/
theorem scan_backslash (hm : mark = '\'' ∨ mark = '"') {u x r : Text}
    (h : scanString '\'' (literal mark ('\\' :: u) rest) = some ('\\' :: x, r)) :
    (∃ u', u = '\\' :: u' ∧ scanString '\'' (literal mark u' rest) = some (x, r)) ∨
      ∃ u', u = mark :: u' ∧ scanString '\'' (mark :: literal mark u' rest) = some (x, r) := by
  rw [literal_cons (mark_ne_backslash hm).symm] at h
  obtain ⟨c, cs, hcs, hc, hscan⟩ := scanString_escape_inv (by decide) h
  obtain rfl := unescape_eq_backslash hc
  cases u with
  | nil => exact absurd (List.cons.inj hcs).1 (by decide)
  | cons c u =>
      by_cases hmark : c = mark
      · subst hmark
        rw [literal_mark] at hcs
        rw [← (List.cons.inj hcs).2] at hscan
        exact .inr ⟨u, rfl, hscan⟩
      · rw [literal_cons hmark] at hcs
        obtain ⟨rfl, rfl⟩ := List.cons.inj hcs
        exact .inl ⟨u, rfl, hscan⟩

/-- Only a backslash is read as a backslash. -/
theorem eq_backslash_of_scan {c : Char} {u x r : Text}
    (h : scanString '\'' (literal mark (c :: u) rest) = some ('\\' :: x, r)) : c = '\\' := by
  by_contra hback
  by_cases hmark : c = mark
  · subst hmark
    rw [literal_mark] at h
    obtain ⟨d, cs, hcs, hd, -⟩ := scanString_escape_inv (by decide) h
    obtain ⟨rfl, -⟩ := List.cons.inj hcs
    exact hback (unescape_eq_backslash hd)
  · rw [literal_cons hmark] at h
    exact hback (scanString_inv hback h).2.2.1.symm

theorem replicate_backslash (i : Nat) (u : Text) :
    List.replicate i '\\' ++ '\\' :: u = '\\' :: (List.replicate i '\\' ++ u) := by
  induction i with
  | zero => rfl
  | succ i ih => rw [List.replicate_succ, List.cons_append, ih, List.cons_append]

/-- **Backslashes do not multiply**: no value is read with more of them in front. -/
theorem scan_ne_backslashes (hm : mark = '\'' ∨ mark = '"') (n : Nat) {u : Text}
    (hu : u.length ≤ n) (i : Nat) (r : Text) :
    scanString '\'' (literal mark u rest) ≠ some ('\\' :: (List.replicate i '\\' ++ u), r) := by
  intro h
  induction n generalizing u i with
  | zero =>
      obtain rfl := List.length_eq_zero_iff.mp (Nat.le_zero.mp hu)
      rw [literal_nil, scanString_ending] at h
      cases h
  | succ n ih =>
      cases u with
      | nil =>
          rw [literal_nil, scanString_ending] at h
          cases h
      | cons c u =>
          obtain rfl := eq_backslash_of_scan h
          rw [replicate_backslash] at h
          rcases scan_backslash hm h with ⟨u', rfl, hscan⟩ | ⟨u', rfl, hscan⟩
          · -- two backslashes have been read as one: there is one more to come than before
            rw [replicate_backslash] at hscan
            simp only [List.length_cons] at hu
            exact ih (by omega) (i + 1) hscan
          · -- behind them the mark is read, and not a backslash
            have hread := scanString_inv (mark_ne_backslash hm) hscan
            exact mark_ne_backslash hm hread.2.2.1.symm

/-- What is read as it was written is kept. -/
theorem kept_of_scan (hm : mark = '\'' ∨ mark = '"') (n : Nat) {v : Text} (hv : v.length ≤ n)
    {r : Text} (h : scanString '\'' (literal mark v rest) = some (v, r)) :
    Kept mark v ∧ r = rest := by
  induction n generalizing v with
  | zero =>
      obtain rfl := List.length_eq_zero_iff.mp (Nat.le_zero.mp hv)
      rw [literal_nil, scanString_ending] at h
      exact ⟨.nil, (Prod.mk.inj (Option.some.inj h)).2.symm⟩
  | succ n ih =>
      cases v with
      | nil =>
          rw [literal_nil, scanString_ending] at h
          exact ⟨.nil, (Prod.mk.inj (Option.some.inj h)).2.symm⟩
      | cons c u =>
          simp only [List.length_cons] at hv
          -- the mark behind its escape, a backslash of the value, or a plain character
          by_cases hmark : c = mark
          · subst hmark
            rw [literal_mark] at h
            obtain ⟨d, cs, hcs, -, hscan⟩ := scanString_escape_inv (by decide) h
            obtain ⟨-, rfl⟩ := List.cons.inj hcs
            obtain ⟨hkept, hr⟩ := ih (by omega) hscan
            exact ⟨hkept.mark, hr⟩
          by_cases hback : c = '\\'
          · subst hback
            rcases scan_backslash hm h with ⟨u', rfl, hscan⟩ | ⟨u', rfl, hscan⟩
            · -- one of the two is lost, and nothing that follows makes up for it
              exact absurd hscan (scan_ne_backslashes hm u'.length le_rfl 0 r)
            · simp only [List.length_cons] at hv
              obtain ⟨hquote, -, -, hscan⟩ := scanString_inv (mark_ne_backslash hm) hscan
              obtain ⟨hkept, hr⟩ := ih (by omega) hscan
              exact ⟨hkept.pair hquote, hr⟩
          · rw [literal_cons hmark] at h
            obtain ⟨hquote, hbreak, -, hscan⟩ := scanString_inv hback h
            obtain ⟨hkept, hr⟩ := ih (by omega) hscan
            exact ⟨hkept.plain hback hquote hbreak, hr⟩

/-- **A literal is read as the value it was written for exactly when the value is kept.** -/
theorem scan_exact (hm : mark = '\'' ∨ mark = '"') {v r : Text} :
    scanString '\'' (literal mark v rest) = some (v, r) ↔ Kept mark v ∧ r = rest := by
  constructor
  · intro h
    exact kept_of_scan hm v.length le_rfl h
  · rintro ⟨hkept, rfl⟩
    exact scan_of_kept hm hkept

end Literal

/-! ### The kept values. -/

/-- Of a subtopic and a publisher: no backslash, in one line. -/
def TagSafe (v : Text) : Prop := ∀ c ∈ v, c ≠ '\\' ∧ isBreak c = false

/-- Of a name and a protocol: no single quote, in one line, and backslashes in front of
double quotes only. -/
structure FieldSafe (v : Text) : Prop where
  chars : ∀ c ∈ v, c ≠ '\'' ∧ isBreak c = false
  backslashes : ∀ front back, v = front ++ '\\' :: back → back.head? = some '"'

theorem kept_tag_iff {v : Text} : Kept '\'' v ↔ TagSafe v := by
  constructor
  · intro h
    induction h with
    | nil => exact fun c hc => absurd hc List.not_mem_nil
    | mark _ ih =>
        intro c hc
        rcases List.mem_cons.mp hc with rfl | hc
        · decide
        · exact ih c hc
    | plain hback _ hbreak _ ih =>
        intro c hc
        rcases List.mem_cons.mp hc with rfl | hc
        · exact ⟨hback, hbreak⟩
        · exact ih c hc
    | pair hne _ _ => exact absurd rfl hne
  · intro h
    induction v with
    | nil => exact .nil
    | cons c v ih =>
        have hv := ih fun d hd => h d (List.mem_cons_of_mem _ hd)
        obtain ⟨hback, hbreak⟩ := h c List.mem_cons_self
        by_cases hquote : c = '\''
        · rw [hquote]
          exact hv.mark
        · exact hv.plain hback hquote hbreak

/-- A character that is no backslash, in front. -/
theorem FieldSafe.cons {c : Char} {v : Text} (hback : c ≠ '\\') (hquote : c ≠ '\'')
    (hbreak : isBreak c = false) (h : FieldSafe v) : FieldSafe (c :: v) where
  chars := by
    intro d hd
    rcases List.mem_cons.mp hd with rfl | hd
    · exact ⟨hquote, hbreak⟩
    · exact h.chars d hd
  backslashes := by
    intro front back heq
    cases front with
    | nil => exact absurd (List.cons.inj heq).1 hback
    | cons d front => exact h.backslashes front back (List.cons.inj heq).2

/-- A backslash and a double quote, in front. -/
theorem FieldSafe.pair {v : Text} (h : FieldSafe v) : FieldSafe ('\\' :: '"' :: v) where
  chars := by
    intro d hd
    have htail := h.cons (c := '"') (by decide) (by decide) (by decide)
    rcases List.mem_cons.mp hd with rfl | hd
    · decide
    · exact htail.chars d hd
  backslashes := by
    intro front back heq
    have htail := h.cons (c := '"') (by decide) (by decide) (by decide)
    cases front with
    | nil =>
        rw [← (List.cons.inj heq).2]
        rfl
    | cons d front => exact htail.backslashes front back (List.cons.inj heq).2

theorem FieldSafe.tail {c : Char} {v : Text} (h : FieldSafe (c :: v)) : FieldSafe v where
  chars d hd := h.chars d (List.mem_cons_of_mem _ hd)
  backslashes front back heq := h.backslashes (c :: front) back (by rw [heq]; rfl)

theorem kept_of_fieldSafe (n : Nat) {v : Text} (hv : v.length ≤ n) (h : FieldSafe v) :
    Kept '"' v := by
  induction n generalizing v with
  | zero =>
      obtain rfl := List.length_eq_zero_iff.mp (Nat.le_zero.mp hv)
      exact .nil
  | succ n ih =>
      cases v with
      | nil => exact .nil
      | cons c v =>
          simp only [List.length_cons] at hv
          obtain ⟨hquote, hbreak⟩ := h.chars c List.mem_cons_self
          by_cases hback : c = '\\'
          · -- the double quote behind the backslash goes with it
            subst hback
            obtain ⟨v', rfl⟩ := List.head?_eq_some_iff.mp (h.backslashes [] v rfl)
            simp only [List.length_cons] at hv
            exact (ih (by omega) h.tail.tail).pair (by decide)
          · exact (ih (by omega) h.tail).plain hback hquote hbreak

theorem kept_field_iff {v : Text} : Kept '"' v ↔ FieldSafe v := by
  constructor
  · intro h
    induction h with
    | nil => exact ⟨fun c hc => absurd hc List.not_mem_nil, fun front back heq => by simp at heq⟩
    | mark _ ih => exact ih.cons (by decide) (by decide) (by decide)
    | plain hback hquote hbreak _ ih => exact ih.cons hback hquote hbreak
    | pair _ _ ih => exact ih.pair
  · intro h
    exact kept_of_fieldSafe v.length le_rfl h

/-! ## §3. A condition. -/

def Filter.text : Filter → Text
  | .channel => channelWord
  | .subtopic => subtopicWord
  | .publisher => publisherWord
  | .name => nameWord
  | .protocol => protocolWord

/-- The filter that a key of the map names. -/
def filterOf (name : Text) : Option Filter :=
  if name = channelWord then some .channel
  else if name = subtopicWord then some .subtopic
  else if name = publisherWord then some .publisher
  else if name = nameWord then some .name
  else if name = protocolWord then some .protocol
  else none

/-- The character that is escaped in a value. -/
def Filter.mark : Filter → Char
  | .channel => '\''
  | .subtopic => '\''
  | .publisher => '\''
  | .name => '"'
  | .protocol => '"'

/-- The column, as it is written. -/
def Filter.ident : Filter → Text
  | .channel => channelWord
  | .subtopic => subtopicWord
  | .publisher => publisherWord
  | .name => '"' :: nameWord ++ ['"']
  | .protocol => '"' :: protocolWord ++ ['"']

/-- The filters of a query map, as `Storage.readAll` has them. -/
def filtersOf (query : List (Text × Text)) : List (Filter × Text) :=
  query.filterMap fun q => (filterOf q.1).map fun f => (f, q.2)

/-- What the loop of `fmtCondition` adds. -/
def clauses : List (Filter × Text) → Text
  | [] => []
  | q :: qs =>
      [' ', 'A', 'N', 'D', ' '] ++ q.1.ident ++ ['=', '\''] ++ literal q.1.mark q.2 (clauses qs)

/-- **What a condition is to say**: the channel, and each recognised field with its
value. -/
def meant (chanID : Text) (query : List (Text × Text)) : List (Text × Text) :=
  (channelWord, chanID) :: query.filter fun q => (filterOf q.1).isSome

section Clauses

theorem mark_cases (f : Filter) : f.mark = '\'' ∨ f.mark = '"' := by
  cases f <;> simp [Filter.mark]

theorem filterOf_eq_some {name : Text} {f : Filter} (h : filterOf name = some f) : name = f.text := by
  unfold filterOf at h
  split_ifs at h with hname hname hname hname hname
  all_goals
    obtain rfl := Option.some.inj h
    exact hname

theorem filterOf_eq_none {name : Text} (h : filterOf name = none) :
    ¬ IsTag name ∧ ¬ IsField name := by
  unfold filterOf at h
  unfold IsTag IsField
  grind

theorem isTag_text (f : Filter) : IsTag f.text ↔ f.mark = '\'' := by
  cases f <;> decide

theorem isField_text (f : Filter) : IsField f.text ↔ f.mark = '"' := by
  cases f <;> decide

/-- A round of the loop. -/
theorem addCondition_eq (condition : Text) (q : Text × Text) (qs : List (Filter × Text)) :
    addCondition condition q ++ clauses qs = condition ++ clauses (filtersOf [q] ++ qs) := by
  obtain ⟨name, v⟩ := q
  cases hf : filterOf name with
  | none =>
      -- a key that is not recognised adds nothing
      obtain ⟨htag, hfield⟩ := filterOf_eq_none hf
      simp [addCondition, filtersOf, htag, hfield, hf]
  | some f =>
      obtain rfl := filterOf_eq_some hf
      simp only [filtersOf, List.filterMap_cons, hf, Option.map_some, List.filterMap_nil,
        List.cons_append, List.nil_append, clauses, literal, addCondition, isTag_text,
        isField_text]
      cases f with
      | channel | subtopic | publisher => simp [Filter.text, Filter.ident, Filter.mark]
      | name | protocol => simp [Filter.text, Filter.ident, Filter.mark]

/-- **The loop**, over the whole map. -/
theorem foldl_addCondition (condition : Text) (query : List (Text × Text)) :
    query.foldl addCondition condition = condition ++ clauses (filtersOf query) := by
  induction query generalizing condition with
  | nil => exact (List.append_nil condition).symm
  | cons q query ih =>
      have hsplit : filtersOf (q :: query) = filtersOf [q] ++ filtersOf query := by
        rw [filtersOf, filtersOf, filtersOf, ← List.filterMap_append, List.singleton_append]
      rw [List.foldl_cons, ih, addCondition_eq, hsplit]

theorem fmtCondition_eq (chanID : Text) (query : List (Text × Text)) :
    fmtCondition chanID query
      = channelWord ++ '=' :: '\'' :: (chanID ++ '\'' :: clauses (filtersOf query)) := by
  rw [fmtCondition, foldl_addCondition]
  simp

/-- The recognised fields, with their names. -/
theorem map_filtersOf (query : List (Text × Text)) :
    (filtersOf query).map (fun q => (q.1.text, q.2))
      = query.filter fun q => (filterOf q.1).isSome := by
  induction query with
  | nil => rfl
  | cons q query ih =>
      unfold filtersOf at ih ⊢
      rw [List.filterMap_cons, List.filter_cons]
      cases hf : filterOf q.1 with
      | none => exact ih
      | some f =>
          obtain ⟨name, v⟩ := q
          obtain rfl := filterOf_eq_some hf
          simp only [Option.map_some, List.map_cons, ih, Option.isSome_some, if_true]

/-! ### Reading it. -/

theorem parseEquality_ident (f : Filter) (t : Text) :
    parseEquality (f.ident ++ '=' :: '\'' :: t)
      = (scanString '\'' t).map fun r => ((f.text, r.1), r.2) := by
  have hident : scanIdent (skipBlank (f.ident ++ '=' :: '\'' :: t))
      = some (f.text, '=' :: '\'' :: t) := by
    cases f with
    | channel | subtopic | publisher =>
        exact scanIdent_name ('\'' :: t) (by decide) (Text.forall_mem_of_all (by decide)) (by decide)
    | name | protocol => rfl
  simp only [parseEquality, hident]
  rfl

/-- **One clause.** -/
theorem parseRest_clause (fuel : Nat) (q : Filter × Text) (qs : List (Filter × Text)) :
    parseRest (fuel + 1) (clauses (q :: qs))
      = (scanString '\'' (literal q.1.mark q.2 (clauses qs))).bind fun r =>
          (parseRest fuel r.2).map ((q.1.text, r.1) :: ·) := by
  have hskip : skipBlank (clauses (q :: qs))
      = 'A' :: 'N' :: 'D' :: ' ' ::
        (q.1.ident ++ '=' :: '\'' :: literal q.1.mark q.2 (clauses qs)) := by
    simp only [clauses, List.cons_append, List.nil_append, List.append_assoc]
    rfl
  have hand : ∀ t : Text, scanAnd ('A' :: 'N' :: 'D' :: ' ' :: t) = some (' ' :: t) := fun _ => rfl
  have hblank : ∀ t : Text, parseEquality (' ' :: t) = parseEquality t := fun _ => rfl
  rw [parseRest, hskip, if_neg (List.cons_ne_nil _ _), hand, Option.bind_some, hblank,
    parseEquality_ident]
  cases scanString '\'' (literal q.1.mark q.2 (clauses qs)) with
  | none => rfl
  | some r => rfl

/-- **All clauses** are read as they were written exactly when all values are kept. -/
theorem parseRest_iff (qs : List (Filter × Text)) (fuel : Nat) (hfuel : qs.length ≤ fuel) :
    parseRest fuel (clauses qs) = some (qs.map fun q => (q.1.text, q.2)) ↔
      ∀ q ∈ qs, Kept q.1.mark q.2 := by
  induction qs generalizing fuel with
  | nil => cases fuel <;> simp [clauses, parseRest, skipBlank]
  | cons q qs ih =>
      cases fuel with
      | zero => simp at hfuel
      | succ fuel =>
          simp only [List.length_cons] at hfuel
          have hrest := ih fuel (by omega)
          rw [parseRest_clause, Option.bind_eq_some_iff, List.forall_mem_cons, ← hrest]
          constructor
          · -- the literal has been read as the value, so what follows it is the rest
            rintro ⟨⟨v, r⟩, hscan, hmap⟩
            obtain ⟨eqs, heqs, hcons⟩ := Option.map_eq_some_iff.mp hmap
            obtain ⟨hq, rfl⟩ := List.cons.inj hcons
            obtain rfl : v = q.2 := (Prod.mk.inj hq).2
            obtain ⟨hkept, rfl⟩ := (scan_exact (mark_cases q.1)).mp hscan
            exact ⟨hkept, heqs⟩
          · rintro ⟨hkept, heqs⟩
            refine ⟨(q.2, clauses qs), (scan_exact (mark_cases q.1)).mpr ⟨hkept, rfl⟩, ?_⟩
            rw [heqs]
            rfl

theorem length_le_clauses (qs : List (Filter × Text)) : qs.length ≤ (clauses qs).length := by
  induction qs with
  | nil => exact Nat.le_refl 0
  | cons q qs ih =>
      simp only [clauses, literal, List.length_append, List.length_cons, List.length_nil]
      omega

/-- **A condition**, for a channel id that needs no escape. -/
theorem parse_iff {chanID : Text} (hquote : '\'' ∉ chanID) (hsafe : TagSafe chanID)
    (query : List (Text × Text)) :
    parseCondition (fmtCondition chanID query) = some (meant chanID query) ↔
      ∀ q ∈ filtersOf query, Kept q.1.mark q.2 := by
  -- the id is spliced in as it is, and an escape would change nothing
  have hraw : literal '\'' chanID (clauses (filtersOf query))
      = chanID ++ '\'' :: clauses (filtersOf query) := by
    rw [literal, escapeWith_of_not_mem hquote]
  have hchannel : parseEquality (fmtCondition chanID query)
      = some ((channelWord, chanID), clauses (filtersOf query)) := by
    rw [fmtCondition_eq, ← hraw]
    have hscan : scanString '\'' (literal '\'' chanID (clauses (filtersOf query)))
        = some (chanID, clauses (filtersOf query)) :=
      (scan_exact (.inl rfl)).mpr ⟨kept_tag_iff.mpr hsafe, rfl⟩
    have hparse := parseEquality_ident .channel (literal '\'' chanID (clauses (filtersOf query)))
    rw [hscan] at hparse
    exact hparse
  rw [parseCondition, hchannel, ← parseRest_iff _ _ (length_le_clauses _), map_filtersOf]
  unfold meant
  constructor
  · intro h
    obtain ⟨eqs, heqs, hcons⟩ := Option.map_eq_some_iff.mp h
    rw [heqs, (List.cons.inj hcons).2]
  · intro h
    show (parseRest _ _).map _ = _
    rw [h]
    rfl

end Clauses

/-! ## §4. Authorised channels. -/

/-- A channel id that spells a UUID needs no escape. -/
theorem chars_of_spelt {chanID : String} (h : Things.Spelt chanID) :
    '\'' ∉ chanID.toList ∧ TagSafe chanID.toList := by
  obtain ⟨u, hu⟩ := h
  have hnone : ∀ c ∈ ['\'', '\\', '\n', '\r', '\x00'],
      ¬ ((hexVal c).isSome ∨ c = '-' ∨ c = '{' ∨ c = '}') :=
    Text.forall_mem_of_all (by decide)
  have hnot : ∀ c ∈ ['\'', '\\', '\n', '\r', '\x00'], c ∉ chanID.toList :=
    fun c hc hmem => hnone c hc (uuidIn_chars hu c hmem)
  refine ⟨hnot _ (by decide), fun c hc => ⟨?_, ?_⟩⟩
  · rintro rfl
    exact hnot _ (by decide) hc
  · by_contra hbreak
    have hmem : c ∈ ['\'', '\\', '\n', '\r', '\x00'] := by
      simp only [isBreak, Bool.not_eq_false, Bool.or_eq_true, beq_iff_eq] at hbreak
      rcases hbreak with (rfl | rfl) | rfl
      · simp
      · simp
      · simp
    exact hnot c hmem hc

/-- A value that is read as it is given. -/
structure Harmless (q : Text × Text) : Prop where
  tag : IsTag q.1 → TagSafe q.2
  field : IsField q.1 → FieldSafe q.2

theorem harmless_iff {f : Filter} {v : Text} : Harmless (f.text, v) ↔ Kept f.mark v := by
  rcases mark_cases f with hm | hm
  · rw [hm, kept_tag_iff]
    constructor
    · intro h
      exact h.tag ((isTag_text f).mpr hm)
    · intro h
      refine ⟨fun _ => h, fun hfield => ?_⟩
      rw [isField_text, hm] at hfield
      exact absurd hfield (by decide)
  · rw [hm, kept_field_iff]
    constructor
    · intro h
      exact h.field ((isField_text f).mpr hm)
    · intro h
      refine ⟨fun htag => ?_, fun _ => h⟩
      rw [isTag_text, hm] at htag
      exact absurd htag (by decide)

/-- The values that matter are those of the filters. -/
theorem forall_harmless_iff (query : List (Text × Text)) :
    (∀ q ∈ query, Harmless q) ↔ ∀ q ∈ filtersOf query, Kept q.1.mark q.2 := by
  constructor
  · intro h q hq
    obtain ⟨⟨name, v⟩, hmem, hsome⟩ := List.mem_filterMap.mp hq
    obtain ⟨f, hf, rfl⟩ := Option.map_eq_some_iff.mp hsome
    obtain rfl := filterOf_eq_some hf
    exact harmless_iff.mp (h _ hmem)
  · intro h q hq
    obtain ⟨name, v⟩ := q
    cases hf : filterOf name with
    | none =>
        obtain ⟨htag, hfield⟩ := filterOf_eq_none hf
        exact ⟨fun h => absurd h htag, fun h => absurd h hfield⟩
    | some f =>
        have hmem : (f, v) ∈ filtersOf query := List.mem_filterMap.mpr ⟨(name, v), hq, by rw [hf]; rfl⟩
        obtain rfl := filterOf_eq_some hf
        exact harmless_iff.mpr (h (f, v) hmem)

/-- **The condition of a query says what it is to say exactly when every value of the map
is harmless**: a subtopic or publisher without a backslash, a name or protocol without a
single quote and with backslashes in front of double quotes only, all in one line. -/
theorem condition_iff (chanID : String) (hauth : Things.Authorized chanID)
    (query : List (Text × Text)) :
    parseCondition (fmtCondition chanID.toList query) = some (meant chanID.toList query) ↔
      ∀ q ∈ query, Harmless q := by
  obtain ⟨hquote, hsafe⟩ := chars_of_spelt (Things.spelt_of_authorized hauth)
  rw [parse_iff hquote hsafe, forall_harmless_iff]

theorem room_toList : Things.room.toList = canonical (UUID.fill 3).digits := by
  rw [Things.room, uuidOut, String.toList_ofList]

/-- The subtopic `it's` and the name `a"b`. -/
def quotes : List (Text × Text) :=
  [(subtopicWord, ['i', 't', '\'', 's']), (nameWord, ['a', '"', 'b'])]

theorem harmless_quotes : ∀ q ∈ quotes, Harmless q := by
  intro q hq
  simp only [quotes, List.mem_cons, List.not_mem_nil, or_false] at hq
  rcases hq with rfl | rfl
  · exact ⟨fun _ => Text.forall_mem_of_all (by decide), fun h => absurd h (by decide)⟩
  · refine ⟨fun h => absurd h (by decide),
      fun _ => ⟨Text.forall_mem_of_all (by decide), fun front back heq => ?_⟩⟩
    -- there is no backslash in it
    have hmem : '\\' ∈ ['a', '"', 'b'] := by
      change ['a', '"', 'b'] = front ++ '\\' :: back at heq
      rw [heq]
      simp
    exact absurd hmem (by decide)

/-- The condition with both is read as it is meant. -/
theorem condition_iff_quotes :
    Things.Authorized Things.room ∧
      parseCondition (fmtCondition Things.room.toList quotes)
        = some (meant Things.room.toList quotes) :=
  ⟨Things.authorized_room,
    (condition_iff Things.room Things.authorized_room quotes).mpr harmless_quotes⟩

/-- The name `x' AND subtopic='y`. -/
def injected : Text :=
  ['x', '\'', ' ', 'A', 'N', 'D', ' '] ++ subtopicWord ++ ['=', '\'', 'y']

/-- **A name with a single quote is read as a name and another filter.** -/
theorem condition_injected :
    Things.Authorized Things.room ∧
      parseCondition (fmtCondition Things.room.toList [(nameWord, injected)])
        = some [(channelWord, Things.room.toList), (nameWord, ['x']), (subtopicWord, ['y'])] ∧
      parseCondition (fmtCondition Things.room.toList [(nameWord, injected)])
        ≠ some (meant Things.room.toList [(nameWord, injected)]) := by
  have hread : parseCondition (fmtCondition Things.room.toList [(nameWord, injected)])
      = some [(channelWord, Things.room.toList), (nameWord, ['x']), (subtopicWord, ['y'])] := by
    rw [room_toList]
    decide
  refine ⟨Things.authorized_room, hread, ?_⟩
  rw [hread, room_toList]
  decide

end Mainflux.Storage
