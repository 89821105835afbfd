/-
  Mainflux.Lib.JsonItems
  ──────────────────────
  **`encoding/json` FOR A SLICE OF STRUCTS.**

  Unlike a map, a struct takes the fields of an object in the order in which they
  stand in the text, and a repeated or differently spelled key again.  So the
  items of the top-level array are read with their fields as they stand
  (`readItem`); what is inside a field is a generic value.

    • `fold` — how the key of a field is compared with a name;
    • `readFields_length` — the texts that stand in the fields of an object, with
      their quotes, are no longer than what has been read.
-/
import Mainflux.Lib.Json

namespace Mainflux.Lib.Json

/-! ## §1. Reading. -/

/-- A key, for the comparison with the names of fields: upper and lower case are one, and
so are the long s and the Kelvin sign with s and k. -/
def fold (key : String) : String :=
  String.ofList (key.toList.map fun c =>
    if c.toNat = 383 then 's' else if c.toNat = 8490 then 'k' else c.toLower)

/-- An item of the array: an object with its fields as they stand, or another value. -/
inductive Item
  | fields (fs : List (String × Json))
  | value (v : Json)

def readItem : Nat → List Char → Option (Item × List Char)
  | 0, _ => none
  | fuel + 1, cs =>
      match skipSpace cs with
      | '\x7b' :: cs => (readList '\x7d' (readFields fuel) cs).map fun r => (.fields r.1, r.2)
      | _ => (readValue (fuel + 1) cs).map fun r => (.value r.1, r.2)

/-- Items up to the closing bracket. -/
def readItemList : Nat → List Char → Option (List Item × List Char)
  | 0, _ => none
  | fuel + 1, cs =>
      match readItem fuel cs with
      | some (item, cs) => readMore ']' (readItemList fuel) item cs
      | none => none

/-- A whole text, as a slice: an array, or `null`. -/
def readSlice (cs : List Char) : Option (List Item) :=
  match skipSpace cs with
  | '[' :: rest =>
      match readList ']' (readItemList (2 * cs.length + 1)) rest with
      | some (items, rest) => if skipSpace rest = [] then some items else none
      | none => none
  | _ =>
      match readJson cs with
      | some .null => some []
      | _ => none

theorem readSlice_open (cs : List Char) :
    readSlice ('[' :: cs)
      = (readList ']' (readItemList (2 * (cs.length + 1) + 1)) cs).bind fun r =>
          if skipSpace r.2 = [] then some r.1 else none := by
  have hopen : readSlice ('[' :: cs)
      = match readList ']' (readItemList (2 * (cs.length + 1) + 1)) cs with
        | some (items, rest) => if skipSpace rest = [] then some items else none
        | none => none := rfl
  rw [hopen]
  cases readList ']' (readItemList (2 * (cs.length + 1) + 1)) cs with
  | none => rfl
  | some r => rfl

theorem readItemList_succ (fuel : Nat) (cs : List Char) :
    readItemList (fuel + 1) cs
      = (readItem fuel cs).bind fun r => readMore ']' (readItemList fuel) r.1 r.2 := by
  rw [readItemList]
  cases readItem fuel cs with
  | none => rfl
  | some r => rfl

/-- A key, its value, and what comes after them. -/
theorem readFields_succ (fuel : Nat) (cs : List Char) :
    readFields (fuel + 1) cs
      = (readKey cs).bind fun k => (readValue fuel k.2).bind fun v =>
          readMore '\x7d' (readFields fuel) (k.1, v.1) v.2 := by
  rw [readFields]
  cases readKey cs with
  | none => rfl
  | some k =>
      dsimp only [Option.bind_some]
      cases readValue fuel k.2 with
      | none => rfl
      | some v => rfl

/-! ## §2. What is read is no longer than its text. -/

theorem skipSpace_length (cs : List Char) : (skipSpace cs).length ≤ cs.length :=
  (List.dropWhile_sublist _).length_le

theorem unquote_length (ps : List Piece) : (unquote ps).length ≤ ps.length := by
  induction ps using unquote.induct with
  | case1 => exact Nat.le_refl 0
  | case2 c ps ih => simpa [unquote] using ih
  | case3 n => simp [unquote]
  | case4 n c ps ih => simpa [unquote] using ih
  | case5 hi lo ps hpair ih =>
      rw [unquote, if_pos hpair]
      simp only [List.length_cons]
      omega
  | case6 hi lo ps hpair ih =>
      rw [unquote, if_neg hpair]
      simp only [List.length_cons] at ih ⊢
      omega

theorem consPiece_eq_some {p : Piece} {r : Option (List Piece × List Char)} {ps : List Piece}
    {rest : List Char} (h : consPiece p r = some (ps, rest)) :
    ∃ ps', ps = p :: ps' ∧ r = some (ps', rest) := by
  cases r with
  | none => cases h
  | some r =>
      cases h
      exact ⟨_, rfl, rfl⟩

theorem readPieces_length {cs rest : List Char} {ps : List Piece}
    (h : readPieces cs = some (ps, rest)) : ps.length + 1 + rest.length ≤ cs.length := by
  fun_induction readPieces cs generalizing ps with
  | case1 => cases h
  | case2 cs =>
      cases h
      simp only [List.length_cons, List.length_nil]
      omega
  | case3 a b c d cs n hn ih =>
      obtain ⟨ps', rfl, hr⟩ := consPiece_eq_some h
      have hrest := ih hr
      simp only [List.length_cons]
      omega
  | case4 => cases h
  | case5 e cs _ c hc ih =>
      obtain ⟨ps', rfl, hr⟩ := consPiece_eq_some h
      have hrest := ih hr
      simp only [List.length_cons]
      omega
  | case6 => cases h
  | case7 => cases h
  | case8 c cs _ _ _ _ ih =>
      obtain ⟨ps', rfl, hr⟩ := consPiece_eq_some h
      have hrest := ih hr
      simp only [List.length_cons]
      omega

theorem readString_length {cs rest : List Char} {s : String} (h : readString cs = some (s, rest)) :
    s.length + 1 + rest.length ≤ cs.length := by
  unfold readString at h
  split at h
  next ps rest' hps =>
      cases h
      have hpieces := readPieces_length hps
      have hunquote := unquote_length ps
      rw [String.length_ofList]
      omega
  next => cases h

theorem scanDigits_length {cs ds rest : List Char} (h : scanDigits cs = some (ds, rest)) :
    rest.length ≤ cs.length := by
  unfold scanDigits at h
  split at h
  next => cases h
  next =>
      cases h
      exact (List.dropWhile_sublist _).length_le

theorem scanMinus_length (cs : List Char) : (scanMinus cs).2.length ≤ cs.length := by
  cases cs with
  | nil => exact Nat.le_refl 0
  | cons c cs =>
      rw [scanMinus]
      split
      next => exact Nat.le_succ _
      next => exact Nat.le_refl _

theorem scanSign_length (cs : List Char) : (scanSign cs).2.length ≤ cs.length := by
  cases cs with
  | nil => exact Nat.le_refl 0
  | cons c cs =>
      rw [scanSign]
      split
      next => exact Nat.le_succ _
      next => exact Nat.le_refl _

theorem scanInt_length {cs ds rest : List Char} (h : scanInt cs = some (ds, rest)) :
    rest.length ≤ cs.length := by
  cases cs with
  | nil => cases h
  | cons c cs =>
      rw [scanInt] at h
      split at h
      next =>
          cases h
          exact Nat.le_succ _
      next =>
          split at h
          next =>
              cases h
              exact Nat.le_succ_of_le (List.dropWhile_sublist _).length_le
          next => cases h

theorem scanFrac_length {cs ds rest : List Char} (h : scanFrac cs = some (ds, rest)) :
    rest.length ≤ cs.length := by
  cases cs with
  | nil =>
      cases h
      exact Nat.le_refl 0
  | cons c cs =>
      rw [scanFrac] at h
      split at h
      next =>
          obtain ⟨r, hr, hpair⟩ := Option.map_eq_some_iff.mp h
          cases hpair
          exact Nat.le_succ_of_le (scanDigits_length hr)
      next =>
          cases h
          exact Nat.le_refl _

theorem scanExp_length {cs ds rest : List Char} (h : scanExp cs = some (ds, rest)) :
    rest.length ≤ cs.length := by
  cases cs with
  | nil =>
      cases h
      exact Nat.le_refl 0
  | cons c cs =>
      rw [scanExp] at h
      split at h
      next =>
          obtain ⟨r, hr, hpair⟩ := Option.map_eq_some_iff.mp h
          cases hpair
          exact Nat.le_succ_of_le ((scanDigits_length hr).trans (scanSign_length cs))
      next =>
          cases h
          exact Nat.le_refl _

theorem scanNumber_length {cs ds rest : List Char} (h : scanNumber cs = some (ds, rest)) :
    rest.length ≤ cs.length := by
  have hminus := scanMinus_length cs
  unfold scanNumber at h
  split at h
  next => cases h
  next int cs1 hint =>
      split at h
      next => cases h
      next frac cs2 hfrac =>
          split at h
          next => cases h
          next exp cs3 hexp =>
              cases h
              have h1 := scanInt_length hint
              have h2 := scanFrac_length hfrac
              have h3 := scanExp_length hexp
              omega

theorem readColon_length {cs rest : List Char} (h : readColon cs = some rest) :
    rest.length + 1 ≤ cs.length := by
  have hskip := skipSpace_length cs
  unfold readColon at h
  split at h
  next cs' heq =>
      cases h
      rw [heq, List.length_cons] at hskip
      exact hskip
  next => cases h

/-- A key stands in quotes and has a colon behind it. -/
theorem readKey_length {cs rest : List Char} {k : String} (h : readKey cs = some (k, rest)) :
    k.length + 3 + rest.length ≤ cs.length := by
  have hskip := skipSpace_length cs
  unfold readKey at h
  split at h
  next cs' heq =>
      rw [heq, List.length_cons] at hskip
      split at h
      next k' cs'' hstring =>
          obtain ⟨rest', hcolon, hpair⟩ := Option.map_eq_some_iff.mp h
          cases hpair
          have hk := readString_length hstring
          have hc := readColon_length hcolon
          omega
      next => cases h
  next => cases h

section Lists

variable {α : Type} {close : Char} {more : List Char → Option (List α × List Char)}
  {cs rest : List Char} {as : List α}

/-- A list is closed at once, or has elements. -/
theorem readList_cases (h : readList close more cs = some (as, rest)) :
    as = [] ∧ rest.length + 1 ≤ cs.length ∨
      ∃ cs', cs'.length ≤ cs.length ∧ more cs' = some (as, rest) := by
  have hskip := skipSpace_length cs
  unfold readList at h
  split at h
  next => cases h
  next c cs' heq =>
      rw [heq] at hskip
      split at h
      next =>
          cases h
          exact .inl ⟨rfl, hskip⟩
      next => exact .inr ⟨c :: cs', hskip, h⟩

/-- After an element the list is closed, or has more of them behind a comma. -/
theorem readMore_cases {a : α} (h : readMore close more a cs = some (as, rest)) :
    as = [a] ∧ rest.length + 1 ≤ cs.length ∨
      ∃ cs' as', cs'.length + 1 ≤ cs.length ∧ more cs' = some (as', rest) ∧ as = a :: as' := by
  have hskip := skipSpace_length cs
  unfold readMore at h
  split at h
  next => cases h
  next c cs' heq =>
      rw [heq, List.length_cons] at hskip
      split at h
      next =>
          cases h
          exact .inl ⟨rfl, hskip⟩
      next =>
          split at h
          next =>
              obtain ⟨r, hr, hpair⟩ := Option.map_eq_some_iff.mp h
              cases hpair
              exact .inr ⟨cs', r.1, hskip, hr, rfl⟩
          next => cases h

end Lists

theorem readScalar_length {cs rest : List Char} {v : Json} (h : readScalar cs = some (v, rest)) :
    rest.length ≤ cs.length ∧ ∀ s, v ≠ .str s := by
  unfold readScalar at h
  split at h
  next r hname =>
      cases h
      unfold readName at hname
      split at hname
      next =>
          cases hname
          exact ⟨by simp only [List.length_cons]; omega, fun s hs => by cases hs⟩
      next =>
          cases hname
          exact ⟨by simp only [List.length_cons]; omega, fun s hs => by cases hs⟩
      next =>
          cases hname
          exact ⟨by simp only [List.length_cons]; omega, fun s hs => by cases hs⟩
      next => cases hname
  next =>
      obtain ⟨r, hr, hpair⟩ := Option.map_eq_some_iff.mp h
      cases hpair
      exact ⟨scanNumber_length hr, fun s hs => by cases hs⟩

/-- What a reader of values takes, and how much of that is the text that it returns. -/
def Fits (read : List Char → Option (Json × List Char)) : Prop :=
  ∀ {cs rest v}, read cs = some (v, rest) →
    rest.length ≤ cs.length ∧ ∀ s, v = .str s → s.length + 2 + rest.length ≤ cs.length

theorem readItems_length {fuel : Nat} (hv : ∀ fuel' < fuel, Fits (readValue fuel')) :
    ∀ {cs rest : List Char} {vs : List Json}, readItems fuel cs = some (vs, rest) →
      rest.length ≤ cs.length := by
  induction fuel with
  | zero =>
      intro cs rest vs h
      cases h
  | succ fuel ih =>
      intro cs rest vs h
      rw [readItems] at h
      split at h
      next v cs' hval =>
          have h1 := (hv fuel (Nat.lt_succ_self _) hval).1
          rcases readMore_cases h with ⟨-, h2⟩ | ⟨cs'', vs', h2, hmore, -⟩
          · omega
          · have h3 := ih (fun fuel' hlt => hv fuel' (by omega)) hmore
            omega
      next => cases h

/-- **The texts in the fields of an object fit into what has been read of it**, with their
keys, the quotes and the colon. -/
theorem readFields_length_of {fuel : Nat} (hv : ∀ fuel' < fuel, Fits (readValue fuel')) :
    ∀ {cs rest : List Char} {fs : List (String × Json)}, readFields fuel cs = some (fs, rest) →
      rest.length ≤ cs.length ∧
        ∀ k s, (k, Json.str s) ∈ fs → k.length + s.length + 5 + rest.length ≤ cs.length := by
  induction fuel with
  | zero =>
      intro cs rest fs h
      cases h
  | succ fuel ih =>
      intro cs rest fs h
      rw [readFields] at h
      split at h
      next k cs' hkey =>
          have h1 := readKey_length hkey
          split at h
          next v cs'' hval =>
              obtain ⟨h2, htext⟩ := hv fuel (Nat.lt_succ_self _) hval
              rcases readMore_cases h with ⟨rfl, h3⟩ | ⟨cs3, fs', h3, hmore, rfl⟩
              · refine ⟨by omega, fun k' s hmem => ?_⟩
                obtain ⟨rfl, rfl⟩ := Prod.mk.inj (List.mem_singleton.mp hmem)
                have h4 := htext s rfl
                omega
              · obtain ⟨h4, hfs⟩ := ih (fun fuel' hlt => hv fuel' (by omega)) hmore
                refine ⟨by omega, fun k' s hmem => ?_⟩
                rcases List.mem_cons.mp hmem with heq | hmem
                · obtain ⟨rfl, rfl⟩ := Prod.mk.inj heq
                  have h5 := htext s rfl
                  omega
                · have h5 := hfs k' s hmem
                  omega
          next => cases h
      next => cases h

theorem readValue_length (fuel : Nat) : Fits (readValue fuel) := by
  induction fuel using Nat.strong_induction_on with
  | _ fuel ih =>
      intro cs rest v h
      cases fuel with
      | zero => cases h
      | succ fuel =>
          have hskip := skipSpace_length cs
          have hbelow : ∀ fuel' < fuel, Fits (readValue fuel') :=
            fun fuel' hlt => ih fuel' (by omega)
          rw [readValue] at h
          split at h
          next cs' heq =>
              rw [heq, List.length_cons] at hskip
              obtain ⟨r, hr, hpair⟩ := Option.map_eq_some_iff.mp h
              cases hpair
              have hs := readString_length hr
              refine ⟨by omega, fun s hs' => ?_⟩
              cases hs'
              omega
          next cs' heq =>
              rw [heq, List.length_cons] at hskip
              obtain ⟨r, hr, hpair⟩ := Option.map_eq_some_iff.mp h
              cases hpair
              refine ⟨?_, fun s hs => by cases hs⟩
              rcases readList_cases hr with ⟨-, hle⟩ | ⟨cs'', hle, hmore⟩
              · omega
              · have hitems := readItems_length hbelow hmore
                omega
          next cs' heq =>
              rw [heq, List.length_cons] at hskip
              obtain ⟨r, hr, hpair⟩ := Option.map_eq_some_iff.mp h
              cases hpair
              refine ⟨?_, fun s hs => by cases hs⟩
              rcases readList_cases hr with ⟨-, hle⟩ | ⟨cs'', hle, hmore⟩
              · omega
              · have hfields := (readFields_length_of hbelow hmore).1
                omega
          next =>
              obtain ⟨hle, hstr⟩ := readScalar_length h
              exact ⟨by omega, fun s hs => absurd hs (hstr s)⟩

theorem readFields_length {fuel : Nat} {cs rest : List Char} {fs : List (String × Json)}
    (h : readFields fuel cs = some (fs, rest)) :
    rest.length ≤ cs.length ∧
      ∀ k s, (k, Json.str s) ∈ fs → k.length + s.length + 5 + rest.length ≤ cs.length :=
  readFields_length_of (fun fuel' _ => readValue_length fuel') h

end Mainflux.Lib.Json
