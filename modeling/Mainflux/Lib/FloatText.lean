/-
  Mainflux.Lib.FloatText
  ──────────────────────
  **THE TEXTS OF `float64`.**

    • `format` — `%v`: `strconv.FormatFloat` with the verb `g` and the fewest
      digits that are read as the number (`roundShortest`);
    • `parseFloat` — `strconv.ParseFloat`, of the number literals of JSON, which
      are taken apart as `literal` puts them together;
    • `format_literal` — what is written for a finite number is such a literal and
      is read as the same number.
-/
import Mathlib.Algebra.Ring.Nat
import Mainflux.Lib.Binary64
import Mainflux.Lib.Json

namespace Mainflux.Lib.Binary64

open FlatJson (writeNat readNat digitChar digits)

/-! ## §1. Writing. -/

/-- The coefficient without the zeros at its end, and how many there were. -/
def strip : Nat → Nat → Nat × Nat
  | 0, n => (n, 0)
  | fuel + 1, n =>
      if n % 10 = 0 then ((strip fuel (n / 10)).1, (strip fuel (n / 10)).2 + 1) else (n, 0)

/-- `N` without its last `z` digits, if that or the number behind it is read as `k`:
the nearer one if both are. -/
def cut (k N z : Nat) : Option Nat :=
  let down := N / 10 ^ z
  let okdown := roundDecimal down (z - precision) = k
  let okup := roundDecimal (down + 1) (z - precision) = k
  -- the digits cut off against a half; a half goes to the even one
  let low := 2 * (N % 10 ^ z) < 10 ^ z ∨ 2 * (N % 10 ^ z) = 10 ^ z ∧ down % 2 = 0
  if okdown ∧ (low ∨ ¬ okup) then some down else if okup then some (down + 1) else none

/-- `roundShortest`: with as few of the digits as are enough, and how many are cut off. -/
def roundShortest (k N : Nat) : Nat × Nat :=
  ((List.range (writeNat N).length).reverse.findSome? fun z => (cut k N z).map (·, z)).getD (N, 0)

/-- Coefficient and exponent of what `roundShortest` leaves. -/
def trim (r : Nat × Nat) : Nat × Int :=
  ((strip r.1 r.1).1, (r.2 + (strip r.1 r.1).2 : Nat) - precision)

/-- Coefficient and exponent of the shortest text; the magnitude is
`units k * 5 ^ precision * 10 ^ -precision` exactly. -/
def shortest (k : Nat) : Nat × Int := trim (roundShortest k (units k * 5 ^ precision))

/-- The exponent of `%e`, with two digits at least. -/
def writeExp (e : Int) : List Char :=
  (if e < 0 then '-' else '+') :: ((if e.natAbs < 10 then ['0'] else []) ++ writeNat e.natAbs)

/-- `%e` of digits with the decimal point before `dp`. -/
def formatE (ds : List Char) (dp : Int) : List Char :=
  ds.take 1 ++ (if ds.length ≤ 1 then [] else '.' :: ds.drop 1) ++ 'e' :: writeExp (dp - 1)

/-- `%f` of them. -/
def formatF (ds : List Char) (dp : Int) : List Char :=
  (if 0 < dp then ds.take dp.toNat ++ List.replicate (dp.toNat - ds.length) '0' else ['0']) ++
    if dp < ds.length then '.' :: (List.replicate (-dp).toNat '0' ++ ds.drop dp.toNat) else []

/-- `%g` of a finite magnitude. -/
def formatMagnitude (k : Nat) : List Char :=
  if k = 0 then ['0']
  else
    let ds := writeNat (shortest k).1
    let dp := (shortest k).2 + ds.length
    if dp - 1 < -4 ∨ 6 ≤ dp - 1 then formatE ds dp else formatF ds dp

/-- `%v`. -/
def format (x : Binary64) : List Char :=
  if infinity < x.magnitude then ['N', 'a', 'N']
  else if x.magnitude = infinity then
    (if x.negative then '-' else '+') :: ['I', 'n', 'f']
  else (if x.negative then ['-'] else []) ++ formatMagnitude x.magnitude

/-! ## §2. The fewest digits. -/

theorem strip_spec (fuel n : Nat) : (strip fuel n).1 * 10 ^ (strip fuel n).2 = n := by
  induction fuel generalizing n with
  | zero => exact Nat.mul_one n
  | succ fuel ih =>
      rw [strip]
      split
      next h =>
          rw [Nat.pow_succ, ← Nat.mul_assoc, ih]
          omega
      next => exact Nat.mul_one n

/-- What is cut off is not read differently. -/
theorem roundDecimal_of_cut {k N z n : Nat} (h : cut k N z = some n) :
    roundDecimal n (z - precision) = k := by
  simp only [cut] at h
  split at h
  next hdown =>
      cases h
      exact hdown.1
  next =>
      split at h
      next hup =>
          cases h
          exact hup
      next => cases h

theorem roundDecimal_roundShortest {k N : Nat} (hN : roundDecimal N (-(precision : Int)) = k) :
    roundDecimal (roundShortest k N).1 ((roundShortest k N).2 - precision) = k := by
  unfold roundShortest
  cases h : (List.range (writeNat N).length).reverse.findSome? fun z => (cut k N z).map (·, z) with
  | none => simpa using hN
  | some r =>
      obtain ⟨z, -, hz⟩ := List.exists_of_findSome?_eq_some h
      obtain ⟨n, hcut, rfl⟩ := Option.map_eq_some_iff.mp hz
      exact roundDecimal_of_cut hcut

/-- The digits of a magnitude, all of them. -/
theorem roundDecimal_units (k : Nat) : roundDecimal (units k * 5 ^ precision) (-(precision : Int)) = k := by
  apply roundDecimal_eq
  have hpos : (-(precision : Int)).toNat = 0 := by omega
  have hneg : (- -(precision : Int)).toNat = precision := by omega
  rw [hpos, hneg]
  rw [Nat.pow_zero, Nat.mul_one, Nat.mul_assoc, ← Nat.mul_pow]

theorem roundDecimal_trim (r : Nat × Nat) :
    roundDecimal (trim r).1 (trim r).2 = roundDecimal r.1 (r.2 - precision) := by
  have hexp : (trim r).2 = r.2 - precision + (strip r.1 r.1).2 := by
    unfold trim
    omega
  rw [hexp, ← roundDecimal_shift, trim, strip_spec]

/-- **The shortest decimal is read as the magnitude that it was made for.** -/
theorem round_shortest (k : Nat) : roundDecimal (shortest k).1 (shortest k).2 = k := by
  have hround := roundDecimal_roundShortest (roundDecimal_units k)
  rw [← roundDecimal_trim] at hround
  exact hround

theorem shortest_ne_zero {k : Nat} (hk : k ≠ 0) : (shortest k).1 ≠ 0 := by
  intro h
  apply hk
  rw [← round_shortest k, h, roundDecimal_zero]

/-! ## §3. Number literals. -/

/-- A fraction with its point. -/
def fractionText (ds : List Char) : List Char := if ds = [] then [] else '.' :: ds

def exponentText : Option Int → List Char
  | none => []
  | some e => 'e' :: writeExp e

/-- A literal, from its parts. -/
def literal (negative : Bool) (int frac : List Char) (exp : Option Int) : List Char :=
  (if negative then ['-'] else []) ++ (int ++ (fractionText frac ++ exponentText exp))

/-- The digits behind a point, and what follows them. -/
def splitFraction : List Char → List Char × List Char
  | '.' :: cs => (cs.takeWhile Char.isDigit, cs.dropWhile Char.isDigit)
  | cs => ([], cs)

/-- The value of an exponent with its letter. -/
def readExp : List Char → Int
  | [] => 0
  | _ :: '-' :: ds => -(readNat ds)
  | _ :: '+' :: ds => readNat ds
  | _ :: ds => readNat ds

/-- `strconv.ParseFloat`, of a number literal. -/
def parseFloat (text : List Char) : Option Binary64 :=
  let (minus, cs) := Json.scanMinus text
  let (frac, exp) := splitFraction (cs.dropWhile Char.isDigit)
  ofDecimal (decide (minus ≠ [])) (readNat (cs.takeWhile Char.isDigit ++ frac))
    (readExp exp - frac.length)

/-- What the integer part of a literal may be. -/
def IsInt (int : List Char) : Prop :=
  int = ['0'] ∨ ∃ c cs, int = c :: cs ∧ c ≠ '0' ∧ ∀ d ∈ int, d.isDigit = true

/-- Digits end where the text goes on without one. -/
theorem span_digits {ds t : List Char} (hds : ∀ d ∈ ds, d.isDigit = true)
    (ht : ∀ c ∈ t.head?, c.isDigit = false) :
    (ds ++ t).takeWhile Char.isDigit = ds ∧ (ds ++ t).dropWhile Char.isDigit = t := by
  rw [List.takeWhile_append_of_pos hds, List.dropWhile_append_of_pos hds]
  cases t with
  | nil => exact ⟨List.append_nil ds, rfl⟩
  | cons c t =>
      have hc : ¬ c.isDigit = true := by
        rw [ht c rfl]
        decide
      rw [List.takeWhile_cons_of_neg hc, List.dropWhile_cons_of_neg hc, List.append_nil]
      exact ⟨rfl, rfl⟩

theorem IsInt.digits {int : List Char} (h : IsInt int) : ∀ d ∈ int, d.isDigit = true := by
  rcases h with rfl | ⟨c, cs, rfl, -, hall⟩
  · intro d hd
    rw [List.mem_singleton.mp hd]
    rfl
  · exact hall

theorem IsInt.exists_cons {int : List Char} (h : IsInt int) : ∃ c cs, int = c :: cs := by
  rcases h with rfl | ⟨c, cs, rfl, -⟩
  · exact ⟨_, _, rfl⟩
  · exact ⟨_, _, rfl⟩

theorem scanInt_append {int t : List Char} (h : IsInt int) (ht : ∀ c ∈ t.head?, c.isDigit = false) :
    Json.scanInt (int ++ t) = some (int, t) := by
  rcases h with rfl | ⟨c, cs, rfl, hc, hall⟩
  · rfl
  · obtain ⟨htake, hdrop⟩ :=
      span_digits (fun d (hd : d ∈ cs) => hall d (List.mem_cons_of_mem _ hd)) ht
    rw [List.cons_append, Json.scanInt, if_neg hc, if_pos (hall c List.mem_cons_self), htake, hdrop]

theorem digits_writeExp (e : Int) :
    ∃ s ds, writeExp e = s :: ds ∧ (s = '+' ∨ s = '-') ∧ ds ≠ [] ∧ (∀ d ∈ ds, d.isDigit = true) ∧
      readNat ds = e.natAbs ∧ (s = '-' ↔ e < 0) := by
  refine ⟨if e < 0 then '-' else '+', (if e.natAbs < 10 then ['0'] else []) ++ writeNat e.natAbs,
    rfl, ?_, ?_, ?_, ?_, ?_⟩
  · split
    next => exact .inr rfl
    next => exact .inl rfl
  · exact List.append_ne_nil_of_right_ne_nil _ (FlatJson.writeNat_ne_nil _)
  · intro d hd
    rcases List.mem_append.mp hd with hd | hd
    · split at hd
      next =>
          rw [List.mem_singleton.mp hd]
          rfl
      next => cases hd
    · exact FlatJson.isDigit_of_mem_writeNat hd
  · have hread : readNat (writeNat e.natAbs) = e.natAbs :=
      FlatJson.readNat_digits _ _ (Nat.lt_succ_self _)
    split
    next => exact hread
    next => exact hread
  · split
    next h => exact iff_of_true rfl h
    next h => exact iff_of_false (by decide) h

theorem exponentText_head (exp : Option Int) : ∀ c ∈ (exponentText exp).head?, c = 'e' := by
  intro c hc
  cases exp with
  | none => cases hc
  | some e => exact (Option.some.inj hc).symm

theorem fractionText_head (frac : List Char) (exp : Option Int) :
    ∀ c ∈ (fractionText frac ++ exponentText exp).head?, c.isDigit = false := by
  intro c hc
  unfold fractionText at hc
  split at hc
  next =>
      rw [exponentText_head exp c hc]
      rfl
  next =>
      cases hc
      rfl

theorem scanFrac_append {frac : List Char} (hfrac : ∀ d ∈ frac, d.isDigit = true) (exp : Option Int) :
    Json.scanFrac (fractionText frac ++ exponentText exp)
      = some (fractionText frac, exponentText exp) := by
  have hexp : ∀ c ∈ (exponentText exp).head?, c.isDigit = false := by
    intro c hc
    rw [exponentText_head exp c hc]
    rfl
  unfold fractionText
  split
  next h =>
      rw [List.nil_append]
      cases exp with
      | none => rfl
      | some e => rfl
  next h =>
      obtain ⟨htake, hdrop⟩ := span_digits hfrac hexp
      rw [List.cons_append, Json.scanFrac, if_pos rfl, Json.scanDigits, htake, hdrop, if_neg h]
      rfl

theorem scanExp_exponentText (exp : Option Int) :
    Json.scanExp (exponentText exp) = some (exponentText exp, []) := by
  cases exp with
  | none => rfl
  | some e =>
      obtain ⟨s, ds, htext, hs, hne, hds, -⟩ := digits_writeExp e
      obtain ⟨htake, hdrop⟩ := span_digits (t := []) hds fun c hc => by cases hc
      rw [List.append_nil] at htake hdrop
      rw [exponentText, htext, Json.scanExp, if_pos (.inl rfl), Json.scanSign, if_pos hs]
      show (Json.scanDigits ds).map _ = _
      rw [Json.scanDigits, htake, hdrop, if_neg hne]
      rfl

theorem scanMinus_literal {int : List Char} (negative : Bool) (hint : IsInt int) (frac : List Char)
    (exp : Option Int) :
    Json.scanMinus (literal negative int frac exp)
      = (if negative then ['-'] else [], int ++ (fractionText frac ++ exponentText exp)) := by
  cases negative with
  | true => rfl
  | false =>
      obtain ⟨c, cs, rfl⟩ := hint.exists_cons
      have hc : c ≠ '-' := by
        rintro rfl
        exact absurd (hint.digits '-' List.mem_cons_self) (by decide)
      show Json.scanMinus (c :: (cs ++ _)) = _
      rw [Json.scanMinus, if_neg hc]
      rfl

/-- A literal is scanned to its end. -/
theorem scanNumber_literal {int frac : List Char} (negative : Bool) (hint : IsInt int)
    (hfrac : ∀ d ∈ frac, d.isDigit = true) (exp : Option Int) :
    Json.scanNumber (literal negative int frac exp) = some (literal negative int frac exp, []) := by
  have hminus := scanMinus_literal negative hint frac exp
  rw [Json.scanNumber, hminus]
  simp only [scanInt_append hint (fractionText_head frac exp), scanFrac_append hfrac exp,
    scanExp_exponentText]
  rw [literal, List.append_assoc, List.append_assoc]

/-- **What is read for a literal.** -/
theorem parseFloat_literal {int frac : List Char} (negative : Bool) (hint : IsInt int)
    (hfrac : ∀ d ∈ frac, d.isDigit = true) (exp : Option Int) :
    parseFloat (literal negative int frac exp)
      = ofDecimal negative (readNat (int ++ frac)) (exp.getD 0 - frac.length) := by
  obtain ⟨htake, hdrop⟩ := span_digits hint.digits (fractionText_head frac exp)
  have hsplit : splitFraction (fractionText frac ++ exponentText exp)
      = (frac, exponentText exp) := by
    have hexp : ∀ c ∈ (exponentText exp).head?, c.isDigit = false := by
      intro c hc
      rw [exponentText_head exp c hc]
      rfl
    unfold fractionText
    split
    next h =>
        rw [h, List.nil_append]
        cases exp with
        | none => rfl
        | some e => rfl
    next h =>
        obtain ⟨htake, hdrop⟩ := span_digits hfrac hexp
        rw [List.cons_append, splitFraction, htake, hdrop]
  have hread : readExp (exponentText exp) = exp.getD 0 := by
    cases exp with
    | none => rfl
    | some e =>
        obtain ⟨s, ds, htext, hs, hne, -, hvalue, hsign⟩ := digits_writeExp e
        rw [exponentText, htext]
        rcases hs with rfl | rfl
        · have hpos : ¬ e < 0 := fun he => absurd (hsign.mpr he) (by decide)
          show ((readNat ds : Nat) : Int) = e
          omega
        · have hneg : e < 0 := hsign.mp rfl
          show -((readNat ds : Nat) : Int) = e
          omega
  have hsign : decide ((if negative then ['-'] else []) ≠ []) = negative := by
    cases negative <;> rfl
  rw [parseFloat, scanMinus_literal negative hint frac exp]
  simp only [htake, hdrop, hsplit, hread, hsign]

/-! ## §4. Reading back what is written. -/

theorem readNat_writeNat (n : Nat) : readNat (writeNat n) = n :=
  FlatJson.readNat_digits _ _ (Nat.lt_succ_self n)

/-- The highest digit of a number is not zero. -/
theorem digits_last {fuel n : Nat} (h : n < fuel) (hn : n ≠ 0) :
    ∃ ds d, digits fuel n = ds ++ [d] ∧ d ≠ 0 ∧ d < 10 := by
  induction fuel generalizing n with
  | zero => omega
  | succ fuel ih =>
      rw [digits]
      split
      next hlt => exact ⟨[], n % 10, rfl, by omega, by omega⟩
      next hge =>
          obtain ⟨ds, d, heq, hd⟩ := ih (n := n / 10) (by omega) (by omega)
          exact ⟨n % 10 :: ds, d, by rw [heq, List.cons_append], hd⟩

theorem digitChar_ne_zero : ∀ d < 10, d ≠ 0 → digitChar d ≠ '0' := by decide

theorem writeNat_eq_cons {n : Nat} (hn : n ≠ 0) : ∃ c cs, writeNat n = c :: cs ∧ c ≠ '0' := by
  obtain ⟨ds, d, heq, hd, hlt⟩ := digits_last (Nat.lt_succ_self n) hn
  refine ⟨digitChar d, (ds.map digitChar).reverse, ?_, digitChar_ne_zero d hlt hd⟩
  rw [writeNat, heq, List.map_append, List.reverse_append]
  rfl

/-- A number without a sign, as an integer part. -/
theorem isInt_writeNat (n : Nat) : IsInt (writeNat n) := by
  by_cases hn : n = 0
  · rw [hn]
    exact .inl rfl
  · obtain ⟨c, cs, heq, hc⟩ := writeNat_eq_cons hn
    exact .inr ⟨c, cs, heq, hc, fun d hd => FlatJson.isDigit_of_mem_writeNat hd⟩

theorem readNat_zeros_append (z : Nat) (ds : List Char) :
    readNat (List.replicate z '0' ++ ds) = readNat ds := by
  induction z with
  | zero => rfl
  | succ z ih =>
      rw [List.replicate_succ, List.cons_append]
      exact ih

theorem readNat_append_zeros (ds : List Char) (z : Nat) :
    readNat (ds ++ List.replicate z '0') = readNat ds * 10 ^ z := by
  induction z with
  | zero => rw [List.replicate_zero, List.append_nil, Nat.pow_zero, Nat.mul_one]
  | succ z ih =>
      rw [List.replicate_succ', ← List.append_assoc, readNat, List.foldl_append, ← readNat, ih,
        Nat.pow_succ 10 z, ← Nat.mul_assoc]
      rfl

/-- The text is a literal that stands for `n * 10 ^ e`. -/
def Stands (text : List Char) (n : Nat) (e : Int) : Prop :=
  ∃ int frac exp, text = int ++ (fractionText frac ++ exponentText exp) ∧ IsInt int ∧
    (∀ d ∈ frac, d.isDigit = true) ∧
    roundDecimal (readNat (int ++ frac)) (exp.getD 0 - frac.length) = roundDecimal n e

theorem stands_formatE {n : Nat} (hn : n ≠ 0) (e : Int) :
    Stands (formatE (writeNat n) (e + (writeNat n).length)) n e := by
  obtain ⟨c, cs, heq, hc⟩ := writeNat_eq_cons hn
  have hdigits : ∀ d ∈ c :: cs, d.isDigit = true := by
    intro d hd
    rw [← heq] at hd
    exact FlatJson.isDigit_of_mem_writeNat hd
  refine ⟨[c], cs, some (e + (writeNat n).length - 1), ?_, ?_, ?_, ?_⟩
  · rw [heq]
    cases cs with
    | nil => rfl
    | cons c' cs =>
        show [c] ++ (if (c :: c' :: cs).length ≤ 1 then [] else '.' :: c' :: cs) ++ _ = _
        rw [if_neg (by simp)]
        rfl
  · exact .inr ⟨c, [], rfl, hc, fun d hd => hdigits d (by
      rw [List.mem_singleton.mp hd]
      exact List.mem_cons_self)⟩
  · exact fun d hd => hdigits d (List.mem_cons_of_mem _ hd)
  · have hexp : (some (e + (writeNat n).length - 1)).getD 0 - (cs.length : Int) = e := by
      rw [heq, List.length_cons, Option.getD_some]
      omega
    rw [hexp, show [c] ++ cs = writeNat n from heq.symm, readNat_writeNat]

theorem stands_formatF {n : Nat} (hn : n ≠ 0) (e : Int) :
    Stands (formatF (writeNat n) (e + (writeNat n).length)) n e := by
  obtain ⟨c, cs, heq, hc⟩ := writeNat_eq_cons hn
  have hdigits : ∀ d ∈ writeNat n, d.isDigit = true :=
    fun d hd => FlatJson.isDigit_of_mem_writeNat hd
  have hzeros : ∀ z, ∀ d ∈ List.replicate z '0', d.isDigit = true := by
    intro z d hd
    rw [List.eq_of_mem_replicate hd]
    rfl
  generalize hlen : (writeNat n).length = len
  have hpos : 0 < len := by
    rw [← hlen, heq, List.length_cons]
    omega
  unfold formatF
  rw [hlen]
  by_cases hsmall : e + len ≤ 0
  · -- all digits stand behind the point
    rw [if_neg (by omega), if_pos (by omega)]
    have hdrop : (e + len).toNat = 0 := by omega
    rw [hdrop, List.drop_zero]
    refine ⟨['0'], List.replicate (-(e + len)).toNat '0' ++ writeNat n, none, ?_, .inl rfl, ?_, ?_⟩
    · rw [fractionText, if_neg (List.append_ne_nil_of_right_ne_nil _ (by rw [heq]; simp))]
      simp [exponentText]
    · intro d hd
      exact (List.mem_append.mp hd).elim (hzeros _ d) (hdigits d)
    · have hexp : (none : Option Int).getD 0
          - ((List.replicate (-(e + len)).toNat '0' ++ writeNat n).length : Int) = e := by
        rw [List.length_append, List.length_replicate, hlen, Option.getD_none]
        omega
      rw [hexp, show ['0'] ++ (List.replicate (-(e + len)).toNat '0' ++ writeNat n)
          = List.replicate ((-(e + len)).toNat + 1) '0' ++ writeNat n from rfl,
        readNat_zeros_append, readNat_writeNat]
  · rw [if_pos (by omega)]
    by_cases hmid : e < 0
    · -- the point stands between them
      rw [if_pos (by omega)]
      have hzero : (-(e + len)).toNat = 0 := by omega
      have hpad : (e + len).toNat - len = 0 := by omega
      obtain ⟨p, hp⟩ : ∃ p, (e + len).toNat = p + 1 := ⟨(e + len).toNat - 1, by omega⟩
      have htake : (writeNat n).take (p + 1) = c :: cs.take p := by rw [heq, List.take_succ_cons]
      rw [hzero, hpad, hp, List.replicate_zero, List.append_nil, List.nil_append]
      refine ⟨(writeNat n).take (p + 1), (writeNat n).drop (p + 1), none, ?_, ?_, ?_, ?_⟩
      · have hne : (writeNat n).drop (p + 1) ≠ [] := by
          rw [Ne, List.drop_eq_nil_iff, hlen]
          omega
        rw [fractionText, if_neg hne, exponentText, List.append_nil]
      · exact .inr ⟨c, cs.take p, htake, hc, fun d hd => hdigits d (List.mem_of_mem_take hd)⟩
      · exact fun d hd => hdigits d (List.mem_of_mem_drop hd)
      · have hexp : (none : Option Int).getD 0 - (((writeNat n).drop (p + 1)).length : Int) = e := by
          rw [List.length_drop, hlen, Option.getD_none]
          omega
        rw [hexp, List.take_append_drop, readNat_writeNat]
    · -- all stand before it, and zeros
      rw [if_neg (by omega), List.append_nil]
      have htake : (writeNat n).take (e + len).toNat = writeNat n :=
        List.take_of_length_le (by omega)
      have hpad : (e + len).toNat - len = e.toNat := by omega
      rw [htake, hpad]
      refine ⟨writeNat n ++ List.replicate e.toNat '0', [], none, ?_, ?_, ?_, ?_⟩
      · rw [fractionText, if_pos rfl, exponentText, List.append_nil, List.append_nil]
      · refine .inr ⟨c, cs ++ List.replicate e.toNat '0', by rw [heq, List.cons_append], hc, ?_⟩
        intro d hd
        exact (List.mem_append.mp hd).elim (hdigits d) (hzeros _ d)
      · intro d hd
        cases hd
      · rw [List.append_nil, readNat_append_zeros, readNat_writeNat, roundDecimal_shift]
        congr 1
        rw [List.length_nil, Option.getD_none]
        omega

theorem stands_formatMagnitude (k : Nat) :
    Stands (formatMagnitude k) (shortest k).1 (shortest k).2 := by
  by_cases hk : k = 0
  · refine ⟨['0'], [], none, ?_, .inl rfl, fun d hd => (by cases hd), ?_⟩
    · rw [formatMagnitude, if_pos hk]
      rfl
    · rw [round_shortest, hk]
      exact roundDecimal_zero _
  · have hn := shortest_ne_zero hk
    rw [formatMagnitude, if_neg hk]
    generalize shortest k = r at hn ⊢
    show Stands (if _ then _ else _) _ _
    split
    next => exact stands_formatE hn r.2
    next => exact stands_formatF hn r.2

/-- **What is written for a finite number is a literal, and is read as the number.** -/
theorem format_literal {x : Binary64} (hx : x.Finite) :
    Json.scanNumber x.format = some (x.format, []) ∧ parseFloat x.format = some x := by
  obtain ⟨int, frac, exp, htext, hint, hfrac, hround⟩ := stands_formatMagnitude x.magnitude
  have hformat : x.format = literal x.negative int frac exp := by
    have hx : x.magnitude.val < infinity := hx
    rw [format, if_neg (by omega), if_neg (by omega), htext]
    rfl
  rw [round_shortest] at hround
  rw [hformat]
  refine ⟨scanNumber_literal x.negative hint hfrac exp, ?_⟩
  rw [parseFloat_literal x.negative hint hfrac exp]
  exact ofDecimal_eq hround hx rfl

end Mainflux.Lib.Binary64
