/-
  Mainflux.Lib.Like
  ─────────────────
  **THE PATTERNS OF `LIKE`.**

  A pattern is read character by character: `%` stands for any text, `_` for
  any character, and `\` takes the next character as it is.  `like` decides
  whether a text matches.

  A search wraps the text that is looked for in `%`.  That search is a search
  for the text itself as long as the text has none of the three characters
  (`like_search`), and ONLY then: for any other text there is one that matches
  and does not contain it (`exists_overmatch`).

  `CaseMap` is what a search that ignores case needs of the mapping to lower
  case.
-/
import Mathlib.Data.List.Infix
import Mainflux.Lib.Text

namespace Mainflux.Lib.Like

/-! ## §1. Patterns. -/

/-- A character that a pattern does not take as it is. -/
def Special (c : Char) : Prop := c = '%' ∨ c = '_' ∨ c = '\\'

instance : DecidablePred Special := fun _ => inferInstanceAs (Decidable (_ ∨ _))

inductive Token
  | any
  | one
  | char (c : Char)
  /-- A `\` at the end of the pattern. -/
  | dangling
  deriving DecidableEq

/-- A character that is not escaped. -/
def tokenOf (c : Char) : Token := if c = '%' then .any else if c = '_' then .one else .char c

def tokens : Text → List Token
  | [] => []
  | [c] => [if c = '\\' then .dangling else tokenOf c]
  | c :: d :: cs =>
      if c = '\\' then .char d :: tokens cs else tokenOf c :: tokens (d :: cs)

/-- The tokens match the whole text. -/
def accepts : List Token → Text → Bool
  | [], s => s.isEmpty
  | .any :: ts, s => s.tails.any fun r => accepts ts r
  | .one :: _, [] => false
  | .one :: ts, _ :: s => accepts ts s
  | .char _ :: _, [] => false
  | .char c :: ts, d :: s => d = c && accepts ts s
  | .dangling :: _, _ => false

/-- `s LIKE pattern`. -/
def like (pattern s : Text) : Bool := accepts (tokens pattern) s

/-- The pattern that searches for a text. -/
def search (t : Text) : Text := '%' :: (t ++ ['%'])

/-! ## §2. What the tokens accept. -/

theorem accepts_any {ts : List Token} {s : Text} :
    accepts (.any :: ts) s = true ↔ ∃ a b, s = a ++ b ∧ accepts ts b = true := by
  simp only [accepts, List.any_eq_true, List.mem_tails]
  constructor
  · rintro ⟨b, ⟨a, hab⟩, hb⟩
    exact ⟨a, b, hab.symm, hb⟩
  · rintro ⟨a, b, hab, hb⟩
    exact ⟨b, ⟨a, hab.symm⟩, hb⟩

theorem accepts_last (s : Text) : accepts [.any] s = true :=
  accepts_any.mpr ⟨s, [], (List.append_nil s).symm, rfl⟩

theorem accepts_chars {t : Text} {ts : List Token} {s : Text} :
    accepts (t.map .char ++ ts) s = true ↔ ∃ b, s = t ++ b ∧ accepts ts b = true := by
  induction t generalizing s with
  | nil => exact ⟨fun h => ⟨s, rfl, h⟩, fun ⟨b, hb, h⟩ => hb ▸ h⟩
  | cons c t ih =>
      cases s with
      | nil =>
          refine iff_of_false (by simp [accepts]) ?_
          rintro ⟨b, hb, -⟩
          cases hb
      | cons d s =>
          simp only [List.map_cons, List.cons_append, accepts, Bool.and_eq_true, decide_eq_true_eq,
            ih, List.cons.injEq]
          constructor
          · rintro ⟨hd, b, hb, h⟩
            exact ⟨b, ⟨hd, hb⟩, h⟩
          · rintro ⟨b, ⟨hd, hb⟩, h⟩
            exact ⟨hd, b, hb, h⟩

theorem tokens_cons {c : Char} (h : c ≠ '\\') (cs : Text) :
    tokens (c :: cs) = tokenOf c :: tokens cs := by
  cases cs with
  | nil => simp only [tokens, if_neg h]
  | cons d cs => simp only [tokens, if_neg h]

theorem tokenOf_plain {c : Char} (h : ¬ Special c) : tokenOf c = .char c := by
  simp only [Special, not_or] at h
  rw [tokenOf, if_neg h.1, if_neg h.2.1]

theorem tokens_plain {t : Text} (h : ∀ c ∈ t, ¬ Special c) (cs : Text) :
    tokens (t ++ cs) = t.map .char ++ tokens cs := by
  induction t with
  | nil => rfl
  | cons c t ih =>
      have hc : ¬ Special c := h c List.mem_cons_self
      have hne : c ≠ '\\' := fun heq => hc (.inr (.inr heq))
      rw [List.cons_append, tokens_cons hne, tokenOf_plain hc,
        ih fun d hd => h d (List.mem_cons_of_mem _ hd)]
      rfl

/-- **A plain text is searched for as it is.** -/
theorem like_search {t : Text} (h : ∀ c ∈ t, ¬ Special c) (s : Text) :
    like (search t) s = true ↔ t <:+: s := by
  have htokens : tokens (search t) = .any :: (t.map .char ++ [.any]) := by
    rw [search, tokens_cons (by decide), tokens_plain h]
    rfl
  rw [like, htokens, accepts_any]
  constructor
  · rintro ⟨a, b, rfl, hb⟩
    obtain ⟨r, rfl, -⟩ := accepts_chars.mp hb
    exact ⟨a, r, List.append_assoc a t r⟩
  · rintro ⟨a, r, rfl⟩
    exact ⟨a, t ++ r, List.append_assoc a t r, accepts_chars.mpr ⟨r, rfl, accepts_last r⟩⟩

/-! ## §3. Every other text. -/

/-- A text for a token, as short as can be. -/
def Token.sample : Token → Text
  | .any => []
  | .one => ['a']
  | .char c => [c]
  | .dangling => []

theorem accepts_sample {ts : List Token} (h : Token.dangling ∉ ts) :
    accepts ts (ts.flatMap Token.sample) = true := by
  induction ts with
  | nil => rfl
  | cons token ts ih =>
      have hrest := ih fun hmem => h (List.mem_cons_of_mem _ hmem)
      cases token with
      | any => exact accepts_any.mpr ⟨[], _, rfl, hrest⟩
      | one => exact hrest
      | char c =>
          simp only [List.flatMap_cons, Token.sample, List.cons_append, List.nil_append, accepts,
            decide_true, Bool.true_and]
          exact hrest
      | dangling => exact absurd List.mem_cons_self h

/-- Nothing shorter is accepted. -/
theorem length_of_accepts {ts : List Token} {s : Text} (h : accepts ts s = true) :
    (ts.flatMap Token.sample).length ≤ s.length := by
  induction ts generalizing s with
  | nil => exact Nat.zero_le _
  | cons token ts ih =>
      rw [List.flatMap_cons, List.length_append]
      cases token with
      | any =>
          obtain ⟨a, b, rfl, hb⟩ := accepts_any.mp h
          have := ih hb
          rw [List.length_append]
          show 0 + _ ≤ _
          omega
      | one =>
          cases s with
          | nil => cases h
          | cons d s =>
              have := ih h
              show 1 + _ ≤ s.length + 1
              omega
      | char c =>
          cases s with
          | nil => cases h
          | cons d s =>
              simp only [accepts, Bool.and_eq_true] at h
              have := ih h.2
              show 1 + _ ≤ s.length + 1
              omega
      | dangling => cases h

/-- The `%` at the end of a search is a token, or it is what a `\` escapes. -/
theorem dangling_not_mem (t : Text) : Token.dangling ∉ tokens (t ++ ['%']) := by
  have hof : ∀ c, tokenOf c ≠ .dangling := by
    intro c
    unfold tokenOf
    split
    · simp
    · split <;> simp
  have hcons : ∀ {c : Char} {cs : Text}, c ≠ '\\' → Token.dangling ∉ tokens cs →
      Token.dangling ∉ tokens (c :: cs) := by
    intro c cs hc hcs h
    rw [tokens_cons hc] at h
    rcases List.mem_cons.mp h with h | h
    · exact hof c h.symm
    · exact hcs h
  induction t using tokens.induct with
  | case1 => decide
  | case2 c =>
      by_cases hc : c = '\\'
      · rw [hc]
        decide
      · exact hcons hc (by decide)
  | case3 d cs ih =>
      show Token.dangling ∉ tokens ('\\' :: d :: (cs ++ ['%']))
      rw [tokens, if_pos rfl]
      intro h
      rcases List.mem_cons.mp h with h | h
      · cases h
      · exact ih h
  | case4 c d cs hc ih => exact hcons hc ih

/-- The shortest text that a search for `t` finds. -/
def shortest (t : Text) : Text := (tokens (t ++ ['%'])).flatMap Token.sample

theorem shortest_cons {c : Char} (h : c ≠ '\\') (cs : Text) :
    shortest (c :: cs) = (tokenOf c).sample ++ shortest cs := by
  show (tokens (c :: (cs ++ ['%']))).flatMap Token.sample = _
  rw [tokens_cons h]
  rfl

theorem shortest_escape (d : Char) (cs : Text) :
    shortest ('\\' :: d :: cs) = d :: shortest cs := by
  show (tokens ('\\' :: d :: (cs ++ ['%']))).flatMap Token.sample = _
  rw [tokens, if_pos rfl]
  rfl

theorem like_shortest (t : Text) : like (search t) (shortest t) = true := by
  rw [like, search, tokens_cons (by decide)]
  exact accepts_any.mpr ⟨[], shortest t, rfl, accepts_sample (dangling_not_mem t)⟩

theorem shortest_le {t s : Text} (h : like (search t) s = true) :
    (shortest t).length ≤ s.length := by
  rw [like, search, tokens_cons (by decide)] at h
  have hle := length_of_accepts h
  exact hle

theorem sample_tokenOf (c : Char) :
    (tokenOf c).sample.length ≤ 1 ∧ ((tokenOf c).sample = [c] → c ≠ '%' ∧ c ≠ '_') := by
  unfold tokenOf
  split
  next hc => exact ⟨Nat.zero_le _, fun h => by cases h⟩
  next hp =>
      split
      next hc =>
          refine ⟨Nat.le_refl _, fun h => ?_⟩
          rw [hc] at h
          exact absurd (List.cons.inj h).1 (by decide)
      next hu => exact ⟨Nat.le_refl _, fun _ => ⟨hp, hu⟩⟩

/-- What holds of the tail holds with one character that is no `\` before it. -/
theorem shortest_spec_cons {c : Char} (hc : c ≠ '\\') {cs : Text}
    (ih : (shortest cs).length ≤ cs.length ∧ (shortest cs = cs → ∀ d ∈ cs, ¬ Special d)) :
    (shortest (c :: cs)).length ≤ (c :: cs).length ∧
      (shortest (c :: cs) = c :: cs → ∀ d ∈ c :: cs, ¬ Special d) := by
  obtain ⟨hlength, hplain⟩ := sample_tokenOf c
  obtain ⟨hle, hrest⟩ := ih
  rw [shortest_cons hc]
  constructor
  · rw [List.length_append, List.length_cons]
    omega
  · intro h d hd
    -- neither part can be shorter than what it stands for
    have htotal := congrArg List.length h
    rw [List.length_append, List.length_cons] at htotal
    have hone : (tokenOf c).sample.length = [c].length := by
      rw [List.length_singleton]
      omega
    obtain ⟨hsample, htail⟩ := List.append_inj h hone
    rcases List.mem_cons.mp hd with rfl | hd
    · rintro (hs | hs | hs)
      · exact (hplain hsample).1 hs
      · exact (hplain hsample).2 hs
      · exact hc hs
    · exact hrest htail d hd

/-- **It is no longer than `t`, and it is `t` only if `t` is plain.** -/
theorem shortest_spec (t : Text) :
    (shortest t).length ≤ t.length ∧ (shortest t = t → ∀ c ∈ t, ¬ Special c) := by
  have hnil : (shortest []).length ≤ [].length ∧ (shortest [] = [] → ∀ c ∈ [], ¬ Special c) :=
    ⟨Nat.le_refl _, fun _ c hc => absurd hc List.not_mem_nil⟩
  induction t using tokens.induct with
  | case1 => exact hnil
  | case2 c =>
      by_cases hc : c = '\\'
      · -- the `%` at the end is escaped
        have hsample : shortest [c] = ['%'] := by
          rw [hc]
          decide
        rw [hsample]
        refine ⟨Nat.le_refl _, fun h => ?_⟩
        rw [hc] at h
        exact absurd (List.cons.inj h).1 (by decide)
      · exact shortest_spec_cons hc hnil
  | case3 d cs ih =>
      have hshort : (shortest ('\\' :: d :: cs)).length < ('\\' :: d :: cs).length := by
        rw [shortest_escape, List.length_cons, List.length_cons, List.length_cons]
        have := ih.1
        omega
      refine ⟨Nat.le_of_lt hshort, fun h => ?_⟩
      rw [h] at hshort
      exact absurd hshort (Nat.lt_irrefl _)
  | case4 c d cs hc ih => exact shortest_spec_cons hc ih

/-- The characters of the shortest text. -/
theorem mem_shortest {t : Text} {c : Char} (h : c ∈ shortest t) : c ∈ t ∨ c = 'a' ∨ c = '%' := by
  have hcons : ∀ {d : Char} {cs : Text}, d ≠ '\\' → c ∈ shortest (d :: cs) →
      c = d ∨ c = 'a' ∨ c ∈ shortest cs := by
    intro d cs hd hc
    rw [shortest_cons hd] at hc
    rcases List.mem_append.mp hc with hc | hc
    · unfold tokenOf at hc
      split at hc
      · cases hc
      · split at hc
        · exact .inr (.inl (List.mem_singleton.mp hc))
        · exact .inl (List.mem_singleton.mp hc)
    · exact .inr (.inr hc)
  induction t using tokens.induct with
  | case1 => exact absurd h List.not_mem_nil
  | case2 d =>
      by_cases hd : d = '\\'
      · have hsample : shortest [d] = ['%'] := by
          rw [hd]
          decide
        rw [hsample] at h
        exact .inr (.inr (List.mem_singleton.mp h))
      · rcases hcons hd h with rfl | ha | h
        · exact .inl List.mem_cons_self
        · exact .inr (.inl ha)
        · exact absurd h List.not_mem_nil
  | case3 e cs ih =>
      rw [shortest_escape] at h
      rcases List.mem_cons.mp h with rfl | h
      · exact .inl (List.mem_cons_of_mem _ List.mem_cons_self)
      · exact (ih h).imp_left fun hin => List.mem_cons_of_mem _ (List.mem_cons_of_mem _ hin)
  | case4 d e cs hd ih =>
      rcases hcons hd h with rfl | ha | h
      · exact .inl List.mem_cons_self
      · exact .inr (.inl ha)
      · exact (ih h).imp_left fun hin => List.mem_cons_of_mem _ hin

/-- The characters that a match needs: those of the text, and two more. -/
abbrev Drawn (t : Text) (c : Char) : Prop := c ∈ t ∨ c = 'a' ∨ c = '%'

/-- Every search finds something. -/
theorem exists_match (t : Text) :
    ∃ s, (∀ c ∈ s, Drawn t c) ∧ like (search t) s = true :=
  ⟨shortest t, fun _ hc => mem_shortest hc, like_shortest t⟩

/-- **For any other text there is one that matches and does not contain it.** -/
theorem exists_overmatch {t : Text} (h : ¬ ∀ c ∈ t, ¬ Special c) :
    ∃ s, s.length ≤ max 1 (shortest t).length ∧ (∀ c ∈ s, Drawn t c) ∧
      like (search t) s = true ∧ ¬ t <:+: s := by
  obtain ⟨hlength, hplain⟩ := shortest_spec t
  by_cases hnil : shortest t = []
  · -- whatever there is matches
    refine ⟨['a'], Nat.le_max_left _ _, fun c hc => .inr (.inl (List.mem_singleton.mp hc)), ?_,
      fun hin => ?_⟩
    · have hempty := accepts_sample (dangling_not_mem t)
      rw [show (tokens (t ++ ['%'])).flatMap Token.sample = [] from hnil] at hempty
      rw [like, search, tokens_cons (by decide)]
      exact accepts_any.mpr ⟨['a'], [], rfl, hempty⟩
    · refine h fun c hc => ?_
      rw [List.mem_singleton.mp (hin.subset hc)]
      decide
  · refine ⟨shortest t, Nat.le_max_right _ _, fun c hc => mem_shortest hc, like_shortest t,
      fun hin => ?_⟩
    exact h (hplain (hin.eq_of_length_le hlength).symm)

/-! ## §4. Ignoring case. -/

/-- A mapping to lower case, character by character: it maps what is in lower
case to itself, and neither makes nor unmakes a character of patterns or a
null character. -/
structure CaseMap where
  lower : Char → Char
  lower_lower : ∀ c, lower (lower c) = lower c
  special : ∀ c, Special (lower c) ↔ Special c
  null : ∀ c, lower c = '\x00' ↔ c = '\x00'
  lower_a : lower 'a' = 'a'
  lower_percent : lower '%' = '%'

/-- The whole text in lower case. -/
def CaseMap.map (m : CaseMap) (s : Text) : Text := s.map m.lower

/-- A text in lower case is plain when the text is. -/
theorem CaseMap.plain_iff (m : CaseMap) {t : Text} :
    (∀ c ∈ m.map t, ¬ Special c) ↔ ∀ c ∈ t, ¬ Special c := by
  simp only [CaseMap.map, List.forall_mem_map, m.special]

theorem CaseMap.null_mem (m : CaseMap) {t : Text} : '\x00' ∈ m.map t ↔ '\x00' ∈ t := by
  rw [CaseMap.map, List.mem_map]
  constructor
  · rintro ⟨c, hc, h⟩
    rwa [(m.null c).mp h] at hc
  · intro h
    exact ⟨'\x00', h, (m.null _).mpr rfl⟩

/-- What a search in lower case needs is in lower case. -/
theorem CaseMap.map_drawn (m : CaseMap) {t s : Text} (h : ∀ c ∈ s, Drawn (m.map t) c) :
    m.map s = s := by
  have hfix : ∀ c ∈ s, m.lower c = c := by
    intro c hc
    rcases h c hc with hin | rfl | rfl
    · obtain ⟨d, -, rfl⟩ := List.mem_map.mp hin
      exact m.lower_lower d
    · exact m.lower_a
    · exact m.lower_percent
  exact List.map_congr_left hfix |>.trans (List.map_id _)

/-- ... and has a null character only if the text has one. -/
theorem CaseMap.null_drawn (m : CaseMap) {t s : Text} (h : ∀ c ∈ s, Drawn (m.map t) c)
    (ht : '\x00' ∉ t) : '\x00' ∉ s := by
  intro hs
  rcases h _ hs with hin | ha | hp
  · exact ht (m.null_mem.mp hin)
  · exact absurd ha (by decide)
  · exact absurd hp (by decide)

/-- `Char.toLower` moves the capitals of ASCII by 32. -/
theorem toLower_cases (c : Char) :
    c.toLower = c ∨ (65 ≤ c.toNat ∧ c.toNat ≤ 90 ∧ c.toLower.toNat = c.toNat + 32) := by
  unfold Char.toLower
  split
  next h =>
      right
      have hlow : 65 ≤ c.val.toNat := h.1
      have hhigh : c.val.toNat ≤ 90 := h.2
      refine ⟨hlow, hhigh, ?_⟩
      show (c.val + ('a'.val - 'A'.val)).toNat = c.val.toNat + 32
      rw [UInt32.toNat_add]
      show (c.val.toNat + 32) % 2 ^ 32 = _
      omega
  next => exact .inl rfl

/-- No other character is made or unmade. -/
theorem toLower_eq_iff {d : Char} (h : d.toNat < 65 ∨ (90 < d.toNat ∧ d.toNat < 97)) (c : Char) :
    c.toLower = d ↔ c = d := by
  rcases toLower_cases c with hc | ⟨hlow, hhigh, hc⟩
  · rw [hc]
  · constructor
    · intro heq
      rw [heq] at hc
      omega
    · intro heq
      rw [heq] at hlow hhigh
      omega

/-- The letters of ASCII. -/
def CaseMap.ascii : CaseMap where
  lower := Char.toLower
  lower_lower c := by
    rcases toLower_cases c with hc | ⟨hlow, hhigh, hc⟩
    · rw [hc, hc]
    · rcases toLower_cases c.toLower with hcc | ⟨hlow', hhigh', -⟩
      · exact hcc
      · omega
  special c := by
    rw [Special, Special, toLower_eq_iff (by decide), toLower_eq_iff (by decide),
      toLower_eq_iff (by decide)]
  null c := toLower_eq_iff (by decide) c
  lower_a := by decide
  lower_percent := by decide

end Mainflux.Lib.Like
