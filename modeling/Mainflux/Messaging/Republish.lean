/-
  Mainflux.Messaging.Republish
  ────────────────────────────
  **FROM NATS TO MQTT AND BACK.**

  Both MQTT adapters subscribe to `channel.>` and republish what did not come
  from MQTT: the channel, the subtopic and the content type go into the topic.
  On a publish the same adapter takes them out of the topic again
  (`Messaging.Aedes`, `Messaging.Verne`).

  The two directions are written apart.  `/` and `+` of the content type become
  `_` and `-`, which is undone without knowing which of them were there before:

    • `comesBack_iff` — exactly which routing data come back, per adapter;
    • `octet_stream_lost` — the binary content type of the SDK does not.
-/
import Mainflux.Messaging.Verne

namespace Mainflux.Messaging

open Mainflux.Lib

open Mainflux.Lib.Text

/-! ## §1. Republishing. -/

/-- The routing data of a NATS message.  The subtopic is a dot-joined list of
tokens, empty for no tokens. -/
structure Routing where
  channel : Text
  tokens : List Text
  contentType : Text
  token_ne : ∀ tok ∈ tokens, tok ≠ []
  token_dot : ∀ tok ∈ tokens, '.' ∉ tok

def Routing.subtopic (r : Routing) : Text := ['.'].intercalate r.tokens

/-- `m.contentType.replace('/', '_').replace('+', '-')`. -/
def encodeContentType (contentType : Text) : Text :=
  replaceFirst '+' '-' (replaceFirst '/' '_' contentType)

/-- The topic that the callback of `nats.subscribe` in `mqtt.js` publishes on. -/
def republishTopic (channel subtopic contentType : Text) : Text :=
  let subtopic := if subtopic ≠ [] then '/' :: replaceAll '.' '/' subtopic else []
  let ct := if contentType ≠ [] then '/' :: ctWord ++ '/' :: encodeContentType contentType else []
  channelsSlash ++ channel ++ '/' :: messagesWord ++ subtopic ++ ct

namespace Verne

/-- The two calls of `re:replace` in `loop`, with `global`. -/
def encodeContentType (contentType : Text) : Text :=
  replaceAll '+' '-' (replaceAll '/' '_' contentType)

/-- The topic of `loop` in `mfx_nats.erl`; an empty subtopic is split into one
empty word. -/
def republishTopic (channel subtopic contentType : Text) : List Text :=
  let base := [['c', 'h', 'a', 'n', 'n', 'e', 'l', 's'], channel, messagesWord]
  if contentType = [] then base ++ subtopic.splitOn '.'
  else base ++ subtopic.splitOn '.' ++ [ctWord, encodeContentType contentType]

end Verne

/-- The two adapters. -/
inductive Adapter
  | aedes
  | verne

/-- What is published on the topic an adapter republishes on. -/
def republished (r : Routing) : Adapter → Option Publication
  | .aedes => aedesPublishes (fun _ => true) (republishTopic r.channel r.subtopic r.contentType)
  | .verne =>
      Verne.authOnPublish (fun _ => true) (Verne.republishTopic r.channel r.subtopic r.contentType)

/-- **The same channel, subtopic and content type come back.** -/
def ComesBack (a : Adapter) (r : Routing) : Prop :=
  ∃ p, republished r a = some p ∧ p.channel = r.channel ∧ p.subtopic = r.subtopic ∧
    p.contentType = r.contentType

/-! ## §2. When they come back. -/

/-- A level that Aedes takes for what it is. -/
structure PlainLevel (l : Text) : Prop where
  slash : '/' ∉ l
  lines : l.any isLineTerminator = false
  control : controlWord.isPrefixOf l = false
  wildcard : ¬ InvalidElement l

/-- Aedes replaces the first `/` and the first `+`, and undoes the first `_` and
the first `-`.  What else is in the type must not look like a separator. -/
structure AedesType (ct : Text) : Prop where
  dot : '.' ∉ ct
  slashes : ct.count '/' ≤ 1
  underscore : '_' ∉ ct.takeWhile (· ≠ '/')
  minus : '-' ∉ ct.takeWhile (· ≠ '+')
  lines : ct.any isLineTerminator = false
  control : controlWord.isPrefixOf ct = false
  wildcard : ¬ InvalidElement ct

/-- The plugin replaces all of them, and reads the type byte by byte. -/
structure VerneType (ct : Text) : Prop where
  ascii : ∀ c ∈ ct, c.toNat < 128
  underscore : '_' ∉ ct
  minus : '-' ∉ ct

/-- No content type, and no tokens that look like one; or one that survives. -/
def TypeSurvives (survives : Text → Prop) (r : Routing) : Prop :=
  (r.contentType = [] ∧ ¬ HasCTLevels r.tokens) ∨ (r.contentType ≠ [] ∧ survives r.contentType)

/-- The routing data that an adapter gives back. -/
def Survives : Adapter → Routing → Prop
  | .aedes, r =>
      (r.channel ≠ [] ∧ '/' ∉ r.channel ∧ r.channel.any isLineTerminator = false) ∧
        (∀ tok ∈ r.tokens, PlainLevel tok) ∧ TypeSurvives AedesType r
  | .verne, r => TypeSurvives VerneType r

/-! ## §3. Content types. -/

section ContentTypes

variable {a b : Char} {s ct : Text}

/-- Replacing the first `a` is undone where no `b` stands before it. -/
theorem replaceFirst_undo_iff (hab : a ≠ b) (s : Text) :
    replaceFirst b a (replaceFirst a b s) = s ↔ b ∉ s.takeWhile (· ≠ a) := by
  induction s with
  | nil => simp [replaceFirst]
  | cons c s ih =>
      by_cases hc : c = a
      · subst hc
        simp [replaceFirst]
      · rw [replaceFirst, if_neg hc, List.takeWhile_cons_of_pos (by simpa using hc)]
        by_cases hb : c = b
        · subst hb
          simp [replaceFirst, hab]
        · rw [replaceFirst, if_neg hb, List.cons.injEq, ih]
          simp [Ne.symm hb]

theorem replaceFirst_comm {x y : Char} (hax : a ≠ x) (hay : y ≠ a) (hbx : b ≠ x) (s : Text) :
    replaceFirst a b (replaceFirst x y s) = replaceFirst x y (replaceFirst a b s) := by
  induction s with
  | nil => rfl
  | cons c s ih =>
      by_cases hc : c = x
      · have hca : c ≠ a := fun h => hax (h.symm.trans hc)
        simp only [replaceFirst, if_pos hc, if_neg hay, if_neg hca]
      · by_cases hca : c = a
        · simp only [replaceFirst, if_pos hca, if_neg hc, if_neg hbx]
        · simp only [replaceFirst, if_neg hc, if_neg hca, ih]

theorem map_replaceFirst {e : Char → Char} (h : e a = e b) (s : Text) :
    (replaceFirst a b s).map e = s.map e := by
  induction s with
  | nil => rfl
  | cons c s ih =>
      rw [replaceFirst]
      split
      next hc => rw [List.map_cons, List.map_cons, hc, h]
      next => rw [List.map_cons, List.map_cons, ih]

/-- Two texts that agree up to one confusion and up to another are the same when
no two characters are confused both ways. -/
theorem eq_of_map_eq {e f : Char → Char} (hef : ∀ x y, e x = e y → f x = f y → x = y) {s t : Text}
    (he : s.map e = t.map e) (hf : s.map f = t.map f) : s = t := by
  induction s generalizing t with
  | nil => exact (List.map_eq_nil_iff.mp he.symm).symm
  | cons c s ih =>
      cases t with
      | nil => cases he
      | cons d t =>
          rw [List.map_cons, List.map_cons, List.cons.injEq] at he hf
          rw [hef c d he.1 hf.1, ih he.2 hf.2]

/-- What Aedes decodes is what it encoded. -/
theorem decode_encode_iff (ct : Text) :
    replaceFirst '-' '+' (replaceFirst '_' '/' (encodeContentType ct)) = ct ↔
      '_' ∉ ct.takeWhile (· ≠ '/') ∧ '-' ∉ ct.takeWhile (· ≠ '+') := by
  rw [encodeContentType, replaceFirst_comm (a := '_') (x := '+') (by decide) (by decide) (by decide),
    ← replaceFirst_undo_iff (by decide), ← replaceFirst_undo_iff (by decide)]
  constructor
  · intro h
    -- the two pairs of characters do not meet, so neither replacement can repair the other
    let e : Char → Char := fun c => if c = '-' then '+' else c
    let f : Char → Char := fun c => if c = '_' then '/' else c
    have hslash : replaceFirst '_' '/' (replaceFirst '/' '_' ct) = ct := by
      refine eq_of_map_eq (e := e) (f := f) ?_ ?_ ?_
      · intro x y he hf
        simp only [e, f] at he hf
        grind
      · have hmap := congrArg (List.map e) h
        rwa [map_replaceFirst (by decide), map_replaceFirst (by decide)] at hmap
      · rw [map_replaceFirst (by decide), map_replaceFirst (by decide)]
    rw [hslash] at h
    exact ⟨hslash, h⟩
  · rintro ⟨hslash, hplus⟩
    rw [hslash]
    exact hplus

theorem any_replaceFirst {p : Char → Bool} (h : p a = p b) (s : Text) :
    (replaceFirst a b s).any p = s.any p := by
  induction s with
  | nil => rfl
  | cons c s ih =>
      rw [replaceFirst]
      split
      next hc => rw [List.any_cons, List.any_cons, hc, h]
      next => rw [List.any_cons, List.any_cons, ih]

theorem isPrefixOf_replaceFirst {word : Text} (ha : a ∉ word) (hb : b ∉ word) (s : Text) :
    word.isPrefixOf (replaceFirst a b s) = word.isPrefixOf s := by
  induction s generalizing word with
  | nil => rfl
  | cons c s ih =>
      cases word with
      | nil => simp [List.isPrefixOf]
      | cons w word =>
          have hwa : w ≠ a := fun h => ha (h ▸ List.mem_cons_self)
          have hwb : w ≠ b := fun h => hb (h ▸ List.mem_cons_self)
          rw [replaceFirst]
          split
          next hc =>
              have hb' : (w == b) = false := beq_false_of_ne hwb
              have ha' : (w == c) = false := beq_false_of_ne (hc ▸ hwa)
              rw [List.isPrefixOf, List.isPrefixOf, ha', hb', Bool.false_and]
          next =>
              simp only [List.isPrefixOf]
              rw [ih (fun h => ha (List.mem_cons_of_mem _ h)) fun h => hb (List.mem_cons_of_mem _ h)]

theorem mem_encodeContentType {x : Char} (h : x ≠ '/' ∧ x ≠ '_' ∧ x ≠ '+' ∧ x ≠ '-') (ct : Text) :
    x ∈ encodeContentType ct ↔ x ∈ ct := by
  obtain ⟨h1, h2, h3, h4⟩ := h
  rw [← List.count_pos_iff, ← List.count_pos_iff, encodeContentType,
    count_replaceFirst_ne h3.symm h4.symm, count_replaceFirst_ne h1.symm h2.symm]

theorem count_slash_encodeContentType (ct : Text) :
    (encodeContentType ct).count '/' = ct.count '/' - 1 := by
  rw [encodeContentType, count_replaceFirst_ne (by decide) (by decide),
    count_replaceFirst_self (by decide)]

theorem length_encodeContentType (ct : Text) : (encodeContentType ct).length = ct.length := by
  rw [encodeContentType, length_replaceFirst, length_replaceFirst]

/-- What the plugin decodes is what it encoded. -/
theorem verne_decode_encode_iff (ct : Text) :
    Verne.contentType (Verne.encodeContentType ct) = ct ↔ VerneType ct := by
  constructor
  · intro h
    have hlen := congrArg List.length h
    rw [Verne.contentType, length_replaceAll, length_replaceAll] at hlen
    have henc : (Verne.encodeContentType ct).length = ct.length := by
      rw [Verne.encodeContentType, length_replaceAll, length_replaceAll]
    have hascii := (length_utf8 (Verne.encodeContentType ct)).2 (by omega)
    refine ⟨fun c hc => ?_, ?_, ?_⟩
    · -- a character outside ASCII is not replaced
      have hin : (fun c => if c = '+' then '-' else c) ((fun c => if c = '/' then '_' else c) c)
          ∈ Verne.encodeContentType ct :=
        List.mem_map_of_mem (List.mem_map_of_mem hc)
      have hsmall := hascii _ hin
      by_contra hbig
      have hplus : c ≠ '+' := fun heq => hbig (by rw [heq]; decide)
      have hslash : c ≠ '/' := fun heq => hbig (by rw [heq]; decide)
      simp only [if_neg hslash, if_neg hplus] at hsmall
      exact hbig hsmall
    · rw [← h]
      exact not_mem_replaceAll_ne (by decide) (not_mem_replaceAll (by decide) _)
    · rw [← h]
      exact not_mem_replaceAll (by decide) _
  · rintro ⟨hascii, hunder, hminus⟩
    have henc : ∀ c ∈ Verne.encodeContentType ct, c.toNat < 128 := by
      intro c hc
      obtain ⟨d, hd, rfl⟩ := List.mem_map.mp hc
      obtain ⟨x, hx, rfl⟩ := List.mem_map.mp hd
      have hsmall := hascii x hx
      split_ifs <;> first | decide | exact hsmall
    rw [Verne.contentType, utf8_ascii henc, Verne.encodeContentType]
    simp only [replaceAll, List.map_map]
    refine (List.map_congr_left fun c hc => ?_).trans (List.map_id ct)
    have h1 : c ≠ '_' := fun heq => hunder (heq ▸ hc)
    have h2 : c ≠ '-' := fun heq => hminus (heq ▸ hc)
    simp only [Function.comp_apply, id_eq]
    by_cases hslash : c = '/'
    · rw [hslash]
      decide
    · by_cases hplus : c = '+'
      · rw [hplus]
        decide
      · simp [hslash, hplus, h1, h2]

theorem plainLevel_encode_iff (ct : Text) :
    PlainLevel (encodeContentType ct) ↔
      ct.count '/' ≤ 1 ∧ ct.any isLineTerminator = false ∧ controlWord.isPrefixOf ct = false ∧
        ¬ InvalidElement ct := by
  have hslash : '/' ∉ encodeContentType ct ↔ ct.count '/' ≤ 1 := by
    rw [← List.count_eq_zero, count_slash_encodeContentType]
    omega
  have hlines : (encodeContentType ct).any isLineTerminator = ct.any isLineTerminator := by
    rw [encodeContentType, any_replaceFirst (by decide), any_replaceFirst (by decide)]
  have hcontrol : controlWord.isPrefixOf (encodeContentType ct) = controlWord.isPrefixOf ct := by
    rw [encodeContentType, isPrefixOf_replaceFirst (by decide) (by decide),
      isPrefixOf_replaceFirst (by decide) (by decide)]
  have hwild : InvalidElement (encodeContentType ct) ↔ InvalidElement ct := by
    rw [InvalidElement, InvalidElement, length_encodeContentType,
      mem_encodeContentType (by decide), mem_encodeContentType (by decide)]
  constructor
  · rintro ⟨h1, h2, h3, h4⟩
    exact ⟨hslash.mp h1, hlines ▸ h2, hcontrol ▸ h3, fun h => h4 (hwild.mpr h)⟩
  · rintro ⟨h1, h2, h3, h4⟩
    exact ⟨hslash.mpr h1, hlines.trans h2, hcontrol.trans h3, fun h => h4 (hwild.mp h)⟩

/-- The types that Aedes gives back, by what becomes of them in the topic. -/
theorem aedesType_iff (ct : Text) :
    AedesType ct ↔
      PlainLevel (encodeContentType ct) ∧ '.' ∉ encodeContentType ct ∧
        replaceFirst '-' '+' (replaceFirst '_' '/' (encodeContentType ct)) = ct := by
  rw [plainLevel_encode_iff, decode_encode_iff, mem_encodeContentType (by decide)]
  constructor
  · rintro ⟨h1, h2, h3, h4, h5, h6, h7⟩
    exact ⟨⟨h2, h5, h6, h7⟩, h1, h3, h4⟩
  · rintro ⟨⟨h2, h5, h6, h7⟩, h1, h3, h4⟩
    exact ⟨h1, h2, h3, h4, h5, h6, h7⟩

end ContentTypes

/-! ## §4. The plugin. -/

section Plugin

variable (r : Routing)

theorem splitOn_subtopic :
    r.subtopic.splitOn '.' = if r.tokens = [] then [[]] else r.tokens := by
  rw [Routing.subtopic]
  split
  next h =>
      rw [h]
      rfl
  next h => exact List.splitOn_intercalate '.' r.token_dot h

theorem hasCTLevels_splitOn : HasCTLevels (r.subtopic.splitOn '.') ↔ HasCTLevels r.tokens := by
  rw [splitOn_subtopic]
  split
  next h =>
      rw [h]
      decide
  next => exact Iff.rfl

/-- What the plugin publishes on a topic of its own making. -/
theorem republished_verne {levels : List Text} (hne : levels ≠ [])
    (htopic : Verne.republishTopic r.channel r.subtopic r.contentType
      = ['c', 'h', 'a', 'n', 'n', 'e', 'l', 's'] :: r.channel :: messagesWord :: levels) :
    ComesBack .verne r ↔
      if HasCTLevels levels then
        ['.'].intercalate levels.dropLast.dropLast = r.subtopic ∧
          Verne.contentType (levels.getLast?.getD []) = r.contentType
      else ['.'].intercalate levels = r.subtopic ∧ r.contentType = [] := by
  have hpub := parseTopic_levels r.channel levels
  rw [if_neg hne] at hpub
  simp only [ComesBack, republished, Verne.authOnPublish, htopic, hpub, if_true]
  split
  · simp
  · simp [eq_comm]

theorem comesBack_verne_iff : ComesBack .verne r ↔ Survives .verne r := by
  have hne : r.subtopic.splitOn '.' ≠ [] := List.splitOn_ne_nil '.' _
  have hjoin : ['.'].intercalate (r.subtopic.splitOn '.') = r.subtopic :=
    List.intercalate_splitOn '.'
  by_cases hct : r.contentType = []
  · have hlevels := republished_verne r hne (by rw [Verne.republishTopic, if_pos hct]; rfl)
    rw [hlevels]
    simp only [Survives, TypeSurvives, hct, ne_eq, not_true_eq_false, false_and, or_false, true_and]
    by_cases hpair : HasCTLevels r.tokens
    · -- the last two tokens are taken for a content type
      rw [if_pos ((hasCTLevels_splitOn r).mpr hpair)]
      obtain ⟨sub, last, htokens⟩ := beforeLast_eq_ct.mp hpair
      have hlast : (r.subtopic.splitOn '.').getLast?.getD [] = last := by
        have hcat : sub ++ [ctWord, last] = (sub ++ [ctWord]) ++ [last] := by simp
        rw [splitOn_subtopic, if_neg (by rw [htokens]; simp), htokens, hcat, List.getLast?_concat]
        rfl
      have hnonempty : last ≠ [] := r.token_ne last (by rw [htokens]; simp)
      simp only [hpair, not_true_eq_false, iff_false, not_and, hlast]
      intro _ hnil
      have hlen := congrArg List.length hnil
      rw [Verne.contentType, length_replaceAll, length_replaceAll, List.length_nil] at hlen
      have hbytes := (length_utf8 last).1
      have hpos := List.length_pos_iff.mpr hnonempty
      omega
    · rw [if_neg fun h => hpair ((hasCTLevels_splitOn r).mp h)]
      simp [hjoin, hpair]
  · have hne' : r.subtopic.splitOn '.' ++ [ctWord, Verne.encodeContentType r.contentType] ≠ [] := by
      simp
    have hlevels := republished_verne r hne' (by rw [Verne.republishTopic, if_neg hct]; rfl)
    have hpair : HasCTLevels
        (r.subtopic.splitOn '.' ++ [ctWord, Verne.encodeContentType r.contentType]) :=
      beforeLast_eq_ct.mpr ⟨_, _, rfl⟩
    have hcat : r.subtopic.splitOn '.' ++ [ctWord, Verne.encodeContentType r.contentType]
        = (r.subtopic.splitOn '.' ++ [ctWord]) ++ [Verne.encodeContentType r.contentType] := by simp
    rw [hlevels, if_pos hpair, hcat, List.getLast?_concat,
      List.dropLast_concat, List.dropLast_concat, hjoin, Option.getD_some, verne_decode_encode_iff]
    simp [Survives, TypeSurvives, hct]

end Plugin

/-! ## §5. The topic of Aedes, segment by segment. -/

section Segments

variable (r : Routing)

/-- The levels of the republished topic. -/
def Routing.levels (r : Routing) : List Text :=
  r.tokens ++ if r.contentType = [] then [] else [ctWord, encodeContentType r.contentType]

theorem intercalate_cons_flatMap (x : Text) (ls : List Text) :
    ['/'].intercalate (x :: ls) = x ++ ls.flatMap ('/' :: ·) := by
  induction ls generalizing x with
  | nil => simp
  | cons l ls ih => rw [List.intercalate_cons_cons, ih]; simp

theorem subtopic_eq_nil : r.subtopic = [] ↔ r.tokens = [] := by
  constructor
  · intro h
    have hsplit := splitOn_subtopic r
    rw [h] at hsplit
    by_contra hne
    rw [if_neg hne] at hsplit
    exact r.token_ne [] (by rw [← hsplit]; exact List.mem_singleton_self _) rfl
  · intro h
    rw [Routing.subtopic, h]
    rfl

theorem republishTopic_eq :
    republishTopic r.channel r.subtopic r.contentType
      = ['/'].intercalate
          (['c', 'h', 'a', 'n', 'n', 'e', 'l', 's'] :: r.channel :: messagesWord :: r.levels) := by
  have hsub : (if r.subtopic ≠ [] then '/' :: replaceAll '.' '/' r.subtopic else [])
      = r.tokens.flatMap ('/' :: ·) := by
    cases htokens : r.tokens with
    | nil => rw [if_neg (not_not.mpr ((subtopic_eq_nil r).mpr htokens))]; rfl
    | cons tok tokens =>
        have hne : r.subtopic ≠ [] := fun h => by
          rw [(subtopic_eq_nil r).mp h] at htokens
          cases htokens
        rw [if_pos hne, Routing.subtopic, replaceAll_intercalate '/' r.token_dot, htokens,
          intercalate_cons_flatMap]
        simp
  rw [republishTopic, hsub, intercalate_cons_flatMap, Routing.levels]
  by_cases hct : r.contentType = []
  · simp [hct, channelsSlash]
  · simp [hct, channelsSlash]

/-- Dropping the empty elements commutes with appending. -/
theorem elements_append (ls ls' : List Text) :
    (pieces (ls ++ ls')).filter (· ≠ [])
      = (pieces ls).filter (· ≠ []) ++ (pieces ls').filter (· ≠ []) := by
  rw [pieces_eq_flatMap, pieces_eq_flatMap, pieces_eq_flatMap, List.flatMap_append,
    List.filter_append]

/-- Levels without dots are their own elements. -/
theorem elements_self {ls : List Text} (h : ∀ l ∈ ls, l ≠ [] ∧ '.' ∉ l) :
    (pieces ls).filter (· ≠ []) = ls := by
  have hpieces : pieces ls = ls := by
    unfold pieces
    split
    next hnil => exact hnil.symm
    next hne => exact splitOn_join h hne
  rw [hpieces]
  exact List.filter_eq_self.mpr fun l hl => by simpa using (h l hl).1

/-- Lists of elements can be told from their joins. -/
theorem join_injective {st st' : List Text} (h : ∀ e ∈ st, e ≠ [] ∧ '.' ∉ e)
    (h' : ∀ e ∈ st', e ≠ [] ∧ '.' ∉ e)
    (hjoin : ['.'].intercalate st = ['.'].intercalate st') : st = st' := by
  rw [← elements_self h, ← elements_self h']
  unfold pieces
  by_cases hst : st = []
  · by_cases hst' : st' = []
    · rw [if_pos hst, if_pos hst']
    · rw [if_pos hst, if_neg hst', ← hjoin, hst]
      rfl
  · by_cases hst' : st' = []
    · rw [if_neg hst, if_pos hst', hjoin, hst']
      rfl
    · rw [if_neg hst, if_neg hst', hjoin]

theorem elementsOf_no_slash {topic e : Text} (h : e ∈ elementsOf topic) : '/' ∉ e := by
  rw [elementsOf_eq, List.mem_filter, pieces_eq_flatMap] at h
  obtain ⟨l, hl, he⟩ := List.mem_flatMap.mp h.1
  intro hslash
  exact not_mem_of_mem_splitOn (List.mem_of_mem_drop hl) (mem_of_mem_splitOn he hslash)

theorem elementsOf_plain {topic e : Text} (h : e ∈ elementsOf topic) : e ≠ [] ∧ '.' ∉ e := by
  rw [elementsOf_eq] at h
  exact mem_filter_pieces h

end Segments

/-! ## §6. Aedes. -/

section Aedes

variable {r : Routing}

theorem tokens_plain (r : Routing) : ∀ tok ∈ r.tokens, tok ≠ [] ∧ '.' ∉ tok :=
  fun tok htok => ⟨r.token_ne tok htok, r.token_dot tok htok⟩

/-- What has to be read out of the elements: the tokens, or the tokens and a
pair. -/
theorem elements_of_comesBack {topic : Text}
    (hsub : ['.'].intercalate (splitContentType (elementsOf topic)).2 = r.subtopic)
    (hct : (splitContentType (elementsOf topic)).1 = r.contentType) :
    (r.contentType = [] ∧ ¬ HasContentType (elementsOf topic) ∧ elementsOf topic = r.tokens) ∨
      ∃ x, r.contentType ≠ [] ∧ elementsOf topic = r.tokens ++ [ctWord, x] ∧
        replaceFirst '-' '+' (replaceFirst '_' '/' x) = r.contentType := by
  have hplain : ∀ e ∈ elementsOf topic, e ≠ [] ∧ '.' ∉ e := fun e he => elementsOf_plain he
  by_cases hpair : HasContentType (elementsOf topic)
  · obtain ⟨st, x, heq⟩ := beforeLast_eq_ct.mp hpair
    have hcat : st ++ [ctWord, x] = (st ++ [ctWord]) ++ [x] := by simp
    rw [splitContentType, if_pos hpair, heq, hcat, List.dropLast_concat,
      List.dropLast_concat] at hsub
    rw [splitContentType, if_pos hpair, heq, hcat, List.getLast?_concat, Option.getD_some] at hct
    have hst : st = r.tokens := by
      refine join_injective (fun e he => hplain e ?_) (tokens_plain r) hsub
      rw [heq]
      exact List.mem_append_left _ he
    refine .inr ⟨x, ?_, hst ▸ heq, hct⟩
    -- the element is not empty, so neither is the type read from it
    have hx : x ≠ [] := (hplain x (by rw [heq]; simp)).1
    have hlen := congrArg List.length hct
    rw [length_replaceFirst, length_replaceFirst] at hlen
    have hpos := List.length_pos_iff.mpr hx
    exact List.length_pos_iff.mp (by omega)
  · rw [splitContentType, if_neg hpair] at hsub hct
    exact .inl ⟨hct.symm, hpair, join_injective hplain (tokens_plain r) hsub⟩

/-- The elements of the republished topic: those of its levels, behind those of a
channel id with slashes, of which the word `messages` is one. -/
theorem elementsOf_republish (r : Routing) :
    ∃ pre, elementsOf (republishTopic r.channel r.subtopic r.contentType)
        = pre ++ (pieces (r.levels.flatMap (·.splitOn '/'))).filter (· ≠ []) ∧
      ('/' ∉ r.channel ∧ pre = [] ∨ messagesWord ∈ pre) := by
  have hchannels : (['c', 'h', 'a', 'n', 'n', 'e', 'l', 's'] : Text).splitOn '/'
      = [['c', 'h', 'a', 'n', 'n', 'e', 'l', 's']] := by decide
  have hmessages : messagesWord.splitOn '/' = [messagesWord] := by decide
  rw [elementsOf_eq, republishTopic_eq, splitOn_intercalate_flatMap '/' (List.cons_ne_nil _ _),
    List.flatMap_cons, List.flatMap_cons, List.flatMap_cons, hchannels, hmessages]
  cases hsplit : r.channel.splitOn '/' with
  | nil => exact absurd hsplit (List.splitOn_ne_nil '/' _)
  | cons c cs =>
      cases cs with
      | nil =>
          have hjoin : ['/'].intercalate (r.channel.splitOn '/') = r.channel :=
            List.intercalate_splitOn '/'
          rw [hsplit, List.intercalate_singleton] at hjoin
          refine ⟨[], rfl, .inl ⟨?_, rfl⟩⟩
          rw [← hjoin]
          exact not_mem_of_mem_splitOn (by rw [hsplit]; exact List.mem_singleton_self c)
      | cons c' cs =>
          refine ⟨(pieces (cs ++ [messagesWord])).filter (· ≠ []), ?_, .inr ?_⟩
          · rw [← elements_append]
            simp
          · rw [elements_append]
            exact List.mem_append_right _ (by decide)

/-- A type is read back from the pieces of its encoding only when it is one
piece. -/
theorem encode_of_pieces {ct x : Text}
    (hpieces : (pieces ((encodeContentType ct).splitOn '/')).filter (· ≠ []) = [x])
    (hct : replaceFirst '-' '+' (replaceFirst '_' '/' x) = ct) :
    x = encodeContentType ct ∧ '/' ∉ encodeContentType ct ∧ '.' ∉ encodeContentType ct := by
  have hlen := congrArg List.length hct
  rw [length_replaceFirst, length_replaceFirst] at hlen
  have henc := length_encodeContentType ct
  have hx : x ∈ (pieces ((encodeContentType ct).splitOn '/')).filter (· ≠ []) := by
    rw [hpieces]
    exact List.mem_singleton_self x
  rw [List.mem_filter, pieces_eq_flatMap] at hx
  obtain ⟨s, hs, hxs⟩ := List.mem_flatMap.mp hx.1
  -- a piece as long as the text is the text
  have hslash := length_of_mem_splitOn hs
  have hdot := length_of_mem_splitOn hxs
  have hnoslash : '/' ∉ encodeContentType ct := fun h => by
    rw [if_pos h] at hslash
    omega
  rw [List.splitOn_eq_singleton hnoslash, List.mem_singleton] at hs
  subst hs
  have hnodot : '.' ∉ encodeContentType ct := fun h => by
    rw [if_pos h] at hdot
    omega
  rw [List.splitOn_eq_singleton hnodot, List.mem_singleton] at hxs
  exact ⟨hxs, hnoslash, hnodot⟩

/-- Nothing that comes back has a slash, and its type has no dot and is decoded
to itself. -/
theorem segments_of_elements
    (h : (r.contentType = [] ∧
        ¬ HasContentType (elementsOf (republishTopic r.channel r.subtopic r.contentType)) ∧
        elementsOf (republishTopic r.channel r.subtopic r.contentType) = r.tokens) ∨
      ∃ x, r.contentType ≠ [] ∧
        elementsOf (republishTopic r.channel r.subtopic r.contentType) = r.tokens ++ [ctWord, x] ∧
        replaceFirst '-' '+' (replaceFirst '_' '/' x) = r.contentType) :
    '/' ∉ r.channel ∧ (∀ tok ∈ r.tokens, '/' ∉ tok) ∧
      (r.contentType = [] ∧ ¬ HasContentType r.tokens ∨
        r.contentType ≠ [] ∧ '/' ∉ encodeContentType r.contentType ∧
          '.' ∉ encodeContentType r.contentType ∧
          replaceFirst '-' '+' (replaceFirst '_' '/' (encodeContentType r.contentType))
            = r.contentType) := by
  have htokens : ∀ tok ∈ r.tokens, '/' ∉ tok := by
    intro tok htok
    rcases h with ⟨-, -, heq⟩ | ⟨x, -, heq, -⟩
    · exact elementsOf_no_slash (heq ▸ htok)
    · exact elementsOf_no_slash (heq ▸ List.mem_append_left _ htok)
  have hself : r.tokens.flatMap (·.splitOn '/') = r.tokens := by
    rw [List.flatMap_congr fun tok htok => List.splitOn_eq_singleton (htokens tok htok)]
    simp
  obtain ⟨pre, hpre, hchannel⟩ := elementsOf_republish r
  rw [Routing.levels, List.flatMap_append, hself, elements_append,
    elements_self (tokens_plain r)] at hpre
  rcases h with ⟨hct, hpair, heq⟩ | ⟨x, hct, heq, hdec⟩
  · rw [if_pos hct] at hpre
    have hnil : pre = [] := by
      have hlen := congrArg List.length (hpre.symm.trans heq)
      simp [pieces] at hlen
      exact hlen
    refine ⟨?_, htokens, .inl ⟨hct, heq ▸ hpair⟩⟩
    rcases hchannel with ⟨hno, -⟩ | hmem
    · exact hno
    · rw [hnil] at hmem
      cases hmem
  · have hctWord : ctWord.splitOn '/' = [ctWord] := by decide
    have hword : (pieces [ctWord]).filter (· ≠ []) = [ctWord] := by decide
    rw [if_neg hct, List.flatMap_cons, List.flatMap_singleton, hctWord, elements_append, hword] at hpre
    have hjoined := hpre.symm.trans heq
    have hlen := congrArg List.length hjoined
    simp only [List.length_append, List.length_cons, List.length_nil] at hlen
    rcases hchannel with ⟨hno, hnil⟩ | hmem
    · rw [hnil, List.nil_append, List.append_cancel_left_eq, List.singleton_append,
        List.cons.injEq] at hjoined
      obtain ⟨hx, hnoslash, hnodot⟩ := encode_of_pieces hjoined.2 hdec
      exact ⟨hno, htokens, .inr ⟨hct, hnoslash, hnodot, hx ▸ hdec⟩⟩
    · -- `messages` would have to stand among the tokens once more than it does
      exfalso
      have hone := List.length_pos_of_mem hmem
      have hempty : (pieces ((encodeContentType r.contentType).splitOn '/')).filter (· ≠ []) = [] :=
        List.length_eq_zero_iff.mp (by omega)
      rw [hempty, List.append_nil] at hjoined
      have hcount := congrArg (List.count messagesWord) hjoined
      have hpos := List.count_pos_iff.mpr hmem
      have hlast : x = ctWord := by
        have hl := congrArg List.getLast? hjoined
        simpa using hl.symm
      subst hlast
      simp only [List.count_append] at hcount
      have hzero : List.count messagesWord [ctWord] = 0 := by decide
      have hzero' : List.count messagesWord [ctWord, ctWord] = 0 := by decide
      omega

theorem publication_fields (g : Text) (elements : List Text) :
    (publication g elements).channel = g ∧
      (publication g elements).subtopic = ['.'].intercalate (splitContentType elements).2 ∧
      (publication g elements).contentType = (splitContentType elements).1 := ⟨rfl, rfl, rfl⟩

theorem comesBack_aedes (r : Routing) :
    ComesBack .aedes r ↔
      parseTopic (republishTopic r.channel r.subtopic r.contentType) = some r.channel ∧
        (¬ ∃ elem ∈ elementsOf (republishTopic r.channel r.subtopic r.contentType),
          InvalidElement elem) ∧
        ['.'].intercalate (splitContentType
          (elementsOf (republishTopic r.channel r.subtopic r.contentType))).2 = r.subtopic ∧
        (splitContentType (elementsOf (republishTopic r.channel r.subtopic r.contentType))).1
          = r.contentType := by
  constructor
  · rintro ⟨p, hpub, hchannel, hsub, hct⟩
    obtain ⟨g, hparse, hok, -, rfl⟩ := aedesPublishes_eq_some.mp hpub
    obtain ⟨hg, hst, htype⟩ := publication_fields g
      (elementsOf (republishTopic r.channel r.subtopic r.contentType))
    rw [← hg, hchannel] at hparse
    exact ⟨hparse, hok, hst.symm.trans hsub, htype.symm.trans hct⟩
  · rintro ⟨hparse, hok, hsub, hct⟩
    obtain ⟨hg, hst, htype⟩ := publication_fields r.channel
      (elementsOf (republishTopic r.channel r.subtopic r.contentType))
    exact ⟨_, aedesPublishes_eq_some.mpr ⟨r.channel, hparse, hok, rfl, rfl⟩, hg, hst.trans hsub,
      htype.trans hct⟩

/-- Where nothing has a slash, the republished topic is a message topic. -/
def Routing.topic (r : Routing) (hchannel : '/' ∉ r.channel) (hlevels : ∀ l ∈ r.levels, '/' ∉ l) :
    MessageTopic := ⟨r.channel, r.levels, hchannel, hlevels⟩

theorem text_any_lines (t : MessageTopic) :
    t.text.any isLineTerminator = false ↔
      t.id.any isLineTerminator = false ∧ ∀ l ∈ t.levels, l.any isLineTerminator = false := by
  have hbase : (['c', 'h', 'a', 'n', 'n', 'e', 'l', 's'] : Text).any isLineTerminator = false ∧
      messagesWord.any isLineTerminator = false ∧ isLineTerminator '/' = false := by decide
  rw [MessageTopic.text, MessageTopic.words, intercalate_cons_flatMap]
  simp only [List.any_append, List.flatMap_cons, List.any_cons, List.any_flatMap, hbase.1,
    hbase.2.1, hbase.2.2, Bool.false_or, Bool.or_eq_false_iff, List.any_eq_false]
  simp

/-- Levels with one property each: the tokens, and the pair if there is a type. -/
theorem forall_levels {P : Text → Prop} (hword : P ctWord) :
    (∀ l ∈ r.levels, P l) ↔
      (∀ tok ∈ r.tokens, P tok) ∧
        (r.contentType ≠ [] → P (encodeContentType r.contentType)) := by
  unfold Routing.levels
  by_cases hct : r.contentType = []
  · simp [hct]
  · rw [if_neg hct, List.forall_mem_append, List.forall_mem_cons, List.forall_mem_singleton]
    simp only [hword, true_and, ne_eq, hct, not_false_eq_true, forall_const]

theorem plainLevel_ctWord : PlainLevel ctWord := ⟨by decide, by decide, by decide, by decide⟩

/-- Aedes takes a republished topic for what it is when all its levels are plain. -/
theorem parse_plain_iff (hchannel : '/' ∉ r.channel) (hslash : ∀ l ∈ r.levels, '/' ∉ l)
    (hdot : ∀ l ∈ r.levels, '.' ∉ l) :
    (parseTopic (republishTopic r.channel r.subtopic r.contentType) = some r.channel ∧
        ¬ ∃ elem ∈ elementsOf (republishTopic r.channel r.subtopic r.contentType),
          InvalidElement elem) ↔
      (r.channel ≠ [] ∧ r.channel.any isLineTerminator = false) ∧ ∀ l ∈ r.levels, PlainLevel l := by
  have htext : republishTopic r.channel r.subtopic r.contentType
      = (r.topic hchannel hslash).text := republishTopic_eq r
  have hpieces : pieces r.levels = r.levels := by
    rw [pieces_eq_flatMap,
      List.flatMap_congr fun l hl => List.splitOn_eq_singleton (hdot l hl)]
    simp
  rw [htext, invalidElement_iff]
  have hparse := parseTopic_text_eq_id (r.topic hchannel hslash)
  rw [text_any_lines] at hparse
  have hlevels : (r.topic hchannel hslash).levels = r.levels := rfl
  have hid : (r.topic hchannel hslash).id = r.channel := rfl
  rw [hlevels, hid] at hparse
  rw [hparse, hlevels, hpieces]
  constructor
  · rintro ⟨⟨hne, ⟨hlines, hlevelLines⟩, hcontrol⟩, hok⟩
    exact ⟨⟨hne, hlines⟩, fun l hl =>
      ⟨hslash l hl, hlevelLines l hl, hcontrol l hl, fun hbad => hok ⟨l, hl, hbad⟩⟩⟩
  · rintro ⟨⟨hne, hlines⟩, hplain⟩
    refine ⟨⟨hne, ⟨hlines, fun l hl => (hplain l hl).lines⟩, fun l hl => (hplain l hl).control⟩, ?_⟩
    rintro ⟨l, hl, hbad⟩
    exact (hplain l hl).wildcard hbad

/-- **What Aedes gives back.** -/
theorem comesBack_aedes_iff (r : Routing) : ComesBack .aedes r ↔ Survives .aedes r := by
  rw [comesBack_aedes]
  constructor
  · rintro ⟨hparse, hok, hsub, hct⟩
    obtain ⟨hchannel, htokens, htype⟩ := segments_of_elements (elements_of_comesBack hsub hct)
    have hslash : ∀ l ∈ r.levels, '/' ∉ l := by
      refine (forall_levels (by decide)).mpr ⟨htokens, fun hne => ?_⟩
      rcases htype with ⟨hnil, -⟩ | ⟨-, hno, -, -⟩
      · exact absurd hnil hne
      · exact hno
    have hdot : ∀ l ∈ r.levels, '.' ∉ l := by
      refine (forall_levels (by decide)).mpr ⟨r.token_dot, fun hne => ?_⟩
      rcases htype with ⟨hnil, -⟩ | ⟨-, -, hno, -⟩
      · exact absurd hnil hne
      · exact hno
    obtain ⟨⟨hne, hlines⟩, hplain⟩ := (parse_plain_iff hchannel hslash hdot).mp ⟨hparse, hok⟩
    obtain ⟨hplain, hplainType⟩ := (forall_levels plainLevel_ctWord).mp hplain
    refine ⟨⟨hne, hchannel, hlines⟩, hplain, ?_⟩
    rcases htype with ⟨hnil, hpair⟩ | ⟨hne, -, hno, hdec⟩
    · exact .inl ⟨hnil, hpair⟩
    · exact .inr ⟨hne, (aedesType_iff _).mpr ⟨hplainType hne, hno, hdec⟩⟩
  · rintro ⟨⟨hne, hchannel, hlines⟩, hplain, htype⟩
    have hencode : r.contentType ≠ [] → AedesType r.contentType := by
      intro hct
      rcases htype with ⟨hnil, -⟩ | ⟨-, h⟩
      · exact absurd hnil hct
      · exact h
    have hlevels : ∀ l ∈ r.levels, PlainLevel l :=
      (forall_levels plainLevel_ctWord).mpr
        ⟨hplain, fun hct => ((aedesType_iff _).mp (hencode hct)).1⟩
    have hslash : ∀ l ∈ r.levels, '/' ∉ l := fun l hl => (hlevels l hl).slash
    have hdot : ∀ l ∈ r.levels, '.' ∉ l :=
      (forall_levels (by decide)).mpr
        ⟨r.token_dot, fun hct => ((aedesType_iff _).mp (hencode hct)).2.1⟩
    obtain ⟨hparse, hok⟩ := (parse_plain_iff hchannel hslash hdot).mpr ⟨⟨hne, hlines⟩, hlevels⟩
    have hnonempty : ∀ l ∈ r.levels, l ≠ [] ∧ '.' ∉ l := by
      refine fun l hl => ⟨?_, hdot l hl⟩
      refine (forall_levels (P := (· ≠ [])) (by decide)).mpr ⟨r.token_ne, fun hct => ?_⟩ l hl
      rw [← List.length_pos_iff, length_encodeContentType]
      exact List.length_pos_iff.mpr hct
    have helements : elementsOf (republishTopic r.channel r.subtopic r.contentType) = r.levels := by
      have htext : republishTopic r.channel r.subtopic r.contentType
          = (r.topic hchannel hslash).text := republishTopic_eq r
      rw [htext, elementsOf_text]
      exact elements_self hnonempty
    refine ⟨hparse, hok, ?_⟩
    rw [helements]
    rcases htype with ⟨hnil, hpair⟩ | ⟨hct, h⟩
    · have htokens : r.levels = r.tokens := by rw [Routing.levels, if_pos hnil, List.append_nil]
      have hno : ¬ HasContentType r.tokens := hpair
      rw [htokens, splitContentType, if_neg hno]
      exact ⟨rfl, hnil.symm⟩
    · obtain ⟨-, hst, htype⟩ := publication_fields r.channel
        (r.tokens ++ [ctWord, encodeContentType r.contentType])
      rw [Routing.levels, if_neg hct, ← hst, ← htype, publication_ct]
      exact ⟨rfl, ((aedesType_iff _).mp h).2.2⟩

end Aedes

/-- `CTBinary` of the SDK. -/
def ctBinary : Text := "application/octet-stream".toList

def binaryMessage : Routing := ⟨['1'], [], ctBinary, by decide, by decide⟩

end Mainflux.Messaging
