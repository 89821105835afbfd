/-
  Mainflux.Messaging.Verne
  ────────────────────────
  **TWO MQTT ADAPTERS, ONE TOPIC: Aedes against the VerneMQ plugin.**

  The plugin gets the topic as a list of words and takes it apart by position;
  Aedes uses regular expressions and string methods (`Messaging.Aedes`).  They
  differ in what they reject, in empty levels and levels with dots, in the
  `ct/<type>` suffix and in how often `_` and `-` are replaced in it.

    • `MessageTopic` — the topics `channels/<id>/messages/l1/…/ln`;
    • `agree_iff` — exactly on which of them both adapters reject, or publish the
      same channel, subtopic, content type and subject;
    • `ct_only_disagree` — a topic whose only levels are a `ct` pair.

  §8 is about the plugin alone: `auth_on_subscribe` answers once for a list of
  filters and looks at the first.

    • `covered_iff` — exactly when an `ok` covers the whole list;
    • `second_filter_unchecked` — a list it does not cover.
-/
import Mathlib.Data.List.Count
import Mathlib.Data.List.Induction
import Mainflux.Messaging.Aedes

namespace Mainflux.Messaging

open Mainflux.Lib

open Mainflux.Lib.Text

/-! ## §1. The plugin. -/

/-- The UTF-8 bytes of a character. -/
def utf8Char (c : Char) : Text :=
  let n := c.toNat
  if n < 128 then [c]
  else if n < 2048 then [Char.ofNat (192 + n / 64), Char.ofNat (128 + n % 64)]
  else if n < 65536 then
    [Char.ofNat (224 + n / 4096), Char.ofNat (128 + n / 64 % 64), Char.ofNat (128 + n % 64)]
  else
    [Char.ofNat (240 + n / 262144), Char.ofNat (128 + n / 4096 % 64),
      Char.ofNat (128 + n / 64 % 64), Char.ofNat (128 + n % 64)]

/-- `binary_to_list`: a binary as the list of its bytes. -/
def utf8 (s : Text) : Text := s.flatMap utf8Char

namespace Verne

/-- The two calls of `re:replace`, with `global` and `{return, list}`: the bytes
become a list of characters. -/
def contentType (word : Text) : Text := replaceAll '-' '+' (replaceAll '_' '/' (utf8 word))

/-- `parseTopic`; `none` where no clause matches. -/
def parseTopic (topic : List Text) : Option Publication :=
  match topic with
  | [_, channelId, _] =>
      some
        { channel := channelId
          subtopic := []
          contentType := []
          subject := channelDot ++ channelId }
  | _ :: channelId :: _ :: _ :: _ =>
      if beforeLast topic = some ctWord then
        if topic.length < 5 then none
        else
          let subtopic := ['.'].intercalate ((topic.drop 3).take (topic.length - 3 - 2))
          some
            { channel := channelId
              subtopic := subtopic
              contentType := contentType (topic.getLast?.getD [])
              subject := channelDot ++ channelId ++ '.' :: subtopic }
      else
        let subtopic := ['.'].intercalate ((topic.drop 3).take (topic.length - 3))
        some
          { channel := channelId
            subtopic := subtopic
            contentType := []
            subject := channelDot ++ channelId ++ '.' :: subtopic }
  | _ => none

/-- `auth_on_publish`: what goes to NATS, if anything.  The channel id is sent to
the access check byte by byte. -/
def authOnPublish (access : Text → Bool) (topic : List Text) : Option Publication :=
  match parseTopic topic with
  | none => none
  | some p => if access (utf8 p.channel) then some p else none

end Verne

/-! ## §2. Message topics. -/

/-- A topic `channels/<id>/messages/l1/…/ln`. -/
structure MessageTopic where
  id : Text
  levels : List Text
  id_segment : '/' ∉ id
  level_segment : ∀ l ∈ levels, '/' ∉ l

namespace MessageTopic

variable (t : MessageTopic)

def words : List Text := ['c', 'h', 'a', 'n', 'n', 'e', 'l', 's'] :: t.id :: messagesWord :: t.levels

def text : Text := ['/'].intercalate t.words

theorem splitOn_text : t.text.splitOn '/' = t.words := by
  refine List.splitOn_intercalate '/' ?_ (by simp [words])
  intro l hl
  simp only [words, List.mem_cons] at hl
  rcases hl with rfl | rfl | rfl | hl
  · decide
  · exact t.id_segment
  · decide
  · exact t.level_segment l hl

end MessageTopic

/-- What the Aedes adapter publishes, if anything. -/
def aedesPublishes (access : Text → Bool) (topic : Text) : Option Publication :=
  match authorizePublish access topic with
  | .accepted _ (p, _) => some p
  | _ => none

/-- Both adapters reject the topic, or publish the same. -/
def Agree (access : Text → Bool) (t : MessageTopic) : Prop :=
  aedesPublishes access t.text = Verne.authOnPublish access t.words

/-! ## §3. When they agree. -/

/-- The levels end in a `ct` pair. -/
def HasCTLevels (levels : List Text) : Prop := beforeLast levels = some ctWord

instance (levels : List Text) : Decidable (HasCTLevels levels) :=
  inferInstanceAs (Decidable (_ = _))

/-- The levels cut at their dots. -/
def pieces (levels : List Text) : List Text :=
  if levels = [] then [] else (['.'].intercalate levels).splitOn '.'

/-- The content types are the same: there is none, or there is a pair behind
other levels, its type has no dot, is ASCII, and has at most one `_` and at most
one `-`. -/
def SameContentType (levels : List Text) : Prop :=
  (¬ HasCTLevels levels ∧ ¬ HasContentType (pieces levels)) ∨
    ∃ sub last, levels = sub ++ [ctWord, last] ∧ sub ≠ [] ∧ '.' ∉ last ∧
      (∀ c ∈ last, c.toNat < 128) ∧ last.count '_' ≤ 1 ∧ last.count '-' ≤ 1

/-- The topic is one that Aedes takes for what it is: an id, no line terminator,
no level that starts with `control`, no wildcard inside a longer element. -/
structure PlainMessage (t : MessageTopic) : Prop where
  id : t.id ≠ []
  lines : t.text.any isLineTerminator = false
  control : ∀ l ∈ t.levels, controlWord.isPrefixOf l = false
  elements : ¬ ∃ elem ∈ pieces t.levels, InvalidElement elem

/-- The plugin has access: Aedes has to publish the same. -/
structure SameMessage (access : Text → Bool) (t : MessageTopic) : Prop where
  granted : access t.id = true
  plain : PlainMessage t
  dots : ∀ p ∈ pieces t.levels, p ≠ []
  contentType : SameContentType t.levels

/-- The plugin has no access: Aedes has to reject. -/
def AedesRejects (access : Text → Bool) (t : MessageTopic) : Prop :=
  ∀ g, Captures t.text g → (∃ elem ∈ pieces t.levels, InvalidElement elem) ∨ access g = false

/-! ## §4. What each adapter publishes. -/

theorem beforeLast_cons (x y z : Text) (ls : List Text) :
    beforeLast (x :: y :: z :: ls) = beforeLast (y :: z :: ls) := by
  unfold beforeLast
  rw [List.dropLast_cons_of_ne_nil (List.cons_ne_nil _ _),
    List.dropLast_cons_of_ne_nil (List.cons_ne_nil _ _), List.getLast?_cons_cons]

/-- What the plugin makes of a message topic, by its levels. -/
theorem parseTopic_levels (id : Text) (levels : List Text) :
    Verne.parseTopic (['c', 'h', 'a', 'n', 'n', 'e', 'l', 's'] :: id :: messagesWord :: levels)
      = some
          (if levels = [] then ⟨id, [], [], channelDot ++ id⟩
          else if HasCTLevels levels then
            ⟨id, ['.'].intercalate levels.dropLast.dropLast,
              Verne.contentType (levels.getLast?.getD []),
              channelDot ++ id ++ '.' :: ['.'].intercalate levels.dropLast.dropLast⟩
          else
            ⟨id, ['.'].intercalate levels, [], channelDot ++ id ++ '.' :: ['.'].intercalate levels⟩) := by
  cases levels with
  | nil => rfl
  | cons l ls =>
      show Verne.parseTopic (_ :: id :: messagesWord :: l :: ls) = _
      -- with one level the word before the last is `messages`, not `ct`
      have hct : beforeLast (['c', 'h', 'a', 'n', 'n', 'e', 'l', 's'] :: id :: messagesWord :: l :: ls)
          = some ctWord ↔ HasCTLevels (l :: ls) := by
        rw [beforeLast_cons, beforeLast_cons, HasCTLevels]
        cases ls with
        | nil =>
            show some messagesWord = some ctWord ↔ none = some ctWord
            decide
        | cons l' ls => rw [beforeLast_cons]
      rw [Verne.parseTopic, if_neg (List.cons_ne_nil _ _)]
      by_cases h : HasCTLevels (l :: ls)
      · have hlen : ¬ (['c', 'h', 'a', 'n', 'n', 'e', 'l', 's'] :: id :: messagesWord :: l ::
            ls).length < 5 := by
          cases ls with
          | nil => exact absurd h (by simp [HasCTLevels, beforeLast])
          | cons l' ls => simp
        have hsub : (l :: ls).take ((l :: ls).length - 2) = (l :: ls).dropLast.dropLast := by
          rw [List.dropLast_eq_take, List.dropLast_eq_take, List.take_take, List.length_take]
          congr 1
          omega
        rw [if_pos (hct.mpr h), if_neg hlen, if_pos h, ← hsub]
        rfl
      · rw [if_neg (fun h' => h (hct.mp h')), if_neg h]
        have hall : ((['c', 'h', 'a', 'n', 'n', 'e', 'l', 's'] :: id :: messagesWord :: l ::
            ls).drop 3).take ((['c', 'h', 'a', 'n', 'n', 'e', 'l', 's'] :: id :: messagesWord :: l ::
              ls).length - 3) = l :: ls := List.take_length
        simp only [hall]

/-- The elements of a topic: its segments from the fourth on, cut at their dots. -/
theorem elementsOf_eq (topic : Text) :
    elementsOf topic = (pieces ((topic.splitOn '/').drop 3)).filter (· ≠ []) := by
  unfold elementsOf pieces
  split
  next h =>
      rw [h]
      rfl
  next => rfl

section Publications

variable (t : MessageTopic)

theorem elementsOf_text : elementsOf t.text = (pieces t.levels).filter (· ≠ []) := by
  rw [elementsOf_eq, t.splitOn_text]
  rfl

/-- What the plugin publishes. -/
def vernePublication : Publication :=
  if t.levels = [] then ⟨t.id, [], [], channelDot ++ t.id⟩
  else if HasCTLevels t.levels then
    ⟨t.id, ['.'].intercalate t.levels.dropLast.dropLast,
      Verne.contentType (t.levels.getLast?.getD []),
      channelDot ++ t.id ++ '.' :: ['.'].intercalate t.levels.dropLast.dropLast⟩
  else
    ⟨t.id, ['.'].intercalate t.levels, [], channelDot ++ t.id ++ '.' :: ['.'].intercalate t.levels⟩

theorem channel_vernePublication : (vernePublication t).channel = t.id := by
  unfold vernePublication
  split
  · rfl
  · split <;> rfl

theorem verne_parseTopic : Verne.parseTopic t.words = some (vernePublication t) :=
  parseTopic_levels t.id t.levels

/-- The plugin publishes, or has no access to the id. -/
theorem authOnPublish_words (access : Text → Bool) :
    Verne.authOnPublish access t.words
      = if access (utf8 t.id) then some (vernePublication t) else none := by
  rw [Verne.authOnPublish, verne_parseTopic]
  simp only [channel_vernePublication]

/-- Aedes publishes under what it captures. -/
theorem aedesPublishes_eq_some {access : Text → Bool} {topic : Text} {p : Publication} :
    aedesPublishes access topic = some p ↔
      ∃ g, parseTopic topic = some g ∧ (¬ ∃ elem ∈ elementsOf topic, InvalidElement elem) ∧
        access g = true ∧ p = publication g (elementsOf topic) := by
  constructor
  · intro h
    unfold aedesPublishes at h
    split at h
    next checked q third hacc =>
        cases h
        obtain ⟨hparse, hok, haccess, hq⟩ := authorizePublish_accepted.mp hacc
        exact ⟨checked, hparse, hok, haccess, congrArg Prod.fst hq⟩
    next => cases h
  · rintro ⟨g, hparse, hok, haccess, rfl⟩
    rw [aedesPublishes, authorizePublish_accepted.mpr ⟨hparse, hok, haccess, rfl⟩]

/-- An element is invalid or not whether or not the empty ones are dropped. -/
theorem invalidElement_iff :
    (∃ elem ∈ elementsOf t.text, InvalidElement elem) ↔
      ∃ elem ∈ pieces t.levels, InvalidElement elem := by
  rw [elementsOf_text]
  constructor
  · rintro ⟨elem, hin, hbad⟩
    exact ⟨elem, (List.mem_filter.mp hin).1, hbad⟩
  · rintro ⟨elem, hin, hbad⟩
    have hne : elem ≠ [] := by
      rintro rfl
      exact absurd hbad.1 (by decide)
    exact ⟨elem, List.mem_filter.mpr ⟨hin, by simpa using hne⟩, hbad⟩

/-- Aedes captures the id of the topic exactly when nothing gets in its way. -/
theorem parseTopic_text_eq_id :
    parseTopic t.text = some t.id ↔
      t.id ≠ [] ∧ t.text.any isLineTerminator = false ∧
        ∀ l ∈ t.levels, controlWord.isPrefixOf l = false := by
  have hsplit : t.text.splitOn '/'
      = ['c', 'h', 'a', 'n', 'n', 'e', 'l', 's'] :: t.id :: messagesWord :: t.levels :=
    t.splitOn_text
  constructor
  · intro h
    obtain ⟨id, word, rest, hsplit', hid, hword⟩ :=
      plain_of_parseTopic h ⟨messagesWord, t.levels, hsplit, .inl rfl⟩
    rw [hsplit] at hsplit'
    cases hsplit'
    refine ⟨hid, (parseTopic_eq_some.mp h).1, ?_⟩
    rcases hword with hword | ⟨-, hrest⟩
    · exact absurd hword (by decide)
    · exact hrest
  · rintro ⟨hid, hlines, hcontrol⟩
    rw [parseTopic_plain hsplit hid (.inr ⟨rfl, hcontrol⟩), hlines]
    rfl

end Publications

/-! ## §5. Content types. -/

theorem length_utf8Char (c : Char) :
    1 ≤ (utf8Char c).length ∧ ((utf8Char c).length ≤ 1 → c.toNat < 128) := by
  unfold utf8Char
  simp only
  split
  next h => exact ⟨Nat.le_refl 1, fun _ => h⟩
  next =>
      split
      next => simp
      next =>
          split
          next => simp
          next => simp

theorem utf8_ascii {s : Text} (h : ∀ c ∈ s, c.toNat < 128) : utf8 s = s := by
  induction s with
  | nil => rfl
  | cons c s ih =>
      have hc : utf8Char c = [c] := if_pos (h c List.mem_cons_self)
      rw [utf8, List.flatMap_cons, hc, ← utf8, ih fun x hx => h x (List.mem_cons_of_mem _ hx)]
      rfl

/-- The bytes are at least as many as the characters, and as many only in
ASCII. -/
theorem length_utf8 (s : Text) :
    s.length ≤ (utf8 s).length ∧ ((utf8 s).length ≤ s.length → ∀ c ∈ s, c.toNat < 128) := by
  induction s with
  | nil => exact ⟨Nat.le_refl 0, fun _ c hc => absurd hc List.not_mem_nil⟩
  | cons c s ih =>
      obtain ⟨hone, hascii⟩ := length_utf8Char c
      have hlen : (utf8 (c :: s)).length = (utf8Char c).length + (utf8 s).length := by
        rw [utf8, List.flatMap_cons, List.length_append]
        rfl
      rw [hlen, List.length_cons]
      refine ⟨by omega, fun hle x hx => ?_⟩
      rcases List.mem_cons.mp hx with rfl | hx
      · exact hascii (by omega)
      · exact ih.2 (by omega) x hx

theorem length_replaceFirst (a b : Char) (s : Text) : (replaceFirst a b s).length = s.length := by
  induction s with
  | nil => rfl
  | cons c s ih =>
      rw [replaceFirst]
      split
      · rfl
      · rw [List.length_cons, List.length_cons, ih]

theorem count_replaceFirst_self {a b : Char} (h : b ≠ a) (s : Text) :
    (replaceFirst a b s).count a = s.count a - 1 := by
  induction s with
  | nil => rfl
  | cons c s ih =>
      rw [replaceFirst]
      by_cases hc : c = a
      · rw [if_pos hc, List.count_cons_of_ne h, hc, List.count_cons_self]
        omega
      · rw [if_neg hc, List.count_cons_of_ne hc, List.count_cons_of_ne hc, ih]

theorem count_replaceFirst_ne {a b x : Char} (ha : a ≠ x) (hb : b ≠ x) (s : Text) :
    (replaceFirst a b s).count x = s.count x := by
  induction s with
  | nil => rfl
  | cons c s ih =>
      rw [replaceFirst]
      split
      next hc => rw [List.count_cons_of_ne hb, hc, List.count_cons_of_ne ha]
      next => rw [List.count_cons, List.count_cons, ih]

theorem not_mem_replaceAll_ne {a b x : Char} (hb : b ≠ x) {s : Text} (h : x ∉ s) :
    x ∉ replaceAll a b s := by
  intro hin
  obtain ⟨c, hcs, hc⟩ := List.mem_map.mp hin
  split at hc
  · exact hb hc
  · exact h (hc ▸ hcs)

/-- The first one is all of them where there is at most one. -/
theorem replaceFirst_eq_replaceAll {a b : Char} {s : Text} (h : s.count a ≤ 1) :
    replaceFirst a b s = replaceAll a b s := by
  induction s with
  | nil => rfl
  | cons c s ih =>
      rw [replaceFirst, replaceAll, List.map_cons]
      by_cases hc : c = a
      · rw [if_pos hc, if_pos hc]
        subst hc
        rw [List.count_cons_self] at h
        have hnot : c ∉ s := List.count_eq_zero.mp (by omega)
        exact congrArg (b :: ·) (replaceAll_of_not_mem hnot).symm
      · rw [if_neg hc, if_neg hc]
        rw [List.count_cons_of_ne hc] at h
        rw [ih h]
        rfl

/-- Both adapters read the same content type out of a word. -/
theorem contentType_eq_iff (s : Text) :
    replaceFirst '-' '+' (replaceFirst '_' '/' s) = Verne.contentType s ↔
      (∀ c ∈ s, c.toNat < 128) ∧ s.count '_' ≤ 1 ∧ s.count '-' ≤ 1 := by
  constructor
  · intro h
    have hlen := congrArg List.length h
    rw [length_replaceFirst, length_replaceFirst, Verne.contentType, length_replaceAll,
      length_replaceAll] at hlen
    have hascii := (length_utf8 s).2 (by omega)
    -- the plugin leaves no `_` and no `-`, Aedes all but one of each
    have hunder := congrArg (List.count '_') h
    have hminus := congrArg (List.count '-') h
    have hnone : '_' ∉ Verne.contentType s :=
      not_mem_replaceAll_ne (by decide) (not_mem_replaceAll (by decide) _)
    have hnone' : '-' ∉ Verne.contentType s := not_mem_replaceAll (by decide) _
    rw [count_replaceFirst_ne (by decide) (by decide), count_replaceFirst_self (by decide),
      List.count_eq_zero.mpr hnone] at hunder
    rw [count_replaceFirst_self (by decide), count_replaceFirst_ne (by decide) (by decide),
      List.count_eq_zero.mpr hnone'] at hminus
    exact ⟨hascii, by omega, by omega⟩
  · rintro ⟨hascii, hunder, hminus⟩
    have hminus' : (replaceFirst '_' '/' s).count '-' ≤ 1 := by
      rw [count_replaceFirst_ne (by decide) (by decide)]
      exact hminus
    rw [Verne.contentType, utf8_ascii hascii, replaceFirst_eq_replaceAll hminus',
      replaceFirst_eq_replaceAll hunder]

/-! ## §6. Subtopics. -/

theorem beforeLast_eq_ct {ls : List Text} :
    beforeLast ls = some ctWord ↔ ∃ sub last, ls = sub ++ [ctWord, last] := by
  constructor
  · intro h
    obtain ⟨sub, hsub⟩ := List.getLast?_eq_some_iff.mp h
    cases ls using List.reverseRecOn with
    | nil => simp at hsub
    | append_singleton ls last =>
        rw [List.dropLast_concat] at hsub
        exact ⟨sub, last, by rw [hsub, List.append_assoc]; rfl⟩
  · rintro ⟨sub, last, rfl⟩
    have hsplit : sub ++ [ctWord, last] = (sub ++ [ctWord]) ++ [last] := by simp
    rw [hsplit, beforeLast, List.dropLast_concat, List.getLast?_concat]

theorem publication_ct (id : Text) (st : List Text) (x : Text) :
    publication id (st ++ [ctWord, x])
      = ⟨id, ['.'].intercalate st, replaceFirst '-' '+' (replaceFirst '_' '/' x),
          if st = [] then channelDot ++ id else channelDot ++ id ++ '.' :: ['.'].intercalate st⟩ := by
  have hct : HasContentType (st ++ [ctWord, x]) := beforeLast_eq_ct.mpr ⟨st, x, rfl⟩
  have hsplit : st ++ [ctWord, x] = (st ++ [ctWord]) ++ [x] := by simp
  have hlast : (st ++ [ctWord, x]).getLast? = some x := by rw [hsplit, List.getLast?_concat]
  have hdrop : (st ++ [ctWord, x]).dropLast.dropLast = st := by
    rw [hsplit, List.dropLast_concat, List.dropLast_concat]
  simp only [publication, splitContentType, if_pos hct, hlast, hdrop, Option.getD_some]

theorem publication_noct (id : Text) {elements : List Text} (h : ¬ HasContentType elements) :
    publication id elements
      = ⟨id, ['.'].intercalate elements, [],
          if elements = [] then channelDot ++ id
          else channelDot ++ id ++ '.' :: ['.'].intercalate elements⟩ := by
  simp only [publication, splitContentType, if_neg h]

/-- Cutting the joined levels is cutting each level. -/
theorem pieces_eq_flatMap (levels : List Text) :
    pieces levels = levels.flatMap fun l => l.splitOn '.' := by
  unfold pieces
  split
  next h =>
      rw [h]
      rfl
  next h => exact splitOn_intercalate_flatMap '.' h

/-- The pieces of levels that end in a pair. -/
theorem pieces_append (sub : List Text) (last : Text) :
    pieces (sub ++ [ctWord, last]) = pieces sub ++ ctWord :: last.splitOn '.' := by
  have hct : ctWord.splitOn '.' = [ctWord] := List.splitOn_eq_singleton (by decide)
  simp [pieces_eq_flatMap, hct]

/-- Elements that are not empty and hold no dot can be told from their join. -/
theorem splitOn_join {st : List Text} (hst : ∀ e ∈ st, e ≠ [] ∧ '.' ∉ e) (hne : st ≠ []) :
    (['.'].intercalate st).splitOn '.' = st :=
  List.splitOn_intercalate '.' (fun e he => (hst e he).2) hne

/-- The elements of a topic are its pieces where no piece is empty. -/
theorem filter_pieces {levels : List Text} (h : ∀ p ∈ pieces levels, p ≠ []) :
    (pieces levels).filter (· ≠ []) = pieces levels :=
  List.filter_eq_self.mpr fun p hp => by simpa using h p hp

theorem mem_filter_pieces {levels : List Text} {e : Text}
    (h : e ∈ (pieces levels).filter (· ≠ [])) : e ≠ [] ∧ '.' ∉ e := by
  rw [List.mem_filter, decide_eq_true_eq] at h
  refine ⟨h.2, ?_⟩
  have hin := h.1
  unfold pieces at hin
  split at hin
  · cases hin
  · exact not_mem_of_mem_splitOn hin

/-- The pieces are joined to what the levels are joined to. -/
theorem join_pieces {levels : List Text} (hne : levels ≠ []) :
    ['.'].intercalate (pieces levels) = ['.'].intercalate levels ∧ pieces levels ≠ [] := by
  have hpieces : pieces levels = (['.'].intercalate levels).splitOn '.' := if_neg hne
  rw [hpieces]
  exact ⟨List.intercalate_splitOn '.', List.splitOn_ne_nil _ _⟩

/-! ## §7. The same message. -/

section SameMessage

variable {id : Text} {levels : List Text}

/-- A subject with a subtopic is longer than one without. -/
theorem subject_ne (x : Text) : channelDot ++ id ≠ channelDot ++ id ++ '.' :: x := by
  intro h
  have hlen := congrArg List.length h
  simp at hlen

/-- Levels without a `ct` pair: the plugin joins them all. -/
theorem same_noct_iff (hne : levels ≠ []) :
    publication id ((pieces levels).filter (· ≠ []))
        = ⟨id, ['.'].intercalate levels, [], channelDot ++ id ++ '.' :: ['.'].intercalate levels⟩ ↔
      (∀ p ∈ pieces levels, p ≠ []) ∧ ¬ HasContentType (pieces levels) := by
  constructor
  · intro h
    by_cases helem : HasContentType ((pieces levels).filter (· ≠ []))
    · -- Aedes reads a content type, which is not empty
      obtain ⟨st, x, hst⟩ := beforeLast_eq_ct.mp helem
      have hin : x ∈ (pieces levels).filter (· ≠ []) := by
        rw [hst]
        simp
      have hx := (mem_filter_pieces hin).1
      rw [hst, publication_ct] at h
      have hlen := congrArg (fun p => p.contentType.length) h
      simp only [length_replaceFirst, List.length_nil] at hlen
      exact absurd (List.length_eq_zero_iff.mp hlen) hx
    · rw [publication_noct id helem, Publication.mk.injEq] at h
      obtain ⟨-, hsub, -, hsubject⟩ := h
      split at hsubject
      next => exact absurd hsubject (subject_ne _)
      next hfne =>
          have hall : (pieces levels).filter (· ≠ []) = pieces levels :=
            (splitOn_join (fun e he => mem_filter_pieces he) hfne).symm.trans
              (by rw [hsub, pieces, if_neg hne])
          rw [hall] at helem
          exact ⟨fun p hp => by simpa using List.filter_eq_self.mp hall p hp, helem⟩
  · rintro ⟨hdots, hno⟩
    obtain ⟨hjoin, hpne⟩ := join_pieces hne
    rw [filter_pieces hdots, publication_noct id hno, hjoin, if_neg hpne]

/-- Elements whose join is that of `sub` are the pieces of `sub`. -/
theorem pieces_of_join {sub st : List Text} (hst : ∀ e ∈ st, e ≠ [] ∧ '.' ∉ e) (hne : st ≠ [])
    (h : ['.'].intercalate st = ['.'].intercalate sub) : sub ≠ [] ∧ pieces sub = st := by
  have hsplit := splitOn_join hst hne
  rw [h] at hsplit
  have hsub : sub ≠ [] := by
    rintro rfl
    have hnil : [] ∈ st := by
      rw [← hsplit]
      exact List.mem_singleton_self _
    exact (hst [] hnil).1 rfl
  exact ⟨hsub, (if_neg hsub).trans hsplit⟩

/-- A single piece that is as long as the text is the text. -/
theorem eq_of_filter_splitOn {last x : Text} (h : (last.splitOn '.').filter (· ≠ []) = [x])
    (hlen : last.length ≤ x.length) : '.' ∉ last ∧ last = x := by
  have hin : x ∈ last.splitOn '.' := by
    have hmem : x ∈ (last.splitOn '.').filter (· ≠ []) := by rw [h]; exact List.mem_singleton_self _
    exact (List.mem_filter.mp hmem).1
  have hshort := length_of_mem_splitOn hin
  have hdot : '.' ∉ last := by
    intro hd
    rw [if_pos hd] at hshort
    omega
  rw [List.splitOn_eq_singleton hdot, List.mem_singleton] at hin
  exact ⟨hdot, hin.symm⟩

/-- Levels that end in a `ct` pair: the plugin takes the pair off. -/
theorem same_ct_iff (sub : List Text) (last : Text) :
    publication id ((pieces (sub ++ [ctWord, last])).filter (· ≠ []))
        = ⟨id, ['.'].intercalate sub, Verne.contentType last,
            channelDot ++ id ++ '.' :: ['.'].intercalate sub⟩ ↔
      (∀ p ∈ pieces (sub ++ [ctWord, last]), p ≠ []) ∧ sub ≠ [] ∧ '.' ∉ last ∧
        (∀ c ∈ last, c.toNat < 128) ∧ last.count '_' ≤ 1 ∧ last.count '-' ≤ 1 := by
  have hshape : (pieces (sub ++ [ctWord, last])).filter (· ≠ [])
      = (pieces sub).filter (· ≠ []) ++ ctWord :: (last.splitOn '.').filter (· ≠ []) := by
    rw [pieces_append, List.filter_append, List.filter_cons_of_pos (by decide)]
  have helems : ∀ e ∈ (pieces (sub ++ [ctWord, last])).filter (· ≠ []), e ≠ [] ∧ '.' ∉ e :=
    fun e he => mem_filter_pieces he
  constructor
  · intro h
    by_cases helem : HasContentType ((pieces (sub ++ [ctWord, last])).filter (· ≠ []))
    · obtain ⟨st, x, hst⟩ := beforeLast_eq_ct.mp helem
      rw [hst] at helems
      rw [hst, publication_ct, Publication.mk.injEq] at h
      obtain ⟨-, hsub, htype, hsubject⟩ := h
      split at hsubject
      next => exact absurd hsubject (subject_ne _)
      next hne =>
          have hstelems : ∀ e ∈ st, e ≠ [] ∧ '.' ∉ e := fun e he =>
            helems e (List.mem_append_left _ he)
          obtain ⟨hsubne, hpieces⟩ := pieces_of_join hstelems hne hsub
          have hdots : ∀ p ∈ pieces sub, p ≠ [] := by
            rw [hpieces]
            exact fun p hp => (hstelems p hp).1
          -- the last level has the one element `x`
          have hone : (last.splitOn '.').filter (· ≠ []) = [x] := by
            rw [hshape, filter_pieces hdots, hpieces, List.append_cancel_left_eq,
              List.cons.injEq] at hst
            exact hst.2
          have hlen := congrArg List.length htype
          rw [length_replaceFirst, length_replaceFirst, Verne.contentType, length_replaceAll,
            length_replaceAll] at hlen
          obtain ⟨hdot, rfl⟩ := eq_of_filter_splitOn hone (hlen ▸ (length_utf8 last).1)
          refine ⟨?_, hsubne, hdot, (contentType_eq_iff last).mp htype⟩
          rw [pieces_append, List.splitOn_eq_singleton hdot]
          intro p hp
          rcases List.mem_append.mp hp with hp | hp
          · exact hdots p hp
          · exact (helems p (List.mem_append_right _ hp)).1
    · rw [publication_noct id helem, Publication.mk.injEq] at h
      obtain ⟨-, hsub, -, hsubject⟩ := h
      split at hsubject
      next => exact absurd hsubject (subject_ne _)
      next hne =>
          -- the elements of `sub` alone would be all elements, the pair included
          obtain ⟨-, hpieces⟩ := pieces_of_join helems hne hsub
          have hall : (pieces sub).filter (· ≠ []) = pieces sub :=
            filter_pieces (by rw [hpieces]; exact fun p hp => (helems p hp).1)
          rw [hall, ← hpieces] at hshape
          have hlen := congrArg List.length hshape
          simp at hlen
  · rintro ⟨hdots, hsubne, hdot, hlast⟩
    have hpieces : pieces (sub ++ [ctWord, last]) = pieces sub ++ [ctWord, last] := by
      rw [pieces_append, List.splitOn_eq_singleton hdot]
    obtain ⟨hjoin, hpne⟩ := join_pieces hsubne
    rw [filter_pieces hdots, hpieces, publication_ct, hjoin, if_neg hpne,
      (contentType_eq_iff last).mpr hlast]

/-- **When the messages are the same.** -/
theorem same_iff (t : MessageTopic) :
    publication t.id (elementsOf t.text) = vernePublication t ↔
      (∀ p ∈ pieces t.levels, p ≠ []) ∧ SameContentType t.levels := by
  rw [elementsOf_text, vernePublication]
  by_cases hne : t.levels = []
  · rw [if_pos hne, hne]
    have hnone : ¬ HasCTLevels [] ∧ ¬ HasContentType (pieces []) := by decide
    exact ⟨fun _ => ⟨fun p hp => absurd hp List.not_mem_nil, .inl hnone⟩, fun _ => rfl⟩
  · rw [if_neg hne]
    by_cases hct : HasCTLevels t.levels
    · obtain ⟨sub, last, hlevels⟩ := beforeLast_eq_ct.mp hct
      have hsplit : sub ++ [ctWord, last] = (sub ++ [ctWord]) ++ [last] := by simp
      have hlast : t.levels.getLast?.getD [] = last := by
        rw [hlevels, hsplit, List.getLast?_concat]
        rfl
      have hdrop : t.levels.dropLast.dropLast = sub := by
        rw [hlevels, hsplit, List.dropLast_concat, List.dropLast_concat]
      rw [if_pos hct, hlast, hdrop, hlevels, same_ct_iff]
      refine and_congr_right fun _ => ⟨?_, ?_⟩
      · rintro ⟨hsub, hdot, hrest⟩
        exact .inr ⟨sub, last, rfl, hsub, hdot, hrest⟩
      · rintro (⟨hno, -⟩ | ⟨sub', last', heq, hsub, hdot, hrest⟩)
        · exact absurd (hlevels ▸ hct) hno
        · obtain ⟨rfl, hpair⟩ := List.append_inj' heq rfl
          cases hpair
          exact ⟨hsub, hdot, hrest⟩
    · rw [if_neg hct, same_noct_iff hne]
      refine and_congr_right fun _ => ⟨fun h => .inl ⟨hct, h⟩, ?_⟩
      rintro (⟨-, hno⟩ | ⟨sub, last, heq, -⟩)
      · exact hno
      · exact absurd (beforeLast_eq_ct.mpr ⟨sub, last, heq⟩) hct

end SameMessage

/-- The channel that Aedes publishes under is the one it captured. -/
theorem channel_publication (g : Text) (elements : List Text) :
    (publication g elements).channel = g := rfl

/-- `channels/1/messages/ct/application_senml-json`. -/
def ctOnly : MessageTopic where
  id := ['1']
  levels := [ctWord, "application_senml-json".toList]
  id_segment := by decide
  level_segment := by decide

namespace Verne

/-- What a hook returns; `crash` where no clause matches. -/
inductive Verdict
  | ok
  | error
  | crash
  deriving DecidableEq

/-- `access`: the thing and the channel go to Things byte by byte. -/
def access (things : Text → Text → Bool) (userName channelId : Text) : Verdict :=
  if things (utf8 userName) (utf8 channelId) then .ok else .error

/-- `auth_on_subscribe`, for the filters of one packet with their QoS. -/
def authOnSubscribe (things : Text → Text → Bool) (userName : Text) :
    List (List Text × Nat) → Verdict
  | [] => .crash
  | (topic, _) :: _ =>
      match parseTopic topic with
      | none => .crash
      | some p => access things userName p.channel

/-- **An `ok` means that the client's thing can access the channel of every
filter.** -/
def Covered (things : Text → Text → Bool) (userName : Text) (topics : List (List Text × Nat)) :
    Prop :=
  authOnSubscribe things userName topics = .ok →
    ∀ f ∈ topics, ∃ p, parseTopic f.1 = some p ∧ access things userName p.channel = .ok

/-- A filter names the second of its words: there are three of them or more, and
of four the third is not `ct`. -/
def Names (topic : List Text) (id : Text) : Prop :=
  ∃ first third rest, topic = first :: id :: third :: rest ∧ ¬ (rest.length = 1 ∧ third = ctWord)

end Verne

section Subscribe

open Verne

theorem parseTopic_channel {topic : List Text} {id : Text} :
    (∃ p, Verne.parseTopic topic = some p ∧ p.channel = id) ↔ Names topic id := by
  constructor
  · rintro ⟨p, hp, rfl⟩
    unfold Verne.parseTopic at hp
    split at hp
    next first channelId third =>
        cases hp
        exact ⟨first, third, [], rfl, by simp⟩
    next _ first channelId third fourth rest =>
        have hlen : ¬ (third = ctWord ∧ rest = []) ∧ p.channel = channelId := by
          split at hp
          next =>
              split at hp
              next => cases hp
              next hlong =>
                  cases hp
                  exact ⟨fun h => hlong (by simp [h.2]), rfl⟩
          next hno =>
              cases hp
              exact ⟨fun h => hno (by rw [h.1, h.2]; rfl), rfl⟩
        refine ⟨first, third, fourth :: rest, by rw [hlen.2], fun h => hlen.1 ⟨h.2, ?_⟩⟩
        have hone := h.1
        rw [List.length_cons] at hone
        exact List.length_eq_zero_iff.mp (by omega)
    next => cases hp
  · rintro ⟨first, third, rest, rfl, hno⟩
    cases rest with
    | nil => exact ⟨_, rfl, rfl⟩
    | cons fourth rest =>
        simp only [Verne.parseTopic]
        split
        next hct =>
            cases rest with
            | nil => exact absurd ⟨rfl, Option.some.inj hct⟩ hno
            | cons fifth rest =>
                rw [if_neg (by simp)]
                exact ⟨_, rfl, rfl⟩
        next => exact ⟨_, rfl, rfl⟩

/-- **Exactly when an answer covers the list**: the first filter is not granted,
or every later one names a channel that the thing can access. -/
theorem covered_iff (things : Text → Text → Bool) (userName : Text) (first : List Text × Nat)
    (rest : List (List Text × Nat)) :
    Covered things userName (first :: rest) ↔
      (∀ id, Names first.1 id → things (utf8 userName) (utf8 id) = false) ∨
        ∀ f ∈ rest, ∃ id, Names f.1 id ∧ things (utf8 userName) (utf8 id) = true := by
  have hgrant : ∀ topic : List Text,
      (∃ p, Verne.parseTopic topic = some p ∧ access things userName p.channel = .ok) ↔
        ∃ id, Names topic id ∧ things (utf8 userName) (utf8 id) = true := by
    intro topic
    constructor
    · rintro ⟨p, hp, hok⟩
      refine ⟨p.channel, parseTopic_channel.mp ⟨p, hp, rfl⟩, ?_⟩
      unfold access at hok
      split at hok
      next h => exact h
      next => cases hok
    · rintro ⟨id, hid, hok⟩
      obtain ⟨p, hp, rfl⟩ := parseTopic_channel.mpr hid
      exact ⟨p, hp, if_pos hok⟩
  have hfirst : authOnSubscribe things userName (first :: rest) = .ok ↔
      ∃ p, Verne.parseTopic first.1 = some p ∧ access things userName p.channel = .ok := by
    obtain ⟨topic, qos⟩ := first
    simp only [authOnSubscribe]
    cases Verne.parseTopic topic with
    | none => simp
    | some p => simp
  unfold Covered
  rw [hfirst, hgrant, List.forall_mem_cons]
  simp only [hgrant]
  constructor
  · intro h
    by_cases hno : ∃ id, Names first.1 id ∧ things (utf8 userName) (utf8 id) = true
    · exact .inr (h hno).2
    · exact .inl fun id hid => Bool.eq_false_iff.mpr fun hok => hno ⟨id, hid, hok⟩
  · rintro (hno | hall) hok
    · obtain ⟨id, hid, hyes⟩ := hok
      rw [hno id hid] at hyes
      cases hyes
    · exact ⟨hok, hall⟩

end Subscribe

/-- `channels/1/messages` and `channels/2/messages` in one packet, by a client
that can access channel 1 only. -/
theorem second_filter_unchecked :
    ¬ Verne.Covered (fun _ id => id = ['1']) ['t']
      [([['c', 'h', 'a', 'n', 'n', 'e', 'l', 's'], ['1'], messagesWord], 0),
        ([['c', 'h', 'a', 'n', 'n', 'e', 'l', 's'], ['2'], messagesWord], 0)] := by
  intro h
  obtain ⟨p, hp, hok⟩ := h (by decide) _ (List.mem_cons_of_mem _ List.mem_cons_self)
  cases hp
  exact absurd hok (by decide)

end Mainflux.Messaging
