/-
  Mainflux.Messaging.Aedes
  ────────────────────────
  **THE AEDES MQTT ADAPTER: which channel does a topic name?**

  `parseTopic` tries one regular expression for control topics, then one for
  messages.  Both capture the channel id with a LAZY group that may run over
  slashes, and both let anything follow the keyword.  `authorizePublish` and
  `authorizeSubscribe` ask for access to what was captured.

    • `parseTopic_eq_some` — what the regular expressions capture;
    • `rightChannel_iff` — exactly for which topics the captured id is the second
      segment of a topic of the documented form;
    • `control_level_wrong_channel` — a subtopic level `control` shifts the id.
-/
import Mainflux.Lib.Text

namespace Mainflux.Messaging

open Mainflux.Lib

open Mainflux.Lib.Text

/-! ## §1. `parseTopic`. -/

/-- What `.` does not match in JavaScript: LF, CR, U+2028 and U+2029. -/
def isLineTerminator (c : Char) : Bool :=
  c == '\n' || c == '\r' || c.toNat == 8232 || c.toNat == 8233

/-- The shortest beginning that `word` follows. -/
def before (word : Text) : Text → Option Text
  | [] => if word = [] then some [] else none
  | c :: cs => if word.isPrefixOf (c :: cs) then some [] else (before word cs).map (c :: ·)

def channelsSlash : Text := ['c', 'h', 'a', 'n', 'n', 'e', 'l', 's', '/']

/-- `^channels\/(.+?)word\/?.*$`: the captured group, at least one character and
as few as possible. -/
def exec (word topic : Text) : Option Text :=
  match topic.dropPrefix? channelsSlash with
  | none => none
  | some [] => none
  | some (c :: cs) =>
      if (c :: cs).any isLineTerminator then none else (before word cs).map (c :: ·)

def controlWord : Text := ['c', 'o', 'n', 't', 'r', 'o', 'l']

def messagesWord : Text := ['m', 'e', 's', 's', 'a', 'g', 'e', 's']

/-- `parseTopic`: the channel id, `none` for null. -/
def parseTopic (topic : Text) : Option Text :=
  match exec ('/' :: controlWord) topic with
  | some id => some id
  | none => exec ('/' :: messagesWord) topic

/-! ## §2. Publishing and subscribing. -/

/-- A message to NATS, in the fields both MQTT adapters fill. -/
structure Publication where
  channel : Text
  subtopic : Text
  contentType : Text
  subject : Text
  deriving DecidableEq

/-- `s.replace(a, b)`: the first one only. -/
def replaceFirst (a b : Char) : Text → Text
  | [] => []
  | c :: cs => if c = a then b :: cs else c :: replaceFirst a b cs

/-- A wildcard inside a longer element. -/
def InvalidElement (elem : Text) : Prop := 1 < elem.length ∧ ('*' ∈ elem ∨ '>' ∈ elem)

instance (elem : Text) : Decidable (InvalidElement elem) := inferInstanceAs (Decidable (_ ∧ _))

/-- `parts.slice(baseLength).join('.').split('.').filter(isEmpty)`. -/
def elementsOf (topic : Text) : List Text :=
  ((['.'].intercalate ((topic.splitOn '/').drop 3)).splitOn '.').filter (· ≠ [])

def ctWord : Text := ['c', 't']

/-- The element before the last one. -/
def beforeLast (elements : List Text) : Option Text := elements.dropLast.getLast?

/-- `elements.length > 1 && elements[elements.length - 2] === 'ct'`. -/
def HasContentType (elements : List Text) : Prop := beforeLast elements = some ctWord

instance (elements : List Text) : Decidable (HasContentType elements) :=
  inferInstanceAs (Decidable (_ = _))

/-- The content type and the subtopic elements `st`. -/
def splitContentType (elements : List Text) : Text × List Text :=
  if HasContentType elements then
    (replaceFirst '-' '+' (replaceFirst '_' '/' (elements.getLast?.getD [])),
      elements.dropLast.dropLast)
  else ([], elements)

def channelDot : Text := ['c', 'h', 'a', 'n', 'n', 'e', 'l', '.']

/-- What is published when access is granted. -/
def publication (channelId : Text) (elements : List Text) : Publication :=
  let (contentType, st) := splitContentType elements
  let subtopic := ['.'].intercalate st
  { channel := channelId
    subtopic := subtopic
    contentType := contentType
    subject :=
      if st = [] then channelDot ++ channelId else channelDot ++ channelId ++ '.' :: subtopic }

/-- How a request ends; with the channel id that `CanAccessByKey` was asked for. -/
inductive Outcome (α : Type)
  | unknownTopic
  | invalidSubtopic
  | unauthorized (checked : Text)
  | accepted (checked : Text) (result : α)
  deriving DecidableEq

section Authorize

variable (access : Text → Bool)

/-- `aedes.authorizePublish`; what is published also carries the third segment
of the topic. -/
def authorizePublish (topic : Text) : Outcome (Publication × Text) :=
  match parseTopic topic with
  | none => .unknownTopic
  | some channelId =>
      if ∃ elem ∈ elementsOf topic, InvalidElement elem then .invalidSubtopic
      else if access channelId then
        .accepted channelId
          (publication channelId (elementsOf topic), ((topic.splitOn '/').drop 2).head?.getD [])
      else .unauthorized channelId

/-- `aedes.authorizeSubscribe`. -/
def authorizeSubscribe (topic : Text) : Outcome Unit :=
  match parseTopic topic with
  | none => .unknownTopic
  | some channelId => if access channelId then .accepted channelId () else .unauthorized channelId

end Authorize

/-! ## §3. The right channel. -/

/-- `channels/<id>/messages`, `channels/<id>/control`, or one of these with a
subtopic. -/
def NamesChannel (topic id : Text) : Prop :=
  ∃ word rest, topic.splitOn '/' = ['c', 'h', 'a', 'n', 'n', 'e', 'l', 's'] :: id :: word :: rest ∧
    (word = messagesWord ∨ word = controlWord)

/-- The two functions. -/
inductive Request
  | publish
  | subscribe

/-- The topics that are not unknown: something, then one of the keywords behind a
slash, and no line terminator anywhere. -/
def Matches (topic : Text) : Prop :=
  (∃ id word rest, topic = channelsSlash ++ (id ++ '/' :: (word ++ rest)) ∧ id ≠ [] ∧
    (word = controlWord ∨ word = messagesWord)) ∧ topic.any isLineTerminator = false

/-- The topics a request is refused for, whatever access it has. -/
def Refused : Request → Text → Prop
  | .publish, topic => ¬ Matches topic ∨ ∃ elem ∈ elementsOf topic, InvalidElement elem
  | .subscribe, topic => ¬ Matches topic

/-- The third segment is `control`; or it is `messages` and no later segment
starts with `control`. -/
def PlainTopic (topic : Text) : Prop :=
  ∃ id word rest,
    topic.splitOn '/' = ['c', 'h', 'a', 'n', 'n', 'e', 'l', 's'] :: id :: word :: rest ∧ id ≠ [] ∧
      (word = controlWord ∨
        word = messagesWord ∧ ∀ seg ∈ rest, controlWord.isPrefixOf seg = false)

/-- Whatever the access checks grant: an accepted topic names a channel, which
is the one that was checked and the one that is published under. -/
def RightChannel : Request → Text → Prop
  | .publish, topic => ∀ access checked pub, authorizePublish access topic = .accepted checked pub →
      NamesChannel topic checked ∧ pub.1.channel = checked
  | .subscribe, topic => ∀ access checked, authorizeSubscribe access topic = .accepted checked () →
      NamesChannel topic checked

/-! ## §4. What the lazy group captures, segment by segment. -/

/-- The segments up to the first one that starts with `word`; the first segment
is always taken. -/
def upTo (word : Text) : Text → List Text → Option Text
  | _, [] => none
  | p, q :: qs =>
      if word.isPrefixOf q then some p else (upTo word q qs).map fun g => p ++ '/' :: g

section Segments

variable {word : Text}

/-- A slash does not start inside a segment. -/
theorem before_append (word : Text) {p : Text} (hp : '/' ∉ p) (s : Text) :
    before ('/' :: word) (p ++ s) = (before ('/' :: word) s).map (p ++ ·) := by
  induction p with
  | nil => simp
  | cons c p ih =>
      have hc : '/' ≠ c := fun h => hp (h ▸ List.mem_cons_self)
      have hstart : ('/' :: word).isPrefixOf (c :: (p ++ s)) = false := by
        simp [List.isPrefixOf, hc]
      rw [List.cons_append, before, hstart, if_neg (by simp),
        ih fun h => hp (List.mem_cons_of_mem _ h)]
      cases before ('/' :: word) s <;> rfl

/-- A word without slashes starts a text exactly when it starts its first
segment. -/
theorem isPrefixOf_intercalate (hword : '/' ∉ word) (q : Text) (qs : List Text) :
    word.isPrefixOf (['/'].intercalate (q :: qs)) = word.isPrefixOf q := by
  have hcut : ∀ X : Text, word.isPrefixOf (q ++ '/' :: X) = word.isPrefixOf q := by
    intro X
    induction word generalizing q with
    | nil => simp [List.isPrefixOf]
    | cons a word ih =>
        have ha : a ≠ '/' := fun h => hword (h ▸ List.mem_cons_self)
        cases q with
        | nil => simp [List.isPrefixOf, ha]
        | cons c q =>
            simp only [List.cons_append, List.isPrefixOf,
              ih (fun h => hword (List.mem_cons_of_mem _ h)) q]
  cases qs with
  | nil => rw [List.intercalate_singleton]
  | cons r rs =>
      rw [List.intercalate_cons_cons, List.append_assoc, List.singleton_append, hcut]

/-- The search of a lazy group goes from segment to segment. -/
theorem before_intercalate (hword : '/' ∉ word) (p : Text) (ps : List Text)
    (h : ∀ q ∈ p :: ps, '/' ∉ q) :
    before ('/' :: word) (['/'].intercalate (p :: ps)) = upTo word p ps := by
  induction ps generalizing p with
  | nil =>
      have hp := before_append word (h p List.mem_cons_self) []
      rw [List.append_nil] at hp
      simpa [before, upTo] using hp
  | cons q qs ih =>
      have hq := ih q fun r hr => h r (List.mem_cons_of_mem _ hr)
      rw [List.intercalate_cons_cons, List.append_assoc, before_append word (h p List.mem_cons_self),
        List.singleton_append, before, upTo]
      have hslash : ('/' :: word).isPrefixOf ('/' :: ['/'].intercalate (q :: qs))
          = word.isPrefixOf q := by
        rw [← isPrefixOf_intercalate hword q qs]
        simp [List.isPrefixOf]
      rw [hslash, hq]
      split
      · simp
      · cases upTo word q qs <;> simp

/-- The segments of a topic are its text. -/
theorem topic_eq {topic p : Text} {ps : List Text} (hsplit : topic.splitOn '/' =
    ['c', 'h', 'a', 'n', 'n', 'e', 'l', 's'] :: p :: ps) :
    topic = channelsSlash ++ ['/'].intercalate (p :: ps) := by
  have hjoin : ['/'].intercalate (topic.splitOn '/') = topic := List.intercalate_splitOn '/'
  rw [hsplit, List.intercalate_cons_cons] at hjoin
  exact hjoin.symm

theorem any_channelsSlash (rest : Text) :
    (channelsSlash ++ rest).any isLineTerminator = rest.any isLineTerminator := rfl

/-- What the regular expression captures in a topic whose second segment is not
empty. -/
theorem exec_eq_upTo (hword : '/' ∉ word) {topic id : Text} {ps : List Text}
    (hsplit : topic.splitOn '/' = ['c', 'h', 'a', 'n', 'n', 'e', 'l', 's'] :: id :: ps)
    (hid : id ≠ []) :
    exec ('/' :: word) topic
      = if topic.any isLineTerminator then none else upTo word id ps := by
  have hno : ∀ q ∈ id :: ps, '/' ∉ q := fun q hq =>
    not_mem_of_mem_splitOn (hsplit ▸ List.mem_cons_of_mem _ hq)
  have htopic := topic_eq hsplit
  cases id with
  | nil => exact absurd rfl hid
  | cons c id =>
      -- the group takes one character before it looks for the word
      rw [List.intercalate_cons_cons_left] at htopic
      have hdrop : topic.dropPrefix? channelsSlash = some (c :: ['/'].intercalate (id :: ps)) :=
        dropPrefix?_eq_some.mpr htopic
      have hno' : ∀ q ∈ id :: ps, '/' ∉ q := by
        intro q hq
        rcases List.mem_cons.mp hq with rfl | hq
        · exact fun h => hno _ List.mem_cons_self (List.mem_cons_of_mem _ h)
        · exact hno q (List.mem_cons_of_mem _ hq)
      have hfirst : (upTo word id ps).map (c :: ·) = upTo word (c :: id) ps := by
        cases ps with
        | nil => rfl
        | cons q qs =>
            simp only [upTo]
            split
            · rfl
            · cases upTo word q qs <;> rfl
      rw [exec, hdrop, htopic, any_channelsSlash]
      simp only [before_intercalate hword id ps hno', hfirst]

theorem exec_ne_nil {topic g : Text} (h : exec word topic = some g) : g ≠ [] := by
  unfold exec at h
  split at h
  next => cases h
  next => cases h
  next =>
      split at h
      next => cases h
      next =>
          obtain ⟨g', -, rfl⟩ := Option.map_eq_some_iff.mp h
          exact List.cons_ne_nil _ _

/-- A word that starts no segment behind the first is not found. -/
theorem upTo_eq_none {p : Text} {ps : List Text} :
    upTo word p ps = none ↔ ∀ q ∈ ps, word.isPrefixOf q = false := by
  induction ps generalizing p with
  | nil => simp [upTo]
  | cons q qs ih =>
      rw [upTo]
      by_cases hq : word.isPrefixOf q
      · simp [hq]
      · simp [hq, ih]

theorem before_eq_none {w s : Text} (hw : w ≠ []) :
    before w s = none ↔ ∀ g t, s ≠ g ++ (w ++ t) := by
  induction s with
  | nil =>
      rw [before, if_neg hw]
      simp [hw]
  | cons c s ih =>
      rw [before]
      by_cases hstart : w.isPrefixOf (c :: s)
      · rw [if_pos hstart]
        obtain ⟨t, ht⟩ := List.isPrefixOf_iff_prefix.mp hstart
        simp only [reduceCtorEq, false_iff]
        exact fun h => h [] t ht.symm
      · rw [if_neg hstart, Option.map_eq_none_iff, ih]
        constructor
        · intro h g t heq
          cases g with
          | nil => exact hstart (List.isPrefixOf_iff_prefix.mpr ⟨t, heq.symm⟩)
          | cons x g =>
              rw [List.cons_append, List.cons.injEq] at heq
              exact h g t heq.2
        · intro h g t heq
          exact h (c :: g) t (by rw [heq, List.cons_append])

end Segments

/-! ## §5. What the lazy group captures, in one piece. -/

/-- `g` is the shortest beginning of the topic behind `channels/` that is
followed by `/word`. -/
def Shortest (word topic g : Text) : Prop :=
  g ≠ [] ∧ (∃ rest, topic = channelsSlash ++ (g ++ '/' :: (word ++ rest))) ∧
    ∀ g' rest, g' ≠ [] → topic = channelsSlash ++ (g' ++ '/' :: (word ++ rest)) →
      g.length ≤ g'.length

/-- What Aedes takes for the channel id. -/
def Captures (topic g : Text) : Prop :=
  topic.any isLineTerminator = false ∧
    (Shortest controlWord topic g ∨
      (∀ g', ¬ Shortest controlWord topic g') ∧ Shortest messagesWord topic g)

theorem before_eq_some {w s g : Text} (hw : w ≠ []) :
    before w s = some g ↔
      (∃ t, s = g ++ (w ++ t)) ∧ ∀ g' t, s = g' ++ (w ++ t) → g.length ≤ g'.length := by
  induction s generalizing g with
  | nil =>
      rw [before, if_neg hw]
      simp [hw]
  | cons c s ih =>
      rw [before]
      by_cases hstart : w.isPrefixOf (c :: s)
      · obtain ⟨t, ht⟩ := List.isPrefixOf_iff_prefix.mp hstart
        rw [if_pos hstart, Option.some.injEq]
        constructor
        · rintro rfl
          exact ⟨⟨t, ht.symm⟩, fun g' t' _ => Nat.zero_le _⟩
        · rintro ⟨-, hmin⟩
          have hlen := hmin [] t ht.symm
          exact (List.length_eq_zero_iff.mp (Nat.le_zero.mp hlen)).symm
      · -- the word does not start here, so every beginning has the first character
        have hcons : ∀ g' t, c :: s = g' ++ (w ++ t) → ∃ h, g' = c :: h ∧ s = h ++ (w ++ t) := by
          intro g' t heq
          cases g' with
          | nil => exact absurd (List.isPrefixOf_iff_prefix.mpr ⟨t, heq.symm⟩) hstart
          | cons x h =>
              rw [List.cons_append, List.cons.injEq] at heq
              exact ⟨h, by rw [heq.1], heq.2⟩
        rw [if_neg hstart, Option.map_eq_some_iff]
        constructor
        · rintro ⟨h, hh, rfl⟩
          obtain ⟨⟨t, ht⟩, hmin⟩ := ih.mp hh
          refine ⟨⟨t, by rw [ht, List.cons_append]⟩, ?_⟩
          intro g' t' heq
          obtain ⟨h', rfl, hs⟩ := hcons g' t' heq
          simpa using hmin h' t' hs
        · rintro ⟨⟨t, ht⟩, hmin⟩
          obtain ⟨h, rfl, hs⟩ := hcons g t ht
          refine ⟨h, ih.mpr ⟨⟨t, hs⟩, ?_⟩, rfl⟩
          intro h' t' hs'
          simpa using hmin (c :: h') t' (by rw [hs', List.cons_append])

/-- A regular expression captures the shortest beginning. -/
theorem exec_eq_some {word topic g : Text} :
    exec ('/' :: word) topic = some g ↔
      topic.any isLineTerminator = false ∧ Shortest word topic g := by
  unfold exec Shortest
  split
  next hnone =>
      simp only [reduceCtorEq, false_iff]
      rintro ⟨-, -, ⟨rest, htopic⟩, -⟩
      rw [dropPrefix?_eq_some.mpr htopic] at hnone
      cases hnone
  next hnil =>
      simp only [reduceCtorEq, false_iff]
      rintro ⟨-, -, ⟨rest, htopic⟩, -⟩
      rw [dropPrefix?_eq_some.mpr htopic] at hnil
      simp at hnil
  next c cs hsome =>
      have htopic := dropPrefix?_eq_some.mp hsome
      rw [htopic, any_channelsSlash]
      by_cases hterm : (c :: cs).any isLineTerminator = true
      · rw [if_pos hterm, hterm]
        simp
      · have hfree : (c :: cs).any isLineTerminator = false := Bool.eq_false_iff.mpr hterm
        rw [if_neg hterm, hfree, Option.map_eq_some_iff]
        simp only [List.append_cancel_left_eq, true_and]
        -- the first character belongs to the group, the rest is searched
        constructor
        · rintro ⟨h, hh, rfl⟩
          obtain ⟨⟨t, ht⟩, hmin⟩ := (before_eq_some (List.cons_ne_nil _ _)).mp hh
          refine ⟨List.cons_ne_nil _ _, ⟨t, by rw [ht]; rfl⟩, ?_⟩
          intro g' rest hne heq
          cases g' with
          | nil => exact absurd rfl hne
          | cons x g' =>
              rw [List.cons_append, List.cons.injEq] at heq
              simpa using hmin g' rest heq.2
        · rintro ⟨hne, ⟨rest, heq⟩, hmin⟩
          cases g with
          | nil => exact absurd rfl hne
          | cons x h =>
              rw [List.cons_append, List.cons.injEq] at heq
              obtain ⟨rfl, hcs⟩ := heq
              refine ⟨h, (before_eq_some (List.cons_ne_nil _ _)).mpr ⟨⟨rest, hcs⟩, ?_⟩, rfl⟩
              intro h' t hs
              simpa using hmin (c :: h') t (List.cons_ne_nil _ _) (by rw [hs]; rfl)

theorem parseTopic_eq_some {topic g : Text} : parseTopic topic = some g ↔ Captures topic g := by
  have hcontrol : ∀ g', exec ('/' :: controlWord) topic = some g' ↔
      topic.any isLineTerminator = false ∧ Shortest controlWord topic g' := fun _ => exec_eq_some
  unfold parseTopic Captures
  cases hexec : exec ('/' :: controlWord) topic with
  | some id =>
      obtain ⟨hlines, hshort⟩ := (hcontrol id).mp hexec
      constructor
      · intro heq
        cases heq
        exact ⟨hlines, .inl hshort⟩
      · rintro ⟨-, hg | ⟨hno, -⟩⟩
        · exact hexec.symm.trans ((hcontrol g).mpr ⟨hlines, hg⟩)
        · exact absurd hshort (hno id)
  | none =>
      rw [exec_eq_some]
      constructor
      · rintro ⟨hlines, hg⟩
        refine ⟨hlines, .inr ⟨fun g' hg' => ?_, hg⟩⟩
        rw [(hcontrol g').mpr ⟨hlines, hg'⟩] at hexec
        cases hexec
      · rintro ⟨hlines, hg | ⟨-, hg⟩⟩
        · rw [(hcontrol g).mpr ⟨hlines, hg⟩] at hexec
          cases hexec
        · exact ⟨hlines, hg⟩

/-! ## §6. Which topics are parsed to the right channel. -/

/-- A regular expression fails on what does not have its form. -/
theorem exec_eq_none {word topic : Text} :
    exec ('/' :: word) topic = none ↔
      ¬ ((∃ id rest, topic = channelsSlash ++ (id ++ '/' :: (word ++ rest)) ∧ id ≠ []) ∧
        topic.any isLineTerminator = false) := by
  unfold exec
  split
  next hnone =>
      simp only [true_iff]
      rintro ⟨⟨id, rest, htopic, -⟩, -⟩
      rw [dropPrefix?_eq_some.mpr htopic] at hnone
      cases hnone
  next hnil =>
      simp only [true_iff]
      rintro ⟨⟨id, rest, htopic, -⟩, -⟩
      rw [dropPrefix?_eq_some.mpr htopic] at hnil
      simp at hnil
  next c cs hsome =>
      have htopic := dropPrefix?_eq_some.mp hsome
      rw [htopic, any_channelsSlash]
      by_cases hterm : (c :: cs).any isLineTerminator = true
      · rw [if_pos hterm, hterm]
        simp
      · have hfree : (c :: cs).any isLineTerminator = false := Bool.eq_false_iff.mpr hterm
        rw [if_neg hterm, Option.map_eq_none_iff, before_eq_none (List.cons_ne_nil _ _), hfree]
        simp only [and_true, List.append_cancel_left_eq, not_exists, not_and]
        constructor
        · intro h id rest heq hid
          cases id with
          | nil => exact hid rfl
          | cons x id =>
              rw [List.cons_append, List.cons.injEq] at heq
              exact h id rest heq.2
        · intro h g t heq
          exact h (c :: g) t (by rw [heq]; rfl) (List.cons_ne_nil _ _)

theorem parseTopic_eq_none {topic : Text} : parseTopic topic = none ↔ ¬ Matches topic := by
  have hparse : parseTopic topic = none ↔
      exec ('/' :: controlWord) topic = none ∧ exec ('/' :: messagesWord) topic = none := by
    unfold parseTopic
    cases exec ('/' :: controlWord) topic <;> simp
  rw [hparse, exec_eq_none, exec_eq_none, ← not_or]
  refine not_congr ⟨?_, ?_⟩
  · rintro (⟨⟨id, rest, htopic, hid⟩, hterm⟩ | ⟨⟨id, rest, htopic, hid⟩, hterm⟩)
    · exact ⟨⟨id, controlWord, rest, htopic, hid, .inl rfl⟩, hterm⟩
    · exact ⟨⟨id, messagesWord, rest, htopic, hid, .inr rfl⟩, hterm⟩
  · rintro ⟨⟨id, word, rest, htopic, hid, rfl | rfl⟩, hterm⟩
    · exact .inl ⟨⟨id, rest, htopic, hid⟩, hterm⟩
    · exact .inr ⟨⟨id, rest, htopic, hid⟩, hterm⟩

/-- What a plain topic is parsed to. -/
theorem parseTopic_plain {topic id word : Text} {rest : List Text}
    (hsplit : topic.splitOn '/' =
      ['c', 'h', 'a', 'n', 'n', 'e', 'l', 's'] :: id :: word :: rest) (hid : id ≠ [])
    (hword : word = controlWord ∨
      word = messagesWord ∧ ∀ seg ∈ rest, controlWord.isPrefixOf seg = false) :
    parseTopic topic = if topic.any isLineTerminator then none else some id := by
  rw [parseTopic, exec_eq_upTo (by decide) hsplit hid, exec_eq_upTo (by decide) hsplit hid]
  by_cases hterm : topic.any isLineTerminator = true
  · simp only [if_pos hterm]
  · simp only [if_neg hterm]
    rcases hword with rfl | ⟨rfl, hrest⟩
    · rfl
    · have hnone : upTo controlWord id (messagesWord :: rest) = none := by
        rw [upTo_eq_none]
        intro q hq
        rcases List.mem_cons.mp hq with rfl | hq
        · rfl
        · exact hrest q hq
      rw [hnone]
      rfl

/-- A topic that names a channel and is parsed to it is plain. -/
theorem plain_of_parseTopic {topic id : Text} (hparse : parseTopic topic = some id)
    (hnames : NamesChannel topic id) : PlainTopic topic := by
  obtain ⟨word, rest, hsplit, hword⟩ := hnames
  have hid : id ≠ [] := by
    unfold parseTopic at hparse
    split at hparse
    next g hg =>
        cases hparse
        exact exec_ne_nil hg
    next => exact exec_ne_nil hparse
  refine ⟨id, word, rest, hsplit, hid, ?_⟩
  rcases hword with rfl | rfl
  · refine .inr ⟨rfl, ?_⟩
    by_contra hcontrol
    -- the control expression would have captured more than the second segment
    rw [parseTopic, exec_eq_upTo (by decide) hsplit hid,
      exec_eq_upTo (by decide) hsplit hid] at hparse
    split at hparse
    next g hg =>
        split at hg
        next => cases hg
        next =>
            cases hparse
            rw [upTo, if_neg (by decide)] at hg
            obtain ⟨g', -, heq⟩ := Option.map_eq_some_iff.mp hg
            have hlen := congrArg List.length heq
            simp at hlen
    next hnone =>
        split at hnone
        next hterm =>
            rw [if_pos hterm] at hparse
            cases hparse
        next =>
            rw [upTo_eq_none] at hnone
            exact hcontrol fun seg hseg => hnone seg (List.mem_cons_of_mem _ hseg)
  · exact .inl rfl

section Accepted

variable {topic checked : Text}

theorem authorizePublish_accepted {access : Text → Bool} {pub : Publication × Text} :
    authorizePublish access topic = .accepted checked pub ↔
      parseTopic topic = some checked ∧ (¬ ∃ elem ∈ elementsOf topic, InvalidElement elem) ∧
        access checked = true ∧ pub = (publication checked (elementsOf topic),
          ((topic.splitOn '/').drop 2).head?.getD []) := by
  unfold authorizePublish
  cases parseTopic topic with
  | none => simp
  | some id =>
      by_cases hbad : ∃ elem ∈ elementsOf topic, InvalidElement elem
      · simp [hbad]
      · by_cases hacc : access id
        · simp only [if_neg hbad, if_pos hacc, Outcome.accepted.injEq, Option.some.injEq]
          constructor
          · rintro ⟨rfl, rfl⟩
            exact ⟨rfl, hbad, hacc, rfl⟩
          · rintro ⟨rfl, -, -, rfl⟩
            exact ⟨rfl, rfl⟩
        · simp only [if_neg hbad, if_neg hacc, reduceCtorEq, Option.some.injEq, false_iff]
          rintro ⟨rfl, -, h, -⟩
          exact hacc h

theorem authorizeSubscribe_accepted {access : Text → Bool} :
    authorizeSubscribe access topic = .accepted checked () ↔
      parseTopic topic = some checked ∧ access checked = true := by
  unfold authorizeSubscribe
  cases parseTopic topic with
  | none => simp
  | some id =>
      by_cases hacc : access id
      · simp only [if_pos hacc, Outcome.accepted.injEq, and_true, Option.some.injEq]
        constructor
        · rintro rfl
          exact ⟨rfl, hacc⟩
        · exact fun h => h.1
      · simp only [if_neg hacc, reduceCtorEq, Option.some.injEq, false_iff]
        rintro ⟨rfl, h⟩
        exact hacc h

/-- On a plain topic whatever is parsed is the second segment. -/
theorem names_of_plain (hplain : PlainTopic topic) (hparse : parseTopic topic = some checked) :
    NamesChannel topic checked := by
  obtain ⟨id, word, rest, hsplit, hid, hword⟩ := hplain
  rw [parseTopic_plain hsplit hid hword] at hparse
  split at hparse
  next => cases hparse
  next =>
      cases hparse
      exact ⟨word, rest, hsplit, hword.symm.imp And.left id⟩

end Accepted

/-- **Exactly when the adapter parses the right channel out of a topic**: the
topic is refused, or it is plain. -/
theorem rightChannel_iff (req : Request) (topic : Text) :
    RightChannel req topic ↔ Refused req topic ∨ PlainTopic topic := by
  cases req with
  | publish =>
      constructor
      · intro h
        by_cases hbad : ∃ elem ∈ elementsOf topic, InvalidElement elem
        · exact .inl (.inr hbad)
        · cases hparse : parseTopic topic with
          | none => exact .inl (.inl (parseTopic_eq_none.mp hparse))
          | some checked =>
              -- with access to everything the topic is accepted
              have hnames := (h (fun _ => true) checked _
                (authorizePublish_accepted.mpr ⟨hparse, hbad, rfl, rfl⟩)).1
              exact .inr (plain_of_parseTopic hparse hnames)
      · intro h access checked pub hpub
        obtain ⟨hparse, hok, -, rfl⟩ := authorizePublish_accepted.mp hpub
        rcases h with (hno | hbad) | hplain
        · rw [parseTopic_eq_none.mpr hno] at hparse
          cases hparse
        · exact absurd hbad hok
        · exact ⟨names_of_plain hplain hparse, rfl⟩
  | subscribe =>
      constructor
      · intro h
        cases hparse : parseTopic topic with
        | none => exact .inl (parseTopic_eq_none.mp hparse)
        | some checked =>
            have hnames := h (fun _ => true) checked
              (authorizeSubscribe_accepted.mpr ⟨hparse, rfl⟩)
            exact .inr (plain_of_parseTopic hparse hnames)
      · intro h access checked hsub
        obtain ⟨hparse, -⟩ := authorizeSubscribe_accepted.mp hsub
        rcases h with hno | hplain
        · rw [parseTopic_eq_none.mpr hno] at hparse
          cases hparse
        · exact names_of_plain hplain hparse

/-- `channels/1/messages/a/control`: access is asked for, and the message is
published under, `1/messages/a`. -/
theorem control_level_wrong_channel :
    ¬ RightChannel .publish "channels/1/messages/a/control".toList := by
  intro h
  have hpub : authorizePublish (fun _ => true) "channels/1/messages/a/control".toList
      = .accepted "1/messages/a".toList
        (publication "1/messages/a".toList ["a".toList, "control".toList], messagesWord) := by
    decide +kernel
  obtain ⟨⟨word, rest, hsplit, -⟩, -⟩ := h _ _ _ hpub
  have hsegments : "channels/1/messages/a/control".toList.splitOn '/'
      = ["channels".toList, "1".toList, messagesWord, "a".toList, controlWord] := by
    decide +kernel
  rw [hsegments] at hsplit
  revert hsplit
  simp

end Mainflux.Messaging
