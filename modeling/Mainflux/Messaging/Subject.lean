/-
  Mainflux.Messaging.Subject
  ──────────────────────────
  **FROM A REQUEST LINE TO A NATS SUBJECT: the HTTP and WebSocket adapters.**

  Both adapters route `/channels/:id/messages` and `/channels/:id/messages/*`,
  match the raw request line against one regular expression, unescape the
  subtopic, turn slashes into dots, drop empty levels, refuse a wildcard inside
  a longer level, and prepend `channel.<id>`.

  `WellFormedSubject` is what NATS expects: non-empty tokens without blanks,
  wildcards only as whole tokens of a subscription and `>` only as its last
  token, and the channel the request was authorised for in front.

    • `confined_iff` — exactly which request lines keep to it;
    • `publish_not_confined` — an escaped blank that does not.
-/
import Mathlib.Data.List.TakeWhile
import Mainflux.Lib.Text

namespace Mainflux.Messaging

open Mainflux.Lib

open Mainflux.Lib.Text

/-! ## §1. The request line. -/

/-- `[\w\-]`. -/
def isIDChar (c : Char) : Bool := c.isAlphanum || c == '_' || c == '-'

def channelsPart : Text := ['/', 'c', 'h', 'a', 'n', 'n', 'e', 'l', 's', '/']

def messagesPart : Text := ['/', 'm', 'e', 's', 's', 'a', 'g', 'e', 's']

/-- `(/[^?]*)?`: what the second group takes. -/
def subtopicPart : Text → Text
  | [] => []
  | c :: cs => if c = '/' then c :: cs.takeWhile (· ≠ '?') else []

/-- What the second group leaves. -/
def queryPart : Text → Text
  | [] => []
  | c :: cs => if c = '/' then cs.dropWhile (· ≠ '?') else c :: cs

/-- `(\?.*)?$`. -/
def isQuery : Text → Bool
  | [] => true
  | c :: cs => c = '?' && !cs.contains '\n'

/-- `channelPartRegExp.FindStringSubmatch`: the groups of the id and of the
subtopic. -/
def channelPart (uri : Text) : Option (Text × Text) :=
  match uri.dropPrefix? channelsPart with
  | none => none
  | some rest =>
      match (rest.dropWhile isIDChar).dropPrefix? messagesPart with
      | none => none
      | some tail =>
          if rest.takeWhile isIDChar ≠ [] ∧ isQuery (queryPart tail) then
            some (rest.takeWhile isIDChar, subtopicPart tail)
          else none

/-- The router: `bone.GetValue(r, "id")` of the route that takes the path. -/
def route (uri : Text) : Option Text :=
  match (uri.takeWhile (· ≠ '?')).splitOn '/' with
  | _ :: channels :: id :: messages :: _ =>
      if channels = ['c', 'h', 'a', 'n', 'n', 'e', 'l', 's'] ∧
          messages = ['m', 'e', 's', 's', 'a', 'g', 'e', 's'] then
        some ((queryUnescape id).getD [])
      else none
  | _ => none

/-! ## §2. The subtopic and the subject. -/

/-- A wildcard inside a longer element. -/
def Malformed (elem : Text) : Prop := 1 < elem.length ∧ ('*' ∈ elem ∨ '>' ∈ elem)

instance (elem : Text) : Decidable (Malformed elem) := inferInstanceAs (Decidable (_ ∧ _))

/-- The loop of `parseSubtopic`. -/
def filteredElems : List Text → Option (List Text)
  | [] => some []
  | elem :: elems =>
      if elem = [] then filteredElems elems
      else if Malformed elem then none
      else (filteredElems elems).map fun es => elem :: es

/-- `parseSubtopic`. -/
def parseSubtopic (subtopic : Text) : Option Text :=
  if subtopic = [] then some []
  else
    match queryUnescape subtopic with
    | none => none
    | some decoded =>
        (filteredElems ((replaceAll '/' '.' decoded).splitOn '.')).map fun elems =>
          ['.'].intercalate elems

def channelToken : Text := ['c', 'h', 'a', 'n', 'n', 'e', 'l']

/-- `fmtSubject`, and the same lines of the HTTP publisher. -/
def fmtSubject (chanID subtopic : Text) : Text :=
  if subtopic = [] then channelToken ++ '.' :: chanID
  else channelToken ++ '.' :: chanID ++ '.' :: subtopic

/-! ## §3. The adapters. -/

/-- What an adapter hands to the NATS client. -/
inductive Action
  | httpPublish
  | wsSubscribe
  | wsPublish
  deriving DecidableEq

section Handlers

variable (authorised : Text → Bool)

/-- `decodeRequest`, then the adapter's `Publish`: the channel id that was
authorised and the subject. -/
def httpRequest (uri : Text) : Option (Text × Text) :=
  match route uri, channelPart uri with
  | some chanID, some (_, part) =>
      match parseSubtopic part with
      | some subtopic =>
          if authorised chanID then some (chanID, fmtSubject chanID subtopic) else none
      | none => none
  | _, _ => none

/-- `handshake`: authorisation comes before parsing. -/
def wsHandshake (uri : Text) : Option (Text × Text) :=
  match route uri with
  | none => none
  | some chanID =>
      if authorised chanID then
        match channelPart uri with
        | none => none
        | some (_, part) =>
            (parseSubtopic part).map fun subtopic => (chanID, fmtSubject chanID subtopic)
      else none

/-- The channel and the subject of an action, if the request gets that far. -/
def Action.subject : Action → Text → Option (Text × Text)
  | .httpPublish => httpRequest authorised
  | .wsSubscribe => wsHandshake authorised
  | .wsPublish => wsHandshake authorised

end Handlers

/-! ## §4. Well-formed subjects. -/

/-- Space, tab, CR, LF and NUL. -/
def Blank (c : Char) : Prop :=
  c = ' ' ∨ c = '\t' ∨ c = '\r' ∨ c = '\n' ∨ c = Char.ofNat 0

instance (c : Char) : Decidable (Blank c) := inferInstanceAs (Decidable (_ ∨ _))

/-- The wildcards of the tokens are where the action may have them. -/
def WildcardsOk : Action → List Text → Prop
  | .wsSubscribe, tokens =>
      (∀ tok ∈ tokens, ('*' ∈ tok → tok = ['*']) ∧ ('>' ∈ tok → tok = ['>'])) ∧
        ∀ tok ∈ tokens.dropLast, tok ≠ ['>']
  | _, tokens => ∀ tok ∈ tokens, '*' ∉ tok ∧ '>' ∉ tok

/-- What NATS expects of the subject of an action on channel `c`. -/
structure WellFormedSubject (a : Action) (c subject : Text) : Prop where
  tokens : ∀ tok ∈ subject.splitOn '.', tok ≠ [] ∧ ∀ ch ∈ tok, ¬ Blank ch
  wildcards : WildcardsOk a (subject.splitOn '.')
  channel : ∃ rest, subject.splitOn '.' = channelToken :: c :: rest

/-- Whatever the access checks grant, the subject is well formed. -/
def Confined (a : Action) (uri : Text) : Prop :=
  ∀ (authorised : Text → Bool) (c subject : Text),
    a.subject authorised uri = some (c, subject) → WellFormedSubject a c subject

/-- The levels of a decoded subtopic. -/
def levels (decoded : Text) : List Text :=
  ((replaceAll '/' '.' decoded).splitOn '.').filter (· ≠ [])

/-- No level is a wildcard but, in a subscription, `*` anywhere and `>` as the
last level. -/
def CleanWildcards : Action → List Text → Prop
  | .wsSubscribe, ls => ∀ l ∈ ls.dropLast, l ≠ ['>']
  | _, ls => ∀ l ∈ ls, l ≠ ['*'] ∧ l ≠ ['>']

/-- The levels an action may carry. -/
structure CleanLevels (a : Action) (ls : List Text) : Prop where
  blanks : ∀ l ∈ ls, ∀ ch ∈ l, ¬ Blank ch
  wildcards : CleanWildcards a ls

/-- The subtopic of the request line is refused, or its levels are clean. -/
def CleanRequest (a : Action) (uri : Text) : Prop :=
  ∀ id part decoded, channelPart uri = some (id, part) → queryUnescape part = some decoded →
    (∃ l ∈ levels decoded, Malformed l) ∨ CleanLevels a (levels decoded)

/-! ## §5. What the request line is made of. -/

theorem subtopicPart_append (tail : Text) : subtopicPart tail ++ queryPart tail = tail := by
  cases tail with
  | nil => rfl
  | cons c cs =>
      rw [subtopicPart, queryPart]
      split
      · rw [List.cons_append, List.takeWhile_append_dropWhile]
      · rfl

/-- The subtopic is empty or starts with a slash, and holds no `?`. -/
theorem subtopicPart_shape (tail : Text) :
    (subtopicPart tail = [] ∨ ∃ r, subtopicPart tail = '/' :: r) ∧ '?' ∉ subtopicPart tail := by
  cases tail with
  | nil => exact ⟨.inl rfl, List.not_mem_nil⟩
  | cons c cs =>
      rw [subtopicPart]
      split
      next hc =>
          subst hc
          refine ⟨.inr ⟨_, rfl⟩, ?_⟩
          intro hin
          rcases List.mem_cons.mp hin with heq | hin
          · exact absurd heq (by decide)
          · have hne := List.mem_takeWhile_imp hin
            simp at hne
      next => exact ⟨.inl rfl, List.not_mem_nil⟩

theorem takeWhile_query {q : Text} (h : isQuery q) : q.takeWhile (· ≠ '?') = [] := by
  cases q with
  | nil => rfl
  | cons c cs =>
      simp only [isQuery, Bool.and_eq_true, decide_eq_true_eq] at h
      simp [h.1]

/-- A request line that matches: its path is the fixed parts around the two
groups. -/
theorem channelPart_eq_some {uri id part : Text} (h : channelPart uri = some (id, part)) :
    uri.takeWhile (· ≠ '?') = channelsPart ++ (id ++ (messagesPart ++ part)) ∧
      (∀ c ∈ id, isIDChar c) ∧ id ≠ [] ∧ (part = [] ∨ ∃ r, part = '/' :: r) := by
  unfold channelPart at h
  split at h
  next => cases h
  next rest hrest =>
      split at h
      next => cases h
      next tail htail =>
          split at h
          next hok =>
              cases h
              obtain ⟨hne, hquery⟩ := hok
              obtain ⟨hshape, hnoq⟩ := subtopicPart_shape tail
              have hid : ∀ c ∈ rest.takeWhile isIDChar, isIDChar c := fun c hc =>
                List.mem_takeWhile_imp hc
              refine ⟨?_, hid, hne, hshape⟩
              have huri : uri = channelsPart ++ (rest.takeWhile isIDChar ++
                  (messagesPart ++ subtopicPart tail)) ++ queryPart tail := by
                rw [dropPrefix?_eq_some.mp hrest]
                conv_lhs => rw [← List.takeWhile_append_dropWhile (p := isIDChar) (l := rest)]
                rw [dropPrefix?_eq_some.mp htail]
                simp only [List.append_assoc, subtopicPart_append]
              -- none of the groups can hold the question mark
              have hpath : ∀ c ∈ channelsPart ++ (rest.takeWhile isIDChar ++
                  (messagesPart ++ subtopicPart tail)), decide (c ≠ '?') = true := by
                intro c hc
                rw [decide_eq_true_eq]
                intro heq
                subst heq
                simp only [List.mem_append] at hc
                rcases hc with hc | hc | hc | hc
                · exact absurd hc (by decide)
                · exact absurd (hid _ hc) (by decide)
                · exact absurd hc (by decide)
                · exact hnoq hc
              rw [huri, List.takeWhile_append_of_pos hpath, takeWhile_query hquery,
                List.append_nil]
          next => cases h

/-- The router and the regular expression see the same channel id. -/
theorem route_of_channelPart {uri id part : Text} (h : channelPart uri = some (id, part)) :
    route uri = some id := by
  obtain ⟨hpath, hid, -, hpart⟩ := channelPart_eq_some h
  have hslash : '/' ∉ id := fun hin => absurd (hid _ hin) (by decide)
  have hself : queryUnescape id = some id := by
    refine queryUnescape_self fun c hc => ⟨?_, ?_⟩
    · rintro rfl
      exact absurd (hid _ hc) (by decide)
    · rintro rfl
      exact absurd (hid _ hc) (by decide)
  -- the path splits into the empty segment, `channels`, the id, `messages` and the subtopic
  have hsplit : ∃ more, (uri.takeWhile (· ≠ '?')).splitOn '/'
      = [] :: ['c', 'h', 'a', 'n', 'n', 'e', 'l', 's'] :: id ::
        ['m', 'e', 's', 's', 'a', 'g', 'e', 's'] :: more := by
    have hshape : channelsPart ++ (id ++ (messagesPart ++ part))
        = [] ++ '/' :: (['c', 'h', 'a', 'n', 'n', 'e', 'l', 's'] ++ '/' ::
            (id ++ '/' :: (['m', 'e', 's', 's', 'a', 'g', 'e', 's'] ++ part))) := by
      simp [channelsPart, messagesPart]
    rw [hpath, hshape, List.splitOn_append_cons_self_of_not_mem (by decide),
      List.splitOn_append_cons_self_of_not_mem (by decide),
      List.splitOn_append_cons_self_of_not_mem hslash]
    rcases hpart with rfl | ⟨r, rfl⟩
    · exact ⟨_, by rw [List.append_nil, List.splitOn_eq_singleton (by decide)]⟩
    · exact ⟨_, by rw [List.splitOn_append_cons_self_of_not_mem (by decide)]⟩
  obtain ⟨more, hsplit⟩ := hsplit
  rw [route, hsplit]
  simp [hself]

/-! ## §6. What the subject is made of. -/

/-- The loop keeps the non-empty elements, unless one of them is malformed. -/
theorem filteredElems_eq_some {elems kept : List Text} :
    filteredElems elems = some kept ↔
      (∀ l ∈ elems.filter (· ≠ []), ¬ Malformed l) ∧ kept = elems.filter (· ≠ []) := by
  induction elems generalizing kept with
  | nil => simp [filteredElems, eq_comm]
  | cons e es ih =>
      rw [filteredElems]
      by_cases hempty : e = []
      · simp [hempty, ih]
      · by_cases hmal : Malformed e
        · simp [hempty, hmal]
        · simp only [hempty, hmal, if_false, Option.map_eq_some_iff, ih, ne_eq, not_false_eq_true,
            decide_true, List.filter_cons_of_pos, List.mem_cons, forall_eq_or_imp, true_and]
          constructor
          · rintro ⟨kept', ⟨hall, rfl⟩, rfl⟩
            exact ⟨hall, rfl⟩
          · rintro ⟨hall, rfl⟩
            exact ⟨_, ⟨hall, rfl⟩, rfl⟩

theorem parseSubtopic_eq_some {part subtopic : Text} :
    parseSubtopic part = some subtopic ↔
      ∃ decoded, queryUnescape part = some decoded ∧ (∀ l ∈ levels decoded, ¬ Malformed l) ∧
        subtopic = ['.'].intercalate (levels decoded) := by
  unfold parseSubtopic
  split
  next hnil =>
      subst hnil
      -- the empty subtopic decodes to itself and has no levels
      have hlevels : levels [] = [] := rfl
      simp [queryUnescape, hlevels, eq_comm]
  next =>
      cases queryUnescape part with
      | none => simp
      | some decoded =>
          simp only [Option.map_eq_some_iff, filteredElems_eq_some, Option.some.injEq]
          constructor
          · rintro ⟨kept, ⟨hall, rfl⟩, rfl⟩
            exact ⟨decoded, rfl, hall, rfl⟩
          · rintro ⟨decoded', rfl, hall, rfl⟩
            exact ⟨_, ⟨hall, rfl⟩, rfl⟩

/-- A level is not empty and holds no dot. -/
theorem levels_shape {decoded l : Text} (h : l ∈ levels decoded) : l ≠ [] ∧ '.' ∉ l := by
  rw [levels, List.mem_filter, decide_eq_true_eq] at h
  exact ⟨h.2, not_mem_of_mem_splitOn h.1⟩

/-- The tokens of a subject: `channel`, the channel id, the levels. -/
theorem splitOn_fmtSubject {c : Text} (hc : '.' ∉ c) (decoded : Text) :
    (fmtSubject c (['.'].intercalate (levels decoded))).splitOn '.'
      = channelToken :: c :: levels decoded := by
  have hhead : ∀ rest : Text, (channelToken ++ '.' :: (c ++ '.' :: rest)).splitOn '.'
      = channelToken :: c :: rest.splitOn '.' := by
    intro rest
    rw [List.splitOn_append_cons_self_of_not_mem (by decide),
      List.splitOn_append_cons_self_of_not_mem hc]
  rw [fmtSubject]
  cases hls : levels decoded with
  | nil =>
      have hnil : ['.'].intercalate ([] : List Text) = [] := rfl
      rw [hnil, if_pos rfl, List.splitOn_append_cons_self_of_not_mem (by decide),
        List.splitOn_eq_singleton hc]
  | cons l ls =>
      have hshape : ∀ l' ∈ l :: ls, l' ≠ [] ∧ '.' ∉ l' := fun l' h => levels_shape (hls ▸ h)
      have hne : ['.'].intercalate (l :: ls) ≠ [] := by
        cases ls with
        | nil => simpa using (hshape l List.mem_cons_self).1
        | cons l' ls => simp [List.intercalate_cons_cons]
      rw [if_neg hne, List.append_assoc, List.cons_append, hhead,
        List.splitOn_intercalate '.' (fun l' h => (hshape l' h).2) (by simp)]

/-! ## §7. Confinement. -/

theorem isIDChar_not_special {c : Text} (h : ∀ ch ∈ c, isIDChar ch) {ch : Char}
    (hch : isIDChar ch = false) : ch ∉ c := by
  intro hin
  rw [h ch hin] at hch
  cases hch

/-- What an adapter hands out, for every way to grant access. -/
theorem subject_eq_some {a : Action} {authorised : Text → Bool} {uri c subject : Text} :
    a.subject authorised uri = some (c, subject) ↔
      authorised c = true ∧ ∃ part subtopic, channelPart uri = some (c, part) ∧
        parseSubtopic part = some subtopic ∧ subject = fmtSubject c subtopic := by
  -- both adapters come to the same, whichever check is made first
  have hboth : a.subject authorised uri = httpRequest authorised uri := by
    have hws : wsHandshake authorised uri = httpRequest authorised uri := by
      unfold wsHandshake httpRequest
      cases route uri with
      | none => rfl
      | some chanID =>
          cases channelPart uri with
          | none => simp
          | some parts => cases hp : parseSubtopic parts.2 <;> simp [hp]
    cases a with
    | httpPublish => rfl
    | wsSubscribe => exact hws
    | wsPublish => exact hws
  rw [hboth, httpRequest]
  cases hpart : channelPart uri with
  | none => simp
  | some parts =>
      obtain ⟨id, part⟩ := parts
      rw [route_of_channelPart hpart]
      cases hsub : parseSubtopic part with
      | none =>
          simp only [hsub, reduceCtorEq, Option.some.injEq, Prod.mk.injEq, false_iff, not_and]
          rintro - ⟨part', subtopic, ⟨-, rfl⟩, hsub', -⟩
          rw [hsub] at hsub'
          cases hsub'
      | some subtopic =>
          simp only [hsub, Option.ite_none_right_eq_some, Option.some.injEq, Prod.mk.injEq]
          constructor
          · rintro ⟨hauth, rfl, rfl⟩
            exact ⟨hauth, part, subtopic, ⟨rfl, rfl⟩, hsub, rfl⟩
          · rintro ⟨hauth, part', subtopic', ⟨rfl, rfl⟩, hsub', rfl⟩
            rw [hsub] at hsub'
            cases hsub'
            exact ⟨hauth, rfl, rfl⟩

/-- A wildcard that was let through is a level of its own. -/
theorem wildcard_of_not_malformed {l : Text} (h : ¬ Malformed l) {ch : Char} (hin : ch ∈ l)
    (hch : ch = '*' ∨ ch = '>') : l = [ch] := by
  cases l with
  | nil => cases hin
  | cons x rest =>
      cases rest with
      | nil => rw [List.mem_singleton.mp hin]
      | cons y rest =>
          have hwild : '*' ∈ x :: y :: rest ∨ '>' ∈ x :: y :: rest := by
            rcases hch with rfl | rfl
            · exact .inl hin
            · exact .inr hin
          exact absurd ⟨by simp, hwild⟩ h

/-- What holds of the two fixed tokens is left to the levels. -/
theorem forall_tokens {c decoded : Text} {P : Text → Prop} (hchannel : P channelToken)
    (hid : P c) :
    (∀ tok ∈ channelToken :: c :: levels decoded, P tok) ↔ ∀ l ∈ levels decoded, P l := by
  simp only [List.mem_cons, forall_eq_or_imp, hchannel, hid, true_and]

theorem isIDChar_of_blank {ch : Char} (hb : Blank ch) : isIDChar ch = false := by
  rcases hb with rfl | rfl | rfl | rfl | rfl <;> decide

theorem channelToken_clean : channelToken ≠ [] ∧ ∀ ch ∈ channelToken, ¬ Blank ch := by
  have hid : ∀ ch ∈ channelToken, isIDChar ch := by simp [channelToken, isIDChar]
  refine ⟨by decide, ?_⟩
  intro ch hin hb
  exact isIDChar_not_special hid (isIDChar_of_blank hb) hin

section WellFormed

variable {c decoded : Text} (hc : ∀ ch ∈ c, isIDChar ch)
  (hmal : ∀ l ∈ levels decoded, ¬ Malformed l)
include hc hmal

theorem wildcardsOk_iff (a : Action) :
    WildcardsOk a (channelToken :: c :: levels decoded) ↔ CleanWildcards a (levels decoded) := by
  have hstar : '*' ∉ c := isIDChar_not_special hc (by decide)
  have hmore : '>' ∉ c := isIDChar_not_special hc (by decide)
  have hpublish : (∀ tok ∈ channelToken :: c :: levels decoded, '*' ∉ tok ∧ '>' ∉ tok) ↔
      ∀ l ∈ levels decoded, l ≠ ['*'] ∧ l ≠ ['>'] := by
    rw [forall_tokens (by decide) ⟨hstar, hmore⟩]
    refine forall₂_congr fun l hl => and_congr (not_congr ⟨?_, ?_⟩) (not_congr ⟨?_, ?_⟩)
    · exact fun hin => wildcard_of_not_malformed (hmal l hl) hin (.inl rfl)
    · rintro rfl
      exact List.mem_singleton_self _
    · exact fun hin => wildcard_of_not_malformed (hmal l hl) hin (.inr rfl)
    · rintro rfl
      exact List.mem_singleton_self _
  cases a with
  | httpPublish => exact hpublish
  | wsPublish => exact hpublish
  | wsSubscribe =>
      have hwhole : ∀ tok ∈ channelToken :: c :: levels decoded,
          ('*' ∈ tok → tok = ['*']) ∧ ('>' ∈ tok → tok = ['>']) := by
        rw [forall_tokens (by decide) ⟨fun h => absurd h hstar, fun h => absurd h hmore⟩]
        exact fun l hl => ⟨fun hin => wildcard_of_not_malformed (hmal l hl) hin (.inl rfl),
          fun hin => wildcard_of_not_malformed (hmal l hl) hin (.inr rfl)⟩
      -- `>` may stand last, and the channel's own tokens are never `>`
      have hdrop : (∀ tok ∈ (channelToken :: c :: levels decoded).dropLast, tok ≠ ['>']) ↔
          ∀ l ∈ (levels decoded).dropLast, l ≠ ['>'] := by
        have hcne : c ≠ ['>'] := by
          rintro rfl
          exact hmore (List.mem_singleton_self _)
        have hchannel : channelToken ≠ ['>'] := by decide
        cases hls : levels decoded with
        | nil => simp [hchannel]
        | cons l ls => simp [hchannel, hcne]
      exact ⟨fun h => hdrop.mp h.2, fun h => ⟨hwhole, hdrop.mpr h⟩⟩

/-- The tokens of a subject are well formed exactly when its levels are clean. -/
theorem wellFormed_iff (a : Action) (hne : c ≠ []) :
    WellFormedSubject a c (fmtSubject c (['.'].intercalate (levels decoded))) ↔
      CleanLevels a (levels decoded) := by
  have hsplit := splitOn_fmtSubject (isIDChar_not_special hc (by decide)) decoded
  have htokens : (∀ tok ∈ channelToken :: c :: levels decoded, tok ≠ [] ∧ ∀ ch ∈ tok, ¬ Blank ch) ↔
      ∀ l ∈ levels decoded, ∀ ch ∈ l, ¬ Blank ch := by
    rw [forall_tokens channelToken_clean
      ⟨hne, fun ch hin hb => isIDChar_not_special hc (isIDChar_of_blank hb) hin⟩]
    exact forall₂_congr fun l hl => and_iff_right (levels_shape hl).1
  constructor
  · intro h
    have htok := h.tokens
    have hwild := h.wildcards
    rw [hsplit] at htok hwild
    exact ⟨htokens.mp htok, (wildcardsOk_iff hc hmal a).mp hwild⟩
  · intro h
    refine ⟨?_, ?_, ?_⟩
    · rw [hsplit]
      exact htokens.mpr h.blanks
    · rw [hsplit]
      exact (wildcardsOk_iff hc hmal a).mpr h.wildcards
    · exact ⟨levels decoded, hsplit⟩

end WellFormed

/-- **Exactly which request lines keep to well-formed subjects**: those that are
refused, and those whose decoded subtopic has no blank in it and wildcards only
where the action may have them. -/
theorem confined_iff (a : Action) (uri : Text) : Confined a uri ↔ CleanRequest a uri := by
  constructor
  · intro h id part decoded hpart hdecoded
    by_cases hmal : ∃ l ∈ levels decoded, Malformed l
    · exact .inl hmal
    · right
      have hno : ∀ l ∈ levels decoded, ¬ Malformed l := fun l hl hm => hmal ⟨l, hl, hm⟩
      obtain ⟨-, hid, hne, -⟩ := channelPart_eq_some hpart
      have hsubject := h (fun _ => true) id _ (subject_eq_some.mpr
        ⟨rfl, part, _, hpart, parseSubtopic_eq_some.mpr ⟨decoded, hdecoded, hno, rfl⟩, rfl⟩)
      exact (wellFormed_iff hid hno a hne).mp hsubject
  · intro h authorised c subject hsubject
    obtain ⟨-, part, subtopic, hpart, hsub, rfl⟩ := subject_eq_some.mp hsubject
    obtain ⟨decoded, hdecoded, hno, rfl⟩ := parseSubtopic_eq_some.mp hsub
    obtain ⟨-, hid, hne, -⟩ := channelPart_eq_some hpart
    rcases h c part decoded hpart hdecoded with ⟨l, hl, hm⟩ | hclean
    · exact absurd hm (hno l hl)
    · exact (wellFormed_iff hid hno a hne).mpr hclean

/-- `POST /channels/1/messages/a%20b`: the subject has a blank in it. -/
theorem publish_not_confined :
    ¬ Confined .httpPublish "/channels/1/messages/a%20b".toList := by
  intro h
  have hsubject : Action.subject (fun _ => true) .httpPublish "/channels/1/messages/a%20b".toList
      = some (['1'], "channel.1.a b".toList) := by decide +kernel
  have hblank := ((h _ _ _ hsubject).tokens ['a', ' ', 'b'] (by decide +kernel)).2 ' ' (by decide)
  exact hblank (.inl rfl)

end Mainflux.Messaging
