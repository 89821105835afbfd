/-
  Mainflux.Messaging.Sdk
  ──────────────────────
  **THE SDK'S TWO READINGS OF A CHANNEL NAME.**

  `SendMessage` and `ReadMessages` of the Go SDK take a name `<id>.<s1>…<sn>`
  and turn the dots behind the id into slashes: the one for the path of the HTTP
  adapter, which turns them back (`Messaging.Subject`), the other for the query
  parameter `subtopic` of the reader API, which does not.

    • `sameSubtopic_iff` — both mean the same subtopic exactly for names with at
      most one level behind the id;
    • `two_levels_differ` — the first name for which they do not.

  The SDK's base URL is that of the service itself; the prefix `http` of the
  adapter is cut off by the reverse proxy in front of it.
-/
import Mainflux.Messaging.Subject

namespace Mainflux.Messaging

open Mainflux.Lib

open Mainflux.Lib.Text

/-! ## §1. The requests of the SDK. -/

/-- `strings.SplitN(chanName, ".", 2)`. -/
def splitChanName (chanName : Text) : Text × Option Text :=
  (chanName.takeWhile (· ≠ '.'),
    match chanName.dropWhile (· ≠ '.') with
    | [] => none
    | _ :: rest => some rest)

def endpointStart : Text := ['c', 'h', 'a', 'n', 'n', 'e', 'l', 's', '/']

def subtopicQuery : Text := ['?', 's', 'u', 'b', 't', 'o', 'p', 'i', 'c', '=']

/-- The endpoint of `SendMessage`. -/
def sendEndpoint (chanName : Text) : Text :=
  let (chanID, rest) := splitChanName chanName
  let part := match rest with
    | none => []
    | some rest => '/' :: replaceAll '.' '/' rest
  endpointStart ++ chanID ++ messagesPart ++ part

/-- The endpoint of `ReadMessages`. -/
def readEndpoint (chanName : Text) : Text :=
  let (chanID, rest) := splitChanName chanName
  let part := match rest with
    | none => []
    | some rest => subtopicQuery ++ replaceAll '.' '/' rest
  endpointStart ++ chanID ++ messagesPart ++ part

/-- `url.shouldEscape` in a path. -/
def shouldEscape (c : Char) : Bool :=
  !(c.isAlphanum || "-_.~$&+,/:;=@".toList.contains c)

/-- `url.validEncodedPath`, character by character. -/
def validInPath (c : Char) : Bool := "!'()*[]%".toList.contains c || !shouldEscape c

/-- The upper-case digits of `url.escape`. -/
def upperHex (n : Nat) : Char := Char.ofNat (if n < 10 then 48 + n else 55 + n)

def escapeByte (c : Char) : Text :=
  if shouldEscape c then ['%', upperHex (c.toNat / 16), upperHex (c.toNat % 16)] else [c]

/-- `url.unescape` in a path. -/
def pathUnescape : Text → Option Text
  | [] => some []
  | '%' :: a :: b :: cs =>
      match hexVal a, hexVal b, pathUnescape cs with
      | some x, some y, some s => some (Char.ofNat (x.val * 16 + y) :: s)
      | _, _, _ => none
  | c :: cs => if c = '%' then none else (pathUnescape cs).map (c :: ·)

/-- `URL.EscapedPath` of a parsed URL. -/
def escapedPath (path : Text) : Option Text :=
  (pathUnescape path).map fun decoded =>
    if path.all validInPath then path else decoded.flatMap escapeByte

/-- Bytes that `url.Parse` refuses. -/
def isControl (c : Char) : Bool := c < ' ' || c == Char.ofNat 127

/-- `http.NewRequest` on `createURL`, and the request line that is sent. -/
def requestURI (endpoint : Text) : Option Text :=
  let url := ('/' :: endpoint).takeWhile (· ≠ '#')
  if url.any isControl then none
  else (escapedPath (url.takeWhile (· ≠ '?'))).map (· ++ url.dropWhile (· ≠ '?'))

/-! ## §2. The services. -/

/-- `decodeRequest` of the HTTP adapter: the channel and the subtopic of the
message. -/
def decodeRequest (uri : Text) : Option (Text × Text) :=
  match route uri, channelPart uri with
  | some chanID, some (_, part) => (parseSubtopic part).map fun subtopic => (chanID, subtopic)
  | _, _ => none

/-- The adapter publishes what it decodes when the channel is authorised. -/
theorem httpRequest_eq (authorised : Text → Bool) (uri : Text) :
    httpRequest authorised uri
      = (decodeRequest uri).bind fun (chanID, subtopic) =>
          if authorised chanID then some (chanID, fmtSubject chanID subtopic) else none := by
  unfold httpRequest decodeRequest
  cases route uri with
  | none => rfl
  | some chanID =>
      cases channelPart uri with
      | none => rfl
      | some groups =>
          simp only
          cases parseSubtopic groups.2 with
          | none => rfl
          | some subtopic => rfl

/-- One `key=value` of a query, unescaped. -/
def parsePair (pair : Text) : Option (Text × Text) :=
  match queryUnescape (pair.takeWhile (· ≠ '=')),
    queryUnescape ((pair.dropWhile (· ≠ '=')).drop 1) with
  | some key, some value => some (key, value)
  | _, _ => none

/-- `url.ParseQuery`; `none` for an error. -/
def parseQuery (query : Text) : Option (List (Text × Text)) :=
  ((query.splitOnP fun c => c = '&' || c = ';').filter (· ≠ [])).mapM parsePair

/-- `bone.GetQuery`: the values of a key, each split at its commas. -/
def getQuery (uri key : Text) : List Text :=
  match parseQuery ((uri.dropWhile (· ≠ '?')).drop 1) with
  | none => []
  | some pairs => (pairs.filter (·.1 = key)).flatMap fun pair => pair.2.splitOn ','

/-- `decodeList` of the reader API, behind the route `/channels/:chanID/messages`:
the channel and the filter on the subtopic. -/
def decodeList (uri : Text) : Option (Text × Option Text) :=
  match (uri.takeWhile (· ≠ '?')).splitOn '/' with
  | [_, channels, id, messages] =>
      let chanID := (queryUnescape id).getD []
      if channels = ['c', 'h', 'a', 'n', 'n', 'e', 'l', 's'] ∧
          messages = ['m', 'e', 's', 's', 'a', 'g', 'e', 's'] ∧ chanID ≠ [] then
        match getQuery uri ['s', 'u', 'b', 't', 'o', 'p', 'i', 'c'] with
        | [value] => some (chanID, some value)
        | _ => some (chanID, none)
      else none
  | _ => none

/-! ## §3. The same subtopic. -/

/-- Neither a wildcard nor a character with a meaning in a URL, nor one that no
URL can hold. -/
def isPlain (c : Char) : Bool :=
  decide (c.toNat < 256) && decide (' ' < c) && c != Char.ofNat 127 &&
    !"%?#[]@!$&'()*+,;=:/>.".toList.contains c

/-- A channel name `<id>.<s1>…<sn>`. -/
structure ChanName where
  id : Text
  tokens : List Text
  id_ne : id ≠ []
  id_chars : ∀ c ∈ id, isIDChar c
  token_ne : ∀ tok ∈ tokens, tok ≠ []
  token_chars : ∀ tok ∈ tokens, ∀ c ∈ tok, isPlain c

def ChanName.text (n : ChanName) : Text := ['.'].intercalate (n.id :: n.tokens)

/-- **What is sent under a name is what is read under it**: the reader filters by
the subtopic of the message, and does not filter where there is none. -/
def SameSubtopic (n : ChanName) : Prop :=
  ∃ sent read subtopic,
    requestURI (sendEndpoint n.text) = some sent ∧ decodeRequest sent = some (n.id, subtopic) ∧
      requestURI (readEndpoint n.text) = some read ∧
      decodeList read = some (n.id, if subtopic = [] then none else some subtopic)

/-! ## §4. Escaping. -/

section Escaping

theorem hexVal_upperHex : ∀ k : Fin 16, hexVal (upperHex k) = some k := by decide

/-- Escaping for a path is undone by `url.QueryUnescape`, but for the plus sign. -/
theorem queryUnescape_escape {s : Text} (h : ∀ c ∈ s, c.toNat < 256 ∧ c ≠ '%' ∧ c ≠ '+') :
    queryUnescape (s.flatMap escapeByte) = some s := by
  induction s with
  | nil => rfl
  | cons c s ih =>
      obtain ⟨hbyte, hpercent, hplus⟩ := h c List.mem_cons_self
      have hs := ih fun x hx => h x (List.mem_cons_of_mem _ hx)
      rw [List.flatMap_cons, escapeByte]
      by_cases hesc : shouldEscape c
      · have hhi := hexVal_upperHex ⟨c.toNat / 16, by omega⟩
        have hlo := hexVal_upperHex ⟨c.toNat % 16, by omega⟩
        have hback : Char.ofNat (c.toNat / 16 * 16 + c.toNat % 16) = c := by
          rw [Nat.div_add_mod', Char.ofNat_toNat]
        rw [if_pos hesc]
        simp only [List.cons_append, List.nil_append, queryUnescape, hhi, hlo, hs, hback]
      · rw [if_neg hesc, List.singleton_append, queryUnescape, if_neg hpercent, hs, Option.map_some,
          if_neg hplus]
        intro a b cs hc _
        exact hpercent hc

theorem pathUnescape_self {s : Text} (h : '%' ∉ s) : pathUnescape s = some s := by
  induction s with
  | nil => rfl
  | cons c s ih =>
      have hc : c ≠ '%' := fun heq => h (heq ▸ List.mem_cons_self)
      rw [pathUnescape, ih fun hin => h (List.mem_cons_of_mem _ hin), if_neg hc, Option.map_some]
      intro a b cs heq _
      exact hc heq

theorem escapeByte_id {s : Text} (h : ∀ c ∈ s, isIDChar c ∨ c = '/') :
    s.flatMap escapeByte = s := by
  induction s with
  | nil => rfl
  | cons c s ih =>
      have hc : shouldEscape c = false := by
        rcases h c List.mem_cons_self with hid | rfl
        · simp only [isIDChar, Bool.or_eq_true, beq_iff_eq] at hid
          rcases hid with (halnum | rfl) | rfl
          · simp [shouldEscape, halnum]
          · decide
          · decide
        · decide
      rw [List.flatMap_cons, escapeByte, hc, if_neg (by decide),
        ih fun x hx => h x (List.mem_cons_of_mem _ hx)]
      rfl

theorem question_not_mem_escape {s : Text} (h : ∀ c ∈ s, c.toNat < 256 ∧ c ≠ '?') :
    '?' ∉ s.flatMap escapeByte := by
  intro hin
  obtain ⟨c, hc, hin⟩ := List.mem_flatMap.mp hin
  obtain ⟨hbyte, hne⟩ := h c hc
  have hdigit : ∀ k : Fin 16, upperHex k ≠ '?' := by decide
  unfold escapeByte at hin
  split at hin
  next =>
      simp only [List.mem_cons, List.not_mem_nil, or_false] at hin
      rcases hin with hin | hin | hin
      · exact absurd hin (by decide)
      · exact hdigit ⟨c.toNat / 16, by omega⟩ hin.symm
      · exact hdigit ⟨c.toNat % 16, by omega⟩ hin.symm
  next => exact hne (List.mem_singleton.mp hin).symm

/-- The path of a message: its fixed parts are not escaped, and its tail is read
back as it was. -/
theorem escapedPath_message {id tail : Text} (hid : ∀ c ∈ id, isIDChar c)
    (htail : ∀ c ∈ tail, c.toNat < 256 ∧ c ≠ '%' ∧ c ≠ '+' ∧ c ≠ '?') :
    ∃ tail', escapedPath (channelsPart ++ (id ++ (messagesPart ++ tail)))
        = some (channelsPart ++ (id ++ (messagesPart ++ tail'))) ∧
      queryUnescape tail' = some tail ∧ '?' ∉ tail' ∧
      (tail' = tail ∨ tail' = tail.flatMap escapeByte) := by
  have hno : '%' ∉ channelsPart ++ (id ++ (messagesPart ++ tail)) := by
    simp only [List.mem_append, not_or]
    exact ⟨by decide, fun h => absurd (hid _ h) (by decide), by decide,
      fun h => (htail _ h).2.1 rfl⟩
  have hchannels : ∀ c ∈ channelsPart, isIDChar c ∨ c = '/' := forall_mem_of_all (by decide)
  have hmessages : ∀ c ∈ messagesPart, isIDChar c ∨ c = '/' := forall_mem_of_all (by decide)
  have hflat : (channelsPart ++ (id ++ (messagesPart ++ tail))).flatMap escapeByte
      = channelsPart ++ (id ++ (messagesPart ++ tail.flatMap escapeByte)) := by
    rw [List.flatMap_append, List.flatMap_append, List.flatMap_append,
      escapeByte_id hchannels, escapeByte_id fun c hc => .inl (hid c hc), escapeByte_id hmessages]
  rw [escapedPath, pathUnescape_self hno, Option.map_some, hflat]
  split
  · refine ⟨tail, rfl, queryUnescape_self fun c hc => ?_, fun h => (htail _ h).2.2.2 rfl, .inl rfl⟩
    exact ⟨(htail c hc).2.1, (htail c hc).2.2.1⟩
  · refine ⟨tail.flatMap escapeByte, rfl, queryUnescape_escape fun c hc => ?_,
      question_not_mem_escape fun c hc => ?_, .inr rfl⟩
    · exact ⟨(htail c hc).1, (htail c hc).2.1, (htail c hc).2.2.1⟩
    · exact ⟨(htail c hc).1, (htail c hc).2.2.2⟩

end Escaping

/-! ## §5. What the services make of a name. -/

section Names

variable (n : ChanName)

/-- The levels of a name, as both endpoints write them. -/
def ChanName.slashed (n : ChanName) : Text := ['/'].intercalate n.tokens

theorem isPlain_ne {c : Char} (h : isPlain c) (x : Char) (hx : isPlain x = false) : c ≠ x := by
  rintro rfl
  rw [h] at hx
  cases hx

theorem token_dot : ∀ tok ∈ n.tokens, '.' ∉ tok := fun tok htok hin =>
  isPlain_ne (n.token_chars tok htok _ hin) '.' (by decide) rfl

theorem splitChanName_text :
    splitChanName n.text
      = (n.id, if n.tokens = [] then none else some (['.'].intercalate n.tokens)) := by
  have hdot : '.' ∉ n.id := isIDChar_not_special n.id_chars (by decide)
  have hid := decide_ne_of_not_mem hdot
  unfold splitChanName ChanName.text
  cases htokens : n.tokens with
  | nil =>
      have hall : n.id.takeWhile (· ≠ '.') = n.id := List.takeWhile_eq_self_iff.mpr hid
      have hnone : n.id.dropWhile (· ≠ '.') = [] := List.dropWhile_eq_nil_iff.mpr hid
      rw [List.intercalate_singleton, hall, hnone]
      rfl
  | cons tok tokens =>
      rw [List.intercalate_cons_cons, List.append_assoc, List.takeWhile_append_of_pos hid,
        List.dropWhile_append_of_pos hid]
      simp

/-- The path of both requests behind the channel id. -/
def ChanName.part (n : ChanName) : Text := if n.tokens = [] then [] else '/' :: n.slashed

theorem sendEndpoint_text :
    '/' :: sendEndpoint n.text = channelsPart ++ (n.id ++ (messagesPart ++ n.part)) := by
  rw [sendEndpoint, splitChanName_text, ChanName.part]
  by_cases h : n.tokens = []
  · simp only [if_pos h, List.append_assoc]
    rfl
  · simp only [if_neg h, List.append_assoc, replaceAll_intercalate '/' (token_dot n)]
    rfl

theorem readEndpoint_text :
    '/' :: readEndpoint n.text
      = channelsPart ++ (n.id ++ (messagesPart ++
          if n.tokens = [] then [] else subtopicQuery ++ n.slashed)) := by
  rw [readEndpoint, splitChanName_text]
  by_cases h : n.tokens = []
  · simp only [if_pos h, List.append_assoc]
    rfl
  · simp only [if_neg h, List.append_assoc, replaceAll_intercalate '/' (token_dot n)]
    rfl

/-- A character of the levels is a slash or plain. -/
theorem slashed_chars {c : Char} (h : c ∈ n.slashed) : c = '/' ∨ isPlain c := by
  rcases mem_of_mem_intercalate h with h | ⟨tok, htok, hc⟩
  · exact .inl h
  · exact .inr (n.token_chars tok htok c hc)

theorem slashed_ne {c : Char} (h : c ∈ n.slashed) (x : Char) (hx : isPlain x = false)
    (hslash : x ≠ '/') : c ≠ x := by
  rcases slashed_chars n h with rfl | hc
  · exact hslash.symm
  · exact isPlain_ne hc x hx

theorem slashed_byte {c : Char} (h : c ∈ n.slashed) : c.toNat < 256 ∧ isControl c = false := by
  rcases slashed_chars n h with rfl | hc
  · decide
  · simp only [isPlain, Bool.and_eq_true, decide_eq_true_eq, bne_iff_ne] at hc
    obtain ⟨⟨⟨hbyte, hblank⟩, hdel⟩, -⟩ := hc
    refine ⟨hbyte, ?_⟩
    simp only [isControl, Bool.or_eq_false_iff, decide_eq_false_iff_not, beq_eq_false_iff_ne]
    exact ⟨fun h => Char.lt_irrefl _ (Char.lt_trans h hblank), hdel⟩

/-- A request for a path and a query that need no cutting. -/
theorem requestURI_eq {endpoint path query : Text} (hurl : '/' :: endpoint = path ++ query)
    (hchars : ∀ c ∈ path ++ query, c ≠ '#' ∧ isControl c = false) (hpath : '?' ∉ path)
    (hquery : query = [] ∨ ∃ q, query = '?' :: q) :
    requestURI endpoint = (escapedPath path).map (· ++ query) := by
  have hall : (path ++ query).takeWhile (· ≠ '#') = path ++ query :=
    List.takeWhile_eq_self_iff.mpr fun c hc => by simpa using (hchars c hc).1
  have hcontrol : (path ++ query).any isControl = false := by
    rw [List.any_eq_false]
    intro c hc
    rw [(hchars c hc).2]
    decide
  have hpos := decide_ne_of_not_mem hpath
  have hcut : query.takeWhile (· ≠ '?') = [] ∧ query.dropWhile (· ≠ '?') = query := by
    rcases hquery with rfl | ⟨q, rfl⟩
    · exact ⟨rfl, rfl⟩
    · simp
  simp only [requestURI, hurl, hall, hcontrol, List.takeWhile_append_of_pos hpos,
    List.dropWhile_append_of_pos hpos, hcut, List.append_nil]
  rfl

/-- The regular expression on a request line of the documented form. -/
theorem channelPart_of_shape {id part : Text} (hne : id ≠ []) (hid : ∀ c ∈ id, isIDChar c)
    (hpart : part = [] ∨ ∃ r, part = '/' :: r) (hno : '?' ∉ part) :
    channelPart (channelsPart ++ (id ++ (messagesPart ++ part))) = some (id, part) := by
  have htail : subtopicPart part = part ∧ queryPart part = [] := by
    rcases hpart with rfl | ⟨r, rfl⟩
    · exact ⟨rfl, rfl⟩
    · have hall : ∀ c ∈ r, decide (c ≠ '?') = true :=
        decide_ne_of_not_mem fun hin => hno (List.mem_cons_of_mem _ hin)
      rw [subtopicPart, queryPart, if_pos rfl, if_pos rfl, List.takeWhile_eq_self_iff.mpr hall,
        List.dropWhile_eq_nil_iff.mpr hall]
      exact ⟨rfl, rfl⟩
  have hcut : (messagesPart ++ part).takeWhile isIDChar = [] ∧
      (messagesPart ++ part).dropWhile isIDChar = messagesPart ++ part := ⟨rfl, rfl⟩
  rw [channelPart, dropPrefix?_eq_some.mpr rfl]
  simp only [List.takeWhile_append_of_pos hid, List.dropWhile_append_of_pos hid, hcut,
    dropPrefix?_eq_some.mpr rfl, List.append_nil, htail]
  rw [if_pos ⟨hne, rfl⟩]

theorem part_chars {c : Char} (h : c ∈ n.part) :
    c.toNat < 256 ∧ c ≠ '%' ∧ c ≠ '+' ∧ c ≠ '?' ∧ c ≠ '#' ∧ isControl c = false := by
  unfold ChanName.part at h
  split at h
  · cases h
  · rcases List.mem_cons.mp h with rfl | h
    · decide
    · obtain ⟨hbyte, hcontrol⟩ := slashed_byte n h
      exact ⟨hbyte, slashed_ne n h _ (by decide) (by decide), slashed_ne n h _ (by decide) (by decide),
        slashed_ne n h _ (by decide) (by decide), slashed_ne n h _ (by decide) (by decide), hcontrol⟩

theorem isControl_of_isIDChar {c : Char} (h : isIDChar c) : isControl c = false := by
  simp only [isIDChar, Bool.or_eq_true, beq_iff_eq] at h
  rcases h with (h | rfl) | rfl
  · -- letters and digits lie above the blank and below the last of the bytes
    have hranges : ((decide (c.val ≥ 65 ∧ c.val ≤ 90) || (c.val ≥ 97 && c.val ≤ 122)) ||
        (c.val ≥ 48 && c.val ≤ 57)) = true := h
    simp only [Bool.or_eq_true, Bool.and_eq_true, decide_eq_true_eq, ge_iff_le,
      UInt32.le_iff_toNat_le] at hranges
    simp only [isControl, Bool.or_eq_false_iff, decide_eq_false_iff_not, beq_eq_false_iff_ne]
    refine ⟨fun hlt => ?_, ?_⟩
    · have hlt : c.toNat < 32 := hlt
      simp at hranges
      omega
    · rintro rfl
      simp at hranges
  · decide
  · decide

theorem base_chars {c : Char} (h : c ∈ channelsPart ++ (n.id ++ messagesPart)) :
    c ≠ '#' ∧ c ≠ '?' ∧ isControl c = false := by
  have hfixed : ∀ c ∈ channelsPart ++ messagesPart, c ≠ '#' ∧ c ≠ '?' ∧ isControl c = false :=
    forall_mem_of_all (by decide)
  rcases List.mem_append.mp h with h | h
  · exact hfixed c (List.mem_append_left _ h)
  · rcases List.mem_append.mp h with h | h
    · have hid := n.id_chars c h
      refine ⟨fun heq => ?_, fun heq => ?_, isControl_of_isIDChar hid⟩
      · subst heq
        exact absurd hid (by decide)
      · subst heq
        exact absurd hid (by decide)
    · exact hfixed c (List.mem_append_right _ h)

theorem levels_part : levels n.part = n.tokens := by
  unfold levels ChanName.part
  by_cases h : n.tokens = []
  · rw [if_pos h, h]
    rfl
  · have hslash : ∀ tok ∈ n.tokens, '/' ∉ tok := fun tok htok hin =>
      isPlain_ne (n.token_chars tok htok _ hin) '/' (by decide) rfl
    have hdots : replaceAll '/' '.' ('/' :: n.slashed) = '.' :: ['.'].intercalate n.tokens := by
      rw [← replaceAll_intercalate '.' hslash]
      rfl
    have hsplit : ('.' :: ['.'].intercalate n.tokens).splitOn '.' = [] :: n.tokens := by
      rw [← List.nil_append ('.' :: _), List.splitOn_append_cons_self_of_not_mem List.not_mem_nil,
        List.splitOn_intercalate '.' (token_dot n) h]
    rw [if_neg h, hdots, hsplit, List.filter_cons_of_neg (by simp), List.filter_eq_self]
    intro tok htok
    simpa using n.token_ne tok htok

/-- **The HTTP adapter publishes under the dot-joined levels.** -/
theorem sent_subtopic :
    ∃ sent, requestURI (sendEndpoint n.text) = some sent ∧
      decodeRequest sent = some (n.id, ['.'].intercalate n.tokens) := by
  have htail : ∀ c ∈ n.part, c.toNat < 256 ∧ c ≠ '%' ∧ c ≠ '+' ∧ c ≠ '?' := by
    intro c hc
    obtain ⟨hbyte, hpercent, hplus, hquestion, -⟩ := part_chars n hc
    exact ⟨hbyte, hpercent, hplus, hquestion⟩
  have hchars : ∀ c ∈ channelsPart ++ (n.id ++ (messagesPart ++ n.part)),
      c ≠ '#' ∧ c ≠ '?' ∧ isControl c = false := by
    intro c hc
    rw [← List.append_assoc n.id, ← List.append_assoc channelsPart, List.mem_append] at hc
    rcases hc with hc | hc
    · exact base_chars n hc
    · obtain ⟨-, -, -, hquestion, hhash, hcontrol⟩ := part_chars n hc
      exact ⟨hhash, hquestion, hcontrol⟩
  obtain ⟨tail', hescaped, hback, hquestion, hshape⟩ := escapedPath_message n.id_chars htail
  have hrequest : requestURI (sendEndpoint n.text)
      = (escapedPath (channelsPart ++ (n.id ++ (messagesPart ++ n.part)))).map (· ++ []) := by
    refine requestURI_eq ?_ ?_ (fun hin => (hchars _ hin).2.1 rfl) (.inl rfl)
    · rw [List.append_nil, sendEndpoint_text]
    · rw [List.append_nil]
      exact fun c hc => ⟨(hchars c hc).1, (hchars c hc).2.2⟩
  refine ⟨_, by rw [hrequest, hescaped, Option.map_some, List.append_nil], ?_⟩
  have hpart : tail' = [] ∨ ∃ r, tail' = '/' :: r := by
    unfold ChanName.part at hshape
    split at hshape
    · exact .inl (by simpa using hshape)
    · rcases hshape with h | h
      · exact .inr ⟨_, h⟩
      · exact .inr ⟨_, h⟩
  have hgroups := channelPart_of_shape n.id_ne n.id_chars hpart hquestion
  have hclean : ∀ l ∈ levels n.part, ¬ Malformed l := by
    rw [levels_part]
    rintro tok htok ⟨-, h | h⟩
    · exact isPlain_ne (n.token_chars tok htok _ h) '*' (by decide) rfl
    · exact isPlain_ne (n.token_chars tok htok _ h) '>' (by decide) rfl
  have hsubtopic := parseSubtopic_eq_some.mpr ⟨n.part, hback, hclean, rfl⟩
  rw [decodeRequest, route_of_channelPart hgroups, hgroups]
  simp only
  rw [hsubtopic, levels_part, Option.map_some]

/-- The query of `ReadMessages`. -/
def ChanName.query (n : ChanName) : Text := if n.tokens = [] then [] else subtopicQuery ++ n.slashed

theorem query_chars {c : Char} (h : c ∈ n.query) : c ≠ '#' ∧ isControl c = false := by
  have hfixed : ∀ c ∈ subtopicQuery, c ≠ '#' ∧ isControl c = false :=
    forall_mem_of_all (by decide)
  unfold ChanName.query at h
  split at h
  · cases h
  · rcases List.mem_append.mp h with h | h
    · exact hfixed c h
    · exact ⟨slashed_ne n h _ (by decide) (by decide), (slashed_byte n h).2⟩

/-- One pair with the key `subtopic`, whose value holds nothing to decode or to
split at. -/
theorem parseQuery_slashed :
    parseQuery ((subtopicQuery ++ n.slashed).drop 1)
      = some [(['s', 'u', 'b', 't', 'o', 'p', 'i', 'c'], n.slashed)] := by
  have hpair : (subtopicQuery ++ n.slashed).drop 1
      = ['s', 'u', 'b', 't', 'o', 'p', 'i', 'c', '='] ++ n.slashed := rfl
  have hkey : ∀ c ∈ ['s', 'u', 'b', 't', 'o', 'p', 'i', 'c', '='],
      (c = '&' || c = ';' : Bool) = false := forall_mem_of_all (by decide)
  have hseparators : ∀ c ∈ ['s', 'u', 'b', 't', 'o', 'p', 'i', 'c', '='] ++ n.slashed,
      (c = '&' || c = ';' : Bool) = false := by
    intro c hc
    rcases List.mem_append.mp hc with hc | hc
    · exact hkey c hc
    · simp [slashed_ne n hc '&' (by decide) (by decide), slashed_ne n hc ';' (by decide) (by decide)]
  have hvalue : queryUnescape n.slashed = some n.slashed := queryUnescape_self fun c hc =>
    ⟨slashed_ne n hc '%' (by decide) (by decide), slashed_ne n hc '+' (by decide) (by decide)⟩
  have hparse : parsePair (['s', 'u', 'b', 't', 'o', 'p', 'i', 'c', '='] ++ n.slashed)
      = some (['s', 'u', 'b', 't', 'o', 'p', 'i', 'c'], n.slashed) := by
    simp [parsePair, hvalue, queryUnescape]
  rw [hpair, parseQuery, List.splitOnP_eq_singleton hseparators, List.filter_cons_of_pos (by simp),
    List.filter_nil, List.mapM_cons, hparse, List.mapM_nil]
  rfl

/-- The values of the key `subtopic`. -/
theorem getQuery_query {path : Text} (hpath : '?' ∉ path) :
    getQuery (path ++ n.query) ['s', 'u', 'b', 't', 'o', 'p', 'i', 'c']
      = if n.tokens = [] then [] else [n.slashed] := by
  have hpos := decide_ne_of_not_mem hpath
  unfold getQuery ChanName.query
  rw [List.dropWhile_append_of_pos hpos]
  by_cases htokens : n.tokens = []
  · simp only [if_pos htokens]
    rfl
  · have hcut : (subtopicQuery ++ n.slashed).dropWhile (· ≠ '?') = subtopicQuery ++ n.slashed := rfl
    have hcomma : ',' ∉ n.slashed := fun hin => slashed_ne n hin ',' (by decide) (by decide) rfl
    rw [if_neg htokens, if_neg htokens, hcut, parseQuery_slashed]
    simp [List.splitOn_eq_singleton hcomma]

theorem takeWhile_query_part {path : Text} (hpath : '?' ∉ path) :
    (path ++ n.query).takeWhile (· ≠ '?') = path := by
  have hpos := decide_ne_of_not_mem hpath
  have hcut : n.query.takeWhile (· ≠ '?') = [] := by
    unfold ChanName.query
    split
    · rfl
    · rfl
  rw [List.takeWhile_append_of_pos hpos, hcut, List.append_nil]

theorem splitOn_base :
    (channelsPart ++ (n.id ++ messagesPart)).splitOn '/'
      = [[], ['c', 'h', 'a', 'n', 'n', 'e', 'l', 's'], n.id,
          ['m', 'e', 's', 's', 'a', 'g', 'e', 's']] := by
  have hslash : '/' ∉ n.id := isIDChar_not_special n.id_chars (by decide)
  have hshape : channelsPart ++ (n.id ++ messagesPart)
      = [] ++ '/' :: (['c', 'h', 'a', 'n', 'n', 'e', 'l', 's'] ++ '/' ::
          (n.id ++ '/' :: ['m', 'e', 's', 's', 'a', 'g', 'e', 's'])) := by
    simp [channelsPart, messagesPart]
  rw [hshape, List.splitOn_append_cons_self_of_not_mem (by decide),
    List.splitOn_append_cons_self_of_not_mem (by decide),
    List.splitOn_append_cons_self_of_not_mem hslash, List.splitOn_eq_singleton (by decide)]

theorem queryUnescape_id : queryUnescape n.id = some n.id := by
  refine queryUnescape_self fun c hc => ⟨?_, ?_⟩
  · rintro rfl
    exact absurd (n.id_chars _ hc) (by decide)
  · rintro rfl
    exact absurd (n.id_chars _ hc) (by decide)

/-- **The reader filters by the slash-joined levels.** -/
theorem read_subtopic :
    ∃ read, requestURI (readEndpoint n.text) = some read ∧
      decodeList read = some (n.id, if n.tokens = [] then none else some n.slashed) := by
  have hbase : '?' ∉ channelsPart ++ (n.id ++ messagesPart) := fun hin =>
    (base_chars n hin).2.1 rfl
  have hrequest : requestURI (readEndpoint n.text)
      = (escapedPath (channelsPart ++ (n.id ++ messagesPart))).map (· ++ n.query) := by
    refine requestURI_eq ?_ ?_ hbase ?_
    · rw [readEndpoint_text, ChanName.query]
      simp only [List.append_assoc]
    · intro c hc
      rcases List.mem_append.mp hc with hc | hc
      · exact ⟨(base_chars n hc).1, (base_chars n hc).2.2⟩
      · exact query_chars n hc
    · unfold ChanName.query
      split
      · exact .inl rfl
      · exact .inr ⟨_, rfl⟩
  obtain ⟨tail', hescaped, -, -, htail⟩ :=
    @escapedPath_message n.id [] n.id_chars fun c hc => absurd hc List.not_mem_nil
  obtain rfl : tail' = [] := by simpa using htail
  rw [List.append_nil] at hescaped
  refine ⟨_, by rw [hrequest, hescaped, Option.map_some], ?_⟩
  rw [decodeList, takeWhile_query_part n hbase, splitOn_base n]
  simp only [queryUnescape_id n, Option.getD_some, getQuery_query n hbase]
  rw [if_pos ⟨trivial, trivial, n.id_ne⟩]
  by_cases htokens : n.tokens = []
  · simp only [if_pos htokens]
  · simp only [if_neg htokens]

end Names

/-! ## §6. When the two readings are one. -/

/-- Two levels are joined by a slash in the filter, and by no slash in the
subtopic. -/
theorem slash_mem_slashed {n : ChanName} (h : 1 < n.tokens.length) : '/' ∈ n.slashed := by
  unfold ChanName.slashed
  match htokens : n.tokens with
  | [] => simp [htokens] at h
  | [tok] => simp [htokens] at h
  | tok :: tok' :: tokens =>
      rw [List.intercalate_cons_cons]
      simp

theorem slash_not_mem_dotted (n : ChanName) : '/' ∉ ['.'].intercalate n.tokens := by
  intro hin
  rcases mem_of_mem_intercalate hin with h | ⟨tok, htok, hc⟩
  · exact absurd h (by decide)
  · exact isPlain_ne (n.token_chars tok htok _ hc) '/' (by decide) rfl

theorem dotted_eq_nil (n : ChanName) : ['.'].intercalate n.tokens = [] ↔ n.tokens = [] := by
  constructor
  · intro h
    by_contra hne
    have hsplit := List.splitOn_intercalate '.' (token_dot n) hne
    rw [h] at hsplit
    exact n.token_ne [] (hsplit ▸ by simp) rfl
  · intro h
    rw [h]
    rfl

/-- The two requests agree when the filter is the subtopic. -/
theorem sameSubtopic_iff_joins (n : ChanName) :
    SameSubtopic n ↔ n.tokens = [] ∨ n.slashed = ['.'].intercalate n.tokens := by
  obtain ⟨sent, hsent, hpublished⟩ := sent_subtopic n
  obtain ⟨read, hread, hfilter⟩ := read_subtopic n
  constructor
  · rintro ⟨sent', read', subtopic, hsent', hpublished', hread', hfilter'⟩
    obtain rfl : sent = sent' := Option.some.inj (hsent.symm.trans hsent')
    obtain rfl : read = read' := Option.some.inj (hread.symm.trans hread')
    obtain rfl : ['.'].intercalate n.tokens = subtopic := by
      rw [hpublished] at hpublished'
      simpa using hpublished'
    rw [hfilter] at hfilter'
    by_cases htokens : n.tokens = []
    · exact .inl htokens
    · rw [if_neg htokens, if_neg (mt (dotted_eq_nil n).mp htokens)] at hfilter'
      exact .inr (by simpa using hfilter')
  · intro h
    refine ⟨sent, read, _, hsent, hpublished, hread, hfilter.trans ?_⟩
    by_cases htokens : n.tokens = []
    · rw [if_pos htokens, if_pos ((dotted_eq_nil n).mpr htokens)]
    · rw [if_neg htokens, if_neg (mt (dotted_eq_nil n).mp htokens), h.resolve_left htokens]

/-- **The SDK reads what it sends exactly for names with at most one level**: the
path of the message has its slashes turned back into dots, the query does not. -/
theorem sameSubtopic_iff (n : ChanName) : SameSubtopic n ↔ n.tokens.length ≤ 1 := by
  rw [sameSubtopic_iff_joins]
  constructor
  · intro h
    by_contra hlen
    rcases h with h | h
    · simp [h] at hlen
    · have hslash := slash_mem_slashed (n := n) (by omega)
      rw [h] at hslash
      exact slash_not_mem_dotted n hslash
  · intro hlen
    unfold ChanName.slashed
    match htokens : n.tokens with
    | [] => exact .inl rfl
    | [tok] =>
        refine .inr ?_
        rw [List.intercalate_singleton, List.intercalate_singleton]
    | tok :: tok' :: tokens => simp [htokens] at hlen

/-- The name `1.a.b`. -/
def twoLevels : ChanName where
  id := ['1']
  tokens := [['a'], ['b']]
  id_ne := by decide
  id_chars := forall_mem_of_all (by decide)
  token_ne := by decide
  token_chars := by
    intro tok htok
    simp only [List.mem_cons, List.not_mem_nil, or_false] at htok
    rcases htok with rfl | rfl
    · exact forall_mem_of_all (by decide)
    · exact forall_mem_of_all (by decide)

/-- A message sent under `1.a.b` has the subtopic `a.b`, and is looked for under
`a/b`. -/
theorem two_levels_differ :
    twoLevels.text = ['1', '.', 'a', '.', 'b'] ∧
      (requestURI (sendEndpoint twoLevels.text)).bind decodeRequest
        = some (['1'], ['a', '.', 'b']) ∧
      (requestURI (readEndpoint twoLevels.text)).bind decodeList
        = some (['1'], some ['a', '/', 'b']) ∧
      ¬ SameSubtopic twoLevels := by
  refine ⟨by decide, by decide, by decide, ?_⟩
  rw [sameSubtopic_iff_joins]
  decide

end Mainflux.Messaging
