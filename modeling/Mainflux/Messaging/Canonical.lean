/-
  Mainflux.Messaging.Canonical
  ────────────────────────────
  **THREE ADAPTERS, ONE SUBTOPIC.**

  The HTTP and the WebSocket adapter parse what follows `/messages` in the request line,
  the CoAP adapter what follows the third slash of the message's path.  What they make
  of it is the list of the tokens between slashes and dots, joined by dots.

    • `parseSubtopic_iff`, `fmtSubtopic_iff` — what each of them accepts, and as what;
    • `subtopic_of_path` — counting slashes finds the suffix;
    • `tokens_join` — a join can be taken apart again;
    • `subtopics_alike` — the adapters agree, on one name for each list of tokens.
-/
import Mainflux.Coap.Transport

namespace Mainflux.Messaging

open Mainflux.Lib

open Mainflux.Lib.Text

open Mainflux.Coap.Api (fmtSubtopic subtopic subtopicFrom)

/-! ## §1. The adapters. -/

/-- `parseSubtopic` of the HTTP adapter. -/
def Http.parseSubtopic : Text → Option Text := Messaging.parseSubtopic

/-- `parseSubtopic` of the WebSocket adapter, line by line the same. -/
def Ws.parseSubtopic : Text → Option Text := Messaging.parseSubtopic

/-- A suffix that escaping leaves alone. -/
def PlainSuffix (s : Text) : Prop := ∀ c ∈ s, c ≠ '%' ∧ c ≠ '+' ∧ c ≠ '?'

/-- A suffix as it stands in a path, behind a slash. -/
def slashed (s : Text) : Text := if s = [] ∨ s.head? = some '/' then s else '/' :: s

/-- The path of a CoAP message with that suffix. -/
def messagePath (chanID s : Text) : Text :=
  ['c', 'h', 'a', 'n', 'n', 'e', 'l', 's'] ++ '/' ::
    (chanID ++ '/' :: (['m', 'e', 's', 's', 'a', 'g', 'e', 's'] ++ slashed s))

/-- The non-empty tokens between slashes and dots. -/
def tokens (s : Text) : List Text := (s.splitOnP fun c => c = '/' || c = '.').filter (· ≠ [])

/-- Non-empty tokens joined by dots, with wildcards as whole tokens only. -/
def CanonicalSubtopic (r : Text) : Prop :=
  ∃ toks : List Text, r = ['.'].intercalate toks ∧
    ∀ tok ∈ toks, tok ≠ [] ∧ '.' ∉ tok ∧ ('*' ∈ tok → tok = ['*']) ∧ ('>' ∈ tok → tok = ['>'])

/-! ## §2. Tokens. -/

section Tokens

variable {s r tok : Text}

theorem tokens_eq_levels (s : Text) : tokens s = levels s := by
  rw [tokens, levels, splitOn_replaceAll]

theorem mem_of_mem_tokens {c : Char} (h : tok ∈ tokens s) (hc : c ∈ tok) :
    (c ∈ s ∨ c = '.') ∧ c ≠ '/' ∧ c ≠ '.' := by
  rw [tokens_eq_levels] at h
  have hdot : '.' ∉ tok := (levels_shape h).2
  -- slashes were made dots before the text was split
  rw [levels, List.mem_filter] at h
  have hin : c ∈ replaceAll '/' '.' s := mem_of_mem_splitOn h.1 hc
  refine ⟨?_, ?_, fun heq => hdot (heq ▸ hc)⟩
  · obtain ⟨x, hx, heq⟩ := List.mem_map.mp hin
    split at heq
    next => exact .inr heq.symm
    next => exact .inl (heq ▸ hx)
  · intro heq
    exact not_mem_replaceAll (by decide) s (heq ▸ hin)

/-- A token with a wildcard in it that is well formed is the wildcard. -/
theorem eq_of_mem_wildcard {w : Char} (hw : w = '*' ∨ w = '>') (hne : ¬ Malformed tok)
    (hin : w ∈ tok) : tok = [w] := by
  have hlen : tok.length ≤ 1 := by
    by_contra hlong
    refine hne ⟨Nat.lt_of_not_le hlong, ?_⟩
    rcases hw with rfl | rfl
    · exact .inl hin
    · exact .inr hin
  match tok, hlen with
  | [c], _ => rw [List.mem_singleton.mp hin]

/-- The slash in front of a path makes no token. -/
theorem tokens_slashed (s : Text) : tokens (slashed s) = tokens s := by
  unfold slashed
  split
  next => rfl
  next =>
      rw [tokens, List.splitOnP_cons_eq_if_modifyHead]
      simp [tokens]

/-- **A join can be taken apart again.** -/
theorem tokens_join {toks : List Text} (h : ∀ tok ∈ toks, tok ≠ [] ∧ '/' ∉ tok ∧ '.' ∉ tok) :
    tokens (['.'].intercalate toks) = toks := by
  cases toks with
  | nil => rfl
  | cons t ts =>
      have hslash : '/' ∉ ['.'].intercalate (t :: ts) := by
        intro hin
        rcases mem_of_mem_intercalate hin with heq | ⟨l, hl, hin⟩
        · exact absurd heq (by decide)
        · exact (h l hl).2.1 hin
      have hsplit : (['.'].intercalate (t :: ts)).splitOn '.' = t :: ts :=
        List.splitOn_intercalate '.' (fun l hl => (h l hl).2.2) (List.cons_ne_nil _ _)
      rw [tokens_eq_levels, levels, replaceAll_of_not_mem hslash, hsplit]
      refine List.filter_eq_self.mpr fun l hl => ?_
      exact decide_eq_true (h l hl).1

theorem tokens_join_tokens (s : Text) : tokens (['.'].intercalate (tokens s)) = tokens s := by
  refine tokens_join fun tok htok => ⟨?_, ?_, ?_⟩
  · rw [tokens_eq_levels] at htok
    exact (levels_shape htok).1
  · exact fun hin => (mem_of_mem_tokens htok hin).2.1 rfl
  · exact fun hin => (mem_of_mem_tokens htok hin).2.2 rfl

/-- Joining brings in no character but the dot. -/
theorem plainSuffix_join (h : PlainSuffix s) : PlainSuffix (['.'].intercalate (tokens s)) := by
  have hdot : '.' ≠ '%' ∧ '.' ≠ '+' ∧ '.' ≠ '?' := by decide
  intro c hc
  rcases mem_of_mem_intercalate hc with rfl | ⟨tok, htok, hin⟩
  · exact hdot
  · rcases (mem_of_mem_tokens htok hin).1 with hs | rfl
    · exact h c hs
    · exact hdot

end Tokens

/-! ## §3. What the adapters accept. -/

section Accepted

variable {s r : Text} {msg : Coap.Api.Message} {chanID : Text}

theorem parseSubtopic_iff (hs : PlainSuffix s) :
    parseSubtopic s = some r ↔
      (∀ tok ∈ tokens s, ¬ Malformed tok) ∧ r = ['.'].intercalate (tokens s) := by
  have hself : queryUnescape s = some s :=
    queryUnescape_self fun c hc => ⟨(hs c hc).1, (hs c hc).2.1⟩
  rw [parseSubtopic_eq_some, hself, tokens_eq_levels]
  constructor
  · rintro ⟨decoded, hdecoded, h⟩
    rwa [Option.some.inj hdecoded]
  · intro h
    exact ⟨s, rfl, h⟩

theorem fmtSubtopic_iff :
    fmtSubtopic msg = some r ↔
      (∀ tok ∈ tokens (subtopic msg), ¬ Malformed tok) ∧
        r = ['.'].intercalate (tokens (subtopic msg)) := by
  unfold fmtSubtopic
  split
  next hnil =>
      have htokens : tokens (subtopic msg) = [] := by rw [hnil]; rfl
      rw [htokens, Option.some.injEq, eq_comm]
      exact ⟨fun h => ⟨fun tok htok => absurd htok List.not_mem_nil, h⟩, fun h => h.2⟩
  next =>
      have htokens : ((replaceAll '/' '.' (subtopic msg)).splitOn '.').filter (· ≠ [])
          = tokens (subtopic msg) := by rw [tokens_eq_levels]; rfl
      rw [Option.map_eq_some_iff]
      simp only [filteredElems_eq_some, htokens]
      constructor
      · rintro ⟨kept, ⟨hall, rfl⟩, rfl⟩
        exact ⟨hall, rfl⟩
      · rintro ⟨hall, rfl⟩
        exact ⟨_, ⟨hall, rfl⟩, rfl⟩

/-- The loop does not stop before a slash. -/
theorem subtopicFrom_append {pos : Nat} {t : Text} (ht : '/' ∉ t) (hpos : pos ≠ 3) (rest : Text) :
    subtopicFrom pos (t ++ rest) = subtopicFrom pos rest := by
  induction t with
  | nil => rfl
  | cons c t ih =>
      have hc : c ≠ '/' := fun heq => ht (heq ▸ List.mem_cons_self)
      rw [List.cons_append, subtopicFrom, if_neg hc, if_neg hpos]
      exact ih fun hin => ht (List.mem_cons_of_mem _ hin)

theorem subtopicFrom_slash (pos : Nat) (rest : Text) :
    subtopicFrom pos ('/' :: rest)
      = if pos + 1 = 3 then '/' :: rest else subtopicFrom (pos + 1) rest := by
  rw [subtopicFrom, if_pos rfl]

/-- **Counting slashes finds the suffix.** -/
theorem subtopic_of_path (hid : '/' ∉ chanID) (hpath : msg.pathString = messagePath chanID s) :
    subtopic msg = slashed s := by
  -- `channels`, the id and `messages` have no slash; the third one opens the suffix
  rw [subtopic, hpath, messagePath, subtopicFrom_append (by decide) (by decide), subtopicFrom_slash,
    if_neg (by decide), subtopicFrom_append hid (by decide), subtopicFrom_slash,
    if_neg (by decide), subtopicFrom_append (by decide) (by decide)]
  unfold slashed
  split
  next h =>
      rcases h with rfl | h
      · rfl
      · obtain ⟨rest, rfl⟩ := List.head?_eq_some_iff.mp h
        rw [subtopicFrom_slash, if_pos rfl]
  next => rw [subtopicFrom_slash, if_pos rfl]

/-- The CoAP adapter accepts what the others accept, and as the same. -/
theorem fmtSubtopic_eq (hs : PlainSuffix s) (hid : '/' ∉ chanID)
    (hpath : msg.pathString = messagePath chanID s) : fmtSubtopic msg = parseSubtopic s := by
  have hsame : ∀ r, fmtSubtopic msg = some r ↔ parseSubtopic s = some r := by
    intro r
    rw [fmtSubtopic_iff, parseSubtopic_iff hs, subtopic_of_path hid hpath, tokens_slashed]
  exact Option.ext hsame

theorem canonical_of_accepted (hs : PlainSuffix s) (h : parseSubtopic s = some r) :
    CanonicalSubtopic r := by
  obtain ⟨hwell, rfl⟩ := (parseSubtopic_iff hs).mp h
  refine ⟨tokens s, rfl, fun tok htok => ⟨?_, ?_, ?_, ?_⟩⟩
  · rw [tokens_eq_levels] at htok
    exact (levels_shape htok).1
  · exact fun hin => (mem_of_mem_tokens htok hin).2.2 rfl
  · exact eq_of_mem_wildcard (.inl rfl) (hwell tok htok)
  · exact eq_of_mem_wildcard (.inr rfl) (hwell tok htok)

/-- What was accepted is accepted as it is. -/
theorem parseSubtopic_accepted (hs : PlainSuffix s) (h : parseSubtopic s = some r) :
    parseSubtopic r = some r := by
  obtain ⟨hwell, rfl⟩ := (parseSubtopic_iff hs).mp h
  rw [parseSubtopic_iff (plainSuffix_join hs), tokens_join_tokens]
  exact ⟨hwell, rfl⟩

/-- **Three adapters, one subtopic.** On suffixes that escaping leaves alone the adapters
accept the same and make the same of it; what they make is canonical and is left alone
when parsed again, and it is one for each list of tokens. -/
theorem subtopics_alike (s chanID : Text) (msg : Coap.Api.Message) (hs : PlainSuffix s)
    (hid : '/' ∉ chanID) (hpath : msg.pathString = messagePath chanID s) :
    (Ws.parseSubtopic s = Http.parseSubtopic s ∧ fmtSubtopic msg = Http.parseSubtopic s) ∧
      (∀ r, Http.parseSubtopic s = some r → CanonicalSubtopic r ∧
        Http.parseSubtopic r = some r ∧ Ws.parseSubtopic r = some r ∧
        ∀ again : Coap.Api.Message, again.pathString = messagePath chanID r →
          fmtSubtopic again = some r) ∧
      ∀ s' r r', PlainSuffix s' → Http.parseSubtopic s = some r →
        Http.parseSubtopic s' = some r' → (r = r' ↔ tokens s = tokens s') := by
  refine ⟨⟨rfl, fmtSubtopic_eq hs hid hpath⟩, fun r h => ?_, fun s' r r' hs' h h' => ?_⟩
  · have hagain : parseSubtopic r = some r := parseSubtopic_accepted hs h
    refine ⟨canonical_of_accepted hs h, hagain, hagain, fun again hr => ?_⟩
    obtain ⟨-, hr'⟩ := (parseSubtopic_iff hs).mp h
    have hplain : PlainSuffix r := hr' ▸ plainSuffix_join hs
    rw [fmtSubtopic_eq hplain hid hr, hagain]
  · obtain ⟨-, rfl⟩ := (parseSubtopic_iff hs).mp h
    obtain ⟨-, rfl⟩ := (parseSubtopic_iff hs').mp h'
    constructor
    · -- the tokens are read off the subtopic
      intro heq
      have htokens := congrArg tokens heq
      rwa [tokens_join_tokens, tokens_join_tokens] at htokens
    · intro heq
      rw [heq]

/-- A reading for `/room//temp` on channel 1. -/
def roomReading : Coap.Api.Message where
  type := .nonConfirmable
  code := 2
  uriPath := [['c', 'h', 'a', 'n', 'n', 'e', 'l', 's'], ['1'],
    ['m', 'e', 's', 's', 'a', 'g', 'e', 's'], ['r', 'o', 'o', 'm'], [], ['t', 'e', 'm', 'p']]

theorem subtopics_alike_room :
    fmtSubtopic roomReading
      = Http.parseSubtopic ['/', 'r', 'o', 'o', 'm', '/', '/', 't', 'e', 'm', 'p'] := by
  have hplain : PlainSuffix ['/', 'r', 'o', 'o', 'm', '/', '/', 't', 'e', 'm', 'p'] := by
    simp [PlainSuffix]
  exact (subtopics_alike _ ['1'] roomReading hplain (by decide) rfl).1.2

end Accepted

end Mainflux.Messaging
