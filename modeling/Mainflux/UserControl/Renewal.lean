/-
  Mainflux.UserControl.Renewal
  ────────────────────────────
  **THE RENEWAL OF A PASSWORD (`RenewAccountPassword`).**

  The request carries a token, an identifier and the new password.  Of all channels
  whose id contains the identifier, each is tried as the key of the token; the user
  whom the token names must own the channel.  The owner is looked up with a
  statement that is put together from text.

    • `queryChannels_fails` — of a channel that is stored the lookup always raises:
      the limit stands inside the quotes, and what is compared with the id is no
      UUID;
    • `renew_keeps` — so no request changes a password, or answers `"success"`;
    • `renew_iff` — which requests are served as they should be.
-/
import Mathlib.Data.List.Infix
import Mainflux.Lib.Text
import Mainflux.Things.Repository

namespace Mainflux.UserControl

open Mainflux.Lib

open Things (ChannelRow)

/-! ## §1. The databases. -/

/-- A row of the users table, without its metadata. -/
structure UserRow where
  email : String
  password : String
  deriving DecidableEq

/-- The channels of the things database, whether the transaction that is open on it has
failed, and the users. -/
structure Databases where
  channels : List ChannelRow
  aborted : Bool
  users : List UserRow
  deriving DecidableEq

/-- Code over the two cursors; it may raise. -/
abbrev Db := OptionT (StateM Databases)

/-- The rest of a text in single quotes, and what follows it.  A quote is doubled inside. -/
def quoted : Text → Option (Text × Text)
  | [] => none
  | ['\''] => some ([], [])
  | c :: d :: cs =>
      if c = '\'' then
        if d = '\'' then (quoted cs).map fun r => (c :: r.1, r.2) else some ([], d :: cs)
      else (quoted (d :: cs)).map fun r => (c :: r.1, r.2)
  | [_] => none

/-- `select channels.* from channels`. -/
def allChannels : String := "select channels.* from channels"

/-- What Postgres answers to the statements about channels; none is an error.  A text that is
compared with an id must be one. -/
def answerTo (channels : List ChannelRow) (statement : Text) : Option (List ChannelRow) :=
  if statement = allChannels.toList then some channels
  else
    match statement.dropPrefix? (allChannels ++ " where channels.id='").toList with
    | none => none
    | some rest =>
        match quoted rest with
        | some (text, []) =>
            (uuidIn (String.ofList text)).map fun id => channels.filter fun row => row.id = id
        | _ => none

/-- `cursor.execute`, and all rows.  Behind a statement that failed every other fails, until
the transaction is rolled back. -/
def execute (statement : Text) : Db (List ChannelRow) := OptionT.mk fun s =>
  if s.aborted then (none, s)
  else
    match answerTo s.channels statement with
    | some rows => (some rows, s)
    | none => (none, { s with aborted := true })

/-- `CHAR(60)`: shorter texts are padded with blanks. -/
def char60 (text : String) : Option String :=
  if (text.toList.drop 60).all (· = ' ') then
    some (String.ofList ((text.toList.take 60) ++ List.replicate (60 - text.length) ' '))
  else none

/-- What Postgres makes of the statement of `update_db_passwd`, with the number of rows.  What
it makes of another one, to which quotes in the new password may turn it, is left open. -/
def updateUsers (other : Text → List UserRow → Option (List UserRow × Nat)) (statement : Text)
    (users : List UserRow) : Option (List UserRow × Nat) :=
  match (statement.dropPrefix? "update users set password='".toList).bind quoted with
  | none => other statement users
  | some (password, rest) =>
      match (rest.dropPrefix? " where users.email='".toList).bind quoted with
      | some (email, []) =>
          (char60 (String.ofList password)).map fun stored =>
            (users.map fun user =>
              if user.email = String.ofList email then { user with password := stored } else user,
              users.countP fun user => user.email = String.ofList email)
      | _ => other statement users

/-! ## §2. The request. -/

/-- What a column of a channel is in Python. -/
inductive Column
  | text (s : String)
  | object
  | null

/-- The columns, in their order. -/
def columns (row : ChannelRow) : List Column :=
  [.text (uuidOut row.id), .text row.owner, .text row.name,
    match row.metadata with
    | some _ => .object
    | none => .null]

/-- `row[1]`: the second character of a text.  A text that is too short raises, and so does
anything else. -/
def Column.second : Column → Option String
  | .text s => (s.toList[1]?).map fun c => String.ofList [c]
  | .object => none
  | .null => none

/-- The loop of `query_channels`, over the columns of the one row that was fetched. -/
def lastSecond : Option String → List Column → Option (Option String)
  | user_email, [] => some user_email
  | _, column :: columns =>
      match column.second with
      | some c => lastSecond (some c) columns
      | none => none

/-- The statement of `query_channels`. -/
def channelStatement (channel : String) : Text :=
  (allChannels ++ " where channels.id='").toList ++ channel.toList ++ " LIMIT 1'".toList

/-- `query_channels`. -/
def queryChannels (channel : String) : Db (Option String) := do
  let rows ← execute (channelStatement channel)
  match rows with
  | [] => return none
  | row :: _ => OptionT.mk (pure (lastSecond none (columns row)))

/-- `return_channels_list`. -/
def returnChannelsList : Db (List String) := do
  let rows ← execute allChannels.toList
  return rows.map fun row => uuidOut row.id

section Request

/-- `jwt.decode`: it succeeds for the tokens that are signed with the key. -/
structure Jwt where
  Signed : (token key : String) → JsonObject → Prop
  decode : (token key : String) → Option JsonObject
  decode_iff : ∀ {token key claims}, decode token key = some claims ↔ Signed token key claims

variable (jwt : Jwt) (other : Text → List UserRow → Option (List UserRow × Nat))

/-- `update_db_passwd`: after an error it rolls back, and raises. -/
def updateDbPasswd (email newHash : String) : Db Nat := OptionT.mk fun s =>
  match updateUsers other ("update users set password='".toList ++ newHash.toList
      ++ "' where users.email='".toList ++ email.toList ++ ['\'']) s.users with
  | some (users, count) => (some count, { s with users := users })
  | none => (none, s)

/-- One channel of the loop; zero where nothing is updated. -/
def tryChannel (token newPass key : String) : Db Nat := do
  let claims ← OptionT.mk (pure (jwt.decode token key))
  let email ← OptionT.mk (pure (claims.lookup "reset_password"))
  let owner ← queryChannels key
  match email, owner with
  | .str email, some owner =>
      if email = owner then updateDbPasswd other email newPass else return 0
  -- None equals None
  | .null, none => updateDbPasswd other "None" newPass
  | _, _ => return 0

/-- The loop. -/
def tryChannels (token newPass : String) : List String → String → StateM Databases String
  | [], status => return status
  | key :: keys, status => do
      let count ← (tryChannel jwt other token newPass key).run
      match count with
      | some (_ + 1) => tryChannels token newPass keys "success"
      | _ => tryChannels token newPass keys status

/-- `RenewAccountPassword`; there is no answer when the channels cannot be listed. -/
def renewAccountPassword (token identifier newPass : String) :
    StateM Databases (Option String) := do
  let channelList ← returnChannelsList.run
  match channelList with
  | none => return none
  | some channelList =>
      let matching := channelList.filter fun s => identifier.toList <:+: s.toList
      let status ← tryChannels jwt other token newPass matching "failed"
      return some status

/-! ## §3. What the request is for. -/

/-- The password of this user is to be renewed: some channel of theirs contains the
identifier, and the token, signed with its id, names them. -/
def Entitled (channels : List ChannelRow) (token identifier email : String) : Prop :=
  ∃ row ∈ channels, identifier.toList <:+: (uuidOut row.id).toList ∧
    (∃ claims, jwt.Signed token (uuidOut row.id) claims ∧
      claims.lookup "reset_password" = some (.str email)) ∧
    row.owner = email

/-- The passwords stored for an address. -/
def passwords (email : String) (users : List UserRow) : List String :=
  (users.filter fun user => user.email = email).map UserRow.password

/-- What is to come out of a request: the password of every user who is entitled is the new
one, and the answer is `"success"`; all other passwords are as they were. -/
def Renews (token identifier newPass : String) (s : Databases) (r : Option String × Databases) :
    Prop :=
  (∀ user ∈ s.users, Entitled jwt s.channels token identifier user.email →
    (∀ p ∈ passwords user.email r.2.users, char60 newPass = some p) ∧ r.1 = some "success") ∧
  ∀ email, ¬ Entitled jwt s.channels token identifier email →
    passwords email r.2.users = passwords email s.users

end Request

/-! ## §4. What comes out of it. -/

theorem not_mem_uuidOut {u : UUID} {c : Char} (hc : hexVal c = none)
    (h : c ≠ '-' ∧ c ≠ '{' ∧ c ≠ '}') : c ∉ (uuidOut u).toList := by
  intro hmem
  rcases uuidIn_chars (uuidIn_uuidOut u) c hmem with hhex | hmark | hmark | hmark
  · rw [hc] at hhex
    cases hhex
  · exact h.1 hmark
  · exact h.2.1 hmark
  · exact h.2.2 hmark

/-- A text without quotes is read up to the quote at its end. -/
theorem quoted_append {text : Text} (h : '\'' ∉ text) : quoted (text ++ ['\'']) = some (text, []) := by
  induction text with
  | nil => rfl
  | cons c text ih =>
      rw [List.mem_cons, not_or] at h
      have hc : c ≠ '\'' := fun heq => h.1 heq.symm
      have hrest := ih h.2
      cases text with
      | nil =>
          show quoted [c, '\''] = _
          rw [quoted, if_neg hc]
          rfl
      | cons d text =>
          rw [List.cons_append, List.cons_append] at *
          rw [quoted, if_neg hc, hrest]
          rfl

/-- **The statement compares the id with a text that is none.** -/
theorem answerTo_channelStatement (channels : List ChannelRow) (u : UUID) :
    answerTo channels (channelStatement (uuidOut u)) = none := by
  have hsplit : channelStatement (uuidOut u) = (allChannels ++ " where channels.id='").toList ++
      ((uuidOut u).toList ++ " LIMIT 1".toList ++ ['\'']) := by
    rw [channelStatement, show " LIMIT 1'".toList = " LIMIT 1".toList ++ ['\''] by decide]
    simp only [List.append_assoc]
  have hne : channelStatement (uuidOut u) ≠ allChannels.toList := by
    rw [hsplit]
    intro heq
    have hlen := congrArg List.length heq
    rw [List.length_append, show (allChannels ++ " where channels.id='").toList.length = 51 by decide,
      show allChannels.toList.length = 31 by decide] at hlen
    omega
  have hquote : '\'' ∉ (uuidOut u).toList ++ " LIMIT 1".toList := by
    rw [List.mem_append, not_or]
    exact ⟨not_mem_uuidOut (by decide) (by decide), by decide⟩
  have hblank : uuidIn (String.ofList ((uuidOut u).toList ++ " LIMIT 1".toList)) = none := by
    rw [Option.eq_none_iff_forall_ne_some]
    intro v hv
    -- the blank is no part of a UUID
    have hmem : ' ' ∈ (String.ofList ((uuidOut u).toList ++ " LIMIT 1".toList)).toList := by
      rw [String.toList_ofList, List.mem_append]
      exact .inr (by decide)
    exact absurd (uuidIn_chars hv ' ' hmem) (by decide)
  rw [answerTo, if_neg hne, hsplit, Text.dropPrefix?_eq_some.mpr rfl]
  simp only [quoted_append hquote, hblank, Option.map_none]

theorem bind_run {α β : Type} (x : Db α) (f : α → Db β) (s : Databases) :
    (x >>= f).run s = (match x.run s with
      | (some a, s') => (f a).run s'
      | (none, s') => (none, s')) := by
  show (match x.run s with
    | (r, s') => (match r with
      | some a => (f a).run
      | none => (pure none : StateM Databases (Option β))) s') = _
  rcases x.run s with ⟨r, s'⟩
  cases r with
  | none => rfl
  | some a => rfl

/-- What raises ends the block. -/
theorem bind_raise {α β : Type} {x : Db α} {s s' : Databases} (h : x.run s = (none, s'))
    (f : α → Db β) : (x >>= f).run s = (none, s') := by
  rw [bind_run, h]

/-- **The lookup of an owner raises, and leaves the transaction aborted.** -/
theorem queryChannels_fails (u : UUID) (s : Databases) :
    (queryChannels (uuidOut u)).run s = (none, { s with aborted := true }) := by
  apply bind_raise
  show (if s.aborted then _ else _) = _
  split
  next h => rw [← h]
  next => rw [answerTo_channelStatement]

section Request

variable (jwt : Jwt) (other : Text → List UserRow → Option (List UserRow × Nat))
  (token identifier newPass : String)

/-- Only the state of the transaction may change. -/
def KeepsTables (s s' : Databases) : Prop := s'.channels = s.channels ∧ s'.users = s.users

/-- A stored channel is tried in vain. -/
theorem tryChannel_fails (u : UUID) (s : Databases) :
    ∃ s', (tryChannel jwt other token newPass (uuidOut u)).run s = (none, s') ∧
      KeepsTables s s' := by
  unfold tryChannel
  cases hdecode : jwt.decode token (uuidOut u) with
  | none => exact ⟨s, bind_raise rfl _, rfl, rfl⟩
  | some claims =>
      cases hemail : claims.lookup "reset_password" with
      | none =>
          refine ⟨s, ?_, rfl, rfl⟩
          show (OptionT.mk (pure (claims.lookup "reset_password")) >>= _ : Db Nat).run s = _
          rw [hemail]
          exact bind_raise rfl _
      | some email =>
          refine ⟨{ s with aborted := true }, ?_, rfl, rfl⟩
          show (OptionT.mk (pure (claims.lookup "reset_password")) >>= _ : Db Nat).run s = _
          rw [hemail]
          exact bind_raise (queryChannels_fails u s) _

/-- The loop ends with the status that it began with. -/
theorem tryChannels_keeps (ids : List UUID) (status : String) (s : Databases) :
    ∃ s', tryChannels jwt other token newPass (ids.map uuidOut) status s = (status, s') ∧
      KeepsTables s s' := by
  induction ids generalizing s with
  | nil => exact ⟨s, rfl, rfl, rfl⟩
  | cons u ids ih =>
      obtain ⟨s1, hfail, hchannels, husers⟩ := tryChannel_fails jwt other token newPass u s
      obtain ⟨s2, hrest, hchannels', husers'⟩ := ih s1
      refine ⟨s2, ?_, hchannels'.trans hchannels, husers'.trans husers⟩
      rw [List.map_cons, tryChannels]
      show (match (tryChannel jwt other token newPass (uuidOut u)).run s with
        | (count, s') => (match count with
          | some (_ + 1) => tryChannels jwt other token newPass (ids.map uuidOut) "success"
          | _ => tryChannels jwt other token newPass (ids.map uuidOut) status) s') = _
      rw [hfail]
      exact hrest

theorem returnChannelsList_run (s : Databases) :
    returnChannelsList.run s = (none, s) ∨
      returnChannelsList.run s = (some ((s.channels.map ChannelRow.id).map uuidOut), s) := by
  by_cases habort : s.aborted = true
  · left
    apply bind_raise
    show (if s.aborted then _ else _) = _
    rw [if_pos habort]
  · right
    have hexec : (execute allChannels.toList).run s = (some s.channels, s) := by
      show (if s.aborted then _ else _) = _
      rw [if_neg habort, answerTo, if_pos rfl]
    rw [returnChannelsList, bind_run, hexec, List.map_map]
    rfl

/-- **No request changes a password, and none is answered with `"success"`.** -/
theorem renew_keeps (s : Databases) :
    ∃ answer s', renewAccountPassword jwt other token identifier newPass s = (answer, s') ∧
      s'.users = s.users ∧ answer ≠ some "success" := by
  have hrun : renewAccountPassword jwt other token identifier newPass s
      = (match returnChannelsList.run s with
        | (r, s') => (match r with
          | none => (pure none : StateM Databases _)
          | some channelList => do
              let status ← tryChannels jwt other token newPass
                (channelList.filter fun s => identifier.toList <:+: s.toList) "failed"
              return some status) s') := rfl
  rcases returnChannelsList_run s with hlist | hlist
  · rw [hlist] at hrun
    exact ⟨none, s, hrun, rfl, nofun⟩
  · rw [hlist] at hrun
    dsimp only at hrun
    rw [List.filter_map] at hrun
    obtain ⟨s', htry, -, husers⟩ := tryChannels_keeps jwt other token newPass
      ((s.channels.map ChannelRow.id).filter
        ((fun s => decide (identifier.toList <:+: s.toList)) ∘ uuidOut)) "failed" s
    refine ⟨some "failed", s', hrun.trans ?_, husers, by decide⟩
    show (match tryChannels jwt other token newPass _ "failed" s with
      | (status, s') => (some status, s')) = _
    rw [htry]

/-- **A request is served as it should be exactly when there is nothing to renew.** -/
theorem renew_iff (s : Databases) :
    Renews jwt token identifier newPass s
        (renewAccountPassword jwt other token identifier newPass s) ↔
      ∀ user ∈ s.users, ¬ Entitled jwt s.channels token identifier user.email := by
  obtain ⟨answer, s', hrun, husers, hstatus⟩ := renew_keeps jwt other token identifier newPass s
  rw [hrun]
  constructor
  · intro h user huser hent
    exact hstatus (h.1 user huser hent).2
  · intro h
    refine ⟨fun user huser hent => absurd hent (h user huser), fun email _ => ?_⟩
    rw [show (answer, s').2.users = s.users from husers]

end Request

/-- A token with the claim `"reset_password": "a@b.c"`, signed with HS256 and the id of a
channel. -/
def ownerToken : String :=
  "eyJ0eXAiOiJKV1QiLCJhbGciOiJIUzI1NiJ9.eyJyZXNldF9wYXNzd29yZCI6ImFAYi5jIn0." ++
    "R4usGRjNN-zA4qMBlJ_FKtW5WZEjbhj-qHRvT8jcc1g"

/-- The decoder, as far as this token goes. -/
def ownerJwt : Jwt where
  Signed token key claims := token = ownerToken ∧ key = "11111111-1111-1111-1111-111111111111" ∧
    claims = [("reset_password", .str "a@b.c")]
  decode token key :=
    if token = ownerToken ∧ key = "11111111-1111-1111-1111-111111111111" then
      some [("reset_password", .str "a@b.c")]
    else none
  decode_iff := by
    intro token key claims
    split
    next h => simp [h, eq_comm]
    next h => exact iff_of_false nofun fun hsigned => h ⟨hsigned.1, hsigned.2.1⟩

/-- The channel of the token, and its owner. -/
def ownerTables : Databases where
  channels := [⟨UUID.fill 1, "a@b.c", "garden", some []⟩]
  aborted := false
  users := [⟨"a@b.c", "$2a$10$N9qo8uLOickgx2ZMRZoMyeIjZAgcfl7p92ldGxad68LJZdL17lhWy"⟩]

/-- The owner of the channel does not get the new password. -/
theorem owner_is_refused :
    ¬ Renews ownerJwt ownerToken "11111111"
        "$2a$10$7EqJtq98hPqEX7fNZaFWoOhi5S7z3aYbFvQyN8bRrCkzV2cM0o1u6" ownerTables
        (renewAccountPassword ownerJwt (fun _ _ => none) ownerToken "11111111"
          "$2a$10$7EqJtq98hPqEX7fNZaFWoOhi5S7z3aYbFvQyN8bRrCkzV2cM0o1u6" ownerTables) := by
  have hent : Entitled ownerJwt ownerTables.channels ownerToken "11111111" "a@b.c" :=
    ⟨_, List.mem_cons_self, by decide +kernel,
      ⟨[("reset_password", .str "a@b.c")], ⟨rfl, by decide +kernel, rfl⟩, by decide +kernel⟩, rfl⟩
  obtain ⟨answer, s', hrun, -, hstatus⟩ := renew_keeps ownerJwt (fun _ _ => none) ownerToken
    "11111111" "$2a$10$7EqJtq98hPqEX7fNZaFWoOhi5S7z3aYbFvQyN8bRrCkzV2cM0o1u6" ownerTables
  rw [hrun]
  intro h
  exact hstatus (h.1 _ List.mem_cons_self hent).2

end Mainflux.UserControl
