/-
  Mainflux.Things.Connections
  ───────────────────────────
  **WHICH THINGS A CHANNEL HAS, AND WHICH CHANNELS A THING.**

  `RetrieveByChannel` and `RetrieveByThing` join one table with `connections`, once for a
  page and once for the total.  The join compares ids, and the owner of the row that is
  listed; the owners that a connection holds play no part.

    • `mem_joined` — which rows a join has;
    • `listed_once` — none of them twice, when no two rows have one id;
    • `connections_agree` — in every reachable database the two listings and the check
      that guards the messages are of the same connections.
-/
import Mainflux.Things.Isolation
import Mainflux.Things.Listing

namespace Mainflux.Things

open Mainflux.Lib

/-! ## §1. Texts of ids. -/

/-- `decodeHashLike`. -/
def decodeHashLike (cs : List Char) : Option UUID :=
  match cs.mapM hexVal with
  | some ds => if h : ds.length = 32 then some ⟨ds, h⟩ else none
  | none => none

/-- `decodeCanonical`. -/
def decodeCanonical (cs : List Char) : Option UUID :=
  if cs[8]? = some '-' ∧ cs[13]? = some '-' ∧ cs[18]? = some '-' ∧ cs[23]? = some '-' then
    decodeHashLike
      (cs.take 8 ++ (cs.drop 9).take 4 ++ (cs.drop 14).take 4 ++ (cs.drop 19).take 4 ++ cs.drop 24)
  else none

/-- `decodePlain`. -/
def decodePlain (cs : List Char) : Option UUID :=
  if cs.length = 32 then decodeHashLike cs
  else if cs.length = 36 then decodeCanonical cs
  else none

/-- `uuid.FromString`.  The source counts bytes; a text with a longer character is refused by
either count. -/
def fromString (s : String) : Option UUID :=
  let cs := s.toList
  if cs.length = 32 then decodeHashLike cs
  else if cs.length = 36 then decodeCanonical cs
  else if cs.length = 34 ∨ cs.length = 38 then
    if cs.head? = some '{' ∧ cs.getLast? = some '}' then decodePlain (cs.drop 1).dropLast else none
  else if cs.length = 41 ∨ cs.length = 45 then
    if cs.take 9 = ['u', 'r', 'n', ':', 'u', 'u', 'i', 'd', ':'] then decodePlain (cs.drop 9) else none
  else none

/-! ## §2. The two listings. -/

/-- The sides of a connection, seen from the table that is listed. -/
structure Side where
  near : ConnectionRow → UUID
  far : ConnectionRow → UUID

section Generic

variable {ρ ε : Type}

/-- `INNER JOIN connections co ON id = co.near WHERE owner = :owner AND co.far = :id`. -/
def joined (t : Table ρ ε) (side : Side) (owner : String) (id : UUID) (rows : List ρ)
    (connections : List ConnectionRow) : List ρ :=
  rows.flatMap fun r =>
    (connections.filter fun co => t.id r = side.near co ∧ t.owner r = owner ∧ side.far co = id).map fun _ => r

inductive JoinErr
  /-- `ErrNotFound`, of a text that is no UUID. -/
  | notFound
  /-- The driver takes no `uint64` with its high bit set. -/
  | highBit
  /-- The server reads fewer texts as UUIDs than the library does. -/
  | invalidTextRepresentation
  deriving DecidableEq

/-- Both methods. -/
def retrieveJoined (t : Table ρ ε) (side : Side) (owner id : String) (offset limit : Nat) (rows : List ρ)
    (connections : List ConnectionRow) : Except JoinErr (Page ε) :=
  match fromString id with
  | none => .error .notFound
  | some _ =>
      if 2 ^ 63 ≤ limit ∨ 2 ^ 63 ≤ offset then .error .highBit
      else
        match uuidIn id with
        | none => .error .invalidTextRepresentation
        | some id =>
            let rows := joined t side owner id rows connections
            .ok { items := (slice offset limit (uuidOrder.orderBy t.id rows)).map (t.scan owner)
                  total := rows.length, offset, limit }

end Generic

def thingSide : Side := ⟨ConnectionRow.thingID, ConnectionRow.channelID⟩

def channelSide : Side := ⟨ConnectionRow.channelID, ConnectionRow.thingID⟩

/-- `thingRepository.RetrieveByChannel`. -/
def ThingRepository.retrieveByChannel (owner channel : String) (offset limit : Nat) (d : DB) :
    Except JoinErr (Page Thing) :=
  retrieveJoined thingTable thingSide owner channel offset limit d.things d.connections

/-- `channelRepository.RetrieveByThing`. -/
def ChannelRepository.retrieveByThing (owner thing : String) (offset limit : Nat) (d : DB) :
    Except JoinErr (Page Channel) :=
  retrieveJoined channelTable channelSide owner thing offset limit d.channels d.connections

/-! ## §3. What a join has. -/

section Joined

variable {ρ ε : Type} {t : Table ρ ε} {side : Side} {owner : String} {id : UUID} {rows : List ρ}
  {connections : List ConnectionRow}

theorem mem_joined {r : ρ} :
    r ∈ joined t side owner id rows connections ↔
      r ∈ rows ∧ t.owner r = owner ∧ ∃ co ∈ connections, side.near co = t.id r ∧ side.far co = id := by
  rw [joined, List.mem_flatMap]
  constructor
  · rintro ⟨r', hr', hmem⟩
    obtain ⟨co, hco, rfl⟩ := List.mem_map.mp hmem
    obtain ⟨hco, hon⟩ := List.mem_filter.mp hco
    obtain ⟨hnear, howner, hfar⟩ := of_decide_eq_true hon
    exact ⟨hr', howner, co, hco, hnear.symm, hfar⟩
  · rintro ⟨hr, howner, co, hco, hnear, hfar⟩
    refine ⟨r, hr, List.mem_map.mpr ⟨co, List.mem_filter.mpr ⟨hco, ?_⟩, rfl⟩⟩
    exact decide_eq_true ⟨hnear.symm, howner, hfar⟩

/-- The pages of one listing are slices of one list, and every total is its length. -/
def ShownIn (read : Nat → Nat → Except JoinErr (Page ε)) (found : List ε) : Prop :=
  ∀ offset limit, offset < 2 ^ 63 → limit < 2 ^ 63 →
    read offset limit
      = .ok { items := slice offset limit found, total := found.length, offset := offset, limit := limit }

/-- The list, ordered by id. -/
def found (t : Table ρ ε) (side : Side) (owner : String) (id : UUID) (rows : List ρ)
    (connections : List ConnectionRow) : List ε :=
  (uuidOrder.orderBy t.id (joined t side owner id rows connections)).map (t.scan owner)

theorem shownIn_found {text : String} {u : UUID} (hread : fromString text = some u)
    (hid : uuidIn text = some id) :
    ShownIn (fun offset limit => retrieveJoined t side owner text offset limit rows connections)
      (found t side owner id rows connections) := by
  intro offset limit hoffset hlimit
  have hlow : ¬ (2 ^ 63 ≤ limit ∨ 2 ^ 63 ≤ offset) :=
    not_or.mpr ⟨Nat.not_le.mpr hlimit, Nat.not_le.mpr hoffset⟩
  have hlen := (uuidOrder.perm_orderBy t.id (joined t side owner id rows connections)).length_eq
  simp only [retrieveJoined, hread, hid, if_neg hlow, found, slice, List.map_take, List.map_drop,
    List.length_map, hlen]

theorem mem_found {e : ε} :
    e ∈ found t side owner id rows connections ↔
      ∃ r ∈ rows, t.owner r = owner ∧ t.scan owner r = e ∧
        ∃ co ∈ connections, side.near co = t.id r ∧ side.far co = id := by
  rw [found, List.mem_map]
  refine exists_congr fun r => ?_
  rw [(uuidOrder.perm_orderBy t.id _).mem_iff, mem_joined]
  constructor
  · rintro ⟨⟨hr, howner, hconnected⟩, hscan⟩
    exact ⟨hr, howner, hscan, hconnected⟩
  · rintro ⟨hr, howner, hscan, hconnected⟩
    exact ⟨⟨hr, howner, hconnected⟩, hscan⟩

/-- Some owner is shown the row of a connection, as every connection has one. -/
theorem exists_mem_found (key : ε → String) (hkey : ∀ owner r, key (t.scan owner r) = uuidOut (t.id r))
    (hfk : ∀ co ∈ connections, ∃ r ∈ rows, t.id r = side.near co) (u : UUID) :
    (∃ owner, ∃ e ∈ found t side owner id rows connections, key e = uuidOut u) ↔
      ∃ co ∈ connections, side.near co = u ∧ side.far co = id := by
  constructor
  · rintro ⟨owner, e, he, hid⟩
    obtain ⟨r, -, -, rfl, co, hco, hnear, hfar⟩ := mem_found.mp he
    have hr : t.id r = u := uuidOut_injective ((hkey owner r).symm.trans hid)
    exact ⟨co, hco, hnear.trans hr, hfar⟩
  · rintro ⟨co, hco, hnear, hfar⟩
    obtain ⟨r, hr, hid⟩ := hfk co hco
    have hmem : t.scan (t.owner r) r ∈ found t side (t.owner r) id rows connections :=
      mem_found.mpr ⟨r, hr, rfl, rfl, co, hco, hid.symm, hfar⟩
    exact ⟨t.owner r, _, hmem, (hkey _ r).trans (congrArg uuidOut (hid.trans hnear))⟩

/-- A connection is one row: the owners of two rows with the same ends are the same. -/
def OneRow (side : Side) (connections : List ConnectionRow) : Prop :=
  connections.Nodup ∧ ∀ co ∈ connections, ∀ co' ∈ connections,
    side.near co = side.near co' → side.far co = side.far co' → co = co'

/-- What one row contributes. -/
theorem matches_eq (hone : OneRow side connections) (r : ρ) :
    (connections.filter fun co => t.id r = side.near co ∧ t.owner r = owner ∧ side.far co = id).map
        (fun _ => r)
      = if t.owner r = owner ∧ ∃ co ∈ connections, side.near co = t.id r ∧ side.far co = id then [r]
        else [] := by
  let on := connections.filter fun co => t.id r = side.near co ∧ t.owner r = owner ∧ side.far co = id
  have hmem : ∀ {co}, co ∈ on ↔
      co ∈ connections ∧ t.id r = side.near co ∧ t.owner r = owner ∧ side.far co = id := by
    intro co
    rw [List.mem_filter, decide_eq_true_eq]
  have hnodup : on.Nodup := hone.1.filter _
  change on.map (fun _ => r) = _
  cases hon : on with
  | nil =>
      rw [if_neg]
      · rfl
      · rintro ⟨howner, co, hco, hnear, hfar⟩
        exact List.not_mem_nil (hon ▸ hmem.mpr ⟨hco, hnear.symm, howner, hfar⟩)
  | cons co rest =>
      obtain ⟨hco, hnear, howner, hfar⟩ := hmem.mp (hon ▸ List.mem_cons_self : co ∈ on)
      cases rest with
      | nil =>
          rw [if_pos ⟨howner, co, hco, hnear.symm, hfar⟩]
          rfl
      | cons co' rest =>
          -- a second row would be the first one
          obtain ⟨hco', hnear', -, hfar'⟩ :=
            hmem.mp (hon ▸ List.mem_cons_of_mem _ List.mem_cons_self : co' ∈ on)
          have hsame := hone.2 co hco co' hco' (hnear.symm.trans hnear') (hfar.trans hfar'.symm)
          rw [hon, hsame] at hnodup
          exact absurd List.mem_cons_self (List.nodup_cons.mp hnodup).1

/-- **None of the rows twice**: the join is a part of the table. -/
theorem joined_eq_filter (hone : OneRow side connections) :
    joined t side owner id rows connections
      = rows.filter fun r =>
          t.owner r = owner ∧ ∃ co ∈ connections, side.near co = t.id r ∧ side.far co = id := by
  induction rows with
  | nil => rfl
  | cons r rows ih =>
      rw [joined, List.flatMap_cons, matches_eq hone, List.filter_cons]
      by_cases h : t.owner r = owner ∧ ∃ co ∈ connections, side.near co = t.id r ∧ side.far co = id
      · rw [if_pos h, if_pos (decide_eq_true h), List.singleton_append]
        exact congrArg _ ih
      · rw [if_neg h, if_neg (by rw [decide_eq_true_eq]; exact h), List.nil_append]
        exact ih

theorem listed_once (hone : OneRow side connections) (hids : (rows.map t.id).Nodup) {key : ε → String}
    (hkey : ∀ r, key (t.scan owner r) = uuidOut (t.id r)) :
    ((found t side owner id rows connections).map key).Nodup := by
  have hsub : ((joined t side owner id rows connections).map t.id).Nodup := by
    rw [joined_eq_filter hone]
    exact hids.sublist (List.filter_sublist.map t.id)
  have hperm := (uuidOrder.perm_orderBy t.id (joined t side owner id rows connections)).map t.id
  rw [found, List.map_map]
  have hcomp : key ∘ t.scan owner = uuidOut ∘ t.id := funext hkey
  rw [hcomp, ← List.map_map]
  exact (hperm.nodup_iff.mpr hsub).map fun _ _ => uuidOut_injective

end Joined

/-! ## §4. Reachable databases. -/

section Reachable

variable {d : DB}

theorem oneRow_things (hs : d.Schema) (hsame : d.SameOwner) (hids : (d.things.map ThingRow.id).Nodup) :
    OneRow thingSide d.connections := by
  refine ⟨hs.connection_pk, fun co hco co' hco' hnear hfar => ?_⟩
  obtain ⟨th, hth, hid, howner⟩ := hs.thing_fk co hco
  obtain ⟨th', hth', hid', howner'⟩ := hs.thing_fk co' hco'
  have hrow : th = th' :=
    List.inj_on_of_nodup_map hids hth hth' (hid.trans (Eq.trans hnear hid'.symm))
  have hthing : co.thingOwner = co'.thingOwner := by rw [← howner, ← howner', hrow]
  have hchannel : co.channelOwner = co'.channelOwner := by rw [hsame co hco, hsame co' hco', hthing]
  obtain ⟨channelID, channelOwner, thingID, thingOwner⟩ := co
  obtain ⟨channelID', channelOwner', thingID', thingOwner'⟩ := co'
  exact congr (congr (congr (congrArg ConnectionRow.mk hfar) hchannel) hnear) hthing

theorem oneRow_channels (hs : d.Schema) (hsame : d.SameOwner) (hids : (d.channels.map ChannelRow.id).Nodup) :
    OneRow channelSide d.connections := by
  refine ⟨hs.connection_pk, fun co hco co' hco' hnear hfar => ?_⟩
  obtain ⟨ch, hch, hid, howner⟩ := hs.channel_fk co hco
  obtain ⟨ch', hch', hid', howner'⟩ := hs.channel_fk co' hco'
  have hrow : ch = ch' :=
    List.inj_on_of_nodup_map hids hch hch' (hid.trans (Eq.trans hnear hid'.symm))
  have hchannel : co.channelOwner = co'.channelOwner := by rw [← howner, ← howner', hrow]
  have hthing : co.thingOwner = co'.thingOwner := by rw [← hsame co hco, ← hsame co' hco', hchannel]
  obtain ⟨channelID, channelOwner, thingID, thingOwner⟩ := co
  obtain ⟨channelID', channelOwner', thingID', thingOwner'⟩ := co'
  exact congr (congr (congr (congrArg ConnectionRow.mk hnear) hchannel) hfar) hthing

theorem connected_iff {c t : String} {x y : UUID} (hc : uuidIn c = some x) (ht : uuidIn t = some y) :
    d.Connected c t ↔ ∃ co ∈ d.connections, co.channelID = x ∧ co.thingID = y := by
  rw [DB.Connected, hc, ht]
  refine exists_congr fun co => and_congr_right fun _ => ?_
  rw [Option.some.injEq, Option.some.injEq, eq_comm, @eq_comm _ y]

/-- Those of the owner's things that are connected, and no others. -/
theorem things_listed {c : String} {x : UUID} (hc : uuidIn c = some x) {owner : String} {th : Thing} :
    th ∈ found thingTable thingSide owner x d.things d.connections ↔
      ∃ row ∈ d.things, row.owner = owner ∧ thingTable.scan owner row = th ∧ d.Connected c th.id := by
  rw [mem_found]
  refine exists_congr fun row => and_congr_right fun _ => and_congr_right fun _ => and_congr_right ?_
  rintro rfl
  refine Iff.trans ?_ (connected_iff hc (uuidIn_uuidOut row.id)).symm
  exact exists_congr fun co => and_congr_right fun _ => and_comm

theorem channels_listed {t : String} {y : UUID} (ht : uuidIn t = some y) {owner : String} {ch : Channel} :
    ch ∈ found channelTable channelSide owner y d.channels d.connections ↔
      ∃ row ∈ d.channels, row.owner = owner ∧ channelTable.scan owner row = ch ∧ d.Connected ch.id t := by
  rw [mem_found]
  refine exists_congr fun row => and_congr_right fun _ => and_congr_right fun _ => and_congr_right ?_
  rintro rfl
  exact (connected_iff (uuidIn_uuidOut row.id) ht).symm

/-- Some owner sees the thing among those of the channel, if it is connected. -/
theorem things_agree (hs : d.Schema) {c t : String} {x y : UUID} (hc : uuidIn c = some x)
    (ht : uuidIn t = some y) :
    d.Connected c t ↔
      ∃ owner, ∃ th ∈ found thingTable thingSide owner x d.things d.connections, th.id = uuidOut y := by
  have hfk : ∀ co ∈ d.connections, ∃ th ∈ d.things, th.id = co.thingID := fun co hco =>
    let ⟨th, hth, hid, _⟩ := hs.thing_fk co hco
    ⟨th, hth, hid⟩
  rw [connected_iff hc ht, exists_mem_found Thing.id (fun _ _ => rfl) hfk y]
  exact exists_congr fun co => and_congr_right fun _ => and_comm

theorem channels_agree (hs : d.Schema) {c t : String} {x y : UUID} (hc : uuidIn c = some x)
    (ht : uuidIn t = some y) :
    d.Connected c t ↔
      ∃ owner, ∃ ch ∈ found channelTable channelSide owner y d.channels d.connections, ch.id = uuidOut x := by
  have hfk : ∀ co ∈ d.connections, ∃ ch ∈ d.channels, ch.id = co.channelID := fun co hco =>
    let ⟨ch, hch, hid, _⟩ := hs.channel_fk co hco
    ⟨ch, hch, hid⟩
  rw [connected_iff hc ht, exists_mem_found Channel.id (fun _ _ => rfl) hfk x]
  rfl

/-- One list of things and one of channels for each owner, of which the pages are slices; a list
has those of the owner's rows that `hasThing` finds connected, and none twice as long as ids are
unique. -/
def Agree (d : DB) (c t : String) (x y : UUID) : Prop :=
  ∃ (ths : String → List Thing) (chs : String → List Channel),
    (∀ owner, ShownIn (fun offset limit => ThingRepository.retrieveByChannel owner c offset limit d)
      (ths owner)) ∧
    (∀ owner, ShownIn (fun offset limit => ChannelRepository.retrieveByThing owner t offset limit d)
      (chs owner)) ∧
    (∀ owner th, th ∈ ths owner ↔ ∃ row ∈ d.things, row.owner = owner ∧ thingTable.scan owner row = th ∧
      ChannelRepository.hasThing c th.id d = .ok ()) ∧
    (∀ owner ch, ch ∈ chs owner ↔ ∃ row ∈ d.channels, row.owner = owner ∧ channelTable.scan owner row = ch ∧
      ChannelRepository.hasThing ch.id t d = .ok ()) ∧
    (ChannelRepository.hasThing c t d = .ok () ↔ ∃ owner, ∃ th ∈ ths owner, th.id = uuidOut y) ∧
    (ChannelRepository.hasThing c t d = .ok () ↔ ∃ owner, ∃ ch ∈ chs owner, ch.id = uuidOut x) ∧
    ((d.things.map ThingRow.id).Nodup → ∀ owner, ((ths owner).map Thing.id).Nodup) ∧
    ((d.channels.map ChannelRow.id).Nodup → ∀ owner, ((chs owner).map Channel.id).Nodup)

/-- **In every reachable database** the two listings and the check that guards the messages agree. -/
theorem connections_agree (E : Env) (r : Redis) (n : Nat) (calls : List Call) {c t : String} {x y u v : UUID}
    (hc : uuidIn c = some x) (ht : uuidIn t = some y) (hc' : fromString c = some u)
    (ht' : fromString t = some v) : Agree (after E ⟨DB.empty, r, n⟩ calls).db c t x y := by
  have hschema := after_schema (E := E) (w := ⟨DB.empty, r, n⟩) calls schema_empty
  have hsame := after_sameOwner (E := E) (w := ⟨DB.empty, r, n⟩) calls sameOwner_empty
  refine ⟨fun owner => found thingTable thingSide owner x _ _, fun owner => found channelTable channelSide owner y _ _,
    fun owner => shownIn_found hc' hc, fun owner => shownIn_found ht' ht, ?_, ?_, ?_, ?_, ?_, ?_⟩
  · intro owner th
    simp only [hasThing_eq_ok]
    exact things_listed hc
  · intro owner ch
    simp only [hasThing_eq_ok]
    exact channels_listed ht
  · rw [hasThing_eq_ok]
    exact things_agree hschema hc ht
  · rw [hasThing_eq_ok]
    exact channels_agree hschema hc ht
  · intro hids owner
    exact listed_once (oneRow_things hschema hsame hids) hids fun _ => rfl
  · intro hids owner
    exact listed_once (oneRow_channels hschema hsame hids) hids fun _ => rfl

/-- Alice has connected a lamp to a channel. -/
theorem connections_agree_alice :
    Agree (after openEnv ⟨DB.empty, Redis.empty, 0⟩
        [.createThings "alice" [{ name := "lamp" }], .createChannels "alice" [{ name := "hall" }],
          .connect "alice" [uuidOut (UUID.fill 4)] [uuidOut (UUID.fill 1)]]).db
      (uuidOut (UUID.fill 4)) (uuidOut (UUID.fill 1)) (UUID.fill 4) (UUID.fill 1) :=
  connections_agree openEnv Redis.empty 0 _ (uuidIn_uuidOut _) (uuidIn_uuidOut _)
    (by decide +kernel : fromString (uuidOut (UUID.fill 4)) = some (UUID.fill 4))
    (by decide +kernel : fromString (uuidOut (UUID.fill 1)) = some (UUID.fill 1))

end Reachable

end Mainflux.Things
