/-
  Mainflux.Things.Connect
  ───────────────────────
  **`Connect` IS ALL OR NOTHING.**

  `Connect` inserts a row for each pair of a channel and a thing, one statement after the
  other in one transaction.

    • `transaction_insertRows` — a run of inserts goes through exactly when every row
      could be inserted by itself and none of them is there twice;
    • `connect_all_or_nothing` — what that means for lists of channels and things, and for
      the events of the middleware;
    • `long_owner_refused` — an owner that no table can hold.
-/
import Mathlib.Data.List.ProdSigma
import Mainflux.Things.Events
import Mainflux.Things.Isolation

namespace Mainflux.Things

open Mainflux.Lib

/-! ## §1. The statement. -/

/-- The ids that a list of texts names. -/
def ids (texts : List String) : List UUID := texts.filterMap uuidIn

/-- The pairs of `Connect`, in the order of its loops. -/
def pairs (chIDs thIDs : List String) : List (UUID × UUID) := ids chIDs ×ˢ ids thIDs

/-- The row of a pair. -/
def pairRow (owner : String) (p : UUID × UUID) : ConnectionRow := ⟨p.1, owner, p.2, owner⟩

/-- Well-formed ids, and at least one. -/
structure WellFormed (texts : List String) : Prop where
  nonempty : texts ≠ []
  uuids : ∀ s ∈ texts, (uuidIn s).isSome

/-- All channels and things are the owner's, no pair is repeated, and none is connected. -/
structure Connectable (owner : String) (chIDs thIDs : List String) (d : DB) : Prop where
  channels : ∀ c ∈ ids chIDs, ∃ r ∈ d.channels, r.Is c owner
  things : ∀ t ∈ ids thIDs, ∃ r ∈ d.things, r.Is t owner
  nodup : (pairs chIDs thIDs).Nodup
  new : ∀ p ∈ pairs chIDs thIDs, pairRow owner p ∉ d.connections

/-- The events of a connection. -/
def connectEvents (chIDs thIDs : List String) : List Event :=
  (chIDs ×ˢ thIDs).map fun p => .connectThing p.1 p.2

/-! ## §2. Inserts, one after the other. -/

section Inserts

variable {owner : String} {d : DB}

/-- One insert. -/
def insertRow (owner : String) (p : UUID × UUID) (d : DB) : Except PqError DB :=
  if fitsVarchar 254 owner then
    if pairRow owner p ∈ d.connections then .error .uniqueViolation
    else if (∃ r ∈ d.channels, r.Is p.1 owner) ∧ ∃ r ∈ d.things, r.Is p.2 owner then
      .ok { d with connections := d.connections ++ [pairRow owner p] }
    else .error .foreignKeyViolation
  else .error .stringDataRightTruncation

theorem insertConnection_eq {chID thID : String} {ch th : UUID} (hch : uuidIn chID = some ch)
    (hth : uuidIn thID = some th) :
    insertConnection owner chID thID = insertRow owner (ch, th) := by
  funext d
  simp only [insertConnection, insertRow, hch, hth, pairRow]
  rfl

theorem ids_cons {s : String} {u : UUID} (h : uuidIn s = some u) (texts : List String) :
    ids (s :: texts) = u :: ids texts := List.filterMap_cons_some h

/-- The statements of one channel. -/
theorem connectStmts_channel {chID : String} {ch : UUID} (hch : uuidIn chID = some ch)
    {thIDs : List String} (hth : ∀ s ∈ thIDs, (uuidIn s).isSome) :
    thIDs.map (fun thID => insertConnection owner chID thID)
      = (ids thIDs).map (fun th => insertRow owner (ch, th)) := by
  induction thIDs with
  | nil => rfl
  | cons thID thIDs ih =>
      obtain ⟨th, ht⟩ := Option.isSome_iff_exists.mp (hth thID List.mem_cons_self)
      have hrest := ih fun s hs => hth s (List.mem_cons_of_mem _ hs)
      rw [List.map_cons, insertConnection_eq hch ht, hrest, ids_cons ht, List.map_cons]

/-- The statements of `Connect` over well-formed ids. -/
theorem connectStmts_eq {chIDs thIDs : List String} (hch : ∀ s ∈ chIDs, (uuidIn s).isSome)
    (hth : ∀ s ∈ thIDs, (uuidIn s).isSome) :
    ChannelRepository.connectStmts owner chIDs thIDs
      = (pairs chIDs thIDs).map (insertRow owner) := by
  induction chIDs with
  | nil => rfl
  | cons chID chIDs ih =>
      obtain ⟨ch, hu⟩ := Option.isSome_iff_exists.mp (hch chID List.mem_cons_self)
      have hrest := ih fun s hs => hch s (List.mem_cons_of_mem _ hs)
      have hpairs : pairs (chID :: chIDs) thIDs
          = (ids thIDs).map (Prod.mk ch) ++ pairs chIDs thIDs := by
        rw [pairs, ids_cons hu, List.product_cons]
        rfl
      rw [ChannelRepository.connectStmts, List.flatMap_cons, connectStmts_channel hu hth, hpairs,
        List.map_append, List.map_map, ← hrest]
      rfl

theorem pairRow_injective {p q : UUID × UUID} (h : pairRow owner p = pairRow owner q) : p = q := by
  simp only [pairRow, ConnectionRow.mk.injEq, true_and, and_true] at h
  exact Prod.ext h.1 h.2

/-- When a pair can be inserted. -/
structure Insertable (owner : String) (p : UUID × UUID) (d : DB) : Prop where
  width : fitsVarchar 254 owner
  new : pairRow owner p ∉ d.connections
  channel : ∃ r ∈ d.channels, r.Is p.1 owner
  thing : ∃ r ∈ d.things, r.Is p.2 owner

/-- What one insert does. -/
theorem insertRow_cases (owner : String) (p : UUID × UUID) (d : DB) :
    Insertable owner p d ∧
        insertRow owner p d = .ok { d with connections := d.connections ++ [pairRow owner p] } ∨
      ¬ Insertable owner p d ∧
        (insertRow owner p d = .error .uniqueViolation ∨
          insertRow owner p d = .error .foreignKeyViolation ∨
          ¬ fitsVarchar 254 owner ∧ insertRow owner p d = .error .stringDataRightTruncation) := by
  unfold insertRow
  split
  next hwidth =>
      split
      next hold => exact .inr ⟨fun h => h.new hold, .inl rfl⟩
      next hnew =>
          split
          next hfk => exact .inl ⟨⟨hwidth, hnew, hfk.1, hfk.2⟩, rfl⟩
          next hfk => exact .inr ⟨fun h => hfk ⟨h.channel, h.thing⟩, .inr (.inl rfl)⟩
  next hwidth => exact .inr ⟨fun h => hwidth h.width, .inr (.inr ⟨hwidth, rfl⟩)⟩

/-- With the row of `p` there, the others can be inserted when they could be without it
and are not `p` again. -/
theorem insertable_cons {p : UUID × UUID} {d : DB} (hp : Insertable owner p d)
    (ps : List (UUID × UUID)) :
    ((p :: ps).Nodup ∧ ∀ q ∈ p :: ps, Insertable owner q d) ↔
      ps.Nodup ∧ ∀ q ∈ ps, Insertable owner q
        { d with connections := d.connections ++ [pairRow owner p] } := by
  rw [List.nodup_cons, List.forall_mem_cons]
  constructor
  · rintro ⟨⟨hnot, hnodup⟩, -, hall⟩
    refine ⟨hnodup, fun q hq => ?_⟩
    obtain ⟨hwidth, hnew, hchannel, hthing⟩ := hall q hq
    refine ⟨hwidth, fun hin => ?_, hchannel, hthing⟩
    rcases List.mem_append.mp hin with hin | hin
    · exact hnew hin
    · exact hnot (pairRow_injective (List.mem_singleton.mp hin) ▸ hq)
  · rintro ⟨hnodup, hall⟩
    refine ⟨⟨fun hin => ?_, hnodup⟩, hp, fun q hq => ?_⟩
    · exact (hall p hin).new (List.mem_append_right _ (List.mem_singleton_self _))
    · obtain ⟨hwidth, hnew, hchannel, hthing⟩ := hall q hq
      exact ⟨hwidth, fun hin => hnew (List.mem_append_left _ hin), hchannel, hthing⟩

/-- **A run of inserts goes through exactly when every row could be inserted by itself and
none of them is there twice.** -/
theorem transaction_insertRows (owner : String) (ps : List (UUID × UUID)) (d : DB) :
    (ps.Nodup ∧ (∀ p ∈ ps, Insertable owner p d)) ∧
        transaction (ps.map (insertRow owner)) d
          = .ok { d with connections := d.connections ++ ps.map (pairRow owner) } ∨
      ¬ (ps.Nodup ∧ ∀ p ∈ ps, Insertable owner p d) ∧
        (transaction (ps.map (insertRow owner)) d = .error .uniqueViolation ∨
          transaction (ps.map (insertRow owner)) d = .error .foreignKeyViolation ∨
          ¬ fitsVarchar 254 owner ∧
            transaction (ps.map (insertRow owner)) d = .error .stringDataRightTruncation) := by
  induction ps generalizing d with
  | nil => exact .inl ⟨⟨List.nodup_nil, fun p hp => absurd hp List.not_mem_nil⟩, by simp [transaction]⟩
  | cons p ps ih =>
      rw [List.map_cons, transaction]
      rcases insertRow_cases owner p d with ⟨hp, hrun⟩ | ⟨hp, hrun⟩
      · -- the rest of the run starts from the tables with this row
        rw [hrun]
        rw [insertable_cons hp]
        have hrest := ih { d with connections := d.connections ++ [pairRow owner p] }
        rwa [List.append_assoc, List.singleton_append, ← List.map_cons] at hrest
      · -- the run stops here, and is rolled back
        have hnot : ¬ ((p :: ps).Nodup ∧ ∀ q ∈ p :: ps, Insertable owner q d) := fun h =>
          hp (h.2 p List.mem_cons_self)
        refine .inr ⟨hnot, ?_⟩
        rcases hrun with hrun | hrun | ⟨hwidth, hrun⟩
        · exact .inl (by rw [hrun])
        · exact .inr (.inl (by rw [hrun]))
        · exact .inr (.inr ⟨hwidth, by rw [hrun]⟩)

end Inserts

/-! ## §3. The call. -/

section Call

variable {owner : String} {chIDs thIDs : List String} {d : DB}

theorem ids_ne_nil (h : WellFormed chIDs) : ids chIDs ≠ [] := by
  intro hnil
  cases chIDs with
  | nil => exact h.nonempty rfl
  | cons s rest =>
      obtain ⟨u, hu⟩ := Option.isSome_iff_exists.mp (h.uuids s List.mem_cons_self)
      rw [ids_cons hu] at hnil
      exact List.cons_ne_nil _ _ hnil

theorem mem_pairs {p : UUID × UUID} :
    p ∈ pairs chIDs thIDs ↔ p.1 ∈ ids chIDs ∧ p.2 ∈ ids thIDs := List.mem_product

/-- Pairs that can all be inserted are what `Connectable` asks for: a listed channel is in
the table, so its owner fits. -/
theorem connectable_iff (hd : d.Schema) (hch : WellFormed chIDs) (hth : WellFormed thIDs) :
    Connectable owner chIDs thIDs d ↔
      (pairs chIDs thIDs).Nodup ∧ ∀ p ∈ pairs chIDs thIDs, Insertable owner p d := by
  constructor
  · intro h
    refine ⟨h.nodup, fun p hp => ?_⟩
    have hp' := mem_pairs.mp hp
    have hchannel := h.channels p.1 hp'.1
    obtain ⟨r, hr, his⟩ := hchannel
    have hwidth : fitsVarchar 254 owner := his.2 ▸ (hd.channel_width r hr).1
    exact ⟨hwidth, h.new p hp, ⟨r, hr, his⟩, h.things p.2 hp'.2⟩
  · rintro ⟨hnodup, hall⟩
    -- each channel is in a pair, as there is a thing to pair it with, and the other way
    obtain ⟨ch, hchmem⟩ := List.exists_mem_of_ne_nil _ (ids_ne_nil hch)
    obtain ⟨th, hthmem⟩ := List.exists_mem_of_ne_nil _ (ids_ne_nil hth)
    refine ⟨fun c hc => ?_, fun t ht => ?_, hnodup, fun p hp => (hall p hp).new⟩
    · exact (hall (c, th) (mem_pairs.mpr ⟨hc, hthmem⟩)).channel
    · exact (hall (ch, t) (mem_pairs.mpr ⟨hchmem, ht⟩)).thing

/-- `Connect` in its two outcomes. -/
theorem connect_cases (owner : String) (hd : d.Schema) (hch : WellFormed chIDs)
    (hth : WellFormed thIDs) :
    Connectable owner chIDs thIDs d ∧
        ChannelRepository.connect owner chIDs thIDs d
          = ({ d with connections := d.connections ++ (pairs chIDs thIDs).map (pairRow owner) },
              .ok ()) ∨
      ¬ Connectable owner chIDs thIDs d ∧
        (ChannelRepository.connect owner chIDs thIDs d = (d, .error .notFound) ∨
          ChannelRepository.connect owner chIDs thIDs d = (d, .error .conflict) ∨
          ¬ fitsVarchar 254 owner ∧ ChannelRepository.connect owner chIDs thIDs d
            = (d, .error (.pq .stringDataRightTruncation))) := by
  unfold ChannelRepository.connect
  rw [connectStmts_eq hch.uuids hth.uuids, connectable_iff hd hch hth]
  rcases transaction_insertRows owner (pairs chIDs thIDs) d with ⟨hall, hrun⟩ | ⟨hnot, hrun⟩
  · exact .inl ⟨hall, by rw [hrun]⟩
  · refine .inr ⟨hnot, ?_⟩
    -- a unique violation is a conflict, a missing foreign key is not found
    rcases hrun with hrun | hrun | ⟨hwidth, hrun⟩
    · exact .inr (.inl (by rw [hrun]))
    · exact .inl (by rw [hrun])
    · exact .inr (.inr ⟨hwidth, by rw [hrun]⟩)

/-- An unauthorised `Connect` fails. -/
theorem step_connect_unauthorized {E : Env} {w : World} {token : String}
    (hauth : E.auth w.tick token = none) :
    (step E w (.connect token chIDs thIDs)).2 = .done (.error .unauthorizedAccess) := by
  simp [step, serve, Service.connect, cmd, handle, handleMiss, hauth]

/-- The middleware announces the pairs of a call that went through, and nothing else. -/
theorem events_connect (chIDs thIDs : List String) (E : Env) (w : World) (token : String) :
    ((eventStore E w (.connect token chIDs thIDs)).2.1 = .done (.ok ()) →
        events E w (.connect token chIDs thIDs) = connectEvents chIDs thIDs) ∧
      ((eventStore E w (.connect token chIDs thIDs)).2.1 ≠ .done (.ok ()) →
        events E w (.connect token chIDs thIDs) = []) := by
  have hreply : ∃ r, (step E w (.connect token chIDs thIDs)).2 = .done r := by
    cases hauth : E.auth w.tick token with
    | none => exact ⟨_, step_connect_unauthorized hauth⟩
    | some o => exact ⟨_, congrArg Prod.snd (step_connect hauth chIDs thIDs)⟩
  obtain ⟨r, hr⟩ := hreply
  unfold events eventStore
  rw [hr]
  cases r with
  | ok u =>
      refine ⟨fun _ => ?_, fun hne => absurd rfl hne⟩
      show chIDs.flatMap (fun chID => thIDs.map fun thID => Event.connectThing chID thID)
        = connectEvents chIDs thIDs
      simp only [connectEvents, SProd.sprod, List.product, List.map_flatMap, List.map_map,
        Function.comp_def]
  | error e =>
      refine ⟨fun hok => ?_, fun _ => rfl⟩
      cases hok

end Call

theorem wellFormed_singleton (u : UUID) : WellFormed [uuidOut u] := by
  refine ⟨List.cons_ne_nil _ _, fun s hs => ?_⟩
  rw [List.mem_singleton.mp hs, uuidIn_uuidOut]
  rfl

/-- A thing and a channel of one owner, not connected yet. -/
def unlinked : DB :=
  ⟨[⟨UUID.fill 1, "alice", "lamp", "k1", []⟩], [⟨UUID.fill 3, "alice", "", none⟩], []⟩

/-- A text of 255 characters. -/
def longOwner : String := String.ofList (List.replicate 255 'a')

theorem longOwner_wide : ¬ fitsVarchar 254 longOwner := by
  unfold fitsVarchar longOwner
  rw [String.length_ofList, List.length_replicate]
  omega

/-- Such an owner is refused by the first insert. -/
theorem connect_wide {owner : String} (hwide : ¬ fitsVarchar 254 owner) (u v : UUID) (d : DB) :
    (ChannelRepository.connect owner [uuidOut u] [uuidOut v] d).2
      = .error (.pq .stringDataRightTruncation) := by
  simp [ChannelRepository.connect, ChannelRepository.connectStmts, transaction,
    insertConnection_eq (uuidIn_uuidOut u) (uuidIn_uuidOut v), insertRow, hwide]

end Mainflux.Things
