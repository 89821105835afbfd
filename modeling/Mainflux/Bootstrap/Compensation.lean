/-
  Mainflux.Bootstrap.Compensation
  ───────────────────────────────
  **WHAT A FAILED `Add` LEAVES BEHIND.**

  `Add` creates a thing when the config names none, reads the thing, and saves the
  config.  Where one of these fails, the service deletes a thing: after a failed `Save`
  the one it has created, after a failed read the one that the caller has named.

  Things is here the tables of its own repository; every call may fail, a creation also
  after it took effect.  The compensating `DeleteThing` does not fail.

    • `add_unchanged_iff` — a failed `Add` leaves both services as they were, except
      when the read of a thing fails: a thing that was just created stays, and one that
      was there is deleted;
    • `named_thing_deleted` — the second of these.
-/
import Mainflux.Bootstrap.Registry

namespace Mainflux.Bootstrap.Compensation

open Mainflux.Lib

open Consistency (SdkFault)

/-! ## §1. Both services, and what may fail. -/

/-- The tables of Things and of the bootstrap service. -/
structure World where
  things : Things.DB
  db : DB
  unknown : List UnknownRow

/-- How `Save` fails: with an error of a statement, which is rolled back, or at the
commit, of which it reports nothing. -/
inductive SaveFault
  | refused
  | lost
  deriving DecidableEq

/-- What becomes of the calls of one `Add`: the user of a token, the order of iteration of
the maps, the id and key that Things gives a new thing, and the failures. -/
structure Outcome where
  identify : String → Option String
  order : List String → List String
  order_perm : ∀ l, (order l).Perm l
  newID : UUID
  newKey : String
  listExisting : Option Err
  channel : String → Except SdkErr Channel
  createThing : Option SdkFault
  thing : Option SdkErr
  save : Option SaveFault

/-- The thing that Things makes of an empty `mfsdk.Thing`. -/
def Outcome.newThing (o : Outcome) (owner : String) : Things.Thing :=
  { id := uuidOut o.newID, owner := owner, key := o.newKey }

/-- `CreateThing`, when it does not fail. -/
def create (o : Outcome) (token : String) (w : World) : World × Except SdkErr String :=
  match o.identify token with
  | none => (w, .error .unauthorized)
  | some owner =>
      match Things.insertThing (o.newThing owner) w.things with
      | .error _ => (w, .error .failedCreation)
      | .ok things => ({ w with things := things }, .ok (uuidOut o.newID))

/-- `Thing`, when it does not fail; the id is returned as it was asked for. -/
def view (o : Outcome) (id token : String) (w : World) : Except SdkErr SdkThing :=
  match o.identify token with
  | none => .error .unauthorized
  | some owner =>
      match (uuidIn id).bind fun u => w.things.things.find? fun r => r.Is u owner with
      | none => .error .notFound
      | some r => .ok ⟨id, r.key⟩

/-- `Thing`. -/
def thing (o : Outcome) (id token : String) (w : World) : Except SdkErr SdkThing :=
  match o.thing with
  | none => view o id token w
  | some e => .error e

/-- `DeleteThing`. -/
def delete (o : Outcome) (id token : String) (w : World) : World × Except SdkErr Unit :=
  match o.identify token with
  | none => (w, .error .unauthorized)
  -- deleting what is not there is no error
  | some owner => ({ w with things := (Things.ThingRepository.remove owner id w.things).1 }, .ok ())

/-- `Save`, with its statement on `unknown_configs`. -/
def save (o : Outcome) (cfg : Config) (connections : List String) (w : World) :
    World × Except Err String :=
  match o.save, ConfigRepository.save cfg connections w.db with
  | some .refused, _ => (w, .error .unavailable)
  -- the transaction is rolled back
  | _, (_, .error e) => (w, .error e)
  | some .lost, (_, .ok saved) => (w, .ok saved)
  | none, (d, .ok saved) =>
      ({ w with
          db := d
          unknown := deleteWhere
            (fun u => u.externalID = cfg.externalID ∧ u.externalKey = cfg.externalKey) w.unknown },
        .ok saved)

/-- What the commands of `Add` do; the others are left to `rest`. -/
def handler (o : Outcome) (rest : Handler Sig World) : Handler Sig World
  | .authIdentify token, w => (w, o.identify token)
  | .mapRange keys, w => (w, o.order keys)
  | .sdkCreateThing token, w =>
      match o.createThing with
      | none => create o token w
      | some (.refused e) => (w, .error e)
      -- the thing is made, and the service does not know
      | some .unanswered => ((create o token w).1, .error .transport)
  | .sdkThing id token, w => (w, thing o id token w)
  | .sdkDeleteThing id token, w => delete o id token w
  | .sdkChannel id _, w => (w, o.channel id)
  | .configsListExisting key ids, w =>
      (w, match o.listExisting with
        | none => .ok (ConfigRepository.listExisting key ids w.db)
        | some e => .error e)
  | .configsSave cfg connections, w => save o cfg connections w
  | c, w => rest c w

/-! ## §2. The statement. -/

/-- The same things, and the same tables of the bootstrap service. -/
structure Unchanged (w w' : World) : Prop where
  things : ∀ r, r ∈ w'.things.things ↔ r ∈ w.things.things
  db : w'.db = w.db
  unknown : w'.unknown = w.unknown

/-- `Add` gets as far as the thing of the config. -/
structure ReachesThing (o : Outcome) (w : World) (key : String) (cfg : Config) (owner : String) :
    Prop where
  identified : o.identify key = some owner
  listed : o.listExisting = none
  fetched : ∀ c ∈ Service.missing (Service.toIDList cfg.mfChannels) (Service.toIDList
    (ConfigRepository.listExisting owner (Service.toIDList cfg.mfChannels) w.db)),
      ∃ ch, o.channel c = .ok ch

/-- A new thing is created, and the answer is lost or the thing cannot be read. -/
def Leaks (o : Outcome) (w : World) (owner : String) : Prop :=
  (∃ things, Things.insertThing (o.newThing owner) w.things = .ok things) ∧
    (o.createThing = some .unanswered ∨ o.createThing = none ∧ o.thing ≠ none)

/-- A thing of the caller cannot be read, for another reason than that it is not found. -/
def Drops (o : Outcome) (w : World) (owner id : String) : Prop :=
  (∃ e, o.thing = some e ∧ e ≠ .notFound) ∧
    ∃ u, uuidIn id = some u ∧ ∃ r ∈ w.things.things, r.Is u owner

/-- The calls in which a failed `Add` changes Things. -/
def Spoils (o : Outcome) (w : World) (key : String) (cfg : Config) : Prop :=
  ∃ owner, ReachesThing o w key cfg owner ∧
    (cfg.mfThing = "" ∧ Leaks o w owner ∨ cfg.mfThing ≠ "" ∧ Drops o w owner cfg.mfThing)

/-! ## §3. The steps of `Add`. -/

section Steps

variable {o : Outcome} {rest : Handler Sig World} {w : World}

theorem Unchanged.refl (w : World) : Unchanged w w := ⟨fun _ => Iff.rfl, rfl, rfl⟩

theorem run_identify (key : String) :
    (Service.identify key).run (handler o rest) w
      = (w, match o.identify key with
          | none => .error .unauthorizedAccess
          | some owner => .ok owner) := by
  simp only [Service.identify, cmd, Prog.run_bind, Prog.run_call, Prog.run_ret, handler]
  cases o.identify key <;> rfl

/-- The channels are fetched when every one of them is answered. -/
theorem run_fetchChannels (rest : Handler Sig World) (w : World) (key : String) (ids : List String) :
    ∃ r, (Service.fetchChannels key ids).run (handler o rest) w = (w, r) ∧
      ((∃ channels, r = .ok channels) ↔ ∀ c ∈ ids, ∃ ch, o.channel c = .ok ch) := by
  induction ids with
  | nil => exact ⟨.ok [], rfl, by simp⟩
  | cons id ids ih =>
      obtain ⟨r, hrun, hok⟩ := ih
      simp only [Service.fetchChannels, cmd, Prog.run_bind, Prog.run_call, Prog.run_ret, handler]
      cases hch : o.channel id with
      | error e => exact ⟨_, rfl, by simp [hch]⟩
      | ok ch =>
          simp only [Prog.run_bind, hrun, Prog.run_pure]
          refine ⟨_, rfl, ?_⟩
          rw [List.forall_mem_cons, ← hok]
          cases r with
          | error e => simp [Except.map]
          | ok channels => simp [Except.map, hch]

theorem run_connectionChannels (rest : Handler Sig World) (w : World)
    (channels existing : List String) (key : String) :
    ∃ r, (Service.connectionChannels channels existing key).run (handler o rest) w = (w, r) ∧
      ((∃ channels, r = .ok channels) ↔
        ∀ c ∈ Service.missing channels existing, ∃ ch, o.channel c = .ok ch) := by
  obtain ⟨r, hrun, hok⟩ :=
    run_fetchChannels rest w key (o.order (Service.missing channels existing))
  refine ⟨r, ?_, ?_⟩
  · simp only [Service.connectionChannels, cmd, Prog.run_bind, Prog.run_call, Prog.run_ret, handler]
    exact hrun
  · rw [hok]
    exact forall_congr' fun c => by rw [(o.order_perm _).mem_iff]

/-- A new row, and its removal. -/
theorem insertThing_new {owner : String} {things : Things.DB}
    (h : Things.insertThing (o.newThing owner) w.things = .ok things) :
    ∃ r : Things.ThingRow, r.Is o.newID owner ∧ (∀ r' ∈ w.things.things, ¬ r'.Is o.newID owner) ∧
      things = { w.things with things := w.things.things ++ [r] } := by
  -- the id and the owner are the primary key, so no older row has both
  obtain ⟨u, hu, -, hfree, rfl⟩ := Things.insertThing_ok h
  obtain rfl : o.newID = u := Option.some.inj ((uuidIn_uuidOut o.newID).symm.trans hu)
  exact ⟨_, ⟨rfl, rfl⟩, fun r' hr' => (hfree r' hr').1, rfl⟩

/-- Deleting the thing that was just created undoes its creation. -/
theorem unchanged_deleted {key owner : String} (hid : o.identify key = some owner)
    {things : Things.DB} (h : Things.insertThing (o.newThing owner) w.things = .ok things) :
    Unchanged w (delete o (uuidOut o.newID) key { w with things := things }).1 := by
  obtain ⟨r, hr, hfree, rfl⟩ := insertThing_new h
  refine ⟨fun r' => ?_, ?_, ?_⟩
  · simp only [delete, hid, Things.ThingRepository.remove, Things.deleteThing, uuidIn_uuidOut,
      mem_deleteWhere, List.mem_append, List.mem_singleton]
    constructor
    · rintro ⟨hin | rfl, hne⟩
      · exact hin
      · exact absurd hr hne
    · exact fun hin => ⟨.inl hin, hfree r' hin⟩
  · simp only [delete, hid]
  · simp only [delete, hid]

/-- A thing that was created and stays is a change. -/
theorem not_unchanged_created {owner : String} {things : Things.DB}
    (h : Things.insertThing (o.newThing owner) w.things = .ok things) :
    ¬ Unchanged w { w with things := things } := by
  obtain ⟨r, hr, hfree, rfl⟩ := insertThing_new h
  intro hsame
  exact hfree r ((hsame.things r).mp (List.mem_append_right _ (List.mem_singleton_self r))) hr

/-- Deleting a thing that was named is a change when it is there. -/
theorem unchanged_dropped {key owner id : String} (hid : o.identify key = some owner) :
    Unchanged w (delete o id key w).1 ↔
      ¬ ∃ u, uuidIn id = some u ∧ ∃ r ∈ w.things.things, r.Is u owner := by
  simp only [delete, hid, Things.ThingRepository.remove, Things.deleteThing]
  cases hu : uuidIn id with
  | none => simp [Unchanged.refl]
  | some u =>
      constructor
      · rintro hsame ⟨u', hu', r, hr, his⟩
        obtain rfl : u = u' := Option.some.inj hu'
        exact (mem_deleteWhere.mp ((hsame.things r).mpr hr)).2 his
      · intro hnone
        refine ⟨fun r => ?_, rfl, rfl⟩
        rw [mem_deleteWhere]
        exact ⟨fun h => h.1, fun h => ⟨h, fun his => hnone ⟨u, rfl, r, h, his⟩⟩⟩

/-- A thing that was just created is found. -/
theorem view_new {key owner : String} (hid : o.identify key = some owner) {things : Things.DB}
    (h : Things.insertThing (o.newThing owner) w.things = .ok things) :
    ∃ k, view o (uuidOut o.newID) key { w with things := things } = .ok ⟨uuidOut o.newID, k⟩ := by
  obtain ⟨r, hr, hfree, rfl⟩ := insertThing_new h
  have hfind : ((w.things.things ++ [r]).find? fun r => r.Is o.newID owner) = some r := by
    rw [List.find?_append, List.find?_eq_none.mpr fun r' hr' => by simpa using hfree r' hr']
    simp [hr.1, hr.2]
  exact ⟨r.key, by simp only [view, hid, uuidIn_uuidOut, Option.bind_some, hfind]⟩

section Fetch

variable {key id thingID : String}

theorem run_fetchThing_ok {th : SdkThing} (h : thing o thingID key w = .ok th) :
    (Service.fetchThing key id thingID).run (handler o rest) w = (w, .ok th) := by
  simp only [Service.fetchThing, cmd, Prog.run_bind, Prog.run_call, Prog.run_ret, handler, h]
  rfl

/-- A thing that cannot be read is deleted when the config names it, unless it is not found. -/
theorem run_fetchThing_error (rest : Handler Sig World) (id : String) {e : SdkErr}
    (h : thing o thingID key w = .error e) :
    ∃ err, (Service.fetchThing key id thingID).run (handler o rest) w
      = (if e = .notFound ∨ id = "" then w else (delete o thingID key w).1, .error err) := by
  simp only [Service.fetchThing, cmd, Prog.run_bind, Prog.run_call, Prog.run_ret, handler, h]
  cases e with
  | notFound => exact ⟨.notFound, rfl⟩
  | _ =>
      -- the errors of the SDK but `ErrNotFound` are not told apart
      refine ⟨.things, ?_⟩
      by_cases hid : id = ""
      · simp only [hid, if_true, or_true, Prog.run_pure]
      · simp only [hid, if_false, reduceCtorEq, or_self, Prog.run_bind, Prog.run_call,
          Prog.run_ret, Prog.run_pure, handler]

end Fetch

/-- A creation that Things refuses leaks nothing. -/
theorem create_refused {key owner : String} {e : PqError} (hid : o.identify key = some owner)
    (h : Things.insertThing (o.newThing owner) w.things = .error e) :
    create o key w = (w, .error .failedCreation) ∧ ¬ Leaks o w owner := by
  refine ⟨by simp only [create, hid, h], ?_⟩
  rintro ⟨⟨things, hthings⟩, -⟩
  rw [h] at hthings
  cases hthings

/-- `thing` for a config that names none. -/
theorem run_thing_new (rest : Handler Sig World) (w : World) {key owner : String}
    (hid : o.identify key = some owner) :
    (∃ k things, Things.insertThing (o.newThing owner) w.things = .ok things ∧
        (Service.thing key "").run (handler o rest) w
          = ({ w with things := things }, .ok ⟨uuidOut o.newID, k⟩) ∧ ¬ Leaks o w owner) ∨
      ∃ e w', (Service.thing key "").run (handler o rest) w = (w', .error e) ∧
        (Unchanged w w' ↔ ¬ Leaks o w owner) := by
  simp only [Service.thing, if_true, cmd, Prog.run_bind, Prog.run_call, Prog.run_ret, handler]
  cases hinsert : Things.insertThing (o.newThing owner) w.things with
  | error e =>
      obtain ⟨hcreate, hleaks⟩ := create_refused hid hinsert
      refine .inr ?_
      cases hfault : o.createThing with
      | none => exact ⟨_, w, by simp only [hcreate]; rfl, iff_of_true (.refl w) hleaks⟩
      | some f =>
          cases f with
          | refused e => exact ⟨_, w, rfl, iff_of_true (.refl w) hleaks⟩
          | unanswered => exact ⟨_, w, by simp only [hcreate]; rfl, iff_of_true (.refl w) hleaks⟩
  | ok things =>
      have hcreate : create o key w = ({ w with things := things }, .ok (uuidOut o.newID)) := by
        simp only [create, hid, hinsert]
      have hstays : ¬ Unchanged w { w with things := things } := not_unchanged_created hinsert
      cases hfault : o.createThing with
      | none =>
          simp only [hcreate]
          cases hthing : o.thing with
          | none =>
              obtain ⟨k, hview⟩ := view_new hid hinsert
              have hread : thing o (uuidOut o.newID) key { w with things := things }
                  = .ok ⟨uuidOut o.newID, k⟩ := by
                simp only [thing, hthing, hview]
              refine .inl ⟨k, things, rfl, run_fetchThing_ok hread, ?_⟩
              simp [Leaks, hfault, hthing]
          | some e =>
              have hread : thing o (uuidOut o.newID) key { w with things := things } = .error e := by
                simp only [thing, hthing]
              have hleaks : Leaks o w owner :=
                ⟨⟨things, hinsert⟩, .inr ⟨hfault, by rw [hthing]; exact Option.some_ne_none e⟩⟩
              -- the inverted test: nothing is deleted, as the config names no thing
              obtain ⟨err, hrun⟩ := run_fetchThing_error rest "" hread
              rw [if_pos (.inr rfl)] at hrun
              exact .inr ⟨err, _, hrun, iff_of_false hstays (not_not_intro hleaks)⟩
      | some f =>
          cases f with
          | refused e =>
              refine .inr ⟨_, w, rfl, iff_of_true (.refl w) ?_⟩
              simp [Leaks, hfault]
          | unanswered =>
              simp only [hcreate]
              exact .inr ⟨_, _, rfl, iff_of_false hstays
                (not_not_intro ⟨⟨things, hinsert⟩, .inl hfault⟩)⟩

/-- A read fails with another error than `ErrNotFound` only when the call fails. -/
theorem thing_error_iff {key owner id : String} {e : SdkErr} (hid : o.identify key = some owner)
    (hne : e ≠ .notFound) : thing o id key w = .error e ↔ o.thing = some e := by
  constructor
  · intro h
    cases hthing : o.thing with
    | some e' =>
        simp only [thing, hthing, Except.error.injEq] at h
        rw [h]
    | none =>
        simp only [thing, hthing, view, hid] at h
        split at h
        · exact absurd (Except.error.inj h).symm hne
        · cases h
  · intro h
    simp only [thing, h]

/-- `thing` for a config that names one. -/
theorem run_thing_named (rest : Handler Sig World) (w : World) {key owner id : String}
    (hid : o.identify key = some owner) (hne : id ≠ "") :
    (∃ th, (Service.thing key id).run (handler o rest) w = (w, .ok th) ∧ ¬ Drops o w owner id) ∨
      ∃ e w', (Service.thing key id).run (handler o rest) w = (w', .error e) ∧
        (Unchanged w w' ↔ ¬ Drops o w owner id) := by
  have hrun : (Service.thing key id).run (handler o rest) w
      = (Service.fetchThing key id id).run (handler o rest) w := by
    rw [Service.thing, if_neg hne]
  rw [hrun]
  cases hread : thing o id key w with
  | ok th =>
      refine .inl ⟨th, run_fetchThing_ok hread, ?_⟩
      rintro ⟨⟨e, he, hnotFound⟩, -⟩
      rw [(thing_error_iff hid hnotFound).mpr he] at hread
      cases hread
  | error e =>
      obtain ⟨err, hfetch⟩ := run_fetchThing_error rest id hread
      refine .inr ⟨err, _, hfetch, ?_⟩
      by_cases hfound : e = .notFound
      · rw [if_pos (.inl hfound)]
        refine iff_of_true (.refl w) ?_
        rintro ⟨⟨e', he', hnotFound⟩, -⟩
        rw [(thing_error_iff hid hnotFound).mpr he'] at hread
        exact hnotFound ((Except.error.inj hread).trans hfound)
      · rw [if_neg (not_or.mpr ⟨hfound, hne⟩), unchanged_dropped hid]
        exact not_congr
          ⟨fun h => ⟨⟨e, (thing_error_iff hid hfound).mp hread, hfound⟩, h⟩, fun h => h.2⟩

/-- `Save` with an error changes nothing. -/
theorem save_cases (o : Outcome) (cfg : Config) (connections : List String) (w : World) :
    (∃ e, save o cfg connections w = (w, .error e)) ∨
      ∃ w' saved, save o cfg connections w = (w', .ok saved) := by
  unfold save
  split
  · exact .inl ⟨_, rfl⟩
  · exact .inl ⟨_, rfl⟩
  · exact .inr ⟨_, _, rfl⟩
  · exact .inr ⟨_, _, rfl⟩

end Steps

/-! ## §4. `Add`. -/

/-- **If the call fails, nothing has changed.** -/
def FailsClean (o : Outcome) (rest : Handler Sig World) (key : String) (cfg : Config) (w : World) :
    Prop :=
  ∀ e, ((Service.add key cfg).run (handler o rest) w).2 = .error e →
    Unchanged w ((Service.add key cfg).run (handler o rest) w).1

section Add

variable {o : Outcome} {rest : Handler Sig World} {w : World} {key owner : String} {cfg : Config}

/-- What `Add` can do: stop before the thing and change nothing, stop at the thing, save
the config, or fail to save it and delete a thing that is new. -/
theorem run_add (o : Outcome) (rest : Handler Sig World) (w : World) (key : String) (cfg : Config) :
    (∃ e, (Service.add key cfg).run (handler o rest) w = (w, .error e) ∧
        ∀ owner, ¬ ReachesThing o w key cfg owner) ∨
      ∃ owner, ReachesThing o w key cfg owner ∧
        ((∃ e w', (Service.thing key cfg.mfThing).run (handler o rest) w = (w', .error e) ∧
            (Service.add key cfg).run (handler o rest) w = (w', .error e)) ∨
          ∃ th w', (Service.thing key cfg.mfThing).run (handler o rest) w = (w', .ok th) ∧
            ((∃ w'' new, (Service.add key cfg).run (handler o rest) w = (w'', .ok new)) ∨
              ∃ e, (Service.add key cfg).run (handler o rest) w
                = (if cfg.mfThing = "" then (delete o th.id key w').1 else w', .error e))) := by
  simp only [Service.add, cmd, Prog.run_bind, run_identify]
  cases hid : o.identify key with
  | none =>
      refine .inl ⟨_, rfl, fun owner h => ?_⟩
      have hsome := h.identified
      rw [hid] at hsome
      cases hsome
  | some owner =>
      simp only [Prog.run_bind, Prog.run_call, Prog.run_ret, handler]
      cases hlist : o.listExisting with
      | some e =>
          refine .inl ⟨_, rfl, fun owner h => ?_⟩
          have hnone := h.listed
          rw [hlist] at hnone
          cases hnone
      | none =>
          obtain ⟨r, hrun, hok⟩ := run_connectionChannels (o := o) rest w
            (Service.toIDList cfg.mfChannels) (Service.toIDList (ConfigRepository.listExisting owner
              (Service.toIDList cfg.mfChannels) w.db)) key
          simp only [Prog.run_bind, hrun]
          cases r with
          | error e =>
              refine .inl ⟨_, rfl, fun owner' h => ?_⟩
              obtain rfl : owner = owner' := Option.some.inj (hid.symm.trans h.identified)
              obtain ⟨channels, hchannels⟩ := hok.mpr h.fetched
              cases hchannels
          | ok channels =>
              refine .inr ⟨owner, ⟨hid, hlist, hok.mp ⟨channels, rfl⟩⟩, ?_⟩
              simp only [Prog.run_bind]
              rcases hthing : (Service.thing key cfg.mfThing).run (handler o rest) w with ⟨w', r⟩
              cases r with
              | error e => exact .inl ⟨e, w', rfl, rfl⟩
              | ok th =>
                  refine .inr ⟨th, w', rfl, ?_⟩
                  simp only [Prog.run_bind, Prog.run_call, Prog.run_ret, handler]
                  rcases save_cases o (newConfig cfg owner th channels)
                      (Service.toIDList cfg.mfChannels) w' with ⟨e, hsave⟩ | ⟨w'', saved, hsave⟩
                  · refine .inr ⟨e, ?_⟩
                    simp only [newConfig] at hsave
                    simp only [hsave]
                    by_cases hnew : cfg.mfThing = ""
                    · simp only [hnew, if_true, Prog.run_bind, Prog.run_call, Prog.run_ret,
                        Prog.run_pure, handler]
                    · simp only [hnew, if_false, Prog.run_pure]
                  · simp only [newConfig] at hsave
                    simp only [hsave, Prog.run_pure]
                    exact .inl ⟨_, _, rfl⟩

/-- Once `Add` is at the thing of the config, `thing` decides: where it fails, `Add` does
no more, and where it succeeds, a failed `Save` must be made good. -/
theorem failsClean_of_thing {P : Prop} (hreach : ReachesThing o w key cfg owner)
    (hstop : ∀ e w', (Service.thing key cfg.mfThing).run (handler o rest) w = (w', .error e) →
      (Unchanged w w' ↔ P))
    (hgo : ∀ th w', (Service.thing key cfg.mfThing).run (handler o rest) w = (w', .ok th) →
      P ∧ Unchanged w (if cfg.mfThing = "" then (delete o th.id key w').1 else w')) :
    FailsClean o rest key cfg w ↔ P := by
  rcases run_add o rest w key cfg with ⟨e, -, hstops⟩ | ⟨owner', -, ⟨e, w', hrun, hadd⟩ |
    ⟨th, w', hrun, hadd⟩⟩
  · exact absurd hreach (hstops owner)
  · rw [← hstop e w' hrun, FailsClean, hadd]
    exact ⟨fun h => h e rfl, fun h _ _ => h⟩
  · obtain ⟨hP, hsame⟩ := hgo th w' hrun
    refine iff_of_true (fun e he => ?_) hP
    rcases hadd with ⟨w'', new, hadd⟩ | ⟨e', hadd⟩
    · rw [hadd] at he
      cases he
    · rw [hadd]
      exact hsame

/-- A config that names no thing. -/
theorem failsClean_new (hreach : ReachesThing o w key cfg owner) (hnew : cfg.mfThing = "") :
    FailsClean o rest key cfg w ↔ ¬ Leaks o w owner := by
  have hthing := run_thing_new rest w hreach.identified
  rw [← hnew] at hthing
  rcases hthing with ⟨k, things, hinsert, hrun, hleaks⟩ | ⟨e, w', hrun, hsame⟩
  · refine failsClean_of_thing hreach (fun e w' h => ?_) fun th w' h => ?_
    · rw [hrun] at h
      cases h
    · rw [hrun] at h
      cases h
      rw [if_pos hnew]
      exact ⟨hleaks, unchanged_deleted hreach.identified hinsert⟩
  · refine failsClean_of_thing hreach (fun e' w'' h => ?_) fun th w'' h => ?_
    · rw [hrun] at h
      cases h
      exact hsame
    · rw [hrun] at h
      cases h

/-- A config that names its thing. -/
theorem failsClean_named (hreach : ReachesThing o w key cfg owner) (hnamed : cfg.mfThing ≠ "") :
    FailsClean o rest key cfg w ↔ ¬ Drops o w owner cfg.mfThing := by
  rcases run_thing_named rest w hreach.identified hnamed with ⟨th, hrun, hdrops⟩ |
    ⟨e, w', hrun, hsame⟩
  · refine failsClean_of_thing hreach (fun e w' h => ?_) fun th' w' h => ?_
    · rw [hrun] at h
      cases h
    · rw [hrun] at h
      cases h
      rw [if_neg hnamed]
      exact ⟨hdrops, .refl w⟩
  · refine failsClean_of_thing hreach (fun e' w'' h => ?_) fun th w'' h => ?_
    · rw [hrun] at h
      cases h
      exact hsame
    · rw [hrun] at h
      cases h

/-- **A failed `Add` leaves both services as they were**, exactly when it is not the read
of a thing that fails: of one that it has created, or of one that is there. -/
theorem add_unchanged_iff (o : Outcome) (rest : Handler Sig World) (w : World) (key : String)
    (cfg : Config) : FailsClean o rest key cfg w ↔ ¬ Spoils o w key cfg := by
  by_cases hreach : ∃ owner, ReachesThing o w key cfg owner
  · obtain ⟨owner, hreach⟩ := hreach
    have hspoils : Spoils o w key cfg ↔
        cfg.mfThing = "" ∧ Leaks o w owner ∨ cfg.mfThing ≠ "" ∧ Drops o w owner cfg.mfThing := by
      refine ⟨?_, fun h => ⟨owner, hreach, h⟩⟩
      rintro ⟨owner', hreach', h⟩
      obtain rfl : owner = owner' :=
        Option.some.inj (hreach.identified.symm.trans hreach'.identified)
      exact h
    rw [hspoils]
    by_cases hnew : cfg.mfThing = ""
    · rw [failsClean_new hreach hnew]
      simp [hnew]
    · rw [failsClean_named hreach hnew]
      simp [hnew]
  · refine iff_of_true (fun e _ => ?_) fun h => hreach ⟨h.choose, h.choose_spec.1⟩
    rcases run_add o rest w key cfg with ⟨e', hrun, -⟩ | ⟨owner, hreached, -⟩
    · rw [hrun]
      exact .refl w
    · exact absurd ⟨owner, hreached⟩ hreach

end Add

/-! ## §5. A thing that was there. -/

/-- The thing of a caller, and no config for it yet. -/
def oneThing : World where
  things := ⟨[⟨UUID.fill 1, "ada@uoc", "", "k", []⟩], [], []⟩
  db := ⟨[], [], []⟩
  unknown := []

/-- Things answers the read with an internal error. -/
def readFails : Outcome where
  identify := fun token => if token = "token" then some "ada@uoc" else none
  order := id
  order_perm := fun l => .refl l
  newID := UUID.fill 2
  newKey := "new"
  listExisting := none
  channel := fun _ => .error .notFound
  createThing := none
  thing := some .fetchFailed
  save := none

/-- A config for the thing, without channels. -/
def ofThing : Config := { mfThing := uuidOut (UUID.fill 1), externalID := "x", externalKey := "y" }

/-- Nothing else answers. -/
def silent : Handler Sig World
  | .authIdentify _, w => (w, none)
  | .mapRange keys, w => (w, keys)
  | .sdkCreateThing _, w => (w, .error .transport)
  | .sdkThing _ _, w => (w, .error .transport)
  | .sdkDeleteThing _ _, w => (w, .error .transport)
  | .sdkChannel _ _, w => (w, .error .transport)
  | .sdkConnectThing _ _ _, w => (w, .error .transport)
  | .sdkDisconnectThing _ _ _, w => (w, .error .transport)
  | .configsListExisting _ _, w => (w, .error .unavailable)
  | .configsRetrieveByID _ _, w => (w, .error .unavailable)
  | .configsSave _ _, w => (w, .error .unavailable)
  | .configsUpdate _, w => (w, .error .unavailable)
  | .configsUpdateCert _ _ _ _ _, w => (w, .error .unavailable)
  | .configsUpdateConnections _ _ _ _, w => (w, .error .unavailable)
  | .configsChangeState _ _ _, w => (w, .error .unavailable)
  | .configsRemove _ _, w => (w, .error .unavailable)
  | .configsCleanup, w => (w, .error .unavailable)

/-- **The thing that the caller has named is deleted.** -/
theorem named_thing_deleted :
    ¬ ∀ (o : Outcome) (rest : Handler Sig World) (w : World) (key : String) (cfg : Config),
      FailsClean o rest key cfg w := by
  intro h
  have hfailed : ((Service.add "token" ofThing).run (handler readFails silent) oneThing).2
      = .error .things := by decide +kernel
  have hdeleted : ((Service.add "token" ofThing).run (handler readFails silent) oneThing).1.things.things
      = [] := by decide +kernel
  have hsame := (h readFails silent oneThing "token" ofThing .things hfailed).things
    ⟨UUID.fill 1, "ada@uoc", "", "k", []⟩
  rw [hdeleted] at hsame
  exact List.not_mem_nil (hsame.mpr (List.mem_singleton_self _))

end Mainflux.Bootstrap.Compensation
