/-
  Mainflux.Things.CacheRuns
  ─────────────────────────
  **WHAT IS LEFT OF A THING IN THE CACHE AFTER `Remove`.**

  `Save` writes `thing_key:<key>` and `thing:<id>`, each over what was there; `Remove` reads
  the one and deletes both.  So the cache is a two-way map (`view`) whose sides part when an
  id is saved under another key, or a key for another id.

    • `view_cacheAfter` — the cache after a history, as a two-way map;
    • `ledger` — what the history says should be there;
    • `removal_complete_iff` — the histories in which `Remove` takes away all that belongs
      to the thing, and nothing else;
    • `removal_complete_of_paired` — one key for an id is enough.
-/
import Mainflux.Lib.Bimap
import Mainflux.Things.Service

namespace Mainflux.Things

open Mainflux.Lib

/-! ## §1. Histories. -/

/-- The operations of `thingCache` that write. -/
inductive CacheOp
  | save (thingKey thingID : String)
  | remove (thingID : String)
  deriving DecidableEq

def CacheOp.prog : CacheOp → Prog Sig (Except Redis.Error Unit)
  | .save thingKey thingID => ThingCache.save thingKey thingID
  | .remove thingID => ThingCache.remove thingID

def cacheStep (E : Env) (w : World) (op : CacheOp) : World := (op.prog.run (handle E) w).1

/-- After a history that begins with nothing in Redis. -/
abbrev cacheAfter (E : Env) (w : World) (ops : List CacheOp) : World :=
  run (cacheStep E) { w with redis := Redis.empty } ops

/-- What `thingCache.ID` answers. -/
def answeredID (E : Env) (w : World) (thingKey : String) : Except Redis.Error String :=
  ((ThingCache.id thingKey).run (handle E) w).2

/-- The id of the last `Save` of a key. -/
def lastSaved (ops : List CacheOp) (key : String) : Option String :=
  ops.foldl (fun last op =>
    match op with
    | .save thingKey thingID => if thingKey = key then some thingID else last
    | .remove _ => last) none

/-- **Removal is complete**: after `Remove(id)` no key is answered with the id before it is
saved again, and no key that was last saved for another id fails because of it. -/
structure RemovalComplete (E : Env) (w : World) (ops : List CacheOp) : Prop where
  gone : ∀ pre id mid post, ops = pre ++ .remove id :: (mid ++ post) →
    (∀ key, CacheOp.save key id ∉ mid) →
      ∀ key, answeredID E (cacheAfter E w (pre ++ .remove id :: mid)) key ≠ .ok id
  kept : ∀ pre id post, ops = pre ++ .remove id :: post →
    ∀ key other, lastSaved pre key = some other → other ≠ id →
      (∃ x, answeredID E (cacheAfter E w pre) key = .ok x) →
        ∃ x, answeredID E (cacheAfter E w (pre ++ [.remove id])) key = .ok x

/-! ## §2. The cache as a two-way map. -/

/-- The key of an id and the id of a key. -/
def view (r : Redis) : Bimap String String where
  out := cachedKey r
  back := cachedID r

def CacheOp.op : CacheOp → Bimap.Op String String
  | .save thingKey thingID => .save thingID thingKey
  | .remove thingID => .remove thingID

/-- What should be there: an id belongs to the key it was last saved under, a key to the id
it was last saved for, until that is removed. -/
abbrev ledger (ops : List CacheOp) : Bimap String String :=
  run Bimap.idealStep Bimap.empty (ops.map CacheOp.op)

section View

variable (E : Env) (w : World)

theorem cachedKey_evictThing (r : Redis) (id t : String) :
    cachedKey (evictThing r id) t = if t = id then none else cachedKey r t := by
  unfold evictThing
  cases hkey : cachedKey r id with
  | none =>
      show cachedKey r t = _
      split
      next heq => rw [heq, hkey]
      next => rfl
  | some key =>
      show (r.del [tkey key, tid id]).lookup (tid t) = _
      rw [Redis.lookup_del]
      refine if_congr ?_ rfl rfl
      rw [List.mem_cons, List.mem_singleton, tid_inj]
      exact or_iff_right (tkey_ne_tid key t).symm

theorem run_thingCache_save (thingKey thingID : String) :
    ((ThingCache.save thingKey thingID).run (handle E) w).1
      = { w with redis := cacheThing w.redis thingKey thingID } := rfl

/-- An operation, on the two-way map. -/
theorem view_cacheStep (op : CacheOp) :
    view (cacheStep E w op).redis = (view w.redis).step op.op := by
  cases op with
  | save thingKey thingID =>
      unfold cacheStep CacheOp.prog
      rw [run_thingCache_save]
      ext1
      · funext t
        exact cachedKey_cacheThing thingKey thingID t
      · funext k
        exact cachedID_cacheThing thingKey thingID k
  | remove thingID =>
      unfold cacheStep CacheOp.prog
      rw [run_thingCache_remove]
      ext1
      · funext t
        exact cachedKey_evictThing w.redis thingID t
      · funext k
        exact cachedID_evictThing thingID k

theorem view_run (ops : List CacheOp) :
    view (run (cacheStep E) w ops).redis
      = run Bimap.step (view w.redis) (ops.map CacheOp.op) := by
  induction ops generalizing w with
  | nil => rfl
  | cons op ops ih => rw [run_cons, ih, view_cacheStep, List.map_cons, run_cons]

/-- **The cache after a history.** -/
theorem view_cacheAfter (ops : List CacheOp) :
    view (cacheAfter E w ops).redis = run Bimap.step Bimap.empty (ops.map CacheOp.op) :=
  view_run E { w with redis := Redis.empty } ops

theorem answeredID_iff {key id : String} :
    answeredID E w key = .ok id ↔ (view w.redis).back key = some id :=
  Redis.get_eq_ok

end View

theorem ledger_append (pre : List CacheOp) (op : CacheOp) :
    ledger (pre ++ [op]) = (ledger pre).idealStep op.op := by
  unfold ledger
  rw [List.map_append, run_append]
  rfl

/-- What should be there was saved last. -/
theorem lastSaved_of_ledger {ops : List CacheOp} {key id : String}
    (h : (ledger ops).back key = some id) : lastSaved ops key = some id := by
  induction ops using List.reverseRecOn with
  | nil => cases h
  | append_singleton ops op ih =>
      rw [ledger_append] at h
      unfold lastSaved at ih ⊢
      rw [List.foldl_append, List.foldl_cons, List.foldl_nil]
      cases op with
      | save thingKey thingID =>
          have h' : (if key = thingKey then some thingID else (ledger ops).back key) = some id := h
          dsimp only
          split at h'
          next heq => rw [if_pos heq.symm, h']
          next hne =>
              rw [if_neg fun heq => hne heq.symm]
              exact ih h'
      | remove thingID =>
          have h' : (if (ledger ops).back key = some thingID then none else (ledger ops).back key)
              = some id := h
          split at h'
          next => cases h'
          next => exact ih h'

/-! ## §3. The main result. -/

section Complete

variable {E : Env} {w : World} {ops : List CacheOp}

/-- The cache has been, after every part of the history, what it should be. -/
def AsRecorded (ops : List CacheOp) : Prop :=
  ∀ before after, ops = before ++ after →
    run Bimap.step Bimap.empty (before.map CacheOp.op) = ledger before

theorem asRecorded_iff :
    AsRecorded ops ↔
      ∀ pre id post, ops = pre ++ .remove id :: post → (ledger pre).Matched id := by
  have hmap : AsRecorded ops ↔
      ∀ before after, ops.map CacheOp.op = before ++ after →
        run Bimap.step Bimap.empty before = run Bimap.idealStep Bimap.empty before := by
    constructor
    · intro h before after heq
      obtain ⟨pre, post, hops, rfl, -⟩ := List.map_eq_append_iff.mp heq
      exact h pre post hops
    · intro h before after heq
      exact h _ (after.map CacheOp.op) (by rw [heq, List.map_append])
  rw [hmap, Bimap.run_eq_iff, along_iff]
  constructor
  · intro h pre id post heq
    exact h (pre.map CacheOp.op) (.remove id) (post.map CacheOp.op)
      (by rw [heq, List.map_append, List.map_cons]; rfl)
  · intro h before op after heq
    obtain ⟨pre, rest, hops, rfl, hrest⟩ := List.map_eq_append_iff.mp heq
    obtain ⟨op', post, rfl, rfl, -⟩ := List.map_eq_cons_iff.mp hrest
    cases op' with
    | save thingKey thingID => trivial
    | remove id => exact h pre id post hops

/-- In a cache that is what it should be, removals are complete. -/
theorem removalComplete_of_recorded (h : AsRecorded ops) : RemovalComplete E w ops := by
  have hview : ∀ before after, ops = before ++ after →
      view (cacheAfter E w before).redis = ledger before := fun before after heq =>
    (view_cacheAfter E w before).trans (h before after heq)
  constructor
  · intro pre id mid post heq hmid key hanswer
    rw [answeredID_iff, hview _ post (by rw [heq, List.append_assoc, List.cons_append])] at hanswer
    have hrun : ledger (pre ++ .remove id :: mid)
        = run Bimap.idealStep ((ledger pre).forget id) (mid.map CacheOp.op) := by
      unfold ledger
      rw [List.map_append, List.map_cons, run_append]
      rfl
    rw [hrun] at hanswer
    refine Bimap.forgotten id (fun key hin => ?_) key hanswer
    -- only a `Save` of the id saves the id
    obtain ⟨op, hop, hsave⟩ := List.mem_map.mp hin
    cases op with
    | save thingKey thingID =>
        cases hsave
        exact hmid key hop
    | remove thingID => cases hsave
  · intro pre id post heq key other hlast hne ⟨x, hx⟩
    rw [answeredID_iff, hview pre _ heq] at hx
    refine ⟨x, ?_⟩
    rw [answeredID_iff, hview _ post (by rw [heq, List.append_assoc]; rfl), ledger_append]
    show (if (ledger pre).back key = some id then none else (ledger pre).back key) = some x
    -- the key belongs to the id that it was saved for last, which is another one
    have hxother : some x = some other := (lastSaved_of_ledger hx).symm.trans hlast
    rw [hx, if_neg]
    rw [hxother]
    exact fun hid => hne (Option.some.inj hid)

/-- Where removals are complete, every removal has found the cache as it should be: what it
leaves behind, or takes away, would show. -/
theorem recorded_of_removalComplete (h : RemovalComplete E w ops) : AsRecorded ops := by
  intro before
  induction before using List.reverseRecOn with
  | nil => exact fun _ _ => rfl
  | append_singleton before op ih =>
      intro after heq
      have heq' : ops = before ++ op :: after := by
        rw [heq, List.append_assoc]
        rfl
      have hbefore := ih (op :: after) heq'
      have hview : view (cacheAfter E w before).redis = ledger before :=
        (view_cacheAfter E w before).trans hbefore
      have hstep : view (cacheAfter E w (before ++ [op])).redis = (ledger before).step op.op := by
        rw [view_cacheAfter, List.map_append, run_append, hbefore]
        rfl
      rw [List.map_append, run_append, hbefore, ledger_append]
      refine (Bimap.step_eq_iff op.op).mpr ?_
      cases op with
      | save thingKey thingID => trivial
      | remove id =>
          have hback : ∀ key, (view (cacheAfter E w (before ++ [.remove id])).redis).back key
              = if (ledger before).out id = some key then none else (ledger before).back key :=
            fun key => congrFun (congrArg Bimap.back hstep) key
          constructor
          · intro key hkey
            by_contra hout
            refine h.gone before id [] after heq' (fun _ => List.not_mem_nil) key ?_
            rw [answeredID_iff, hback, if_neg hout]
            exact hkey
          · intro key other hout hother
            by_contra hne
            have hfound : ∃ x, answeredID E (cacheAfter E w before) key = .ok x := by
              refine ⟨other, ?_⟩
              rw [answeredID_iff, hview]
              exact hother
            obtain ⟨x, hx⟩ := h.kept before id after heq' key other (lastSaved_of_ledger hother)
              hne hfound
            rw [answeredID_iff, hback, if_pos hout] at hx
            cases hx

/-- **Removal is complete exactly in the histories in which every `Remove` finds the one key
that belongs to its id to be the one it was last saved under, and that key to belong to no
other id.** -/
theorem removal_complete_iff (E : Env) (w : World) (ops : List CacheOp) :
    RemovalComplete E w ops ↔
      ∀ pre id post, ops = pre ++ .remove id :: post → (ledger pre).Matched id := by
  rw [← asRecorded_iff]
  exact ⟨recorded_of_removalComplete, removalComplete_of_recorded⟩

/-- **One key for an id**: it is enough that an id is saved under another key, and a key for
another id, only after what was there has been removed. -/
theorem removal_complete_of_paired
    (h : Along Bimap.idealStep Bimap.Paired Bimap.empty (ops.map CacheOp.op)) :
    RemovalComplete E w ops := by
  apply removalComplete_of_recorded
  rw [asRecorded_iff]
  intro pre id post heq
  rw [heq, List.map_append, along_append] at h
  have hinverse : (ledger pre).Inverse :=
    run_inv (I := Bimap.Inverse) (fun _ _ hm hp => Bimap.inverse_idealStep hm hp)
      Bimap.inverse_empty h.1
  exact hinverse.matched id

end Complete

/-- Nothing is identified, and nothing stored. -/
def idle : Env := ⟨fun _ _ => none, fun _ => none⟩

/-- **A thing that was saved under two keys is answered for the first after its removal.** -/
theorem first_key_still_answered :
    ¬ ∀ (E : Env) (w : World) (ops : List CacheOp), RemovalComplete E w ops := by
  intro h
  have hgone := (h idle ⟨DB.empty, Redis.empty, 0⟩
    [.save "k1" "lamp", .save "k2" "lamp", .remove "lamp"]).gone
    [.save "k1" "lamp", .save "k2" "lamp"] "lamp" [] [] rfl (fun _ => List.not_mem_nil) "k1"
  rw [ne_eq, answeredID_iff] at hgone
  exact hgone (by decide)

end Mainflux.Things
