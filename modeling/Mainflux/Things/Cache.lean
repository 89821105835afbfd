/-
  Mainflux.Things.Cache
  ─────────────────────
  **THE TWO CACHES OF THE THINGS SERVICE, IN ONE REDIS KEYSPACE.**

  `redis/things.go` keeps `thing_key:<key> ↦ id` and the reverse map
  `thing:<id> ↦ key`; `redis/channels.go` keeps the set `channel:<chanID>` of
  the things known to be connected.  Ids are the TEXTS the callers gave: two
  spellings of one UUID are two cache entries.

  The three views below are all the service can observe of the keyspace:

    • `cachedID r key` — the id the thing cache answers for a key;
    • `cachedKey r id` — the key recorded for an id, read by evictions only;
    • `cachedPair r c t` — the channel cache says `t` is connected to `c`.

  §3 gives the effect of each cache operation on the three views.
-/
import Mainflux.Lib.Redis

namespace Mainflux.Things

open Mainflux.Lib

/-! ## §1. Names in the keyspace. -/

def keyPrefix : String := "thing_key"

def idPrefix : String := "thing"

def chanPrefix : String := "channel"

/-- `fmt.Sprintf("%s:%s", keyPrefix, thingKey)`. -/
def tkey (thingKey : String) : String := keyPrefix ++ ":" ++ thingKey

/-- `fmt.Sprintf("%s:%s", idPrefix, thingID)`. -/
def tid (thingID : String) : String := idPrefix ++ ":" ++ thingID

/-- The first component of `kv(chanID, thingID)`; the second is `thingID`. -/
def cid (chanID : String) : String := chanPrefix ++ ":" ++ chanID

@[simp] theorem tkey_inj {a b : String} : tkey a = tkey b ↔ a = b := by
  simp [tkey, keyPrefix]

@[simp] theorem tid_inj {a b : String} : tid a = tid b ↔ a = b := by
  simp [tid, idPrefix]

@[simp] theorem cid_inj {a b : String} : cid a = cid b ↔ a = b := by
  simp [cid, chanPrefix]

@[simp] theorem tkey_ne_tid (a b : String) : tkey a ≠ tid b := by
  intro h
  have := congrArg String.toList h
  simp [tkey, tid, keyPrefix, idPrefix, String.toList_append] at this

@[simp] theorem tkey_ne_cid (a b : String) : tkey a ≠ cid b := by
  intro h
  have := congrArg String.toList h
  simp [tkey, cid, keyPrefix, chanPrefix, String.toList_append] at this

@[simp] theorem tid_ne_cid (a b : String) : tid a ≠ cid b := by
  intro h
  have := congrArg String.toList h
  simp [tid, cid, idPrefix, chanPrefix, String.toList_append] at this

/-! ## §2. The views and the operations. -/

/-- The id the thing cache answers for a key. -/
def cachedID (r : Redis) (key : String) : Option String := r.lookup (tkey key)

/-- The key the thing cache has recorded for an id. -/
def cachedKey (r : Redis) (id : String) : Option String := r.lookup (tid id)

/-- The channel cache says that `t` is connected to `c`. -/
def cachedPair (r : Redis) (c t : String) : Prop := r.member (cid c) t

instance (r : Redis) (c t : String) : Decidable (cachedPair r c t) :=
  inferInstanceAs (Decidable (r.member (cid c) t))

/-- The keyspace after `thingCache.Save`. -/
def cacheThing (r : Redis) (key id : String) : Redis := (r.set (tkey key) id).set (tid id) key

/-- The keyspace after `thingCache.Remove`: nothing happens when no key is
recorded for the id. -/
def evictThing (r : Redis) (id : String) : Redis :=
  match cachedKey r id with
  | some key => r.del [tkey key, tid id]
  | none => r

/-- The keyspace after `channelCache.Connect`. -/
def cachePair (r : Redis) (c t : String) : Redis := (r.sAdd (cid c) t).1

/-- The keyspace after `channelCache.Disconnect`. -/
def evictPair (r : Redis) (c t : String) : Redis := (r.sRem (cid c) t).1

/-- The keyspace after `channelCache.Remove`. -/
def evictChannel (r : Redis) (c : String) : Redis := r.del [cid c]

/-! ## §3. Effects on the views. -/

variable {r : Redis}

@[simp] theorem cachedID_empty (k : String) : cachedID Redis.empty k = none := rfl

@[simp] theorem cachedPair_empty (c t : String) : ¬ cachedPair Redis.empty c t :=
  Redis.not_member_empty _ _

@[simp] theorem cachedID_cacheThing (key id k : String) :
    cachedID (cacheThing r key id) k = if k = key then some id else cachedID r k := by
  simp [cachedID, cacheThing]

@[simp] theorem cachedKey_cacheThing (key id t : String) :
    cachedKey (cacheThing r key id) t = if t = id then some key else cachedKey r t := by
  simp [cachedKey, cacheThing, (tkey_ne_tid _ _).symm]

@[simp] theorem cachedPair_cacheThing (key id c t : String) :
    cachedPair (cacheThing r key id) c t ↔ cachedPair r c t := by
  simp [cachedPair, cacheThing, (tkey_ne_cid _ _).symm, (tid_ne_cid _ _).symm]

/-- Evicting a thing forgets at most one key: the one recorded for it. -/
theorem cachedID_evictThing (id k : String) :
    cachedID (evictThing r id) k
      = if cachedKey r id = some k then none else cachedID r k := by
  unfold evictThing
  cases hkey : cachedKey r id with
  | none => simp
  | some key =>
      simp only [cachedID, Redis.lookup_del, List.mem_cons, tkey_inj, tkey_ne_tid,
        List.not_mem_nil, or_false, Option.some.injEq]
      simp only [eq_comm]

@[simp] theorem cachedPair_evictThing (id c t : String) :
    cachedPair (evictThing r id) c t ↔ cachedPair r c t := by
  unfold evictThing
  cases cachedKey r id with
  | none => rfl
  | some key => simp [cachedPair, (tkey_ne_cid _ _).symm, (tid_ne_cid _ _).symm]

@[simp] theorem cachedID_cachePair (c t k : String) :
    cachedID (cachePair r c t) k = cachedID r k :=
  Redis.lookup_sAdd_ne r t (tkey_ne_cid k c)

@[simp] theorem cachedKey_cachePair (c t id : String) :
    cachedKey (cachePair r c t) id = cachedKey r id :=
  Redis.lookup_sAdd_ne r t (tid_ne_cid id c)

theorem cachedPair_cachePair {c t c' t' : String}
    (h : cachedPair (cachePair r c t) c' t') : (c' = c ∧ t' = t) ∨ cachedPair r c' t' := by
  rcases Redis.member_sAdd h with ⟨hc, ht⟩ | h
  · exact .inl ⟨cid_inj.mp hc, ht⟩
  · exact .inr h

@[simp] theorem cachedID_evictPair (c t k : String) :
    cachedID (evictPair r c t) k = cachedID r k :=
  Redis.lookup_sRem_ne r t (tkey_ne_cid k c)

@[simp] theorem cachedPair_evictPair (c t c' t' : String) :
    cachedPair (evictPair r c t) c' t' ↔ cachedPair r c' t' ∧ ¬ (c' = c ∧ t' = t) := by
  simp only [cachedPair, evictPair, Redis.member_sRem, cid_inj]

@[simp] theorem cachedID_evictChannel (c k : String) :
    cachedID (evictChannel r c) k = cachedID r k := by
  simp [cachedID, evictChannel]

@[simp] theorem cachedPair_evictChannel (c c' t : String) :
    cachedPair (evictChannel r c) c' t ↔ c' ≠ c ∧ cachedPair r c' t := by
  simp [cachedPair, evictChannel]

end Mainflux.Things
