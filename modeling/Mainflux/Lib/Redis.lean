/-
  Mainflux.Lib.Redis
  ──────────────────
  **A REDIS KEYSPACE: the string and set commands.**

  One keyspace maps keys to string values or to sets of strings.  The
  commands are the ones a client issues through GET, SET, DEL, SADD, SREM and
  SISMEMBER; a command on a key of the other type answers WRONGTYPE and
  changes nothing, GET on a missing key answers nil.

  The two views a client has of the keyspace are `lookup` (the string at a
  key) and `member` (membership of the set at a key).  §2 says what every
  command does to both views, so that no later proof opens a command.
-/
import Mathlib.Data.List.Basic

namespace Mainflux.Lib

namespace Redis

/-- A stored value. -/
inductive Value
  | str (s : String)
  | set (members : List String)

/-- The errors a command can answer. -/
inductive Error
  | nil
  | wrongType
  deriving Repr, DecidableEq

end Redis

/-- A keyspace. -/
abbrev Redis := String → Option Redis.Value

namespace Redis

/-! ## §1. The commands. -/

def empty : Redis := fun _ => none

/-- Put a value (or nothing) at one key. -/
def put (r : Redis) (key : String) (v : Option Value) : Redis :=
  fun k => if k = key then v else r k

/-- `GET key`. -/
def get (r : Redis) (key : String) : Except Error String :=
  match r key with
  | some (.str s) => .ok s
  | some (.set _) => .error .wrongType
  | none => .error .nil

/-- `SET key value` (no expiry): overwrites a value of either type. -/
def set (r : Redis) (key value : String) : Redis := r.put key (some (.str value))

/-- `DEL key...`. -/
def del (r : Redis) (keys : List String) : Redis :=
  fun k => if k ∈ keys then none else r k

/-- `SADD key member`. -/
def sAdd (r : Redis) (key m : String) : Redis × Except Error Unit :=
  match r key with
  | some (.str _) => (r, .error .wrongType)
  | some (.set ms) => (r.put key (some (.set (if m ∈ ms then ms else m :: ms))), .ok ())
  | none => (r.put key (some (.set [m])), .ok ())

/-- A set value; a key whose set is empty does not exist. -/
def ofMembers : List String → Option Value
  | [] => none
  | ms => some (.set ms)

/-- `SREM key member`. -/
def sRem (r : Redis) (key m : String) : Redis × Except Error Unit :=
  match r key with
  | some (.str _) => (r, .error .wrongType)
  | some (.set ms) => (r.put key (ofMembers (ms.filter (· ≠ m))), .ok ())
  | none => (r, .ok ())

/-- `SISMEMBER key member`. -/
def sIsMember (r : Redis) (key m : String) : Except Error Bool :=
  match r key with
  | some (.str _) => .error .wrongType
  | some (.set ms) => .ok (m ∈ ms)
  | none => .ok false

/-! ## §2. The two views. -/

/-- The string stored at a key, if any. -/
def lookup (r : Redis) (key : String) : Option String :=
  match r key with
  | some (.str s) => some s
  | _ => none

/-- `m` is in the set stored at `key`. -/
def member (r : Redis) (key m : String) : Prop :=
  ∃ ms, r key = some (.set ms) ∧ m ∈ ms

instance (r : Redis) (key m : String) : Decidable (r.member key m) :=
  match h : r key with
  | some (.set ms) =>
      decidable_of_iff (m ∈ ms) ⟨fun hm => ⟨ms, h, hm⟩, fun ⟨ms', h', hm⟩ => by
        rw [h] at h'; cases h'; exact hm⟩
  | some (.str _) => isFalse fun ⟨_, h', _⟩ => by rw [h] at h'; cases h'
  | none => isFalse fun ⟨_, h', _⟩ => by rw [h] at h'; cases h'

@[simp] theorem lookup_empty (key : String) : empty.lookup key = none := rfl

@[simp] theorem not_member_empty (key m : String) : ¬ empty.member key m := by
  rintro ⟨ms, h, -⟩
  cases h

theorem get_eq_ok {r : Redis} {key v : String} : r.get key = .ok v ↔ r.lookup key = some v := by
  unfold get lookup
  cases r key with
  | none => simp
  | some w => cases w <;> simp

theorem sIsMember_eq_true {r : Redis} {key m : String} :
    r.sIsMember key m = .ok true ↔ r.member key m := by
  unfold sIsMember member
  cases r key with
  | none => simp
  | some w => cases w <;> simp

theorem lookup_put_ne (r : Redis) {key k : String} (v : Option Value) (h : k ≠ key) :
    (r.put key v).lookup k = r.lookup k := by
  simp [lookup, put, h]

theorem member_put_same (r : Redis) (key m : String) (v : Option Value) :
    (r.put key v).member key m ↔ ∃ ms, v = some (.set ms) ∧ m ∈ ms := by
  simp [member, put]

theorem member_put_ne (r : Redis) {key k : String} (v : Option Value) (m : String)
    (h : k ≠ key) : (r.put key v).member k m ↔ r.member k m := by
  simp [member, put, h]

theorem member_put_ofMembers (r : Redis) (key m : String) (ms : List String) :
    (r.put key (ofMembers ms)).member key m ↔ m ∈ ms := by
  rw [member_put_same]
  cases ms <;> simp [ofMembers]

@[simp] theorem lookup_set (r : Redis) (key v k : String) :
    (r.set key v).lookup k = if k = key then some v else r.lookup k := by
  by_cases h : k = key
  · simp [set, put, lookup, h]
  · rw [if_neg h]
    exact lookup_put_ne r _ h

@[simp] theorem member_set (r : Redis) (key v k m : String) :
    (r.set key v).member k m ↔ k ≠ key ∧ r.member k m := by
  by_cases h : k = key
  · subst h
    simp [set, member_put_same]
  · simp [set, member_put_ne, h]

@[simp] theorem lookup_del (r : Redis) (keys : List String) (k : String) :
    (r.del keys).lookup k = if k ∈ keys then none else r.lookup k := by
  unfold del lookup
  by_cases h : k ∈ keys <;> simp [h]

@[simp] theorem member_del (r : Redis) (keys : List String) (k m : String) :
    (r.del keys).member k m ↔ k ∉ keys ∧ r.member k m := by
  unfold del member
  by_cases h : k ∈ keys <;> simp [h]

theorem lookup_sAdd_ne (r : Redis) {key k : String} (m : String) (h : k ≠ key) :
    (r.sAdd key m).1.lookup k = r.lookup k := by
  unfold sAdd
  split <;> simp [lookup_put_ne, h]

/-- SADD adds at most the pair it names. -/
theorem member_sAdd {r : Redis} {key m k x : String} (h : (r.sAdd key m).1.member k x) :
    (k = key ∧ x = m) ∨ r.member k x := by
  by_cases hk : k = key
  · subst hk
    unfold sAdd at h
    split at h
    next => exact .inr h
    next ms hms =>
        obtain ⟨xs, hxs, hx⟩ := (member_put_same r k x _).mp h
        cases hxs
        by_cases hm : m ∈ ms
        · exact .inr ⟨ms, hms, by rwa [if_pos hm] at hx⟩
        · rw [if_neg hm] at hx
          rcases List.mem_cons.mp hx with hx | hx
          · exact .inl ⟨rfl, hx⟩
          · exact .inr ⟨ms, hms, hx⟩
    next =>
        obtain ⟨xs, hxs, hx⟩ := (member_put_same r k x _).mp h
        cases hxs
        exact .inl ⟨rfl, List.mem_singleton.mp hx⟩
  · right
    unfold sAdd at h
    split at h
    next => exact h
    next => exact (member_put_ne r _ x hk).mp h
    next => exact (member_put_ne r _ x hk).mp h

theorem lookup_sRem_ne (r : Redis) {key k : String} (m : String) (h : k ≠ key) :
    (r.sRem key m).1.lookup k = r.lookup k := by
  unfold sRem
  split <;> simp [lookup_put_ne, h]

/-- SREM removes the pair it names and no other. -/
theorem member_sRem {r : Redis} {key m k x : String} :
    (r.sRem key m).1.member k x ↔ r.member k x ∧ ¬ (k = key ∧ x = m) := by
  by_cases hk : k = key
  · subst hk
    unfold sRem
    cases hr : r k with
    | none => simp [member, hr]
    | some v =>
        cases v with
        | str s => simp [member, hr]
        | set ms =>
            have hmem : r.member k x ↔ x ∈ ms := by simp [member, hr]
            simp only [member_put_ofMembers, hmem, List.mem_filter, decide_eq_true_eq,
              true_and, ne_eq]
  · unfold sRem
    split <;> simp [member_put_ne, hk]

end Redis

end Mainflux.Lib
