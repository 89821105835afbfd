/-
  Mainflux.Adapters.LoraRoutes
  ────────────────────────────
  **WHERE THE MESSAGES OF A LORA DEVICE GO.**

  `Publish` asks the route maps for the thing of a device EUI and for the
  channel of an application; the event methods keep the maps.  Each map is a
  two-way map in Redis (`view`), whose `Save` writes over both directions and
  removes no earlier partner.  So an update that CHANGES an id leaves the old
  route behind, and an id that is taken by another thing takes the route along.

    • `view_call` — a call is one operation on one of the two maps;
    • `routed_iff` — the maps stay inverse, and with them the routes stay right,
      exactly in the histories that never save an id that has another partner.
-/
import Mainflux.Adapters.Lora
import Mainflux.Lib.Base64
import Mainflux.Lib.Bimap

namespace Mainflux.Adapters.Lora

open Mainflux.Lib

/-! ## §1. The service. -/

/-- The answers of a Redis that serves every command. -/
abbrev served : Nat → Answer := fun _ => .done

/-- `CreateThing`. -/
def createThing (mfxDevID loraDevEUI : String) : Redis → Redis × Option Err :=
  thingsRM.save mfxDevID loraDevEUI served

/-- `UpdateThing`. -/
def updateThing (mfxDevID loraDevEUI : String) : Redis → Redis × Option Err :=
  thingsRM.save mfxDevID loraDevEUI served

/-- `RemoveThing`. -/
def removeThing (mfxDevID : String) : Redis → Redis × Option Err :=
  thingsRM.remove mfxDevID served

/-- `CreateChannel`. -/
def createChannel (mfxChanID loraAppID : String) : Redis → Redis × Option Err :=
  channelsRM.save mfxChanID loraAppID served

/-- `UpdateChannel`. -/
def updateChannel (mfxChanID loraAppID : String) : Redis → Redis × Option Err :=
  channelsRM.save mfxChanID loraAppID served

/-- `RemoveChannel`. -/
def removeChannel (mfxChanID : String) : Redis → Redis × Option Err :=
  channelsRM.remove mfxChanID served

/-- What `Publish` reads of a message of the LoRa server. -/
structure Message where
  applicationID : String
  devEUI : String
  data : String
  object : Option Json

inductive Payload
  | bytes (b : List UInt8)
  | text (cs : List Char)
  deriving DecidableEq

/-- The message for the broker. -/
structure Published where
  publisher : String
  channel : String
  payload : Payload
  deriving DecidableEq

inductive PublishErr
  | notFoundDev
  | notFoundApp
  | malformedMessage
  deriving DecidableEq

/-- `base64.StdEncoding.DecodeString`: padded, with `+` and `/`. -/
def decodeString (s : String) : Option (List UInt8) :=
  let cs := s.toList.filter fun c => c ≠ '\r' ∧ c ≠ '\n'
  if '-' ∈ cs ∨ '_' ∈ cs then none
  else Base64.readGroups (cs.map fun c => if c = '+' then '-' else if c = '/' then '_' else c)

/-- `Publish`, up to the broker. -/
def publish (m : Message) (r : Redis) : Except PublishErr Published :=
  match thingsRM.get m.devEUI .done r with
  | .error _ => .error .notFoundDev
  | .ok thing =>
      match channelsRM.get m.applicationID .done r with
      | .error _ => .error .notFoundApp
      | .ok channel =>
          match m.object with
          | none =>
              match decodeString m.data with
              | none => .error .malformedMessage
              | some payload => .ok ⟨thing, channel, .bytes payload⟩
          | some object => .ok ⟨thing, channel, .text (Json.write object)⟩

/-- Where a message goes is what `Get` says. -/
theorem publish_ok {m : Message} {r : Redis} {p : Published} (h : publish m r = .ok p) :
    thingsRM.get m.devEUI .done r = .ok p.publisher ∧
      channelsRM.get m.applicationID .done r = .ok p.channel := by
  unfold publish at h
  split at h
  next => cases h
  next thing hthing =>
      split at h
      next => cases h
      next channel hchannel =>
          split at h
          next =>
              split at h
              next => cases h
              next =>
                  cases h
                  exact ⟨hthing, hchannel⟩
          next =>
              cases h
              exact ⟨hthing, hchannel⟩

/-! ## §2. Calls. -/

/-- What is routed. -/
inductive Kind
  | thing
  | channel
  deriving DecidableEq

def Kind.map : Kind → RouteMap
  | .thing => thingsRM
  | .channel => channelsRM

/-- The calls that change the maps. -/
inductive Call
  | createThing (mfxDevID loraDevEUI : String)
  | updateThing (mfxDevID loraDevEUI : String)
  | removeThing (mfxDevID : String)
  | createChannel (mfxChanID loraAppID : String)
  | updateChannel (mfxChanID loraAppID : String)
  | removeChannel (mfxChanID : String)

def call (r : Redis) : Call → Redis
  | .createThing m l => (createThing m l r).1
  | .updateThing m l => (updateThing m l r).1
  | .removeThing m => (removeThing m r).1
  | .createChannel m l => (createChannel m l r).1
  | .updateChannel m l => (updateChannel m l r).1
  | .removeChannel m => (removeChannel m r).1

def Call.kind : Call → Kind
  | .createThing _ _ | .updateThing _ _ | .removeThing _ => .thing
  | .createChannel _ _ | .updateChannel _ _ | .removeChannel _ => .channel

/-- The call, as an operation on its map. -/
def Call.op : Call → Bimap.Op String String
  | .createThing m l | .updateThing m l | .createChannel m l | .updateChannel m l => .save m l
  | .removeThing m | .removeChannel m => .remove m

/-- The Mainflux id of the call. -/
def Call.mfxID (c : Call) : String := c.op.of

/-- After a history of calls. -/
abbrev after (history : List Call) : Redis := run call Redis.empty history

/-! ## §3. The maps in Redis. -/

/-- A route map, as a two-way map. -/
def view (k : Kind) (r : Redis) : Bimap String String where
  out m := r.lookup (k.map.mfxKey m)
  back l := r.lookup (k.map.protocolKey l)

theorem get_eq_ok {k : Kind} {r : Redis} {l m : String} :
    k.map.get l .done r = .ok m ↔ (view k r).back l = some m :=
  RouteMap.get_served

theorem toString_eq (s : String) : toString s = s := rfl

theorem mfxKey_inj {k k' : Kind} {m m' : String} :
    k.map.mfxKey m = k'.map.mfxKey m' ↔ k = k' ∧ m = m' := by
  cases k <;> cases k' <;>
    simp [Kind.map, thingsRM, channelsRM, routeMap, toString_eq, ← String.toList_inj]

theorem protocolKey_inj {k k' : Kind} {l l' : String} :
    k.map.protocolKey l = k'.map.protocolKey l' ↔ k = k' ∧ l = l' := by
  cases k <;> cases k' <;>
    simp [Kind.map, thingsRM, channelsRM, routeMap, toString_eq, ← String.toList_inj]

/-- The two directions never share a key. -/
theorem mfxKey_ne_protocolKey (k k' : Kind) (m l : String) :
    k.map.mfxKey m ≠ k'.map.protocolKey l := by
  cases k <;> cases k' <;>
    simp [Kind.map, thingsRM, channelsRM, routeMap, toString_eq, ← String.toList_inj]

/-- `Save` on one map, seen from either. -/
theorem view_save (k k' : Kind) (m l : String) (r : Redis) :
    view k (k'.map.save m l served r).1 = if k' = k then (view k r).save m l else view k r := by
  have hsave : (k'.map.save m l served r).1
      = (r.set (k'.map.mfxKey m) l).set (k'.map.protocolKey l) m := rfl
  rw [hsave]
  by_cases hk : k' = k
  · rw [if_pos hk, hk]
    ext x v
    · simp [view, Bimap.save_out, Redis.lookup_set, mfxKey_ne_protocolKey, mfxKey_inj]
    · simp [view, Bimap.save_back, Redis.lookup_set, (mfxKey_ne_protocolKey _ _ _ _).symm,
        protocolKey_inj]
  · have hk' : ¬ k = k' := fun h => hk h.symm
    rw [if_neg hk]
    ext x v
    · simp [view, Redis.lookup_set, mfxKey_ne_protocolKey, mfxKey_inj, hk']
    · simp [view, Redis.lookup_set, (mfxKey_ne_protocolKey _ _ _ _).symm, protocolKey_inj, hk']

theorem view_remove (k k' : Kind) (m : String) (r : Redis) :
    view k (k'.map.remove m served r).1 = if k' = k then (view k r).remove m else view k r := by
  have hremove : (k'.map.remove m served r).1
      = ((view k' r).out m).elim r fun l => r.del [k'.map.mfxKey m, k'.map.protocolKey l] :=
    RouteMap.remove_served m r
  rw [hremove]
  by_cases hk : k' = k
  · rw [if_pos hk, hk]
    cases hout : (view k r).out m with
    | none =>
        rw [Option.elim_none]
        ext x v
        · simp only [Bimap.remove]
          split
          next hx => rw [hx, hout]
          next => rfl
        · simp [Bimap.remove, hout]
    | some l =>
        rw [Option.elim_some]
        ext x v
        · simp [view, Bimap.remove, Redis.lookup_del, mfxKey_ne_protocolKey, mfxKey_inj]
        · rw [Bimap.remove, hout]
          simp [view, Redis.lookup_del, (mfxKey_ne_protocolKey _ _ _ _).symm, protocolKey_inj,
            eq_comm]
  · have hk' : ¬ k = k' := fun h => hk h.symm
    rw [if_neg hk]
    cases (view k' r).out m with
    | none => rfl
    | some l =>
        ext x v
        · simp [view, Redis.lookup_del, mfxKey_ne_protocolKey, mfxKey_inj, hk']
        · simp [view, Redis.lookup_del, (mfxKey_ne_protocolKey _ _ _ _).symm, protocolKey_inj, hk']

/-- **A call is one operation on its map, and none on the other.** -/
theorem view_call (k : Kind) (r : Redis) (c : Call) :
    view k (call r c) = if c.kind = k then (view k r).step c.op else view k r := by
  cases c with
  | createThing m l => exact view_save k .thing m l r
  | updateThing m l => exact view_save k .thing m l r
  | removeThing m => exact view_remove k .thing m r
  | createChannel m l => exact view_save k .channel m l r
  | updateChannel m l => exact view_save k .channel m l r
  | removeChannel m => exact view_remove k .channel m r

/-! ## §4. Histories. -/

/-- Both maps are inverse to each other, for things and for channels. -/
def MutuallyInverse (r : Redis) : Prop := ∀ k, (view k r).Inverse

/-- The thing or channel that a LoRa id was last saved for, unless that has been removed since. -/
def lastSaved (k : Kind) (history : List Call) : String → Option String :=
  run (fun f c => if c.kind = k then Bimap.record f c.op else f) (fun _ => none) history

/-- What the last call of a history is to have done: what was removed has no route any more, what
was saved has the one route, and the routes of the others are where they were last saved. -/
def RightAfter (history : List Call) (c : Call) : Prop :=
  (match c.op with
    | .remove m => ∀ l, c.kind.map.get l .done (after (history ++ [c])) ≠ .ok m
    | .save m l => ∀ l', c.kind.map.get l' .done (after (history ++ [c])) = .ok m ↔ l' = l) ∧
  ∀ l m, m ≠ c.mfxID → lastSaved c.kind history l = some m →
    c.kind.map.get l .done (after (history ++ [c])) = .ok m

/-- **Along the whole history the maps are inverse and the routes right**, and `Publish` finds them
so. -/
structure Routed (calls : List Call) : Prop where
  inverse : ∀ before rest, calls = before ++ rest → MutuallyInverse (after before)
  right : ∀ before c rest, calls = before ++ c :: rest → RightAfter before c
  removed : ∀ before m rest, calls = before ++ .removeThing m :: rest →
    ∀ msg p, publish msg (after (before ++ [.removeThing m])) = .ok p → p.publisher ≠ m
  updated : ∀ before m l rest, calls = before ++ .updateThing m l :: rest →
    ∀ msg p, publish msg (after (before ++ [.updateThing m l])) = .ok p → p.publisher = m →
      msg.devEUI = l

/-- The call saves no id that has another partner. -/
def Paired (r : Redis) (c : Call) : Prop := (view c.kind r).Paired c.op

theorem inverse_call_iff {r : Redis} (h : MutuallyInverse r) (c : Call) :
    MutuallyInverse (call r c) ↔ Paired r c := by
  rw [Paired, ← Bimap.inverse_step_iff (h c.kind)]
  constructor
  · intro hall
    have hk := hall c.kind
    rw [view_call, if_pos rfl] at hk
    exact hk
  · intro hstep k
    rw [view_call]
    split
    next hk =>
        rw [← hk]
        exact hstep
    next => exact h k

theorem inverse_start : MutuallyInverse Redis.empty := fun _ => Bimap.inverse_empty

theorem inverse_after {history : List Call} (h : Along call Paired Redis.empty history) :
    MutuallyInverse (after history) :=
  run_inv (I := MutuallyInverse) (fun _ c hr hp => (inverse_call_iff hr c).mpr hp) inverse_start h

/-- While the maps are inverse, the reverse map says whom an id was last saved for. -/
theorem back_eq_lastSaved {history : List Call} (h : Along call Paired Redis.empty history)
    (k : Kind) : (view k (after history)).back = lastSaved k history := by
  induction history using List.reverseRecOn with
  | nil => rfl
  | append_singleton history c ih =>
      obtain ⟨hbefore, hc, -⟩ := (along_append _ _ _).mp h
      have hinv : MutuallyInverse (after history) := inverse_after hbefore
      have hafter : after (history ++ [c]) = call (after history) c := run_append _ _ _
      have hlast : lastSaved k (history ++ [c])
          = if c.kind = k then Bimap.record (lastSaved k history) c.op else lastSaved k history :=
        run_append _ _ _
      rw [hafter, hlast, view_call, ← ih hbefore]
      split
      next => exact Bimap.back_step (hinv k) c.op
      next => rfl

/-- **One paired call after a history of paired calls does what it should.** -/
theorem rightAfter_of_paired {history : List Call} {c : Call}
    (h : Along call Paired Redis.empty (history ++ [c])) : RightAfter history c := by
  obtain ⟨hbefore, hc, -⟩ := (along_append _ _ _).mp h
  have hinv : MutuallyInverse (after history) := inverse_after hbefore
  have hview : view c.kind (after (history ++ [c])) = (view c.kind (after history)).step c.op := by
    rw [show after (history ++ [c]) = call (after history) c from run_append _ _ _, view_call,
      if_pos rfl]
  constructor
  · have hpaired : (view c.kind (after history)).Paired c.op := hc
    cases hop : c.op with
    | remove m =>
        intro l
        rw [Ne, get_eq_ok, hview, hop]
        exact Bimap.back_remove_ne (hinv c.kind) m l
    | save m l =>
        intro l'
        rw [get_eq_ok, hview, hop]
        rw [hop] at hpaired
        exact Bimap.back_save_iff (hinv c.kind) hpaired l'
  · intro l m hm hl
    rw [← back_eq_lastSaved hbefore] at hl
    rw [get_eq_ok, hview]
    exact Bimap.back_step_of_ne (hinv c.kind) hc hm hl

/-- **The routes are right along a history exactly when it saves no id that has another
partner.** -/
theorem routed_iff (calls : List Call) :
    Routed calls ↔ Along call Paired Redis.empty calls := by
  have hinverse : (∀ before after, calls = before ++ after →
      MutuallyInverse (run call Redis.empty before)) ↔ Along call Paired Redis.empty calls :=
    run_iff (I := MutuallyInverse) (J := fun _ => True) (C := Paired) (fun _ _ h => h)
      (fun r c _ hr => inverse_call_iff hr c) trivial inverse_start
  constructor
  · intro h
    exact hinverse.mp h.inverse
  · intro halong
    have hright : ∀ before c rest, calls = before ++ c :: rest → RightAfter before c := by
      intro before c rest heq
      refine rightAfter_of_paired ?_
      rw [heq, List.append_cons] at halong
      exact ((along_append _ _ _).mp halong).1
    refine ⟨hinverse.mpr halong, hright, ?_, ?_⟩
    · intro before m rest heq msg p hp hm
      have hget := (publish_ok hp).1
      rw [hm] at hget
      exact (hright before _ rest heq).1 msg.devEUI hget
    · intro before m l rest heq msg p hp hm
      have hget := (publish_ok hp).1
      rw [hm] at hget
      exact ((hright before _ rest heq).1 msg.devEUI).mp hget

/-- A device gets a new EUI: the thing goes on receiving what the old one sends. -/
theorem update_leaves_old_route :
    ¬ Routed [.createThing "m" "l1", .updateThing "m" "l2"] := by
  intro h
  have hright := (h.right [.createThing "m" "l1"] (.updateThing "m" "l2") [] rfl).1 "l1"
  have hget : Kind.thing.map.get "l1" .done
      (after ([.createThing "m" "l1"] ++ [.updateThing "m" "l2"])) = .ok "m" := by
    rw [get_eq_ok]
    decide +kernel
  exact absurd (hright.mp hget) (by decide)

end Mainflux.Adapters.Lora
