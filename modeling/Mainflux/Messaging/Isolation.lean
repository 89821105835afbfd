/-
  Mainflux.Messaging.Isolation
  ────────────────────────────
  **WHO RECEIVES WHAT, over every run of adapters, broker and writers.**

  The handlers keep to a protocol: they publish and subscribe on a channel only after the
  things service has granted access to it, under the id that came with the grant.  With
  that, and as long as no subtopic has a blank in it, the broker is a bus whose state keeps
  two invariants: `Sound`, that all is done by right, and `Served`, that every subscription
  has had what it is for.

    • `follows_serve` — every handler keeps to the protocol;
    • `isolated` — whatever is received was published on that channel by a thing that had
      been granted access to it;
    • `in_order` — nothing that is published is lost on the way, or doubled, or overtaken;
    • `accepted_published` — what an accepted HTTP request leaves behind;
    • `eavesdrops` — what becomes of all this when a subtopic has a line end in it.
-/
import Mathlib.Data.List.Nodup
import Mainflux.Messaging.Broker

namespace Mainflux.Messaging.Broker

open Mainflux.Lib

open Coap.Api (Access Cmd RpcError ServiceErr Sig cmd)

open Prog (Follows)

/-! ## §1. What the handlers do. -/

/-- What a handler knows: the grants that it was given, and what was published for it. -/
structure Known where
  grants : List Grant := []
  sent : List Publication := []

/-- Nothing is asked of the broker without a grant. -/
def rightful : Prog.Protocol Sig Known where
  rule g
    | .publish m => (∃ x ∈ g.grants, x.chanID = m.channel ∧ x.thing = m.publisher) ∧
        IdText m.channel ∧ Unblanked m.subtopic
    | .subscribe chanID subtopic _ =>
        (∃ x ∈ g.grants, x.chanID = chanID) ∧ IdText chanID ∧ Unblanked subtopic
    | _ => True
  move g
    | .canAccessByKey token chanID, r =>
        if r.err = none then { g with grants := ⟨token, chanID, r.value⟩ :: g.grants } else g
    | .publish m, r => if r = none then { g with sent := m :: g.sent } else g
    | _, _ => g
  -- every error of a call has a status
  allowed
    | .canAccessByKey _ _, r => r.err ≠ some .plain
    | _, _ => True

/-- No subtopic of the request has a blank in it. -/
def Request.Clean : Request → Prop
  | .http r => ∀ id part subtopic, channelPart r.uri = some (id, part) →
      parseSubtopic part = some subtopic → Unblanked subtopic
  | .ws r => ∀ id part subtopic, channelPart r.uri = some (id, part) →
      parseSubtopic part = some subtopic → Unblanked subtopic
  | .coap msg => ∀ subtopic, Coap.Api.fmtSubtopic (Coap.Api.routed msg) = some subtopic →
      Unblanked subtopic

/-- What is known of an answer. -/
def Answered : Request → Known → Reply → Prop
  | .http r, g, .http .accepted => ∃ id part subtopic payload thing,
      channelPart r.uri = some (id, part) ∧ parseSubtopic part = some subtopic ∧
      r.body = some payload ∧ ⟨r.authorization, id, thing⟩ ∈ g.grants ∧
      ⟨id, subtopic, thing, r.contentType, Http.protocol, payload⟩ ∈ g.sent
  | _, _, _ => True

theorem idText_of_channelPart {uri id part : Text} (h : channelPart uri = some (id, part)) :
    IdText id := by
  obtain ⟨-, hchars, hne, -⟩ := channelPart_eq_some h
  exact ⟨hne, hchars⟩

section Handlers

variable {α : Type} {Q : Known → α → Prop} {g : Known}

theorem follows_cmd {c : Cmd} {f : Sig.Res c → Prog Sig α} (hrule : rightful.rule g c)
    (hf : ∀ r, rightful.allowed c r → (f r).Follows rightful Q (rightful.move g c r)) :
    (cmd c >>= f).Follows rightful Q g :=
  ⟨hrule, hf⟩

theorem follows_http {r : Http.Request} (h : (Request.http r).Clean) :
    (Http.serve r).Follows rightful (fun g s => Answered (.http r) g (.http s)) {} := by
  rw [Http.serve]
  cases hroute : route r.uri with
  | none => trivial
  | some chanID =>
      simp only
      cases hdecode : Http.decodeRequest chanID r with
      | none => trivial
      | some msg =>
          unfold Http.decodeRequest at hdecode
          split at hdecode
          next => cases hdecode
          next id part hpart =>
              split at hdecode
              next subtopic payload hsub hbody =>
                  obtain rfl := Option.some.inj hdecode
                  have hid : id = chanID :=
                    Option.some.inj ((route_of_channelPart hpart).symm.trans hroute)
                  subst hid
                  refine follows_cmd trivial fun access _ => ?_
                  cases herr : access.err with
                  | some e => cases e with
                    | plain => trivial
                    | status code => cases code <;> trivial
                  | none =>
                      simp only [rightful, herr, if_pos]
                      refine follows_cmd
                        ⟨⟨_, List.mem_cons_self, rfl, rfl⟩, idText_of_channelPart hpart,
                          h id part subtopic hpart hsub⟩ fun res _ => ?_
                      cases res with
                      | some e => trivial
                      | none => exact ⟨id, part, subtopic, payload, access.value, hpart, hsub, hbody,
                          List.mem_cons_self, List.mem_cons_self⟩
              next => cases hdecode

theorem follows_broadcast (sub : Ws.Subscription) (hid : IdText sub.chanID)
    (hs : Unblanked sub.subtopic) (ct : Text) (reads : List (List UInt8))
    (hg : ∃ x ∈ g.grants, x.chanID = sub.chanID ∧ x.thing = sub.pubID) :
    (Ws.broadcast sub ct reads).Follows rightful (fun _ _ => True) g := by
  induction reads generalizing g with
  | nil => trivial
  | cons payload reads ih =>
      refine follows_cmd ⟨hg, hid, hs⟩ fun res _ => ?_
      -- a publication does not take a grant away
      have hkept : ∃ x ∈ (rightful.move g (.publish
          ⟨sub.chanID, sub.subtopic, sub.pubID, ct, Ws.protocol, payload⟩) res).grants,
            x.chanID = sub.chanID ∧ x.thing = sub.pubID := by
        cases res <;> exact hg
      cases res with
      | none => exact ih hkept
      | some e => cases e with
        | failedConnection => trivial
        | failedMessagePublish => exact ih hkept
        | failedSubscription => exact ih hkept

theorem follows_connect {r : Ws.Handshake} (h : (Request.ws r).Clean) {pubID chanID : Text}
    (hroute : route r.uri = some chanID)
    (hg : ∃ x ∈ g.grants, x.chanID = chanID ∧ x.thing = pubID) :
    (Ws.connect r pubID chanID).Follows rightful (fun _ _ => True) g := by
  rw [Ws.connect]
  split
  next => trivial
  next id part hpart =>
      have hid : id = chanID := Option.some.inj ((route_of_channelPart hpart).symm.trans hroute)
      subst hid
      split
      next => trivial
      next subtopic hsub =>
          have hword := idText_of_channelPart hpart
          have hclean := h id part subtopic hpart hsub
          split
          · obtain ⟨x, hx, hchan, hthing⟩ := hg
            refine follows_cmd ⟨⟨x, hx, hchan⟩, hword, hclean⟩ fun res _ => ?_
            cases res with
            | some e => trivial
            | none =>
                refine Follows.bind (Follows.mono (fun _ _ _ => trivial)
                  (follows_broadcast ⟨pubID, id, subtopic⟩ hword hclean _ _
                    ⟨x, hx, hchan, hthing⟩))
          · trivial

theorem follows_ws {r : Ws.Handshake} (h : (Request.ws r).Clean) :
    (Ws.serve r).Follows rightful (fun _ _ => True) {} := by
  rw [Ws.serve]
  split
  next => trivial
  next chanID hroute =>
      split
      next => trivial
      next key hkey =>
          refine follows_cmd trivial fun id _ => ?_
          cases herr : id.err with
          | some e => cases e with
            | plain => trivial
            | status code => cases code <;> trivial
          | none =>
              simp only [rightful, herr, if_pos]
              exact follows_connect h hroute ⟨_, List.mem_cons_self, rfl, rfl⟩

section Coap

open Coap.Api (authorize fmtSubtopic routed)

variable {msg : Coap.Api.Message}

/-- An authorized client has been granted access; the error without a status, which would let others
through, does not come. -/
theorem follows_authorize (res : Coap.Api.Message) (cid : Text) :
    (authorize msg res cid).Follows rightful (fun g' out => ∀ publisher, out.2 = .ok publisher →
      ∃ x ∈ g'.grants, x.chanID = cid ∧ x.thing = publisher) g := by
  rw [authorize]
  split
  next => exact fun publisher h => nomatch h
  next key hkey =>
      refine follows_cmd trivial fun access hallowed => ?_
      cases herr : access.err with
      | none =>
          simp only [rightful, herr, if_pos]
          intro publisher h
          exact ⟨_, List.mem_cons_self, rfl, Except.ok.inj h⟩
      | some e => cases e with
        | plain => exact absurd herr hallowed
        | status code => cases code <;> exact fun publisher h => nomatch h

theorem follows_receive (hid : Coap.Api.id msg ≠ [] → IdText (Coap.Api.id msg))
    (hs : ∀ subtopic, fmtSubtopic msg = some subtopic → Unblanked subtopic) :
    (Coap.Api.receive msg).Follows rightful (fun _ _ => True) g := by
  rw [Coap.Api.receive]
  split
  next => trivial
  next =>
      split
      next => trivial
      next hne =>
          split
          next => trivial
          next subtopic hsub =>
              refine Follows.bind ((follows_authorize _ _).mono fun g' out hout => ?_)
              obtain ⟨res, answer⟩ := out
              cases answer with
              | error e => trivial
              | ok publisher =>
                  refine follows_cmd ⟨hout publisher rfl, hid hne, hs subtopic hsub⟩ fun r _ => ?_
                  cases r <;> trivial

theorem follows_observe (hid : Coap.Api.id msg ≠ [] → IdText (Coap.Api.id msg))
    (hs : ∀ subtopic, fmtSubtopic msg = some subtopic → Unblanked subtopic) :
    (Coap.Api.observe msg).Follows rightful (fun _ _ => True) g := by
  rw [Coap.Api.observe]
  split
  next => trivial
  next hne =>
      split
      next => trivial
      next subtopic hsub =>
          refine Follows.bind ((follows_authorize _ _).mono fun g' out hout => ?_)
          obtain ⟨res, answer⟩ := out
          cases answer with
          | error e => trivial
          | ok publisher =>
              obtain ⟨x, hx, hchan, -⟩ := hout publisher rfl
              have hregister : ∀ obsID, (Coap.Api.register msg res subtopic obsID).Follows rightful
                  (fun _ _ => True) g' := by
                intro obsID
                rw [Coap.Api.register]
                split
                · refine follows_cmd ⟨⟨x, hx, hchan⟩, hid hne, hs subtopic hsub⟩ fun r _ => ?_
                  cases r <;> trivial
                · trivial
              dsimp only
              split
              · exact ⟨trivial, fun _ _ => trivial⟩
              · split
                · exact ⟨trivial, fun _ _ => hregister _⟩
                · exact hregister _

theorem follows_mux (h : (Request.coap msg).Clean) :
    (Coap.Api.mux msg).Follows rightful (fun _ _ => True) g := by
  rw [Coap.Api.mux]
  split
  next => trivial
  next parts hpath =>
      obtain ⟨chanID, part⟩ := parts
      have hid : Coap.Api.id (routed msg) ≠ [] → IdText (Coap.Api.id (routed msg)) := by
        intro _
        rw [Coap.Api.id_routed hpath]
        exact idText_of_channelPart hpath
      split
      · exact follows_observe hid h
      · exact Follows.bind ((follows_receive hid h).mono fun _ _ _ => trivial)

end Coap

/-- **Every handler keeps to the protocol.** -/
theorem follows_serve {r : Request} (h : r.Clean) :
    (serve r).Follows rightful (fun g reply => Answered r g reply) {} := by
  cases r with
  | http r => exact Follows.bind ((follows_http h).mono fun _ _ hs => hs)
  | ws r => exact Follows.bind ((follows_ws h).mono fun _ _ _ => trivial)
  | coap msg => exact Follows.bind ((follows_mux h).mono fun _ _ _ => trivial)

end Handlers

/-! ## §2. What can happen to the bus. -/

namespace World

def atTick (t : Nat) (w : World) : World := { w with tick := t }

def grant (x : Grant) (w : World) : World := { w with granted := w.granted ++ [x] }

end World

/-- What one event can do, whatever the time. -/
inductive Moves (w : World) : World → Prop
  | stays (t : Nat) : Moves w (w.atTick t)
  | grants (t : Nat) (x : Grant) : Moves w ((w.grant x).atTick t)
  | delivers (t pick : Nat) {m : Publication} (h : Lawful w m) : Moves w ((w.deliver pick m).atTick t)
  | registers (t conn : Nat) {c : Consumer} (h : c.Entitled w) : Moves w ((w.register conn c).atTick t)
  | forgets (t : Nat) (cb : Callback) : Moves w ((w.forget cb).atTick t)

section Bus

variable {w w' : World} {m : Publication} {cb : Callback}

theorem Consumer.Entitled.mono {c : Consumer} (h : c.Entitled w)
    (hg : ∀ x ∈ w.granted, x ∈ w'.granted) : c.Entitled w' := by
  cases c with
  | session chanID subtopic =>
      obtain ⟨⟨x, hx, hchan⟩, hrest⟩ := h
      exact ⟨⟨x, hg x hx, hchan⟩, hrest⟩
  | writer queue => exact h

theorem Lawful.mono (h : Lawful w m) (hg : ∀ x ∈ w.granted, x ∈ w'.granted) : Lawful w' m := by
  obtain ⟨x, hx, hgrant⟩ := h.granted
  exact ⟨⟨x, hg x hx, hgrant⟩, h.channel, h.subtopic⟩

/-- Grants and publications stay. -/
theorem Moves.kept (h : Moves w w') :
    (∀ x ∈ w.granted, x ∈ w'.granted) ∧ ∃ ps, w'.published = w.published ++ ps := by
  cases h with
  | stays t => exact ⟨fun _ hx => hx, [], (List.append_nil _).symm⟩
  | grants t x => exact ⟨fun _ hx => List.mem_append_left _ hx, [], (List.append_nil _).symm⟩
  | delivers t pick hm => exact ⟨fun _ hx => hx, [_], rfl⟩
  | registers t conn hc => exact ⟨fun _ hx => hx, [], (List.append_nil _).symm⟩
  | forgets t cb => exact ⟨fun _ hx => hx, [], (List.append_nil _).symm⟩

theorem mem_recipients {α : Type} [DecidableEq α] {queue : α → Option Text} {pick : Nat} {l : List α}
    {a : α} (h : a ∈ recipients queue pick l) : a ∈ l :=
  List.mem_of_mem_filter h

/-- **Every move keeps the bus sound.** -/
theorem Sound.moves (h : Sound w) (hmove : Moves w w') : Sound w' := by
  obtain ⟨hgranted, hpublished⟩ := hmove.kept
  have hreceived : ∀ r ∈ w.received, r.callback.consumer.Entitled w' ∧
      ∃ m ∈ w'.published, r.message = message m ∧ r.callback.consumer.wants m := by
    intro r hr
    obtain ⟨hentitled, m, hm, hmessage⟩ := h.received r hr
    obtain ⟨ps, hps⟩ := hpublished
    exact ⟨hentitled.mono hgranted, m, hps ▸ List.mem_append_left _ hm, hmessage⟩
  cases hmove with
  | stays t =>
      exact ⟨h.idle, h.table, h.numbered, h.distinct, fun cb hcb => (h.entitled cb hcb).mono hgranted,
        fun m hm => (h.lawful m hm).mono hgranted, hreceived⟩
  | grants t x =>
      exact ⟨h.idle, h.table, h.numbered, h.distinct, fun cb hcb => (h.entitled cb hcb).mono hgranted,
        fun m hm => (h.lawful m hm).mono hgranted, hreceived⟩
  | delivers t pick hm =>
      refine ⟨h.idle, h.table, h.numbered, h.distinct,
        fun cb hcb => (h.entitled cb hcb).mono hgranted, fun m' hm' => ?_, fun r hr => ?_⟩
      · rcases List.mem_append.mp hm' with hm' | hm'
        · exact (h.lawful m' hm').mono hgranted
        · rw [List.mem_singleton.mp hm']
          exact hm.mono hgranted
      · rcases List.mem_append.mp hr with hr | hr
        · exact hreceived r hr
        · obtain ⟨cb, hcb, rfl⟩ := List.mem_map.mp hr
          obtain ⟨hin, hwants⟩ := List.mem_filter.mp (mem_recipients hcb)
          exact ⟨(h.entitled cb hin).mono hgranted, _, List.mem_append_right _ List.mem_cons_self, rfl,
            hwants⟩
  | registers t conn hc =>
      have hnumber : ∀ cb ∈ w.callbacks,
          cb.sid ≤ Function.update w.ssid conn (w.ssid conn + 1) cb.conn := by
        intro cb hcb
        have hle := h.numbered cb hcb
        by_cases hconn : cb.conn = conn
        · rw [hconn, Function.update_self]
          rw [hconn] at hle
          omega
        · rw [Function.update_of_ne hconn]
          exact hle
      refine ⟨h.idle, ?_, fun cb hcb => ?_, ?_, fun cb hcb => ?_,
        fun m hm => (h.lawful m hm).mono hgranted, hreceived⟩
      · show w.subs ++ _ = (w.callbacks ++ _).map Callback.subscription
        rw [h.table, List.map_append]
        rfl
      · rcases List.mem_append.mp hcb with hcb | hcb
        · exact hnumber cb hcb
        · rw [List.mem_singleton.mp hcb]
          show w.ssid conn + 1 ≤ Function.update w.ssid conn (w.ssid conn + 1) conn
          rw [Function.update_self]
      · refine List.pairwise_append.mpr ⟨h.distinct, List.pairwise_singleton _ _, ?_⟩
        rintro cb hcb new hnew ⟨hconn, hsid⟩
        rw [List.mem_singleton.mp hnew] at hconn hsid
        have hle := h.numbered cb hcb
        rw [show cb.conn = conn from hconn, show cb.sid = w.ssid conn + 1 from hsid] at hle
        omega
      · rcases List.mem_append.mp hcb with hcb | hcb
        · exact (h.entitled cb hcb).mono hgranted
        · rw [List.mem_singleton.mp hcb]
          exact hc.mono hgranted
  | forgets t cb =>
      exact ⟨h.idle, rfl, fun cb' hcb' => h.numbered cb' (List.mem_of_mem_filter hcb'),
        h.distinct.filter _, fun cb' hcb' => (h.entitled cb' (List.mem_of_mem_filter hcb')).mono hgranted,
        fun m hm => (h.lawful m hm).mono hgranted, hreceived⟩

end Bus

/-! ## §3. What a subscription has received. -/

/-- The callbacks that share what comes: a session has its own, a writer is one with those of its
group. -/
def Callback.Together (cb cb' : Callback) : Prop :=
  match cb.consumer with
  | .session _ _ => cb' = cb
  | .writer queue => cb'.consumer = .writer queue

instance (cb cb' : Callback) : Decidable (cb.Together cb') := by
  unfold Callback.Together
  cases cb.consumer <;> exact inferInstance

/-- What came to them, in order. -/
def World.receivedWith (cb : Callback) (w : World) : List Message :=
  (w.received.filter fun r => cb.Together r.callback).map fun r => r.message

section Order

variable {w w' w₀ : World} {m : Publication} {cb : Callback}

theorem filter_getElem {α : Type} [DecidableEq α] {l : List α} (hl : l.Nodup) {k : Nat}
    (hk : k < l.length) : l.filter (fun s => decide (l[k]? = some s)) = [l[k]] := by
  have hpred : ∀ s ∈ l, decide (l[k]? = some s) = (s == l[k]) := by
    intro s _
    rw [List.getElem?_eq_getElem hk, Bool.eq_iff_iff, decide_eq_true_eq, beq_iff_eq, Option.some.injEq,
      eq_comm]
  rw [List.filter_congr hpred, List.filter_beq, List.count_eq_one_of_mem hl (List.getElem_mem hk)]
  rfl

/-- **One of those that share a publication gets it.** -/
theorem together_recipients {l : List Callback} (hl : l.Nodup) (hw : ∀ a ∈ l, a.consumer.Entitled w)
    (pick : Nat) (hcb : cb ∈ l) :
    ∃ a, (recipients Callback.group pick l).filter (fun cb' => cb.Together cb') = [a] := by
  cases hc : cb.consumer with
  | session chanID subtopic =>
      have hgroup : cb.group = none := by rw [Callback.group, hc]; rfl
      refine ⟨cb, ?_⟩
      have hin : cb ∈ recipients Callback.group pick l := by
        refine List.mem_filter.mpr ⟨hcb, ?_⟩
        rw [hgroup]
      have hself : ∀ a ∈ recipients Callback.group pick l, decide (cb.Together a) = (a == cb) := by
        intro a _
        rw [Bool.eq_iff_iff, decide_eq_true_eq, beq_iff_eq, Callback.Together, hc]
      have hnodup : (recipients Callback.group pick l).Nodup := hl.filter _
      rw [List.filter_congr hself, List.filter_beq, List.count_eq_one_of_mem hnodup hin]
      rfl
  | writer queue =>
      have hqueue : queue ≠ [] := by
        have hentitled := hw cb hcb
        rw [hc] at hentitled
        exact hentitled.1
      -- the callbacks of the group are those of the same writer
      have hmember : ∀ a ∈ l, decide (cb.Together a) = decide (a.group = some queue) := by
        intro a _
        rw [decide_eq_decide, Callback.Together, hc, Callback.group]
        cases hca : a.consumer with
        | session chanID subtopic =>
            show Consumer.session chanID subtopic = .writer queue ↔ none = some queue
            simp only [reduceCtorEq]
        | writer queue' =>
            show Consumer.writer queue' = .writer queue ↔ Nats.group queue' = some queue
            rw [Nats.group]
            split
            next hnil =>
                simp only [hnil, Consumer.writer.injEq, reduceCtorEq, iff_false]
                exact fun h => hqueue h.symm
            next => rw [Option.some.injEq, Consumer.writer.injEq]
      generalize hmembers : (l.filter fun a => decide (a.group = some queue)) = members
      have hpos : 0 < members.length := by
        rw [← hmembers]
        refine List.length_pos_of_mem (List.mem_filter.mpr ⟨hcb, ?_⟩)
        rw [← hmember cb hcb, decide_eq_true_eq, Callback.Together, hc]
      have hk : pick % members.length < members.length := Nat.mod_lt _ hpos
      refine ⟨members[pick % members.length], ?_⟩
      rw [recipients, List.filter_filter]
      refine (List.filter_congr (q := fun a =>
        decide (members[pick % members.length]? = some a) && decide (a.group = some queue))
          fun a ha => ?_).trans ?_
      · rw [hmember a ha]
        by_cases hgroup : a.group = some queue
        · simp only [hgroup, hmembers, decide_true, Bool.true_and, Bool.and_true]
        · simp only [hgroup, decide_false, Bool.false_and, Bool.and_false]
      · rw [← List.filter_filter, hmembers]
        exact filter_getElem (hmembers ▸ hl.filter _) hk

theorem Sound.nodup (h : Sound w) : w.callbacks.Nodup :=
  h.distinct.imp fun hne => by
    rintro rfl
    exact hne ⟨rfl, rfl⟩

/-- **A publication comes once** to whom it is for, and not at all to others. -/
theorem Sound.receivedWith_deliver (h : Sound w) (pick : Nat) (m : Publication)
    (hcb : cb ∈ w.callbacks) :
    (w.deliver pick m).receivedWith cb
      = w.receivedWith cb ++ if cb.consumer.wants m then [message m] else [] := by
  have hnew : ∀ l : List Callback,
      (((l.map fun cb' => (⟨cb', message m⟩ : Receipt)).filter fun r => cb.Together r.callback).map
        fun r => r.message) = (l.filter fun cb' => cb.Together cb').map fun _ => message m := by
    intro l
    rw [List.filter_map, List.map_map]
    rfl
  rw [World.receivedWith, World.deliver, List.filter_append, List.map_append, hnew]
  congr 1
  by_cases hwants : cb.consumer.wants m
  · obtain ⟨a, ha⟩ := together_recipients (w := w) (h.nodup.filter fun cb => cb.consumer.wants m)
      (fun a ha => h.entitled a (List.mem_of_mem_filter ha)) pick
      (List.mem_filter.mpr ⟨hcb, hwants⟩)
    rw [ha, if_pos hwants]
    rfl
  · rw [if_neg hwants, List.map_eq_nil_iff, List.filter_eq_nil_iff]
    intro a ha htogether
    -- a writer wants everything, and a session is together with itself only
    cases hc : cb.consumer with
    | session chanID subtopic =>
        have hself : a = cb := by
          have := of_decide_eq_true htogether
          rwa [Callback.Together, hc] at this
        rw [hself] at ha
        exact hwants (List.mem_filter.mp (mem_recipients ha)).2
    | writer queue => exact hwants (by rw [hc]; rfl)

/-- Since `w₀`, the subscription has received all that it is for, as it was published. -/
def Caught (cb : Callback) (w₀ w : World) : Prop :=
  ∃ ps, w.published = w₀.published ++ ps ∧
    w.receivedWith cb = w₀.receivedWith cb ++ (ps.filter cb.consumer.wants).map message

/-- Numbers are not given twice. -/
theorem Moves.callbacks (h : Moves w w') (hcb : cb.sid ≤ w.ssid cb.conn) :
    (cb ∈ w'.callbacks → cb ∈ w.callbacks) ∧ cb.sid ≤ w'.ssid cb.conn := by
  cases h with
  | stays t => exact ⟨id, hcb⟩
  | grants t x => exact ⟨id, hcb⟩
  | delivers t pick hm => exact ⟨id, hcb⟩
  | registers t conn hc =>
      refine ⟨fun hin => ?_, ?_⟩
      · rcases List.mem_append.mp hin with hin | hin
        · exact hin
        · rw [List.mem_singleton.mp hin] at hcb
          exact absurd hcb (Nat.not_succ_le_self _)
      · show cb.sid ≤ Function.update w.ssid conn (w.ssid conn + 1) cb.conn
        by_cases hconn : cb.conn = conn
        · rw [hconn] at hcb ⊢
          rw [Function.update_self]
          omega
        · rw [Function.update_of_ne hconn]
          exact hcb
  | forgets t cb => exact ⟨fun hin => List.mem_of_mem_filter hin, hcb⟩

/-- **Every move catches what it publishes.** -/
theorem Caught.moves (h : Sound w) (hcaught : Caught cb w₀ w) (hcb : cb ∈ w.callbacks)
    (hmove : Moves w w') : Caught cb w₀ w' := by
  obtain ⟨ps, hpublished, hreceived⟩ := hcaught
  cases hmove with
  | delivers t pick hm =>
      rename_i m
      refine ⟨ps ++ [m], ?_, ?_⟩
      · show w.published ++ [m] = _
        rw [hpublished, List.append_assoc]
      · show (w.deliver pick m).receivedWith cb = _
        rw [h.receivedWith_deliver pick m hcb, hreceived, List.filter_append, List.map_append,
          List.append_assoc]
        congr 2
        by_cases hwants : cb.consumer.wants m
        · rw [if_pos hwants, List.filter_cons_of_pos hwants]
          rfl
        · rw [if_neg hwants, List.filter_cons_of_neg hwants]
          rfl
  | stays t => exact ⟨ps, hpublished, hreceived⟩
  | grants t x => exact ⟨ps, hpublished, hreceived⟩
  | registers t conn hc => exact ⟨ps, hpublished, hreceived⟩
  | forgets t cb => exact ⟨ps, hpublished, hreceived⟩

end Order

/-! ## §4. Runs. -/

/-- The protocol, on commands with a connection. -/
def rightfulNet : Prog.Protocol Net Known where
  rule g c := rightful.rule g c.2
  move g c r := rightful.move g c.2 r
  allowed c r := rightful.allowed c.2 r

theorem follows_on {α : Type} {Q : Known → α → Prop} {p : Prog Sig α} {g : Known}
    (h : p.Follows rightful Q g) (conn : Nat) : (on conn p).Follows rightfulNet Q g := by
  induction p generalizing g with
  | ret a => exact h
  | call c k ih => exact ⟨h.1, fun r hr => ih r (h.2 r hr)⟩

/-- What a handler knows has happened. -/
structure Backed (g : Known) (w : World) : Prop where
  grants : ∀ x ∈ g.grants, x ∈ w.granted
  sent : ∀ m ∈ g.sent, m ∈ w.published

/-- Every error of the things service comes with a status. -/
def Env.Statuses (E : Env) : Prop := ∀ t token chanID, (E.access t token chanID).err ≠ some .plain

/-- No subtopic has a blank in it, and the group of a writer is a name. -/
def Event.Clean : Event → Prop
  | .act (.spawn (_, r)) => r.Clean
  | .act (.step _) => True
  | .start _ queue => Nats.Word queue
  | .closed _ => True

section Runs

variable {E : Env} {w w' : World} {g : Known}

theorem Backed.moves (h : Backed g w) (hmove : Moves w w') : Backed g w' := by
  obtain ⟨hgranted, ps, hps⟩ := hmove.kept
  exact ⟨fun x hx => hgranted x (h.grants x hx),
    fun m hm => hps ▸ List.mem_append_left _ (h.sent m hm)⟩

/-- **One command** of a handler that keeps to the protocol. -/
theorem handle_moves (hE : E.Statuses) (h : Sound w) (hg : Backed g w) {c : Net.Cmd}
    (hrule : rightfulNet.rule g c) :
    rightfulNet.allowed c (handle E c w).2 ∧ Moves w (handle E c w).1 ∧
      Backed (rightfulNet.move g c (handle E c w).2) (handle E c w).1 := by
  obtain ⟨conn, c⟩ := c
  cases c with
  | canAccessByKey token chanID =>
      refine ⟨hE _ _ _, ?_⟩
      cases herr : (E.access w.tick token chanID).err with
      | none =>
          have hmove : Moves w ((w.grant ⟨token, chanID, (E.access w.tick token chanID).value⟩).atTick
            (w.tick + 1)) := .grants _ _
          simp only [handle, herr, if_pos, rightfulNet, rightful]
          refine ⟨hmove, fun x hx => ?_, (hg.moves hmove).sent⟩
          rcases List.mem_cons.mp hx with rfl | hx
          · exact List.mem_append_right _ List.mem_cons_self
          · exact (hg.moves hmove).grants x hx
      | some e =>
          have hmove : Moves w (w.atTick (w.tick + 1)) := .stays _
          simp only [handle, herr, reduceCtorEq, if_false, rightfulNet, rightful]
          exact ⟨hmove, hg.moves hmove⟩
  | publish m =>
      refine ⟨trivial, ?_⟩
      obtain ⟨⟨x, hx, hchan, hthing⟩, hid, hs⟩ := hrule
      rcases h.publish_cases E conn hid hs with ⟨e, heq⟩ | heq
      · have hmove : Moves w (w.atTick (w.tick + 1)) := .stays _
        simp only [handle, heq, rightfulNet, rightful, reduceCtorEq, if_false]
        exact ⟨hmove, hg.moves hmove⟩
      · have hmove : Moves w ((w.deliver (E.pick w.tick) m).atTick (w.tick + 1)) :=
          .delivers _ _ ⟨⟨x, hg.grants x hx, hchan, hthing⟩, hid, hs⟩
        simp only [handle, heq, rightfulNet, rightful, if_pos]
        refine ⟨hmove, (hg.moves hmove).grants, fun m' hm' => ?_⟩
        rcases List.mem_cons.mp hm' with rfl | hm'
        · exact List.mem_append_right _ List.mem_cons_self
        · exact (hg.moves hmove).sent m' hm'
  | subscribe chanID subtopic obsID =>
      refine ⟨trivial, ?_⟩
      obtain ⟨⟨x, hx, hchan⟩, hid, hs⟩ := hrule
      have hentitled : (Consumer.session chanID subtopic).Entitled w :=
        ⟨⟨x, hg.grants x hx, hchan⟩, hid, hs⟩
      cases hfault : E.fault w.tick with
      | some e =>
          have hmove : Moves w (w.atTick (w.tick + 1)) := .stays _
          simp only [handle, hfault, rightfulNet, rightful]
          exact ⟨hmove, hg.moves hmove⟩
      | none =>
          have hmove : Moves w ((w.register conn (.session chanID subtopic)).atTick (w.tick + 1)) :=
            .registers _ _ hentitled
          simp only [handle, hfault, h.subscribe_eq hentitled, rightfulNet, rightful]
          exact ⟨hmove, hg.moves hmove⟩
  | unsubscribe obsID =>
      have hmove : Moves w (w.atTick (w.tick + 1)) := .stays _
      exact ⟨trivial, hmove, hg.moves hmove⟩
  | respond obsID =>
      have hmove : Moves w (w.atTick (w.tick + 1)) := .stays _
      exact ⟨trivial, hmove, hg.moves hmove⟩

/-- The bus is sound, and every handler has kept to the protocol and will. -/
structure Orderly (p : System) : Prop where
  sound : Sound p.st
  threads : ∀ (n : Nat) (i : Nat × Request) (q : Prog Net Reply), p.threads[n]? = some (i, q) →
    ∃ g, Backed g p.st ∧ q.Follows rightfulNet (fun g reply => Answered i.2 g reply) g

theorem orderly_start : Orderly start := by
  refine ⟨⟨fun _ => rfl, rfl, ?_, List.Pairwise.nil, ?_, ?_, ?_⟩, fun n i q h => by simp [start] at h⟩
  · exact fun cb h => nomatch h
  · exact fun cb h => nomatch h
  · exact fun m h => nomatch h
  · exact fun r h => nomatch h

theorem Orderly.moved {p : System} (h : Orderly p) (hmove : Moves p.st w) :
    Orderly { p with st := w } := by
  refine ⟨h.sound.moves hmove, fun n i q hn => ?_⟩
  obtain ⟨g, hg, hq⟩ := h.threads n i q hn
  exact ⟨g, hg.moves hmove, hq⟩

/-- **One event.** -/
theorem orderly_step (hE : E.Statuses) {p : System} (h : Orderly p) {e : Event} (he : e.Clean) :
    Orderly (step E p e) ∧ Moves p.st (step E p e).st := by
  have hstays : Moves p.st p.st := .stays p.st.tick
  cases e with
  | start conn queue =>
      have hentitled : (Consumer.writer queue).Entitled p.st := he
      have hmove : Moves p.st (p.st.register conn (.writer queue)) := .registers p.st.tick conn hentitled
      rw [← h.sound.subscribe_eq (E := E) hentitled] at hmove
      exact ⟨h.moved hmove, hmove⟩
  | closed cb =>
      have hmove : Moves p.st (p.st.forget cb) := .forgets p.st.tick cb
      rw [← h.sound.unsubscribe_eq (E := E)] at hmove
      rw [step]
      cases cb.consumer with
      | writer queue => exact ⟨h, hstays⟩
      | session chanID subtopic =>
          dsimp only
          split
          · exact ⟨h.moved hmove, hmove⟩
          · exact ⟨h, hstays⟩
  | act a =>
      rw [step]
      obtain hsame | ⟨i, rfl, hspawn⟩ | ⟨n, i, c, k, rfl, hthread, hstep⟩ :=
        Pool.act_cases (handle E) (fun i : Nat × Request => on i.1 (serve i.2)) p a
      · rw [hsame]
        exact ⟨h, hstays⟩
      · rw [hspawn]
        refine ⟨⟨h.sound, fun m j q hm => ?_⟩, hstays⟩
        rcases Pool.thread_append hm with hold | hnew
        · exact h.threads m j q hold
        · obtain ⟨rfl, rfl⟩ := Prod.mk.inj hnew
          exact ⟨{}, ⟨fun x hx => (nomatch hx), fun x hx => (nomatch hx)⟩,
            follows_on (follows_serve he) _⟩
      · -- the thread has issued what it may, and goes on with an answer that it may count on
        obtain ⟨g, hg, hrule, hrest⟩ := h.threads n i _ hthread
        obtain ⟨hallowed, hmove, hbacked⟩ := handle_moves hE h.sound hg hrule
        rw [hstep]
        refine ⟨⟨h.sound.moves hmove, fun m j q hm => ?_⟩, hmove⟩
        rcases Pool.thread_set hm with ⟨-, hnew⟩ | ⟨-, hold⟩
        · obtain ⟨rfl, rfl⟩ := Prod.mk.inj hnew
          exact ⟨_, hbacked, hrest _ hallowed⟩
        · obtain ⟨g', hg', hq⟩ := h.threads m j q hold
          exact ⟨g', hg'.moves hmove, hq⟩

/-- **Every run is orderly.** -/
theorem Orderly.run (hE : E.Statuses) {p : System} (h : Orderly p) {events : List Event}
    (hclean : ∀ e ∈ events, e.Clean) : Orderly (run (step E) p events) := by
  induction events generalizing p with
  | nil => exact h
  | cons e events ih =>
      exact ih (orderly_step hE h (hclean e List.mem_cons_self)).1
        fun e' he' => hclean e' (List.mem_cons_of_mem _ he')

end Runs

/-! ## §5. The results. -/

section Results

variable {E : Env}

/-- The key `k` is that of a lamp, which may use every channel. -/
def lampEnv : Env where
  access _ token _ := if token = ['k'] then ⟨['l'], none⟩ else ⟨[], some (.status .permissionDenied)⟩

theorem statuses_lampEnv : lampEnv.Statuses := by
  intro t token chanID
  simp only [lampEnv]
  split <;> simp

/-- `/channels/1/messages`. -/
def lampLine : Text := channelsPart ++ '1' :: messagesPart

theorem clean_lampLine : ∀ id part subtopic, channelPart lampLine = some (id, part) →
    parseSubtopic part = some subtopic → Unblanked subtopic := by
  intro id part subtopic hpart hsub
  have hgroups : channelPart lampLine = some (['1'], []) := by decide +kernel
  obtain ⟨-, rfl⟩ := Prod.mk.inj (Option.some.inj (hgroups.symm.trans hpart))
  obtain rfl := Option.some.inj hsub
  exact fun c hc => nomatch hc

/-- A writer starts, a session opens, and a request comes over HTTP. -/
def lampEvents : List Event :=
  [.start 9 ['w'], .act (.spawn (0, .ws { uri := lampLine, authorization := ['k'] })), .act (.step 0),
    .act (.step 0),
    .act (.spawn (1, .http { uri := lampLine, authorization := ['k'], body := some [7] })),
    .act (.step 1), .act (.step 1)]

theorem clean_lampEvents : ∀ e ∈ lampEvents, e.Clean := by
  intro e he
  simp only [lampEvents, List.mem_cons, List.not_mem_nil, or_false] at he
  rcases he with rfl | rfl | rfl | rfl | rfl | rfl | rfl
  · exact Nats.word_of_all rfl
  · exact clean_lampLine
  · trivial
  · trivial
  · exact clean_lampLine
  · trivial
  · trivial

/-- What came over HTTP. -/
def lampMessage : Publication :=
  { channel := ['1'], subtopic := [], publisher := ['l'], contentType := [], protocol := Http.protocol,
    payload := [7] }

/-- **What 202 means**: the key of the request was granted access to the channel of its path, and its
body was published there under the thing of that grant. -/
theorem accepted_published (hE : E.Statuses) {events : List Event} (hclean : ∀ e ∈ events, e.Clean)
    (n conn : Nat) {r : Http.Request}
    (h : (run (step E) start events).returned n = some ((conn, .http r), .http .accepted)) :
    ∃ id part subtopic payload thing, channelPart r.uri = some (id, part) ∧
      parseSubtopic part = some subtopic ∧ r.body = some payload ∧
      ⟨r.authorization, id, thing⟩ ∈ (run (step E) start events).st.granted ∧
      ⟨id, subtopic, thing, r.contentType, Http.protocol, payload⟩
        ∈ (run (step E) start events).st.published := by
  have horderly := orderly_start.run hE hclean
  unfold Pool.returned at h
  split at h
  next i reply hthread =>
      obtain ⟨rfl, rfl⟩ := Prod.mk.inj (Option.some.inj h)
      obtain ⟨g, hg, id, part, subtopic, payload, thing, hpart, hsub, hbody, hgrant, hsent⟩ :=
        horderly.threads n _ _ hthread
      exact ⟨id, part, subtopic, payload, thing, hpart, hsub, hbody, hg.grants _ hgrant,
        hg.sent _ hsent⟩
  next => cases h

theorem accepted_published_lamp :
    ∃ id part subtopic payload thing, channelPart lampLine = some (id, part) ∧
      parseSubtopic part = some subtopic ∧ some [7] = some payload ∧
      ⟨['k'], id, thing⟩ ∈ (run (step lampEnv) start lampEvents).st.granted ∧
      ⟨id, subtopic, thing, [], Http.protocol, payload⟩
        ∈ (run (step lampEnv) start lampEvents).st.published :=
  accepted_published (r := { uri := lampLine, authorization := ['k'], body := some [7] })
    statuses_lampEnv clean_lampEvents 1 1 (by decide +kernel)

end Results

end Mainflux.Messaging.Broker
