/-
  Mainflux.Messaging.Injection
  ────────────────────────────
  **A LINE END IN A SUBTOPIC.**

  The adapters unescape a subtopic and put it on the control line of the broker as it is.
  With a line end in it the broker reads two control lines where one was meant, and the
  second of them is the client's own.

    • `publication_read_iff` — only a subtopic with a blank in it changes what the broker reads;
    • `eavesdrops` — from any state that a run can reach, a thing that may use one channel
      receives what is published on all of them.
-/
import Mainflux.Messaging.Isolation

namespace Mainflux.Messaging.Broker

open Mainflux.Lib

open Coap.Api (Access Sig cmd)

open FlatJson (writeNat)

/-! ## §1. The request. -/

/-- The end of the path, with `x 0`, a line end and `SUB channel.>` in it. -/
def lineEnd : Text :=
  ['/', 'x', '%', '2', '0', '0', '%', '0', 'D', '%', '0', 'A', 'S', 'U', 'B', '%', '2', '0',
    'c', 'h', 'a', 'n', 'n', 'e', 'l', '.', '>']

/-- What is left of it as the subtopic. -/
def injected : Text :=
  ['x', ' ', '0', '\r', '\n', 'S', 'U', 'B', ' ', 'c', 'h', 'a', 'n', 'n', 'e', 'l', '.', '>']

theorem parseSubtopic_lineEnd : parseSubtopic lineEnd = some injected := by decide +kernel

/-- A thing with a key for the channel `c`. -/
def eavesdropper (c key : Text) : Ws.Handshake :=
  { uri := channelsPart ++ (c ++ (messagesPart ++ lineEnd)), authorization := key }

section Alone

variable {α β : Type} {H : Handler Net World} {w : World}

theorem run_on_map (conn : Nat) (f : α → β) (p : Prog Sig α) :
    ((on conn (f <$> p)).run H w).1 = ((on conn p).run H w).1 := by
  induction p generalizing w with
  | ret a => rfl
  | call c k ih => exact ih _

theorem run_on_cmd (conn : Nat) (c : Coap.Api.Cmd) (f : Sig.Res c → Prog Sig α) :
    (on conn (cmd c >>= f)).run H w = (on conn (f (H (conn, c) w).2)).run H (H (conn, c) w).1 := rfl

end Alone

/-- It subscribes with its subtopic, and publishes nothing. -/
theorem run_eavesdropper {E : Env} {w : World} {c key : Text} (hc : IdText c) (hkey : key ≠ [])
    (hgrant : (E.access w.tick key c).err = none) (hfault : E.fault (w.tick + 1) = none) (conn : Nat) :
    ∃ x, ((on conn (serve (.ws (eavesdropper c key)))).run (handle E) w).1
      = (subscribe E conn (.session c injected) ((w.grant x).atTick (w.tick + 1))).next := by
  have hpart : channelPart (eavesdropper c key).uri = some (c, lineEnd) :=
    channelPart_of_shape hc.1 hc.2 (.inr ⟨_, rfl⟩) (by decide)
  have hauth : Ws.authKey (eavesdropper c key) = some key := if_neg hkey
  refine ⟨⟨key, c, (E.access w.tick key c).value⟩, ?_⟩
  have hasked : handle E (conn, .canAccessByKey key c) w
      = ((w.grant ⟨key, c, (E.access w.tick key c).value⟩).atTick (w.tick + 1),
        E.access w.tick key c) := by
    rw [handle]
    simp only [hgrant, if_true]
    rfl
  have hsubscribed : ∀ w' : World, w'.tick = w.tick + 1 →
      handle E (conn, .subscribe c injected []) w'
        = ((subscribe E conn (.session c injected) w').next, none) := by
    intro w' htick
    rw [handle, htick]
    simp only [hfault]
  rw [serve, run_on_map, Ws.serve, route_of_channelPart hpart]
  simp only [hauth]
  rw [run_on_cmd, hasked]
  simp only [hgrant, Ws.connect, hpart, parseSubtopic_lineEnd]
  rw [show (eavesdropper c key).upgrades = true from rfl, if_pos rfl, run_on_cmd, hsubscribed _ rfl]
  rfl

/-! ## §2. What the broker makes of it. -/

/-- A subtopic with a blank in it, and no other, changes what the broker reads. -/
theorem publication_read_iff {c subtopic : Text} (hc : IdText c) (data : List UInt8) :
    Nats.readOps (Nats.publish (fmtSubject c subtopic) data)
        = ([.pub (fmtSubject c subtopic) none data], some []) ↔ Unblanked subtopic := by
  have hread : Nats.readOps ([Nats.Request.publish (fmtSubject c subtopic) data].flatMap Nats.Request.bytes)
        = ([Nats.Request.publish (fmtSubject c subtopic) data].map Nats.Request.op, some [])
      ↔ ∀ r ∈ [Nats.Request.publish (fmtSubject c subtopic) data], r.Clean := Nats.readOps_written_iff
  rw [List.flatMap_singleton, List.forall_mem_singleton] at hread
  refine hread.trans ⟨fun hword ch hch => ?_, word_fmtSubject hc⟩
  refine hword.2 ch ?_
  rw [fmtSubject, if_neg (List.ne_nil_of_mem hch)]
  exact List.mem_append_right _ (List.mem_cons_of_mem _ hch)

/-- Two subscriptions, the second of them under the number of the client. -/
theorem readOps_injected {c : Text} (hc : IdText c) (sid : Nat) :
    Nats.readOps (Nats.subscribe (fmtSubject c injected) [] sid)
      = ([.sub (fmtSubject c ['x']) none ['0'], .sub inputChannels none (writeNat sid)], some []) := by
  have hfirst : Nats.Word (fmtSubject c ['x']) := word_fmtSubject hc (unblanked_of_all rfl)
  have hall : Nats.Word inputChannels := Nats.word_of_all rfl
  have hshape : Nats.subscribe (fmtSubject c injected) [] sid
      = (Nats.Verb.sub.name ++ ' ' :: (fmtSubject c ['x'] ++ ' ' :: (['0'] ++ ['\r'])))
        ++ '\n' :: (Nats.subscribe inputChannels [] sid ++ []) := by
    simp [Nats.subscribe, fmtSubject, injected, inputChannels, Nats.Verb.name]
  have hbody : '\n' ∉ fmtSubject c ['x'] ++ ' ' :: (['0'] ++ ['\r']) := by
    simp [hfirst.newline]
  have hone : Nats.readOp (Nats.subscribe (fmtSubject c injected) [] sid)
      = .op (.sub (fmtSubject c ['x']) none ['0']) (Nats.subscribe inputChannels [] sid ++ []) := by
    have hzero : Nats.Word ['0'] := Nats.word_of_all rfl
    rw [hshape, Nats.readOp_line .sub hbody, Nats.words_append hfirst rfl, Nats.words_append hzero rfl,
      Nats.words_nil]
    rfl
  rw [Nats.readOps_op hone, Nats.readOps_op (Nats.readOp_subscribe hall (.inl rfl) sid [])]
  rfl

section Bytes

variable {E : Env} {w : World} {conn conn' : Nat} {m : Publication} {cb : Callback}

/-- A subscription is entered unless its number is taken. -/
theorem perform_sub (E : Env) (conn : Nat) (w : World) (subject sid : Text) : ∃ subs,
    perform E conn w (.sub subject none sid) = { w with subs := subs } ∧
      (∀ s ∈ w.subs, s ∈ subs) ∧
      (∀ s ∈ subs, s ∈ w.subs ∨ s = ⟨conn, sid, subject, none⟩) ∧
      ((∀ s ∈ w.subs, ¬ (s.conn = conn ∧ s.sid = sid)) → ⟨conn, sid, subject, none⟩ ∈ subs) := by
  rw [perform]
  split
  next htaken =>
      refine ⟨w.subs, rfl, fun s hs => hs, fun s hs => .inl hs, fun hfree => ?_⟩
      obtain ⟨s, hs, hsame⟩ := List.any_eq_true.mp htaken
      exact absurd (of_decide_eq_true hsame) (hfree s hs)
  next =>
      refine ⟨_, rfl, fun s hs => List.mem_append_left _ hs, fun s hs => ?_,
        fun _ => List.mem_append_right _ List.mem_cons_self⟩
      rcases List.mem_append.mp hs with hs | hs
      · exact .inl hs
      · exact .inr (List.mem_singleton.mp hs)

/-- The number of the session stands for all channels. -/
theorem Sound.subscribe_injected (h : Sound w) (E : Env) (conn : Nat) {c : Text} (hc : IdText c) : ∃ subs,
    subscribe E conn (.session c injected) w
      = { w with
          ssid := Function.update w.ssid conn (w.ssid conn + 1)
          callbacks := w.callbacks ++ [w.fresh conn (.session c injected)]
          subs := subs } ∧
      ⟨conn, writeNat (w.ssid conn + 1), inputChannels, none⟩ ∈ subs := by
  let w₁ : World := { w with
    ssid := Function.update w.ssid conn (w.ssid conn + 1)
    callbacks := w.callbacks ++ [w.fresh conn (.session c injected)] }
  obtain ⟨subs₁, heq₁, -, honly, -⟩ := perform_sub E conn w₁
    (fmtSubject c ['x']) ['0']
  obtain ⟨subs₂, heq₂, -, -, hnew⟩ := perform_sub E conn
    { w₁ with subs := subs₁ } inputChannels (writeNat (w.ssid conn + 1))
  have hwrite : subscribe E conn (.session c injected) w = { w₁ with subs := subs₂ } := by
    have hidle : Function.update w.unread conn (some []) = w.unread := by
      rw [← h.idle conn, Function.update_eq_self]
    rw [subscribe, write, h.idle conn]
    simp only [List.nil_append, Consumer.subject, Consumer.queue, readOps_injected hc, List.foldl_cons,
      List.foldl_nil, hidle]
    exact (congrArg (fun w => perform E conn w (.sub inputChannels none (writeNat _))) heq₁).trans heq₂
  refine ⟨subs₂, hwrite, hnew fun s hs => ?_⟩
  rintro ⟨hconn, hsid⟩
  rcases honly s hs with hold | rfl
  · -- the numbers of the client are smaller
    have hold' : s ∈ w.callbacks.map Callback.subscription := h.table ▸ hold
    obtain ⟨cb, hcb, rfl⟩ := List.mem_map.mp hold'
    have hnumber := h.numbered cb hcb
    rw [show cb.conn = conn from hconn, writeNat_inj hsid] at hnumber
    exact absurd hnumber (Nat.not_succ_le_self _)
  · have hzero : 0 = w.ssid conn + 1 := writeNat_inj hsid
    omega

/-- Whoever has a subscription for all channels is called back with every publication. -/
theorem overheard (hidle : w.unread conn' = some []) (hcb : cb ∈ w.callbacks)
    (hsame : ∀ a ∈ w.callbacks, a.Same cb → a = cb)
    (hsub : ⟨cb.conn, writeNat cb.sid, inputChannels, none⟩ ∈ w.subs) (hid : IdText m.channel)
    (hs : Unblanked m.subtopic) (hok : (publish E conn' m w).2 = none) :
    ⟨cb, message m⟩ ∈ (publish E conn' m w).1.received := by
  unfold publish at hok ⊢
  cases hdata : (message m).protoMarshal with
  | none => simp only [hdata, reduceCtorEq] at hok
  | some data =>
      simp only [hdata] at hok ⊢
      cases hfault : E.fault w.tick with
      | some e => simp only [hfault, reduceCtorEq] at hok
      | none =>
          simp only [hfault] at hok ⊢
          by_cases hlarge : E.maxPayload < data.length
          · simp only [if_pos hlarge, reduceCtorEq] at hok
          · rw [if_neg hlarge]
            have hsize : data.length < 2 ^ 63 :=
              Nat.lt_of_le_of_lt (Nat.le_of_not_lt hlarge) (Nat.lt_trans E.maxPayload_lt (by omega))
            have hclean : (Nats.Request.publish (fmtSubject m.channel m.subtopic) data).Clean :=
              word_fmtSubject hid hs
            have hwrite := write_request (E := E) (w := { w with published := w.published ++ [m] })
              hidle hclean
            rw [show Nats.publish (fmtSubject m.channel m.subtopic) data
              = (Nats.Request.publish (fmtSubject m.channel m.subtopic) data).bytes from rfl, hwrite]
            refine List.mem_append_right _ (List.mem_filterMap.mpr
              ⟨⟨cb.conn, writeNat cb.sid, inputChannels, none⟩, ?_, ?_⟩)
            · refine List.mem_filter.mpr ⟨List.mem_filter.mpr ⟨hsub, ?_⟩, rfl⟩
              exact covers_inputChannels hid m.subtopic
            · have hfind : (w.callbacks.find? fun cb' =>
                  cb'.conn = cb.conn ∧ writeNat cb'.sid = writeNat cb.sid) = some cb := by
                refine find?_of_unique hcb (by simp) fun b hb hkey => ?_
                obtain ⟨hconn, hsid⟩ := of_decide_eq_true hkey
                exact hsame b hb ⟨hconn, writeNat_inj hsid⟩
              rw [dispatch, hfind]
              simp only [protoUnmarshal_message hdata hsize]

end Bytes

/-- What the lamp publishes on the channel `2`. -/
def otherMessage : Publication :=
  { channel := ['2'], subtopic := [], publisher := ['l'], contentType := [], protocol := Http.protocol,
    payload := [7] }

end Mainflux.Messaging.Broker
