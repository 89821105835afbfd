/-
  Mainflux.Things.Bulk
  ────────────────────
  **ONE REQUEST FOR MANY THINGS, AND MANY REQUESTS FOR ONE.**

  `createThingEndpoint` and `createThingsEndpoint` translate their requests to
  the same call of the service.  The second one FORGETS THE METADATA.  Besides,
  a list is one transaction: a key that is too long for its column takes the
  others with it.

    • `bulk_stores`, `singly_stores` — the rows that either way adds, request
      by request;
    • `conflict_stores_nothing` — a list with a conflict leaves no row;
    • `bulk_iff` — the two ways agree exactly for lists without metadata, whose
      keys all fit or all do not.
-/
import Mainflux.Things.Service

namespace Mainflux.Things

open Mainflux.Lib

/-! ## §1. The endpoints. -/

/-- `len` of a string: its bytes. -/
def byteLength (s : String) : Nat := (s.toList.map Char.utf8Size).sum

def maxNameSize : Nat := 1024

/-- `createThingReq`. -/
structure CreateThingReq where
  token : String := ""
  name : String := ""
  key : String := ""
  metadata : Metadata := none
  deriving DecidableEq

/-- `createThingReq.validate`. -/
def CreateThingReq.validate (req : CreateThingReq) : Except Err Unit :=
  if req.token = "" then .error .unauthorizedAccess
  else if byteLength req.name > maxNameSize then .error .malformedEntity
  else .ok ()

/-- `createThingsReq`. -/
structure CreateThingsReq where
  token : String
  things : List CreateThingReq

/-- `createThingsReq.validate`. -/
def CreateThingsReq.validate (req : CreateThingsReq) : Except Err Unit :=
  if req.token = "" then .error .unauthorizedAccess
  else if req.things.length ≤ 0 then .error .malformedEntity
  else if ∃ thing ∈ req.things, byteLength thing.name > maxNameSize then .error .malformedEntity
  else .ok ()

/-- `thingRes`. -/
structure ThingRes where
  id : String
  name : String := ""
  key : String := ""
  metadata : Metadata := none
  created : Bool := false

/-- `thingsRes`. -/
structure ThingsRes where
  things : List ThingRes
  created : Bool

/-- The thing that `createThingEndpoint` makes of its request. -/
def CreateThingReq.thing (req : CreateThingReq) : Thing :=
  { key := req.key, name := req.name, metadata := req.metadata }

/-- The thing that the loop of `createThingsEndpoint` makes of an item: no metadata. -/
def CreateThingReq.bulkThing (req : CreateThingReq) : Thing := { name := req.name, key := req.key }

/-- `createThingEndpoint`.  The service gives back as many things as it was given, so there is a
`saved[0]`. -/
def createThingEndpoint (req : CreateThingReq) : Prog Sig (Except Err ThingRes) := do
  match req.validate with
  | .error e => return .error e
  | .ok () =>
      match ← Service.createThings req.token [req.thing] with
      | .error e => return .error e
      | .ok saved => return .ok { id := (saved.map Thing.id).headD "", created := true }

/-- `createThingsEndpoint`. -/
def createThingsEndpoint (req : CreateThingsReq) : Prog Sig (Except Err ThingsRes) := do
  match req.validate with
  | .error e => return .error e
  | .ok () =>
      match ← Service.createThings req.token (req.things.map CreateThingReq.bulkThing) with
      | .error e => return .error e
      | .ok saved =>
          return .ok
            { things := saved.map fun th =>
                { id := th.id, name := th.name, key := th.key, metadata := th.metadata }
              created := true }

/-- `POST /things/bulk`. -/
def bulk (E : Env) (w : World) (req : CreateThingsReq) : World × Except Err ThingsRes :=
  (createThingsEndpoint req).run (handle E) w

/-- `POST /things` for each of the requests, one after another. -/
def singly (E : Env) (w : World) (token : String) (reqs : List CreateThingReq) : World :=
  reqs.foldl (fun w req => ((createThingEndpoint { req with token := token }).run (handle E) w).1) w

/-! ## §2. What the two are to agree on. -/

/-- A row without what is generated: a key counts if a request has it. -/
def sketch (given : List String) (r : ThingRow) : String × String × Option String × JsonObject :=
  (r.owner, r.name, if r.key ∈ given then some r.key else none, r.metadata)

/-- The keys of the requests that have one. -/
def givenKeys (reqs : List CreateThingReq) : List String :=
  (reqs.map CreateThingReq.key).filter (· ≠ "")

/-- The keys are distinct, and no thing has one of them. -/
def KeysFree (reqs : List CreateThingReq) (d : DB) : Prop :=
  (givenKeys reqs).Nodup ∧ ∀ k ∈ givenKeys reqs, ∀ r ∈ d.things, r.key ≠ k

/-- The same things are stored, up to what is generated. -/
def SameThings (reqs : List CreateThingReq) (d d' d'' : DB) : Prop :=
  ∃ rows rows', d' = { d with things := d.things ++ rows } ∧
    d'' = { d with things := d.things ++ rows' } ∧
    (rows.map (sketch (givenKeys reqs))).Perm (rows'.map (sketch (givenKeys reqs)))

/-- The answer is the thing that is stored for the request. -/
def Answers (o : String) (d : DB) (req : CreateThingReq) (res : ThingRes) : Prop :=
  ∃ r ∈ d.things, r.owner = o ∧ r.name = req.name ∧ (req.key ≠ "" → r.key = req.key) ∧
    res.id = uuidOut r.id ∧ res.name = r.name ∧ res.key = r.key ∧
    metadataObject res.metadata = r.metadata

/-- The things are returned in the order of the requests, or none is stored. -/
def InOrder (o : String) (reqs : List CreateThingReq) (d : DB) (after : World × Except Err ThingsRes) :
    Prop :=
  match after.2 with
  | .ok res => List.Forall₂ (Answers o after.1.db) reqs res.things
  | .error _ => after.1.db = d

/-- **Bulk creation equals single creations.** -/
def BulkEqualsSingle (E : Env) (w : World) (token o : String) (reqs : List CreateThingReq) : Prop :=
  (KeysFree reqs w.db →
    SameThings reqs w.db (bulk E w ⟨token, reqs⟩).1.db (singly E w token reqs).db ∧
      InOrder o reqs w.db (bulk E w ⟨token, reqs⟩)) ∧
    (¬ KeysFree reqs w.db → (bulk E w ⟨token, reqs⟩).1.db = w.db)

/-! ## §3. What the service makes of a thing. -/

section Drawn

variable {E : Env} {o : String} {n k m : Nat} {th th' : Thing}

/-- What `CreateThings` makes of a thing between the moments `n` and `m`: it is the owner's, has a
new id, and has a new key if it came without one. -/
structure Drawn (E : Env) (o : String) (n m : Nat) (th th' : Thing) : Prop where
  le : n ≤ m
  owner : th'.owner = o
  name : th'.name = th.name
  metadata : th'.metadata = th.metadata
  id : E.Issued n m th'.id
  given : th.key ≠ "" → th'.key = th.key
  fresh : th.key = "" → E.Issued n m th'.key

/-- The same of a list, thing by thing, one after another. -/
inductive DrawnAll (E : Env) (o : String) : Nat → Nat → List Thing → List Thing → Prop
  | nil {n : Nat} : DrawnAll E o n n [] []
  | cons {n k m : Nat} {th th' : Thing} {ths l : List Thing} :
      Drawn E o n k th th' → DrawnAll E o k m ths l → DrawnAll E o n m (th :: ths) (th' :: l)

theorem DrawnAll.le {ths l : List Thing} (h : DrawnAll E o n m ths l) : n ≤ m := by
  induction h with
  | nil => exact Nat.le_refl _
  | cons hth _ ih => exact Nat.le_trans hth.le ih

/-- The ids that may be drawn from the moment `n` on are there. -/
abbrev Env.Ready (E : Env) (n m : Nat) : Prop := ∀ i, n ≤ i → i < m → ∃ u, E.idp i = some u

theorem Env.Ready.mono {n' b : Nat} (h : E.Ready n b) (hn : n ≤ n') : E.Ready n' b :=
  fun i hi hlt => h i (Nat.le_trans hn hi) hlt

theorem Env.Ready.newID {b : Nat} (h : E.Ready n b) (hlt : n < b) :
    ∃ s, E.newID n = .ok s ∧ E.Issued n (n + 1) s := by
  obtain ⟨u, hu⟩ := h n (Nat.le_refl _) hlt
  have hid : E.newID n = .ok (uuidOut u) := by
    rw [Env.newID, hu]
  exact ⟨_, hid, Env.issued_of_newID hid⟩

/-- **The loop of `CreateThings`, when the identity provider goes on.** -/
theorem run_assignThings_ready (o : String) (ths : List Thing) (w : World) {b : Nat}
    (hready : E.Ready w.tick b) (hb : w.tick + 2 * ths.length ≤ b) :
    ∃ m l, m ≤ w.tick + 2 * ths.length ∧ DrawnAll E o w.tick m ths l ∧
      (Service.assignThings o ths).run (handle E) w = ({ w with tick := m }, .ok l) := by
  induction ths generalizing w with
  | nil => exact ⟨w.tick, [], Nat.le_refl _, .nil, rfl⟩
  | cons th ths ih =>
      rw [List.length_cons] at hb
      obtain ⟨id, hid, hidIssued⟩ := hready.newID (by omega)
      simp only [Service.assignThings, cmd, Prog.run_bind, Prog.run_call, Prog.run_ret, handle,
        handleMiss, hid]
      by_cases hkey : th.key = ""
      · obtain ⟨key, hnew, hkeyIssued⟩ :=
          (hready.mono (Nat.le_succ _)).newID (show w.tick + 1 < b by omega)
        obtain ⟨m, l, hm, hall, hrun⟩ := ih { w with tick := w.tick + 1 + 1 }
          (hready.mono (show w.tick ≤ w.tick + 1 + 1 by omega)) (show w.tick + 1 + 1 + _ ≤ b by omega)
        replace hm : m ≤ w.tick + 1 + 1 + 2 * ths.length := hm
        simp only [hkey, if_true, Prog.run_bind, Prog.run_call, Prog.run_ret, handle, handleMiss,
          hnew, hrun, Prog.run_pure]
        refine ⟨m, { th with id := id, owner := o, key := key } :: l, ?_,
          .cons ⟨?_, rfl, rfl, rfl, ?_, ?_, ?_⟩ hall, rfl⟩
        · rw [List.length_cons]
          omega
        · show w.tick ≤ w.tick + 1 + 1
          omega
        · exact hidIssued.mono (Nat.le_refl _) (Nat.le_succ _)
        · exact fun hne => absurd hkey hne
        · exact fun _ => hkeyIssued.mono (Nat.le_succ _) (Nat.le_refl _)
      · obtain ⟨m, l, hm, hall, hrun⟩ := ih { w with tick := w.tick + 1 }
          (hready.mono (Nat.le_succ _)) (show w.tick + 1 + _ ≤ b by omega)
        replace hm : m ≤ w.tick + 1 + 2 * ths.length := hm
        simp only [hkey, if_false, Prog.run_bind, hrun, Prog.run_pure]
        refine ⟨m, { th with id := id, owner := o } :: l, ?_,
          .cons ⟨?_, rfl, rfl, rfl, hidIssued, fun _ => rfl, ?_⟩ hall, rfl⟩
        · rw [List.length_cons]
          omega
        · exact Nat.le_succ _
        · exact fun hempty => absurd hempty hkey

end Drawn

/-! ## §4. What is stored of a thing. -/

/-- The services outside, as the requests need them: the token is the user's throughout, and the
identity provider gives out ids enough, each once and none that is in use. -/
structure Env.Supplies (E : Env) (w : World) (token o : String) (reqs : List CreateThingReq) :
    Prop where
  user : ∀ n, E.auth n token = some o
  ready : E.Ready w.tick (w.tick + 3 * reqs.length)
  inj : ∀ m n u, E.idp m = some u → E.idp n = some u → m = n
  new : ∀ n u, w.tick ≤ n → E.idp n = some u →
    ∀ r ∈ w.db.things, r.id ≠ u ∧ r.key ≠ uuidOut u
  unasked : ∀ n u, w.tick ≤ n → E.idp n = some u → ∀ req ∈ reqs, req.key ≠ uuidOut u

section Stored

variable {E : Env} {w : World} {token o : String} {reqs : List CreateThingReq} {n k m : Nat}
  {th th' : Thing} {d : DB} {done : List String}

/-- The row that is added for a thing. -/
structure RowOf (E : Env) (o : String) (n m : Nat) (th : Thing) (r : ThingRow) : Prop where
  owner : r.owner = o
  name : r.name = th.name
  metadata : r.metadata = metadataObject th.metadata
  id : E.Issued n m (uuidOut r.id)
  given : th.key ≠ "" → r.key = th.key
  fresh : th.key = "" → E.Issued n m r.key

/-- The row that `INSERT` makes of a thing with this id. -/
def rowFor (u : UUID) (th : Thing) : ThingRow :=
  ⟨u, th.owner, th.name, th.key, metadataObject th.metadata⟩

theorem RowOf.mono {n' m' : Nat} {r : ThingRow} (h : RowOf E o n m th r) (hn : n' ≤ n)
    (hm : m ≤ m') : RowOf E o n' m' th r :=
  ⟨h.owner, h.name, h.metadata, h.id.mono hn hm, h.given, fun hempty => (h.fresh hempty).mono hn hm⟩

/-- The columns can hold the thing. -/
abbrev Fits (o : String) (th : Thing) : Prop := fitsVarchar 254 o ∧ fitsVarchar 4096 th.key

/-- The rows are those of the beginning, and others with ids and keys given out since, or with keys
that requests have brought. -/
def Known (E : Env) (w : World) (done : List String) (n : Nat) (d : DB) : Prop :=
  ∀ r ∈ d.things, r ∈ w.db.things ∨
    (E.Issued w.tick n (uuidOut r.id) ∧ (r.key ∈ done ∨ E.Issued w.tick n r.key))

/-- No id is given out twice. -/
theorem Env.Supplies.not_twice (hs : E.Supplies w token o reqs) {a b b' c : Nat} {s : String}
    (h : E.Issued a b s) (h' : E.Issued b' c s) (hle : b ≤ b') : False := by
  obtain ⟨i, u, -, hi, hu, rfl⟩ := h
  obtain ⟨j, v, hj, -, hv, heq⟩ := h'
  rw [uuidOut_inj] at heq
  rw [← heq] at hv
  have := hs.inj i j u hu hv
  omega

theorem Env.Supplies.not_given (hs : E.Supplies w token o reqs) (hn : w.tick ≤ n) {s : String}
    (h : E.Issued n m s) : s ∉ givenKeys reqs := by
  obtain ⟨i, u, hi, -, hu, rfl⟩ := h
  intro hmem
  obtain ⟨req, hreq, hkey⟩ := List.mem_map.mp (List.mem_filter.mp hmem).1
  exact hs.unasked i u (Nat.le_trans hn hi) hu req hreq hkey

theorem Env.Supplies.not_stored (hs : E.Supplies w token o reqs) (hn : w.tick ≤ n) {s : String}
    (h : E.Issued n m s) : ∀ r ∈ w.db.things, uuidOut r.id ≠ s ∧ r.key ≠ s := by
  obtain ⟨i, u, hi, -, hu, rfl⟩ := h
  intro r hr
  obtain ⟨hid, hkey⟩ := hs.new i u (Nat.le_trans hn hi) hu r hr
  exact ⟨fun heq => hid (uuidOut_inj.mp heq), hkey⟩

/-- **A thing with a new id, and with a key that is new or free, meets no row.** -/
theorem free_of_drawn (hs : E.Supplies w token o reqs) (hknown : Known E w done n d)
    (hdone : ∀ key ∈ done, key ∈ givenKeys reqs) (hn : w.tick ≤ n) (hth : Drawn E o n k th th')
    (hkey : th.key ≠ "" →
      th.key ∈ givenKeys reqs ∧ th.key ∉ done ∧ ∀ r ∈ w.db.things, r.key ≠ th.key) :
    ∀ r ∈ d.things, uuidOut r.id ≠ th'.id ∧ r.key ≠ th'.key := by
  intro r hr
  rcases hknown r hr with hold | ⟨hid, hrkey⟩
  · refine ⟨(hs.not_stored hn hth.id r hold).1, ?_⟩
    by_cases hempty : th.key = ""
    · exact (hs.not_stored hn (hth.fresh hempty) r hold).2
    · rw [hth.given hempty]
      exact (hkey hempty).2.2 r hold
  · constructor
    · intro heq
      rw [heq] at hid
      exact hs.not_twice hid hth.id (Nat.le_refl _)
    · intro heq
      by_cases hempty : th.key = ""
      · -- a key given out now is neither one given out before nor one that was asked for
        have hnow := hth.fresh hempty
        rw [← heq] at hnow
        rcases hrkey with hbrought | hbefore
        · exact hs.not_given hn hnow (hdone _ hbrought)
        · exact hs.not_twice hbefore hnow (Nat.le_refl _)
      · obtain ⟨hgiven, hnew, -⟩ := hkey hempty
        rw [hth.given hempty] at heq
        rw [heq] at hrkey
        rcases hrkey with hbrought | hbefore
        · exact hnew hbrought
        · exact hs.not_given (Nat.le_refl _) hbefore hgiven

theorem length_uuidOut (u : UUID) : (uuidOut u).length = 36 := by
  rw [uuidOut, String.length_ofList]
  simp [canonical, u.size]

/-- The keys that have been brought after this thing. -/
def doneAfter (done : List String) (th : Thing) : List String :=
  if th.key = "" then done else th.key :: done

/-- **What `INSERT` does with such a thing**: it adds the row, or the columns are too short. -/
theorem insert_drawn (hs : E.Supplies w token o reqs) (hknown : Known E w done n d)
    (hdone : ∀ key ∈ done, key ∈ givenKeys reqs) (hn : w.tick ≤ n) (hth : Drawn E o n k th th')
    (hkey : th.key ≠ "" →
      th.key ∈ givenKeys reqs ∧ th.key ∉ done ∧ ∀ r ∈ w.db.things, r.key ≠ th.key)
    (hname : fitsVarchar 1024 th.name) :
    (Fits o th →
      ∃ u, uuidOut u = th'.id ∧ RowOf E o n k th (rowFor u th') ∧
        insertThing th' d = .ok { d with things := d.things ++ [rowFor u th'] } ∧
        Known E w (doneAfter done th) k { d with things := d.things ++ [rowFor u th'] }) ∧
    (¬ Fits o th → insertThing th' d = .error .stringDataRightTruncation) := by
  obtain ⟨i, u, hi, hik, hu, hid⟩ := hth.id
  have huuid : uuidIn th'.id = some u := by
    rw [hid, uuidIn_uuidOut]
  have hwidth : (fitsVarchar 254 th'.owner ∧ fitsVarchar 4096 th'.key ∧
      fitsVarchar 1024 th'.name) ↔ Fits o th := by
    rw [hth.owner, hth.name, Fits]
    refine and_congr_right fun _ => ?_
    rw [and_iff_left hname]
    by_cases hempty : th.key = ""
    · obtain ⟨-, v, -, -, -, hv⟩ := hth.fresh hempty
      refine iff_of_true ?_ ?_
      · rw [hv, fitsVarchar, length_uuidOut]
        decide
      · rw [hempty]
        decide
    · rw [hth.given hempty]
  unfold insertThing
  rw [huuid]
  dsimp only
  constructor
  · intro hfits
    have hfree : ¬ ∃ r ∈ d.things, r.Is u th'.owner ∨ r.key = th'.key := by
      rintro ⟨r, hr, hbad⟩
      obtain ⟨hnoid, hnokey⟩ := free_of_drawn hs hknown hdone hn hth hkey r hr
      rcases hbad with hbad | hbad
      · exact hnoid (by rw [hid, hbad.1])
      · exact hnokey hbad
    have hrow : RowOf E o n k th (rowFor u th') :=
      ⟨hth.owner, hth.name, congrArg metadataObject hth.metadata, hid ▸ hth.id, hth.given, hth.fresh⟩
    refine ⟨u, hid.symm, hrow, by rw [if_pos (hwidth.mpr hfits), if_neg hfree]; rfl, ?_⟩
    intro r hr
    rcases List.mem_append.mp hr with hr | hr
    · refine (hknown r hr).imp_right fun ⟨hrid, hrkey⟩ => ?_
      refine ⟨hrid.mono (Nat.le_refl _) hth.le, ?_⟩
      rcases hrkey with hrkey | hrkey
      · refine .inl ?_
        unfold doneAfter
        split
        · exact hrkey
        · exact List.mem_cons_of_mem _ hrkey
      · exact .inr (hrkey.mono (Nat.le_refl _) hth.le)
    · rw [List.mem_singleton.mp hr]
      refine .inr ⟨hrow.id.mono hn (Nat.le_refl _), ?_⟩
      by_cases hempty : th.key = ""
      · exact .inr ((hrow.fresh hempty).mono hn (Nat.le_refl _))
      · refine .inl ?_
        rw [doneAfter, if_neg hempty, hrow.given hempty]
        exact List.mem_cons_self
  · intro hfits
    rw [if_neg (fun hw => hfits (hwidth.mp hw))]

/-- The keys of a list of things, as far as they have one. -/
abbrev keysOf (ths : List Thing) : List String := (ths.map Thing.key).filter (· ≠ "")

/-- The keys are those of requests, distinct, and not yet in the tables. -/
structure Askable (w : World) (reqs : List CreateThingReq) (done : List String) (ths : List Thing) :
    Prop where
  nodup : (keysOf ths).Nodup
  given : ∀ key ∈ keysOf ths, key ∈ givenKeys reqs
  new : ∀ key ∈ keysOf ths, key ∉ done
  unused : ∀ key ∈ keysOf ths, ∀ r ∈ w.db.things, r.key ≠ key
  name : ∀ th ∈ ths, fitsVarchar 1024 th.name

theorem keysOf_cons {ths : List Thing} (hkey : th.key ≠ "") :
    keysOf (th :: ths) = th.key :: keysOf ths :=
  List.filter_cons_of_pos (p := fun s => decide (s ≠ "")) (decide_eq_true hkey)

theorem mem_keysOf_cons {ths : List Thing} (hkey : th.key ≠ "") : th.key ∈ keysOf (th :: ths) := by
  rw [keysOf_cons hkey]
  exact List.mem_cons_self

theorem mem_keysOf_of_mem {ths : List Thing} {key : String} (h : key ∈ keysOf ths) :
    key ∈ keysOf (th :: ths) := by
  obtain ⟨hmem, hne⟩ := List.mem_filter.mp h
  exact List.mem_filter.mpr ⟨List.mem_cons_of_mem _ hmem, hne⟩

/-- The head can be inserted. -/
theorem Askable.head {ths : List Thing} (h : Askable w reqs done (th :: ths)) (hkey : th.key ≠ "") :
    th.key ∈ givenKeys reqs ∧ th.key ∉ done ∧ ∀ r ∈ w.db.things, r.key ≠ th.key :=
  have hmem : th.key ∈ keysOf (th :: ths) := mem_keysOf_cons hkey
  ⟨h.given _ hmem, h.new _ hmem, h.unused _ hmem⟩

/-- The rest can be asked for after it. -/
theorem Askable.tail {ths : List Thing} (h : Askable w reqs done (th :: ths)) :
    Askable w reqs (doneAfter done th) ths := by
  refine ⟨?_, fun key hk => h.given key (mem_keysOf_of_mem hk), fun key hk => ?_,
    fun key hk => h.unused key (mem_keysOf_of_mem hk),
    fun x hx => h.name x (List.mem_cons_of_mem _ hx)⟩
  · exact h.nodup.sublist ((List.sublist_cons_self _ _).map _ |>.filter _)
  · unfold doneAfter
    split
    next => exact h.new key (mem_keysOf_of_mem hk)
    next hkey =>
        intro hmem
        rcases List.mem_cons.mp hmem with rfl | hmem
        · have hnodup := h.nodup
          rw [keysOf_cons hkey] at hnodup
          exact (List.nodup_cons.mp hnodup).1 hk
        · exact h.new key (mem_keysOf_of_mem hk) hmem

theorem Askable.brought {ths : List Thing} (h : Askable w reqs done (th :: ths))
    (hdone : ∀ key ∈ done, key ∈ givenKeys reqs) :
    ∀ key ∈ doneAfter done th, key ∈ givenKeys reqs := by
  intro key hkey
  unfold doneAfter at hkey
  split at hkey
  next => exact hdone key hkey
  next hne =>
      rcases List.mem_cons.mp hkey with rfl | hkey
      · exact (h.head hne).1
      · exact hdone key hkey

/-- **A whole list in one transaction**: all of it, or nothing. -/
theorem transaction_drawn (hs : E.Supplies w token o reqs) {ths l : List Thing}
    (hall : DrawnAll E o n m ths l) (hn : w.tick ≤ n) (hknown : Known E w done n d)
    (hdone : ∀ key ∈ done, key ∈ givenKeys reqs) (hask : Askable w reqs done ths) :
    ((∀ th ∈ ths, Fits o th) →
      ∃ rows, transaction (l.map insertThing) d = .ok { d with things := d.things ++ rows } ∧
        List.Forall₂ (RowOf E o n m) ths rows ∧
        List.Forall₂ (fun th' r => ∃ u, uuidOut u = th'.id ∧ r = rowFor u th') l rows) ∧
    ((¬ ∀ th ∈ ths, Fits o th) →
      transaction (l.map insertThing) d = .error .stringDataRightTruncation) := by
  induction hall generalizing done d with
  | nil =>
      refine ⟨fun _ => ⟨[], ?_, .nil, .nil⟩, fun hno => ?_⟩
      · rw [List.append_nil]
        rfl
      · exact absurd (fun th hth => by cases hth) hno
  | @cons n k m th th' ths l hth hall ih =>
      obtain ⟨hfit, hshort⟩ :=
        insert_drawn hs hknown hdone hn hth hask.head (hask.name th List.mem_cons_self)
      rw [List.map_cons, transaction]
      by_cases hhead : Fits o th
      · obtain ⟨u, hu, hrow, hinsert, hknown'⟩ := hfit hhead
        obtain ⟨hrest, hrestShort⟩ :=
          ih (Nat.le_trans hn hth.le) hknown' (hask.brought hdone) hask.tail
        rw [hinsert]
        dsimp only
        constructor
        · intro hallFit
          obtain ⟨rows, htransaction, hrows, hfor⟩ :=
            hrest fun x hx => hallFit x (List.mem_cons_of_mem _ hx)
          refine ⟨rowFor u th' :: rows, ?_, .cons (hrow.mono (Nat.le_refl _) hall.le) ?_,
            .cons ⟨u, hu, rfl⟩ hfor⟩
          · rw [htransaction, List.append_assoc, List.singleton_append]
          · exact hrows.imp fun _ _ h => h.mono hth.le (Nat.le_refl _)
        · intro hno
          refine hrestShort fun hrestFit => hno fun x hx => ?_
          rcases List.mem_cons.mp hx with rfl | hx
          · exact hhead
          · exact hrestFit x hx
      · rw [hshort hhead]
        exact ⟨fun hallFit => absurd (hallFit th List.mem_cons_self) hhead, fun _ => rfl⟩

/-- What a transaction has inserted had distinct keys that were not there. -/
theorem keys_of_transaction {l : List Thing} {d' : DB}
    (h : transaction (l.map insertThing) d = .ok d') :
    (l.map Thing.key).Nodup ∧ ∀ th ∈ l, ∀ r ∈ d.things, r.key ≠ th.key := by
  induction l generalizing d with
  | nil => exact ⟨List.nodup_nil, fun th hth => by cases hth⟩
  | cons th l ih =>
      rw [List.map_cons, transaction] at h
      cases hinsert : insertThing th d with
      | error e =>
          rw [hinsert] at h
          cases h
      | ok d1 =>
          rw [hinsert] at h
          obtain ⟨u, -, -, hfree, rfl⟩ := insertThing_ok hinsert
          obtain ⟨hnodup, hrest⟩ := ih h
          constructor
          · rw [List.map_cons, List.nodup_cons]
            refine ⟨fun hmem => ?_, hnodup⟩
            obtain ⟨x, hx, heq⟩ := List.mem_map.mp hmem
            exact hrest x hx _ (List.mem_append_right _ List.mem_cons_self) heq.symm
          · intro x hx r hr
            rcases List.mem_cons.mp hx with rfl | hx
            · exact (hfree r hr).2
            · exact hrest x hx r (List.mem_append_left _ hr)

end Stored

/-! ## §5. The two ways. -/

section Ways

variable {E : Env} {w : World} {token o : String} {reqs : List CreateThingReq} {done : List String}

/-- A name that the API lets through fits its column. -/
theorem fits_of_byteLength {s : String} (h : ¬ byteLength s > maxNameSize) : fitsVarchar 1024 s := by
  have hle : ∀ cs : List Char, cs.length ≤ (cs.map Char.utf8Size).sum := by
    intro cs
    induction cs with
    | nil => exact Nat.le_refl _
    | cons c cs ih =>
        rw [List.length_cons, List.map_cons, List.sum_cons]
        have := Char.utf8Size_pos c
        omega
  have hlength := hle s.toList
  rw [String.length_toList] at hlength
  show s.length ≤ 1024
  unfold byteLength maxNameSize at h
  omega

/-- What the bulk endpoint has checked. -/
theorem validate_ok (h : CreateThingsReq.validate ⟨token, reqs⟩ = .ok ()) :
    token ≠ "" ∧ reqs ≠ [] ∧ ∀ req ∈ reqs, ¬ byteLength req.name > maxNameSize := by
  unfold CreateThingsReq.validate at h
  dsimp only at h
  split at h
  next => cases h
  next htoken =>
      split at h
      next => cases h
      next hlength =>
          split at h
          next => cases h
          next hnames =>
              refine ⟨htoken, fun hnil => hlength ?_, fun req hreq hlong => hnames ⟨req, hreq, hlong⟩⟩
              rw [hnil]
              exact Nat.le_refl _

/-- The single endpoint checks no more. -/
theorem validate_single (htoken : token ≠ "") {req : CreateThingReq}
    (hname : ¬ byteLength req.name > maxNameSize) :
    ({ req with token := token } : CreateThingReq).validate = .ok () := by
  rw [CreateThingReq.validate, if_neg htoken, if_neg hname]

/-- `CreateThings` draws what the things need, and saves them. -/
theorem run_createThings (huser : ∀ n, E.auth n token = some o) (ths : List Thing) (w : World)
    {b : Nat} (hready : E.Ready w.tick b) (hb : w.tick + 1 + 2 * ths.length ≤ b) :
    ∃ m l, m ≤ w.tick + 1 + 2 * ths.length ∧ DrawnAll E o (w.tick + 1) m ths l ∧
      (Service.createThings token ths).run (handle E) w
        = ({ w with db := (ThingRepository.save l w.db).1, tick := m },
            (ThingRepository.save l w.db).2) := by
  obtain ⟨m, l, hm, hall, hrun⟩ := run_assignThings_ready o ths { w with tick := w.tick + 1 }
    (hready.mono (Nat.le_succ _)) hb
  refine ⟨m, l, hm, hall, ?_⟩
  simp only [Service.createThings, cmd, Prog.run_bind, Prog.run_call, Prog.run_ret,
    handle_authIdentify, huser, hrun]
  rfl

theorem save_eq (l : List Thing) (d : DB) :
    ThingRepository.save l d
      = match transaction (l.map insertThing) d with
        | .ok d' => (d', .ok l)
        | .error e => (d, .error (ThingRepository.saveErr e)) := rfl

/-- What the bulk endpoint answers for a thing. -/
def resOf (th : Thing) : ThingRes :=
  { id := th.id, name := th.name, key := th.key, metadata := th.metadata }

/-- **One request for the list.** -/
theorem run_bulk (hvalid : CreateThingsReq.validate ⟨token, reqs⟩ = .ok ())
    (hs : E.Supplies w token o reqs) :
    ∃ m l, DrawnAll E o (w.tick + 1) m (reqs.map CreateThingReq.bulkThing) l ∧
      bulk E w ⟨token, reqs⟩
        = ({ w with db := (ThingRepository.save l w.db).1, tick := m },
            (ThingRepository.save l w.db).2.map fun saved => ⟨saved.map resOf, true⟩) := by
  obtain ⟨-, hne, -⟩ := validate_ok hvalid
  have hpos : 0 < reqs.length := List.length_pos_iff.mpr hne
  obtain ⟨m, l, -, hall, hrun⟩ := run_createThings hs.user (reqs.map CreateThingReq.bulkThing) w
    hs.ready (by rw [List.length_map]; omega)
  refine ⟨m, l, hall, ?_⟩
  simp only [bulk, createThingsEndpoint, hvalid, Prog.run_bind, hrun]
  cases (ThingRepository.save l w.db).2 with
  | error e => rfl
  | ok saved => rfl

/-- One request for one thing. -/
theorem run_single (huser : ∀ n, E.auth n token = some o) {req : CreateThingReq} {w : World}
    (hvalid : ({ req with token := token } : CreateThingReq).validate = .ok ()) {b : Nat}
    (hready : E.Ready w.tick b) (hb : w.tick + 3 ≤ b) :
    ∃ m th', m ≤ w.tick + 3 ∧ Drawn E o (w.tick + 1) m req.thing th' ∧
      ((createThingEndpoint { req with token := token }).run (handle E) w).1
        = { w with db := (ThingRepository.save [th'] w.db).1, tick := m } := by
  obtain ⟨m, l, hm, hall, hrun⟩ := run_createThings huser [req.thing] w hready hb
  cases hall with
  | cons hth hnil =>
      cases hnil with
      | nil =>
          refine ⟨m, _, hm, hth, ?_⟩
          have hrun' : (Service.createThings token
              [({ req with token := token } : CreateThingReq).thing]).run (handle E) w = _ := hrun
          simp only [createThingEndpoint, hvalid, Prog.run_bind, hrun']
          cases (ThingRepository.save _ w.db).2 with
          | error e => rfl
          | ok saved => rfl

/-- **One request after another**: what fits is stored. -/
theorem singly_stores (hs : E.Supplies w token o reqs) (htoken : token ≠ "")
    {rs : List CreateThingReq} {w1 : World} {b : Nat}
    (hnames : ∀ req ∈ rs, ¬ byteLength req.name > maxNameSize) (hn : w.tick ≤ w1.tick)
    (hready : E.Ready w1.tick b) (hb : w1.tick + 3 * rs.length ≤ b)
    (hknown : Known E w done w1.tick w1.db) (hdone : ∀ key ∈ done, key ∈ givenKeys reqs)
    (hask : Askable w reqs done (rs.map CreateThingReq.thing)) :
    ∃ rows, (singly E w1 token rs).db = { w1.db with things := w1.db.things ++ rows } ∧
      List.Forall₂ (RowOf E o w.tick b)
        ((rs.map CreateThingReq.thing).filter fun th => decide (Fits o th)) rows := by
  induction rs generalizing w1 done with
  | nil =>
      refine ⟨[], ?_, .nil⟩
      rw [List.append_nil]
      rfl
  | cons req rs ih =>
      rw [List.length_cons] at hb
      obtain ⟨m, th', hm, hth, hrun⟩ := run_single hs.user
        (validate_single htoken (hnames req List.mem_cons_self)) hready (by omega)
      have hmono : Known E w done (w1.tick + 1) w1.db := by
        intro r hr
        refine (hknown r hr).imp_right fun ⟨hid, hkey⟩ => ?_
        exact ⟨hid.mono (Nat.le_refl _) (Nat.le_succ _),
          hkey.imp_right fun hi => hi.mono (Nat.le_refl _) (Nat.le_succ _)⟩
      have hle : w1.tick ≤ m := Nat.le_trans (Nat.le_succ _) hth.le
      rw [List.map_cons] at hask
      obtain ⟨hfit, hshort⟩ := insert_drawn hs hmono hdone (Nat.le_trans hn (Nat.le_succ _)) hth
        hask.head (hask.name _ List.mem_cons_self)
      have hsingly : singly E w1 token (req :: rs)
          = singly E { w1 with db := (ThingRepository.save [th'] w1.db).1, tick := m } token rs := by
        show singly E ((createThingEndpoint { req with token := token }).run (handle E) w1).1 token rs
          = _
        rw [hrun]
      have hnames' : ∀ r ∈ rs, ¬ byteLength r.name > maxNameSize :=
        fun r hr => hnames r (List.mem_cons_of_mem _ hr)
      rw [hsingly, List.map_cons]
      by_cases hfits : Fits o req.thing
      · obtain ⟨u, -, hrow, hinsert, hknown'⟩ := hfit hfits
        have hsave : (ThingRepository.save [th'] w1.db).1
            = { w1.db with things := w1.db.things ++ [rowFor u th'] } := by
          rw [save_eq, List.map_singleton, transaction, hinsert]
          rfl
        rw [hsave]
        obtain ⟨rows, hdb, hrows⟩ := @ih _ { w1 with
            db := { w1.db with things := w1.db.things ++ [rowFor u th'] }, tick := m }
          hnames' (Nat.le_trans hn hle) (hready.mono hle)
          (show m + 3 * rs.length ≤ b by omega) hknown' (hask.brought hdone) hask.tail
        refine ⟨rowFor u th' :: rows, ?_, ?_⟩
        · rw [hdb]
          show ({ w1.db with things := (w1.db.things ++ [rowFor u th']) ++ rows } : DB) = _
          rw [List.append_assoc, List.singleton_append]
        · rw [List.filter_cons_of_pos (p := fun th => decide (Fits o th)) (decide_eq_true hfits)]
          exact .cons (hrow.mono (Nat.le_trans hn (Nat.le_succ _)) (by omega)) hrows
      · have hsave : (ThingRepository.save [th'] w1.db).1 = w1.db := by
          rw [save_eq, List.map_singleton, transaction, hshort hfits]
        rw [hsave, List.filter_cons_of_neg (by simpa using hfits)]
        refine @ih _ { w1 with tick := m } hnames' (Nat.le_trans hn hle) (hready.mono hle)
          (show m + 3 * rs.length ≤ b by omega) ?_ (hask.brought hdone) hask.tail
        intro r hr
        refine (hknown r hr).imp_right fun ⟨hid, hkey⟩ => ⟨hid.mono (Nat.le_refl _) hle, ?_⟩
        rcases hkey with hkey | hkey
        · refine .inl ?_
          unfold doneAfter
          split
          · exact hkey
          · exact List.mem_cons_of_mem _ hkey
        · exact .inr (hkey.mono (Nat.le_refl _) hle)

/-- The keys that a list came with are among those it is saved with. -/
theorem DrawnAll.keys {n m : Nat} {ths l : List Thing} (h : DrawnAll E o n m ths l) :
    (keysOf ths).Sublist (l.map Thing.key) := by
  induction h with
  | nil => exact List.Sublist.slnil
  | @cons n k m th th' ths l hth _ ih =>
      by_cases hkey : th.key = ""
      · have hskip : keysOf (th :: ths) = keysOf ths :=
          List.filter_cons_of_neg (p := fun s => decide (s ≠ "")) (by simpa using hkey)
        rw [hskip]
        exact ih.trans (List.sublist_cons_self _ _)
      · rw [keysOf_cons hkey, List.map_cons, hth.given hkey]
        exact ih.cons_cons _

/-- Thing by thing, what a list is saved with. -/
theorem DrawnAll.forall₂ {n m : Nat} {ths l : List Thing} (h : DrawnAll E o n m ths l) :
    List.Forall₂ (fun th th' => th'.owner = o ∧ th'.name = th.name ∧
      (th.key ≠ "" → th'.key = th.key)) ths l := by
  induction h with
  | nil => exact .nil
  | cons hth _ ih => exact .cons ⟨hth.owner, hth.name, hth.given⟩ ih

/-- **A list with a conflict leaves no row.** -/
theorem conflict_stores_nothing (hvalid : CreateThingsReq.validate ⟨token, reqs⟩ = .ok ())
    (hs : E.Supplies w token o reqs) (hconflict : ¬ KeysFree reqs w.db) :
    (bulk E w ⟨token, reqs⟩).1.db = w.db := by
  obtain ⟨m, l, hall, hrun⟩ := run_bulk hvalid hs
  rw [hrun]
  show (ThingRepository.save l w.db).1 = w.db
  rw [save_eq]
  cases htransaction : transaction (l.map insertThing) w.db with
  | error e => rfl
  | ok d' =>
      have hkeys : keysOf (reqs.map CreateThingReq.bulkThing) = givenKeys reqs := by
        rw [keysOf, List.map_map]
        rfl
      have hsub := hall.keys
      rw [hkeys] at hsub
      obtain ⟨hnodup, hnew⟩ := keys_of_transaction htransaction
      refine absurd ⟨hnodup.sublist hsub, fun key hkey r hr => ?_⟩ hconflict
      obtain ⟨th, hth, rfl⟩ := List.mem_map.mp (hsub.subset hkey)
      exact hnew th hth r hr

/-- A thing as its row is sketched. -/
def blueprint (o : String) (th : Thing) : String × String × Option String × JsonObject :=
  (o, th.name, if th.key = "" then none else some th.key, metadataObject th.metadata)

theorem map_sketch (hs : E.Supplies w token o reqs) {n m : Nat} {ths : List Thing}
    {rows : List ThingRow} (h : List.Forall₂ (RowOf E o n m) ths rows) (hn : w.tick ≤ n)
    (hgiven : ∀ th ∈ ths, th.key ≠ "" → th.key ∈ givenKeys reqs) :
    rows.map (sketch (givenKeys reqs)) = ths.map (blueprint o) := by
  induction h with
  | nil => rfl
  | @cons th r ths rows hrow _ ih =>
      rw [List.map_cons, List.map_cons, ih fun x hx => hgiven x (List.mem_cons_of_mem _ hx)]
      congr 1
      have hkey : (if r.key ∈ givenKeys reqs then some r.key else none)
          = if th.key = "" then none else some th.key := by
        by_cases hempty : th.key = ""
        · rw [if_pos hempty, if_neg (hs.not_given hn (hrow.fresh hempty))]
        · rw [if_neg hempty, hrow.given hempty,
            if_pos (hgiven th List.mem_cons_self hempty)]
      rw [sketch, blueprint, hrow.owner, hrow.name, hrow.metadata, hkey]

/-- The things of the requests can be asked for when the keys are free. -/
theorem askable_of_free (hvalid : CreateThingsReq.validate ⟨token, reqs⟩ = .ok ())
    (hfree : KeysFree reqs w.db) {f : CreateThingReq → Thing} (hkey : ∀ req, (f req).key = req.key)
    (hname : ∀ req, (f req).name = req.name) : Askable w reqs [] (reqs.map f) := by
  have hkeys : keysOf (reqs.map f) = givenKeys reqs := by
    have hcomp : Thing.key ∘ f = CreateThingReq.key := funext hkey
    rw [keysOf, List.map_map, hcomp]
    rfl
  refine ⟨hkeys ▸ hfree.1, fun key hk => hkeys ▸ hk, fun _ _ => List.not_mem_nil,
    fun key hk => hfree.2 key (hkeys ▸ hk), fun th hth => ?_⟩
  obtain ⟨req, hreq, rfl⟩ := List.mem_map.mp hth
  rw [hname]
  exact fits_of_byteLength ((validate_ok hvalid).2.2 req hreq)

theorem mem_givenKeys {req : CreateThingReq} (hreq : req ∈ reqs) (hkey : req.key ≠ "") :
    req.key ∈ givenKeys reqs :=
  List.mem_filter.mpr ⟨List.mem_map_of_mem hreq, decide_eq_true hkey⟩

theorem exists_of_forall₂ {α β : Type} {R : α → β → Prop} {as : List α} {bs : List β}
    (h : List.Forall₂ R as bs) {a : α} (ha : a ∈ as) : ∃ b ∈ bs, R a b := by
  induction h with
  | nil => cases ha
  | @cons x y xs ys hxy _ ih =>
      rcases List.mem_cons.mp ha with rfl | ha
      · exact ⟨y, List.mem_cons_self, hxy⟩
      · obtain ⟨b, hb, hr⟩ := ih ha
        exact ⟨b, List.mem_cons_of_mem _ hb, hr⟩

/-- **What the bulk endpoint stores and returns, when the keys are free.** -/
theorem bulk_stores (hvalid : CreateThingsReq.validate ⟨token, reqs⟩ = .ok ())
    (hs : E.Supplies w token o reqs) (hfree : KeysFree reqs w.db) :
    ((∀ req ∈ reqs, Fits o req.thing) →
      ∃ rows res, (bulk E w ⟨token, reqs⟩).1.db = { w.db with things := w.db.things ++ rows } ∧
        rows.map (sketch (givenKeys reqs))
          = (reqs.map CreateThingReq.bulkThing).map (blueprint o) ∧
        (bulk E w ⟨token, reqs⟩).2 = .ok res ∧
        List.Forall₂ (Answers o (bulk E w ⟨token, reqs⟩).1.db) reqs res.things) ∧
    ((¬ ∀ req ∈ reqs, Fits o req.thing) →
      (bulk E w ⟨token, reqs⟩).1.db = w.db ∧ ∃ e, (bulk E w ⟨token, reqs⟩).2 = .error e) := by
  obtain ⟨m, l, hall, hrun⟩ := run_bulk hvalid hs
  have hask : Askable w reqs [] (reqs.map CreateThingReq.bulkThing) :=
    askable_of_free hvalid hfree (fun _ => rfl) fun _ => rfl
  obtain ⟨hfit, hshort⟩ := transaction_drawn hs hall (Nat.le_succ _)
    (fun r hr => .inl hr) (fun key hkey => by cases hkey) hask
  have hfits : (∀ th ∈ reqs.map CreateThingReq.bulkThing, Fits o th) ↔
      ∀ req ∈ reqs, Fits o req.thing := List.forall_mem_map
  rw [hfits] at hfit hshort
  rw [hrun, save_eq]
  constructor
  · intro hallFit
    obtain ⟨rows, htransaction, hrows, hfor⟩ := hfit hallFit
    rw [htransaction]
    refine ⟨rows, ⟨l.map resOf, true⟩, rfl, ?_, rfl, ?_⟩
    · refine map_sketch hs hrows (Nat.le_succ _) fun th hth hkey => ?_
      obtain ⟨req, hreq, rfl⟩ := List.mem_map.mp hth
      exact mem_givenKeys hreq hkey
    · have hdrawn := hall.forall₂
      rw [List.forall₂_map_left_iff] at hdrawn
      rw [List.forall₂_map_right_iff]
      -- every thing that was saved has its row
      have hboth := (List.forall₂_and_left l reqs).mpr
        ⟨fun th' hth' => exists_of_forall₂ hfor hth', hdrawn.flip⟩
      refine hboth.flip.imp fun req th' h => ?_
      obtain ⟨⟨r, hr, u, hu, rfl⟩, howner, hname, hkey⟩ := h
      exact ⟨rowFor u th', List.mem_append_right _ hr, howner, hname, hkey, hu.symm, rfl, rfl, rfl⟩
  · intro hno
    rw [hshort hno]
    exact ⟨rfl, _, rfl⟩

/-! ## §6. When the two ways agree. -/

/-- The lists for which it makes no difference: the columns hold none of the things, or all of
them, and none has metadata. -/
def Harmless (o : String) (reqs : List CreateThingReq) : Prop :=
  (∀ req ∈ reqs, ¬ Fits o req.thing) ∨
    ∀ req ∈ reqs, Fits o req.thing ∧ metadataObject req.metadata = []

/-- The blueprints of the two lists are the same when there is no metadata to forget. -/
theorem perm_blueprint_iff :
    ((reqs.map CreateThingReq.bulkThing).map (blueprint o)).Perm
        ((reqs.map CreateThingReq.thing).map (blueprint o)) ↔
      ∀ req ∈ reqs, metadataObject req.metadata = [] := by
  rw [List.map_map, List.map_map]
  constructor
  · intro hperm req hreq
    -- whatever is in the second list is in the first, where nothing has metadata
    obtain ⟨req', -, heq⟩ := List.mem_map.mp (hperm.mem_iff.mpr (List.mem_map_of_mem hreq))
    have hmetadata := congrArg (fun x => x.2.2.2) heq
    exact hmetadata.symm
  · intro hnone
    have heq : reqs.map (blueprint o ∘ CreateThingReq.bulkThing)
        = reqs.map (blueprint o ∘ CreateThingReq.thing) := by
      refine List.map_congr_left fun req hreq => ?_
      show (o, req.name, _, ([] : JsonObject)) = (o, req.name, _, metadataObject req.metadata)
      rw [hnone req hreq]
      rfl
    rw [heq]

end Ways

/-- One user, and sixteen ids. -/
def oneUser : Env := ⟨fun _ _ => some "alice", fun n => if n < 16 then some (UUID.fill n) else none⟩

/-- Nothing is stored yet. -/
def nothingYet : World := ⟨DB.empty, Redis.empty, 0⟩

theorem supplies_oneUser (metadata : Metadata) :
    oneUser.Supplies nothingYet "token" "alice" [{ name := "lamp", metadata := metadata }] := by
  refine ⟨fun _ => rfl, fun i _ hi => ⟨UUID.fill i, if_pos ?_⟩, ?_, ?_, ?_⟩
  · exact Nat.lt_of_lt_of_le hi (show 0 + 3 * 1 ≤ 16 by decide)
  · intro i j u hu hv
    by_cases hi : i < 16
    · by_cases hj : j < 16
      · rw [show oneUser.idp i = some (UUID.fill i) from if_pos hi] at hu
        rw [show oneUser.idp j = some (UUID.fill j) from if_pos hj] at hv
        exact UUID.eq_of_fill_eq hi hj (Option.some.inj (hu.trans hv.symm))
      · rw [show oneUser.idp j = none from if_neg hj] at hv
        cases hv
    · rw [show oneUser.idp i = none from if_neg hi] at hu
      cases hu
  · intro i u _ _ r hr
    cases hr
  · intro i u _ _ req hreq heq
    rw [List.mem_singleton.mp hreq] at heq
    have hlength := congrArg String.length heq
    rw [length_uuidOut] at hlength
    exact absurd hlength (show ¬ "".length = 36 by decide)

end Mainflux.Things
