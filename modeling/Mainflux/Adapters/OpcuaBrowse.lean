/-
  Mainflux.Adapters.OpcuaBrowse
  ─────────────────────────────
  **BROWSING THE NODES OF AN OPC-UA SERVER.**

  `opcua/gopcua/browser.go`.  `browse` goes down from a node over three types of
  references and remembers no node that it has seen.  It comes to an end because
  it counts how deep it is, and it lists a node once for every way that leads
  there (`Walk`).

    • `browse_spec` — what is listed below a node, by induction on the levels
      that are left;
    • `browse_complete` — the nodes listed are the variables that ten references
      reach, each under the names of a way to it.
-/
import Mathlib.Data.List.Chain
import Mainflux.Adapters.OpcuaValues

namespace Mainflux.Adapters.Opcua

/-! ## §1. The server. -/

/-- `ua.DataValue`, as far as an attribute read is concerned. -/
structure DataValue where
  status : UInt32
  value : Variant

/-- The attributes that `browse` asks for. -/
structure Attrs where
  nodeClass : DataValue
  browseName : DataValue
  description : DataValue
  accessLevel : DataValue
  dataType : DataValue

inductive BrowseErr
  -- the request failed
  | request
  -- the attribute has another status
  | status (code : UInt32)
  -- the data type is no node id: `IntID` of a nil pointer
  | nilNodeID
  deriving DecidableEq

/-- What a server answers: the attributes of a node, and the targets of its forward
references of a type, the subtypes of that included. -/
structure Server where
  attributes : NodeID → Except BrowseErr Attrs
  referencedNodes : NodeID → UInt32 → Except BrowseErr (List NodeID)

/-! ## §2. Browsing. -/

def statusOK : UInt32 := 0x0

def statusBadAttributeIDInvalid : UInt32 := 0x80350000

def nodeClassVariable : UInt32 := 2

def accessLevelTypeCurrentWrite : UInt8 := 2

def organizes : UInt32 := 35

def hasProperty : UInt32 := 46

def hasComponent : UInt32 := 47

/-- `NodeDef`, without the fields that nothing sets. -/
structure NodeDef where
  nodeID : NodeID
  nodeClass : UInt32
  browseName : String
  description : String
  accessLevel : UInt8
  path : String
  dataType : String
  writable : Bool
  deriving DecidableEq

/-- An attribute that every node has. -/
def required (attr : DataValue) : Except BrowseErr Variant :=
  if attr.status = statusOK then .ok attr.value else .error (.status attr.status)

/-- An attribute that a node may lack. -/
def optional (attr : DataValue) : Except BrowseErr (Option Variant) :=
  if attr.status = statusOK then .ok (some attr.value)
  else if attr.status = statusBadAttributeIDInvalid then .ok none
  else .error (.status attr.status)

/-- The name of a data type. -/
def dataTypeName (n : NodeID) : String :=
  match n.intID.toNat with
  | 13 => "time.Time"
  | 1 => "bool"
  | 2 => "int8"
  | 4 => "int16"
  | 6 => "int32"
  | 3 => "byte"
  | 5 => "uint16"
  | 7 => "uint32"
  | 294 => "time.Time"
  | 12 => "string"
  | 10 => "float32"
  | 11 => "float64"
  | _ => n.toString

/-- `join`. -/
def join (a b : String) : String := if a = "" then b else a ++ "." ++ b

/-- The attributes of a node, and its path below `path`. -/
def nodeDef (srv : Server) (n : NodeID) (path : String) : Except BrowseErr NodeDef := do
  let attrs ← srv.attributes n
  let nodeClass ← required attrs.nodeClass
  let browseName ← required attrs.browseName
  let description ← optional attrs.description
  let accessLevel ← optional attrs.accessLevel
  let dataType ← optional attrs.dataType
  let accessLevel := ((accessLevel.map Variant.int).getD 0).toUInt64.toUInt8
  let dataType ←
    match dataType with
    | none => .ok ""
    | some v =>
        match v.nodeID with
        | none => .error .nilNodeID
        | some id => .ok (dataTypeName id)
  return {
    nodeID := n
    nodeClass := nodeClass.int.toUInt64.toUInt32
    browseName := browseName.string
    description := (description.map Variant.string).getD ""
    accessLevel := accessLevel
    path := join path browseName.string
    dataType := dataType
    writable := decide (accessLevel &&& accessLevelTypeCurrentWrite = accessLevelTypeCurrentWrite) }

/-- `browse`. -/
def browse (srv : Server) (n : NodeID) (path : String) (level : Nat) :
    Except BrowseErr (List NodeDef) :=
  if _h : level > 10 then .ok []
  else do
    let node ← nodeDef srv n path
    let nodes := if node.nodeClass = nodeClassVariable then [node] else []
    let browseChildren (refType : UInt32) : Except BrowseErr (List NodeDef) := do
      let refs ← srv.referencedNodes n refType
      let children ← refs.mapM fun rn => browse srv rn node.path (level + 1)
      return children.flatten
    let components ← browseChildren hasComponent
    let organized ← browseChildren organizes
    let properties ← browseChildren hasProperty
    return nodes ++ components ++ organized ++ properties
termination_by 11 - level

/-! ## §3. Node graphs. -/

/-- The types of references that are followed. -/
def followed : List UInt32 := [hasComponent, organizes, hasProperty]

/-- Every attribute is read, or may be lacking. -/
structure Attrs.Readable (attrs : Attrs) : Prop where
  nodeClass : attrs.nodeClass.status = statusOK
  browseName : attrs.browseName.status = statusOK
  description : attrs.description.status = statusOK ∨
    attrs.description.status = statusBadAttributeIDInvalid
  accessLevel : attrs.accessLevel.status = statusOK ∨
    attrs.accessLevel.status = statusBadAttributeIDInvalid
  dataType : attrs.dataType.status = statusOK ∧ attrs.dataType.value.nodeID ≠ none ∨
    attrs.dataType.status = statusBadAttributeIDInvalid

/-- The finite graph of the nodes: all reads and queries succeed, and the references stay
inside. -/
structure Graph (srv : Server) (nodes : List NodeID) : Prop where
  attributes : ∀ n ∈ nodes, ∃ attrs, srv.attributes n = .ok attrs ∧ attrs.Readable
  references : ∀ n ∈ nodes, ∀ t ∈ followed, ∃ refs, srv.referencedNodes n t = .ok refs ∧
    ∀ m ∈ refs, m ∈ nodes

/-- A reference that is followed. -/
def Server.Refers (srv : Server) (a b : NodeID) : Prop :=
  ∃ t ∈ followed, ∃ refs, srv.referencedNodes a t = .ok refs ∧ b ∈ refs

/-- A way along such references, with its nodes. -/
structure Server.Walk (srv : Server) (a b : NodeID) (way : List NodeID) : Prop where
  chain : way.IsChain srv.Refers
  first : way.head? = some a
  last : way.getLast? = some b

/-- The browse name of a node. -/
def Server.browseName (srv : Server) (n : NodeID) : String :=
  match srv.attributes n with
  | .ok attrs => attrs.browseName.value.string
  | .error _ => ""

/-- The node is a variable. -/
def Server.IsVariable (srv : Server) (n : NodeID) : Prop :=
  ∃ attrs, srv.attributes n = .ok attrs ∧
    attrs.nodeClass.value.int.toUInt64.toUInt32 = nodeClassVariable

/-- **Browsing from `root` comes to an end and lists the variables that at most ten
references reach, each under a path that `dotted` makes of the browse names on a way
there.** -/
def BrowsesAll (dotted : List String → String) (srv : Server) (root : NodeID) : Prop :=
  ∃ nodes, browse srv root "" 0 = .ok nodes ∧
    (∀ n, n ∈ nodes.map NodeDef.nodeID ↔
      srv.IsVariable n ∧ ∃ way, srv.Walk root n way ∧ way.length ≤ 10 + 1) ∧
    ∀ d ∈ nodes, ∃ way, srv.Walk root d.nodeID way ∧ way.length ≤ 10 + 1 ∧
      d.path = dotted (way.map srv.browseName)

section Walks

variable {srv : Server} {a b : NodeID}

theorem Server.Walk.ne_nil {way : List NodeID} (h : srv.Walk a b way) : way ≠ [] := by
  intro heq
  have hfirst := h.first
  rw [heq] at hfirst
  cases hfirst

/-- A way is its first node, or goes on with a reference. -/
theorem Server.walk_cons_iff {n : NodeID} {way : List NodeID} :
    srv.Walk a b (n :: way) ↔
      n = a ∧ (way = [] ∧ a = b ∨ ∃ c, srv.Refers a c ∧ srv.Walk c b way) := by
  constructor
  · rintro ⟨hchain, hfirst, hlast⟩
    cases hfirst
    refine ⟨rfl, ?_⟩
    cases way with
    | nil =>
        cases hlast
        exact .inl ⟨rfl, rfl⟩
    | cons c way =>
        obtain ⟨hstep, hrest⟩ := List.isChain_cons_cons.mp hchain
        exact .inr ⟨c, hstep, hrest, rfl, hlast⟩
  · rintro ⟨rfl, ⟨rfl, rfl⟩ | ⟨c, hstep, hwalk⟩⟩
    · exact ⟨List.isChain_singleton _, rfl, rfl⟩
    · cases way with
      | nil => exact absurd rfl hwalk.ne_nil
      | cons m way =>
          obtain rfl : m = c := Option.some.inj hwalk.first
          exact ⟨List.isChain_cons_cons.mpr ⟨hstep, hwalk.chain⟩, rfl, hwalk.last⟩

end Walks

/-! ## §4. What is listed. -/

theorem required_ok {attr : DataValue} (h : attr.status = statusOK) :
    required attr = .ok attr.value := if_pos h

theorem optional_ok {attr : DataValue}
    (h : attr.status = statusOK ∨ attr.status = statusBadAttributeIDInvalid) :
    ∃ v, optional attr = .ok v := by
  unfold optional
  rcases h with h | h
  · exact ⟨some attr.value, if_pos h⟩
  · refine ⟨none, ?_⟩
    rw [h]
    rfl

/-- What `browse` reads of a node whose attributes can be read. -/
theorem nodeDef_ok {srv : Server} {n : NodeID} {attrs : Attrs} (hattrs : srv.attributes n = .ok attrs)
    (h : attrs.Readable) (path : String) :
    ∃ d, nodeDef srv n path = .ok d ∧ d.nodeID = n ∧ d.path = join path (srv.browseName n) ∧
      (d.nodeClass = nodeClassVariable ↔ srv.IsVariable n) := by
  obtain ⟨description, hdescription⟩ := optional_ok h.description
  obtain ⟨accessLevel, haccess⟩ := optional_ok h.accessLevel
  have hname : srv.browseName n = attrs.browseName.value.string := by
    rw [Server.browseName, hattrs]
  have hvariable : srv.IsVariable n ↔
      attrs.nodeClass.value.int.toUInt64.toUInt32 = nodeClassVariable := by
    constructor
    · rintro ⟨attrs', hattrs', hclass⟩
      rw [hattrs] at hattrs'
      cases hattrs'
      exact hclass
    · intro hclass
      exact ⟨attrs, hattrs, hclass⟩
  rw [hname, hvariable]
  unfold nodeDef
  rcases h.dataType with ⟨hstatus, hvalue⟩ | hstatus
  · obtain ⟨id, hid⟩ := Option.ne_none_iff_exists'.mp hvalue
    have htype : optional attrs.dataType = .ok (some attrs.dataType.value) := if_pos hstatus
    simp only [hattrs, required_ok h.nodeClass, required_ok h.browseName, hdescription, haccess,
      htype, hid, bind, Except.bind]
    exact ⟨_, rfl, rfl, rfl, Iff.rfl⟩
  · have htype : optional attrs.dataType = .ok none := by
      unfold optional
      rw [hstatus]
      rfl
    simp only [hattrs, required_ok h.nodeClass, required_ok h.browseName, hdescription, haccess,
      htype, bind, Except.bind]
    exact ⟨_, rfl, rfl, rfl, Iff.rfl⟩

/-- The lists of a loop over the references, put together. -/
theorem mapM_ok {α β : Type} {f : α → Except BrowseErr (List β)} {xs : List α}
    (h : ∀ x ∈ xs, ∃ l, f x = .ok l) :
    ∃ ls, xs.mapM f = .ok ls ∧ ∀ d, d ∈ ls.flatten ↔ ∃ x ∈ xs, ∃ l, f x = .ok l ∧ d ∈ l := by
  induction xs with
  | nil => exact ⟨[], rfl, fun d => by simp⟩
  | cons x xs ih =>
      obtain ⟨l, hl⟩ := h x List.mem_cons_self
      obtain ⟨ls, hls, hmem⟩ := ih fun y hy => h y (List.mem_cons_of_mem _ hy)
      refine ⟨l :: ls, ?_, ?_⟩
      · rw [List.mapM_cons, hl, hls]
        rfl
      · intro d
        rw [List.flatten_cons, List.mem_append, hmem]
        simp [hl]

section Browse

variable {srv : Server} {nodes : List NodeID}

/-- One call, with its node and what is listed below that. -/
theorem browse_succ {n : NodeID} {path : String} {level : Nat} {d : NodeDef}
    {refs : UInt32 → List NodeID} {below : UInt32 → List (List NodeDef)} (hlevel : level ≤ 10)
    (hd : nodeDef srv n path = .ok d)
    (hrefs : ∀ t ∈ followed, srv.referencedNodes n t = .ok (refs t))
    (hbelow : ∀ t ∈ followed,
      (refs t).mapM (fun rn => browse srv rn d.path (level + 1)) = .ok (below t)) :
    browse srv n path level
      = .ok ((if d.nodeClass = nodeClassVariable then [d] else [])
          ++ (below hasComponent).flatten ++ (below organizes).flatten
          ++ (below hasProperty).flatten) := by
  rw [browse, dif_neg (by omega)]
  simp only [hd, hrefs hasComponent (by decide), hrefs organizes (by decide),
    hrefs hasProperty (by decide), hbelow hasComponent (by decide), hbelow organizes (by decide),
    hbelow hasProperty (by decide), bind, Except.bind, pure, Except.pure]

/-- The names of a way, put behind a path as `browse` does. -/
def joinAll (path : String) (names : List String) : String := names.foldl join path

/-- `x` is the node of a variable at the end of a way of at most `k` nodes from `n`, under the
path that the way makes. -/
def Listed (srv : Server) (k : Nat) (n : NodeID) (path : String) (x : NodeDef) : Prop :=
  ∃ way m, srv.Walk n m way ∧ way.length ≤ k ∧ srv.IsVariable m ∧
    nodeDef srv m (joinAll path (way.dropLast.map srv.browseName)) = .ok x

theorem not_listed_zero {n : NodeID} {path : String} {x : NodeDef} : ¬ Listed srv 0 n path x := by
  intro ⟨way, m, hwalk, hlength, _⟩
  exact hwalk.ne_nil (List.length_eq_zero_iff.mp (by omega))

/-- That is the node itself, or it is listed from a node that `n` refers to, with a node
less and behind the path of `n`. -/
theorem listed_succ_iff {k : Nat} {n : NodeID} {path : String} {d x : NodeDef}
    (hd : nodeDef srv n path = .ok d) (hpath : d.path = join path (srv.browseName n)) :
    Listed srv (k + 1) n path x ↔
      x = d ∧ srv.IsVariable n ∨ ∃ c, srv.Refers n c ∧ Listed srv k c d.path x := by
  constructor
  · intro ⟨way, m, hwalk, hlength, hvariable, hx⟩
    cases way with
    | nil => exact absurd rfl hwalk.ne_nil
    | cons n' way =>
        obtain ⟨rfl, ⟨rfl, rfl⟩ | ⟨c, hc, hrest⟩⟩ := Server.walk_cons_iff.mp hwalk
        · exact .inl ⟨Except.ok.inj (hx.symm.trans hd), hvariable⟩
        · rw [List.dropLast_cons_of_ne_nil hrest.ne_nil, List.map_cons] at hx
          have hx : nodeDef srv m (joinAll (join path (srv.browseName n'))
              (way.dropLast.map srv.browseName)) = .ok x := hx
          rw [← hpath] at hx
          rw [List.length_cons] at hlength
          exact .inr ⟨c, hc, way, m, hrest, by omega, hvariable, hx⟩
  · intro h
    rcases h with ⟨rfl, hvariable⟩ | ⟨c, hc, way, m, hwalk, hlength, hvariable, hx⟩
    · exact ⟨[n], n, Server.walk_cons_iff.mpr ⟨rfl, .inl ⟨rfl, rfl⟩⟩,
        by rw [List.length_singleton]; omega, hvariable, hd⟩
    · refine ⟨n :: way, m, Server.walk_cons_iff.mpr ⟨rfl, .inr ⟨c, hc, hwalk⟩⟩, ?_, hvariable, ?_⟩
      · rw [List.length_cons]
        omega
      · rw [List.dropLast_cons_of_ne_nil hwalk.ne_nil, List.map_cons]
        show nodeDef srv m (joinAll (join path _) _) = _
        rw [← hpath]
        exact hx

/-- The node and the lists of the three loops. -/
theorem mem_listing {n : NodeID} {d x : NodeDef} {below : UInt32 → List (List NodeDef)}
    (hclass : d.nodeClass = nodeClassVariable ↔ srv.IsVariable n) :
    x ∈ (if d.nodeClass = nodeClassVariable then [d] else [])
        ++ (below hasComponent).flatten ++ (below organizes).flatten
        ++ (below hasProperty).flatten ↔
      x = d ∧ srv.IsVariable n ∨ ∃ t ∈ followed, x ∈ (below t).flatten := by
  have hown : x ∈ (if d.nodeClass = nodeClassVariable then [d] else []) ↔
      x = d ∧ srv.IsVariable n := by
    rw [← hclass]
    split
    next hv => rw [List.mem_singleton, and_iff_left hv]
    next hv => exact iff_of_false List.not_mem_nil fun h => hv h.2
  simp only [List.mem_append, hown, followed, List.exists_mem_cons_iff, List.not_mem_nil,
    false_and, exists_false, or_false, or_assoc]

/-- What the loops over the references list, when each node behind them can be browsed. -/
theorem exists_below (hg : Graph srv nodes) {n : NodeID} (hn : n ∈ nodes) {path : String}
    {level : Nat} {P : NodeID → NodeDef → Prop}
    (h : ∀ c ∈ nodes, ∃ l, browse srv c path level = .ok l ∧ ∀ x, x ∈ l ↔ P c x) (t : UInt32)
    (ht : t ∈ followed) :
    ∃ refs ls, srv.referencedNodes n t = .ok refs ∧
      refs.mapM (fun c => browse srv c path level) = .ok ls ∧
        ∀ x, x ∈ ls.flatten ↔ ∃ c ∈ refs, P c x := by
  obtain ⟨refs, hrefs, hinside⟩ := hg.references n hn t ht
  have hall : ∀ c ∈ refs, ∃ l, browse srv c path level = .ok l := by
    intro c hc
    obtain ⟨l, hl, -⟩ := h c (hinside c hc)
    exact ⟨l, hl⟩
  obtain ⟨ls, hls, hmem⟩ := mapM_ok hall
  refine ⟨refs, ls, hrefs, hls, fun x => (hmem x).trans ?_⟩
  refine exists_congr fun c => and_congr_right fun hc => ?_
  obtain ⟨l, hl, hspec⟩ := h c (hinside c hc)
  constructor
  · intro ⟨l', hl', hx⟩
    rw [hl] at hl'
    cases hl'
    exact (hspec x).mp hx
  · intro hx
    exact ⟨l, hl, (hspec x).mpr hx⟩

/-- **What is listed below a node while `k` levels are left.** -/
theorem browse_spec (hg : Graph srv nodes) :
    ∀ k level, level + k = 11 → ∀ n ∈ nodes, ∀ path, ∃ listed,
      browse srv n path level = .ok listed ∧ ∀ x, x ∈ listed ↔ Listed srv k n path x := by
  intro k
  induction k with
  | zero =>
      intro level hlevel n _ path
      refine ⟨[], ?_, fun x => iff_of_false List.not_mem_nil not_listed_zero⟩
      rw [browse, dif_pos (by omega)]
  | succ k ih =>
      intro level hlevel n hn path
      obtain ⟨attrs, hattrs, hreadable⟩ := hg.attributes n hn
      obtain ⟨d, hd, -, hpath, hclass⟩ := nodeDef_ok hattrs hreadable path
      have hbelow := exists_below hg hn fun c hc => ih (level + 1) (by omega) c hc d.path
      -- the references of each type, and what is listed behind them
      choose! refs below hrefs hlists hmem using hbelow
      refine ⟨_, browse_succ (by omega) hd hrefs hlists, fun x => ?_⟩
      rw [mem_listing hclass, listed_succ_iff hd hpath]
      refine or_congr_right ?_
      constructor
      · intro ⟨t, ht, hx⟩
        obtain ⟨c, hc, hlisted⟩ := (hmem t ht x).mp hx
        exact ⟨c, ⟨t, ht, refs t, hrefs t ht, hc⟩, hlisted⟩
      · intro ⟨c, ⟨t, ht, refs', hrefs', hc⟩, hlisted⟩
        rw [hrefs t ht] at hrefs'
        cases hrefs'
        exact ⟨t, ht, (hmem t ht x).mpr ⟨c, hc, hlisted⟩⟩

end Browse

/-! ## §5. Paths. -/

theorem joinAll_eq {a : String} (h : a ≠ "") (names : List String) :
    joinAll a names = ".".intercalate (a :: names) := by
  induction names generalizing a with
  | nil => rfl
  | cons b names ih =>
      have hne : a ++ "." ++ b ≠ "" := by simp
      have hjoin : join a b = a ++ "." ++ b := if_neg h
      show joinAll (join a b) names = _
      rw [hjoin, ih hne]
      rfl

/-- What `join` makes of a list of names: those it begins with get no dot while they are
empty. -/
theorem joinAll_empty (names : List String) :
    joinAll "" names = ".".intercalate (names.dropWhile (· = "")) := by
  induction names with
  | nil => rfl
  | cons b names ih =>
      have hjoin : join "" b = b := if_pos rfl
      show joinAll (join "" b) names = _
      rw [hjoin]
      by_cases hb : b = ""
      · rw [hb, ih, List.dropWhile_cons_of_pos (by simp)]
      · rw [joinAll_eq hb, List.dropWhile_cons_of_neg (by simp [hb])]

theorem joinAll_concat (path : String) (names : List String) (b : String) :
    joinAll path (names ++ [b]) = join (joinAll path names) b := by
  rw [joinAll, List.foldl_append]
  rfl

/-! ## §6. Browsing from the root. -/

/-- A way does not leave the graph. -/
theorem Graph.mem_of_walk {srv : Server} {nodes : List NodeID} (hg : Graph srv nodes) {a b : NodeID}
    {way : List NodeID} (ha : a ∈ nodes) (h : srv.Walk a b way) : b ∈ nodes := by
  induction way generalizing a with
  | nil => exact absurd rfl h.ne_nil
  | cons n way ih =>
      obtain ⟨-, ⟨-, rfl⟩ | ⟨c, ⟨t, ht, refs, hrefs, hc⟩, hrest⟩⟩ := Server.walk_cons_iff.mp h
      · exact ha
      · obtain ⟨refs', hrefs', hinside⟩ := hg.references a ha t ht
        obtain rfl : refs = refs' := Except.ok.inj (hrefs.symm.trans hrefs')
        exact ih (hinside c hc) hrest

/-- The node at the end of a way, as it is listed there. -/
theorem nodeDef_of_walk {srv : Server} {nodes : List NodeID} (hg : Graph srv nodes)
    {root m : NodeID} {way : List NodeID} (hroot : root ∈ nodes) (h : srv.Walk root m way) :
    ∃ d, nodeDef srv m (joinAll "" (way.dropLast.map srv.browseName)) = .ok d ∧ d.nodeID = m ∧
      d.path = ".".intercalate ((way.map srv.browseName).dropWhile (· = "")) := by
  obtain ⟨attrs, hattrs, hreadable⟩ := hg.attributes m (hg.mem_of_walk hroot h)
  obtain ⟨d, hd, hid, hpath, -⟩ :=
    nodeDef_ok hattrs hreadable (joinAll "" (way.dropLast.map srv.browseName))
  have hway : way = way.dropLast ++ [m] :=
    (List.dropLast_append_getLast? m h.last).symm
  refine ⟨d, hd, hid, ?_⟩
  rw [hpath, ← joinAll_concat, ← joinAll_empty]
  conv_rhs => rw [hway, List.map_append]
  rfl

/-- **Browsing is complete to its depth and ends**; the names that a way begins with are
left out of the path while they are empty. -/
theorem browse_complete {srv : Server} {nodes : List NodeID} (hg : Graph srv nodes)
    {root : NodeID} (hroot : root ∈ nodes) :
    BrowsesAll (fun names => ".".intercalate (names.dropWhile (· = ""))) srv root := by
  obtain ⟨listed, hlisted, hspec⟩ := browse_spec hg 11 0 rfl root hroot ""
  refine ⟨listed, hlisted, ?_, ?_⟩
  · intro n
    rw [List.mem_map]
    constructor
    · rintro ⟨d, hd, rfl⟩
      obtain ⟨way, m, hwalk, hlength, hvariable, hdef⟩ := (hspec d).mp hd
      obtain ⟨d', hd', hid, -⟩ := nodeDef_of_walk hg hroot hwalk
      obtain rfl : d = d' := Except.ok.inj (hdef.symm.trans hd')
      rw [hid]
      exact ⟨hvariable, way, hwalk, hlength⟩
    · rintro ⟨hvariable, way, hwalk, hlength⟩
      obtain ⟨d, hd, hid, -⟩ := nodeDef_of_walk hg hroot hwalk
      exact ⟨d, (hspec d).mpr ⟨way, n, hwalk, hlength, hvariable, hd⟩, hid⟩
  · intro d hd
    obtain ⟨way, m, hwalk, hlength, hvariable, hdef⟩ := (hspec d).mp hd
    obtain ⟨d', hd', hid, hpath⟩ := nodeDef_of_walk hg hroot hwalk
    obtain rfl : d = d' := Except.ok.inj (hdef.symm.trans hd')
    rw [← hid] at hwalk
    exact ⟨way, hwalk, hlength, hpath⟩

/-- A server with one object and, below it, one variable. -/
def twoNodes (name : String) : Server where
  attributes n :=
    .ok {
      nodeClass := ⟨statusOK, .int32, if n = .numeric 0 85 then 1 else 2⟩
      browseName := ⟨statusOK, .qualifiedName, if n = .numeric 0 85 then name else "Temp"⟩
      description := ⟨statusBadAttributeIDInvalid, .null, ()⟩
      accessLevel := ⟨statusBadAttributeIDInvalid, .null, ()⟩
      dataType := ⟨statusBadAttributeIDInvalid, .null, ()⟩ }
  referencedNodes n t :=
    .ok (if n = .numeric 0 85 ∧ t = organizes then [.numeric 2 7] else [])

theorem graph_twoNodes (name : String) :
    Graph (twoNodes name) [.numeric 0 85, .numeric 2 7] where
  attributes n _ := ⟨_, rfl, rfl, rfl, .inr rfl, .inr rfl, .inr rfl⟩
  references n hn t _ := by
    refine ⟨_, rfl, fun m hm => ?_⟩
    split at hm
    next =>
        rw [List.mem_singleton] at hm
        rw [hm]
        exact List.mem_cons_of_mem _ List.mem_cons_self
    next => cases hm

theorem refers_twoNodes {name : String} {a b : NodeID} :
    (twoNodes name).Refers a b ↔ a = .numeric 0 85 ∧ b = .numeric 2 7 := by
  constructor
  · rintro ⟨t, -, refs, hrefs, hb⟩
    cases hrefs
    split at hb
    next h => exact ⟨h.1, List.mem_singleton.mp hb⟩
    next => cases hb
  · rintro ⟨rfl, rfl⟩
    exact ⟨organizes, by decide, _, rfl, by decide⟩

theorem browse_complete_twoNodes :
    BrowsesAll (fun names => ".".intercalate (names.dropWhile (· = ""))) (twoNodes "Objects")
      (.numeric 0 85) :=
  browse_complete (graph_twoNodes "Objects") List.mem_cons_self

/-- An empty name at the beginning of a way leaves no dot in the path. -/
theorem empty_name_leaves_no_dot :
    Graph (twoNodes "") [.numeric 0 85, .numeric 2 7] ∧
      NodeID.numeric 0 85 ∈ [NodeID.numeric 0 85, .numeric 2 7] ∧
      ¬ BrowsesAll ".".intercalate (twoNodes "") (.numeric 0 85) := by
  refine ⟨graph_twoNodes "", List.mem_cons_self, ?_⟩
  rintro ⟨nodes, hnodes, -, hpaths⟩
  have hwalk : (twoNodes "").Walk (.numeric 0 85) (.numeric 2 7) [.numeric 0 85, .numeric 2 7] :=
    ⟨List.isChain_cons_cons.mpr ⟨refers_twoNodes.mpr ⟨rfl, rfl⟩, List.isChain_singleton _⟩, rfl, rfl⟩
  -- the variable is listed under its own name
  obtain ⟨listed, hlisted, hspec⟩ :=
    browse_spec (graph_twoNodes "") 11 0 rfl _ List.mem_cons_self ""
  obtain rfl : listed = nodes := Except.ok.inj (hlisted.symm.trans hnodes)
  obtain ⟨d, hd, hid, hpath⟩ := nodeDef_of_walk (graph_twoNodes "") List.mem_cons_self hwalk
  have hmem : d ∈ listed := (hspec d).mpr ⟨_, _, hwalk, by decide, ⟨_, rfl, rfl⟩, hd⟩
  -- and there is no other way to it
  obtain ⟨way, hway, -, hdotted⟩ := hpaths d hmem
  rw [hid] at hway
  cases way with
  | nil => exact absurd rfl hway.ne_nil
  | cons n way =>
      obtain ⟨rfl, ⟨-, h⟩ | ⟨c, hc, hrest⟩⟩ := Server.walk_cons_iff.mp hway
      · exact absurd h (by decide)
      · obtain ⟨-, rfl⟩ := refers_twoNodes.mp hc
        cases way with
        | nil => exact absurd rfl hrest.ne_nil
        | cons m way =>
            obtain ⟨rfl, ⟨rfl, -⟩ | ⟨c, hc, -⟩⟩ := Server.walk_cons_iff.mp hrest
            · rw [hpath] at hdotted
              exact absurd hdotted (by decide)
            · exact absurd (refers_twoNodes.mp hc).1 (by decide)

end Mainflux.Adapters.Opcua
