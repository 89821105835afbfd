/-
  Mainflux.Lib.Wire
  ─────────────────
  **THE WIRE FORMAT OF GENERATED MESSAGES.**

  A message on the wire is a sequence of RECORDS, each a tag (field number and wire type
  in one varint) and a value.  The code that a generator writes for a message reads the
  records its schema knows, steps over the others and keeps their bytes, and writes the
  known fields in order and the kept bytes behind them.

    • `Chunk`, `Skips` — the grammar of one record, and of one the schema does not know,
      groups within groups included;
    • `readRecord_ok_iff`, `skip_ok_iff` — the readers accept exactly the grammar, with
      their indices, bounds and overflow checks;
    • `unmarshalFrom_ok_iff` — a message is the fold of its records;
    • `Generated.unmarshal_encoding`, `Generated.reencode` — what was written is read back,
      and what was read can be written again, no longer than it was;
    • `call_eq_answer`, `answer_ok` — both ends of a remote call see what was sent.
-/
import Mainflux.Lib.Varint

namespace Mainflux.Lib.Wire

/-! ## §1. Schemas and records. -/

/-- What the generated code expects of a field it knows. -/
inductive Kind
  /-- `string` and `bytes`: wire type 2. -/
  | bytes (field : String)
  /-- An integer: wire type 0. -/
  | varint (field : String)

structure Schema where
  message : String
  field : Nat → Option Kind

inductive Record
  | bytes (fieldNum : Nat) (v : List UInt8)
  | varint (fieldNum : Nat) (v : Nat)
  /-- Of a field the schema does not know, tag and all. -/
  | unknown (raw : List UInt8)
  deriving DecidableEq

/-- `int32(wire >> 3)`. -/
def fieldNum (wire : Nat) : Int := (BitVec.ofNat 32 (wire >>> 3)).toInt

def wireType (wire : Nat) : Nat := wire &&& 0x7

/-! ## §2. The grammar. -/

/-- A varint of at most ten bytes, and its number in 64 bits. -/
def Reads (p : List UInt8) (v : Nat) : Prop := IsVarint p ∧ p.length ≤ 10 ∧ v = value p % 2 ^ 64

/-- What one round of the skipping loop takes, and the nesting before and after it. -/
inductive Item : Nat → List UInt8 → Nat → Prop
  | varint {tag v wire n depth} : Reads tag wire → wireType wire = 0 → Reads v n →
      Item depth (tag ++ v) depth
  | fixed64 {tag v wire depth} : Reads tag wire → wireType wire = 1 → v.length = 8 →
      Item depth (tag ++ v) depth
  | bytes {tag len v wire n depth} : Reads tag wire → wireType wire = 2 → Reads len n →
      n < 2 ^ 63 → v.length = n → Item depth (tag ++ (len ++ v)) depth
  | startGroup {tag wire depth} : Reads tag wire → wireType wire = 3 → Item depth tag (depth + 1)
  | endGroup {tag wire depth} : Reads tag wire → wireType wire = 4 → Item (depth + 1) tag depth
  | fixed32 {tag v wire depth} : Reads tag wire → wireType wire = 5 → v.length = 4 →
      Item depth (tag ++ v) depth

/-- A value with all that is nested in it. -/
inductive Skips : Nat → List UInt8 → Prop
  | last {depth p} : Item depth p 0 → Skips depth p
  | more {depth p next q} : Item depth p (next + 1) → Skips (next + 1) q → Skips depth (p ++ q)

/-- A record, as a schema reads it. -/
inductive Chunk (σ : Schema) : List UInt8 → Record → Prop
  | bytes {tag len v wire name} : Reads tag wire → 0 < fieldNum wire →
      σ.field (fieldNum wire).toNat = some (.bytes name) → wireType wire = 2 →
      Reads len v.length → v.length < 2 ^ 63 →
      Chunk σ (tag ++ (len ++ v)) (.bytes (fieldNum wire).toNat v)
  | varint {tag v wire name n} : Reads tag wire → 0 < fieldNum wire →
      σ.field (fieldNum wire).toNat = some (.varint name) → wireType wire = 0 → Reads v n →
      Chunk σ (tag ++ v) (.varint (fieldNum wire).toNat n)
  | unknown {tag rest wire} : Reads tag wire → wireType wire ≠ 4 → 0 < fieldNum wire →
      σ.field (fieldNum wire).toNat = none → Skips 0 (tag ++ rest) →
      Chunk σ (tag ++ rest) (.unknown (tag ++ rest))

/-- A message on the wire. -/
inductive Parses (σ : Schema) : List UInt8 → List Record → Prop
  | nil : Parses σ [] []
  | cons {p r d rs} : Chunk σ p r → Parses σ d rs → Parses σ (p ++ d) (r :: rs)

/-! ## §3. The readers. -/

/-- The loop for a varint, at an index. -/
def varintAt (dAtA : List UInt8) (iNdEx : Nat) : Except Failure (Nat × Nat) :=
  match readVarint (dAtA.drop iNdEx) 0 0 with
  | .error e => .error e
  | .ok (v, rest) => .ok (v, dAtA.length - rest.length)

/-- The switch of the skipping loop: the index behind the value, which may lie behind the end,
and the nesting. -/
def skipValue (dAtA : List UInt8) (wire iNdEx depth : Nat) : Except Failure (Nat × Nat) :=
  match wireType wire with
  | 0 => do
      let (_, iNdEx) ← varintAt dAtA iNdEx
      .ok (iNdEx, depth)
  | 1 => .ok (iNdEx + 8, depth)
  | 2 => do
      let (length, iNdEx) ← varintAt dAtA iNdEx
      -- `length < 0`
      if 2 ^ 63 ≤ length then .error .invalidLength else .ok (iNdEx + length, depth)
  | 3 => .ok (iNdEx, depth + 1)
  | 4 => if depth = 0 then .error .unexpectedEndOfGroup else .ok (iNdEx, depth - 1)
  | 5 => .ok (iNdEx + 4, depth)
  | wireType => .error (.illegalWireType wireType)

/-- One round of the skipping loop. -/
def skipItem (dAtA : List UInt8) (iNdEx depth : Nat) : Except Failure (Nat × Nat) := do
  let (wire, iNdEx) ← varintAt dAtA iNdEx
  skipValue dAtA wire iNdEx depth

theorem bind_eq_ok {α β ε : Type} {x : Except ε α} {f : α → Except ε β} {b : β} :
    (x >>= f) = .ok b ↔ ∃ a, x = .ok a ∧ f a = .ok b := by
  cases x with
  | error e => exact ⟨fun h => absurd h (by simp [bind, Except.bind]), fun ⟨a, h, _⟩ => absurd h (by simp)⟩
  | ok a =>
      constructor
      · intro h
        exact ⟨a, rfl, h⟩
      · rintro ⟨a', h, hf⟩
        rw [← Except.ok.inj h] at hf
        exact hf

theorem prefix_append_iff {p q d : List UInt8} {i : Nat} :
    p ++ q <+: d.drop i ↔ p <+: d.drop i ∧ q <+: d.drop (i + p.length) := by
  rw [← List.drop_drop]
  constructor
  · rintro ⟨t, h⟩
    rw [← h, List.append_assoc, List.drop_left]
    exact ⟨⟨q ++ t, rfl⟩, ⟨t, rfl⟩⟩
  · rintro ⟨⟨s, hs⟩, ⟨t, ht⟩⟩
    rw [← hs, List.drop_left] at ht
    exact ⟨t, by rw [← hs, ← ht, List.append_assoc]⟩

theorem prefix_length {p d : List UInt8} {i : Nat} (h : p <+: d.drop i) (hp : p ≠ []) :
    i + p.length ≤ d.length := by
  have hle := h.length_le
  have hpos := List.length_pos_of_ne_nil hp
  rw [List.length_drop] at hle
  omega

theorem Reads.ne_nil {p : List UInt8} {v : Nat} (h : Reads p v) : p ≠ [] := h.1.ne_nil

theorem varintAt_ok_iff {d : List UInt8} {i v j : Nat} :
    varintAt d i = .ok (v, j) ↔ ∃ p, p <+: d.drop i ∧ Reads p v ∧ j = i + p.length := by
  have key : ∀ {p rest : List UInt8}, p ≠ [] → d.drop i = p ++ rest →
      d.length - rest.length = i + p.length := by
    intro p rest hne heq
    have hlen := congrArg List.length heq
    have hpos := List.length_pos_of_ne_nil hne
    rw [List.length_drop, List.length_append] at hlen
    omega
  rw [varintAt]
  constructor
  · intro h
    cases hread : readVarint (d.drop i) 0 0 with
    | error e =>
        rw [hread] at h
        exact absurd h (by simp)
    | ok r =>
        rw [hread] at h
        obtain ⟨rfl, rfl⟩ := Prod.mk.inj (Except.ok.inj h)
        obtain ⟨p, heq, hp, hlen, hv⟩ := readVarint_ok_iff.mp hread
        exact ⟨p, ⟨r.2, heq.symm⟩, ⟨hp, hlen, hv⟩, key hp.ne_nil heq⟩
  · rintro ⟨p, ⟨rest, heq⟩, ⟨hp, hlen, hv⟩, rfl⟩
    have hread : readVarint (d.drop i) 0 0 = .ok (v, rest) :=
      readVarint_ok_iff.mpr ⟨p, heq.symm, hp, hlen, hv⟩
    rw [hread]
    exact congrArg Except.ok (Prod.ext rfl (key hp.ne_nil heq.symm))

theorem varintAt_lt {d : List UInt8} {i v j : Nat} (h : varintAt d i = .ok (v, j)) :
    i < j ∧ j ≤ d.length := by
  obtain ⟨p, hp, hreads, rfl⟩ := varintAt_ok_iff.mp h
  have hpos := List.length_pos_of_ne_nil hreads.ne_nil
  exact ⟨by omega, prefix_length hp hreads.ne_nil⟩

theorem Item.ne_nil {k k' : Nat} {p : List UInt8} (h : Item k p k') : p ≠ [] := by
  cases h with
  | startGroup hr _ => exact hr.ne_nil
  | endGroup hr _ => exact hr.ne_nil
  | varint hr _ _ => exact List.append_ne_nil_of_left_ne_nil hr.ne_nil _
  | fixed64 hr _ _ => exact List.append_ne_nil_of_left_ne_nil hr.ne_nil _
  | bytes hr _ _ _ _ => exact List.append_ne_nil_of_left_ne_nil hr.ne_nil _
  | fixed32 hr _ _ => exact List.append_ne_nil_of_left_ne_nil hr.ne_nil _

/-- The bytes that an index in bounds steps over. -/
theorem exists_slice {d : List UInt8} {i n : Nat} (h : i + n ≤ d.length) :
    ∃ v, v <+: d.drop i ∧ v.length = n := by
  refine ⟨(d.drop i).take n, List.take_prefix _ _, ?_⟩
  rw [List.length_take, List.length_drop]
  omega

/-- **One round of the skipping loop**, where it ends inside the buffer. -/
theorem skipItem_ok_iff {d : List UInt8} {i k j k' : Nat} :
    skipItem d i k = .ok (j, k') ∧ j ≤ d.length ↔
      ∃ p, p <+: d.drop i ∧ Item k p k' ∧ j = i + p.length := by
  constructor
  · rintro ⟨h, hj⟩
    obtain ⟨⟨wire, i₁⟩, htag, h⟩ := bind_eq_ok.mp h
    obtain ⟨tag, hp, hr, rfl⟩ := varintAt_ok_iff.mp htag
    change skipValue d wire (i + tag.length) k = .ok (j, k') at h
    rw [skipValue] at h
    split at h
    next hw =>
        obtain ⟨⟨n, i₂⟩, hval, h⟩ := bind_eq_ok.mp h
        obtain ⟨v, hq, hv, rfl⟩ := varintAt_ok_iff.mp hval
        obtain ⟨rfl, rfl⟩ := Prod.mk.inj (Except.ok.inj h)
        refine ⟨tag ++ v, prefix_append_iff.mpr ⟨hp, hq⟩, .varint hr hw hv, ?_⟩
        rw [List.length_append, Nat.add_assoc]
    next hw =>
        obtain ⟨rfl, rfl⟩ := Prod.mk.inj (Except.ok.inj h)
        obtain ⟨v, hq, hv⟩ := exists_slice hj
        refine ⟨tag ++ v, prefix_append_iff.mpr ⟨hp, hq⟩, .fixed64 hr hw hv, ?_⟩
        rw [List.length_append, hv, Nat.add_assoc]
    next hw =>
        obtain ⟨⟨n, i₂⟩, hval, h⟩ := bind_eq_ok.mp h
        obtain ⟨len, hq, hlen, rfl⟩ := varintAt_ok_iff.mp hval
        dsimp only at h
        split at h
        next => exact absurd h (by simp)
        next hn =>
            obtain ⟨rfl, rfl⟩ := Prod.mk.inj (Except.ok.inj h)
            obtain ⟨v, hs, hv⟩ := exists_slice hj
            rw [Nat.add_assoc i, ← List.length_append] at hs
            refine ⟨tag ++ (len ++ v), ?_, .bytes hr hw hlen (by omega) hv, ?_⟩
            · rw [← List.append_assoc, prefix_append_iff, prefix_append_iff]
              exact ⟨⟨hp, hq⟩, hs⟩
            · rw [List.length_append, List.length_append, hv]
              omega
    next hw =>
        obtain ⟨rfl, rfl⟩ := Prod.mk.inj (Except.ok.inj h)
        exact ⟨tag, hp, .startGroup hr hw, rfl⟩
    next hw =>
        split at h
        next => exact absurd h (by simp)
        next hk =>
            obtain ⟨rfl, rfl⟩ := Prod.mk.inj (Except.ok.inj h)
            obtain ⟨depth, rfl⟩ := Nat.exists_eq_succ_of_ne_zero hk
            exact ⟨tag, hp, .endGroup hr hw, rfl⟩
    next hw =>
        obtain ⟨rfl, rfl⟩ := Prod.mk.inj (Except.ok.inj h)
        obtain ⟨v, hq, hv⟩ := exists_slice hj
        refine ⟨tag ++ v, prefix_append_iff.mpr ⟨hp, hq⟩, .fixed32 hr hw hv, ?_⟩
        rw [List.length_append, hv, Nat.add_assoc]
    next => exact absurd h (by simp)
  · rintro ⟨p, hp, hitem, rfl⟩
    have hround : ∀ {tag : List UInt8} {wire : Nat} {r : Nat × Nat}, tag <+: d.drop i →
        Reads tag wire → skipValue d wire (i + tag.length) k = .ok r → skipItem d i k = .ok r :=
      fun htag hr hvalue => bind_eq_ok.mpr ⟨_, varintAt_ok_iff.mpr ⟨_, htag, hr, rfl⟩, hvalue⟩
    have hin : i + p.length ≤ d.length := prefix_length hp hitem.ne_nil
    refine ⟨?_, hin⟩
    cases hitem with
    | @varint tag v wire n depth hr hw hv =>
        obtain ⟨htag, hval⟩ := prefix_append_iff.mp hp
        refine hround htag hr ?_
        rw [skipValue, hw, List.length_append, ← Nat.add_assoc]
        exact bind_eq_ok.mpr ⟨_, varintAt_ok_iff.mpr ⟨v, hval, hv, rfl⟩, rfl⟩
    | @fixed64 tag v wire depth hr hw hv =>
        refine hround (prefix_append_iff.mp hp).1 hr ?_
        rw [skipValue, hw, List.length_append, hv, ← Nat.add_assoc]
        rfl
    | @bytes tag len v wire n depth hr hw hlen hn hv =>
        rw [← List.append_assoc, prefix_append_iff, prefix_append_iff] at hp
        refine hround hp.1.1 hr ?_
        rw [skipValue, hw]
        refine bind_eq_ok.mpr ⟨_, varintAt_ok_iff.mpr ⟨len, hp.1.2, hlen, rfl⟩, ?_⟩
        dsimp only
        rw [if_neg (by omega), List.length_append, List.length_append, hv, ← Nat.add_assoc,
          ← Nat.add_assoc]
    | @startGroup tag wire depth hr hw =>
        refine hround hp hr ?_
        rw [skipValue, hw]
        rfl
    | @endGroup tag wire depth hr hw =>
        refine hround hp hr ?_
        rw [skipValue, hw]
        rfl
    | @fixed32 tag v wire depth hr hw hv =>
        refine hround (prefix_append_iff.mp hp).1 hr ?_
        rw [skipValue, hw, List.length_append, hv, ← Nat.add_assoc]
        rfl

theorem skipItem_lt {d : List UInt8} {i k j k' : Nat} (h : skipItem d i k = .ok (j, k')) : i < j := by
  obtain ⟨⟨wire, i₁⟩, htag, h⟩ := bind_eq_ok.mp h
  have hlt := (varintAt_lt htag).1
  change skipValue d wire i₁ k = .ok (j, k') at h
  rw [skipValue] at h
  split at h
  next =>
      obtain ⟨⟨n, i₂⟩, hval, h⟩ := bind_eq_ok.mp h
      obtain ⟨rfl, -⟩ := Prod.mk.inj (Except.ok.inj h)
      exact Nat.lt_trans hlt (varintAt_lt hval).1
  next =>
      obtain ⟨rfl, -⟩ := Prod.mk.inj (Except.ok.inj h)
      omega
  next =>
      obtain ⟨⟨n, i₂⟩, hval, h⟩ := bind_eq_ok.mp h
      dsimp only at h
      split at h
      next => exact absurd h (by simp)
      next =>
          obtain ⟨rfl, -⟩ := Prod.mk.inj (Except.ok.inj h)
          have := (varintAt_lt hval).1
          omega
  next =>
      obtain ⟨rfl, -⟩ := Prod.mk.inj (Except.ok.inj h)
      exact hlt
  next =>
      split at h
      next => exact absurd h (by simp)
      next =>
          obtain ⟨rfl, -⟩ := Prod.mk.inj (Except.ok.inj h)
          exact hlt
  next =>
      obtain ⟨rfl, -⟩ := Prod.mk.inj (Except.ok.inj h)
      omega
  next => exact absurd h (by simp)

/-- The skipping loop, at a nesting `depth`. -/
def skipFrom (dAtA : List UInt8) (iNdEx depth : Nat) : Except Failure Nat :=
  if iNdEx < dAtA.length then
    match _ : skipItem dAtA iNdEx depth with
    | .error e => .error e
    | .ok (next, depth) =>
        -- `iNdEx < 0`
        if 2 ^ 63 ≤ next then .error .invalidLength
        else if depth = 0 then .ok next
        else skipFrom dAtA next depth
  else .error .unexpectedEOF
termination_by dAtA.length - iNdEx
decreasing_by
  have hlt := skipItem_lt ‹skipItem dAtA iNdEx _ = _›
  omega

/-- How many bytes the value at the front takes, tag and all. -/
def skip (dAtA : List UInt8) : Except Failure Nat := skipFrom dAtA 0 0

/-- One round of the loop of `Unmarshal`: the record at an index, and the index behind it. -/
def readRecord (σ : Schema) (dAtA : List UInt8) (preIndex : Nat) : Except Failure (Record × Nat) := do
  let (wire, iNdEx) ← varintAt dAtA preIndex
  if wireType wire = 4 then .error (.endGroup σ.message)
  else if fieldNum wire ≤ 0 then .error (.illegalTag σ.message (fieldNum wire) wire)
  else
    match σ.field (fieldNum wire).toNat with
    | some (.bytes name) =>
        if wireType wire ≠ 2 then .error (.wrongWireType (wireType wire) name)
        else do
          let (length, iNdEx) ← varintAt dAtA iNdEx
          -- `length < 0` and `postIndex < 0`
          if 2 ^ 63 ≤ length then .error .invalidLength
          else if 2 ^ 63 ≤ iNdEx + length then .error .invalidLength
          else if dAtA.length < iNdEx + length then .error .unexpectedEOF
          else .ok (.bytes (fieldNum wire).toNat ((dAtA.drop iNdEx).take length), iNdEx + length)
    | some (.varint name) =>
        if wireType wire ≠ 0 then .error (.wrongWireType (wireType wire) name)
        else do
          let (v, iNdEx) ← varintAt dAtA iNdEx
          .ok (.varint (fieldNum wire).toNat v, iNdEx)
    | none => do
        let skippy ← skip (dAtA.drop preIndex)
        if 2 ^ 63 ≤ preIndex + skippy then .error .invalidLength
        else if dAtA.length < preIndex + skippy then .error .unexpectedEOF
        else .ok (.unknown ((dAtA.drop preIndex).take skippy), preIndex + skippy)

theorem skipFrom_step (d : List UInt8) (i k : Nat) :
    skipFrom d i k =
      if i < d.length then
        skipItem d i k >>= fun r =>
          if 2 ^ 63 ≤ r.1 then .error .invalidLength
          else if r.2 = 0 then .ok r.1 else skipFrom d r.1 r.2
      else .error .unexpectedEOF := by
  rw [skipFrom]
  by_cases h : i < d.length
  · rw [if_pos h, if_pos h]
    split
    next e he => rw [he]; rfl
    next next depth he => rw [he]; rfl
  · rw [if_neg h, if_neg h]

theorem skipFrom_lt {d : List UInt8} {i k n : Nat} (h : skipFrom d i k = .ok n) : i < n := by
  induction hm : d.length - i using Nat.strongRecOn generalizing i k with
  | ind m ih =>
      rw [skipFrom_step] at h
      split at h
      next hi =>
          obtain ⟨⟨j, k'⟩, hitem, h⟩ := bind_eq_ok.mp h
          have hlt := skipItem_lt hitem
          dsimp only at h
          split at h
          next => exact absurd h (by simp)
          next =>
              split at h
              next => exact Except.ok.inj h ▸ hlt
              next => exact Nat.lt_trans hlt (ih (d.length - j) (by omega) h rfl)
      next => exact absurd h (by simp)

theorem Skips.ne_nil {k : Nat} {p : List UInt8} (h : Skips k p) : p ≠ [] := by
  cases h with
  | last hitem => exact hitem.ne_nil
  | more hitem _ => exact List.append_ne_nil_of_left_ne_nil hitem.ne_nil _

/-- **The skipping loop accepts the grammar**, where it ends inside the buffer. -/
theorem skipFrom_ok_iff {d : List UInt8} (hd : d.length < 2 ^ 63) {i k n : Nat} :
    skipFrom d i k = .ok n ∧ n ≤ d.length ↔
      ∃ p, p <+: d.drop i ∧ Skips k p ∧ n = i + p.length := by
  constructor
  · rintro ⟨h, hn⟩
    induction hm : d.length - i using Nat.strongRecOn generalizing i k with
    | ind m ih =>
        rw [skipFrom_step] at h
        split at h
        next hi =>
            obtain ⟨⟨j, k'⟩, hitem, h⟩ := bind_eq_ok.mp h
            have hlt := skipItem_lt hitem
            dsimp only at h
            split at h
            next => exact absurd h (by simp)
            next =>
                split at h
                next hk =>
                    -- the value ends here
                    obtain rfl : j = n := Except.ok.inj h
                    obtain ⟨p, hp, hp', hj⟩ := skipItem_ok_iff.mp ⟨hitem, hn⟩
                    subst hk
                    exact ⟨p, hp, .last hp', hj⟩
                next hk =>
                    have hjn := skipFrom_lt h
                    obtain ⟨p, hp, hp', rfl⟩ := skipItem_ok_iff.mp ⟨hitem, by omega⟩
                    obtain ⟨q, hq, hq', rfl⟩ := ih (d.length - (i + p.length)) (by omega) h rfl
                    obtain ⟨next, rfl⟩ := Nat.exists_eq_succ_of_ne_zero hk
                    refine ⟨p ++ q, prefix_append_iff.mpr ⟨hp, hq⟩, .more hp' hq', ?_⟩
                    rw [List.length_append, Nat.add_assoc]
        next => exact absurd h (by simp)
  · rintro ⟨p, hp, hskips, rfl⟩
    refine ⟨?_, prefix_length hp hskips.ne_nil⟩
    induction hskips generalizing i with
    | @last k p hitem =>
        have hin := prefix_length hp hitem.ne_nil
        have hpos := List.length_pos_of_ne_nil hitem.ne_nil
        rw [skipFrom_step, if_pos (by omega)]
        refine bind_eq_ok.mpr ⟨_, (skipItem_ok_iff.mpr ⟨p, hp, hitem, rfl⟩).1, ?_⟩
        rw [if_neg (by omega), if_pos rfl]
    | @more k p next q hitem hskips ih =>
        obtain ⟨hp, hq⟩ := prefix_append_iff.mp hp
        have hin := prefix_length hp hitem.ne_nil
        have hpos := List.length_pos_of_ne_nil hitem.ne_nil
        rw [skipFrom_step, if_pos (by omega)]
        refine bind_eq_ok.mpr ⟨_, (skipItem_ok_iff.mpr ⟨p, hp, hitem, rfl⟩).1, ?_⟩
        rw [if_neg (by omega), if_neg (Nat.succ_ne_zero _), ih hq, List.length_append,
          Nat.add_assoc]

theorem skip_ok_iff {d : List UInt8} (hd : d.length < 2 ^ 63) {n : Nat} :
    skip d = .ok n ∧ n ≤ d.length ↔ ∃ p, p <+: d ∧ Skips 0 p ∧ n = p.length := by
  rw [skip, skipFrom_ok_iff hd, List.drop_zero]
  simp only [Nat.zero_add]

/-! ## §4. Records. -/

theorem Item.tag {k k' : Nat} {p : List UInt8} (h : Item k p k') :
    ∃ tag wire, Reads tag wire ∧ tag <+: p := by
  cases h with
  | startGroup hr _ => exact ⟨_, _, hr, List.prefix_refl _⟩
  | endGroup hr _ => exact ⟨_, _, hr, List.prefix_refl _⟩
  | varint hr _ _ => exact ⟨_, _, hr, List.prefix_append _ _⟩
  | fixed64 hr _ _ => exact ⟨_, _, hr, List.prefix_append _ _⟩
  | bytes hr _ _ _ _ => exact ⟨_, _, hr, List.prefix_append _ _⟩
  | fixed32 hr _ _ => exact ⟨_, _, hr, List.prefix_append _ _⟩

theorem Skips.tag {k : Nat} {p : List UInt8} (h : Skips k p) :
    ∃ tag wire, Reads tag wire ∧ tag <+: p := by
  cases h with
  | last hitem => exact hitem.tag
  | more hitem _ =>
      obtain ⟨tag, wire, hr, hp⟩ := hitem.tag
      exact ⟨tag, wire, hr, hp.trans (List.prefix_append _ _)⟩

theorem Reads.eq_of_prefix {p q d : List UInt8} {v w : Nat} (hp : Reads p v) (hq : Reads q w)
    (hpd : p <+: d) (hqd : q <+: d) : p = q := by
  obtain ⟨s, hs⟩ := hpd
  obtain ⟨t, ht⟩ := hqd
  exact (hp.1.eq_of_append hq.1 (hs.trans ht.symm)).1

theorem Chunk.ne_nil {σ : Schema} {p : List UInt8} {r : Record} (h : Chunk σ p r) : p ≠ [] := by
  cases h with
  | bytes hr => exact List.append_ne_nil_of_left_ne_nil hr.ne_nil _
  | varint hr => exact List.append_ne_nil_of_left_ne_nil hr.ne_nil _
  | unknown hr => exact List.append_ne_nil_of_left_ne_nil hr.ne_nil _

theorem take_of_beginning {v d : List UInt8} {i : Nat} (h : v <+: d.drop i) :
    (d.drop i).take v.length = v := (List.prefix_iff_eq_take.mp h).symm

section Records

variable {σ : Schema} {d : List UInt8} {i j : Nat} {r : Record}

theorem chunk_of_readRecord (hd : d.length < 2 ^ 63) (h : readRecord σ d i = .ok (r, j)) :
    ∃ p, p <+: d.drop i ∧ Chunk σ p r ∧ j = i + p.length := by
  obtain ⟨⟨wire, i₁⟩, htag, h⟩ := bind_eq_ok.mp h
  obtain ⟨tag, hp, hr, rfl⟩ := varintAt_ok_iff.mp htag
  dsimp only at h
  split at h
  next => exact absurd h (by simp)
  next hend =>
  split at h
  next => exact absurd h (by simp)
  next hnum =>
  have hpos : 0 < fieldNum wire := by omega
  split at h
  next name hfield =>
      split at h
      next => exact absurd h (by simp)
      next hw =>
      obtain ⟨⟨n, i₂⟩, hlen, h⟩ := bind_eq_ok.mp h
      obtain ⟨len, hq, hl, rfl⟩ := varintAt_ok_iff.mp hlen
      dsimp only at h
      split at h
      next => exact absurd h (by simp)
      next hn =>
      split at h
      next => exact absurd h (by simp)
      next =>
      split at h
      next => exact absurd h (by simp)
      next hin =>
      obtain ⟨rfl, rfl⟩ := Prod.mk.inj (Except.ok.inj h)
      obtain ⟨v, hv, rfl⟩ := exists_slice (Nat.le_of_not_lt hin)
      rw [take_of_beginning hv]
      rw [Nat.add_assoc i, ← List.length_append] at hv
      refine ⟨tag ++ (len ++ v), ?_, .bytes hr hpos hfield (not_not.mp hw) hl (by omega), ?_⟩
      · rw [← List.append_assoc, prefix_append_iff, prefix_append_iff]
        exact ⟨⟨hp, hq⟩, hv⟩
      · rw [List.length_append, List.length_append, ← Nat.add_assoc, ← Nat.add_assoc]
  next name hfield =>
      split at h
      next => exact absurd h (by simp)
      next hw =>
      obtain ⟨⟨n, i₂⟩, hval, h⟩ := bind_eq_ok.mp h
      obtain ⟨v, hq, hv, rfl⟩ := varintAt_ok_iff.mp hval
      obtain ⟨rfl, rfl⟩ := Prod.mk.inj (Except.ok.inj h)
      refine ⟨tag ++ v, prefix_append_iff.mpr ⟨hp, hq⟩, .varint hr hpos hfield (not_not.mp hw) hv, ?_⟩
      rw [List.length_append, Nat.add_assoc]
  next hfield =>
      obtain ⟨skippy, hskip, h⟩ := bind_eq_ok.mp h
      split at h
      next => exact absurd h (by simp)
      next =>
      split at h
      next => exact absurd h (by simp)
      next hin =>
      obtain ⟨rfl, rfl⟩ := Prod.mk.inj (Except.ok.inj h)
      have hlt := prefix_length hp hr.ne_nil
      have hrest : (d.drop i).length < 2 ^ 63 := by
        rw [List.length_drop]
        omega
      obtain ⟨p, hp', hskips, rfl⟩ := (skip_ok_iff hrest).mp ⟨hskip, by
        rw [List.length_drop]
        omega⟩
      -- the bytes skipped begin with the tag just read
      obtain ⟨tag', wire', hr', htag'⟩ := hskips.tag
      obtain rfl := hr.eq_of_prefix hr' hp (htag'.trans hp')
      obtain ⟨rest, rfl⟩ := htag'
      rw [take_of_beginning hp']
      exact ⟨tag ++ rest, hp', .unknown hr hend hpos hfield hskips, rfl⟩

theorem readRecord_of_chunk (hd : d.length < 2 ^ 63) {p : List UInt8} (hp : p <+: d.drop i)
    (hchunk : Chunk σ p r) : readRecord σ d i = .ok (r, i + p.length) := by
  have hin : i + p.length ≤ d.length := prefix_length hp hchunk.ne_nil
  cases hchunk with
  | @bytes tag len v wire name hr hpos hfield hw hl hn =>
      rw [← List.append_assoc, prefix_append_iff, prefix_append_iff] at hp
      obtain ⟨⟨htag, hlen⟩, hv⟩ := hp
      rw [List.length_append, ← Nat.add_assoc] at hv
      rw [List.length_append, List.length_append] at hin
      refine bind_eq_ok.mpr ⟨_, varintAt_ok_iff.mpr ⟨tag, htag, hr, rfl⟩, ?_⟩
      dsimp only
      rw [if_neg (by omega), if_neg (by omega), hfield]
      dsimp only
      rw [if_neg (not_not.mpr hw)]
      refine bind_eq_ok.mpr ⟨_, varintAt_ok_iff.mpr ⟨len, hlen, hl, rfl⟩, ?_⟩
      dsimp only
      rw [if_neg (by omega), if_neg (by omega), if_neg (by omega), take_of_beginning hv,
        List.length_append, List.length_append, ← Nat.add_assoc, ← Nat.add_assoc]
  | @varint tag v wire name n hr hpos hfield hw hv =>
      obtain ⟨htag, hval⟩ := prefix_append_iff.mp hp
      refine bind_eq_ok.mpr ⟨_, varintAt_ok_iff.mpr ⟨tag, htag, hr, rfl⟩, ?_⟩
      dsimp only
      rw [if_neg (by omega), if_neg (by omega), hfield]
      dsimp only
      rw [if_neg (not_not.mpr hw)]
      refine bind_eq_ok.mpr ⟨_, varintAt_ok_iff.mpr ⟨v, hval, hv, rfl⟩, ?_⟩
      rw [List.length_append, Nat.add_assoc]
  | @unknown tag rest wire hr hend hpos hfield hskips =>
      obtain ⟨htag, -⟩ := prefix_append_iff.mp hp
      have hrest : (d.drop i).length < 2 ^ 63 := by
        rw [List.length_drop]
        omega
      refine bind_eq_ok.mpr ⟨_, varintAt_ok_iff.mpr ⟨tag, htag, hr, rfl⟩, ?_⟩
      dsimp only
      rw [if_neg hend, if_neg (by omega), hfield]
      refine bind_eq_ok.mpr ⟨_, ((skip_ok_iff hrest).mpr ⟨_, hp, hskips, rfl⟩).1, ?_⟩
      rw [if_neg (by omega), if_neg (by omega), take_of_beginning hp]

/-- **The reader accepts the grammar**: the record at an index is the one that stands there. -/
theorem readRecord_ok_iff (hd : d.length < 2 ^ 63) :
    readRecord σ d i = .ok (r, j) ↔ ∃ p, p <+: d.drop i ∧ Chunk σ p r ∧ j = i + p.length := by
  constructor
  · exact chunk_of_readRecord hd
  · rintro ⟨p, hp, hchunk, rfl⟩
    exact readRecord_of_chunk hd hp hchunk

/-- Every record is at least one byte long, in a buffer of any length. -/
theorem readRecord_lt (h : readRecord σ d i = .ok (r, j)) : i < j := by
  obtain ⟨⟨wire, i₁⟩, htag, h⟩ := bind_eq_ok.mp h
  have hlt := (varintAt_lt htag).1
  dsimp only at h
  split at h
  next => exact absurd h (by simp)
  next =>
  split at h
  next => exact absurd h (by simp)
  next =>
  split at h
  next name hfield =>
      split at h
      next => exact absurd h (by simp)
      next =>
      obtain ⟨⟨n, i₂⟩, hlen, h⟩ := bind_eq_ok.mp h
      have := (varintAt_lt hlen).1
      dsimp only at h
      split at h
      next => exact absurd h (by simp)
      next =>
      split at h
      next => exact absurd h (by simp)
      next =>
      split at h
      next => exact absurd h (by simp)
      next =>
      obtain ⟨-, rfl⟩ := Prod.mk.inj (Except.ok.inj h)
      omega
  next name hfield =>
      split at h
      next => exact absurd h (by simp)
      next =>
      obtain ⟨⟨n, i₂⟩, hval, h⟩ := bind_eq_ok.mp h
      obtain ⟨-, rfl⟩ := Prod.mk.inj (Except.ok.inj h)
      exact Nat.lt_trans hlt (varintAt_lt hval).1
  next hfield =>
      obtain ⟨skippy, hskip, h⟩ := bind_eq_ok.mp h
      have hpos := skipFrom_lt hskip
      split at h
      next => exact absurd h (by simp)
      next =>
      split at h
      next => exact absurd h (by simp)
      next =>
      obtain ⟨-, rfl⟩ := Prod.mk.inj (Except.ok.inj h)
      omega

end Records

/-! ## §5. Messages. -/

section Messages

variable {M : Type} (σ : Schema) (apply : M → Record → M)

/-- The loop of `Unmarshal`. -/
def unmarshalFrom (dAtA : List UInt8) (m : M) (iNdEx : Nat) : Except Failure M :=
  if iNdEx < dAtA.length then
    match _ : readRecord σ dAtA iNdEx with
    | .error e => .error e
    | .ok (r, next) => unmarshalFrom dAtA (apply m r) next
  else if dAtA.length < iNdEx then .error .unexpectedEOF
  else .ok m
termination_by dAtA.length - iNdEx
decreasing_by
  have hlt := readRecord_lt ‹readRecord σ dAtA iNdEx = _›
  omega

theorem unmarshalFrom_step (d : List UInt8) (m : M) (i : Nat) :
    unmarshalFrom σ apply d m i =
      if i < d.length then
        readRecord σ d i >>= fun r => unmarshalFrom σ apply d (apply m r.1) r.2
      else if d.length < i then .error .unexpectedEOF
      else .ok m := by
  rw [unmarshalFrom]
  by_cases h : i < d.length
  · rw [if_pos h, if_pos h]
    split
    next e he => rw [he]; rfl
    next r next he => rw [he]; rfl
  · rw [if_neg h, if_neg h]

variable {σ apply}

theorem Parses.append {a b : List UInt8} {rs qs : List Record} (ha : Parses σ a rs)
    (hb : Parses σ b qs) : Parses σ (a ++ b) (rs ++ qs) := by
  induction ha with
  | nil => exact hb
  | cons hchunk _ ih =>
      rw [List.append_assoc, List.cons_append]
      exact .cons hchunk ih

theorem unmarshalFrom_ok_at {d : List UInt8} (hd : d.length < 2 ^ 63) {m m' : M} {i : Nat}
    (hi : i ≤ d.length) :
    unmarshalFrom σ apply d m i = .ok m' ↔
      ∃ rs, Parses σ (d.drop i) rs ∧ m' = rs.foldl apply m := by
  constructor
  · intro h
    induction hm : d.length - i using Nat.strongRecOn generalizing i m with
    | ind k ih =>
        rw [unmarshalFrom_step] at h
        split at h
        next hlt =>
            obtain ⟨⟨r, j⟩, hread, h⟩ := bind_eq_ok.mp h
            obtain ⟨p, hp, hchunk, rfl⟩ := (readRecord_ok_iff hd).mp hread
            have hin := prefix_length hp hchunk.ne_nil
            have hpos := List.length_pos_of_ne_nil hchunk.ne_nil
            obtain ⟨rs, hrs, rfl⟩ := ih (d.length - (i + p.length)) (by omega) hin h rfl
            refine ⟨r :: rs, ?_, rfl⟩
            obtain ⟨t, ht⟩ := hp
            rw [← List.drop_drop, ← ht, List.drop_left] at hrs
            rw [← ht]
            exact .cons hchunk hrs
        next =>
            split at h
            next => exact absurd h (by simp)
            next =>
                have hend : d.drop i = [] := List.drop_eq_nil_of_le (by omega)
                rw [hend]
                exact ⟨[], .nil, (Except.ok.inj h).symm⟩
  · rintro ⟨rs, hrs, rfl⟩
    generalize hsuffix : d.drop i = s at hrs
    induction hrs generalizing i m with
    | nil =>
        have hend : d.length ≤ i := List.drop_eq_nil_iff.mp hsuffix
        rw [unmarshalFrom_step, if_neg (by omega), if_neg (by omega)]
        rfl
    | @cons p r t rs hchunk hrs ih =>
        have hp : p <+: d.drop i := ⟨t, hsuffix.symm⟩
        have hin := prefix_length hp hchunk.ne_nil
        have hpos := List.length_pos_of_ne_nil hchunk.ne_nil
        rw [unmarshalFrom_step, if_pos (by omega)]
        refine bind_eq_ok.mpr ⟨_, (readRecord_ok_iff hd).mpr ⟨p, hp, hchunk, rfl⟩, ?_⟩
        refine ih hin ?_
        rw [← List.drop_drop, hsuffix, List.drop_left]

/-- **A message is the fold of its records.** -/
theorem unmarshalFrom_ok_iff {d : List UInt8} (hd : d.length < 2 ^ 63) {m m' : M} :
    unmarshalFrom σ apply d m 0 = .ok m' ↔ ∃ rs, Parses σ d rs ∧ m' = rs.foldl apply m := by
  rw [unmarshalFrom_ok_at hd (Nat.zero_le _), List.drop_zero]

/-- No record is the beginning of another. -/
theorem Chunk.eq_of_append {p q s t : List UInt8} {r r' : Record} (hp : Chunk σ p r)
    (hq : Chunk σ q r') (h : p ++ s = q ++ t) (hlen : (p ++ s).length < 2 ^ 63) :
    p = q ∧ r = r' ∧ s = t := by
  have h₁ : readRecord σ (p ++ s) 0 = .ok (r, 0 + p.length) :=
    readRecord_of_chunk hlen ⟨s, rfl⟩ hp
  have h₂ : readRecord σ (p ++ s) 0 = .ok (r', 0 + q.length) :=
    readRecord_of_chunk hlen ⟨t, h.symm⟩ hq
  obtain ⟨rfl, hpq⟩ := Prod.mk.inj (Except.ok.inj (h₁.symm.trans h₂))
  obtain ⟨rfl, rfl⟩ := List.append_inj h (by omega)
  exact ⟨rfl, rfl, rfl⟩

/-- A message at the front of a longer one. -/
theorem Parses.of_append {a b : List UInt8} {rs qs : List Record} (ha : Parses σ a rs)
    (hab : Parses σ (a ++ b) qs) (hlen : (a ++ b).length < 2 ^ 63) :
    ∃ ts, qs = rs ++ ts ∧ Parses σ b ts := by
  induction ha generalizing qs with
  | nil => exact ⟨qs, rfl, hab⟩
  | @cons p r d rs hchunk hrs ih =>
      rw [List.append_assoc] at hab hlen
      generalize hwhole : p ++ (d ++ b) = w at hab
      cases hab with
      | nil => exact absurd (List.append_eq_nil_iff.mp hwhole).1 hchunk.ne_nil
      | @cons q r' e qs hchunk' hqs =>
          obtain ⟨rfl, rfl, rfl⟩ := hchunk.eq_of_append hchunk' hwhole hlen
          rw [List.length_append] at hlen
          obtain ⟨ts, rfl, hts⟩ := ih hqs (by omega)
          exact ⟨ts, rfl, hts⟩

/-- A message is one sequence of records only. -/
theorem Parses.unique {d : List UInt8} {rs qs : List Record} (hlen : d.length < 2 ^ 63)
    (hrs : Parses σ d rs) (hqs : Parses σ d qs) : rs = qs := by
  have hd : d ++ [] = d := List.append_nil d
  obtain ⟨ts, rfl, hts⟩ := hrs.of_append (hd.symm ▸ hqs) (hd.symm ▸ hlen)
  generalize hnil : ([] : List UInt8) = e at hts
  cases hts with
  | nil => exact (List.append_nil rs).symm
  | cons hchunk _ => exact absurd (List.append_eq_nil_iff.mp hnil.symm).1 hchunk.ne_nil

/-- **Reading is a fold over concatenation too.** -/
theorem unmarshalFrom_append {a b : List UInt8} (hlen : (a ++ b).length < 2 ^ 63) {m m' m'' : M}
    (ha : unmarshalFrom σ apply a m 0 = .ok m') :
    unmarshalFrom σ apply (a ++ b) m 0 = .ok m'' ↔ unmarshalFrom σ apply b m' 0 = .ok m'' := by
  have hsum := hlen
  rw [List.length_append] at hsum
  obtain ⟨rs, hrs, rfl⟩ := (unmarshalFrom_ok_iff (by omega)).mp ha
  rw [unmarshalFrom_ok_iff hlen, unmarshalFrom_ok_iff (by omega)]
  constructor
  · rintro ⟨qs, hqs, rfl⟩
    obtain ⟨ts, rfl, hts⟩ := hrs.of_append hqs hlen
    exact ⟨ts, hts, List.foldl_append⟩
  · rintro ⟨ts, hts, rfl⟩
    exact ⟨rs ++ ts, hrs.append hts, List.foldl_append.symm⟩

end Messages

/-- The value a record gives to a field. -/
def Record.valueOf (n : Nat) : Record → Option (List UInt8)
  | bytes k v => if k = n then some v else none
  | _ => none

/-- The last value of a field among the records, or the one it had. -/
def lastValue (n : Nat) (old : List UInt8) (rs : List Record) : List UInt8 :=
  (rs.filterMap (Record.valueOf n)).getLast?.getD old

theorem lastValue_cons (n : Nat) (old : List UInt8) (r : Record) (rs : List Record) :
    lastValue n old (r :: rs) = lastValue n ((r.valueOf n).getD old) rs := by
  rw [lastValue, lastValue]
  cases h : r.valueOf n with
  | none => rw [List.filterMap_cons_none h, Option.getD_none]
  | some v => rw [List.filterMap_cons_some h, List.getLast?_cons, Option.getD_some, Option.getD_some]

/-! ## §6. Writing. -/

/-- A block of `MarshalToSizedBuffer`: a field with its tag, or the bytes kept. -/
inductive Part
  | bytes (tag : UInt8) (v : List UInt8)
  | varint (tag : UInt8) (v : Nat)
  | raw (v : List UInt8)

/-- `i -= len(v); copy(dAtA[i:], v)`, on the buffer and `i`; an index below zero panics. -/
def copyBack (v : List UInt8) (b : List UInt8 × Nat) : Option (List UInt8 × Nat) :=
  if b.2 < v.length then none else some (overwrite b.1 (b.2 - v.length) v, b.2 - v.length)

/-- `i--; dAtA[i] = tag`. -/
def tagBack (tag : UInt8) (b : List UInt8 × Nat) : Option (List UInt8 × Nat) :=
  if b.2 = 0 then none else (setByte b.1 (b.2 - 1) tag).map fun dAtA => (dAtA, b.2 - 1)

namespace Part

/-- What `Size` adds. -/
def size : Part → Nat
  | bytes _ v => if 0 < v.length then 1 + v.length + sov v.length else 0
  | varint _ v => if v ≠ 0 then 1 + sov v else 0
  | raw v => v.length

/-- The statements of the block. -/
def put : Part → List UInt8 × Nat → Option (List UInt8 × Nat)
  | bytes tag v, b =>
      if 0 < v.length then do
        let b ← copyBack v b
        let b ← encodeVarint b.1 b.2 v.length
        tagBack tag b
      else some b
  | varint tag v, b =>
      if v ≠ 0 then do
        let b ← encodeVarint b.1 b.2 v
        tagBack tag b
      else some b
  | raw v, b => copyBack v b

/-- What the block leaves in the buffer. -/
def encoded : Part → List UInt8
  | bytes tag v => if 0 < v.length then tag :: (encode v.length ++ v) else []
  | varint tag v => if v ≠ 0 then tag :: encode v else []
  | raw v => v

/-- The records that this is. -/
def records : Part → List Record
  | bytes tag v => if 0 < v.length then [.bytes (fieldNum tag.toNat).toNat v] else []
  | varint tag v => if v ≠ 0 then [.varint (fieldNum tag.toNat).toNat v] else []
  | raw v => [.unknown v]

/-- The tag is the one the schema reads. -/
def Fits (σ : Schema) : Part → Prop
  | bytes tag _ => tag.toNat < 128 ∧ 0 < fieldNum tag.toNat ∧ wireType tag.toNat = 2 ∧
      ∃ name, σ.field (fieldNum tag.toNat).toNat = some (.bytes name)
  | varint tag v => tag.toNat < 128 ∧ 0 < fieldNum tag.toNat ∧ wireType tag.toNat = 0 ∧ v < 2 ^ 64 ∧
      ∃ name, σ.field (fieldNum tag.toNat).toNat = some (.varint name)
  | raw _ => False

theorem length_encoded (part : Part) : part.encoded.length = part.size := by
  cases part with
  | bytes tag v =>
      rw [encoded, size]
      split
      next => rw [List.length_cons, List.length_append, length_encode]; omega
      next => rfl
  | varint tag v =>
      rw [encoded, size]
      split
      next => rw [List.length_cons, length_encode]; omega
      next => rfl
  | raw v => rfl

end Part

/-- A state of the writer: what is not written yet, and what is written behind it. -/
def filled (a t : List UInt8) : List UInt8 × Nat := (a ++ t, a.length)

/-- Writing `w` in front, or a panic for want of room. -/
def front (a w t : List UInt8) : Option (List UInt8 × Nat) :=
  if a.length < w.length then none else some (filled (a.take (a.length - w.length)) (w ++ t))

theorem front_bind (a w x t : List UInt8) {f : List UInt8 × Nat → Option (List UInt8 × Nat)}
    (hf : ∀ a t, f (filled a t) = front a x t) : front a w t >>= f = front a (x ++ w) t := by
  rw [front, front, List.length_append]
  by_cases h : a.length < w.length
  · rw [if_pos h, if_pos (by omega)]
    rfl
  · rw [if_neg h, Option.bind_eq_bind, Option.bind_some, hf, front, List.length_take,
      Nat.min_eq_left (Nat.sub_le _ _)]
    by_cases hx : a.length - w.length < x.length
    · rw [if_pos hx, if_pos (by omega)]
    · rw [if_neg hx, if_neg (by omega), List.take_take, Nat.min_eq_left (Nat.sub_le _ _),
        Nat.sub_sub, Nat.add_comm x.length, List.append_assoc]

theorem copyBack_filled (v a t : List UInt8) : copyBack v (filled a t) = front a v t := by
  rw [copyBack, front, filled]
  dsimp only
  by_cases h : a.length < v.length
  · rw [if_pos h, if_pos h]
  · rw [if_neg h, if_neg h, overwrite_eq a t v (by omega), filled, List.length_take,
      Nat.min_eq_left (Nat.sub_le _ _)]

theorem encodeVarint_filled (v : Nat) (a t : List UInt8) :
    encodeVarint (filled a t).1 (filled a t).2 v = front a (encode v) t := by
  rw [filled, encodeVarint_eq, front, length_encode]
  by_cases h : a.length < sov v
  · rw [if_pos h, if_pos h]
  · rw [if_neg h, if_neg h, filled, List.length_take, Nat.min_eq_left (Nat.sub_le _ _)]

theorem tagBack_filled (tag : UInt8) (a t : List UInt8) :
    tagBack tag (filled a t) = front a [tag] t := by
  rw [tagBack, front, filled]
  dsimp only
  rcases List.eq_nil_or_concat a with rfl | ⟨a, c, rfl⟩
  · rfl
  · have hset := setByte_append a c tag t
    rw [List.concat_eq_append, List.length_append, List.length_singleton, if_neg (by omega),
      if_neg (by rw [List.length_singleton]; omega), Nat.add_sub_cancel, List.append_assoc,
      List.singleton_append, hset, Option.map_some, List.length_singleton, Nat.add_sub_cancel,
      List.take_left, filled, List.singleton_append]

/-- **A block leaves its encoding in front**, or panics for want of room. -/
theorem Part.put_filled (part : Part) (a t : List UInt8) :
    part.put (filled a t) = front a part.encoded t := by
  have hnone : some (filled a t) = front a [] t := by
    rw [front, List.length_nil, if_neg (Nat.not_lt_zero _), Nat.sub_zero, List.take_length,
      List.nil_append]
  cases part with
  | bytes tag v =>
      rw [put, encoded]
      by_cases hv : 0 < v.length
      · have htail : ∀ a t, (encodeVarint (filled a t).1 (filled a t).2 v.length >>= tagBack tag)
            = front a ([tag] ++ encode v.length) t := by
          intro a t
          rw [encodeVarint_filled]
          exact front_bind a (encode v.length) [tag] t (tagBack_filled tag)
        rw [if_pos hv, if_pos hv, copyBack_filled]
        exact front_bind a v ([tag] ++ encode v.length) t htail
      · rw [if_neg hv, if_neg hv]
        exact hnone
  | varint tag v =>
      rw [put, encoded]
      by_cases hv : v ≠ 0
      · rw [if_pos hv, if_pos hv, encodeVarint_filled]
        exact front_bind a (encode v) [tag] t (tagBack_filled tag)
      · rw [if_neg hv, if_neg hv]
        exact hnone
  | raw v => exact copyBack_filled v a t

/-- `Size`. -/
def totalSize (parts : List Part) : Nat := (parts.map Part.size).sum

/-- The encoding, from the front. -/
def encodedOf (parts : List Part) : List UInt8 := parts.flatMap Part.encoded

/-- `MarshalToSizedBuffer`: the blocks from the last field to the first, and how many bytes they
took. -/
def marshalToSizedBuffer (parts : List Part) (dAtA : List UInt8) : Option (List UInt8 × Nat) :=
  (parts.foldrM Part.put (dAtA, dAtA.length)).map fun b => (b.1, dAtA.length - b.2)

theorem length_encodedOf (parts : List Part) : (encodedOf parts).length = totalSize parts := by
  rw [encodedOf, totalSize, List.length_flatMap]
  exact congrArg List.sum (List.map_congr_left fun part _ => part.length_encoded)

theorem foldrM_put (parts : List Part) (a t : List UInt8) :
    parts.foldrM Part.put (filled a t) = front a (encodedOf parts) t := by
  induction parts generalizing a t with
  | nil =>
      rw [List.foldrM_nil, encodedOf, List.flatMap_nil, front, List.length_nil,
        if_neg (Nat.not_lt_zero _), Nat.sub_zero, List.take_length, List.nil_append]
      rfl
  | cons part parts ih =>
      rw [List.foldrM_cons, ih]
      exact front_bind a (encodedOf parts) part.encoded t part.put_filled

/-- **What `MarshalToSizedBuffer` does to a buffer**: the encoding at its end and the front as it
was, or a panic where it is shorter than `Size`. -/
theorem marshalToSizedBuffer_eq (parts : List Part) (dAtA : List UInt8) :
    marshalToSizedBuffer parts dAtA =
      if dAtA.length < totalSize parts then none
      else some (dAtA.take (dAtA.length - totalSize parts) ++ encodedOf parts, totalSize parts) := by
  have hstart : (dAtA, dAtA.length) = filled dAtA [] := by rw [filled, List.append_nil]
  rw [marshalToSizedBuffer, hstart, foldrM_put, front, length_encodedOf]
  by_cases h : dAtA.length < totalSize parts
  · rw [if_pos h, if_pos h]
    rfl
  · rw [if_neg h, if_neg h, Option.map_some, filled, List.append_nil, List.length_take,
      Nat.min_eq_left (Nat.sub_le _ _), Nat.sub_sub_self (by omega)]

/-! ## §7. Generated messages. -/

namespace Record

/-- The bytes that are kept of it. -/
def raw : Record → List UInt8
  | unknown p => p
  | _ => []

/-- The shortest way to write it. -/
def size : Record → Nat
  | bytes _ v => 1 + v.length + sov v.length
  | varint _ v => 1 + sov v
  | unknown p => p.length

end Record

theorem Chunk.eq_raw {σ : Schema} {p : List UInt8} {r : Record} (h : Chunk σ p r)
    (hr : r = .unknown r.raw) : p = r.raw := by
  cases h with
  | bytes => exact absurd hr (by simp)
  | varint => exact absurd hr (by simp)
  | unknown => rfl

/-- A kept record reads as itself. -/
theorem Chunk.of_raw {σ : Schema} {p : List UInt8} {r : Record} (h : Chunk σ p r) (hr : r.raw ≠ []) :
    r = .unknown r.raw := by
  cases h with
  | bytes => exact absurd rfl hr
  | varint => exact absurd rfl hr
  | unknown => rfl

theorem Reads.sov_le {p : List UInt8} {v : Nat} (h : Reads p v) : sov v ≤ p.length := by
  calc sov v = (encode v).length := (length_encode v).symm
    _ ≤ (encode (value p)).length := length_encode_mono (h.2.2 ▸ Nat.mod_le _ _)
    _ ≤ p.length := length_encode_le h.1

/-- No record is shorter than the shortest way to write it. -/
theorem Chunk.size_le {σ : Schema} {p : List UInt8} {r : Record} (h : Chunk σ p r) :
    r.size ≤ p.length := by
  cases h with
  | @bytes tag len v wire name hr _ _ _ hl _ =>
      have htag := List.length_pos_of_ne_nil hr.ne_nil
      have hlen := hl.sov_le
      rw [Record.size, List.length_append, List.length_append]
      omega
  | @varint tag v wire name n hr _ _ _ hv =>
      have htag := List.length_pos_of_ne_nil hr.ne_nil
      have hlen := hv.sov_le
      rw [Record.size, List.length_append]
      omega
  | unknown => exact Nat.le_refl _

/-- The code generated for a message type. -/
structure Generated (M : Type) where
  schema : Schema
  /-- `Reset`. -/
  zero : M
  /-- What `Unmarshal` does with a record. -/
  apply : M → Record → M
  /-- The blocks of `Size`, in order, but for the kept bytes. -/
  known : M → List Part
  unrecognized : M → List UInt8
  fits : ∀ m, ∀ part ∈ known m, part.Fits schema
  rebuild : ∀ m, apply (((known m).flatMap Part.records).foldl apply zero)
    (.unknown (unrecognized m)) = m
  apply_nil : ∀ m, apply m (.unknown []) = m
  apply_append : ∀ m p q, apply (apply m (.unknown p)) (.unknown q) = apply m (.unknown (p ++ q))
  unrecognized_zero : unrecognized zero = []
  unrecognized_apply : ∀ m r, unrecognized (apply m r) = unrecognized m ++ r.raw
  size_zero : totalSize (known zero) = 0
  size_apply : ∀ m r, totalSize (known (apply m r)) + r.raw.length ≤ totalSize (known m) + r.size

/-- Reading a field that is left out when it is empty. -/
theorem foldl_bytes {M : Type} (apply : M → Record → M) (tag : UInt8) (v : List UInt8) (m m' : M)
    (hset : apply m (.bytes (fieldNum tag.toNat).toNat v) = m') (hnil : v = [] → m = m') :
    (Part.bytes tag v).records.foldl apply m = m' := by
  rw [Part.records]
  by_cases hv : 0 < v.length
  · rw [if_pos hv]
    exact hset
  · rw [if_neg hv]
    exact hnil (List.length_eq_zero_iff.mp (by omega))

theorem foldl_varint {M : Type} (apply : M → Record → M) (tag : UInt8) (v : Nat) (m m' : M)
    (hset : apply m (.varint (fieldNum tag.toNat).toNat v) = m') (hzero : v = 0 → m = m') :
    (Part.varint tag v).records.foldl apply m = m' := by
  rw [Part.records]
  by_cases hv : v ≠ 0
  · rw [if_pos hv]
    exact hset
  · rw [if_neg hv]
    exact hzero (not_not.mp hv)

theorem Part.size_bytes_le (tag : UInt8) (v : List UInt8) :
    (Part.bytes tag v).size ≤ 1 + v.length + sov v.length := by
  rw [Part.size]
  split
  next => exact Nat.le_refl _
  next => exact Nat.zero_le _

theorem Part.size_varint_le (tag : UInt8) (v : Nat) : (Part.varint tag v).size ≤ 1 + sov v := by
  rw [Part.size]
  split
  next => exact Nat.le_refl _
  next => exact Nat.zero_le _

namespace Generated

variable {M : Type} (g : Generated M)

def parts (m : M) : List Part := g.known m ++ [.raw (g.unrecognized m)]

def size (m : M) : Nat := totalSize (g.parts m)

/-- `Marshal`: `make([]byte, size)`, filled, and cut at what was written. -/
def marshal (m : M) : Option (List UInt8) :=
  (marshalToSizedBuffer (g.parts m) (List.replicate (g.size m) 0)).map fun b => b.1.take b.2

/-- `XXX_Marshal` on a buffer, of which it takes the whole capacity. -/
def xxxMarshal (m : M) (b : List UInt8) : Option (List UInt8) :=
  (marshalToSizedBuffer (g.parts m) b).map fun b => b.1.take b.2

def unmarshal (m : M) (dAtA : List UInt8) : Except Failure M :=
  unmarshalFrom g.schema g.apply dAtA m 0

/-- `proto.Marshal`. -/
def protoMarshal (m : M) : Option (List UInt8) := g.xxxMarshal m (List.replicate (g.size m) 0)

/-- `proto.Unmarshal`: `Reset`, then `Unmarshal`. -/
def protoUnmarshal (dAtA : List UInt8) : Except Failure M := g.unmarshal g.zero dAtA

/-- The encoding, from the front. -/
def encoding (m : M) : List UInt8 := encodedOf (g.parts m)

/-- The bytes kept are records that the schema does not know. -/
def Sound (m : M) : Prop :=
  ∃ rs, Parses g.schema (g.unrecognized m) rs ∧ ∀ r ∈ rs, r = .unknown r.raw

theorem length_encoding (m : M) : (g.encoding m).length = g.size m := length_encodedOf _

/-- **A buffer of the exact capacity** holds the encoding and nothing else. -/
theorem xxxMarshal_exact (m : M) {b : List UInt8} (h : b.length = g.size m) :
    g.xxxMarshal m b = some (g.encoding m) := by
  rw [size] at h
  rw [xxxMarshal, marshalToSizedBuffer_eq, if_neg (by omega), h, Nat.sub_self, List.take_zero,
    List.nil_append, Option.map_some, List.take_of_length_le (Nat.le_of_eq (length_encodedOf _))]
  rfl

theorem marshal_eq (m : M) : g.marshal m = some (g.encoding m) :=
  g.xxxMarshal_exact m List.length_replicate

theorem protoMarshal_eq (m : M) : g.protoMarshal m = some (g.encoding m) :=
  g.xxxMarshal_exact m List.length_replicate

theorem reads_encode {v : Nat} (h : v < 2 ^ 64) : Reads (encode v) v := by
  refine ⟨isVarint_encode v, ?_, ?_⟩
  · rw [length_encode]
    exact sov_le_ten h
  · rw [value_encode, Nat.mod_eq_of_lt h]

theorem reads_tag {tag : UInt8} (h : tag.toNat < 128) : Reads [tag] tag.toNat := by
  have hv := reads_encode (show tag.toNat < 2 ^ 64 by omega)
  rwa [encode_of_lt h, UInt8.ofNat_toNat] at hv

theorem parses_part {σ : Schema} {part : Part} (hfits : part.Fits σ) (hsize : part.size < 2 ^ 63) :
    Parses σ part.encoded part.records := by
  cases part with
  | bytes tag v =>
      obtain ⟨htag, hpos, hw, name, hfield⟩ := hfits
      rw [Part.size] at hsize
      rw [Part.encoded, Part.records]
      by_cases hv : 0 < v.length
      · rw [if_pos hv] at hsize
        rw [if_pos hv, if_pos hv]
        have hchunk := Chunk.bytes (reads_tag htag) hpos hfield hw
          (reads_encode (show v.length < 2 ^ 64 by omega)) (by omega)
        simpa using Parses.cons hchunk .nil
      · rw [if_neg hv, if_neg hv]
        exact .nil
  | varint tag v =>
      obtain ⟨htag, hpos, hw, hlt, name, hfield⟩ := hfits
      rw [Part.encoded, Part.records]
      by_cases hv : v ≠ 0
      · rw [if_pos hv, if_pos hv]
        simpa using Parses.cons (Chunk.varint (reads_tag htag) hpos hfield hw (reads_encode hlt)) .nil
      · rw [if_neg hv, if_neg hv]
        exact .nil
  | raw v => exact absurd hfits id

theorem parses_parts {σ : Schema} {parts : List Part} (hfits : ∀ part ∈ parts, part.Fits σ)
    (hsize : totalSize parts < 2 ^ 63) :
    Parses σ (encodedOf parts) (parts.flatMap Part.records) := by
  induction parts with
  | nil => exact .nil
  | cons part parts ih =>
      have hsum : totalSize (part :: parts) = part.size + totalSize parts := rfl
      refine Parses.append (parses_part (hfits part List.mem_cons_self) (by omega)) ?_
      exact ih (fun p hp => hfits p (List.mem_cons_of_mem _ hp)) (by omega)

variable {g}

theorem size_eq (m : M) : g.size m = totalSize (g.known m) + (g.unrecognized m).length := by
  rw [size, parts, totalSize, List.map_append, List.sum_append]
  exact congrArg _ (Nat.add_zero _)

/-- A run of unknown records counts as their bytes. -/
theorem foldl_unknown {u : List UInt8} {rs : List Record} (hrs : Parses g.schema u rs)
    (hunknown : ∀ r ∈ rs, r = .unknown r.raw) (m : M) :
    rs.foldl g.apply m = g.apply m (.unknown u) := by
  induction hrs generalizing m with
  | nil => exact (g.apply_nil m).symm
  | @cons p r d rs hchunk hrs ih =>
      have hr := hunknown r List.mem_cons_self
      obtain rfl := hchunk.eq_raw hr
      rw [List.foldl_cons, ih (fun q hq => hunknown q (List.mem_cons_of_mem _ hq))]
      calc g.apply (g.apply m r) (.unknown d)
          = g.apply (g.apply m (.unknown r.raw)) (.unknown d) := by rw [← hr]
        _ = g.apply m (.unknown (r.raw ++ d)) := g.apply_append m r.raw d

/-- **What was written is read back.** -/
theorem unmarshal_encoding {m : M} (hsound : g.Sound m) (hsize : g.size m < 2 ^ 63) :
    g.protoUnmarshal (g.encoding m) = .ok m := by
  obtain ⟨us, hus, hunknown⟩ := hsound
  have hparts := size_eq (g := g) m
  have hencoding : g.encoding m = encodedOf (g.known m) ++ g.unrecognized m := by
    rw [encoding, parts, encodedOf, List.flatMap_append]
    exact congrArg _ (List.append_nil _)
  refine (unmarshalFrom_ok_iff (by rw [length_encoding]; exact hsize)).mpr
    ⟨(g.known m).flatMap Part.records ++ us, ?_, ?_⟩
  · rw [hencoding]
    exact (parses_parts (g.fits m) (by omega)).append hus
  · rw [List.foldl_append, foldl_unknown hus hunknown, g.rebuild]

/-- The bytes kept stay records, whatever is read. -/
theorem Sound.apply {m : M} (hm : g.Sound m) {p : List UInt8} {r : Record}
    (hchunk : Chunk g.schema p r) : g.Sound (g.apply m r) := by
  obtain ⟨us, hus, hunknown⟩ := hm
  rw [Sound, g.unrecognized_apply]
  by_cases hr : r.raw = []
  · rw [hr, List.append_nil]
    exact ⟨us, hus, hunknown⟩
  · have hself := hchunk.of_raw hr
    rw [← hchunk.eq_raw hself]
    refine ⟨us ++ [r], hus.append ?_, ?_⟩
    · have hone := Parses.cons hchunk .nil
      rwa [List.append_nil] at hone
    · intro q hq
      rcases List.mem_append.mp hq with hq | hq
      · exact hunknown q hq
      · rwa [List.mem_singleton.mp hq]

/-- A message that keeps no bytes. -/
theorem sound_of_nil {m : M} (h : g.unrecognized m = []) : g.Sound m := by
  rw [Sound, h]
  exact ⟨[], .nil, fun r hr => absurd hr List.not_mem_nil⟩

theorem size_apply_le (m : M) (r : Record) : g.size (g.apply m r) ≤ g.size m + r.size := by
  have h := g.size_apply m r
  rw [size_eq, size_eq, g.unrecognized_apply, List.length_append]
  omega

/-- **What was read keeps records it does not know, and is no longer than it was.** -/
theorem sound_of_parses {d : List UInt8} {rs : List Record} (hrs : Parses g.schema d rs) {m : M}
    (hm : g.Sound m) :
    g.Sound (rs.foldl g.apply m) ∧ g.size (rs.foldl g.apply m) ≤ g.size m + d.length := by
  induction hrs generalizing m with
  | nil => exact ⟨hm, Nat.le_add_right _ _⟩
  | @cons p r d rs hchunk hrs ih =>
      obtain ⟨hsound, hsize⟩ := ih (hm.apply hchunk)
      have hstep := size_apply_le (g := g) m r
      have hchunk := hchunk.size_le
      refine ⟨hsound, ?_⟩
      rw [List.foldl_cons, List.length_append]
      omega

/-- **What was read can be written again**, no longer than it was, and reads the same. -/
theorem reencode {d : List UInt8} (hd : d.length < 2 ^ 63) {m : M}
    (h : g.protoUnmarshal d = .ok m) :
    g.Sound m ∧ g.size m ≤ d.length ∧ g.protoUnmarshal (g.encoding m) = .ok m := by
  obtain ⟨rs, hrs, rfl⟩ := (unmarshalFrom_ok_iff hd).mp h
  obtain ⟨hsound, hsize⟩ := sound_of_parses hrs (sound_of_nil g.unrecognized_zero)
  have hzero : g.size g.zero = 0 := by
    rw [size_eq, g.size_zero, g.unrecognized_zero]
    rfl
  rw [hzero, Nat.zero_add] at hsize
  exact ⟨hsound, hsize, unmarshal_encoding hsound (by omega)⟩

end Generated

/-! ## §8. Calls. -/

section Calls

variable {A B B' ρ τ : Type} (req : Generated A) (res : Generated B) (res' : Generated B')
  (unreadable : τ) (serve : A → ρ → ρ × Except τ B)

/-- What the client reads of a reply. -/
def readReply (s : ρ) (dAtA : List UInt8) : ρ × Except τ B' :=
  match res'.protoUnmarshal dAtA with
  | .error _ => (s, .error unreadable)
  | .ok b => (s, .ok b)

/-- What the server answers to a request that it has read. -/
def answer (a : A) (s : ρ) : Option (ρ × Except τ B') :=
  match serve a s with
  | (s, .error e) => some (s, .error e)
  | (s, .ok b) => (res.marshal b).map (readReply res' unreadable s)

/-- A unary call, with the state of the server: the client writes the request and the server reads
it, the server writes the reply and the client reads it, perhaps as another type.  `none` is a
panic. -/
def call (a : A) (s : ρ) : Option (ρ × Except τ B') :=
  (req.marshal a).bind fun dAtA =>
    match req.protoUnmarshal dAtA with
    | .error _ => some (s, .error unreadable)
    | .ok a => answer res res' unreadable serve a s

variable {req res res' unreadable serve}

/-- **The server sees the request that the client sent.** -/
theorem call_eq_answer {a : A} (hsound : req.Sound a) (hsize : req.size a < 2 ^ 63) (s : ρ) :
    call req res res' unreadable serve a s = answer res res' unreadable serve a s := by
  rw [call, req.marshal_eq, Option.bind_some, Generated.unmarshal_encoding hsound hsize]

theorem answer_error {a : A} {s s' : ρ} {e : τ} (h : serve a s = (s', .error e)) :
    answer res res' unreadable serve a s = some (s', .error e) := by
  rw [answer, h]

/-- **The client sees the reply that the server sent.** -/
theorem answer_ok {a : A} {s s' : ρ} {b : B} {b' : B'} (h : serve a s = (s', .ok b))
    (hread : res'.protoUnmarshal (res.encoding b) = .ok b') :
    answer res res' unreadable serve a s = some (s', .ok b') := by
  rw [answer, h]
  dsimp only
  rw [res.marshal_eq, Option.map_some, readReply, hread]

end Calls

end Mainflux.Lib.Wire
