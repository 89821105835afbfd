/-
  Mainflux.Lib.Cfb
  ────────────────
  **CIPHER FEEDBACK.**

  A block function makes a stream cipher of itself: the text is combined with the image of
  the block before it, where the blocks are those of the CIPHERTEXT in both directions
  and the first one is an initialization vector.  The last block may be a part of one.

    • `decrypt_encrypt` — decryption undoes encryption, for every block function, every
      initialization vector and texts of every length.
-/
import Mathlib.Algebra.Ring.Nat
import Mathlib.Data.List.Basic
import Mathlib.Data.Vector.Basic

namespace Mainflux.Lib.Cfb

variable {n : Nat}

/-- The first bytes of a block replaced by those of a text. -/
def overwrite (next : Vector UInt8 n) (src : List UInt8) : Vector UInt8 n :=
  Vector.ofFn fun i => src[i.val]?.getD next[i]

/-- Block by block: the key stream is the image of the block before, `next`, which the
ciphertext then replaces. -/
def xorKeyStream [NeZero n] (block : Vector UInt8 n → Vector UInt8 n) (decrypt : Bool)
    (next : Vector UInt8 n) (src : List UInt8) : List UInt8 :=
  if src = [] then []
  else
    -- a last part of a block uses the first bytes of the key stream only
    let dst := List.zipWith (· ^^^ ·) src (block next).toList
    dst ++ xorKeyStream block decrypt (overwrite next (bif decrypt then src else dst)) (src.drop n)
  termination_by src.length
  decreasing_by
    rename_i hne
    rw [List.length_drop]
    have := List.length_pos_of_ne_nil hne
    have := Nat.pos_of_neZero n
    omega

section Texts

variable [NeZero n] {block : Vector UInt8 n → Vector UInt8 n}

@[simp] theorem xorKeyStream_nil (decrypt : Bool) (next : Vector UInt8 n) :
    xorKeyStream block decrypt next [] = [] := by
  rw [xorKeyStream, if_pos rfl]

theorem xorKeyStream_of_ne_nil (decrypt : Bool) (next : Vector UInt8 n) {src : List UInt8}
    (h : src ≠ []) :
    xorKeyStream block decrypt next src
      = List.zipWith (· ^^^ ·) src (block next).toList
        ++ xorKeyStream block decrypt
          (overwrite next (bif decrypt then src else List.zipWith (· ^^^ ·) src (block next).toList))
          (src.drop n) := by
  rw [xorKeyStream, if_neg h]

end Texts

/-- Combining twice with the same key is nothing, whatever comes behind a whole block. -/
theorem zipWith_xor_xor (src : List UInt8) {k rest : List UInt8}
    (h : rest = [] ∨ k.length ≤ src.length) :
    List.zipWith (· ^^^ ·) (List.zipWith (· ^^^ ·) src k ++ rest) k = src.take k.length := by
  induction src generalizing k with
  | nil =>
      rcases h with rfl | hk
      · simp
      · rw [List.eq_nil_of_length_eq_zero (Nat.le_zero.mp hk), List.zipWith_nil_right]
        rfl
  | cons b src ih =>
      cases k with
      | nil => rw [List.zipWith_nil_right, List.length_nil, List.take_zero]
      | cons a k =>
          have hrest : rest = [] ∨ k.length ≤ src.length := h.imp_right Nat.le_of_succ_le_succ
          rw [List.zipWith_cons_cons, List.cons_append, List.zipWith_cons_cons, ih hrest,
            UInt8.xor_assoc, UInt8.xor_self, UInt8.xor_zero, List.length_cons, List.take_succ_cons]

/-- The block that follows does not depend on what comes behind it. -/
theorem overwrite_append (next : Vector UInt8 n) (c rest : List UInt8)
    (h : rest = [] ∨ c.length = n) : overwrite next (c ++ rest) = overwrite next c := by
  rcases h with rfl | hlen
  · rw [List.append_nil]
  · unfold overwrite
    congr 1
    funext i
    rw [List.getElem?_append_left (hlen ▸ i.isLt)]

/-- **Decryption undoes encryption.** -/
theorem decrypt_encrypt [NeZero n] (block : Vector UInt8 n → Vector UInt8 n)
    (next : Vector UInt8 n) (src : List UInt8) :
    xorKeyStream block true next (xorKeyStream block false next src) = src := by
  -- by the length of the text; one block is shared by both directions
  induction hlen : src.length using Nat.strong_induction_on generalizing next src with
  | _ len ih =>
      by_cases hne : src = []
      · rw [hne, xorKeyStream_nil, xorKeyStream_nil]
      · have hpos := List.length_pos_of_ne_nil hne
        have hn := Nat.pos_of_neZero n
        have hk : (block next).toList.length = n := Vector.length_toList
        rw [xorKeyStream_of_ne_nil false next hne, cond_false]
        -- `rest` is what comes behind the first block of the ciphertext, `c` that block
        generalize hrest : xorKeyStream block false (overwrite next
          (List.zipWith (· ^^^ ·) src (block next).toList)) (src.drop n) = rest
        -- only a whole block is followed by another
        have hwhole : rest = [] ∨ n ≤ src.length := by
          by_cases hshort : src.length ≤ n
          · left
            rw [← hrest, List.drop_eq_nil_of_le hshort, xorKeyStream_nil]
          · right
            omega
        have hhead := zipWith_xor_xor src (k := (block next).toList) (hk.symm ▸ hwhole)
        have hclen : (List.zipWith (· ^^^ ·) src (block next).toList).length = min src.length n := by
          rw [List.length_zipWith, hk]
        generalize List.zipWith (· ^^^ ·) src (block next).toList = c at *
        have hcne : c ++ rest ≠ [] := by
          intro hnil
          have hczero := congrArg List.length (List.append_eq_nil_iff.mp hnil).1
          rw [hclen, List.length_nil] at hczero
          omega
        have hfull : rest = [] ∨ c.length = n := hwhole.imp_right fun hle => by omega
        have hdrop : (c ++ rest).drop n = rest := by
          rcases hfull with rfl | hfull
          · rw [List.append_nil, List.drop_eq_nil_of_le (by omega)]
          · exact List.drop_left' hfull
        rw [xorKeyStream_of_ne_nil true next hcne, cond_true, hhead, hdrop, hk,
          overwrite_append next c rest hfull, ← hrest,
          ih (src.drop n).length (by rw [List.length_drop]; omega) _ _ rfl, List.take_append_drop]

end Mainflux.Lib.Cfb
