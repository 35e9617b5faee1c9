import Mathlib.Data.List.Basic
import ResumableUpload.Bytes.Sha1

/-!
# A rolling digest is the digest of what it has seen

`Rolling.finish_feed` is the law that every statement about a digest of an upload rests on: a
digest that starts empty and is fed some bytes finishes as `Sha1.hash` of these bytes. Together with
`Rolling.feed_append` it says that neither the cut of the content into parts nor the number of
attempts shows in the digest.

Inside, bytes are followed block by block. Fewer bytes than a block only wait (`feed_short`), a
whole block is compressed (`feed_block`), and so a message of whole blocks is compressed block after
block (`feed_blocks`). A padded message is one of whole blocks.
-/

namespace ResumableUpload.Sha1

/-- Padding fills the last block. -/
theorem length_padded_mod (message : Bytes) :
    (message ++ padding message.length).length % 64 = 0 := by
  simp only [padding, lengthBytes, List.length_append, List.length_cons, List.length_replicate,
    List.length_map, List.length_range]
  omega

namespace Rolling

/-- The count goes on by the number of bytes. -/
theorem count_feed (r : Rolling) (bytes : Bytes) :
    (r.feed bytes).count = r.count + bytes.length := by
  induction bytes generalizing r with
  | nil => rfl
  | cons b bytes ih =>
    have hpush : (r.push b).count = r.count + 1 := by
      unfold push
      split <;> rfl
    have := ih (r.push b)
    simp only [feed, List.foldl_cons, List.length_cons] at this ⊢
    omega

/-- Bytes that do not fill the block wait. -/
theorem feed_short (r : Rolling) (bytes : Bytes) (h : r.count % 64 + bytes.length < 64) :
    r.feed bytes = ⟨r.chain, bytes.reverse ++ r.pending, r.count + bytes.length⟩ := by
  induction bytes generalizing r with
  | nil => rfl
  | cons b bytes ih =>
    simp only [List.length_cons] at h
    have hpush : r.push b = ⟨r.chain, b :: r.pending, r.count + 1⟩ := by
      unfold push
      rw [if_neg (by omega)]
    have hrest := ih ⟨r.chain, b :: r.pending, r.count + 1⟩ (by simp only; omega)
    simp only [feed, List.foldl_cons, hpush] at hrest ⊢
    rw [hrest]
    simp only [List.reverse_cons, List.append_assoc, List.singleton_append, List.length_cons,
      mk.injEq, true_and]
    omega

/-- A block that comes when none is begun is compressed. -/
theorem feed_block (r : Rolling) (block : Bytes) (hcount : r.count % 64 = 0)
    (hpending : r.pending = []) (hlength : block.length = 64) :
    r.feed block = ⟨compress r.chain block, [], r.count + 64⟩ := by
  obtain ⟨front, last, rfl⟩ : ∃ front last, block = front ++ [last] :=
    ⟨block.dropLast, block.getLast (by rintro rfl; cases hlength),
      (List.dropLast_append_getLast _).symm⟩
  have hfront : front.length = 63 := by simpa using hlength
  rw [feed_append, feed_short r front (by omega)]
  simp only [feed, List.foldl_cons, List.foldl_nil, push, hpending, List.append_nil, hfront]
  rw [if_pos (by omega)]
  simp only [List.reverse_cons, List.reverse_reverse]

/-- Whole blocks are compressed one after the other. -/
theorem feed_blocks (r : Rolling) (bytes : Bytes) (hcount : r.count % 64 = 0)
    (hpending : r.pending = []) (hlength : bytes.length % 64 = 0) :
    (r.feed bytes).chain = (blocks bytes).foldl compress r.chain := by
  fun_induction blocks bytes generalizing r with
  | case1 bytes hfull ih =>
    have hblock := feed_block r (bytes.take 64) hcount hpending hfull
    have hrest := ih (r.feed (bytes.take 64)) (by simp only [hblock]; omega) (by rw [hblock])
      (by simp only [List.length_drop, List.length_take] at hfull ⊢; omega)
    calc (r.feed bytes).chain
        = ((r.feed (bytes.take 64)).feed (bytes.drop 64)).chain := by
          rw [← feed_append, List.take_append_drop]
      _ = (blocks (bytes.drop 64)).foldl compress (r.feed (bytes.take 64)).chain := hrest
      _ = (bytes.take 64 :: blocks (bytes.drop 64)).foldl compress r.chain := by
          rw [hblock, List.foldl_cons]
  | case2 bytes hshort =>
    have hnil : bytes = [] := by
      apply List.eq_nil_of_length_eq_zero
      simp only [List.length_take] at hshort
      omega
    subst hnil
    rfl

/-- A digest that has been fed some bytes finishes as their digest. -/
theorem finish_feed (bytes : Bytes) : (empty.feed bytes).finish = hash bytes := by
  have hcount : (empty.feed bytes).count = bytes.length := by
    rw [count_feed]
    exact Nat.zero_add _
  have hchain := feed_blocks empty (bytes ++ padding bytes.length) rfl rfl
    (length_padded_mod bytes)
  rw [finish, hcount, ← feed_append, hchain]
  rfl

end Rolling

end ResumableUpload.Sha1
