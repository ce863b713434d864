import Mathlib.Data.List.Basic

/-!
# Cutting a list into blocks

`blocks n s` cuts `s` from the front into lists of length `n`; the last one may be shorter.  A list
that was put together from pieces of that length is cut into the same pieces again
(`blocks_flatten`).
-/

namespace Blocks

variable {α : Type*} {n : ℕ}

/-- The blocks of length `n`, in order.  Blocks of length zero lead nowhere, and there are none. -/
def blocks (n : ℕ) (s : List α) : List (List α) :=
  if _h : s = [] ∨ n = 0 then [] else s.take n :: blocks n (s.drop n)
termination_by s.length
decreasing_by
  rw [not_or, ← List.length_eq_zero_iff] at _h
  rw [List.length_drop]
  omega

@[simp] theorem blocks_nil : blocks n ([] : List α) = [] := by
  rw [blocks, dif_pos (Or.inl rfl)]

theorem blocks_of_ne_nil (hn : n ≠ 0) {s : List α} (hs : s ≠ []) :
    blocks n s = s.take n :: blocks n (s.drop n) := by
  rw [blocks, dif_neg (by simp [hs, hn])]

/-- A piece of the right length comes off whole. -/
theorem blocks_append (hn : n ≠ 0) {t : List α} (ht : t.length = n) (s : List α) :
    blocks n (t ++ s) = t :: blocks n s := by
  have hne : t ++ s ≠ [] := by
    rw [Ne, ← List.length_eq_zero_iff, List.length_append]
    omega
  rw [blocks_of_ne_nil hn hne, ← ht, List.take_left, List.drop_left]

/-- **Pieces of the right length are read back.** -/
theorem blocks_flatten (hn : n ≠ 0) {pieces : List (List α)} (h : ∀ t ∈ pieces, t.length = n) :
    blocks n pieces.flatten = pieces := by
  induction pieces with
  | nil => simp
  | cons t pieces ih =>
    rw [List.flatten_cons, blocks_append hn (h t (by simp)),
      ih fun u hu => h u (List.mem_cons_of_mem _ hu)]

theorem mem_blocks {s b : List α} (h : b ∈ blocks n s) : b ≠ [] ∧ b.length ≤ n := by
  fun_induction blocks n s with
  | case1 => exact absurd h (by simp)
  | case2 s hs ih =>
    rcases List.mem_cons.mp h with rfl | hb
    · rw [not_or] at hs
      refine ⟨?_, List.length_take_le _ _⟩
      rw [Ne, List.take_eq_nil_iff]
      tauto
    · exact ih hb

end Blocks
