import Mathlib.Data.List.Basic

/-!
# Reading lines of bounded length

`readLine newline n s` is one read from the front of `s`.  It stops behind the first `newline`, or
when it has `n` entries, or where `s` ends, and it says whether it ran into the end.  A read that
stops for one of the other reasons has not looked whether there is more.

`pieces newline n s` is what one read after the other gets, until nothing is left.  However the
newlines lie, nothing is lost or repeated at the cuts (`pieces_flatten`).
-/

namespace LineReader

variable {α : Type*} [DecidableEq α] {newline : α} {n : ℕ} {s : List α}

/-- The outcome of one read. -/
structure Reading (α : Type*) where
  line : List α
  rest : List α
  atEnd : Bool

/-- Read until behind the first `newline`, but not more than `n` entries. -/
def readLine (newline : α) : ℕ → List α → Reading α
  | 0, s => ⟨[], s, false⟩
  | _ + 1, [] => ⟨[], [], true⟩
  | n + 1, a :: s =>
    if a = newline then ⟨[a], s, false⟩
    else
      let r := readLine newline n s
      ⟨a :: r.line, r.rest, r.atEnd⟩

/-- A read takes a front part off. -/
theorem readLine_append (newline : α) (n : ℕ) (s : List α) :
    (readLine newline n s).line ++ (readLine newline n s).rest = s := by
  fun_induction readLine newline n s with
  | case1 s => rfl
  | case2 n => rfl
  | case3 n s => rfl
  | case4 n a s hne r ih => rw [List.cons_append, ih]

theorem length_readLine_le (newline : α) (n : ℕ) (s : List α) :
    (readLine newline n s).line.length ≤ n := by
  fun_induction readLine newline n s with
  | case1 s => exact Nat.le_refl 0
  | case2 n => exact Nat.zero_le _
  | case3 n s => simp
  | case4 n a s hne r ih => exact Nat.succ_le_succ ih

/-- Only a read that takes everything runs into the end. -/
theorem rest_of_atEnd (h : (readLine newline n s).atEnd = true) :
    (readLine newline n s).rest = [] := by
  fun_induction readLine newline n s with
  | case1 s => exact absurd h Bool.false_ne_true
  | case2 n => rfl
  | case3 n s => exact absurd h Bool.false_ne_true
  | case4 n a s hne r ih => exact ih h

/-- A read that may take something takes something. -/
theorem length_rest_lt (hn : n ≠ 0) (hs : s ≠ []) :
    (readLine newline n s).rest.length < s.length := by
  have hline : (readLine newline n s).line ≠ [] := by
    fun_cases readLine newline n s with
    | case1 => exact absurd rfl hn
    | case2 => exact absurd rfl hs
    | case3 => exact List.cons_ne_nil _ _
    | case4 => exact List.cons_ne_nil _ _
  have hlen := congrArg List.length (readLine_append newline n s)
  have hpos := List.length_pos_of_ne_nil hline
  rw [List.length_append] at hlen
  omega

/-- What the reads get, in order.  Reads that may take nothing lead nowhere, and there are none. -/
def pieces (newline : α) (n : ℕ) (s : List α) : List (List α) :=
  if _h : s = [] ∨ n = 0 then []
  else (readLine newline n s).line :: pieces newline n (readLine newline n s).rest
termination_by s.length
decreasing_by exact length_rest_lt (fun hn => _h (Or.inr hn)) (fun hs => _h (Or.inl hs))

@[simp] theorem pieces_nil : pieces newline n [] = [] := by
  rw [pieces, dif_pos (Or.inl rfl)]

theorem pieces_of_ne_nil (hn : n ≠ 0) (hs : s ≠ []) :
    pieces newline n s =
      (readLine newline n s).line :: pieces newline n (readLine newline n s).rest := by
  rw [pieces, dif_neg (by simp [hs, hn])]

/-- **The pieces make up the list.** -/
theorem pieces_flatten (newline : α) (hn : n ≠ 0) (s : List α) :
    (pieces newline n s).flatten = s := by
  fun_induction pieces newline n s with
  | case1 s hs => rw [hs.resolve_right hn, List.flatten_nil]
  | case2 s hs ih => rw [List.flatten_cons, ih, readLine_append]

end LineReader
