import Infotainment.Library.Occurrence
import Mathlib.Algebra.Order.Group.Unbundled.Int
import Mathlib.Tactic.Ring

/-!
# C++ strings and integers

The program keeps everything it reads from the machine in `std::string` and cuts it up with
`find`, `rfind` and `substr`, holding positions in variables of type `int`.  A string is a list
of characters here, a position that comes back from the library is a natural number, and what a
variable of type `int` holds is an integer reduced to 32 bits by `int32`.

`find` answers `npos` when there is nothing to find, and `npos` stored in an `int` is `-1`; a
negative `int` used as a length or compared with `length()` is converted to a `size_t` that no
string length reaches.  Both conventions are built into the definitions below.

`fileName` is what the program computes from a path, `baseName` what it means: the longest suffix
without a slash.  `fileName_eq_baseName` says that they agree.
-/

namespace Infotainment

open Occurrence

/-- The contents of a `std::string`. -/
abbrev Text := List Char

/-! ## 32-bit integers -/

/-- What a variable of type `int` holds after `n` was stored in it. -/
def int32 (n : ℤ) : ℤ := n.bmod (2 ^ 32)

theorem int32_of_nonneg_of_lt {n : ℤ} (h0 : 0 ≤ n) (h : n < 2 ^ 31) : int32 n = n := by
  rw [int32, Int.bmod_eq_of_le (by omega) (by omega)]

theorem int32_lt (n : ℤ) : int32 n < 2 ^ 31 := by
  have h := Int.bmod_lt (x := n) (m := 2 ^ 32) (by norm_num)
  rw [int32]
  norm_num at h ⊢
  exact h

theorem neg_two_pow_le_int32 (n : ℤ) : -2 ^ 31 ≤ int32 n := by
  have h := Int.le_bmod (x := n) (m := 2 ^ 32) (by norm_num)
  rw [int32]
  norm_num at h ⊢
  exact h

/-- Storing a natural number in an `int` gives a negative value exactly when the top bit of its
32 low bits is set. -/
theorem int32_natCast_neg_iff (n : ℕ) : int32 n < 0 ↔ 2 ^ 31 ≤ n % 2 ^ 32 := by
  rw [int32, Int.bmod_def]
  norm_num
  split_ifs <;> omega

/-- A natural number whose `int` value is not negative keeps its low 32 bits. -/
theorem int32_natCast_of_nonneg {n : ℕ} (h : 0 ≤ int32 n) : int32 n = (n % 2 ^ 32 : ℕ) := by
  rw [int32, Int.bmod_def] at h ⊢
  norm_num at h ⊢
  split_ifs at h ⊢ <;> omega

/-! ## Strings -/

/-- `find`, with its result stored in an `int`: `npos` becomes `-1`. -/
def findInt (ext s : Text) (start : ℕ) : ℤ :=
  match findFrom ext s start with
  | some p => int32 p
  | none => -1

/-- `substr(pos, len)` for a position inside the string.  A negative `len` is converted to a
`size_t` past every length, so the rest of the string is taken. -/
def substr (s : Text) (pos : ℕ) (len : ℤ) : Text :=
  if len < 0 then s.drop pos else (s.drop pos).take len.toNat

/-- `rfind(c)`: the last position of the character. -/
def rfind (c : Char) : Text → Option ℕ
  | [] => none
  | a :: s =>
    match rfind c s with
    | some k => some (k + 1)
    | none => if a = c then some 0 else none

/-- `path.substr(path.rfind('/')+1, path.length())`.  Without a slash `rfind` is `npos`, and
`npos + 1` is zero. -/
def fileName (path : Text) : Text :=
  substr path ((rfind '/' path).elim 0 (· + 1)) path.length

/-- The text after the last slash. -/
def baseName (path : Text) : Text := (path.reverse.takeWhile (· ≠ '/')).reverse

theorem rfind_eq_none {c : Char} {s : Text} : rfind c s = none ↔ c ∉ s := by
  induction s with
  | nil => simp [rfind]
  | cons a s ih =>
    rw [rfind]
    cases h : rfind c s with
    | some k =>
      have hmem : c ∈ s := by
        by_contra hc
        rw [ih.mpr hc] at h
        exact absurd h (by simp)
      simp [hmem]
    | none =>
      have hmem : c ∉ s := ih.mp h
      simp [hmem, eq_comm]

/-- The character `rfind` points at is the last of its kind. -/
theorem rfind_eq_some {c : Char} {s : Text} {k : ℕ} (h : rfind c s = some k) :
    ∃ u v, s = u ++ c :: v ∧ u.length = k ∧ c ∉ v := by
  induction s generalizing k with
  | nil => simp [rfind] at h
  | cons a s ih =>
    rw [rfind] at h
    cases hs : rfind c s with
    | some j =>
      obtain ⟨u, v, rfl, hu, hv⟩ := ih hs
      obtain rfl : j + 1 = k := by simpa [hs] using h
      exact ⟨a :: u, v, rfl, by simp [hu], hv⟩
    | none =>
      rw [hs] at h
      by_cases hac : a = c
      · obtain rfl : 0 = k := by simpa [hac] using h
        exact ⟨[], s, by simp [hac], rfl, rfind_eq_none.mp hs⟩
      · simp [hac] at h

/-- A stretch without a slash passes the test that `baseName` stops at. -/
theorem ne_slash_of_mem_reverse {v : Text} (h : '/' ∉ v) :
    ∀ c ∈ v.reverse, decide (c ≠ '/') = true := by
  intro c hc
  have hne : c ≠ '/' := fun hslash => h (hslash ▸ List.mem_reverse.mp hc)
  simpa using hne

theorem baseName_eq_self {s : Text} (h : '/' ∉ s) : baseName s = s := by
  have htake : (s.reverse ++ []).takeWhile (· ≠ '/') = s.reverse ++ [].takeWhile (· ≠ '/') :=
    List.takeWhile_append_of_pos (ne_slash_of_mem_reverse h)
  rw [List.append_nil, List.takeWhile_nil, List.append_nil] at htake
  rw [baseName, htake, List.reverse_reverse]

theorem baseName_append_slash {u v : Text} (h : '/' ∉ v) : baseName (u ++ '/' :: v) = v := by
  rw [baseName, List.reverse_append, List.reverse_cons, List.append_assoc,
    List.takeWhile_append_of_pos (ne_slash_of_mem_reverse h)]
  simp

/-- **The program's file name is the base name.** -/
theorem fileName_eq_baseName (path : Text) : fileName path = baseName path := by
  have hneg : ¬ (path.length : ℤ) < 0 := by omega
  rw [fileName, substr, if_neg hneg, Int.toNat_natCast]
  cases h : rfind '/' path with
  | none =>
    rw [baseName_eq_self (rfind_eq_none.mp h), Option.elim_none, List.drop_zero, List.take_length]
  | some k =>
    obtain ⟨u, v, rfl, rfl, hv⟩ := rfind_eq_some h
    have hdrop : (u ++ '/' :: v).drop (u.length + 1) = v := by
      rw [List.drop_append, List.drop_eq_nil_of_le (by omega)]
      simp
    rw [baseName_append_slash hv, Option.elim_some, hdrop, List.take_of_length_le]
    simp only [List.length_append, List.length_cons]
    omega

end Infotainment
