import Mathlib.Data.List.Infix

/-!
# Occurrences of a word in a list

A word `w` *occurs* in a list `s` at position `p` when `s` with its first `p` entries dropped
starts with `w`.  `find?` is the first position, and `findFrom` the first one at or after a given
position; their two specification lemmas say exactly that, and nothing below unfolds them.

## Words without a border

A word is *unbordered* when no proper nonempty suffix of it is also a prefix.  Two occurrences
of such a word never overlap (`add_length_le_of_lt`), so a scan that resumes behind the
occurrence it has just seen misses none.  Whether a concrete word is unbordered is decided by
`decide`.

## Words without a separator

A word that does not contain a separator occurs on one side of it or on the other
(`infix_separator_iff`), never across it (`OccursAt.of_separator`).
-/

namespace Occurrence

variable {α : Type*}

/-- `w` occurs in `s` at position `p`. -/
def OccursAt (w s : List α) (p : ℕ) : Prop := w <+: s.drop p

instance [DecidableEq α] (w s : List α) (p : ℕ) : Decidable (OccursAt w s p) :=
  inferInstanceAs (Decidable (w <+: s.drop p))

theorem OccursAt.add_length_le {w s : List α} {p : ℕ} (h : OccursAt w s p) (hw : w ≠ []) :
    p + w.length ≤ s.length := by
  have hle := h.length_le
  have hpos := List.length_pos_of_ne_nil hw
  rw [List.length_drop] at hle
  omega

/-- Dropping a front part shifts the positions. -/
theorem occursAt_drop {w s : List α} {a p : ℕ} :
    OccursAt w (s.drop a) p ↔ OccursAt w s (a + p) := by
  rw [OccursAt, OccursAt, List.drop_drop]

theorem occursAt_append_left {w u s : List α} {p : ℕ} :
    OccursAt w (u ++ s) (u.length + p) ↔ OccursAt w s p := by
  rw [OccursAt, OccursAt, List.drop_append, Nat.add_sub_cancel_left,
    List.drop_eq_nil_of_le (Nat.le_add_right _ _), List.nil_append]

/-- An occurrence that ends inside the front part is an occurrence in the front part. -/
theorem occursAt_append_right {w u s : List α} {p : ℕ} (hp : p + w.length ≤ u.length) :
    OccursAt w (u ++ s) p ↔ OccursAt w u p := by
  rw [OccursAt, OccursAt, List.drop_append_of_le_length (by omega)]
  constructor
  · intro h
    exact List.prefix_of_prefix_length_le h (List.prefix_append _ _)
      (by rw [List.length_drop]; omega)
  · intro h
    exact h.trans (List.prefix_append _ _)

/-- A list ends in `w` exactly when `w` occurs at the last position it can. -/
theorem suffix_iff_occursAt {w s : List α} :
    w <:+ s ↔ w.length ≤ s.length ∧ OccursAt w s (s.length - w.length) := by
  constructor
  · rintro ⟨u, rfl⟩
    refine ⟨by simp, ?_⟩
    rw [List.length_append, Nat.add_sub_cancel, OccursAt, List.drop_left]
  · rintro ⟨hle, h⟩
    have heq : w = s.drop (s.length - w.length) :=
      h.eq_of_length (by rw [List.length_drop]; omega)
    rw [heq]
    exact List.drop_suffix _ _

/-! ## Searching -/

section Find

variable [DecidableEq α]

/-- The first position at which `w` occurs. -/
def find? (w : List α) : List α → Option ℕ
  | [] => if w = [] then some 0 else none
  | a :: s => if w <+: a :: s then some 0 else (find? w s).map (· + 1)

theorem find?_eq_some_iff {w : List α} (hw : w ≠ []) (s : List α) (p : ℕ) :
    find? w s = some p ↔ OccursAt w s p ∧ ∀ q < p, ¬ OccursAt w s q := by
  induction s generalizing p with
  | nil => simp [find?, hw, OccursAt]
  | cons a s ih =>
    rw [find?]
    split_ifs with h
    · constructor
      · intro hp
        obtain rfl : 0 = p := by simpa using hp
        exact ⟨h, by simp⟩
      · rintro ⟨-, hmin⟩
        rcases Nat.eq_zero_or_pos p with rfl | hpos
        · rfl
        · exact absurd h (hmin 0 hpos)
    · rw [Option.map_eq_some_iff]
      constructor
      · rintro ⟨k, hk, rfl⟩
        obtain ⟨hocc, hmin⟩ := (ih k).mp hk
        refine ⟨hocc, fun q hq => ?_⟩
        cases q with
        | zero => exact h
        | succ q => exact hmin q (by omega)
      · rintro ⟨hocc, hmin⟩
        cases p with
        | zero => exact absurd hocc h
        | succ p =>
          refine ⟨p, (ih p).mpr ⟨hocc, fun q hq => ?_⟩, rfl⟩
          exact hmin (q + 1) (by omega)

theorem find?_eq_none_iff {w : List α} (hw : w ≠ []) (s : List α) :
    find? w s = none ↔ ∀ p, ¬ OccursAt w s p := by
  induction s with
  | nil => simp [find?, hw, OccursAt]
  | cons a s ih =>
    rw [find?]
    split_ifs with h
    · simp only [false_iff, not_forall, not_not]
      exact ⟨0, h⟩
    · rw [Option.map_eq_none_iff, ih]
      constructor
      · rintro hs (_ | p)
        · exact h
        · exact hs p
      · intro hs p
        exact hs (p + 1)

/-- The first position at or after `a` at which `w` occurs. -/
def findFrom (w s : List α) (a : ℕ) : Option ℕ := (find? w (s.drop a)).map (a + ·)

theorem findFrom_eq_some_iff {w : List α} (hw : w ≠ []) (s : List α) (a p : ℕ) :
    findFrom w s a = some p ↔
      a ≤ p ∧ OccursAt w s p ∧ ∀ q, a ≤ q → q < p → ¬ OccursAt w s q := by
  rw [findFrom, Option.map_eq_some_iff]
  constructor
  · rintro ⟨k, hk, rfl⟩
    obtain ⟨hocc, hmin⟩ := (find?_eq_some_iff hw _ k).mp hk
    refine ⟨Nat.le_add_right _ _, occursAt_drop.mp hocc, fun q haq hq hoccq => ?_⟩
    obtain ⟨j, rfl⟩ := Nat.exists_eq_add_of_le haq
    exact hmin j (by omega) (occursAt_drop.mpr hoccq)
  · rintro ⟨hap, hocc, hmin⟩
    obtain ⟨k, rfl⟩ := Nat.exists_eq_add_of_le hap
    refine ⟨k, (find?_eq_some_iff hw _ k).mpr ⟨occursAt_drop.mpr hocc, fun q hq hoccq => ?_⟩, rfl⟩
    exact hmin (a + q) (Nat.le_add_right _ _) (by omega) (occursAt_drop.mp hoccq)

theorem findFrom_eq_none_iff {w : List α} (hw : w ≠ []) (s : List α) (a : ℕ) :
    findFrom w s a = none ↔ ∀ p, a ≤ p → ¬ OccursAt w s p := by
  rw [findFrom, Option.map_eq_none_iff, find?_eq_none_iff hw]
  constructor
  · intro h p hap hocc
    obtain ⟨k, rfl⟩ := Nat.exists_eq_add_of_le hap
    exact h k (occursAt_drop.mpr hocc)
  · intro h k hocc
    exact h (a + k) (Nat.le_add_right _ _) (occursAt_drop.mp hocc)

/-- A search from a position at or before an occurrence finds one no later than it. -/
theorem exists_findFrom_le {w s : List α} (hw : w ≠ []) {a p : ℕ} (hap : a ≤ p)
    (h : OccursAt w s p) : ∃ q, findFrom w s a = some q ∧ q ≤ p := by
  cases hf : findFrom w s a with
  | none => exact absurd h ((findFrom_eq_none_iff hw s a).mp hf p hap)
  | some q =>
    refine ⟨q, rfl, ?_⟩
    by_contra hlt
    exact ((findFrom_eq_some_iff hw s a q).mp hf).2.2 p hap (by omega) h

/-! ## Counting -/

/-- The number of positions at which `w` occurs. -/
def count (w s : List α) : ℕ := (List.range (s.length + 1)).countP fun p => w <+: s.drop p

theorem count_nil {w : List α} (hw : w ≠ []) : count w [] = 0 := by
  simp [count, hw]

/-- A front part in which `w` begins exactly once. -/
theorem count_append {w u s : List α} {a : ℕ} (ha : a < u.length)
    (h : ∀ p < u.length, OccursAt w (u ++ s) p ↔ p = a) :
    count w (u ++ s) = count w s + 1 := by
  have hfront : (List.range u.length).countP (fun p => w <+: (u ++ s).drop p) = 1 := by
    rw [List.countP_congr (q := (· == a)) fun p hp => ?_]
    · exact List.count_range.trans (if_pos ha)
    · rw [decide_eq_true_iff, beq_iff_eq]
      exact h p (List.mem_range.mp hp)
  have hback : ((fun p => decide (w <+: (u ++ s).drop p)) ∘ fun p => u.length + p) =
      fun p => decide (w <+: s.drop p) := by
    funext p
    rw [Function.comp_apply, List.drop_length_add_append]
  rw [count, List.length_append, Nat.add_assoc, List.range_add, List.countP_append, hfront,
    List.countP_map, hback, Nat.add_comm, count]

end Find

/-! ## Words without a border -/

/-- No proper nonempty suffix of the word is a prefix of it. -/
def Unbordered (w : List α) : Prop := ∀ k < w.length, 0 < k → ¬ w.drop k <+: w

instance [DecidableEq α] (w : List α) : Decidable (Unbordered w) := by
  unfold Unbordered
  infer_instance

/-- **Occurrences of an unbordered word do not overlap.**  If the later one began inside the
earlier, the overlap would be both a suffix and a prefix of the word. -/
theorem add_length_le_of_lt {w s : List α} (hw : Unbordered w) {p q : ℕ} (hpq : p < q)
    (hp : OccursAt w s p) (hq : OccursAt w s q) : p + w.length ≤ q := by
  by_contra hlt
  have hshift : w.drop (q - p) <+: s.drop q := by
    have h := hp.drop (q - p)
    rwa [List.drop_drop, Nat.add_sub_cancel' hpq.le] at h
  refine hw (q - p) (by omega) (by omega) ?_
  exact List.prefix_of_prefix_length_le hshift hq (by rw [List.length_drop]; omega)

/-! ## Words without a separator -/

theorem infix_iff_exists_occursAt {w s : List α} : w <:+: s ↔ ∃ p, OccursAt w s p := by
  rw [List.infix_iff_prefix_suffix]
  constructor
  · rintro ⟨t, hprefix, hsuffix⟩
    exact ⟨s.length - t.length, by rwa [OccursAt, ← List.suffix_iff_eq_drop.mp hsuffix]⟩
  · rintro ⟨p, hp⟩
    exact ⟨s.drop p, hp, List.drop_suffix p s⟩

/-- **A word without the separator does not occur across it.** -/
theorem OccursAt.of_separator {w u v : List α} {sep : α} (hsep : sep ∉ w) {p : ℕ}
    (h : OccursAt w (u ++ sep :: v) p) : p + w.length ≤ u.length ∨ u.length < p := by
  by_contra hacross
  rw [not_or, not_le, not_lt] at hacross
  obtain ⟨hend, hstart⟩ := hacross
  obtain ⟨t, ht⟩ := h
  -- the letter of the word that stands where the separator is
  have hget : w[u.length - p]? = some sep := by
    have hfront : (w ++ t)[u.length - p]? = w[u.length - p]? :=
      List.getElem?_append_left (by omega)
    rw [← hfront, ht, List.getElem?_drop, Nat.add_sub_cancel' hstart]
    simp
  exact hsep (List.mem_of_getElem? hget)

theorem infix_separator_iff {w u v : List α} {sep : α} (hsep : sep ∉ w) :
    w <:+: u ++ sep :: v ↔ w <:+: u ∨ w <:+: v := by
  constructor
  · intro h
    obtain ⟨p, hp⟩ := infix_iff_exists_occursAt.mp h
    rcases hp.of_separator hsep with hfront | hback
    · exact Or.inl (infix_iff_exists_occursAt.mpr ⟨p, (occursAt_append_right hfront).mp hp⟩)
    · obtain ⟨q, rfl⟩ := Nat.exists_eq_add_of_lt hback
      rw [Nat.add_assoc, occursAt_append_left, OccursAt, List.drop_succ_cons] at hp
      exact Or.inr (infix_iff_exists_occursAt.mpr ⟨q, hp⟩)
  · rintro (h | h)
    · exact List.infix_append_of_infix_left h
    · exact List.infix_append_of_infix_right (List.infix_cons h)

end Occurrence
