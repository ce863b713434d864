import Infotainment.MediaLists

/-!
# When the scan loop ends

`scanLoop` appends what it cuts out to a shelf as it goes.  `scanPaths` is the same loop returning
the pieces; `scanLoop_eq` relates the two, and everything else is about `scanPaths`.

## Where the loop goes

The extension has no border, so its occurrences do not overlap and the loop, which resumes behind
the one it has just seen, visits them in order.  It leaves the straight path in two ways.

* Nothing is found from `start` on.  Then `end` is `-1` and `start` becomes `ext.length() - 1`,
  which is `3`: the loop goes back to the front of the text.  It meets the same occurrences again
  and comes to the same place, for ever --- unless the text has no more than three characters.
* An occurrence ends at or past `2 ^ 31`, which does not fit an `int`.  If the value that is stored
  is negative the comparison with `length()` ends the loop; otherwise it is a position near the
  front and the loop goes round.

So only one occurrence matters, the first that ends at or past the end of the text or `2 ^ 31`,
whichever comes first (`IsStop`).  `ends_iff` says that the loop ends exactly when there is such an
occurrence and the `start` it leads to is outside the text, or the text is shorter than the
extension.  The divergent cases are one closure argument (`scanPaths_eq_none_of_closed`), the
convergent one an induction on the distance to the stop.
-/

namespace Infotainment

open Occurrence

/-! ## The loop without the shelf -/

/-- The pieces the loop cuts out, starting at `start`. -/
def scanPaths (ext list : Text) : ℕ → ℤ → Option (List Text)
  | 0, _ => none
  | fuel + 1, start =>
    if 0 ≤ start ∧ start < list.length then
      (scanPaths ext list fuel (scanStep ext list start).2).map ((scanStep ext list start).1 :: ·)
    else some []

namespace MediaShelf

/-- Append several files. -/
def addFiles (m : MediaShelf) (paths : List Text) : MediaShelf := paths.foldl addFile m

variable (m : MediaShelf) (paths : List Text)

@[simp] theorem addFiles_nil : m.addFiles [] = m := rfl

@[simp] theorem addFiles_cons (path : Text) :
    m.addFiles (path :: paths) = (m.addFile path).addFiles paths := rfl

@[simp] theorem addFiles_media : (m.addFiles paths).playList.media = m.playList.media ++ paths := by
  induction paths generalizing m with
  | nil => simp
  | cons path paths ih => simp [ih, addFile]

@[simp] theorem addFiles_rows : (m.addFiles paths).rows = m.rows ++ paths.map fileName := by
  induction paths generalizing m with
  | nil => simp
  | cons path paths ih => simp [ih, addFile]

@[simp] theorem addFiles_currentIndex :
    (m.addFiles paths).playList.currentIndex = m.playList.currentIndex := by
  induction paths generalizing m with
  | nil => rfl
  | cons path paths ih => rw [addFiles_cons, ih]; rfl

@[simp] theorem addFiles_mode :
    (m.addFiles paths).playList.playbackMode = m.playList.playbackMode := by
  induction paths generalizing m with
  | nil => rfl
  | cons path paths ih => rw [addFiles_cons, ih]; rfl

@[simp] theorem addFiles_player : (m.addFiles paths).player = m.player := by
  induction paths generalizing m with
  | nil => rfl
  | cons path paths ih => rw [addFiles_cons, ih]; rfl

@[simp] theorem addFiles_listed : (m.addFiles paths).listed = m.listed := by
  induction paths generalizing m with
  | nil => rfl
  | cons path paths ih => rw [addFiles_cons, ih]; rfl

end MediaShelf

theorem scanLoop_eq (ext list : Text) (fuel : ℕ) (start : ℤ) (m : MediaShelf) :
    scanLoop ext list fuel start m = (scanPaths ext list fuel start).map m.addFiles := by
  induction fuel generalizing start m with
  | zero => rfl
  | succ fuel ih =>
    rw [scanLoop, scanPaths]
    split_ifs with h
    · simp only [ih, Option.map_map]
      rfl
    · rfl

/-- Only the empty text has no pieces. -/
theorem scanPaths_eq_nil_iff {ext list : Text} {fuel : ℕ} {paths : List Text}
    (h : scanPaths ext list fuel 0 = some paths) : paths = [] ↔ list = [] := by
  cases fuel with
  | zero => simp [scanPaths] at h
  | succ fuel =>
    rw [scanPaths] at h
    rw [← List.length_eq_zero_iff (l := list)]
    split_ifs at h with hguard
    · obtain ⟨rest, -, rfl⟩ := Option.map_eq_some_iff.mp h
      exact iff_of_false (List.cons_ne_nil _ rest) (by omega)
    · exact iff_of_true (Option.some.inj h).symm (by omega)

/-- Every piece ends in the extension, which the loop appends to it. -/
theorem ext_suffix_of_mem_scanPaths {ext list : Text} {fuel : ℕ} {start : ℤ} {paths : List Text}
    (h : scanPaths ext list fuel start = some paths) : ∀ path ∈ paths, ext <:+ path := by
  induction fuel generalizing start paths with
  | zero => simp [scanPaths] at h
  | succ fuel ih =>
    rw [scanPaths] at h
    split_ifs at h
    · obtain ⟨rest, hrest, rfl⟩ := Option.map_eq_some_iff.mp h
      exact List.forall_mem_cons.mpr ⟨List.suffix_append _ ext, ih hrest⟩
    · obtain rfl := Option.some.inj h
      exact fun path hpath => absurd hpath List.not_mem_nil

/-- More fuel does not change a result. -/
theorem scanPaths_mono {ext list : Text} {fuel fuel' : ℕ} {start : ℤ} {paths : List Text}
    (h : scanPaths ext list fuel start = some paths) (hle : fuel ≤ fuel') :
    scanPaths ext list fuel' start = some paths := by
  induction fuel generalizing fuel' start paths with
  | zero => simp [scanPaths] at h
  | succ fuel ih =>
    obtain ⟨fuel', rfl⟩ := Nat.exists_eq_succ_of_ne_zero (n := fuel') (by omega)
    rw [scanPaths] at h ⊢
    split_ifs at h ⊢ with hguard
    · obtain ⟨rest, hrest, rfl⟩ := Option.map_eq_some_iff.mp h
      rw [ih hrest (by omega), Option.map_some]
    · exact h

/-- **A set of positions inside the text that the loop does not leave holds it for ever.** -/
theorem scanPaths_eq_none_of_closed {ext list : Text} {S : ℤ → Prop}
    (hguard : ∀ x, S x → 0 ≤ x ∧ x < list.length)
    (hclosed : ∀ x, S x → S (scanStep ext list x).2) (fuel : ℕ) {start : ℤ} (h : S start) :
    scanPaths ext list fuel start = none := by
  induction fuel generalizing start with
  | zero => rfl
  | succ fuel ih =>
    rw [scanPaths, if_pos (hguard _ h), ih (hclosed _ h), Option.map_none]

/-! ## One round -/

/-- What the two extensions have in common. -/
structure IsExtension (ext : Text) : Prop where
  length_eq : ext.length = 4
  unbordered : Unbordered ext

theorem isExtension_songsExt : IsExtension songsExt := ⟨by decide, by decide⟩

theorem isExtension_videosExt : IsExtension videosExt := ⟨by decide, by decide⟩

theorem IsExtension.ne_nil {ext : Text} (hext : IsExtension ext) : ext ≠ [] := by
  have h := hext.length_eq
  rintro rfl
  simp at h

variable {ext list : Text}

theorem int32_int32_add (x y : ℤ) : int32 (int32 x + y) = int32 (x + y) := Int.bmod_add_bmod

theorem int32_int32_sub (x y : ℤ) : int32 (int32 x - y) = int32 (x - y) := Int.bmod_sub_bmod

theorem scanStep_of_find {a p : ℕ} (hf : findFrom ext list a = some p) :
    scanStep ext list a =
      (substr list a (int32 (p - a)) ++ ext, int32 (p + ext.length)) := by
  rw [scanStep, findInt, Int.toNat_natCast, hf]
  simp only [int32_int32_add, int32_int32_sub]

/-- Something found: the loop resumes behind it. -/
theorem scanStep_snd_of_find (hext : IsExtension ext) {a p : ℕ}
    (hf : findFrom ext list a = some p) :
    (scanStep ext list a).2 = int32 ((p + 4 : ℕ) : ℤ) := by
  rw [scanStep_of_find hf, hext.length_eq, Nat.cast_add]

/-- Nothing found: the loop goes back to position `3`. -/
theorem scanStep_snd_of_find_none (hext : IsExtension ext) {a : ℕ}
    (hf : findFrom ext list a = none) : (scanStep ext list a).2 = 3 := by
  rw [scanStep, findInt, Int.toNat_natCast, hf]
  simp only [hext.length_eq]
  decide

/-! ## The occurrence that decides -/

/-- The first occurrence that ends at or past the end of the text or `2 ^ 31`. -/
structure IsStop (ext list : Text) (p : ℕ) : Prop where
  occursAt : OccursAt ext list p
  le_add : min list.length (2 ^ 31) ≤ p + 4
  add_lt : ∀ q < p, OccursAt ext list q → q + 4 < min list.length (2 ^ 31)

/-- The `start` after the stop is outside the text. -/
def Leaves (list : Text) (p : ℕ) : Prop :=
  ¬ (0 ≤ int32 ((p + 4 : ℕ) : ℤ) ∧ int32 ((p + 4 : ℕ) : ℤ) < list.length)

/-- One round from a position that is not past the stop: either the loop arrives at the stop or
it moves on to a later position that is not past it. -/
theorem scanStep_toward_stop (hext : IsExtension ext) {a p : ℕ} (hp : IsStop ext list p)
    (hap : a ≤ p) :
    (findFrom ext list a = some p ∧ (scanStep ext list a).2 = int32 ((p + 4 : ℕ) : ℤ)) ∨
      ∃ b : ℕ, (scanStep ext list a).2 = b ∧ a < b ∧ b ≤ p := by
  obtain ⟨q, hf, hqp⟩ := exists_findFrom_le hext.ne_nil hap hp.occursAt
  obtain ⟨haq, hocc, -⟩ := (findFrom_eq_some_iff hext.ne_nil list a q).mp hf
  have hstep := scanStep_snd_of_find hext hf
  rcases hqp.eq_or_lt with rfl | hlt
  · exact Or.inl ⟨hf, hstep⟩
  · have hbound := hp.add_lt q hlt hocc
    have hnext := add_length_le_of_lt hext.unbordered hlt hocc hp.occursAt
    rw [hext.length_eq] at hnext
    refine Or.inr ⟨q + 4, ?_, by omega, hnext⟩
    rw [hstep, int32_of_nonneg_of_lt (by omega) (by omega)]

/-- From a position that is not past a stop that leaves the text, the loop ends. -/
theorem exists_scanPaths_of_stop (hext : IsExtension ext) {p : ℕ} (hp : IsStop ext list p)
    (hleave : Leaves list p) (fuel a : ℕ) (hap : a ≤ p) (hfuel : p - a + 2 ≤ fuel) :
    ∃ paths, scanPaths ext list fuel a = some paths := by
  have hlen := hp.occursAt.add_length_le hext.ne_nil
  rw [hext.length_eq] at hlen
  induction fuel generalizing a with
  | zero => omega
  | succ fuel ih =>
    rw [scanPaths, if_pos (by omega)]
    rcases scanStep_toward_stop hext hp hap with ⟨-, hstep⟩ | ⟨b, hstep, hab, hbp⟩
    · obtain ⟨fuel, rfl⟩ := Nat.exists_eq_succ_of_ne_zero (n := fuel) (by omega)
      rw [hstep, scanPaths, if_neg hleave, Option.map_some]
      exact ⟨_, rfl⟩
    · obtain ⟨paths, hpaths⟩ := ih b hbp (by omega)
      rw [hstep, hpaths, Option.map_some]
      exact ⟨_, rfl⟩

/-- From a position that is not past a stop that stays in the text, the loop never ends: the stop
throws it back to a position in front of itself. -/
theorem scanPaths_eq_none_of_stop (hext : IsExtension ext) {p : ℕ} (hp : IsStop ext list p)
    (hstay : ¬ Leaves list p) (fuel : ℕ) {a : ℕ} (hap : a ≤ p) :
    scanPaths ext list fuel a = none := by
  have hlen := hp.occursAt.add_length_le hext.ne_nil
  rw [hext.length_eq] at hlen
  have hle := hp.le_add
  rw [Leaves, not_not] at hstay
  have hback : int32 ((p + 4 : ℕ) : ℤ) ≤ p := by
    have hlow := int32_natCast_of_nonneg hstay.1
    have hlt := hstay.2
    rw [hlow] at hlt ⊢
    by_cases hbig : p + 4 < 2 ^ 32
    · rw [Nat.mod_eq_of_lt hbig] at hlow hlt ⊢
      have hpos := int32_lt ((p + 4 : ℕ) : ℤ)
      omega
    · have hmod := Nat.mod_lt (p + 4) (y := 2 ^ 32) (by norm_num)
      omega
  refine scanPaths_eq_none_of_closed (S := fun x => ∃ b : ℕ, x = b ∧ b ≤ p) ?_ ?_ fuel ⟨a, rfl, hap⟩
  · rintro x ⟨b, rfl, hb⟩
    omega
  · rintro x ⟨b, rfl, hb⟩
    rcases scanStep_toward_stop hext hp hb with ⟨-, hstep⟩ | ⟨c, hstep, -, hc⟩
    · refine ⟨(int32 ((p + 4 : ℕ) : ℤ)).toNat, ?_, ?_⟩
      · rw [hstep, Int.toNat_of_nonneg hstay.1]
      · omega
    · exact ⟨c, hstep, hc⟩

/-- Without a stop the loop never ends, unless the text is shorter than the extension. -/
theorem scanPaths_eq_none_of_no_stop (hext : IsExtension ext) (hno : ∀ p, ¬ IsStop ext list p)
    (hlen : 3 < list.length) (fuel : ℕ) {a : ℕ} (ha : a < min list.length (2 ^ 31)) :
    scanPaths ext list fuel a = none := by
  -- an occurrence that ends at or past the bound would make the first such one a stop
  have hshort : ∀ q, OccursAt ext list q → q + 4 < min list.length (2 ^ 31) := by
    intro q
    induction q using Nat.strong_induction_on with
    | _ q ih =>
      intro hq
      by_contra hge
      exact hno q ⟨hq, by omega, ih⟩
  refine scanPaths_eq_none_of_closed
    (S := fun x => ∃ b : ℕ, x = b ∧ b < min list.length (2 ^ 31)) ?_ ?_ fuel ⟨a, rfl, ha⟩
  · rintro x ⟨b, rfl, hb⟩
    omega
  · rintro x ⟨b, rfl, hb⟩
    cases hf : findFrom ext list b with
    | none => exact ⟨3, scanStep_snd_of_find_none hext hf, by omega⟩
    | some q =>
      have hq := hshort q ((findFrom_eq_some_iff hext.ne_nil list b q).mp hf).2.1
      refine ⟨q + 4, ?_, hq⟩
      rw [scanStep_snd_of_find hext hf]
      exact int32_of_nonneg_of_lt (by omega) (by omega)

/-! ## The exact condition -/

/-- A text shorter than the extension is used up after one round. -/
theorem exists_scanPaths_of_short (hext : IsExtension ext) (hlen : list.length ≤ 3) {fuel : ℕ}
    (hfuel : list.length + 1 ≤ fuel) : ∃ paths, scanPaths ext list fuel 0 = some paths := by
  obtain ⟨fuel, rfl⟩ := Nat.exists_eq_succ_of_ne_zero (n := fuel) (by omega)
  rw [scanPaths]
  split_ifs with hguard
  · obtain ⟨fuel, rfl⟩ := Nat.exists_eq_succ_of_ne_zero (n := fuel) (by omega)
    have hnone : findFrom ext list 0 = none := by
      refine (findFrom_eq_none_iff hext.ne_nil list 0).mpr fun p _ hocc => ?_
      have hle := hocc.add_length_le hext.ne_nil
      rw [hext.length_eq] at hle
      omega
    have hstep := scanStep_snd_of_find_none hext hnone
    rw [Nat.cast_zero] at hstep
    rw [hstep, scanPaths, if_neg (by omega), Option.map_some]
    exact ⟨_, rfl⟩
  · exact ⟨_, rfl⟩

/-- Where the loop ends, the fuel of `scan` is enough. -/
theorem exists_scanPaths (hext : IsExtension ext)
    (h : list.length ≤ 3 ∨ ∃ p, IsStop ext list p ∧ Leaves list p) :
    ∃ paths, scanPaths ext list (list.length + 1) 0 = some paths := by
  rcases h with hlen | ⟨p, hp, hleave⟩
  · exact exists_scanPaths_of_short hext hlen le_rfl
  · have hle := hp.occursAt.add_length_le hext.ne_nil
    rw [hext.length_eq] at hle
    exact exists_scanPaths_of_stop hext hp hleave _ 0 (Nat.zero_le p) (by omega)

/-- **The loop ends** exactly when a stop leads out of the text or the text is shorter than the
extension. -/
theorem ends_iff (hext : IsExtension ext) (list : Text) :
    (∃ fuel paths, scanPaths ext list fuel 0 = some paths) ↔
      list.length ≤ 3 ∨ ∃ p, IsStop ext list p ∧ Leaves list p := by
  constructor
  · rintro ⟨fuel, paths, h⟩
    by_contra hcon
    rw [not_or, not_exists] at hcon
    obtain ⟨hlen, hstay⟩ := hcon
    have hnone : scanPaths ext list fuel ((0 : ℕ) : ℤ) = none := by
      by_cases hstop : ∃ p, IsStop ext list p
      · obtain ⟨p, hp⟩ := hstop
        exact scanPaths_eq_none_of_stop hext hp (fun hl => hstay p ⟨hp, hl⟩) fuel (Nat.zero_le p)
      · exact scanPaths_eq_none_of_no_stop hext (fun p hp => hstop ⟨p, hp⟩) (by omega) fuel
          (by omega)
    rw [Nat.cast_zero, h] at hnone
    exact absurd hnone (by simp)
  · intro h
    exact ⟨_, exists_scanPaths hext h⟩

/-- A result with any fuel is the result with the fuel of `scan`. -/
theorem scanPaths_eq_some_iff (hext : IsExtension ext) {list : Text} {paths : List Text} :
    (∃ fuel, scanPaths ext list fuel 0 = some paths) ↔
      scanPaths ext list (list.length + 1) 0 = some paths := by
  constructor
  · rintro ⟨fuel, h⟩
    obtain ⟨paths', h'⟩ := exists_scanPaths hext ((ends_iff hext list).mp ⟨fuel, paths, h⟩)
    have hmax := scanPaths_mono h (le_max_left fuel (list.length + 1))
    rw [scanPaths_mono h' (le_max_right fuel (list.length + 1))] at hmax
    rw [h', hmax]
  · intro h
    exact ⟨_, h⟩

/-- What `scan` makes of a text: the pieces are appended to the shelf. -/
theorem scan_eq (ext list : Text) (m : MediaShelf) :
    scan ext list m = (scanPaths ext list (list.length + 1) 0).map m.addFiles :=
  scanLoop_eq ext list _ 0 m

/-! ## The condition, read on the text -/

/-- The text is at most three characters long; or it is shorter than 2 GiB and ends in the
extension; or it is longer, and the first occurrence of the extension that ends at or past
`2 ^ 31` ends where the low 32 bits are those of a negative `int`. -/
def ScanEnds (ext list : Text) : Prop :=
  list.length ≤ 3 ∨
    (list.length < 2 ^ 31 ∧ ext <:+ list) ∨
    (2 ^ 31 ≤ list.length ∧ ∃ p, OccursAt ext list p ∧ 2 ^ 31 ≤ p + 4 ∧
      (∀ q < p, OccursAt ext list q → q + 4 < 2 ^ 31) ∧ 2 ^ 31 ≤ (p + 4) % 2 ^ 32)

theorem exists_stop_iff_of_lt (hext : IsExtension ext) (hlen : list.length < 2 ^ 31) :
    (∃ p, IsStop ext list p ∧ Leaves list p) ↔ ext <:+ list := by
  rw [suffix_iff_occursAt, hext.length_eq]
  constructor
  · rintro ⟨p, hp, -⟩
    have hle := hp.occursAt.add_length_le hext.ne_nil
    rw [hext.length_eq] at hle
    have hstop := hp.le_add
    obtain rfl : p = list.length - 4 := by omega
    exact ⟨by omega, hp.occursAt⟩
  · rintro ⟨hle, hocc⟩
    refine ⟨list.length - 4, ⟨hocc, by omega, fun q hq _ => by omega⟩, ?_⟩
    rw [Leaves, Nat.sub_add_cancel hle, int32_of_nonneg_of_lt (by omega) (by omega)]
    omega

theorem exists_stop_iff_of_le (hlen : 2 ^ 31 ≤ list.length) :
    (∃ p, IsStop ext list p ∧ Leaves list p) ↔
      ∃ p, OccursAt ext list p ∧ 2 ^ 31 ≤ p + 4 ∧
        (∀ q < p, OccursAt ext list q → q + 4 < 2 ^ 31) ∧ 2 ^ 31 ≤ (p + 4) % 2 ^ 32 := by
  have hleaves : ∀ p, Leaves list p ↔ 2 ^ 31 ≤ (p + 4) % 2 ^ 32 := by
    intro p
    rw [← int32_natCast_neg_iff, Leaves]
    have hlt := int32_lt ((p + 4 : ℕ) : ℤ)
    omega
  constructor
  · rintro ⟨p, ⟨hocc, hle, hlt⟩, hl⟩
    rw [min_eq_right hlen] at hle hlt
    exact ⟨p, hocc, hle, hlt, (hleaves p).mp hl⟩
  · rintro ⟨p, hocc, hle, hlt, hl⟩
    refine ⟨p, ⟨hocc, ?_, ?_⟩, (hleaves p).mpr hl⟩
    · rwa [min_eq_right hlen]
    · rwa [min_eq_right hlen]

theorem scanEnds_iff (hext : IsExtension ext) (list : Text) :
    (∃ fuel paths, scanPaths ext list fuel 0 = some paths) ↔ ScanEnds ext list := by
  rw [ends_iff hext, ScanEnds]
  refine or_congr Iff.rfl ?_
  rcases lt_or_ge list.length (2 ^ 31) with hlen | hlen
  · rw [exists_stop_iff_of_lt hext hlen]
    have hnot : ¬ 2 ^ 31 ≤ list.length := by omega
    simp only [hlen, hnot, true_and, false_and, or_false]
  · rw [exists_stop_iff_of_le hlen]
    have hnot : ¬ list.length < 2 ^ 31 := by omega
    simp only [hlen, hnot, true_and, false_and, false_or]

/-- **When the scan of a listing ends.**  For either list, whatever the text and whatever the
shelf held before: the loop makes finitely many rounds exactly under `ScanEnds`. -/
theorem scanLoop_terminates_iff (list : Text) (m : MediaShelf) :
    ((∃ fuel, (scanLoop songsExt list fuel 0 m).isSome) ↔ ScanEnds songsExt list) ∧
      ((∃ fuel, (scanLoop videosExt list fuel 0 m).isSome) ↔ ScanEnds videosExt list) := by
  have hiff : ∀ ext, IsExtension ext →
      ((∃ fuel, (scanLoop ext list fuel 0 m).isSome) ↔ ScanEnds ext list) := by
    intro ext hext
    rw [← scanEnds_iff hext]
    simp only [scanLoop_eq, Option.isSome_map, Option.isSome_iff_exists]
  exact ⟨hiff _ isExtension_songsExt, hiff _ isExtension_videosExt⟩

/-- The loop does not end on what `find` prints when the directory is gone. -/
theorem scanLoop_error_message_diverges :
    ¬ ∃ fuel, (scanLoop songsExt
      "find: '/media/sda1/': No such file or directory".toList fuel 0 .new).isSome := by
  simp only [scanLoop_eq, Option.isSome_map, Option.isSome_iff_exists]
  rw [scanEnds_iff isExtension_songsExt]
  rintro (hshort | ⟨-, hsuffix⟩ | ⟨hlong, -⟩)
  · exact absurd hshort (by decide)
  · exact absurd hsuffix (by decide)
  · exact absurd hlong (by decide)

end Infotainment
