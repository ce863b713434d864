import Infotainment.ScanLoop
import Infotainment.SystemInterface

/-!
# Reading back the listing of a stick

`find` prints one path a line; `GetStdoutFromCommand` removes the newlines; the scan loop has only
the extension to tell where a path ends.  This file says exactly which listings survive that.

Two things are needed.

* No path may contain the extension before its end.  A directory called `x.mp3` is enough to have
  every path below it cut in two.
* The positions must fit an `int`: everything before the last path must be shorter than 2 GiB, the
  whole below 4 GiB, and the last path itself no longer than an `int` length.

`exists_scanPaths_eq_iff` proves this along the list of paths.  At each path the first round cuts
out the text up to the first occurrence of the extension; it is the path exactly when that
occurrence is the one the path ends in and its distance is an `int` (`scanStep_fst_eq_iff`, by
comparing lengths).  What remains is where the next round starts, which is again at a cut
(`IsCut.next`).
-/

namespace Infotainment

open Occurrence

/-- What `find` prints for these paths: each on a line of its own. -/
def printLines (paths : List Text) : Text := paths.flatMap (· ++ ['\n'])

/-- The extension occurs in the path only where the path ends. -/
def OnlyAtEnd (ext path : Text) : Prop := ∀ p, OccursAt ext path p → p + ext.length = path.length

/-- Behind `a` characters, the positions the loop computes on these paths fit an `int`. -/
def FitsFrom (a : ℕ) (paths : List Text) : Prop :=
  ∀ front path, paths = front ++ [path] →
    a + front.flatten.length < 2 ^ 31 ∧ a + front.flatten.length + path.length < 2 ^ 32 ∧
      path.length < 2 ^ 31 + 4

/-- The paths that can be read back. -/
def Recoverable (ext : Text) (paths : List Text) : Prop :=
  (∀ path ∈ paths, OnlyAtEnd ext path) ∧ FitsFrom 0 paths

/-! ## Removing the newlines -/

theorem filter_printLines {paths : List Text} (h : ∀ path ∈ paths, '\n' ∉ path) :
    (printLines paths).filter (· ≠ '\n') = paths.flatten := by
  rw [printLines]
  induction paths with
  | nil => rfl
  | cons path paths ih =>
    rw [List.flatMap_cons, List.filter_append, List.filter_append,
      filter_newline_eq_self (h path (by simp)), ih fun q hq => h q (List.mem_cons_of_mem _ hq),
      List.flatten_cons]
    simp

/-! ## One round on a path -/

variable {ext : Text}

/-- A natural number does not grow when it is stored in an `int`, and keeps its value only if it
fits. -/
theorem int32_natCast_le {k : ℕ} (h : 0 ≤ int32 k) : int32 k ≤ k := by
  rw [int32_natCast_of_nonneg h]
  exact_mod_cast Nat.mod_le _ _

/-- The loop stands in front of `path` and the extension is first found `k` characters on, inside
the path.  It cuts out the path exactly when that is where the path ends and `k` is an `int`. -/
theorem scanStep_fst_eq_iff (hext : IsExtension ext) {pre path rest : Text} {k : ℕ}
    (hsuffix : ext <:+ path) (hk : k + 4 ≤ path.length)
    (hf : findFrom ext (pre ++ path ++ rest) pre.length = some (pre.length + k)) :
    (scanStep ext (pre ++ path ++ rest) pre.length).1 = path ↔
      k + 4 = path.length ∧ k < 2 ^ 31 := by
  have hdrop : (pre ++ path ++ rest).drop pre.length = path ++ rest := by
    rw [List.append_assoc, List.drop_left]
  have hcut : (scanStep ext (pre ++ path ++ rest) pre.length).1 =
      substr (pre ++ path ++ rest) pre.length (int32 k) ++ ext := by
    rw [scanStep_of_find hf, Nat.cast_add, add_sub_cancel_left]
  rw [hcut, substr, hdrop]
  constructor
  · intro h
    have hlen := congrArg List.length h
    split_ifs at hlen with hneg
    · simp only [List.length_append, hext.length_eq] at hlen
      omega
    · have hle := int32_natCast_le (k := k) (by omega)
      have hlt := int32_lt k
      simp only [List.length_append, List.length_take, hext.length_eq] at hlen
      omega
  · rintro ⟨hend, hint⟩
    obtain ⟨stem, rfl⟩ := hsuffix
    have hstem : stem.length = k := by
      rw [List.length_append, hext.length_eq] at hend
      omega
    rw [int32_of_nonneg_of_lt (by omega) (by omega), if_neg (by omega), Int.toNat_natCast,
      List.append_assoc, ← hstem, List.take_left]

/-- The first occurrence is where the path ends exactly when there is no other one in the path. -/
theorem onlyAtEnd_iff (hext : IsExtension ext) {pre path rest : Text} {k : ℕ}
    (hk : k + 4 ≤ path.length)
    (hf : findFrom ext (pre ++ path ++ rest) pre.length = some (pre.length + k)) :
    OnlyAtEnd ext path ↔ k + 4 = path.length := by
  obtain ⟨-, hocc, hmin⟩ := (findFrom_eq_some_iff hext.ne_nil _ _ _).mp hf
  have hpath : ∀ p, p + 4 ≤ path.length →
      (OccursAt ext (pre ++ path ++ rest) (pre.length + p) ↔ OccursAt ext path p) := by
    intro p hp
    rw [List.append_assoc, occursAt_append_left,
      occursAt_append_right (by rw [hext.length_eq]; exact hp)]
  constructor
  · intro h
    have hend := h k ((hpath k hk).mp hocc)
    rwa [hext.length_eq] at hend
  · intro hend p hp
    have hle := hp.add_length_le hext.ne_nil
    rw [hext.length_eq] at hle ⊢
    by_contra hne
    exact hmin (pre.length + p) (Nat.le_add_right _ _) (by omega) ((hpath p hle).mpr hp)

/-- The first occurrence is inside the path. -/
theorem exists_findFrom_in_path (hext : IsExtension ext) (pre rest : Text) {path : Text}
    (hsuffix : ext <:+ path) :
    ∃ k, k + 4 ≤ path.length ∧
      findFrom ext (pre ++ path ++ rest) pre.length = some (pre.length + k) := by
  obtain ⟨hle, hocc⟩ := suffix_iff_occursAt.mp hsuffix
  rw [hext.length_eq] at hle hocc
  have hend : OccursAt ext (pre ++ path ++ rest) (pre.length + (path.length - 4)) := by
    rw [List.append_assoc, occursAt_append_left,
      occursAt_append_right (by rw [hext.length_eq]; omega)]
    exact hocc
  obtain ⟨q, hf, hq⟩ := exists_findFrom_le hext.ne_nil (Nat.le_add_right _ _) hend
  obtain ⟨hpre, -, -⟩ := (findFrom_eq_some_iff hext.ne_nil _ _ _).mp hf
  obtain ⟨k, rfl⟩ := Nat.exists_eq_add_of_le hpre
  exact ⟨k, by omega, hf⟩

/-! ## Lengths along the list -/

theorem fitsFrom_nil (a : ℕ) : FitsFrom a [] := by
  intro front path h
  simp at h

theorem fitsFrom_singleton {a : ℕ} {path : Text} :
    FitsFrom a [path] ↔ a < 2 ^ 31 ∧ a + path.length < 2 ^ 32 ∧ path.length < 2 ^ 31 + 4 := by
  constructor
  · intro h
    simpa using h [] path rfl
  · rintro h front path' heq
    rcases front with _ | ⟨p, front⟩
    · obtain rfl : path = path' := by simpa using heq
      simpa using h
    · simp at heq

theorem fitsFrom_cons_cons {a : ℕ} {p q : Text} {rest : List Text} :
    FitsFrom a (p :: q :: rest) ↔ FitsFrom (a + p.length) (q :: rest) := by
  constructor
  · intro h front path heq
    have := h (p :: front) path (by rw [heq]; rfl)
    simp only [List.flatten_cons, List.length_append, ← Nat.add_assoc] at this
    exact this
  · intro h front path heq
    rcases front with _ | ⟨p', front⟩
    · simp at heq
    · rw [List.cons_append, List.cons.injEq] at heq
      obtain ⟨rfl, heq⟩ := heq
      simp only [List.flatten_cons, List.length_append, ← Nat.add_assoc]
      exact h front path heq

/-- Something still to come must start inside the range of an `int`. -/
theorem FitsFrom.lt {a : ℕ} {paths : List Text} (h : FitsFrom a paths) (hne : paths ≠ []) :
    a < 2 ^ 31 := by
  have hsplit := (List.dropLast_append_getLast hne).symm
  have := (h _ _ hsplit).1
  omega

/-- A path that ends where an `int` can still count leaves the rest free. -/
theorem fitsFrom_cons_of_lt {a : ℕ} {path : Text} {rest : List Text}
    (hlt : a + path.length < 2 ^ 31) :
    FitsFrom a (path :: rest) ↔ FitsFrom (a + path.length) rest := by
  cases rest with
  | nil => exact iff_of_true (fitsFrom_singleton.mpr (by omega)) (fitsFrom_nil _)
  | cons q rest => exact fitsFrom_cons_cons

/-- A path that ends later is the last one. -/
theorem fitsFrom_cons_of_le {a : ℕ} {path : Text} {rest : List Text} (ha : a < 2 ^ 31)
    (hle : 2 ^ 31 ≤ a + path.length) :
    FitsFrom a (path :: rest) ↔
      rest = [] ∧ a + path.length < 2 ^ 32 ∧ path.length < 2 ^ 31 + 4 := by
  cases rest with
  | nil => rw [fitsFrom_singleton, and_iff_right ha, and_iff_right rfl]
  | cons q rest =>
    refine iff_of_false (fun hfits => ?_) (fun h => List.cons_ne_nil _ _ h.1)
    have hlt := (fitsFrom_cons_cons.mp hfits).lt (List.cons_ne_nil _ _)
    omega

/-! ## Cuts -/

/-- No occurrence straddles the place `a`. -/
def IsCut (ext s : Text) (a : ℕ) : Prop := ∀ q < a, OccursAt ext s q → q + 4 ≤ a

/-- Up to the first occurrence behind a cut, all occurrences are in front of it. -/
theorem IsCut.in_front {s : Text} {a p : ℕ} (h : IsCut ext s a) (hne : ext ≠ [])
    (hf : findFrom ext s a = some p) : ∀ q < p, OccursAt ext s q → q + 4 ≤ a := by
  obtain ⟨-, -, hmin⟩ := (findFrom_eq_some_iff hne _ _ _).mp hf
  intro q hq hocc
  refine h q ?_ hocc
  by_contra hge
  exact hmin q (by omega) hq hocc

/-- The end of that occurrence is again a cut. -/
theorem IsCut.next (hext : IsExtension ext) {s : Text} {a p : ℕ} (h : IsCut ext s a)
    (hf : findFrom ext s a = some p) : IsCut ext s (p + 4) := by
  obtain ⟨hle, hocc, -⟩ := (findFrom_eq_some_iff hext.ne_nil _ _ _).mp hf
  intro q hq hoccq
  rcases lt_trichotomy q p with hlt | rfl | hgt
  · have hfront := h.in_front hext.ne_nil hf q hlt hoccq
    omega
  · omega
  · have hdisjoint := add_length_le_of_lt hext.unbordered hgt hocc hoccq
    rw [hext.length_eq] at hdisjoint
    omega

/-! ## The whole list -/

theorem exists_scanPaths_cons_iff {list : Text} {a : ℕ} {path : Text} {rest : List Text}
    (ha : a < list.length) :
    (∃ fuel, scanPaths ext list fuel a = some (path :: rest)) ↔
      (scanStep ext list a).1 = path ∧
        ∃ fuel, scanPaths ext list fuel (scanStep ext list a).2 = some rest := by
  have hguard : (0 : ℤ) ≤ a ∧ (a : ℤ) < list.length := by omega
  constructor
  · rintro ⟨fuel, h⟩
    cases fuel with
    | zero => simp [scanPaths] at h
    | succ fuel =>
      rw [scanPaths, if_pos hguard, Option.map_eq_some_iff] at h
      obtain ⟨rest', hrest, heq⟩ := h
      rw [List.cons.injEq] at heq
      exact ⟨heq.1, fuel, heq.2 ▸ hrest⟩
  · rintro ⟨hpath, fuel, hrest⟩
    refine ⟨fuel + 1, ?_⟩
    rw [scanPaths, if_pos hguard, hrest, hpath, Option.map_some]

/-- A loop that has left the text returns nothing more. -/
theorem exists_scanPaths_of_outside {list : Text} {x : ℤ} (hx : ¬ (0 ≤ x ∧ x < list.length))
    (rest : List Text) : (∃ fuel, scanPaths ext list fuel x = some rest) ↔ rest = [] := by
  constructor
  · rintro ⟨fuel, h⟩
    cases fuel with
    | zero => simp [scanPaths] at h
    | succ fuel =>
      rw [scanPaths, if_neg hx] at h
      exact (Option.some.inj h).symm
  · rintro rfl
    exact ⟨1, by rw [scanPaths, if_neg hx]⟩

/-- Behind a stop that ends at or past `2 ^ 31` the loop either has left the text or never ends. -/
theorem exists_scanPaths_behind_stop (hext : IsExtension ext) {list : Text} {p : ℕ}
    (hp : IsStop ext list p) (hlow : 2 ^ 31 ≤ p + 4) (hhigh : p + 4 < 2 ^ 32 + 2 ^ 31)
    (rest : List Text) :
    (∃ fuel, scanPaths ext list fuel (int32 ((p + 4 : ℕ) : ℤ)) = some rest) ↔
      p + 4 < 2 ^ 32 ∧ rest = [] := by
  by_cases hneg : int32 ((p + 4 : ℕ) : ℤ) < 0
  · have hbit := (int32_natCast_neg_iff (p + 4)).mp hneg
    have hlt : p + 4 < 2 ^ 32 := by omega
    rw [exists_scanPaths_of_outside (by omega)]
    exact (and_iff_right hlt).symm
  · have hbit := mt (int32_natCast_neg_iff (p + 4)).mpr hneg
    have hlen := hp.occursAt.add_length_le hext.ne_nil
    rw [hext.length_eq] at hlen
    have hval := int32_natCast_of_nonneg (n := p + 4) (by omega)
    have hstay : ¬ Leaves list p := by
      rw [Leaves, not_not, hval]
      omega
    constructor
    · rintro ⟨fuel, h⟩
      rw [hval, scanPaths_eq_none_of_stop hext hp hstay fuel (by omega)] at h
      exact absurd h (by simp)
    · rintro ⟨hlt, -⟩
      omega

/-- **Which listings the loop reads back.**  The loop stands behind `pre`, at a cut. -/
theorem exists_scanPaths_eq_iff (hext : IsExtension ext) (paths : List Text)
    (hsuffix : ∀ path ∈ paths, ext <:+ path) (pre : Text) (hpre : pre.length < 2 ^ 31)
    (hcut : IsCut ext (pre ++ paths.flatten) pre.length) :
    (∃ fuel, scanPaths ext (pre ++ paths.flatten) fuel pre.length = some paths) ↔
      (∀ path ∈ paths, OnlyAtEnd ext path) ∧ FitsFrom pre.length paths := by
  induction paths generalizing pre with
  | nil =>
    rw [List.flatten_nil, List.append_nil, exists_scanPaths_of_outside (by omega)]
    simp [fitsFrom_nil]
  | cons path rest ih =>
    have hpath := hsuffix path List.mem_cons_self
    have hlist : pre ++ (path :: rest).flatten = pre ++ path ++ rest.flatten := by
      rw [List.flatten_cons, List.append_assoc]
    rw [hlist] at hcut ⊢
    obtain ⟨k, hk, hf⟩ := exists_findFrom_in_path hext pre rest.flatten hpath
    have hlen : pre.length < (pre ++ path ++ rest.flatten).length := by
      simp only [List.length_append]
      omega
    rw [exists_scanPaths_cons_iff hlen, scanStep_fst_eq_iff hext hpath hk hf,
      scanStep_snd_of_find hext hf, List.forall_mem_cons, onlyAtEnd_iff hext hk hf]
    -- both sides ask that the path end where the extension is found
    rw [and_assoc, and_assoc]
    refine and_congr_right fun hend => ?_
    have hb : pre.length + k + 4 = (pre ++ path).length := by
      rw [List.length_append, ← hend, Nat.add_assoc]
    have hcut' := hcut.next hext hf
    rw [hb] at hcut' ⊢
    by_cases hsmall : (pre ++ path).length < 2 ^ 31
    · -- the next start is the next path
      rw [int32_of_nonneg_of_lt (by omega) (by omega),
        ih (fun q hq => hsuffix q (List.mem_cons_of_mem _ hq)) _ hsmall hcut',
        and_iff_right (show k < 2 ^ 31 by omega), List.length_append,
        fitsFrom_cons_of_lt (by rwa [List.length_append] at hsmall)]
    · -- the next start is no longer an `int`, and only the last path may end here
      have hstop : IsStop ext (pre ++ path ++ rest.flatten) (pre.length + k) := by
        refine ⟨((findFrom_eq_some_iff hext.ne_nil _ _ _).mp hf).2.1, by omega, fun q hq hocc => ?_⟩
        have hfront := hcut.in_front hext.ne_nil hf q hq hocc
        omega
      rw [fitsFrom_cons_of_le hpre (by omega), ← hb]
      by_cases hkint : k < 2 ^ 31
      · rw [and_iff_right hkint, exists_scanPaths_behind_stop hext hstop (by omega) (by omega)]
        constructor
        · rintro ⟨hlt, rfl⟩
          exact ⟨fun q hq => absurd hq List.not_mem_nil, rfl, by omega, by omega⟩
        · rintro ⟨-, hlast, hlt, -⟩
          exact ⟨by omega, hlast⟩
      · exact iff_of_false (fun h => hkint h.1) fun h => by omega

theorem scanPaths_flatten_eq_iff (hext : IsExtension ext) {paths : List Text}
    (hsuffix : ∀ path ∈ paths, ext <:+ path) :
    scanPaths ext paths.flatten (paths.flatten.length + 1) 0 = some paths ↔
      Recoverable ext paths := by
  rw [← scanPaths_eq_some_iff hext]
  have h := exists_scanPaths_eq_iff hext paths hsuffix [] (by norm_num)
    (fun q hq => absurd hq (Nat.not_lt_zero q))
  simpa [Recoverable] using h

/-! ## Printing and reading back -/

/-- **The listing is read back exactly when it is recoverable.**  `find` prints the paths, the
program reads them through its pipe and scans them into empty lists.  The playlist and the rows
come out as the paths and their base names precisely for the lists of paths described by
`Recoverable`. -/
theorem scan_printLines_iff {W : Type} (sh : Shell W) {ext usbPath : Text} {paths : List Text}
    {m : MediaShelf} (hext : ext = songsExt ∨ ext = videosExt)
    (hpaths : ∀ path ∈ paths, ext <:+ path ∧ '\n' ∉ path)
    (hprint : sh.popen (.findFiles usbPath ext) = some (printLines paths))
    (hempty : m.rows = [] ∧ m.playList.media = []) :
    (∃ m', scan ext (getStdoutFromCommand sh (.findFiles usbPath ext)) m = some m' ∧
        m'.playList.media = paths ∧ m'.rows = paths.map baseName) ↔
      Recoverable ext paths := by
  have hisext : IsExtension ext := by
    rcases hext with rfl | rfl
    · exact isExtension_songsExt
    · exact isExtension_videosExt
  rw [getStdoutFromCommand_some hprint, filter_printLines fun path hp => (hpaths path hp).2,
    ← scanPaths_flatten_eq_iff hisext fun path hp => (hpaths path hp).1, scan_eq]
  have hfile : fileName = baseName := funext fileName_eq_baseName
  constructor
  · rintro ⟨m', hm', hmedia, -⟩
    obtain ⟨paths', hscan, rfl⟩ := Option.map_eq_some_iff.mp hm'
    rw [MediaShelf.addFiles_media, hempty.2, List.nil_append] at hmedia
    rw [hscan, hmedia]
  · intro hscan
    refine ⟨m.addFiles paths, by rw [hscan, Option.map_some], ?_, ?_⟩
    · rw [MediaShelf.addFiles_media, hempty.2, List.nil_append]
    · rw [MediaShelf.addFiles_rows, hempty.1, List.nil_append, hfile]

/-- A machine on which `find` finds the given songs and nothing else can be run. -/
def songsShell (paths : List Text) : Shell Unit where
  popen
    | .findFiles _ _ => some (printLines paths)
    | _ => none
  system _ w := (1, w)

/-- Two songs in the top directory are read back. -/
theorem scan_two_songs :
    let paths := ["/media/sda1/a.mp3".toList, "/media/sda1/b.mp3".toList]
    ∃ m', scan songsExt
        (getStdoutFromCommand (songsShell paths) (.findFiles "/media/sda1/".toList songsExt)) .new =
          some m' ∧ m'.playList.media = paths ∧ m'.rows = paths.map baseName := by
  refine (scan_printLines_iff (songsShell _) (Or.inl rfl) (by decide) rfl ⟨rfl, rfl⟩).mpr
    ((scanPaths_flatten_eq_iff isExtension_songsExt (by decide)).mp (by decide +kernel))

/-- A song in a directory whose own name ends in the extension is not. -/
theorem scan_song_in_mp3_directory :
    let paths := ["/media/sda1/x.mp3/a.mp3".toList]
    (∀ path ∈ paths, songsExt <:+ path ∧ '\n' ∉ path) ∧
      ¬ ∃ m', scan songsExt
        (getStdoutFromCommand (songsShell paths) (.findFiles "/media/sda1/".toList songsExt)) .new =
          some m' ∧ m'.playList.media = paths ∧ m'.rows = paths.map baseName := by
  refine ⟨by decide, ?_⟩
  rintro ⟨m', hscan, hmedia, -⟩
  have hcut : ((scan songsExt (getStdoutFromCommand (songsShell ["/media/sda1/x.mp3/a.mp3".toList])
      (.findFiles "/media/sda1/".toList songsExt)) .new).map fun m => m.playList.media) =
      some ["/media/sda1/x.mp3".toList, "/a.mp3".toList] := by
    decide +kernel
  rw [hscan, Option.map_some, hmedia] at hcut
  exact absurd hcut (by decide)

end Infotainment
