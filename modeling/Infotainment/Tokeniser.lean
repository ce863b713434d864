import Infotainment.ScanRoundTrip

/-!
# The scan as a tokeniser

A text that ends in the extension falls into pieces that end in it and contain it nowhere else.
Since occurrences of the extension do not overlap, it is cut so behind every occurrence
(`exists_cuts`, `Cuts.count_eq`).

The scan loop makes these pieces, in as many rounds as there are occurrences, as long as the
positions it computes fit an `int`.  Which those are is said of the text itself: only the last piece
matters, where it begins, where it ends and how long it is (`tokenises_iff`).
-/

namespace Infotainment

open Occurrence

variable {ext : Text}

/-! ## Cutting behind every occurrence -/

/-- The pieces make up the text, and each ends in the extension and contains it nowhere else. -/
structure Cuts (ext s : Text) (paths : List Text) : Prop where
  flatten_eq : paths.flatten = s
  ends : ∀ path ∈ paths, ext <:+ path
  only : ∀ path ∈ paths, OnlyAtEnd ext path

/-- The first piece ends behind the first occurrence. -/
theorem exists_first_piece (hext : IsExtension ext) {s : Text} (hs : ext <:+ s) :
    ∃ u rest, s = u ++ ext ++ rest ∧ OnlyAtEnd ext (u ++ ext) ∧ (rest = [] ∨ ext <:+ rest) := by
  obtain ⟨hle, hlast⟩ := suffix_iff_occursAt.mp hs
  obtain ⟨k, hf, hk⟩ := exists_findFrom_le hext.ne_nil (Nat.zero_le _) hlast
  obtain ⟨-, ⟨rest, hrest⟩, hmin⟩ := (findFrom_eq_some_iff hext.ne_nil s 0 k).mp hf
  have hocc : OccursAt ext s k := ⟨rest, hrest⟩
  have hlen := hocc.add_length_le hext.ne_nil
  have hsplit : s = s.take k ++ ext ++ rest := by
    rw [List.append_assoc, hrest, List.take_append_drop]
  have hfront : (s.take k ++ ext).length = k + ext.length := by
    rw [List.length_append, List.length_take, min_eq_left (by omega)]
  refine ⟨s.take k, rest, hsplit, fun p hp => ?_, ?_⟩
  · have hpk := hp.add_length_le hext.ne_nil
    have hp' : OccursAt ext s p := by
      rw [hsplit]
      exact (occursAt_append_right hpk).mpr hp
    by_contra hne
    exact hmin p (Nat.zero_le p) (by omega) hp'
  · rcases hk.eq_or_lt with rfl | hlt
    · left
      have hall := congrArg List.length hsplit
      rw [List.length_append, hfront] at hall
      exact List.length_eq_zero_iff.mp (by omega)
    · right
      -- the last occurrence does not overlap the first, so it is in the rest
      have hbehind := add_length_le_of_lt hext.unbordered hlt hocc hlast
      have hrestlen := congrArg List.length hsplit
      rw [List.length_append, hfront] at hrestlen
      refine suffix_iff_occursAt.mpr ⟨by omega, ?_⟩
      rw [hsplit] at hlast
      have hpos : (s.take k ++ ext ++ rest).length - ext.length =
          (s.take k ++ ext).length + (rest.length - ext.length) := by
        rw [List.length_append]
        omega
      rw [hpos] at hlast
      exact occursAt_append_left.mp hlast

theorem exists_cuts (hext : IsExtension ext) {s : Text} (hs : ext <:+ s) :
    ∃ paths, Cuts ext s paths := by
  induction hn : s.length using Nat.strong_induction_on generalizing s with
  | _ n ih =>
    obtain ⟨u, rest, rfl, honly, hrest⟩ := exists_first_piece hext hs
    have hends : ext <:+ u ++ ext := List.suffix_append u ext
    rcases hrest with rfl | hrest
    · refine ⟨[u ++ ext], by simp, ?_, ?_⟩ <;> rintro path hpath <;>
        obtain rfl := List.mem_singleton.mp hpath
      · exact hends
      · exact honly
    · have hlt : rest.length < n := by
        have hlen := hext.length_eq
        simp only [List.length_append] at hn
        omega
      obtain ⟨paths, hflat, hends', honly'⟩ := ih _ hlt hrest rfl
      refine ⟨(u ++ ext) :: paths, by rw [List.flatten_cons, hflat], ?_, ?_⟩
      · exact List.forall_mem_cons.mpr ⟨hends, hends'⟩
      · exact List.forall_mem_cons.mpr ⟨honly, honly'⟩

/-- A piece in front adds one occurrence. -/
theorem count_piece_append (hext : IsExtension ext) {path : Text} (hends : ext <:+ path)
    (honly : OnlyAtEnd ext path) (rest : Text) :
    count ext (path ++ rest) = count ext rest + 1 := by
  obtain ⟨hle, hocc⟩ := suffix_iff_occursAt.mp hends
  have hpos := hext.length_eq
  have hocc' : OccursAt ext (path ++ rest) (path.length - ext.length) :=
    (occursAt_append_right (by omega)).mpr hocc
  refine count_append (a := path.length - ext.length) (by omega) fun p hp => ⟨fun h => ?_, ?_⟩
  · by_cases hin : p + ext.length ≤ path.length
    · have := honly p ((occursAt_append_right hin).mp h)
      omega
    · have := add_length_le_of_lt hext.unbordered (by omega) hocc' h
      omega
  · rintro rfl
    exact hocc'

/-- **There are as many pieces as occurrences.** -/
theorem Cuts.count_eq (hext : IsExtension ext) {s : Text} {paths : List Text}
    (h : Cuts ext s paths) : count ext s = paths.length := by
  obtain ⟨rfl, hends, honly⟩ := h
  induction paths with
  | nil => exact count_nil hext.ne_nil
  | cons path paths ih =>
    rw [List.forall_mem_cons] at hends honly
    rw [List.flatten_cons, count_piece_append hext hends.1 honly.1, ih hends.2 honly.2,
      List.length_cons]

/-! ## Rounds -/

/-- The loop makes one round for each piece, and one look at the position more. -/
theorem scanPaths_isSome_iff {list : Text} {fuel : ℕ} {start : ℤ} {paths : List Text}
    (h : scanPaths ext list fuel start = some paths) (fuel' : ℕ) :
    (scanPaths ext list fuel' start).isSome = true ↔ paths.length < fuel' := by
  induction fuel generalizing fuel' start paths with
  | zero => simp [scanPaths] at h
  | succ fuel ih =>
    cases fuel' with
    | zero => simp [scanPaths]
    | succ fuel' =>
      rw [scanPaths] at h ⊢
      split_ifs at h ⊢ with hguard
      · obtain ⟨rest, hrest, rfl⟩ := Option.map_eq_some_iff.mp h
        rw [Option.isSome_map, ih hrest fuel', List.length_cons, Nat.succ_lt_succ_iff]
      · obtain rfl := Option.some.inj h
        simp

/-! ## Where the last piece begins -/

/-- The last piece begins at `e`: at the beginning of the text or behind an occurrence, with no
occurrence from there on but the one the text ends in. -/
structure IsLastCut (ext s : Text) (e : ℕ) : Prop where
  cut : e = 0 ∨ ∃ q, OccursAt ext s q ∧ q + ext.length = e
  lt : e < s.length
  last : ∀ p, e ≤ p → OccursAt ext s p → p + ext.length = s.length

/-- There is only one such place. -/
theorem IsLastCut.le (hext : IsExtension ext) {s : Text} {e e' : ℕ} (h : IsLastCut ext s e)
    (h' : IsLastCut ext s e') : e ≤ e' := by
  rcases h.cut with rfl | ⟨q, hq, rfl⟩
  · exact Nat.zero_le _
  by_contra hlt
  -- the occurrence in front of `e` is behind `e'`, so the text would end at `e`
  have hle : e' ≤ q := by
    rcases h'.cut with rfl | ⟨q', hq', rfl⟩
    · exact Nat.zero_le _
    · exact add_length_le_of_lt hext.unbordered (by omega) hq' hq
  have hend := h'.last q hle hq
  have hlen := h.lt
  omega

theorem Cuts.isLastCut (hext : IsExtension ext) {s : Text} {front : List Text} {path : Text}
    (h : Cuts ext s (front ++ [path])) : IsLastCut ext s front.flatten.length := by
  obtain ⟨rfl, hends, honly⟩ := h
  have hpath : path ∈ front ++ [path] := List.mem_append_right _ (List.mem_singleton_self path)
  have hflat : (front ++ [path]).flatten = front.flatten ++ path := by simp
  have hlen := (hends path hpath).length_le
  have hpos := hext.length_eq
  rw [hflat]
  refine ⟨?_, by rw [List.length_append]; omega, fun p hp hocc => ?_⟩
  · rcases List.eq_nil_or_concat' front with rfl | ⟨front, path', rfl⟩
    · exact Or.inl rfl
    · right
      have hsuffix : ext <:+ (front ++ [path']).flatten := by
        refine (hends path' (by simp)).trans ?_
        rw [List.flatten_append, List.flatten_singleton]
        exact List.suffix_append _ _
      obtain ⟨hle, hocc⟩ := suffix_iff_occursAt.mp hsuffix
      refine ⟨_, (occursAt_append_right (by omega)).mpr hocc, by omega⟩
  · obtain ⟨p, rfl⟩ := Nat.exists_eq_add_of_le hp
    have hend := honly path hpath p (occursAt_append_left.mp hocc)
    rw [List.length_append]
    omega

/-- The last piece begins at an `int` position, is not too long for its length to be one, and ends
before positions come back to the front of the text. -/
def FitsInt (ext s : Text) : Prop :=
  ∃ e, IsLastCut ext s e ∧ e < 2 ^ 31 ∧ s.length < 2 ^ 32 ∧ s.length < e + 2 ^ 31 + 4

/-- **The lengths, read on the text.** -/
theorem Cuts.fitsFrom_iff (hext : IsExtension ext) {s : Text} {paths : List Text}
    (h : Cuts ext s paths) (hs : s ≠ []) : FitsFrom 0 paths ↔ FitsInt ext s := by
  rcases List.eq_nil_or_concat' paths with rfl | ⟨front, path, rfl⟩
  · exact absurd h.flatten_eq.symm hs
  have hcut := h.isLastCut hext
  have hlen : s.length = front.flatten.length + path.length := by
    rw [← h.flatten_eq]
    simp
  constructor
  · intro hfits
    obtain ⟨hfront, hall, hpath⟩ := hfits front path rfl
    exact ⟨_, hcut, by omega, by omega, by omega⟩
  · rintro ⟨e, he, hfront, hall, hpath⟩ front' path' heq
    obtain ⟨rfl, heq⟩ := List.append_inj' heq rfl
    obtain rfl : path = path' := by simpa using heq
    obtain rfl : e = front.flatten.length := le_antisymm (he.le hext hcut) (hcut.le hext he)
    omega

/-! ## Names -/

/-- The longest suffix without a slash. -/
structure IsLongestName (path name : Text) : Prop where
  suffix : name <:+ path
  no_slash : '/' ∉ name
  longest : ∀ t, t <:+ path → '/' ∉ t → t <:+ name

theorem isLongestName_baseName (path : Text) : IsLongestName path (baseName path) := by
  by_cases hslash : '/' ∈ path
  · cases hr : rfind '/' path with
    | none => exact absurd hslash (rfind_eq_none.mp hr)
    | some k =>
      obtain ⟨u, v, rfl, -, hv⟩ := rfind_eq_some hr
      have hsuffix : v <:+ u ++ '/' :: v := ⟨u ++ ['/'], by simp⟩
      rw [baseName_append_slash hv]
      refine ⟨hsuffix, hv, fun t ht htslash => ?_⟩
      rcases List.suffix_or_suffix_of_suffix ht hsuffix with h | ⟨w, rfl⟩
      · exact h
      -- a longer suffix would reach back to the slash
      obtain ⟨x, hx⟩ := ht
      have hsame : x ++ w ++ v = u ++ ['/'] ++ v := by
        rw [List.append_assoc, hx, List.append_assoc, List.singleton_append]
      have hcancel := List.append_cancel_right hsame
      rcases List.eq_nil_or_concat' w with rfl | ⟨w, c, rfl⟩
      · exact List.suffix_rfl
      · rw [← List.append_assoc] at hcancel
        obtain ⟨-, hc⟩ := List.append_inj' hcancel rfl
        exact absurd (by simp [hc]) htslash
  · rw [baseName_eq_self hslash]
    exact ⟨List.suffix_rfl, hslash, fun t ht _ => ht⟩

/-! ## The tokeniser -/

/-- **Tokenising.**  With these paths the loop of `updateSongsList` and `updateVideosList` is a
lossless tokeniser of the text.  The fuel counts the looks the loop takes at its position, which is
one more than its rounds. -/
structure Tokenises (ext s : Text) (paths : List Text) : Prop where
  rounds : ∀ (m : MediaShelf) (fuel : ℕ),
    (scanLoop ext s fuel 0 m).isSome = true ↔ count ext s < fuel
  added : ∀ (m m' : MediaShelf) (fuel : ℕ), scanLoop ext s fuel 0 m = some m' →
    m'.playList.media = m.playList.media ++ paths ∧ m'.rows = m.rows ++ paths.map baseName
  flatten_eq : paths.flatten = s
  ends : ∀ path ∈ paths, ext <:+ path
  only : ∀ path ∈ paths, OnlyAtEnd ext path
  names : ∀ path ∈ paths, IsLongestName path (baseName path)

theorem scanPaths_of_tokenises {s : Text} {paths : List Text} (h : Tokenises ext s paths) :
    ∃ fuel, scanPaths ext s fuel 0 = some paths := by
  have hends := (h.rounds .new (count ext s + 1)).mpr (Nat.lt_succ_self _)
  obtain ⟨m', hm'⟩ := Option.isSome_iff_exists.mp hends
  have hmedia := (h.added .new m' _ hm').1
  rw [scanLoop_eq, Option.map_eq_some_iff] at hm'
  obtain ⟨paths', hpaths, rfl⟩ := hm'
  rw [MediaShelf.addFiles_media, List.append_cancel_left_eq] at hmedia
  exact ⟨_, hmedia ▸ hpaths⟩

theorem tokenises_of_scanPaths (hext : IsExtension ext) {s : Text} {paths : List Text} {fuel : ℕ}
    (hcuts : Cuts ext s paths) (hscan : scanPaths ext s fuel 0 = some paths) :
    Tokenises ext s paths where
  rounds m fuel' := by
    rw [scanLoop_eq, Option.isSome_map, scanPaths_isSome_iff hscan, hcuts.count_eq hext]
  added m m' fuel' h := by
    rw [scanLoop_eq, Option.map_eq_some_iff] at h
    obtain ⟨paths', hpaths, rfl⟩ := h
    have hmax := scanPaths_mono hscan (le_max_left fuel fuel')
    rw [scanPaths_mono hpaths (le_max_right fuel fuel')] at hmax
    obtain rfl := Option.some.inj hmax
    have hnames : fileName = baseName := funext fileName_eq_baseName
    rw [MediaShelf.addFiles_media, MediaShelf.addFiles_rows, hnames]
    exact ⟨rfl, rfl⟩
  flatten_eq := hcuts.flatten_eq
  ends := hcuts.ends
  only := hcuts.only
  names path _ := isLongestName_baseName path

theorem exists_tokenises_iff (hext : IsExtension ext) {s : Text} (hs : ext <:+ s) :
    (∃ paths, Tokenises ext s paths) ↔ FitsInt ext s := by
  have hne : s ≠ [] := fun hnil => hext.ne_nil (List.suffix_nil.mp (hnil ▸ hs))
  constructor
  · rintro ⟨paths, h⟩
    have hcuts : Cuts ext s paths := ⟨h.flatten_eq, h.ends, h.only⟩
    have hscan := (scanPaths_eq_some_iff hext).mp (scanPaths_of_tokenises h)
    rw [← h.flatten_eq, scanPaths_flatten_eq_iff hext h.ends] at hscan
    exact (hcuts.fitsFrom_iff hext hne).mp hscan.2
  · intro hfits
    obtain ⟨paths, hcuts⟩ := exists_cuts hext hs
    have hscan := (scanPaths_flatten_eq_iff hext hcuts.ends).mpr
      ⟨hcuts.only, (hcuts.fitsFrom_iff hext hne).mpr hfits⟩
    rw [hcuts.flatten_eq] at hscan
    exact ⟨paths, tokenises_of_scanPaths hext hcuts hscan⟩

/-- **When the scan is a lossless tokeniser**, for either extension and every text that ends in
it. -/
theorem tokenises_iff (hext : ext = songsExt ∨ ext = videosExt) {s : Text} (hs : ext <:+ s) :
    (∃ paths, Tokenises ext s paths) ↔ FitsInt ext s := by
  rcases hext with rfl | rfl
  · exact exists_tokenises_iff isExtension_songsExt hs
  · exact exists_tokenises_iff isExtension_videosExt hs

/-- Two pieces, of which the first is nothing but the extension. -/
theorem two_songs_tokenised : ∃ paths, Tokenises songsExt ".mp3/a.mp3".toList paths := by
  have hlast : ∀ p, 4 ≤ p → OccursAt songsExt ".mp3/a.mp3".toList p →
      p + songsExt.length = ".mp3/a.mp3".toList.length := by
    intro p hp hocc
    have hlen : p + 4 ≤ 10 := hocc.add_length_le (by decide)
    obtain rfl | rfl | rfl : p = 4 ∨ p = 5 ∨ p = 6 := by omega
    · exact absurd hocc (by decide)
    · exact absurd hocc (by decide)
    · rfl
  refine (tokenises_iff (Or.inl rfl) (by decide)).mpr
    ⟨4, ⟨Or.inr ⟨0, by decide, rfl⟩, by decide, hlast⟩, by decide, by decide, by decide⟩

/-- A text of 4 GiB and four characters, with one occurrence at its end. -/
theorem long_text_not_tokenised :
    ¬ ∀ (ext s : Text), (ext = songsExt ∨ ext = videosExt) → ext <:+ s →
      ∃ paths, Tokenises ext s paths := by
  intro hall
  have hfits := (exists_tokenises_iff isExtension_songsExt (List.suffix_append _ songsExt)).mp
    (hall songsExt (List.replicate (2 ^ 32) 'a' ++ songsExt) (Or.inl rfl)
      (List.suffix_append _ _))
  obtain ⟨e, -, -, hlen, -⟩ := hfits
  rw [List.length_append, List.length_replicate] at hlen
  omega

end Infotainment
