import Infotainment.ParallelLists

/-!
# When a poll returns

The flash poll can fail in two ways, and both are about listing a stick.  The scan of a list may
never come to the end of what `find` printed.  And where songs were counted but `find` printed
nothing, the rows have been cleared and none comes in; if the playlist still has the songs of an
earlier stick and is rewound, `onSongChange` reads the row of its first entry, which is not there.

A removal cannot fail: where the lists are cleared no entry is current, and no row is read.

`updateFlashStatus_eq_error_iff` says when a poll fails and how, from any state and on any machine,
and `poll_returns_iff` is the other side of it.
-/

namespace Infotainment

open EventSystem MediaShelf

variable {W : Type} {qt : Qt} {sh : Shell W} {s : State} {fault : Fault}

/-! ## What stands in the way -/

/-- The poll finds the stick gone. -/
def FindsStickGone (sh : Shell W) (s : State) : Prop :=
  devicesConnected sh = [] ∧ s.flashStatus = .flashDetected

instance (sh : Shell W) (s : State) : Decidable (FindsStickGone sh s) :=
  inferInstanceAs (Decidable (_ ∧ _))

/-- What `find` prints of the stick the poll sees. -/
def foundFiles (sh : Shell W) (ext : Text) : Text :=
  getStdoutFromCommand sh (.findFiles (usbPathOf (devicesConnected sh)) ext)

/-- `find` is asked, and the scan does not end on what it prints. -/
def ScanHangs (sh : Shell W) (ext : Text) : Prop :=
  CountsFiles sh ext ∧ ¬ ScanEnds ext (foundFiles sh ext)

/-- Songs are counted and none is found, and a playlist that was filled before is rewound. -/
def RewindsToNoRow (qt : Qt) (sh : Shell W) (s : State) : Prop :=
  CountsFiles sh songsExt ∧ foundFiles sh songsExt = [] ∧ qt.setPlaylistRewinds = true ∧
    s.songs.playList.media ≠ [] ∧ s.songs.playList.currentIndex ≠ 0

instance (qt : Qt) (sh : Shell W) (s : State) : Decidable (RewindsToNoRow qt sh s) :=
  inferInstanceAs (Decidable (_ ∧ _ ∧ _ ∧ _ ≠ _ ∧ _ ≠ _))

/-- If the poll lists a stick, neither scan hangs and no missing row is read. -/
def GetsThrough (qt : Qt) (sh : Shell W) (s : State) : Prop :=
  FindsNewStick sh s →
    ¬ ScanHangs sh songsExt ∧ ¬ ScanHangs sh videosExt ∧ ¬ RewindsToNoRow qt sh s

/-- A scan of nothing ends. -/
theorem RewindsToNoRow.not_scanHangs (h : RewindsToNoRow qt sh s) : ¬ ScanHangs sh songsExt :=
  fun hhangs => hhangs.2 (h.2.1 ▸ Or.inl (Nat.zero_le 3))

/-! ## The two updates -/

theorem updateList_eq_none_iff {m : MediaShelf} {ext : Text} {mode : PlaybackMode}
    (hext : IsExtension ext) :
    m.updateList qt sh ext mode .flashDetected (usbPathOf (devicesConnected sh)) = none ↔
      ScanHangs sh ext := by
  rw [← not_iff_not, ← ne_eq, Option.ne_none_iff_exists', updateList, exists_update_iff hext,
    ScanHangs, not_and, not_not]
  rfl

/-- Without a stick the list is cleared or left, and the index goes nowhere. -/
theorem updateList_of_gone (qt : Qt) (sh : Shell W) (m : MediaShelf) (ext : Text)
    (mode : PlaybackMode) (usbPath : Text) :
    ∃ m', m.updateList qt sh ext mode .noFlashDetected usbPath = some m' ∧ ¬ MissesRow m m' := by
  refine ⟨_, rfl, ?_⟩
  split_ifs
  · exact fun hmiss => hmiss.2.1 rfl
  · exact fun hmiss => hmiss.1 rfl

namespace State

/-- The songs come first, and the videos only if they get through. -/
theorem updateLists_eq_error_iff :
    s.updateLists qt sh = .error fault ↔
      (s.songsUpdate qt sh = none ∧ fault = .hang) ∨
        ∃ m, s.songsUpdate qt sh = some m ∧
          ((MissesRow s.songs m ∧ fault = .nullItem) ∨
            (¬ MissesRow s.songs m ∧ s.videosUpdate qt sh = none ∧ fault = .hang)) := by
  rw [updateLists, bind_eq_error_iff, updateSongsList]
  cases hm : s.songsUpdate qt sh with
  | none => simp [eq_comm]
  | some m =>
    simp only [reduceCtorEq, false_and, false_or, Option.some.injEq, exists_eq_left',
      moveSongs_eq_error_iff]
    by_cases hmiss : MissesRow s.songs m
    · have hfails : ∀ s₁, s.moveSongs (fun _ => m) ≠ .ok s₁ := fun s₁ hok => by
        rw [moveSongs_eq_error_iff.mpr ⟨rfl, hmiss⟩] at hok
        exact absurd hok (by simp)
      simp [hmiss, hfails]
    · obtain ⟨s₁, hmove⟩ := exists_moveSongs_of_not_missesRow (s := s) (f := fun _ => m) hmiss
      have hvideos : s₁.videosUpdate qt sh = s.videosUpdate qt sh := by
        obtain ⟨text, -, rfl⟩ := moveSongs_ok hmove
        rfl
      simp only [hmiss, hmove, and_false, false_and, not_false_eq_true, true_and, false_or,
        Except.ok.injEq, exists_eq_left', updateVideosList, hvideos]
      cases s.videosUpdate qt sh <;> simp [eq_comm]

/-- **When a poll fails, and how.** -/
theorem updateFlashStatus_eq_error_iff {w : W} :
    s.updateFlashStatus qt sh w = .error fault ↔ FindsNewStick sh s ∧
      ((RewindsToNoRow qt sh s ∧ fault = .nullItem) ∨
        ((ScanHangs sh songsExt ∨ ¬ RewindsToNoRow qt sh s ∧ ScanHangs sh videosExt) ∧
          fault = .hang)) := by
  rw [updateFlashStatus, map_eq_error_iff, followUsb]
  split_ifs with hnew hgone hno
  · have hfinds : FindsNewStick sh s := hnew
    simp only [hfinds, true_and]
    rw [usbInserted, map_eq_error_iff, updateLists_eq_error_iff]
    have hsongs : (s.withUsb (devicesConnected sh)).songsUpdate qt sh = none ↔ _ :=
      updateList_eq_none_iff isExtension_songsExt
    have hvideos : (s.withUsb (devicesConnected sh)).videosUpdate qt sh = none ↔ _ :=
      updateList_eq_none_iff isExtension_videosExt
    cases hm : (s.withUsb (devicesConnected sh)).songsUpdate qt sh with
    | none =>
      have hhangs := hsongs.mp hm
      have hrow : ¬ RewindsToNoRow qt sh s := fun h => h.not_scanHangs hhangs
      simp [hhangs, hrow]
    | some m =>
      have hends : ¬ ScanHangs sh songsExt := fun h => by simp [hsongs.mpr h] at hm
      have hrow : MissesRow s.songs m ↔ RewindsToNoRow qt sh s := update_missesRow_iff hm
      have hrow' : MissesRow (s.withUsb (devicesConnected sh)).songs m ↔ _ := hrow
      simp only [reduceCtorEq, false_and, false_or, Option.some.injEq, exists_eq_left', hrow',
        hvideos, hends, and_assoc]
  · refine iff_of_false (fun herr => ?_) fun h => h.1.1 hgone.1
    obtain ⟨m, hm, hrow⟩ := updateList_of_gone qt sh s.songs songsExt .sequential s.usbPath
    obtain ⟨v, hv, -⟩ := updateList_of_gone qt sh s.videos videosExt .currentItemOnce s.usbPath
    have hsongs : s.withoutUsb.songsUpdate qt sh = some m := hm
    have hvideos : s.withoutUsb.videosUpdate qt sh = some v := hv
    have hrow' : ¬ MissesRow s.withoutUsb.songs m := hrow
    simp only [usbRemoved] at herr
    split_ifs at herr
    rw [map_eq_error_iff, updateLists_eq_error_iff] at herr
    simp [hsongs, hvideos, hrow'] at herr
  · simp [FindsNewStick, hno]
  · exact iff_of_false (by simp) fun h => hnew h.1

/-- **When a poll returns.** -/
theorem poll_returns_iff {w : W} :
    (∃ c, s.updateFlashStatus qt sh w = .ok c) ↔ GetsThrough qt sh s := by
  have herror : (¬ ∃ c, s.updateFlashStatus qt sh w = .ok c) ↔
      ∃ fault, s.updateFlashStatus qt sh w = .error fault := by
    cases s.updateFlashStatus qt sh w <;> simp
  rw [← not_iff_not, herror, GetsThrough]
  simp only [updateFlashStatus_eq_error_iff]
  constructor
  · rintro ⟨-, hnew, ⟨hrow, -⟩ | ⟨hsongs | ⟨-, hvideos⟩, -⟩⟩ hthrough
    · exact (hthrough hnew).2.2 hrow
    · exact (hthrough hnew).1 hsongs
    · exact (hthrough hnew).2.1 hvideos
  · intro hstuck
    simp only [Classical.not_imp, not_and_or, not_not] at hstuck
    obtain ⟨hnew, hwhy⟩ := hstuck
    by_cases hrow : RewindsToNoRow qt sh s
    · exact ⟨.nullItem, hnew, Or.inl ⟨hrow, rfl⟩⟩
    · refine ⟨.hang, hnew, Or.inr ⟨?_, rfl⟩⟩
      rcases hwhy with hsongs | hvideos | hrow'
      · exact Or.inl hsongs
      · exact Or.inr ⟨hrow, hvideos⟩
      · exact absurd hrow' hrow

end State

/-- A removal always gets through. -/
theorem exists_poll_of_gone (qt : Qt) (w : W) (hgone : FindsStickGone sh s) :
    ∃ c, s.updateFlashStatus qt sh w = .ok c :=
  State.poll_returns_iff.mpr fun hnew => absurd hgone.1 hnew.1

end Infotainment
