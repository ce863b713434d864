import Infotainment.ScanRoundTrip
import Infotainment.Transitions

/-!
# Rows and media

A click on row `i` addresses entry `i` of the playlist, and the program takes the name of entry `i`
from row `i`.  Both rely on the list widget and the playlist being parallel: as many rows as media,
and row `i` the base name of medium `i`.

Nothing but `updateSongsList` and `updateVideosList` touches either list, so the question is what
they do to parallel lists.  Removal clears both and keeps them parallel.  Insertion clears the rows
--- "just to make sure that any old displayed song is removed" --- but appends to the playlist as
it is, so it keeps them parallel exactly when the playlist was empty (`update_parallel_iff`).  It
was not if the previous stick was pulled out and could not be unmounted, for then nothing was
cleared.

`lists_parallel_iff` follows that through whole runs.
-/

namespace Infotainment

open EventSystem

namespace MediaShelf

/-- As many rows as media, and each row the base name of its medium. -/
def Parallel (m : MediaShelf) : Prop :=
  m.rows.length = m.playList.media.length ∧
    ∀ (i : ℕ) (h : i < m.rows.length) (h' : i < m.playList.media.length),
      m.rows[i] = baseName m.playList.media[i]

theorem parallel_iff {m : MediaShelf} :
    m.Parallel ↔ m.rows = m.playList.media.map baseName := by
  constructor
  · rintro ⟨hlen, hrows⟩
    refine List.ext_getElem (by simpa using hlen) fun i h h' => ?_
    rw [List.getElem_map]
    exact hrows i h _
  · intro h
    refine ⟨by rw [h, List.length_map], fun i hi hi' => ?_⟩
    simp only [h, List.getElem_map]

instance (m : MediaShelf) : Decidable m.Parallel := decidable_of_iff _ parallel_iff.symm

theorem parallel_new : new.Parallel := by decide

theorem SameFiles.parallel_iff {m m' : MediaShelf} (h : SameFiles m m') :
    m'.Parallel ↔ m.Parallel := by
  rw [MediaShelf.parallel_iff, MediaShelf.parallel_iff, h.rows, h.media]

theorem Parallel.setCurrentIndex {m : MediaShelf} (h : m.Parallel) (pos : ℤ) :
    (m.setCurrentIndex pos).Parallel :=
  (Moves.setCurrentIndex (P := fun _ => True) m pos).sameFiles.parallel_iff.mpr h

/-- Appending to the playlist while the rows start afresh keeps them parallel only if there was
nothing before. -/
theorem map_fileName_eq_iff {media paths : List Text} :
    paths.map fileName = (media ++ paths).map baseName ↔ media = [] := by
  rw [funext fileName_eq_baseName]
  constructor
  · intro h
    have hlen := congrArg List.length h
    simp only [List.length_map, List.length_append] at hlen
    exact List.length_eq_zero_iff.mp (by omega)
  · rintro rfl
    rw [List.nil_append]

/-- **Updating parallel lists.** -/
theorem update_parallel_iff {m m' : MediaShelf} {qt : Qt} {ext usbPath count list : Text}
    {mode : PlaybackMode} {flashStatus : FlashStatus} (hm : m.Parallel)
    (h : m.update qt ext mode flashStatus usbPath count list = some m') :
    m'.Parallel ↔
      (flashStatus = .flashDetected → count ≠ zeroCount → m.playList.media = []) := by
  rcases update_cases h with ⟨rfl, -, rfl⟩ | ⟨rfl, -, rfl⟩ | ⟨rfl, hcount, rfl⟩ |
    ⟨rfl, hcount, paths, -, rfl⟩
  · have hclear : ({ m.clear with listed := none } : MediaShelf).Parallel := parallel_new
    simp [hclear]
  · have hsame : ({ m with listed := none } : MediaShelf).Parallel := hm
    simp [hsame]
  · have hsame : ({ m with listShown := false, zeroGroupShown := true, listed := some usbPath } :
        MediaShelf).Parallel := hm
    simp [hsame, hcount]
  · rw [parallel_iff, filled_rows, filled_media, map_fileName_eq_iff]
    simp [hcount]

end MediaShelf

open MediaShelf

variable {W : Type} {qt : Qt}

/-! ## Both lists -/

namespace State

variable (s : State)

/-- Either list is parallel to its playlist. -/
def ListsParallel : Prop := s.songs.Parallel ∧ s.videos.Parallel

instance : Decidable s.ListsParallel := inferInstanceAs (Decidable (_ ∧ _))

end State

/-- The poll takes the insertion branch. -/
def FindsNewStick (sh : Shell W) (s : State) : Prop :=
  devicesConnected sh ≠ [] ∧ s.flashStatus = .noFlashDetected

/-- The stick the poll sees has files with the extension, as far as `ls | grep | wc` goes. -/
def CountsFiles (sh : Shell W) (ext : Text) : Prop :=
  getStdoutFromCommand sh (.countFiles (usbPathOf (devicesConnected sh)) ext) ≠ zeroCount

/-- When the event lists the songs of a new stick, the playlist it fills is empty. -/
def FillsEmptySongs (s : State) (e : Event W) : Prop :=
  e.OnPoll fun sh => FindsNewStick sh s → CountsFiles sh songsExt → s.songs.playList.media = []

/-- When the event lists a new stick, the playlists it fills are empty. -/
def FillsEmptyLists (s : State) (e : Event W) : Prop :=
  e.OnPoll fun sh => FindsNewStick sh s →
    (CountsFiles sh songsExt → s.songs.playList.media = []) ∧
    (CountsFiles sh videosExt → s.videos.playList.media = [])

instance (sh : Shell W) (s : State) : Decidable (FindsNewStick sh s) :=
  inferInstanceAs (Decidable (_ ∧ _))

instance (sh : Shell W) (ext : Text) : Decidable (CountsFiles sh ext) :=
  inferInstanceAs (Decidable (_ ≠ _))

instance (s : State) (e : Event W) : Decidable (FillsEmptySongs s e) :=
  inferInstanceAs (Decidable (e.OnPoll _))

instance (s : State) (e : Event W) : Decidable (FillsEmptyLists s e) :=
  inferInstanceAs (Decidable (e.OnPoll _))

theorem FillsEmptyLists.songs {s : State} {e : Event W} (h : FillsEmptyLists s e) :
    FillsEmptySongs s e :=
  Event.OnPoll.mono h fun _ hfills hnew => (hfills hnew).1

theorem UiEffect.listsParallel_iff {s s' : State} (h : UiEffect s s') :
    s'.ListsParallel ↔ s.ListsParallel := by
  show s'.songs.Parallel ∧ s'.videos.Parallel ↔ s.songs.Parallel ∧ s.videos.Parallel
  rw [h.songs.sameFiles.parallel_iff, h.videos.sameFiles.parallel_iff]

/-- From parallel lists, the poll leads to parallel lists exactly when it fills empty ones. -/
theorem PollOutcome.listsParallel_iff {sh : Shell W} {s : State} {w : W} {c : State × W}
    (h : PollOutcome qt sh s w c) (hs : s.ListsParallel) :
    c.1.ListsParallel ↔ FillsEmptyLists s (.poll sh) := by
  obtain ⟨hsongs, hvideos⟩ := hs
  cases h with
  | inserted m v text hdev hflash hm hv =>
    have hparallel : m.Parallel ∧ v.Parallel ↔
        (CountsFiles sh songsExt → s.songs.playList.media = []) ∧
        (CountsFiles sh videosExt → s.videos.playList.media = []) :=
      and_congr ((update_parallel_iff hsongs hm).trans (forall_prop_of_true rfl))
        ((update_parallel_iff hvideos hv).trans (forall_prop_of_true rfl))
    have hnew : FindsNewStick sh s := ⟨hdev, hflash⟩
    simpa [State.ListsParallel, FillsEmptyLists, hnew] using hparallel
  | removed m v text hdev hflash hdetach hm hv =>
    have hm' : m.Parallel := (update_parallel_iff hsongs hm).mpr (fun h => absurd h (by decide))
    have hv' : v.Parallel := (update_parallel_iff hvideos hv).mpr (fun h => absurd h (by decide))
    simp [State.ListsParallel, FillsEmptyLists, FindsNewStick, hdev, hm', hv']
  | notDetached hdev hflash hdetach =>
    simp [State.ListsParallel, FillsEmptyLists, FindsNewStick, hdev, hsongs, hvideos]
  | noUsb hdev hflash =>
    simp [State.ListsParallel, State.noUsb, FillsEmptyLists, FindsNewStick, hdev, hsongs, hvideos]
  | unchanged hdev hflash =>
    simp [State.ListsParallel, FillsEmptyLists, FindsNewStick, hflash, hsongs, hvideos]

/-- The same for every event. -/
theorem step_listsParallel_iff {e : Event W} {c c' : State × W} (h : step qt e c = .ok c')
    (hc : c.1.ListsParallel) : c'.1.ListsParallel ↔ FillsEmptyLists c.1 e := by
  rcases step_cases h with ⟨sh, rfl, hpoll⟩ | ⟨he, hui, -⟩
  · exact hpoll.listsParallel_iff hc
  · rw [(uiStep_effect e hui).listsParallel_iff]
    exact iff_of_true hc (e.onPoll_of_ne he _)

theorem listsParallel_startup : startup.ListsParallel := ⟨parallel_new, parallel_new⟩

/-- A run whose sticks all find empty the playlists they fill ends in parallel lists. -/
theorem listsParallel_of_fills {l : List (Transition (State × W) (Event W))} {c : State × W}
    (h : (anyEvents qt W).History l c) (hl : ∀ x ∈ l, FillsEmptyLists x.before.1 x.event) :
    c.1.ListsParallel := by
  refine h.guarded (I := fun c' => c'.1.ListsParallel)
    (fun c' hc' => hc' ▸ listsParallel_startup) ?_ hl
  intro x hx hI hC
  exact (step_listsParallel_iff hx.2 hI).mpr hC

/-- A machine with one device, or none if the name is empty.  The device is a usb stick with these
files in its top directory, and every command exits with the same status. -/
def stickShell (dev : Text) (songs videos : List Text) (status : ℤ) : Shell Unit where
  popen
    | .listDevices => some (dev ++ ['\n'])
    | .udevadm name => some (if name = dev then "E: ID_BUS=usb".toList else [])
    | .countFiles _ ext =>
      some (Nat.toDigits 10 (if ext = songsExt then songs else videos).length)
    | .findFiles path ext =>
      some (printLines ((if ext = songsExt then songs else videos).map (path ++ ·)))
    | _ => some []
  system _ w := (status, w)

/-- **The lists stay parallel along a run exactly when every new stick finds empty the playlists
it fills.** -/
theorem lists_parallel_iff {l : List (Transition (State × W) (Event W))} {c : State × W}
    (h : (anyEvents qt W).History l c) :
    (∀ c', Machine.Visits l c c' → c'.1.ListsParallel) ↔
      ∀ x ∈ l, FillsEmptyLists x.before.1 x.event := by
  have h0 : ∀ c : State × W, c.1 = startup → c.1.ListsParallel :=
    fun c hc => hc ▸ listsParallel_startup
  rw [h.forall_visits_iff (P := fun c' => c'.1.ListsParallel) h0]
  refine h.forall_iff (J := fun c' => c'.1.ListsParallel) h0 ?_ ?_
  · intro x hx hJ
    exact step_listsParallel_iff hx.2 hJ
  · intro x hx hJ hC
    exact (step_listsParallel_iff hx.2 hJ).mpr hC

/-- A stick is plugged in, pulled out, and plugged in again; it is unmounted in between. -/
theorem lists_parallel_after_unmount :
    ∃ l c, (anyEvents ⟨false⟩ Unit).History l c ∧ l.length = 3 ∧ c.1.songs.rows ≠ [] ∧
      ∀ c', Machine.Visits l c c' → c'.1.ListsParallel := by
  obtain ⟨l, c, hl, -, hp⟩ := Machine.exists_history_of_replay (M := anyEvents ⟨false⟩ Unit)
    (s := (startup, ())) rfl
    [.poll (stickShell "sda1".toList ["a.mp3".toList] [] 0), .poll (stickShell [] [] [] 0),
      .poll (stickShell "sda1".toList ["a.mp3".toList] [] 0)]
    (fun l c => decide (l.length = 3 ∧ c.1.songs.rows ≠ [] ∧
      ∀ x ∈ l, FillsEmptyLists x.before.1 x.event)) (by decide +kernel)
  obtain ⟨hlen, hrows, hC⟩ := of_decide_eq_true hp
  exact ⟨l, c, hl, hlen, hrows, (lists_parallel_iff hl).mpr hC⟩

/-- When it cannot be unmounted in between, the song list has one row and its playlist two media. -/
theorem lists_not_parallel_after_failed_unmount :
    ¬ ∃ qt : Qt, ∀ l c, (anyEvents qt Unit).History l c → c.1.ListsParallel := by
  rintro ⟨⟨rewinds⟩, hall⟩
  obtain ⟨l, c, hl, -, hp⟩ := Machine.exists_history_of_replay (M := anyEvents ⟨rewinds⟩ Unit)
    (s := (startup, ())) rfl
    [.poll (stickShell "sda1".toList ["a.mp3".toList] [] 0), .poll (stickShell [] [] [] 1),
      .poll (stickShell "sda1".toList ["a.mp3".toList] [] 0)]
    (fun _ c => decide ¬ c.1.ListsParallel) (by cases rewinds <;> decide +kernel)
  exact of_decide_eq_true hp (hall l c hl)

end Infotainment
