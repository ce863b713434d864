import Infotainment.PollTwice
import Infotainment.StickTracking

/-!
# What a poll does to a shelf

`PollOutcome` lists how a poll of the flash timer can end for the whole program.  Seen from one of
the two shelves there are three ways: it is updated for a new stick, it is updated for a stick that
was unmounted, or it is left alone.  `ShelfPoll` says so for either shelf, so that what is true of
both has to be proved once.
-/

namespace Infotainment

open EventSystem MediaShelf

variable {W : Type} {qt : Qt} {sh : Shell W}

/-- A stick is gone, and a poll that finds it gone unmounts it and removes its directory. -/
def DetachesStick (sh : Shell W) (c : State × W) : Prop :=
  FindsStickGone sh c.1 ∧ (detachUsb sh c.1.usbName c.2).1 = true

instance (sh : Shell W) (c : State × W) : Decidable (DetachesStick sh c) :=
  inferInstanceAs (Decidable (_ ∧ _))

theorem not_detachesStick_of_findsNewStick {c : State × W} (h : FindsNewStick sh c.1) :
    ¬ DetachesStick sh c := fun hgone => h.1 hgone.1.1

/-- What a poll makes of a shelf that lists the files with the extension in the mode. -/
inductive ShelfPoll (qt : Qt) (sh : Shell W) (c : State × W) (ext : Text) (mode : PlaybackMode)
    (m : MediaShelf) : MediaShelf → Prop where
  | listed (m' : MediaShelf) : FindsNewStick sh c.1 →
      m.updateList qt sh ext mode .flashDetected (usbPathOf (devicesConnected sh)) = some m' →
      ShelfPoll qt sh c ext mode m m'
  | cleared (m' : MediaShelf) : DetachesStick sh c →
      m.updateList qt sh ext mode .noFlashDetected c.1.usbPath = some m' →
      ShelfPoll qt sh c ext mode m m'
  | unmoved : ¬ FindsNewStick sh c.1 → ¬ DetachesStick sh c → ShelfPoll qt sh c ext mode m m

namespace ShelfPoll

variable {c : State × W} {ext : Text} {mode : PlaybackMode} {m m' : MediaShelf}

/-- A poll starts no player. -/
theorem playing (h : ShelfPoll qt sh c ext mode m m') (hm : m.Sound)
    (hplays : m'.player.playing = true) : m.player.playing = true := by
  cases h with
  | listed _ _ hupdate => exact ((update_playing hm hupdate).mp hplays).1
  | cleared _ _ hupdate => exact ((update_playing hm hupdate).mp hplays).1
  | unmoved => exact hplays

/-- A poll keeps a shelf parallel if it fills an empty one. -/
theorem parallel (h : ShelfPoll qt sh c ext mode m m') (hparallel : m.Parallel)
    (hempty : FindsNewStick sh c.1 → CountsFiles sh ext → m.playList.media = []) :
    m'.Parallel := by
  cases h with
  | listed _ hnew hupdate =>
    exact (update_parallel_iff hparallel hupdate).mpr fun _ => hempty hnew
  | cleared _ hgone hupdate =>
    exact (update_parallel_iff hparallel hupdate).mpr fun hflash => nomatch hflash
  | unmoved hnew hgone => exact hparallel

/-- If a poll moves the index, then to the first entry or to none. -/
theorem currentIndex (h : ShelfPoll qt sh c ext mode m m') :
    m'.playList.currentIndex = m.playList.currentIndex ∨ m'.playList.currentIndex = -1 ∨
      m'.playList.currentIndex = 0 := by
  have hupdated : ∀ {flashStatus : FlashStatus} {usbPath count list : Text},
      m.update qt ext mode flashStatus usbPath count list = some m' →
        m'.playList.currentIndex = m.playList.currentIndex ∨ m'.playList.currentIndex = -1 ∨
          m'.playList.currentIndex = 0 := by
    intro flashStatus usbPath count list hupdate
    rcases update_cases hupdate with ⟨-, -, rfl⟩ | ⟨-, -, rfl⟩ | ⟨-, -, rfl⟩ | ⟨-, -, paths, -, rfl⟩
    · exact Or.inr (Or.inl (QMediaPlaylist.currentIndex_of_media_eq_nil rfl))
    · exact Or.inl rfl
    · exact Or.inl rfl
    · cases hopens : qt.setPlaylistRewinds with
      | false => exact Or.inl (filled_currentIndex_of_not_rewinds hopens)
      | true =>
        by_cases hnil : m.playList.media ++ paths = []
        · exact Or.inr (Or.inl (QMediaPlaylist.currentIndex_of_media_eq_nil
            (filled_media.trans hnil)))
        · exact Or.inr (Or.inr (filled_currentIndex_of_rewinds hopens hnil))
  cases h with
  | listed _ _ hupdate => exact hupdated hupdate
  | cleared _ _ hupdate => exact hupdated hupdate
  | unmoved => exact Or.inl rfl

end ShelfPoll

namespace PollOutcome

variable {s : State} {w : W} {c : State × W}

/-- Both shelves. -/
theorem shelfPolls (h : PollOutcome qt sh s w c) :
    ShelfPoll qt sh (s, w) songsExt .sequential s.songs c.1.songs ∧
      ShelfPoll qt sh (s, w) videosExt .currentItemOnce s.videos c.1.videos := by
  cases h with
  | inserted m v text hdev hflash hm hv =>
    have hnew : FindsNewStick sh s := ⟨hdev, hflash⟩
    exact ⟨by simpa using .listed m hnew hm, by simpa using .listed v hnew hv⟩
  | removed m v text hdev hflash hdetach hm hv =>
    have hgone : DetachesStick sh (s, w) := ⟨⟨hdev, hflash⟩, hdetach⟩
    exact ⟨by simpa using .cleared m hgone hm, by simpa using .cleared v hgone hv⟩
  | notDetached hdev hflash hdetach =>
    have hnew : ¬ FindsNewStick sh s := fun h => h.1 hdev
    have hgone : ¬ DetachesStick sh (s, w) := fun h => absurd h.2 (by simp [hdetach])
    exact ⟨by simpa using .unmoved hnew hgone, by simpa using .unmoved hnew hgone⟩
  | noUsb hdev hflash =>
    have hnew : ¬ FindsNewStick sh s := fun h => h.1 hdev
    have hgone : ¬ DetachesStick sh (s, w) := fun h => absurd h.1.2 (by simp [hflash])
    exact ⟨by simpa [State.noUsb] using .unmoved hnew hgone,
      by simpa [State.noUsb] using .unmoved hnew hgone⟩
  | unchanged hdev hflash =>
    have hnew : ¬ FindsNewStick sh s := fun h => absurd h.2 (by simp [hflash])
    have hgone : ¬ DetachesStick sh (s, w) := fun h => hdev h.1.1
    exact ⟨by simpa using .unmoved hnew hgone, by simpa using .unmoved hnew hgone⟩

/-- A poll does not touch the playing flags. -/
theorem flags_eq (h : PollOutcome qt sh s w c) : c.1.playingSongFlag = s.playingSongFlag ∧
    c.1.playingVideoFlag = s.playingVideoFlag := by
  cases h <;> simp [State.withUsb, State.withoutUsb, State.noUsb]

end PollOutcome

/-! ## The songs and their rows -/

variable {c c' : State × W}

theorem step_songsParallel {e : Event W} (h : step qt e c = .ok c') (hc : c.1.songs.Parallel)
    (hfills : FillsEmptySongs c.1 e) : c'.1.songs.Parallel := by
  rcases step_cases h with ⟨sh, rfl, hpoll⟩ | ⟨-, hui, -⟩
  · exact hpoll.shelfPolls.1.parallel hc hfills
  · exact (uiStep_effect e hui).songs.sameFiles.parallel_iff.mpr hc

/-- The songs stay parallel in a run whose sticks find empty the playlist of songs, whatever happens
to the videos. -/
theorem songsParallel_of_fills {l : List (Transition (State × W) (Event W))}
    (h : (anyEvents qt W).History l c) (hl : ∀ x ∈ l, FillsEmptySongs x.before.1 x.event) :
    c.1.songs.Parallel :=
  h.guarded (I := fun c' => c'.1.songs.Parallel) (fun _ hc' => hc' ▸ parallel_new)
    (fun _ hx hI hC => step_songsParallel hx.2 hI hC) hl

end Infotainment
