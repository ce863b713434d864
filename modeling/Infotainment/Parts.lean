import Infotainment.ParallelLists
import Infotainment.Library.Slices

/-!
# The parts of the screen

One record holds the whole program, and thirty slots write to it.  What they write falls into six
parts that take no notice of each other: the players and their lists together with the stick and
the pages, the volumes, the clock, the bluetooth label, the theme, and the two groups of the
settings page.  `Part` names them, and `Part.owns` says which events concern which part --- the
button that opens the settings page is the one event that concerns two.

Every part is a slice of the program (`slice`).  For the small ones that is a frame condition.  For
the players it says that what they do can be computed on a screen on which everything else has
been reset: `mediaPart` is that reset, and each slot commutes with it.

The parts together are the whole state (`eq_of_view_eq`), so a run is determined by what happens in
each of them.  How the events of different parts are interleaved is of no account, not even
to whether the program crashes (`interleaving_irrelevant`).
-/

namespace Infotainment

open EventSystem

variable {W : Type}

/-! ## A shelf and its volume -/

namespace MediaShelf

/-- The shelf with another volume. -/
def withVolume (m : MediaShelf) (v : ℤ) : MediaShelf := { m with player := m.player.setVolume v }

variable (m : MediaShelf) (v : ℤ)

@[simp] theorem withVolume_rows : (m.withVolume v).rows = m.rows := rfl
@[simp] theorem withVolume_playList : (m.withVolume v).playList = m.playList := rfl
@[simp] theorem withVolume_hasPlaylist :
    (m.withVolume v).player.hasPlaylist = m.player.hasPlaylist := rfl
@[simp] theorem withVolume_volume : (m.withVolume v).player.volume = v := rfl
@[simp] theorem withVolume_self : m.withVolume m.player.volume = m := rfl

/-! ### No operation of a shelf looks at the volume -/

theorem load_setVolume (p : QMediaPlayer) (index : ℤ) :
    (p.setVolume v).load index = (p.load index).setVolume v := by
  rw [QMediaPlayer.load, QMediaPlayer.load]
  split_ifs <;> first | rfl | contradiction

@[simp] theorem setCurrentIndex_withVolume (pos : ℤ) :
    (m.withVolume v).setCurrentIndex pos = (m.setCurrentIndex pos).withVolume v := by
  simp only [setCurrentIndex, withVolume, load_setVolume]

@[simp] theorem next_withVolume (pick : ℕ) :
    (m.withVolume v).next pick = (m.next pick).withVolume v :=
  m.setCurrentIndex_withVolume v _

@[simp] theorem previous_withVolume (pick : ℕ) :
    (m.withVolume v).previous pick = (m.previous pick).withVolume v :=
  m.setCurrentIndex_withVolume v _

@[simp] theorem pause_withVolume : (m.withVolume v).pause = m.pause.withVolume v := rfl

@[simp] theorem stop_withVolume : (m.withVolume v).stop = m.stop.withVolume v := rfl

@[simp] theorem setPlaybackMode_withVolume (mode : PlaybackMode) :
    (m.withVolume v).setPlaybackMode mode = (m.setPlaybackMode mode).withVolume v := rfl

@[simp] theorem play_withVolume : (m.withVolume v).play = m.play.withVolume v := by
  simp only [play, withVolume_hasPlaylist, withVolume_playList, setCurrentIndex_withVolume]
  split_ifs <;> rfl

@[simp] theorem setPlaylist_withVolume (qt : Qt) :
    (m.withVolume v).setPlaylist qt = (m.setPlaylist qt).withVolume v := by
  simp only [setPlaylist, stop_withVolume, setCurrentIndex_withVolume]
  split_ifs <;> rfl

@[simp] theorem clear_withVolume : (m.withVolume v).clear = m.clear.withVolume v := by
  simp only [clear, withVolume, load_setVolume]

@[simp] theorem addFiles_withVolume (paths : List Text) :
    (m.withVolume v).addFiles paths = (m.addFiles paths).withVolume v := by
  induction paths generalizing m with
  | nil => rfl
  | cons path paths ih => exact ih (m.addFile path)

/-- Updating a list does not concern the volume either. -/
theorem update_withVolume {qt : Qt} {ext usbPath count list : Text} {mode : PlaybackMode}
    {flashStatus : FlashStatus} :
    (m.withVolume v).update qt ext mode flashStatus usbPath count list =
      (m.update qt ext mode flashStatus usbPath count list).map (·.withVolume v) := by
  cases flashStatus with
  | noFlashDetected =>
    simp only [update, withVolume_rows, clear_withVolume, Option.map_some]
    split_ifs <;> rfl
  | flashDetected =>
    simp only [update]
    split_ifs
    · rfl
    · rw [scan_eq, scan_eq, Option.map_map, Option.map_map, Option.map_map]
      congr 1
      funext paths
      show ((((m.beforeScan usbPath).withVolume v).addFiles paths).setPlaybackMode
        mode).setPlaylist qt = (m.filled qt mode usbPath paths).withVolume v
      rw [addFiles_withVolume, setPlaybackMode_withVolume, setPlaylist_withVolume]
      rfl

end MediaShelf

/-! ## The parts -/

/-- The parts of the program. -/
inductive Part where
  /-- The players and their lists, the stick, and the pages. -/
  | media
  | volume
  | clock
  | bluetooth
  | theme
  | settings
  deriving DecidableEq

/-- The parts a button concerns. -/
def Button.parts : Button → List Part
  | volumeDownButton | volumeUpButton | volumeDownVideoButton | volumeUpVideoButton => [.volume]
  | darkThemeButton => [.theme]
  | setTimeDateButton | doneTimeDateButton | cancelTimeDateButton => [.settings]
  | settingsButton => [.media, .settings]
  | _ => [.media]

/-- The parts an event concerns. -/
def Event.parts : Event W → List Part
  | .click b _ => b.parts
  | .clock .. => [.clock]
  | .bluetooth _ => [.bluetooth]
  | _ => [.media]

namespace Part

/-- The event concerns the part. -/
def owns (k : Part) (e : Event W) : Bool := k ∈ e.parts

/-- What there is to see of a part. -/
def View (W : Type) : Part → Type
  | media => State × W
  | volume => ℤ × ℤ × ℤ
  | clock => Text × Text × Text
  | bluetooth => BluetoothStatus × Text × Bool
  | theme => ℕ × ThemeIcon
  | settings => Bool × Bool

end Part

/-- Everything that is not the business of the players, the stick and the pages. -/
structure Sides where
  /-- `currentVolume`, and the volume of either player. -/
  volume : ℤ × ℤ × ℤ
  clock : Text × Text × Text
  bluetooth : BluetoothStatus × Text × Bool
  theme : ℕ × ThemeIcon
  settings : Bool × Bool

namespace State

variable (s : State)

def sides : Sides where
  volume := (s.currentVolume, s.songs.player.volume, s.videos.player.volume)
  clock := (s.ui.dateText, s.ui.timeText, s.ui.setTimeDateButton)
  bluetooth :=
    (s.bluetoothDeviceConnected, s.ui.connectedBluetoothDeviceLabel, s.ui.bluetoothIconLabel)
  theme := (s.darkThemeFlag, s.ui.darkThemeButton)
  settings := (s.ui.settingsMainGroup, s.ui.setTimeDateGroup)

/-- The state with these sides. -/
def withSides (x : Sides) : State :=
  { s with
    currentVolume := x.volume.1
    songs := s.songs.withVolume x.volume.2.1
    videos := s.videos.withVolume x.volume.2.2
    bluetoothDeviceConnected := x.bluetooth.1
    darkThemeFlag := x.theme.1
    ui :=
      { s.ui with
        dateText := x.clock.1
        timeText := x.clock.2.1
        setTimeDateButton := x.clock.2.2
        connectedBluetoothDeviceLabel := x.bluetooth.2.1
        bluetoothIconLabel := x.bluetooth.2.2
        darkThemeButton := x.theme.2
        settingsMainGroup := x.settings.1
        setTimeDateGroup := x.settings.2 } }

/-- The state with its sides reset. -/
def mediaPart : State := s.withSides startup.sides

@[simp] theorem withSides_sides : s.withSides s.sides = s := rfl
@[simp] theorem sides_withSides (x : Sides) : (s.withSides x).sides = x := rfl
@[simp] theorem withSides_songs (x : Sides) :
    (s.withSides x).songs = s.songs.withVolume x.volume.2.1 := rfl
@[simp] theorem withSides_videos (x : Sides) :
    (s.withSides x).videos = s.videos.withVolume x.volume.2.2 := rfl
@[simp] theorem withSides_playingSongFlag (x : Sides) :
    (s.withSides x).playingSongFlag = s.playingSongFlag := rfl
@[simp] theorem withSides_playingVideoFlag (x : Sides) :
    (s.withSides x).playingVideoFlag = s.playingVideoFlag := rfl
@[simp] theorem withSides_flashStatus (x : Sides) :
    (s.withSides x).flashStatus = s.flashStatus := rfl
@[simp] theorem withSides_usbName (x : Sides) : (s.withSides x).usbName = s.usbName := rfl
@[simp] theorem withSides_usbPath (x : Sides) : (s.withSides x).usbPath = s.usbPath := rfl

end State

/-- The part of a state. -/
def view : (k : Part) → State × W → k.View W
  | .media, c => (c.1.mediaPart, c.2)
  | .volume, c => c.1.sides.volume
  | .clock, c => c.1.sides.clock
  | .bluetooth, c => c.1.sides.bluetooth
  | .theme, c => c.1.sides.theme
  | .settings, c => c.1.sides.settings

/-- The state put together from its parts. -/
def assemble (p : ∀ k : Part, k.View W) : State × W :=
  ((p .media).1.withSides ⟨p .volume, p .clock, p .bluetooth, p .theme, p .settings⟩, (p .media).2)

theorem assemble_view (c : State × W) : assemble (fun k => view k c) = c := rfl

/-- **The parts are the whole.** -/
theorem eq_of_view_eq {c d : State × W} (h : ∀ k, view k c = view k d) : c = d := by
  rw [← assemble_view c, ← assemble_view d]
  exact congrArg assemble (funext h)

/-! ## The slots of the players -/

namespace State

variable (s : State) (x : Sides)

theorem onSongChange_withSides :
    (s.withSides x).onSongChange = s.onSongChange.map (·.withSides x) := by
  rw [onSongChange_eq, onSongChange_eq]
  by_cases hcur : s.songs.playList.currentIndex = -1
  · rw [if_pos (show (s.withSides x).songs.playList.currentIndex = -1 from hcur), if_pos hcur]
    rfl
  · rw [if_neg (show ¬ (s.withSides x).songs.playList.currentIndex = -1 from hcur), if_neg hcur]
    show (item s.songs.rows s.songs.playList.currentIndex).map _ = _
    cases item s.songs.rows s.songs.playList.currentIndex <;> rfl

/-- `f` and `g` are the same operation, `g` as it is called on the other screen. -/
theorem moveSongs_withSides {f g : MediaShelf → MediaShelf}
    (hf : g (s.songs.withVolume x.volume.2.1) = (f s.songs).withVolume x.volume.2.1) :
    (s.withSides x).moveSongs g = (s.moveSongs f).map (·.withSides x) := by
  simp only [moveSongs, withSides_songs, hf, MediaShelf.withVolume_playList]
  by_cases hmove : (f s.songs).playList.currentIndex = s.songs.playList.currentIndex
  · simp only [hmove, ne_eq, not_true_eq_false, if_false]
    rfl
  · simp only [hmove, ne_eq, not_false_eq_true, if_true]
    exact onSongChange_withSides { s with songs := f s.songs } x

theorem playSong_eq : s.playSong =
    (item s.songs.rows s.songs.playList.currentIndex).bind fun text =>
      ((({ s with playingSongFlag := true } : State).setMediaLabel text).moveSongs
        MediaShelf.play).map fun s => { s with ui.playButton := .pause } := by
  simp only [playSong, bind, pure, Except.pure]
  congr 1

theorem playSong_withSides : (s.withSides x).playSong = s.playSong.map (·.withSides x) := by
  rw [playSong_eq, playSong_eq, withSides_songs, MediaShelf.withVolume_playList,
    MediaShelf.withVolume_rows]
  cases item s.songs.rows s.songs.playList.currentIndex with
  | error e => rfl
  | ok text =>
    have hmove := moveSongs_withSides (({ s with playingSongFlag := true } : State).setMediaLabel
      text) x (f := MediaShelf.play) (MediaShelf.play_withVolume _ _)
    show (((({ s with playingSongFlag := true } : State).setMediaLabel text).withSides x).moveSongs
      MediaShelf.play).map _ = _
    rw [hmove]
    simp only [Except.bind]
    cases (({ s with playingSongFlag := true } : State).setMediaLabel text).moveSongs
      MediaShelf.play <;> rfl

theorem onSongListItemClicked_withSides (i : ℕ) :
    (s.withSides x).onSongListItemClicked i =
      (s.onSongListItemClicked i).map (·.withSides x) := by
  have hmove := moveSongs_withSides s x (f := (·.setCurrentIndex i)) (g := (·.setCurrentIndex i))
    (MediaShelf.setCurrentIndex_withVolume _ _ _)
  simp only [onSongListItemClicked, bind, Except.bind, pure, Except.pure, hmove]
  cases s.moveSongs (·.setCurrentIndex i) with
  | error e => rfl
  | ok s₁ =>
    show (if s₁.playingSongFlag = false then _ else _) = _
    by_cases hflag : s₁.playingSongFlag = false
    · simp only [if_pos hflag]
      exact playSong_withSides s₁ x
    · simp only [if_neg hflag]
      rfl

theorem onPlayButtonClicked_withSides :
    (s.withSides x).onPlayButtonClicked = s.onPlayButtonClicked.map (·.withSides x) := by
  rw [onPlayButtonClicked, onPlayButtonClicked]
  by_cases hflag : s.playingSongFlag = false
  · rw [if_pos (show (s.withSides x).playingSongFlag = false from hflag), if_pos hflag]
    exact playSong_withSides s x
  · rw [if_neg (show ¬ (s.withSides x).playingSongFlag = false from hflag), if_neg hflag]
    rfl

theorem onStopButtonClicked_withSides :
    (s.withSides x).onStopButtonClicked = s.onStopButtonClicked.withSides x := by
  simp only [onStopButtonClicked, withSides_playingSongFlag, apply_ite (withSides · x)]
  rfl

theorem toggleIfPastEnd_withSides :
    (s.withSides x).toggleIfPastEnd = s.toggleIfPastEnd.withSides x := by
  simp only [toggleIfPastEnd, withSides_songs, MediaShelf.withVolume_playList,
    apply_ite (withSides · x)]
  rfl

/-- Forward and backward. -/
theorem skip_withSides {f : MediaShelf → MediaShelf}
    (hf : ∀ m v, f (m.withVolume v) = (f m).withVolume v) :
    ((s.withSides x).moveSongs f).map toggleIfPastEnd =
      ((s.moveSongs f).map toggleIfPastEnd).map (·.withSides x) := by
  rw [moveSongs_withSides s x (hf _ _)]
  cases s.moveSongs f with
  | error e => rfl
  | ok s₁ => exact congrArg Except.ok (toggleIfPastEnd_withSides s₁ x)

theorem onRepeatButtonClicked_withSides :
    (s.withSides x).onRepeatButtonClicked = s.onRepeatButtonClicked.withSides x := by
  simp only [onRepeatButtonClicked, apply_ite (withSides · x)]
  rfl

theorem onShuffleButtonClicked_withSides :
    (s.withSides x).onShuffleButtonClicked = s.onShuffleButtonClicked.withSides x := by
  simp only [onShuffleButtonClicked, apply_ite (withSides · x)]
  rfl

/-- Operations on the video shelf. -/
theorem setVideos_withSides {f : MediaShelf → MediaShelf}
    (hf : ∀ m v, f (m.withVolume v) = (f m).withVolume v) :
    ({ s.withSides x with videos := f (s.withSides x).videos } : State) =
      ({ s with videos := f s.videos } : State).withSides x := by
  simp only [withSides, hf]

/-- A video first does what the stop button of the music does. -/
theorem playVideo_eq : s.playVideo =
    { s.onStopButtonClicked with
      playingVideoFlag := true
      videos := s.onStopButtonClicked.videos.play
      ui.playVideoButton := .pause } := rfl

theorem playVideo_withSides : (s.withSides x).playVideo = s.playVideo.withSides x := by
  rw [playVideo_eq, playVideo_eq, onStopButtonClicked_withSides]
  simp only [withSides, MediaShelf.play_withVolume]

theorem openVideo_eq (i : ℕ) : s.openVideo i =
    { s with
      videos := if (i : ℤ) ≠ s.videos.playList.currentIndex then s.videos.setCurrentIndex i
        else s.videos
      pagesSwitch := .videoShow } := by
  simp only [openVideo]
  split_ifs <;> rfl

theorem openVideo_withSides (i : ℕ) :
    (s.withSides x).openVideo i = (s.openVideo i).withSides x := by
  have hvideos := setVideos_withSides { s with pagesSwitch := .videoShow } x
    (f := fun m => if (i : ℤ) ≠ m.playList.currentIndex then m.setCurrentIndex i else m)
    fun m v => by
      simp only [MediaShelf.withVolume_playList, MediaShelf.setCurrentIndex_withVolume]
      split_ifs <;> rfl
  rw [openVideo_eq, openVideo_eq]
  exact hvideos

theorem onVideoListItemClicked_withSides (i : ℕ) :
    (s.withSides x).onVideoListItemClicked i =
      (s.onVideoListItemClicked i).map (·.withSides x) := by
  simp only [onVideoListItemClicked, openVideo_withSides, withSides_videos,
    MediaShelf.withVolume_rows]
  cases item (s.openVideo i).videos.rows i with
  | error e => rfl
  | ok text => exact congrArg Except.ok (playVideo_withSides ((s.openVideo i).setMediaLabel text) x)

theorem onPlayVideoButtonClicked_withSides :
    (s.withSides x).onPlayVideoButtonClicked = s.onPlayVideoButtonClicked.withSides x := by
  simp only [onPlayVideoButtonClicked, playVideo_withSides, apply_ite (withSides · x)]
  rfl

theorem reloadVideo_withSides : (s.withSides x).reloadVideo = s.reloadVideo.withSides x := by
  simp only [reloadVideo, withSides, MediaShelf.setCurrentIndex_withVolume,
    MediaShelf.withVolume_playList]

theorem onForwardVideoButtonClicked_withSides :
    (s.withSides x).onForwardVideoButtonClicked = s.onForwardVideoButtonClicked.withSides x := by
  have hreload : (s.withSides x).reloadVideo.stopVideo = s.reloadVideo.stopVideo.withSides x := by
    rw [reloadVideo_withSides]
    rfl
  simp only [onForwardVideoButtonClicked, hreload, show (s.withSides x).videos.player.position =
    s.videos.player.position from rfl, show (s.withSides x).videos.player.duration =
    s.videos.player.duration from rfl]
  split_ifs <;> rfl

/-! ## The flash poll -/

variable (qt : Qt) (sh : Shell W)

theorem songsUpdate_withSides : (s.withSides x).songsUpdate qt sh =
    (s.songsUpdate qt sh).map (·.withVolume x.volume.2.1) :=
  s.songs.update_withVolume _

theorem videosUpdate_withSides : (s.withSides x).videosUpdate qt sh =
    (s.videosUpdate qt sh).map (·.withVolume x.volume.2.2) :=
  s.videos.update_withVolume _

theorem updateLists_withSides :
    (s.withSides x).updateLists qt sh = (s.updateLists qt sh).map (·.withSides x) := by
  have hvideos : ∀ t : State,
      (t.withSides x).updateVideosList qt sh = (t.updateVideosList qt sh).map (·.withSides x) := by
    intro t
    rw [updateVideosList, updateVideosList, videosUpdate_withSides]
    cases t.videosUpdate qt sh <;> rfl
  simp only [updateLists, updateSongsList, songsUpdate_withSides]
  cases s.songsUpdate qt sh with
  | none => rfl
  | some m =>
    -- the new shelf is put in place whatever the old one was
    have hmove : (s.withSides x).moveSongs (fun _ => m.withVolume x.volume.2.1) =
        (s.moveSongs fun _ => m).map (·.withSides x) := moveSongs_withSides s x rfl
    simp only [Option.map_some, hmove]
    cases s.moveSongs fun _ => m with
    | error e => rfl
    | ok t => exact hvideos t

theorem showMediaBar_withSides : (s.withSides x).showMediaBar = s.showMediaBar.withSides x := by
  simp only [showMediaBar, apply_ite (withSides · x)]
  rfl

theorem followUsb_withSides (w : W) : (s.withSides x).followUsb qt sh w =
    (s.followUsb qt sh w).map fun c => (c.1.withSides x, c.2) := by
  have hins := updateLists_withSides (s.withUsb (devicesConnected sh)) x qt sh
  have hrem := updateLists_withSides s.withoutUsb x qt sh
  by_cases hdev : devicesConnected sh = []
  · cases hflash : s.flashStatus with
    | noFlashDetected =>
      simp only [followUsb, withSides_flashStatus, hdev, hflash]
      rfl
    | flashDetected =>
      simp only [followUsb, withSides_flashStatus, hdev, hflash, ne_eq, not_true_eq_false,
        reduceCtorEq, and_false, and_self, if_false, if_true, usbRemoved]
      by_cases hdetach : (detachUsb sh s.usbName w).1 = true
      · rw [if_pos (show (detachUsb sh (s.withSides x).usbName w).1 = true from hdetach),
          if_pos hdetach]
        show ((s.withoutUsb.withSides x).updateLists qt sh).map _ = _
        rw [hrem]
        cases s.withoutUsb.updateLists qt sh <;> rfl
      · rw [if_neg (show ¬ (detachUsb sh (s.withSides x).usbName w).1 = true from hdetach),
          if_neg hdetach]
        rfl
  · cases hflash : s.flashStatus with
    | noFlashDetected =>
      simp only [followUsb, withSides_flashStatus, hdev, hflash, ne_eq, not_false_eq_true,
        and_self, if_true, usbInserted]
      show (((s.withUsb (devicesConnected sh)).withSides x).updateLists qt sh).map _ = _
      rw [hins]
      cases (s.withUsb (devicesConnected sh)).updateLists qt sh <;> rfl
    | flashDetected =>
      simp only [followUsb, withSides_flashStatus, hdev, hflash, reduceCtorEq, and_false,
        false_and, if_false]
      rfl

theorem updateFlashStatus_withSides (w : W) : (s.withSides x).updateFlashStatus qt sh w =
    (s.updateFlashStatus qt sh w).map fun c => (c.1.withSides x, c.2) := by
  rw [updateFlashStatus, updateFlashStatus, followUsb_withSides]
  cases s.followUsb qt sh w with
  | error e => rfl
  | ok c => exact congrArg (fun t => Except.ok (t, c.2)) (showMediaBar_withSides c.1 x)

/-- The buttons of the players and the pages, but for the one that opens the settings. -/
theorem press_withSides {pick : ℕ} {b : Button} (hb : .media ∈ b.parts)
    (hsettings : b ≠ .settingsButton) :
    (s.withSides x).press pick b = (s.press pick b).map (·.withSides x) := by
  cases b
  case playButton => exact onPlayButtonClicked_withSides s x
  case forwardButton =>
    exact skip_withSides s x (f := (·.next pick)) fun m v => m.next_withVolume v pick
  case backwardButton =>
    exact skip_withSides s x (f := (·.previous pick)) fun m v => m.previous_withVolume v pick
  case stopButton => exact congrArg Except.ok (onStopButtonClicked_withSides s x)
  case repeatButton => exact congrArg Except.ok (onRepeatButtonClicked_withSides s x)
  case shuffleButton => exact congrArg Except.ok (onShuffleButtonClicked_withSides s x)
  case playVideoButton => exact congrArg Except.ok (onPlayVideoButtonClicked_withSides s x)
  case forwardVideoButton => exact congrArg Except.ok (onForwardVideoButtonClicked_withSides s x)
  case stopVideoButton =>
    exact congrArg (fun t : State => Except.ok t.stopVideo) (reloadVideo_withSides s x)
  case settingsButton => exact absurd rfl hsettings
  case volumeDownButton | volumeUpButton | volumeDownVideoButton | volumeUpVideoButton |
    darkThemeButton | setTimeDateButton | doneTimeDateButton | cancelTimeDateButton =>
    exact absurd hb (by simp [Button.parts])
  all_goals rfl

end State

/-- **The players take no notice of the sides.** -/
theorem step_withSides (qt : Qt) {e : Event W} (he : Part.media.owns e = true)
    (hsettings : ∀ pick, e ≠ .click .settingsButton pick) (s : State) (w : W) (x : Sides) :
    step qt e (s.withSides x, w) = (step qt e (s, w)).map fun c => (c.1.withSides x, c.2) := by
  have hui : ∀ {r r' : Except Fault State}, r' = r.map (·.withSides x) →
      r'.map (·, w) = (r.map (·, w)).map fun c => (c.1.withSides x, c.2) := by
    rintro (e | t) _ rfl <;> rfl
  cases e with
  | poll sh => exact s.updateFlashStatus_withSides x qt sh w
  | click b pick =>
    have hb : .media ∈ b.parts := of_decide_eq_true he
    exact hui (s.press_withSides x hb fun hb => hsettings pick (by rw [hb]))
  | songRow i => exact hui (s.onSongListItemClicked_withSides x i)
  | videoRow i => exact hui (s.onVideoListItemClicked_withSides x i)
  | songEnd pick =>
    exact hui (s.moveSongs_withSides x (f := (·.next pick)) (g := (·.next pick))
      (MediaShelf.next_withVolume _ _ pick))
  | videoEnd =>
    have hnext := s.setVideos_withSides x (f := (·.next 0)) fun m v => m.next_withVolume v 0
    have hended : (.ok (s.withSides x).videoEnded : Except Fault State) =
        Except.map (·.withSides x) (.ok s.videoEnded) := congrArg Except.ok hnext
    exact hui hended
  | videoProgress position duration => rfl
  | clock date time => exact absurd he (by simp [Part.owns, Event.parts])
  | bluetooth sh => exact absurd he (by simp [Part.owns, Event.parts])

/-! ## The slices -/

variable {qt : Qt}

/-- What an event of the players does is found out on a screen with reset sides. -/
theorem step_mediaPart {e : Event W} (he : Part.media.owns e = true) (c : State × W) :
    step qt e (view .media c) = (step qt e c).map (view .media) := by
  by_cases hsettings : ∃ pick, e = .click .settingsButton pick
  · obtain ⟨pick, rfl⟩ := hsettings
    rfl
  · exact step_withSides qt he (fun pick hpick => hsettings ⟨pick, hpick⟩) c.1 c.2 _

/-- The events of the players leave the sides alone. -/
theorem sides_of_step {e : Event W} {c d : State × W} (he : Part.media.owns e = true)
    (hsettings : ∀ pick, e ≠ .click .settingsButton pick) (h : step qt e c = .ok d) :
    d.1.sides = c.1.sides := by
  have hstep := step_withSides qt he hsettings c.1 c.2 c.1.sides
  rw [State.withSides_sides, show step qt e (c.1, c.2) = .ok d from h] at hstep
  rw [Except.map, Except.ok.injEq] at hstep
  rw [show d.1 = d.1.withSides c.1.sides from congrArg Prod.fst hstep, State.sides_withSides]

/-- An event outside the players always goes through. -/
theorem exists_step_of_not_media {e : Event W} (he : Part.media.owns e = false) (c : State × W) :
    ∃ d, step qt e c = .ok d := by
  cases e with
  | clock date time => exact ⟨_, rfl⟩
  | bluetooth sh => exact ⟨_, rfl⟩
  | click b pick =>
    cases b
    case volumeDownButton | volumeUpButton | volumeDownVideoButton | volumeUpVideoButton |
      darkThemeButton | setTimeDateButton | doneTimeDateButton | cancelTimeDateButton =>
      exact ⟨_, rfl⟩
    all_goals exact absurd he (by simp [Part.owns, Event.parts, Button.parts])
  | _ => exact absurd he (by simp [Part.owns, Event.parts])

theorem view_of_sides {k : Part} (hk : k ≠ .media) {c d : State × W}
    (h : c.1.sides = d.1.sides) : view k c = view k d := by
  cases k with
  | media => exact absurd rfl hk
  | volume => exact congrArg Sides.volume h
  | clock => exact congrArg Sides.clock h
  | bluetooth => exact congrArg Sides.bluetooth h
  | theme => exact congrArg Sides.theme h
  | settings => exact congrArg Sides.settings h

/-- An event leaves the parts alone that it does not concern. -/
theorem view_of_not_owns {k : Part} {e : Event W} {c d : State × W} (he : k.owns e = false)
    (h : step qt e c = .ok d) : view k d = view k c := by
  by_cases hmedia : Part.media.owns e = true
  · have hk : k ≠ .media := by
      rintro rfl
      exact absurd hmedia (by simp [he])
    by_cases hsettings : ∃ pick, e = .click .settingsButton pick
    · obtain ⟨pick, rfl⟩ := hsettings
      obtain rfl := (Except.ok.inj h).symm
      cases k with
      | media => exact absurd rfl hk
      | settings => exact absurd he (by simp [Part.owns, Event.parts, Button.parts])
      | _ => rfl
    · exact view_of_sides hk
        (sides_of_step hmedia (fun pick hpick => hsettings ⟨pick, hpick⟩) h)
  · -- the event concerns one of the sides, and sets nothing else
    cases e with
    | clock date time =>
      obtain rfl := (Except.ok.inj h).symm
      cases k <;> first | rfl | exact absurd he (by simp [Part.owns, Event.parts])
    | bluetooth sh =>
      obtain ⟨status, label, shown, heq⟩ := c.1.updatBluetoothDevices_eq sh
      obtain rfl : (c.1.updatBluetoothDevices sh, c.2) = d := Except.ok.inj h
      rw [heq]
      cases k <;> first | rfl | exact absurd he (by simp [Part.owns, Event.parts])
    | click b pick =>
      cases b
      case darkThemeButton =>
        obtain ⟨flag, icon, heq⟩ := c.1.onDarkThemeButtonClicked_eq
        obtain rfl : (c.1.onDarkThemeButtonClicked, c.2) = d := Except.ok.inj h
        rw [heq]
        cases k <;> first | rfl | exact absurd he (by simp [Part.owns, Event.parts, Button.parts])
      case volumeDownButton | volumeUpButton | volumeDownVideoButton | volumeUpVideoButton |
        setTimeDateButton | doneTimeDateButton | cancelTimeDateButton =>
        obtain rfl := (Except.ok.inj h).symm
        cases k <;> first | rfl | exact absurd he (by simp [Part.owns, Event.parts, Button.parts])
      all_goals exact absurd (by simp [Part.owns, Event.parts, Button.parts]) hmedia
    | _ => exact absurd (by simp [Part.owns, Event.parts]) hmedia

/-! ### What the events of the sides do is decided by their sides -/

theorem bluetooth_congr {s s' : State} (sh : Shell W) (h : s.sides.bluetooth = s'.sides.bluetooth) :
    (s.updatBluetoothDevices sh).sides.bluetooth =
      (s'.updatBluetoothDevices sh).sides.bluetooth := by
  have hstatus : s.bluetoothDeviceConnected = s'.bluetoothDeviceConnected := congrArg Prod.fst h
  simp only [State.updatBluetoothDevices, State.pollBluetooth, hstatus]
  split_ifs
  · rfl
  · rfl
  · exact h

theorem theme_congr {s s' : State} (h : s.sides.theme = s'.sides.theme) :
    s.onDarkThemeButtonClicked.sides.theme = s'.onDarkThemeButtonClicked.sides.theme := by
  have hflag : s.darkThemeFlag = s'.darkThemeFlag := congrArg Prod.fst h
  simp only [State.onDarkThemeButtonClicked, hflag]
  split_ifs <;> rfl

/-- The volume buttons compute the new volume from the old one, and set it for one player. -/
theorem volume_congr {s s' : State} (h : s.sides.volume = s'.sides.volume) :
    s.onVolumeDownButtonClicked.sides.volume = s'.onVolumeDownButtonClicked.sides.volume ∧
    s.onVolumeUpButtonClicked.sides.volume = s'.onVolumeUpButtonClicked.sides.volume ∧
    s.onVolumeDownVideoButtonClicked.sides.volume =
      s'.onVolumeDownVideoButtonClicked.sides.volume ∧
    s.onVolumeUpVideoButtonClicked.sides.volume =
      s'.onVolumeUpVideoButtonClicked.sides.volume := by
  simp only [State.sides, Prod.mk.injEq] at h
  obtain ⟨hcurrent, hmusic, hvideo⟩ := h
  have hdown : s.volumeDown = s'.volumeDown := by simp only [State.volumeDown, hcurrent]
  have hup : s.volumeUp = s'.volumeUp := by simp only [State.volumeUp, hcurrent]
  simp only [State.onVolumeDownButtonClicked, State.onVolumeUpButtonClicked,
    State.onVolumeDownVideoButtonClicked, State.onVolumeUpVideoButtonClicked, State.sides,
    State.setMusicVolume, State.setVideoVolume, QMediaPlayer.setVolume, hdown, hup, hmusic, hvideo,
    and_self]

/-- What an event makes of a part it concerns is decided by the part. -/
theorem view_congr {k : Part} {e : Event W} {c d : State × W} (he : k.owns e = true)
    (h : view k c = view k d) : (step qt e c).map (view k) = (step qt e d).map (view k) := by
  by_cases hk : k = .media
  · subst hk
    rw [← step_mediaPart he, ← step_mediaPart he, h]
  · have hmem : k ∈ e.parts := of_decide_eq_true he
    cases e with
    | clock date time =>
      obtain rfl : k = .clock := by simpa [Event.parts] using hmem
      rfl
    | bluetooth sh =>
      obtain rfl : k = .bluetooth := by simpa [Event.parts] using hmem
      exact congrArg Except.ok (bluetooth_congr sh h)
    | click b pick =>
      cases b
      case darkThemeButton =>
        obtain rfl : k = .theme := by simpa [Event.parts, Button.parts] using hmem
        exact congrArg Except.ok (theme_congr h)
      case volumeDownButton =>
        obtain rfl : k = .volume := by simpa [Event.parts, Button.parts] using hmem
        exact congrArg Except.ok (volume_congr h).1
      case volumeUpButton =>
        obtain rfl : k = .volume := by simpa [Event.parts, Button.parts] using hmem
        exact congrArg Except.ok (volume_congr h).2.1
      case volumeDownVideoButton =>
        obtain rfl : k = .volume := by simpa [Event.parts, Button.parts] using hmem
        exact congrArg Except.ok (volume_congr h).2.2.1
      case volumeUpVideoButton =>
        obtain rfl : k = .volume := by simpa [Event.parts, Button.parts] using hmem
        exact congrArg Except.ok (volume_congr h).2.2.2
      case settingsButton | setTimeDateButton | doneTimeDateButton | cancelTimeDateButton =>
        obtain rfl : k = .settings := by
          simpa [Event.parts, Button.parts, hk] using hmem
        rfl
      all_goals exact absurd (by simpa [Event.parts, Button.parts] using hmem) hk
    | _ => exact absurd (by simpa [Event.parts] using hmem) hk

/-- **Every part is a slice.** -/
theorem slice (qt : Qt) (k : Part) : (anyEvents qt W).Slice (view k) k.owns where
  congr := view_congr
  other := view_of_not_owns

/-- **How the parts are interleaved does not matter.**  Two sequences of events that agree on the
events of each part, each in its own order, have the same outcome: the same state of the program and
the machine, or the same crash. -/
theorem interleaving_irrelevant {es es' : List (Event W)}
    (hes : ∀ k : Part, es.filter k.owns = es'.filter k.owns) (c : State × W) :
    (anyEvents qt W).run es c = (anyEvents qt W).run es' c :=
  Machine.run_eq_of_slices (slice qt) (fun _ _ => eq_of_view_eq) .media
    (fun _ s he => exists_step_of_not_media he s) hes c

/-- On a stick with two songs: what is done to the clock, the volume and the theme while a song is
chosen can as well be done afterwards. -/
theorem interleaving_around_song :
    (anyEvents ⟨false⟩ Unit).run
      [.click .volumeUpButton 0,
        .poll (stickShell "sda1".toList ["a.mp3".toList, "b.mp3".toList] [] 0),
        .clock "today".toList "noon".toList, .songRow 0, .click .darkThemeButton 0,
        .click .forwardButton 0] (startup, ()) =
    (anyEvents ⟨false⟩ Unit).run
      [.poll (stickShell "sda1".toList ["a.mp3".toList, "b.mp3".toList] [] 0), .songRow 0,
        .click .forwardButton 0, .click .darkThemeButton 0, .clock "today".toList "noon".toList,
        .click .volumeUpButton 0] (startup, ()) :=
  interleaving_irrelevant (by intro k; cases k <;> rfl) _

/-- Whether an event can occur in front of the screen is the business of the players and the
pages. -/
theorem shown_congr {e : Event W} {c d : State × W} (h : view .media c = view .media d)
    (hs : Shown e c.1) : Shown e d.1 := by
  have hmedia : c.1.mediaPart = d.1.mediaPart := congrArg Prod.fst h
  have hpage : c.1.mediaPart.pagesSwitch = d.1.mediaPart.pagesSwitch := by rw [hmedia]
  have hsongs : c.1.songs.withVolume 100 = d.1.songs.withVolume 100 :=
    congrArg (fun t : State => t.songs) hmedia
  have hvideos : c.1.videos.withVolume 100 = d.1.videos.withVolume 100 :=
    congrArg (fun t : State => t.videos) hmedia
  cases e with
  | click b pick => exact hpage.symm.trans hs
  | songRow i => exact ⟨hpage.symm.trans hs.1, congrArg MediaShelf.rows hsongs ▸ hs.2⟩
  | videoRow i => exact ⟨hpage.symm.trans hs.1, congrArg MediaShelf.rows hvideos ▸ hs.2⟩
  | songEnd pick => exact (congrArg (fun m : MediaShelf => m.player.playing) hsongs).symm.trans hs
  | videoEnd => exact (congrArg (fun m : MediaShelf => m.player.playing) hvideos).symm.trans hs
  | _ => trivial

/-- **The players do not need the rest.**  What remains of a run in front of the screen when every
tick of the clock, every bluetooth poll, every press of a volume button, of the theme button and
of the buttons of the settings page is left out is a run in front of the screen, and ends with the
same players, lists, stick and page. -/
theorem players_run_alone {l : List (Transition (State × W) (Event W))} {c : State × W}
    (h : (shownEvents qt W).History l c) :
    ∃ l' c', (shownEvents qt W).History l' c' ∧
      l'.map Transition.event = (l.map Transition.event).filter Part.media.owns ∧
      view .media c' = view .media c :=
  have hslice : (shownEvents qt W).Slice (view .media) Part.media.owns :=
    ⟨view_congr, view_of_not_owns⟩
  h.slice hslice fun _ hview hs => shown_congr hview hs

/-- A volume button, pressed between the poll that finds a stick and the click on its song. -/
theorem song_without_volume_button :
    ∃ l c, (shownEvents ⟨false⟩ Unit).History l c ∧ l.length = 4 ∧
      ∃ l' c', (shownEvents ⟨false⟩ Unit).History l' c' ∧
        l'.map Transition.event = (l.map Transition.event).filter Part.media.owns ∧
        view .media c' = view .media c := by
  obtain ⟨l, c, hl, -, hp⟩ := Machine.exists_history_of_replay (M := shownEvents ⟨false⟩ Unit)
    (s := (startup, ())) rfl
    [.poll (stickShell "sda1".toList ["a.mp3".toList] [] 0), .click .musicButton 0,
      .click .volumeUpButton 0, .songRow 0]
    (fun l _ => decide (l.length = 4)) (by decide +kernel)
  exact ⟨l, c, hl, of_decide_eq_true hp, players_run_alone hl⟩

end Infotainment
