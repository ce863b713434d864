import Infotainment.MediaLists

/-!
# The main screen

The state of the program and the slots that the user and the players trigger.  The slots driven
by the timers are in `Infotainment.FlashStatus` and `Infotainment.Bluetooth`.

The globals, the members of `mainScreen`, the static counters inside slots, and what the slots
set on the widgets are one record.  Widgets are kept only where a slot sets or reads them, and of
each only what is set: visible or not, the text, which icon.  Sizes, fonts, alignment, spacing,
the scroll position and which row is selected are left out.

Reading a row that is not there is a null pointer: `item` fails with `Fault.nullItem`, and the
failure ends the program.  `currentIndexChanged` of the song playlist is connected to
`onSongChange`, so every operation that may move that index goes through `moveSongs`, which runs
the slot when the index did move.  The video playlist has no such slot.
-/

namespace Infotainment

/-- The pages of `pagesSwitch`, in the order of their index. -/
inductive Page where
  | home
  | video
  | music
  | bluetooth
  | settings
  | videoShow
  deriving DecidableEq

/-- `bluetoothDeviceConnected` -/
inductive BluetoothStatus where
  | connected
  | notConnected
  deriving DecidableEq

/-- The icon of `playButton` and of `playVideoButton`. -/
inductive PlayIcon where
  | play
  | pause
  deriving DecidableEq

/-- The image of `runningMediaLabel`. -/
inductive MediaIcon where
  | music
  | video
  deriving DecidableEq

/-- The icon of `repeatButton`. -/
inductive RepeatIcon where
  | repeat
  | repeatPressed
  | repeatOnce
  deriving DecidableEq

/-- The icon of `shuffleButton`. -/
inductive ShuffleIcon where
  | shuffle
  | shufflePressed
  deriving DecidableEq

/-- The icon of `darkThemeButton`. -/
inductive ThemeIcon where
  | darkThemeOn
  | darkThemeOff
  deriving DecidableEq

/-- How a slot can go wrong: a row that does not exist is read, or a loop does not end. -/
inductive Fault where
  | nullItem
  | hang
  deriving DecidableEq

/-- What the slots set on the widgets.  A group is `true` while it is shown. -/
structure Ui where
  noFlashGroupMusic : Bool
  noFlashGroupVideo : Bool
  runningMusicGroup : Bool
  runningVideoGroup : Bool
  currentRunningMediaGroup : Bool
  currentRunningMediaLabel : Text
  runningMediaLabel : Option MediaIcon
  playButton : PlayIcon
  playVideoButton : PlayIcon
  repeatButton : RepeatIcon
  shuffleButton : ShuffleIcon
  darkThemeButton : ThemeIcon
  settingsMainGroup : Bool
  setTimeDateGroup : Bool
  bluetoothIconLabel : Bool
  connectedBluetoothDeviceLabel : Text
  dateText : Text
  timeText : Text
  setTimeDateButton : Text

/-- The state of the program between two events. -/
structure State where
  pagesSwitch : Page
  flashStatus : FlashStatus
  usbName : Text
  usbPath : Text
  /-- `runningSongsList`, `zeroSongsGroup`, `playList`, `musicPlayer` -/
  songs : MediaShelf
  playingSongFlag : Bool
  /-- `runningVideosList`, `zeroVideosGroup`, `videoPlayList`, `videoPlayer` -/
  videos : MediaShelf
  playingVideoFlag : Bool
  currentVolume : ℤ
  toggleRepeat : ℕ
  toggleShuffle : ℕ
  darkThemeFlag : ℕ
  bluetoothDeviceConnected : BluetoothStatus
  ui : Ui

def volumeStep : ℤ := 10
def maxVolume : ℤ := 100
def minVolume : ℤ := 0

/-- `videoStep`, a `long long int`, in milliseconds. -/
def videoStep : Int64 := 10000

/-- The state the constructor of `mainScreen` leaves. -/
def startup : State where
  pagesSwitch := .home
  flashStatus := .noFlashDetected
  usbName := []
  usbPath := []
  songs := .new
  playingSongFlag := false
  videos := .new
  playingVideoFlag := false
  currentVolume := 50
  toggleRepeat := 0
  toggleShuffle := 0
  darkThemeFlag := 0
  bluetoothDeviceConnected := .notConnected
  ui :=
    { noFlashGroupMusic := true
      noFlashGroupVideo := true
      runningMusicGroup := false
      runningVideoGroup := false
      currentRunningMediaGroup := false
      currentRunningMediaLabel := []
      runningMediaLabel := none
      playButton := .play
      playVideoButton := .play
      repeatButton := .repeat
      shuffleButton := .shuffle
      darkThemeButton := .darkThemeOff
      settingsMainGroup := true
      setTimeDateGroup := false
      bluetoothIconLabel := false
      connectedBluetoothDeviceLabel := []
      dateText := []
      timeText := []
      setTimeDateButton := [] }

/-! ## Rows -/

/-- `list->item(k)->text()` -/
def item (rows : List Text) (k : ℤ) : Except Fault Text :=
  if 0 ≤ k then
    match rows[k.toNat]? with
    | some text => .ok text
    | none => .error .nullItem
  else .error .nullItem

theorem item_eq_ok_iff {rows : List Text} {k : ℤ} {text : Text} :
    item rows k = .ok text ↔ 0 ≤ k ∧ rows[k.toNat]? = some text := by
  rw [item]
  split_ifs with h0
  · cases rows[k.toNat]? with
    | none => simp [h0]
    | some text' => simp [h0]
  · simp [h0]

theorem exists_item {rows : List Text} {k : ℤ} (h0 : 0 ≤ k) (h : k < rows.length) :
    ∃ text, item rows k = .ok text :=
  ⟨rows[k.toNat], item_eq_ok_iff.mpr ⟨h0, List.getElem?_eq_getElem (by omega)⟩⟩

/-- The row of the list with that index. -/
theorem item_natCast {rows : List Text} {i : ℕ} (h : i < rows.length) :
    item rows i = .ok rows[i] :=
  item_eq_ok_iff.mpr ⟨Int.natCast_nonneg i, by rw [Int.toNat_natCast, List.getElem?_eq_getElem h]⟩

theorem item_eq_error {rows : List Text} {k : ℤ} (h : ¬ (0 ≤ k ∧ k < rows.length)) :
    item rows k = .error .nullItem := by
  rw [item]
  split_ifs with h0
  · rw [List.getElem?_eq_none (by omega)]
  · rfl

theorem item_eq_error_iff {rows : List Text} {k : ℤ} {fault : Fault} :
    item rows k = .error fault ↔ fault = .nullItem ∧ ¬ (0 ≤ k ∧ k < rows.length) := by
  by_cases hk : 0 ≤ k ∧ k < rows.length
  · obtain ⟨text, htext⟩ := exists_item hk.1 hk.2
    simp [htext, hk]
  · simp only [item_eq_error hk, Except.error.injEq, hk, not_false_eq_true, and_true]
    exact eq_comm

/-! ## The music slots -/

namespace State

variable (s : State)

/-- Show the text in the media bar. -/
def setMediaLabel (text : Text) : State := { s with ui.currentRunningMediaLabel := text }

/-- `onSongChange` -/
def onSongChange : Except Fault State :=
  let songIndex := s.songs.playList.currentIndex
  if 0 ≤ songIndex ∧ songIndex < s.songs.playList.media.length then
    (item s.songs.rows songIndex).map s.setMediaLabel
  else .ok s

/-- Operate on the song list; if its current index moved, `onSongChange` runs. -/
def moveSongs (f : MediaShelf → MediaShelf) : Except Fault State :=
  let s' := { s with songs := f s.songs }
  if s'.songs.playList.currentIndex ≠ s.songs.playList.currentIndex then s'.onSongChange else .ok s'

/-- `playSong` -/
def playSong : Except Fault State := do
  let s := { s with playingSongFlag := true }
  let text ← item s.songs.rows s.songs.playList.currentIndex
  let s ← (s.setMediaLabel text).moveSongs MediaShelf.play
  return { s with ui.playButton := .pause }

/-- `playToggle` -/
def playToggle : State := { s with playingSongFlag := false, ui.playButton := .play }

/-- `onSongListItemClicked`, on the row with index `chosenSong`. -/
def onSongListItemClicked (chosenSong : ℕ) : Except Fault State := do
  let s ← s.moveSongs (·.setCurrentIndex chosenSong)
  if s.playingSongFlag = false then s.playSong else return s

/-- `on_playButton_clicked` -/
def onPlayButtonClicked : Except Fault State :=
  if s.playingSongFlag = false then s.playSong
  else .ok { s with songs := s.songs.pause }.playToggle

/-- `on_stopButton_clicked` -/
def onStopButtonClicked : State :=
  if s.playingSongFlag = true then { s with songs := s.songs.stop }.playToggle else s

/-- What `on_forwardButton_clicked` and `on_backwardButton_clicked` do after the move. -/
def toggleIfPastEnd : State :=
  if s.songs.playList.currentIndex < 0 ∧ s.songs.playList.playbackMode = .sequential then
    s.playToggle
  else s

/-- `on_forwardButton_clicked` -/
def onForwardButtonClicked (pick : ℕ) : Except Fault State :=
  (s.moveSongs (·.next pick)).map toggleIfPastEnd

/-- `on_backwardButton_clicked` -/
def onBackwardButtonClicked (pick : ℕ) : Except Fault State :=
  (s.moveSongs (·.previous pick)).map toggleIfPastEnd

/-- `on_repeatButton_clicked` -/
def onRepeatButtonClicked : State :=
  if s.toggleRepeat = 0 then
    { s with
      toggleRepeat := 1
      songs := s.songs.setPlaybackMode .loop
      ui.repeatButton := .repeatPressed }
  else if s.toggleRepeat = 1 then
    { s with
      toggleRepeat := 2
      songs := s.songs.setPlaybackMode .currentItemInLoop
      ui.repeatButton := .repeatOnce }
  else
    { s with
      toggleRepeat := 0
      songs := s.songs.setPlaybackMode .sequential
      ui.repeatButton := .repeat }

/-- `on_shuffleButton_clicked` -/
def onShuffleButtonClicked : State :=
  if s.toggleShuffle = 0 then
    { s with
      toggleShuffle := 1
      songs := s.songs.setPlaybackMode .random
      ui.shuffleButton := .shufflePressed }
  else
    { s with
      toggleShuffle := 0
      songs := s.songs.setPlaybackMode .sequential
      ui.shuffleButton := .shuffle }

/-- `currentVolume` after a press of a volume-down button. -/
def volumeDown : ℤ :=
  if s.currentVolume - volumeStep < minVolume then minVolume else s.currentVolume - volumeStep

/-- `currentVolume` after a press of a volume-up button. -/
def volumeUp : ℤ :=
  if s.currentVolume + volumeStep > maxVolume then maxVolume else s.currentVolume + volumeStep

/-- Set `currentVolume` and the volume of the music player. -/
def setMusicVolume (volume : ℤ) : State :=
  { s with
    currentVolume := volume
    songs := { s.songs with player := s.songs.player.setVolume volume } }

/-- Set `currentVolume` and the volume of the video player. -/
def setVideoVolume (volume : ℤ) : State :=
  { s with
    currentVolume := volume
    videos := { s.videos with player := s.videos.player.setVolume volume } }

/-- `on_volumeDownButton_clicked` -/
def onVolumeDownButtonClicked : State := s.setMusicVolume s.volumeDown

/-- `on_volumeUpButton_clicked` -/
def onVolumeUpButtonClicked : State := s.setMusicVolume s.volumeUp

/-! ## The video slots -/

/-- `playVideo` stops the music first. -/
def playVideo : State :=
  let s := if s.playingSongFlag = true then { s with songs := s.songs.stop }.playToggle else s
  { s with playingVideoFlag := true, videos := s.videos.play, ui.playVideoButton := .pause }

/-- `stopVideo` pauses. -/
def stopVideo : State :=
  { s with playingVideoFlag := false, videos := s.videos.pause, ui.playVideoButton := .play }

/-- The page and the entry `onVideoListItemClicked` opens. -/
def openVideo (chosenVideo : ℕ) : State :=
  let s :=
    if (chosenVideo : ℤ) ≠ s.videos.playList.currentIndex then
      { s with videos := s.videos.setCurrentIndex chosenVideo }
    else s
  { s with pagesSwitch := .videoShow }

/-- `onVideoListItemClicked`, on the row with index `chosenVideo`. -/
def onVideoListItemClicked (chosenVideo : ℕ) : Except Fault State :=
  let s := s.openVideo chosenVideo
  (item s.videos.rows chosenVideo).map fun text => (s.setMediaLabel text).playVideo

/-- `on_goTovideosListButton_clicked` -/
def onGoToVideosListButtonClicked : State := { s.stopVideo with pagesSwitch := .video }

/-- `on_playVideoButton_clicked` -/
def onPlayVideoButtonClicked : State :=
  if s.playingVideoFlag = false then s.playVideo else s.stopVideo

/-- `videoPlayList->setCurrentIndex(videoPlayList->currentIndex())` -/
def reloadVideo : State :=
  { s with videos := s.videos.setCurrentIndex s.videos.playList.currentIndex }

/-- `on_stopVideoButton_clicked` -/
def onStopVideoButtonClicked : State := s.reloadVideo.stopVideo

def setVideoPosition (pos : Int64) : State :=
  { s with videos := { s.videos with player := s.videos.player.setPosition pos } }

/-- `on_backwardVideoButton_clicked` -/
def onBackwardVideoButtonClicked : State :=
  let pos := s.videos.player.position - videoStep
  s.setVideoPosition (if pos < 0 then 0 else pos)

/-- `on_forwardVideoButton_clicked`.  A sum that does not fit wraps around. -/
def onForwardVideoButtonClicked : State :=
  let pos := s.videos.player.position + videoStep
  if pos ≥ s.videos.player.duration then s.reloadVideo.stopVideo else s.setVideoPosition pos

/-- `on_volumeDownVideoButton_clicked` -/
def onVolumeDownVideoButtonClicked : State := s.setVideoVolume s.volumeDown

/-- `on_volumeUpVideoButton_clicked` -/
def onVolumeUpVideoButtonClicked : State := s.setVideoVolume s.volumeUp

/-! ## The other slots -/

/-- `pagesSwitch->setCurrentIndex(page)` -/
def showPage (page : Page) : State := { s with pagesSwitch := page }

def goBackHome : State := s.showPage .home

/-- `on_musicButton_clicked` -/
def onMusicButtonClicked : State := s.showPage .music

/-- `on_videoButton_clicked` -/
def onVideoButtonClicked : State := s.showPage .video

/-- `on_bluetoothButton_clicked` -/
def onBluetoothButtonClicked : State := s.showPage .bluetooth

/-- The settings page without its time and date group. -/
def showSettingsMain : State :=
  { s with ui.setTimeDateGroup := false, ui.settingsMainGroup := true }

/-- `on_settingsButton_clicked` -/
def onSettingsButtonClicked : State := s.showSettingsMain.showPage .settings

/-- `on_doneTimeDateButton_clicked`; the `date -s` command it runs sets the clock and nothing
else. -/
def onDoneTimeDateButtonClicked : State := s.showSettingsMain

/-- `on_cancelTimeDateButton_clicked` -/
def onCancelTimeDateButtonClicked : State := s.showSettingsMain

/-- `on_setTimeDateButton_clicked` -/
def onSetTimeDateButtonClicked : State :=
  { s with ui.settingsMainGroup := false, ui.setTimeDateGroup := true }

/-- `on_darkThemeButton_clicked` -/
def onDarkThemeButtonClicked : State :=
  if s.darkThemeFlag = 0 then
    { s with darkThemeFlag := 1, ui.darkThemeButton := .darkThemeOn }
  else
    { s with darkThemeFlag := 0, ui.darkThemeButton := .darkThemeOff }

/-- `updateTime`, with the date and the time it reads from the clock. -/
def updateTime (date time : Text) : State :=
  { s with
    ui.dateText := date
    ui.timeText := time
    ui.setTimeDateButton := time ++ ", ".toList ++ date }

end State
end Infotainment
