import Infotainment.Events
import Infotainment.ShelfLaws

/-!
# What each event does

One lemma for each slot, so that no invariant has to open a slot again.

* A slot that can fail is described by the state it leaves when it does not: `moveSongs_ok`,
  `playSong_ok`, `updateLists_ok`.  What becomes of the media label, which `onSongChange` sets on
  the way, is `Relabels`, and when it fails there is `moveSongs_eq_error_iff`.
* `UiEffect` is what all events other than the flash poll have in common: the shelves only make
  moves, and the stick is the same.  `uiStep_effect` goes through the slots once.
* `PollOutcome` lists the five ways a flash poll can end, and `poll_outcome` says that there is no
  other.
-/

namespace Infotainment

open EventSystem MediaShelf

variable {W : Type}

namespace State

variable (s : State)

/-! ## The widgets that do not matter -/

@[simp] theorem setMediaLabel_songs (text : Text) : (s.setMediaLabel text).songs = s.songs := rfl
@[simp] theorem setMediaLabel_videos (text : Text) : (s.setMediaLabel text).videos = s.videos := rfl
@[simp] theorem setMediaLabel_playingSongFlag (text : Text) :
    (s.setMediaLabel text).playingSongFlag = s.playingSongFlag := rfl
@[simp] theorem setMediaLabel_playingVideoFlag (text : Text) :
    (s.setMediaLabel text).playingVideoFlag = s.playingVideoFlag := rfl
@[simp] theorem setMediaLabel_pagesSwitch (text : Text) :
    (s.setMediaLabel text).pagesSwitch = s.pagesSwitch := rfl
@[simp] theorem setMediaLabel_flashStatus (text : Text) :
    (s.setMediaLabel text).flashStatus = s.flashStatus := rfl
@[simp] theorem setMediaLabel_usbName (text : Text) :
    (s.setMediaLabel text).usbName = s.usbName := rfl
@[simp] theorem setMediaLabel_usbPath (text : Text) :
    (s.setMediaLabel text).usbPath = s.usbPath := rfl

@[simp] theorem playToggle_songs : s.playToggle.songs = s.songs := rfl
@[simp] theorem playToggle_videos : s.playToggle.videos = s.videos := rfl
@[simp] theorem playToggle_playingSongFlag : s.playToggle.playingSongFlag = false := rfl
@[simp] theorem playToggle_playingVideoFlag :
    s.playToggle.playingVideoFlag = s.playingVideoFlag := rfl

@[simp] theorem toggleIfPastEnd_videos : s.toggleIfPastEnd.videos = s.videos := by
  rw [toggleIfPastEnd]; split_ifs <;> rfl
@[simp] theorem toggleIfPastEnd_playingVideoFlag :
    s.toggleIfPastEnd.playingVideoFlag = s.playingVideoFlag := by
  rw [toggleIfPastEnd]; split_ifs <;> rfl

@[simp] theorem showMediaBar_songs : s.showMediaBar.songs = s.songs := by
  rw [showMediaBar]; split_ifs <;> rfl
@[simp] theorem showMediaBar_videos : s.showMediaBar.videos = s.videos := by
  rw [showMediaBar]; split_ifs <;> rfl
@[simp] theorem showMediaBar_playingSongFlag :
    s.showMediaBar.playingSongFlag = s.playingSongFlag := by
  rw [showMediaBar]; split_ifs <;> rfl
@[simp] theorem showMediaBar_playingVideoFlag :
    s.showMediaBar.playingVideoFlag = s.playingVideoFlag := by
  rw [showMediaBar]; split_ifs <;> rfl
@[simp] theorem showMediaBar_pagesSwitch : s.showMediaBar.pagesSwitch = s.pagesSwitch := by
  rw [showMediaBar]; split_ifs <;> rfl
@[simp] theorem showMediaBar_flashStatus : s.showMediaBar.flashStatus = s.flashStatus := by
  rw [showMediaBar]; split_ifs <;> rfl
@[simp] theorem showMediaBar_usbName : s.showMediaBar.usbName = s.usbName := by
  rw [showMediaBar]; split_ifs <;> rfl
@[simp] theorem showMediaBar_usbPath : s.showMediaBar.usbPath = s.usbPath := by
  rw [showMediaBar]; split_ifs <;> rfl
@[simp] theorem showMediaBar_label :
    s.showMediaBar.ui.currentRunningMediaLabel = s.ui.currentRunningMediaLabel := by
  rw [showMediaBar]; split_ifs <;> rfl

/-! ## Moving the song index -/

variable {s} {s' : State}

/-- The test in `onSongChange` is whether there is a current entry. -/
theorem onSongChange_eq : s.onSongChange =
    if s.songs.playList.currentIndex = -1 then .ok s
    else (item s.songs.rows s.songs.playList.currentIndex).map s.setMediaLabel := by
  have h0 := s.songs.playList.neg_one_le
  have h1 := s.songs.playList.lt_mediaCount
  rw [onSongChange]
  split_ifs with h h' h' <;> first | rfl | omega

/-- What the media label becomes when the song list goes from `m` to `m'`: the name of the new
entry, if the index moved to an entry, and otherwise what it was. -/
def Relabels (m m' : MediaShelf) (old new : Text) : Prop :=
  ((m'.playList.currentIndex = m.playList.currentIndex ∨ m'.playList.currentIndex = -1) ∧
      new = old) ∨
    (m'.playList.currentIndex ≠ m.playList.currentIndex ∧ m'.playList.currentIndex ≠ -1 ∧
      item m'.rows m'.playList.currentIndex = .ok new)

theorem moveSongs_ok {f : MediaShelf → MediaShelf} (h : s.moveSongs f = .ok s') :
    ∃ text, Relabels s.songs (f s.songs) s.ui.currentRunningMediaLabel text ∧
      s' = { s with songs := f s.songs }.setMediaLabel text := by
  rw [moveSongs] at h
  by_cases hmove : (f s.songs).playList.currentIndex = s.songs.playList.currentIndex
  · simp only [hmove, ne_eq, not_true_eq_false, if_false, Except.ok.injEq] at h
    exact ⟨_, Or.inl ⟨Or.inl hmove, rfl⟩, h.symm⟩
  · simp only [ne_eq, hmove, not_false_eq_true, if_true, onSongChange_eq] at h
    by_cases hcur : (f s.songs).playList.currentIndex = -1
    · rw [if_pos hcur, Except.ok.injEq] at h
      exact ⟨_, Or.inl ⟨Or.inr hcur, rfl⟩, h.symm⟩
    · rw [if_neg hcur] at h
      obtain ⟨text, hitem, rfl⟩ := map_eq_ok_iff.mp h
      exact ⟨text, Or.inr ⟨hmove, hcur, hitem⟩, rfl⟩

/-- **Moving the song list only fails when the new entry has no row.** -/
theorem moveSongs_eq_error_iff {f : MediaShelf → MediaShelf} {fault : Fault} :
    s.moveSongs f = .error fault ↔ fault = .nullItem ∧ MissesRow s.songs (f s.songs) := by
  have h0 := (f s.songs).playList.neg_one_le
  rw [moveSongs, MissesRow]
  split_ifs with hmoved
  · rw [onSongChange_eq]
    split_ifs with hcur
    · simp [show (f s.songs).playList.currentIndex = -1 from hcur]
    · simp only at hcur ⊢
      rw [map_eq_error_iff, item_eq_error_iff]
      refine and_congr_right fun _ => ⟨fun hrow => ⟨hmoved, hcur, by omega⟩, fun hmiss => ?_⟩
      omega
  · have hstays : (f s.songs).playList.currentIndex = s.songs.playList.currentIndex :=
      not_not.mp hmoved
    simp [hstays]

theorem exists_moveSongs_of_not_missesRow {f : MediaShelf → MediaShelf}
    (h : ¬ MissesRow s.songs (f s.songs)) : ∃ s', s.moveSongs f = .ok s' := by
  cases hmove : s.moveSongs f with
  | ok s' => exact ⟨s', rfl⟩
  | error fault => exact absurd (moveSongs_eq_error_iff.mp hmove).2 h

/-- A song is started: there was a row for the current entry, and the label shows it. -/
theorem playSong_ok (h : s.playSong = .ok s') :
    ∃ text, item s.songs.rows s.songs.playList.currentIndex = .ok text ∧
      s' = { s with
        playingSongFlag := true
        songs := s.songs.play
        ui.currentRunningMediaLabel := text
        ui.playButton := .pause } := by
  simp only [playSong, bind, Except.bind, pure, Except.pure] at h
  cases hitem : item s.songs.rows s.songs.playList.currentIndex with
  | error e => simp [hitem] at h
  | ok text =>
    have hcur : s.songs.playList.currentIndex ≠ -1 := by
      have h0 := (item_eq_ok_iff.mp hitem).1
      omega
    simp only [hitem] at h
    cases hmove : (({ s with playingSongFlag := true } : State).setMediaLabel text).moveSongs
        MediaShelf.play with
    | error e => simp [hmove] at h
    | ok s₁ =>
      simp only [hmove, Except.ok.injEq] at h
      refine ⟨text, rfl, ?_⟩
      obtain ⟨text', ⟨-, rfl⟩ | ⟨hne, -, -⟩, rfl⟩ := moveSongs_ok hmove
      · exact h.symm
      · exact absurd (play_currentIndex _ hcur) hne

/-- A song is started whenever there is a row for the current entry. -/
theorem exists_playSong (h0 : 0 ≤ s.songs.playList.currentIndex)
    (h : s.songs.playList.currentIndex < s.songs.rows.length) : ∃ s', s.playSong = .ok s' := by
  obtain ⟨text, htext⟩ := exists_item h0 h
  have hcur : s.songs.playList.currentIndex ≠ -1 := by omega
  have hmove : (({ s with playingSongFlag := true } : State).setMediaLabel text).moveSongs
      MediaShelf.play = .ok ({ s with
        playingSongFlag := true, songs := s.songs.play }.setMediaLabel text) := by
    rw [moveSongs, if_neg]
    · rfl
    · rw [not_not]
      exact play_currentIndex _ hcur
  cases hplay : s.playSong with
  | ok s' => exact ⟨s', rfl⟩
  | error e =>
    simp [playSong, bind, Except.bind, pure, Except.pure, htext, hmove] at hplay

/-- A click on a song moves the index and starts the player unless the flag says it plays. -/
theorem onSongListItemClicked_ok {i : ℕ} (h : s.onSongListItemClicked i = .ok s') :
    ∃ s₁, s.moveSongs (·.setCurrentIndex i) = .ok s₁ ∧
      ((s₁.playingSongFlag = false ∧ s₁.playSong = .ok s') ∨
        (s₁.playingSongFlag = true ∧ s' = s₁)) := by
  simp only [onSongListItemClicked, bind, Except.bind, pure, Except.pure] at h
  cases hmove : s.moveSongs (·.setCurrentIndex i) with
  | error e => simp [hmove] at h
  | ok s₁ =>
    simp only [hmove] at h
    refine ⟨s₁, rfl, ?_⟩
    cases hflag : s₁.playingSongFlag with
    | false =>
      rw [hflag, if_pos rfl] at h
      exact Or.inl ⟨rfl, h⟩
    | true =>
      rw [hflag, if_neg (by decide), Except.ok.injEq] at h
      exact Or.inr ⟨rfl, h.symm⟩

/-! ## The buttons -/

theorem onPlayButtonClicked_ok (h : s.onPlayButtonClicked = .ok s') :
    (s.playingSongFlag = false ∧ s.playSong = .ok s') ∨
      (s.playingSongFlag = true ∧ s' = { s with songs := s.songs.pause }.playToggle) := by
  rw [onPlayButtonClicked] at h
  split_ifs at h with hflag
  · exact Or.inl ⟨hflag, h⟩
  · exact Or.inr ⟨by simpa using hflag, (Except.ok.inj h).symm⟩

/-- What forward and backward have in common: the index moves, to an entry unless that is past an
end in `sequential` mode, and afterwards the end is looked for. -/
def Skips (s s' : State) : Prop :=
  ∃ (pos : ℤ) (s₁ : State),
    (-1 ≤ pos ∧ pos < s.songs.playList.media.length) ∧
    (s.songs.playList.currentIndex ≠ -1 → s.songs.playList.playbackMode ≠ .currentItemOnce →
      s.songs.playList.playbackMode ≠ .sequential → pos ≠ -1) ∧
    s.moveSongs (·.setCurrentIndex pos) = .ok s₁ ∧ s' = s₁.toggleIfPastEnd

theorem onForwardButtonClicked_ok {pick : ℕ} (h : s.onForwardButtonClicked pick = .ok s') :
    Skips s s' := by
  obtain ⟨s₁, hmove, rfl⟩ := map_eq_ok_iff.mp h
  exact ⟨_, s₁, s.songs.playList.nextIndex_mem pick, QMediaPlaylist.nextIndex_ne_neg_one, hmove,
    rfl⟩

theorem onBackwardButtonClicked_ok {pick : ℕ} (h : s.onBackwardButtonClicked pick = .ok s') :
    Skips s s' := by
  obtain ⟨s₁, hmove, rfl⟩ := map_eq_ok_iff.mp h
  exact ⟨_, s₁, s.songs.playList.previousIndex_mem pick, QMediaPlaylist.previousIndex_ne_neg_one,
    hmove, rfl⟩

theorem onStopButtonClicked_cases (s : State) :
    s.onStopButtonClicked = { s with songs := s.songs.stop }.playToggle ∨
      s.onStopButtonClicked = s := by
  rw [onStopButtonClicked]
  split_ifs
  · exact Or.inl rfl
  · exact Or.inr rfl

/-- Repeat and shuffle set a playback mode, but never that of the videos. -/
theorem onRepeatButtonClicked_eq (s : State) : ∃ k mode icon, mode ≠ .currentItemOnce ∧
    s.onRepeatButtonClicked = { s with
      toggleRepeat := k
      songs := s.songs.setPlaybackMode mode
      ui.repeatButton := icon } := by
  rw [onRepeatButtonClicked]
  split_ifs
  · exact ⟨1, .loop, .repeatPressed, by decide, rfl⟩
  · exact ⟨2, .currentItemInLoop, .repeatOnce, by decide, rfl⟩
  · exact ⟨0, .sequential, .repeat, by decide, rfl⟩

theorem onShuffleButtonClicked_eq (s : State) : ∃ k mode icon, mode ≠ .currentItemOnce ∧
    s.onShuffleButtonClicked = { s with
      toggleShuffle := k
      songs := s.songs.setPlaybackMode mode
      ui.shuffleButton := icon } := by
  rw [onShuffleButtonClicked]
  split_ifs
  · exact ⟨1, .random, .shufflePressed, by decide, rfl⟩
  · exact ⟨0, .sequential, .shuffle, by decide, rfl⟩

theorem onPlayVideoButtonClicked_cases (s : State) :
    (s.playingVideoFlag = false ∧ s.onPlayVideoButtonClicked = s.playVideo) ∨
      (s.playingVideoFlag = true ∧ s.onPlayVideoButtonClicked = s.stopVideo) := by
  rw [onPlayVideoButtonClicked]
  split_ifs with hflag
  · exact Or.inl ⟨hflag, rfl⟩
  · exact Or.inr ⟨by simpa using hflag, rfl⟩

theorem onForwardVideoButtonClicked_cases (s : State) :
    s.onForwardVideoButtonClicked = s.reloadVideo.stopVideo ∨
      ∃ pos, s.onForwardVideoButtonClicked = s.setVideoPosition pos := by
  simp only [onForwardVideoButtonClicked]
  split_ifs
  · exact Or.inl rfl
  · exact Or.inr ⟨_, rfl⟩

theorem onDarkThemeButtonClicked_eq (s : State) : ∃ flag icon,
    s.onDarkThemeButtonClicked =
      { s with darkThemeFlag := flag, ui.darkThemeButton := icon } := by
  rw [onDarkThemeButtonClicked]
  split_ifs
  · exact ⟨1, .darkThemeOn, rfl⟩
  · exact ⟨0, .darkThemeOff, rfl⟩

theorem updatBluetoothDevices_eq (s : State) (sh : Shell W) : ∃ status label shown,
    s.updatBluetoothDevices sh = { s with
      bluetoothDeviceConnected := status
      ui.connectedBluetoothDeviceLabel := label
      ui.bluetoothIconLabel := shown } := by
  simp only [updatBluetoothDevices, pollBluetooth]
  split_ifs
  · exact ⟨.notConnected, _, false, rfl⟩
  · exact ⟨.connected, _, true, rfl⟩
  · exact ⟨s.bluetoothDeviceConnected, s.ui.connectedBluetoothDeviceLabel,
      s.ui.bluetoothIconLabel, rfl⟩

/-! ## Videos -/

@[simp] theorem playVideo_songs (s : State) :
    s.playVideo.songs = if s.playingSongFlag = true then s.songs.stop else s.songs := by
  unfold playVideo
  split_ifs <;> rfl

@[simp] theorem playVideo_playingSongFlag (s : State) : s.playVideo.playingSongFlag = false := by
  unfold playVideo
  split_ifs with hflag
  · rfl
  · simpa using hflag

@[simp] theorem playVideo_videos (s : State) : s.playVideo.videos = s.videos.play := by
  unfold playVideo
  split_ifs <;> rfl

@[simp] theorem playVideo_playingVideoFlag (s : State) : s.playVideo.playingVideoFlag = true := by
  unfold playVideo
  split_ifs <;> rfl

@[simp] theorem playVideo_pagesSwitch (s : State) : s.playVideo.pagesSwitch = s.pagesSwitch := by
  unfold playVideo
  split_ifs <;> rfl

@[simp] theorem playVideo_label (s : State) :
    s.playVideo.ui.currentRunningMediaLabel = s.ui.currentRunningMediaLabel := by
  unfold playVideo
  split_ifs <;> rfl

@[simp] theorem openVideo_songs (s : State) (i : ℕ) : (s.openVideo i).songs = s.songs := by
  unfold openVideo
  split_ifs <;> rfl

@[simp] theorem openVideo_playingSongFlag (s : State) (i : ℕ) :
    (s.openVideo i).playingSongFlag = s.playingSongFlag := by
  unfold openVideo
  split_ifs <;> rfl

@[simp] theorem openVideo_pagesSwitch (s : State) (i : ℕ) :
    (s.openVideo i).pagesSwitch = .videoShow := rfl

/-- The opened entry is current, whether it was before or not. -/
theorem openVideo_currentIndex {i : ℕ} (hi : i < s.videos.playList.media.length) :
    (s.openVideo i).videos.playList.currentIndex = i := by
  unfold openVideo
  split_ifs with hne
  · exact setCurrentIndex_currentIndex _ (by omega)
  · exact (not_not.mp hne).symm

theorem onVideoListItemClicked_ok {i : ℕ} (h : s.onVideoListItemClicked i = .ok s') :
    ∃ text, item s.videos.rows i = .ok text ∧
      s' = ((s.openVideo i).setMediaLabel text).playVideo := by
  have hrows : (s.openVideo i).videos.rows = s.videos.rows := by
    rw [openVideo]
    split_ifs <;> rfl
  simp only [onVideoListItemClicked, hrows] at h
  obtain ⟨text, hitem, rfl⟩ := map_eq_ok_iff.mp h
  exact ⟨text, hitem, rfl⟩

end State

/-! ## Events other than the flash poll -/

/-- Both shelves only make moves --- the videos keep their playback mode --- and nothing is learnt
about the stick. -/
structure UiEffect (s s' : State) : Prop where
  songs : Moves (· ≠ .currentItemOnce) s.songs s'.songs
  videos : Moves (fun _ => False) s.videos s'.videos
  flashStatus : s'.flashStatus = s.flashStatus
  usbName : s'.usbName = s.usbName
  usbPath : s'.usbPath = s.usbPath

namespace UiEffect

variable {s s' s'' : State}

theorem refl (s : State) : UiEffect s s := ⟨.refl _, .refl _, rfl, rfl, rfl⟩

theorem trans (h₁ : UiEffect s s') (h₂ : UiEffect s' s'') : UiEffect s s'' where
  songs := h₁.songs.trans h₂.songs
  videos := h₁.videos.trans h₂.videos
  flashStatus := h₂.flashStatus.trans h₁.flashStatus
  usbName := h₂.usbName.trans h₁.usbName
  usbPath := h₂.usbPath.trans h₁.usbPath

theorem moveSongs {f : MediaShelf → MediaShelf} (hf : ∀ m, Moves (· ≠ .currentItemOnce) m (f m))
    (h : s.moveSongs f = .ok s') : UiEffect s s' := by
  obtain ⟨text, -, rfl⟩ := State.moveSongs_ok h
  exact ⟨hf _, .refl _, rfl, rfl, rfl⟩

theorem playSong (h : s.playSong = .ok s') : UiEffect s s' := by
  obtain ⟨text, -, rfl⟩ := State.playSong_ok h
  exact ⟨.play _, .refl _, rfl, rfl, rfl⟩

theorem toggleIfPastEnd (s : State) : UiEffect s s.toggleIfPastEnd := by
  rw [State.toggleIfPastEnd]
  split_ifs
  · exact ⟨.refl _, .refl _, rfl, rfl, rfl⟩
  · exact .refl s

theorem skips (h : s.Skips s') : UiEffect s s' := by
  obtain ⟨pos, s₁, -, -, hmove, rfl⟩ := h
  exact (UiEffect.moveSongs (fun m => .setCurrentIndex m pos) hmove).trans (.toggleIfPastEnd s₁)

theorem playVideo (s : State) : UiEffect s s.playVideo := by
  simp only [State.playVideo]
  split_ifs
  · exact ⟨.stop _, .play _, rfl, rfl, rfl⟩
  · exact ⟨.refl _, .play _, rfl, rfl, rfl⟩

theorem stopVideo (s : State) : UiEffect s s.stopVideo := ⟨.refl _, .pause _, rfl, rfl, rfl⟩

theorem reloadVideo (s : State) : UiEffect s s.reloadVideo :=
  ⟨.refl _, .setCurrentIndex _ _, rfl, rfl, rfl⟩

theorem setVideoPosition (s : State) (pos : Int64) : UiEffect s (s.setVideoPosition pos) :=
  ⟨.refl _, .adjust _ _ rfl rfl, rfl, rfl, rfl⟩

theorem setMusicVolume (s : State) (volume : ℤ) : UiEffect s (s.setMusicVolume volume) :=
  ⟨.adjust _ _ rfl rfl, .refl _, rfl, rfl, rfl⟩

theorem setVideoVolume (s : State) (volume : ℤ) : UiEffect s (s.setVideoVolume volume) :=
  ⟨.refl _, .adjust _ _ rfl rfl, rfl, rfl, rfl⟩

/-- What only concerns pages, labels and icons. -/
theorem of_widgets (hs : s'.songs = s.songs) (hv : s'.videos = s.videos)
    (hf : s'.flashStatus = s.flashStatus) (hn : s'.usbName = s.usbName)
    (hp : s'.usbPath = s.usbPath) : UiEffect s s' :=
  ⟨hs ▸ .refl _, hv ▸ .refl _, hf, hn, hp⟩

theorem setMediaLabel (s : State) (text : Text) : UiEffect s (s.setMediaLabel text) :=
  .of_widgets rfl rfl rfl rfl rfl

theorem openVideo (s : State) (i : ℕ) : UiEffect s (s.openVideo i) := by
  simp only [State.openVideo]
  split_ifs
  · exact ⟨.refl _, .setCurrentIndex _ _, rfl, rfl, rfl⟩
  · exact ⟨.refl _, .refl _, rfl, rfl, rfl⟩

end UiEffect

theorem press_effect {s s' : State} {pick : ℕ} (b : Button) (h : s.press pick b = .ok s') :
    UiEffect s s' := by
  cases b <;> simp only [State.press, Except.ok.injEq] at h
  case playButton =>
    rcases State.onPlayButtonClicked_ok h with ⟨-, hplay⟩ | ⟨-, rfl⟩
    · exact .playSong hplay
    · exact ⟨.pause _, .refl _, rfl, rfl, rfl⟩
  case forwardButton => exact .skips (State.onForwardButtonClicked_ok h)
  case backwardButton => exact .skips (State.onBackwardButtonClicked_ok h)
  case stopButton =>
    subst h
    rcases s.onStopButtonClicked_cases with heq | heq <;> rw [heq]
    · exact ⟨.stop _, .refl _, rfl, rfl, rfl⟩
    · exact .refl s
  case repeatButton =>
    obtain ⟨k, mode, icon, hmode, heq⟩ := s.onRepeatButtonClicked_eq
    exact h ▸ heq ▸ ⟨.setPlaybackMode _ mode hmode, .refl _, rfl, rfl, rfl⟩
  case shuffleButton =>
    obtain ⟨k, mode, icon, hmode, heq⟩ := s.onShuffleButtonClicked_eq
    exact h ▸ heq ▸ ⟨.setPlaybackMode _ mode hmode, .refl _, rfl, rfl, rfl⟩
  case volumeDownButton => exact h ▸ .setMusicVolume _ _
  case volumeUpButton => exact h ▸ .setMusicVolume _ _
  case playVideoButton =>
    subst h
    rcases s.onPlayVideoButtonClicked_cases with ⟨-, heq⟩ | ⟨-, heq⟩ <;> rw [heq]
    · exact .playVideo s
    · exact .stopVideo s
  case forwardVideoButton =>
    subst h
    rcases s.onForwardVideoButtonClicked_cases with heq | ⟨pos, heq⟩ <;> rw [heq]
    · exact (UiEffect.reloadVideo s).trans (.stopVideo _)
    · exact .setVideoPosition s pos
  case backwardVideoButton => exact h ▸ .setVideoPosition _ _
  case stopVideoButton => exact h ▸ (UiEffect.reloadVideo s).trans (.stopVideo _)
  case volumeDownVideoButton => exact h ▸ .setVideoVolume _ _
  case volumeUpVideoButton => exact h ▸ .setVideoVolume _ _
  case goTovideosListButton =>
    exact h ▸ (UiEffect.stopVideo s).trans (.of_widgets rfl rfl rfl rfl rfl)
  case darkThemeButton =>
    obtain ⟨flag, icon, heq⟩ := s.onDarkThemeButtonClicked_eq
    exact h ▸ heq ▸ .of_widgets rfl rfl rfl rfl rfl
  all_goals exact h ▸ .of_widgets rfl rfl rfl rfl rfl

/-- **Events other than the flash poll only make moves.** -/
theorem uiStep_effect {s s' : State} (e : Event W) (h : uiStep s e = .ok s') : UiEffect s s' := by
  cases e <;> simp only [uiStep, Except.ok.injEq] at h
  case poll sh => exact h ▸ .refl s
  case clock date time => exact h ▸ .of_widgets rfl rfl rfl rfl rfl
  case bluetooth sh =>
    obtain ⟨status, label, shown, heq⟩ := s.updatBluetoothDevices_eq sh
    exact h ▸ heq ▸ .of_widgets rfl rfl rfl rfl rfl
  case click b pick => exact press_effect b h
  case songRow i =>
    obtain ⟨s₁, hmove, ⟨-, hplay⟩ | ⟨-, rfl⟩⟩ := State.onSongListItemClicked_ok h
    · exact (UiEffect.moveSongs (fun m => .setCurrentIndex m _) hmove).trans (.playSong hplay)
    · exact .moveSongs (fun m => .setCurrentIndex m _) hmove
  case videoRow i =>
    obtain ⟨text, -, rfl⟩ := State.onVideoListItemClicked_ok h
    exact ((UiEffect.openVideo s i).trans (.setMediaLabel _ text)).trans (.playVideo _)
  case songEnd pick => exact .moveSongs (fun m => .setCurrentIndex m _) h
  case videoEnd => exact h ▸ ⟨.refl _, .setCurrentIndex _ _, rfl, rfl, rfl⟩
  case videoProgress position duration =>
    exact h ▸ ⟨.refl _, .adjust _ _ rfl rfl, rfl, rfl, rfl⟩

/-! ## The flash poll -/

namespace State

variable {qt : Qt} {sh : Shell W} {s s' : State}

theorem updateLists_ok (h : s.updateLists qt sh = .ok s') :
    ∃ m v text, s.songsUpdate qt sh = some m ∧ s.videosUpdate qt sh = some v ∧
      Relabels s.songs m s.ui.currentRunningMediaLabel text ∧
      s' = { s with songs := m, videos := v }.setMediaLabel text := by
  obtain ⟨s₁, hsongs, hvideos⟩ := bind_eq_ok_iff.mp h
  rw [updateSongsList] at hsongs
  cases hm : s.songsUpdate qt sh with
  | none => simp [hm] at hsongs
  | some m =>
    rw [hm] at hsongs
    obtain ⟨text, hlabel, rfl⟩ := moveSongs_ok hsongs
    -- the label does not change what the videos are updated from
    have hv : (({ s with songs := m } : State).setMediaLabel text).videosUpdate qt sh =
        s.videosUpdate qt sh := rfl
    rw [updateVideosList, hv] at hvideos
    cases hv' : s.videosUpdate qt sh with
    | none => simp [hv'] at hvideos
    | some v =>
      simp only [hv', Except.ok.injEq] at hvideos
      exact ⟨m, v, text, rfl, rfl, hlabel, hvideos.symm⟩

end State

/-- The ways a flash poll can end. -/
inductive PollOutcome (qt : Qt) (sh : Shell W) (s : State) (w : W) : State × W → Prop where
  /-- A stick was mounted and listed. -/
  | inserted (m v : MediaShelf) (text : Text) :
      devicesConnected sh ≠ [] → s.flashStatus = .noFlashDetected →
      s.songs.updateList qt sh songsExt .sequential .flashDetected
        (usbPathOf (devicesConnected sh)) = some m →
      s.videos.updateList qt sh videosExt .currentItemOnce .flashDetected
        (usbPathOf (devicesConnected sh)) = some v →
      State.Relabels s.songs m s.ui.currentRunningMediaLabel text →
      PollOutcome qt sh s w
        (({ s.withUsb (devicesConnected sh) with songs := m, videos := v }.setMediaLabel
          text).showMediaBar, attachUsb sh (devicesConnected sh) w)
  /-- The stick is gone, and its directory too. -/
  | removed (m v : MediaShelf) (text : Text) :
      devicesConnected sh = [] → s.flashStatus = .flashDetected →
      (detachUsb sh s.usbName w).1 = true →
      s.songs.updateList qt sh songsExt .sequential .noFlashDetected s.usbPath = some m →
      s.videos.updateList qt sh videosExt .currentItemOnce .noFlashDetected s.usbPath = some v →
      State.Relabels s.songs m s.ui.currentRunningMediaLabel text →
      PollOutcome qt sh s w
        (({ s.withoutUsb with songs := m, videos := v }.setMediaLabel text).showMediaBar,
          (detachUsb sh s.usbName w).2)
  /-- The stick is gone, but unmounting it or removing its directory failed. -/
  | notDetached :
      devicesConnected sh = [] → s.flashStatus = .flashDetected →
      (detachUsb sh s.usbName w).1 = false →
      PollOutcome qt sh s w
        (({ s with flashStatus := .noFlashDetected } : State).showMediaBar,
          (detachUsb sh s.usbName w).2)
  /-- There is no stick, as before. -/
  | noUsb :
      devicesConnected sh = [] → s.flashStatus = .noFlashDetected →
      PollOutcome qt sh s w (s.noUsb.showMediaBar, w)
  /-- There is a stick, as before; which one is not looked at. -/
  | unchanged :
      devicesConnected sh ≠ [] → s.flashStatus = .flashDetected →
      PollOutcome qt sh s w (s.showMediaBar, w)

/-- **A flash poll that ends, ends in one of these ways.** -/
theorem poll_outcome {qt : Qt} {sh : Shell W} {s : State} {w : W} {c : State × W}
    (h : s.updateFlashStatus qt sh w = .ok c) : PollOutcome qt sh s w c := by
  obtain ⟨c₁, hfollow, rfl⟩ := map_eq_ok_iff.mp h
  rw [State.followUsb] at hfollow
  by_cases hdev : devicesConnected sh = []
  · cases hflash : s.flashStatus with
    | noFlashDetected =>
      simp only [hdev, hflash, ne_eq, not_true_eq_false, reduceCtorEq, and_false, and_self,
        if_false, if_true, false_and, Except.ok.injEq] at hfollow
      subst hfollow
      exact .noUsb hdev hflash
    | flashDetected =>
      simp only [hdev, hflash, ne_eq, not_true_eq_false, reduceCtorEq, and_false, and_self,
        if_false, if_true, State.usbRemoved] at hfollow
      split_ifs at hfollow with hdetach
      · obtain ⟨s₁, hlists, rfl⟩ := map_eq_ok_iff.mp hfollow
        obtain ⟨m, v, text, hm, hv, hlabel, rfl⟩ := State.updateLists_ok hlists
        exact .removed m v text hdev hflash hdetach hm hv hlabel
      · rw [← Except.ok.inj hfollow]
        exact .notDetached hdev hflash (by simpa using hdetach)
  · cases hflash : s.flashStatus with
    | noFlashDetected =>
      simp only [hdev, hflash, ne_eq, not_false_eq_true, and_self, if_true, State.usbInserted]
        at hfollow
      obtain ⟨s₁, hlists, rfl⟩ := map_eq_ok_iff.mp hfollow
      obtain ⟨m, v, text, hm, hv, hlabel, rfl⟩ := State.updateLists_ok hlists
      exact .inserted m v text hdev hflash hm hv hlabel
    | flashDetected =>
      simp only [hdev, hflash, reduceCtorEq, and_false, false_and, if_false, Except.ok.injEq]
        at hfollow
      subst hfollow
      exact .unchanged hdev hflash

theorem step_eq_uiStep {qt : Qt} {e : Event W} (he : ∀ sh, e ≠ .poll sh) (c : State × W) :
    step qt e c = (uiStep c.1 e).map (·, c.2) := by
  cases e with
  | poll sh => exact absurd rfl (he sh)
  | _ => rfl

/-- What a step does: a poll, or an event that leaves the machine alone. -/
theorem step_cases {qt : Qt} {e : Event W} {c c' : State × W} (h : step qt e c = .ok c') :
    (∃ sh, e = .poll sh ∧ PollOutcome qt sh c.1 c.2 c') ∨
      ((∀ sh, e ≠ .poll sh) ∧ uiStep c.1 e = .ok c'.1 ∧ c'.2 = c.2) := by
  by_cases hpoll : ∃ sh, e = .poll sh
  · obtain ⟨sh, rfl⟩ := hpoll
    exact Or.inl ⟨sh, rfl, poll_outcome h⟩
  · have he : ∀ sh, e ≠ .poll sh := fun sh hsh => hpoll ⟨sh, hsh⟩
    rw [step_eq_uiStep he] at h
    obtain ⟨s', hs', rfl⟩ := map_eq_ok_iff.mp h
    exact Or.inr ⟨he, hs', rfl⟩

end Infotainment
