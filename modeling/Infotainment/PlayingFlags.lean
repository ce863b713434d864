import Infotainment.ParallelLists

/-!
# The playing flags

`playingSongFlag` and `playingVideoFlag` are the program's own record of whether a player plays; it
never asks the player.  Each slot that starts or stops a player sets the flag beside it, and
`on_forwardButton_clicked` and `on_backwardButton_clicked` even look whether the playlist was left
at its end.  What is not covered are the ways in which a player stops that no slot accounts for:

* the last song of the list, or any video, comes to its natural end;
* a stick is removed while something plays, and the playlist is cleared;
* a stick is inserted while something plays, and Qt rewinds when it is handed the playlist.

And in one way a flag is set for a player that does not start: play is pressed on the video page
while there is no video.  `KeepsFlags` says of an event that it is none of these, and
`flags_true_iff` that nothing else can go wrong.
-/

namespace Infotainment

open EventSystem MediaShelf

variable {W : Type} {qt : Qt}

/-! ## The two shelves -/

/-- What is true of the two shelves at all times.  The modes tell which of their ends a player runs
past: the videos' player stops at the end of every entry. -/
structure ShelvesSound (s : State) : Prop where
  songs : s.songs.Sound
  videos : s.videos.Sound
  songsMode : s.songs.playList.playbackMode ≠ .currentItemOnce
  videosMode : s.videos.player.hasPlaylist = true →
    s.videos.playList.playbackMode = .currentItemOnce

theorem shelvesSound_startup : ShelvesSound startup :=
  ⟨sound_new, sound_new, by decide, by decide⟩

theorem MediaShelf.update_mode {m m' : MediaShelf} {ext usbPath count list : Text}
    {mode : PlaybackMode} {flashStatus : FlashStatus}
    (h : m.update qt ext mode flashStatus usbPath count list = some m') :
    (m'.playList.playbackMode = m.playList.playbackMode ∧
        m'.player.hasPlaylist = m.player.hasPlaylist) ∨
      m'.playList.playbackMode = mode := by
  rcases update_cases h with ⟨-, -, rfl⟩ | ⟨-, -, rfl⟩ | ⟨-, -, rfl⟩ | ⟨-, -, paths, -, rfl⟩
  · exact Or.inl ⟨rfl, QMediaPlayer.load_hasPlaylist _ _⟩
  · exact Or.inl ⟨rfl, rfl⟩
  · exact Or.inl ⟨rfl, rfl⟩
  · exact Or.inr filled_mode

theorem UiEffect.shelvesSound {s s' : State} (h : UiEffect s s') (hs : ShelvesSound s) :
    ShelvesSound s' where
  songs := h.songs.sound hs.songs
  videos := h.videos.sound hs.videos
  songsMode := by
    rcases h.songs.playbackMode with hmode | hmode
    · rw [hmode]
      exact hs.songsMode
    · exact hmode
  videosMode := by
    rcases h.videos.playbackMode with hmode | hmode
    · rw [hmode, h.videos.sameFiles.hasPlaylist]
      exact hs.videosMode
    · exact absurd hmode id

/-- Sound shelves are updated to sound shelves. -/
theorem ShelvesSound.update {s : State} (hs : ShelvesSound s) {flashStatus : FlashStatus}
    {usbPath count list count' list' : Text} {m v : MediaShelf}
    (hm : s.songs.update qt songsExt .sequential flashStatus usbPath count list = some m)
    (hv : s.videos.update qt videosExt .currentItemOnce flashStatus usbPath count' list' = some v)
    {s' : State} (hsongs : s'.songs = m) (hvideos : s'.videos = v) : ShelvesSound s' where
  songs := hsongs ▸ update_sound hs.songs hm
  videos := hvideos ▸ update_sound hs.videos hv
  songsMode := by
    rw [hsongs]
    rcases update_mode hm with ⟨hmode, -⟩ | hmode
    · rw [hmode]
      exact hs.songsMode
    · rw [hmode]
      decide
  videosMode := by
    rw [hvideos]
    rcases update_mode hv with ⟨hmode, hlist⟩ | hmode
    · rw [hmode, hlist]
      exact hs.videosMode
    · exact fun _ => hmode

theorem ShelvesSound.congr {s s' : State} (hs : ShelvesSound s) (hsongs : s'.songs = s.songs)
    (hvideos : s'.videos = s.videos) : ShelvesSound s' :=
  ⟨hsongs ▸ hs.songs, hvideos ▸ hs.videos, hsongs ▸ hs.songsMode, hvideos ▸ hs.videosMode⟩

theorem PollOutcome.shelvesSound {sh : Shell W} {s : State} {w : W} {c : State × W}
    (h : PollOutcome qt sh s w c) (hs : ShelvesSound s) : ShelvesSound c.1 := by
  cases h with
  | inserted m v text hdev hflash hm hv => exact hs.update hm hv (by simp) (by simp)
  | removed m v text hdev hflash hdetach hm hv => exact hs.update hm hv (by simp) (by simp)
  | notDetached => exact hs.congr (by simp) (by simp)
  | noUsb => exact hs.congr (by simp [State.noUsb]) (by simp [State.noUsb])
  | unchanged => exact hs.congr (by simp) (by simp)

theorem step_shelvesSound {e : Event W} {c c' : State × W} (h : step qt e c = .ok c')
    (hc : ShelvesSound c.1) : ShelvesSound c'.1 := by
  rcases step_cases h with ⟨sh, rfl, hpoll⟩ | ⟨-, hui, -⟩
  · exact hpoll.shelvesSound hc
  · exact (uiStep_effect e hui).shelvesSound hc

theorem shelvesSound_of_history {l : List (Transition (State × W) (Event W))} {c : State × W}
    (h : (anyEvents qt W).History l c) : ShelvesSound c.1 := by
  refine h.invariant (I := fun c' => ShelvesSound c'.1) (fun c' hc' => hc' ▸ shelvesSound_startup)
    ?_
  intro x hx hI
  exact step_shelvesSound hx.2 hI

/-! ## The flags, one slot at a time -/

namespace State

variable (s : State)

/-- `playingSongFlag` tells whether the music player plays. -/
def SongFlagTrue : Prop := s.playingSongFlag = true ↔ s.songs.player.playing = true

/-- `playingVideoFlag` tells whether the video player plays. -/
def VideoFlagTrue : Prop := s.playingVideoFlag = true ↔ s.videos.player.playing = true

def FlagsTrue : Prop := s.SongFlagTrue ∧ s.VideoFlagTrue

instance : Decidable s.FlagsTrue := inferInstanceAs (Decidable ((_ ↔ _) ∧ (_ ↔ _)))

variable {s} {s' : State} {pos : ℤ}

/-- After a move of the song index the flag is still true unless the player stopped. -/
theorem songFlagTrue_moveIndex (hm : s.songs.Sound) (hs : s.SongFlagTrue)
    (h : s.moveSongs (·.setCurrentIndex pos) = .ok s') :
    s'.SongFlagTrue ↔
      (s.playingSongFlag = true → (s.songs.setCurrentIndex pos).playList.currentIndex ≠ -1) := by
  obtain ⟨text, -, rfl⟩ := moveSongs_ok h
  show (s.playingSongFlag = true ↔ (s.songs.setCurrentIndex pos).player.playing = true) ↔ _
  rw [hm.setCurrentIndex_playing, ← show s.playingSongFlag = true ↔ _ from hs]
  exact iff_self_and

theorem songFlagTrue_playSong (hm : s.songs.Sound) (h : s.playSong = .ok s') :
    s'.SongFlagTrue := by
  obtain ⟨text, hitem, rfl⟩ := playSong_ok h
  have h0 := (item_eq_ok_iff.mp hitem).1
  have hne : s.songs.playList.media ≠ [] :=
    QMediaPlaylist.media_ne_nil_of_currentIndex (by omega)
  exact iff_of_true rfl (hm.play_playing.mpr hne)

/-- Running past the end in sequential mode is noticed, and in the other modes nothing does. -/
theorem songFlagTrue_of_skips (hs : ShelvesSound s) (hflag : s.SongFlagTrue) (h : s.Skips s') :
    s'.SongFlagTrue := by
  obtain ⟨pos, s₁, hpos, hend, hmove, rfl⟩ := h
  have hgoes := songFlagTrue_moveIndex hs.songs hflag hmove
  have hcur : (s.songs.setCurrentIndex pos).playList.currentIndex = pos :=
    setCurrentIndex_currentIndex _ hpos
  obtain ⟨text, -, rfl⟩ := moveSongs_ok hmove
  rw [hcur] at hgoes
  rw [toggleIfPastEnd]
  simp only [setMediaLabel_songs, hcur, setCurrentIndex_mode]
  split_ifs with hpast
  · -- the flag is reset, and the player stopped
    have hstopped : ¬ (s.songs.setCurrentIndex pos).player.playing = true := by
      rw [hs.songs.setCurrentIndex_playing, hcur]
      rintro ⟨-, hne⟩
      omega
    simpa [SongFlagTrue] using hstopped
  · refine hgoes.mpr fun hf hneg => ?_
    have hplays := hs.songs.current (hflag.mp hf)
    exact hend hplays hs.songsMode (fun hseq => hpast ⟨by omega, hseq⟩) hneg

theorem flagsTrue_of_skips (hs : ShelvesSound s) (hflags : s.FlagsTrue) (h : s.Skips s') :
    s'.FlagsTrue := by
  refine ⟨songFlagTrue_of_skips hs hflags.1 h, ?_⟩
  obtain ⟨pos, s₁, -, -, hmove, rfl⟩ := h
  obtain ⟨text, -, rfl⟩ := moveSongs_ok hmove
  simpa [VideoFlagTrue] using hflags.2

theorem songFlagTrue_playVideo (hs : s.SongFlagTrue) : s.playVideo.SongFlagTrue := by
  refine iff_of_false (by simp) ?_
  rw [playVideo_songs]
  split_ifs with hflag
  · simp [MediaShelf.stop]
  · exact fun hplays => hflag (hs.mpr hplays)

/-- The video flag is set whether there is a video or not. -/
theorem videoFlagTrue_playVideo (hm : s.videos.Sound) :
    s.playVideo.VideoFlagTrue ↔ s.videos.playList.media ≠ [] := by
  rw [← hm.play_playing]
  simp [VideoFlagTrue]

theorem flagsTrue_stopVideo (hs : s.SongFlagTrue) : s.stopVideo.FlagsTrue :=
  ⟨hs, by simp [VideoFlagTrue, stopVideo, MediaShelf.pause]⟩

end State

/-! ## All events -/

/-- If the poll lists a new stick and Qt rewinds, it fills no list that plays. -/
def RewindsNoPlayer (qt : Qt) (sh : Shell W) (s : State) : Prop :=
  FindsNewStick sh s → qt.setPlaylistRewinds = true →
    (s.playingSongFlag = true → ¬ CountsFiles sh songsExt) ∧
    (s.playingVideoFlag = true → ¬ CountsFiles sh videosExt)

/-- If the poll unmounts a removed stick, it clears no list that plays. -/
def ClearsNoPlayer (sh : Shell W) (c : State × W) : Prop :=
  devicesConnected sh = [] → c.1.flashStatus = .flashDetected →
    (detachUsb sh c.1.usbName c.2).1 = true →
      (c.1.playingSongFlag = true → c.1.songs.rows = []) ∧
      (c.1.playingVideoFlag = true → c.1.videos.rows = [])

/-- The event stops no player whose flag is set, and sets no flag for a player that does not
start. -/
def KeepsFlags (qt : Qt) (c : State × W) : Event W → Prop
  | .poll sh => RewindsNoPlayer qt sh c.1 ∧ ClearsNoPlayer sh c
  | .click b _ =>
      b = .playVideoButton → c.1.playingVideoFlag = false → c.1.videos.playList.media ≠ []
  | .songEnd _ =>
      ¬ (c.1.songs.playList.playbackMode = .sequential ∧
        c.1.songs.playList.currentIndex = c.1.songs.playList.media.length - 1)
  | .videoEnd => False
  | _ => True

instance (sh : Shell W) (s : State) : Decidable (RewindsNoPlayer qt sh s) :=
  inferInstanceAs (Decidable (_ → _ → _ ∧ _))

instance (sh : Shell W) (c : State × W) : Decidable (ClearsNoPlayer sh c) :=
  inferInstanceAs (Decidable (_ → _ → _ → _ ∧ _))

instance (c : State × W) : ∀ e : Event W, Decidable (KeepsFlags qt c e)
  | .poll _ => inferInstanceAs (Decidable (_ ∧ _))
  | .click _ _ => inferInstanceAs (Decidable (_ → _ → _ ≠ _))
  | .songEnd _ => inferInstanceAs (Decidable (¬ (_ ∧ _)))
  | .videoEnd => inferInstanceAs (Decidable False)
  | .clock .. | .bluetooth .. | .songRow .. | .videoRow .. | .videoProgress .. =>
    inferInstanceAs (Decidable True)

/-- The buttons other than play on the video's page. -/
theorem press_flagsTrue {s s' : State} {pick : ℕ} {b : Button} (hb : b ≠ .playVideoButton)
    (hs : ShelvesSound s) (hflags : s.FlagsTrue) (h : s.press pick b = .ok s') :
    s'.FlagsTrue := by
  obtain ⟨hsong, hvideo⟩ := hflags
  cases b <;> simp only [State.press, Except.ok.injEq] at h
  case playButton =>
    rcases State.onPlayButtonClicked_ok h with ⟨-, hplay⟩ | ⟨-, rfl⟩
    · refine ⟨State.songFlagTrue_playSong hs.songs hplay, ?_⟩
      obtain ⟨text, -, rfl⟩ := State.playSong_ok hplay
      exact hvideo
    · refine ⟨?_, hvideo⟩
      show false = true ↔ s.songs.pause.player.playing = true
      simp [MediaShelf.pause]
  case forwardButton =>
    exact State.flagsTrue_of_skips hs ⟨hsong, hvideo⟩ (State.onForwardButtonClicked_ok h)
  case backwardButton =>
    exact State.flagsTrue_of_skips hs ⟨hsong, hvideo⟩ (State.onBackwardButtonClicked_ok h)
  case stopButton =>
    subst h
    rcases s.onStopButtonClicked_cases with heq | heq <;> rw [heq]
    · refine ⟨?_, hvideo⟩
      show false = true ↔ s.songs.stop.player.playing = true
      simp [MediaShelf.stop]
    · exact ⟨hsong, hvideo⟩
  case repeatButton =>
    obtain ⟨k, mode, icon, -, heq⟩ := s.onRepeatButtonClicked_eq
    exact h ▸ heq ▸ ⟨hsong, hvideo⟩
  case shuffleButton =>
    obtain ⟨k, mode, icon, -, heq⟩ := s.onShuffleButtonClicked_eq
    exact h ▸ heq ▸ ⟨hsong, hvideo⟩
  case playVideoButton => exact absurd rfl hb
  case forwardVideoButton =>
    subst h
    rcases s.onForwardVideoButtonClicked_cases with heq | ⟨pos, heq⟩ <;> rw [heq]
    · exact State.flagsTrue_stopVideo hsong
    · exact ⟨hsong, hvideo⟩
  case stopVideoButton => exact h ▸ State.flagsTrue_stopVideo hsong
  case goTovideosListButton => exact h ▸ State.flagsTrue_stopVideo hsong
  case darkThemeButton =>
    obtain ⟨flag, icon, heq⟩ := s.onDarkThemeButtonClicked_eq
    exact h ▸ heq ▸ ⟨hsong, hvideo⟩
  all_goals exact h ▸ ⟨hsong, hvideo⟩

theorem onPlayVideoButtonClicked_flagsTrue_iff {s : State} (hs : ShelvesSound s)
    (hflags : s.FlagsTrue) :
    s.onPlayVideoButtonClicked.FlagsTrue ↔
      (s.playingVideoFlag = false → s.videos.playList.media ≠ []) := by
  rcases s.onPlayVideoButtonClicked_cases with ⟨hflag, heq⟩ | ⟨hflag, heq⟩ <;> rw [heq]
  · rw [State.FlagsTrue, and_iff_right (State.songFlagTrue_playVideo hflags.1),
      State.videoFlagTrue_playVideo hs.videos]
    exact ⟨fun h _ => h, fun h => h hflag⟩
  · refine iff_of_true (State.flagsTrue_stopVideo hflags.1) fun h => ?_
    exact absurd (hflag.symm.trans h) (by decide)

/-- A click on a song leaves the flag true: the player plays afterwards, or it did before. -/
theorem flagsTrue_onSongListItemClicked {s s' : State} {i : ℕ} (hs : ShelvesSound s)
    (hflags : s.FlagsTrue) (hi : i < s.songs.rows.length)
    (h : s.onSongListItemClicked i = .ok s') : s'.FlagsTrue := by
  obtain ⟨hsong, hvideo⟩ := hflags
  obtain ⟨s₁, hmove, hplay⟩ := State.onSongListItemClicked_ok h
  have hlt : i < s.songs.playList.media.length := lt_of_lt_of_le hi hs.songs.rows_le
  have hcur : (s.songs.setCurrentIndex i).playList.currentIndex = i :=
    setCurrentIndex_currentIndex _ (by omega)
  have hsong₁ : s₁.SongFlagTrue := by
    rw [State.songFlagTrue_moveIndex hs.songs hsong hmove, hcur]
    exact fun _ => by omega
  have hvideo₁ : s₁.VideoFlagTrue := by
    obtain ⟨text, -, rfl⟩ := State.moveSongs_ok hmove
    exact hvideo
  have hsound₁ := (UiEffect.moveSongs (fun m => .setCurrentIndex m _) hmove).shelvesSound hs
  rcases hplay with ⟨-, hplay⟩ | ⟨-, rfl⟩
  · refine ⟨State.songFlagTrue_playSong hsound₁.songs hplay, ?_⟩
    obtain ⟨text, -, rfl⟩ := State.playSong_ok hplay
    exact hvideo₁
  · exact ⟨hsong₁, hvideo₁⟩

theorem flagsTrue_onVideoListItemClicked {s s' : State} {i : ℕ} (hs : ShelvesSound s)
    (hflags : s.FlagsTrue) (hi : i < s.videos.rows.length)
    (h : s.onVideoListItemClicked i = .ok s') : s'.FlagsTrue := by
  obtain ⟨text, -, rfl⟩ := State.onVideoListItemClicked_ok h
  have hopen := (UiEffect.openVideo s i).trans (.setMediaLabel _ text)
  have hsong : ((s.openVideo i).setMediaLabel text).SongFlagTrue := by
    simpa [State.SongFlagTrue] using hflags.1
  have hmedia : ((s.openVideo i).setMediaLabel text).videos.playList.media ≠ [] := by
    rw [hopen.videos.sameFiles.media]
    exact hs.videos.media_ne_nil_of_row hi
  exact ⟨State.songFlagTrue_playVideo hsong,
    (State.videoFlagTrue_playVideo (hopen.shelvesSound hs).videos).mpr hmedia⟩

theorem uiStep_flagsTrue_iff {e : Event W} {s s' : State} {w : W} (he : ∀ sh, e ≠ .poll sh)
    (hs : ShelvesSound s) (hflags : s.FlagsTrue) (hshown : Shown e s) (h : uiStep s e = .ok s') :
    s'.FlagsTrue ↔ KeepsFlags qt (s, w) e := by
  cases e <;> simp only [uiStep, Except.ok.injEq] at h
  case poll sh => exact absurd rfl (he sh)
  case clock date time => exact iff_of_true (h ▸ hflags) trivial
  case bluetooth sh =>
    obtain ⟨status, label, shown, heq⟩ := s.updatBluetoothDevices_eq sh
    exact iff_of_true (h ▸ heq ▸ hflags) trivial
  case click b pick =>
    by_cases hb : b = .playVideoButton
    · subst hb
      rw [← Except.ok.inj h, onPlayVideoButtonClicked_flagsTrue_iff hs hflags]
      exact ⟨fun h _ => h, fun h => h rfl⟩
    · exact iff_of_true (press_flagsTrue hb hs hflags h) fun h => absurd h hb
  case songRow i =>
    exact iff_of_true (flagsTrue_onSongListItemClicked hs hflags hshown.2 h) trivial
  case videoRow i =>
    exact iff_of_true (flagsTrue_onVideoListItemClicked hs hflags hshown.2 h) trivial
  case songEnd pick =>
    -- only a song that plays can end
    have hplays : s.songs.player.playing = true := hshown
    have hcur := hs.songs.current hplays
    have hvideo : s'.VideoFlagTrue := by
      obtain ⟨text, -, rfl⟩ := State.moveSongs_ok h
      exact hflags.2
    rw [State.FlagsTrue, and_iff_left hvideo, State.songFlagTrue_moveIndex hs.songs hflags.1 h,
      setCurrentIndex_currentIndex _ (s.songs.playList.nextIndex_mem pick), KeepsFlags,
      ← QMediaPlaylist.nextIndex_eq_neg_one_iff hcur hs.songsMode]
    exact forall_prop_of_true (hflags.1.mpr hplays)
  case videoEnd =>
    subst h
    have hplays : s.videos.player.playing = true := hshown
    have hlist := hs.videos.hasPlaylist (hs.videos.media_ne_nil hplays)
    have hnext : s.videos.playList.nextIndex 0 = -1 :=
      QMediaPlaylist.nextIndex_of_currentItemOnce (hs.videosMode hlist)
    have hstopped : ¬ s.videoEnded.videos.player.playing = true := by
      show ¬ (s.videos.setCurrentIndex _).player.playing = true
      rw [hs.videos.setCurrentIndex_playing,
        setCurrentIndex_currentIndex _ (s.videos.playList.nextIndex_mem 0), hnext]
      exact fun hne => hne.2 rfl
    refine iff_of_false (fun htrue => ?_) id
    exact hstopped (htrue.2.mp (hflags.2.mpr hplays))
  case videoProgress position duration => exact iff_of_true (h ▸ hflags) trivial

/-- A flag stays true when its list is updated, unless it is set and the update stops the
player. -/
theorem flagTrue_update_iff {m m' : MediaShelf} {flag : Bool} {ext usbPath count list : Text}
    {mode : PlaybackMode} {flashStatus : FlashStatus} (hm : m.Sound)
    (hflag : flag = true ↔ m.player.playing = true)
    (h : m.update qt ext mode flashStatus usbPath count list = some m') :
    (flag = true ↔ m'.player.playing = true) ↔
      (flag = true → ¬ UpdateStops qt flashStatus count m) := by
  rw [update_playing hm h, ← hflag]
  exact iff_self_and

theorem PollOutcome.flagsTrue_iff {sh : Shell W} {s : State} {w : W} {c : State × W}
    (h : PollOutcome qt sh s w c) (hs : ShelvesSound s) (hflags : s.FlagsTrue) :
    c.1.FlagsTrue ↔ KeepsFlags qt (s, w) (.poll sh) := by
  obtain ⟨hsong, hvideo⟩ := hflags
  cases h with
  | inserted m v text hdev hflash hm hv =>
    have hiff := and_congr (flagTrue_update_iff hs.songs hsong hm)
      (flagTrue_update_iff hs.videos hvideo hv)
    have hclears : ClearsNoPlayer sh (s, w) := fun hnone => absurd hnone hdev
    have hnew : FindsNewStick sh s := ⟨hdev, hflash⟩
    refine Iff.trans ?_ (hiff.trans ?_)
    · simp [State.FlagsTrue, State.SongFlagTrue, State.VideoFlagTrue, State.withUsb]
    · cases hrewinds : qt.setPlaylistRewinds <;>
        simp [KeepsFlags, RewindsNoPlayer, UpdateStops, CountsFiles, hclears, hnew, hrewinds]
  | removed m v text hdev hflash hdetach hm hv =>
    have hiff := and_congr (flagTrue_update_iff hs.songs hsong hm)
      (flagTrue_update_iff hs.videos hvideo hv)
    have hrewinds : RewindsNoPlayer qt sh s := fun hnew => absurd hdev hnew.1
    refine Iff.trans ?_ (hiff.trans ?_)
    · simp [State.FlagsTrue, State.SongFlagTrue, State.VideoFlagTrue, State.withoutUsb]
    · simp [KeepsFlags, ClearsNoPlayer, UpdateStops, hrewinds, hdev, hflash, hdetach]
  | notDetached hdev hflash hdetach =>
    refine iff_of_true ?_ ⟨fun hnew => absurd hdev hnew.1, fun _ _ h => ?_⟩
    · exact ⟨by simpa [State.SongFlagTrue] using hsong, by simpa [State.VideoFlagTrue] using hvideo⟩
    · exact absurd h (by simp [hdetach])
  | noUsb hdev hflash =>
    refine iff_of_true ?_ ⟨fun hnew => absurd hdev hnew.1, fun _ h => ?_⟩
    · exact ⟨by simpa [State.SongFlagTrue, State.noUsb] using hsong,
        by simpa [State.VideoFlagTrue, State.noUsb] using hvideo⟩
    · exact absurd (h.symm.trans hflash) (by decide)
  | unchanged hdev hflash =>
    refine iff_of_true ?_ ⟨fun hnew => ?_, fun hnone => absurd hnone hdev⟩
    · exact ⟨by simpa [State.SongFlagTrue] using hsong, by simpa [State.VideoFlagTrue] using hvideo⟩
    · exact absurd (hnew.2.symm.trans hflash) (by decide)

theorem step_flagsTrue_iff {e : Event W} {c c' : State × W} (hs : ShelvesSound c.1)
    (hflags : c.1.FlagsTrue) (hshown : Shown e c.1) (h : step qt e c = .ok c') :
    c'.1.FlagsTrue ↔ KeepsFlags qt c e := by
  rcases step_cases h with ⟨sh, rfl, hpoll⟩ | ⟨he, hui, -⟩
  · exact hpoll.flagsTrue_iff hs hflags
  · exact uiStep_flagsTrue_iff he hs hflags hshown hui

theorem flagsTrue_startup : startup.FlagsTrue := by decide

/-- A run whose events keep the flags ends with true flags. -/
theorem flagsTrue_of_keeps {l : List (Transition (State × W) (Event W))} {c : State × W}
    (h : (shownEvents qt W).History l c) (hl : ∀ x ∈ l, KeepsFlags qt x.before x.event) :
    c.1.FlagsTrue := by
  refine (h.guarded (I := fun c' => ShelvesSound c'.1 ∧ c'.1.FlagsTrue) ?_ ?_ hl).2
  · exact fun c' hc' => ⟨hc' ▸ shelvesSound_startup, hc' ▸ flagsTrue_startup⟩
  · intro x hx hI hC
    exact ⟨step_shelvesSound hx.2 hI.1, (step_flagsTrue_iff hI.1 hI.2 hx.1 hx.2).mpr hC⟩

/-- **When the playing flags tell the truth.**  In a run in front of the screen, both flags are true
in every state exactly when every event keeps them. -/
theorem flags_true_iff {l : List (Transition (State × W) (Event W))} {c : State × W}
    (h : (shownEvents qt W).History l c) :
    (∀ c', Machine.Visits l c c' → c'.1.FlagsTrue) ↔ ∀ x ∈ l, KeepsFlags qt x.before x.event := by
  have h0 : ∀ c : State × W, c.1 = startup → c.1.FlagsTrue :=
    fun c hc => hc ▸ flagsTrue_startup
  rw [h.forall_visits_iff (P := fun c' => c'.1.FlagsTrue) h0]
  refine h.forall_iff (J := fun c' => ShelvesSound c'.1 ∧ c'.1.FlagsTrue)
    (fun c' hc' => ⟨hc' ▸ shelvesSound_startup, h0 c' hc'⟩) ?_ ?_
  · intro x hx hJ
    exact step_flagsTrue_iff hJ.1 hJ.2 hx.1 hx.2
  · intro x hx hJ hC
    exact ⟨step_shelvesSound hx.2 hJ.1, (step_flagsTrue_iff hJ.1 hJ.2 hx.1 hx.2).mpr hC⟩

/-- A song is played, comes to its end with another song behind it, and is stopped. -/
theorem flags_true_past_first_song :
    ∃ l c, (shownEvents ⟨false⟩ Unit).History l c ∧ l.length = 5 ∧
      ∀ c', Machine.Visits l c c' → c'.1.FlagsTrue := by
  obtain ⟨l, c, hl, -, hp⟩ := Machine.exists_history_of_replay (M := shownEvents ⟨false⟩ Unit)
    (s := (startup, ())) rfl
    [.poll (stickShell "sda1".toList ["a.mp3".toList, "b.mp3".toList] [] 0),
      .click .musicButton 0, .songRow 0, .songEnd 0, .click .stopButton 0]
    (fun l _ => decide (l.length = 5 ∧ ∀ x ∈ l, KeepsFlags ⟨false⟩ x.before x.event))
    (by decide +kernel)
  obtain ⟨hlen, hC⟩ := of_decide_eq_true hp
  exact ⟨l, c, hl, hlen, (flags_true_iff hl).mpr hC⟩

/-- After the last song came to its end, the flag says that a song is playing. -/
theorem flag_set_after_last_song :
    ¬ ∃ qt : Qt, ∀ l c, (shownEvents qt Unit).History l c → c.1.FlagsTrue := by
  rintro ⟨⟨rewinds⟩, hall⟩
  obtain ⟨l, c, hl, -, hp⟩ := Machine.exists_history_of_replay
    (M := shownEvents ⟨rewinds⟩ Unit) (s := (startup, ())) rfl
    [.poll (stickShell "sda1".toList ["a.mp3".toList] [] 0),
      .click .musicButton 0, .songRow 0, .songEnd 0]
    (fun _ c => decide ¬ c.1.FlagsTrue) (by cases rewinds <;> decide +kernel)
  exact of_decide_eq_true hp (hall l c hl)

end Infotainment
