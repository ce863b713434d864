import Infotainment.PlayingFlags

/-!
# Music and video never play together

`playVideo` stops the music before it starts the video, but `playSong` does not stop the
video.  That nothing goes wrong is due to the pages: the slots that start music belong to the music
page, the video plays on the page that shows it, and the one way off that page, its back button,
pauses the video.

The invariant `Exclusive` says so.  It does not need the flags to be true, only that a player that
plays has its flag set; whatever stops a player behind the program's back does no harm to that.
-/

namespace Infotainment

open EventSystem MediaShelf

variable {W : Type} {qt : Qt} {s s' : State}

/-- A player that plays has its flag set, and the video's flag is only set on the video's page and
while the music's is not. -/
structure Exclusive (s : State) : Prop where
  song : s.songs.player.playing = true → s.playingSongFlag = true
  video : s.videos.player.playing = true → s.playingVideoFlag = true
  page : s.playingVideoFlag = true → s.pagesSwitch = .videoShow ∧ s.playingSongFlag = false

namespace Exclusive

theorem startup : Exclusive startup := ⟨by decide, by decide, by decide⟩

theorem videoFlag_eq_false (hs : Exclusive s) (hpage : s.pagesSwitch ≠ .videoShow) :
    s.playingVideoFlag = false := by
  by_contra hflag
  rw [Bool.not_eq_false] at hflag
  exact hpage (hs.page hflag).1

/-- What starts no player and leaves flags and page alone keeps the invariant. -/
theorem of_quiet (hs : Exclusive s)
    (hsongs : s'.songs.player.playing = true → s.songs.player.playing = true)
    (hvideos : s'.videos.player.playing = true → s.videos.player.playing = true)
    (hsong : s'.playingSongFlag = s.playingSongFlag)
    (hvideo : s'.playingVideoFlag = s.playingVideoFlag)
    (hpage : s'.pagesSwitch = s.pagesSwitch) : Exclusive s' where
  song hplays := by
    rw [hsong]
    exact hs.song (hsongs hplays)
  video hplays := by
    rw [hvideo]
    exact hs.video (hvideos hplays)
  page hflag := by
    rw [hpage, hsong]
    exact hs.page (hvideo ▸ hflag)

/-- Off the video's page, what leaves the video alone only has to set the song's flag. -/
theorem of_song (hs : Exclusive s) (hoff : s.pagesSwitch ≠ .videoShow)
    (hvideos : s'.videos = s.videos) (hvideo : s'.playingVideoFlag = s.playingVideoFlag)
    (hsong : s'.songs.player.playing = true → s'.playingSongFlag = true) : Exclusive s' where
  song := hsong
  video hplays := by
    rw [hvideo]
    exact hs.video (hvideos ▸ hplays)
  page hflag := by
    rw [hvideo, hs.videoFlag_eq_false hoff] at hflag
    exact absurd hflag (by decide)

/-- Changing the page from one that does not show the video. -/
theorem showPage (hs : Exclusive s) (hoff : s.pagesSwitch ≠ .videoShow) (page : Page) :
    Exclusive (s.showPage page) :=
  hs.of_song hoff rfl rfl hs.song

/-- A video that is started stops the music first, as far as the flag knows of it. -/
theorem song_not_playing_playVideo
    (hsong : s.songs.player.playing = true → s.playingSongFlag = true) :
    ¬ s.playVideo.songs.player.playing = true := by
  rw [State.playVideo_songs]
  split_ifs with hflag
  · simp [MediaShelf.stop]
  · exact fun hplays => hflag (hsong hplays)

theorem playVideo (hsong : s.songs.player.playing = true → s.playingSongFlag = true)
    (hpage : s.pagesSwitch = .videoShow) : Exclusive s.playVideo where
  song hplays := absurd hplays (song_not_playing_playVideo hsong)
  video _ := s.playVideo_playingVideoFlag
  page _ := ⟨by rw [State.playVideo_pagesSwitch, hpage], s.playVideo_playingSongFlag⟩

/-- Pausing the video is safe, and so is any page after that. -/
theorem stopVideo (hs : Exclusive s) (page : Page) :
    Exclusive { s.stopVideo with pagesSwitch := page } where
  song := hs.song
  video hplays := absurd hplays (by simp [State.stopVideo, MediaShelf.pause])
  page hflag := absurd hflag (by simp [State.stopVideo])

theorem reloadVideo (hs : Exclusive s) : Exclusive s.reloadVideo :=
  hs.of_quiet id QMediaPlayer.playing_of_load rfl rfl rfl

theorem moveIndex (hs : Exclusive s) {pos : ℤ}
    (h : s.moveSongs (·.setCurrentIndex pos) = .ok s') : Exclusive s' := by
  obtain ⟨text, -, rfl⟩ := State.moveSongs_ok h
  exact hs.of_quiet QMediaPlayer.playing_of_load id rfl rfl rfl

theorem playSong (hs : Exclusive s) (hoff : s.pagesSwitch ≠ .videoShow)
    (h : s.playSong = .ok s') : Exclusive s' := by
  obtain ⟨text, -, rfl⟩ := State.playSong_ok h
  exact hs.of_song hoff rfl rfl fun _ => rfl

/-- The flag is reset only where the player ran past the end and stopped. -/
theorem toggleIfPastEnd (hs : Exclusive s) (hm : s.songs.Sound)
    (hoff : s.pagesSwitch ≠ .videoShow) : Exclusive s.toggleIfPastEnd := by
  rw [State.toggleIfPastEnd]
  split_ifs with hpast
  · refine hs.of_song hoff rfl rfl fun hplays => ?_
    have hcur := hm.current hplays
    have h0 := s.songs.playList.neg_one_le
    omega
  · exact hs

theorem skips (hs : Exclusive s) (hsound : ShelvesSound s) (hoff : s.pagesSwitch ≠ .videoShow)
    (h : s.Skips s') : Exclusive s' := by
  obtain ⟨pos, s₁, -, -, hmove, rfl⟩ := h
  have hsound₁ := (UiEffect.moveSongs (fun m => .setCurrentIndex m pos) hmove).shelvesSound hsound
  refine (hs.moveIndex hmove).toggleIfPastEnd hsound₁.songs ?_
  obtain ⟨text, -, rfl⟩ := State.moveSongs_ok hmove
  exact hoff

end Exclusive

theorem press_exclusive {pick : ℕ} (b : Button) (hs : Exclusive s) (hsound : ShelvesSound s)
    (hshown : s.pagesSwitch = b.page) (h : s.press pick b = .ok s') : Exclusive s' := by
  cases b <;> simp only [State.press, Except.ok.injEq] at h <;> simp only [Button.page] at hshown
  case playButton =>
    have hoff : s.pagesSwitch ≠ .videoShow := by simp [hshown]
    rcases State.onPlayButtonClicked_ok h with ⟨-, hplay⟩ | ⟨-, rfl⟩
    · exact hs.playSong hoff hplay
    · exact hs.of_song hoff rfl rfl fun hplays => absurd hplays (by simp [MediaShelf.pause])
  case forwardButton =>
    exact hs.skips hsound (by simp [hshown]) (State.onForwardButtonClicked_ok h)
  case backwardButton =>
    exact hs.skips hsound (by simp [hshown]) (State.onBackwardButtonClicked_ok h)
  case stopButton =>
    subst h
    rcases s.onStopButtonClicked_cases with heq | heq <;> rw [heq]
    · exact hs.of_song (by simp [hshown]) rfl rfl
        fun hplays => absurd hplays (by simp [MediaShelf.stop])
    · exact hs
  case repeatButton =>
    obtain ⟨k, mode, icon, -, heq⟩ := s.onRepeatButtonClicked_eq
    exact h ▸ heq ▸ hs.of_quiet id id rfl rfl rfl
  case shuffleButton =>
    obtain ⟨k, mode, icon, -, heq⟩ := s.onShuffleButtonClicked_eq
    exact h ▸ heq ▸ hs.of_quiet id id rfl rfl rfl
  case playVideoButton =>
    subst h
    rcases s.onPlayVideoButtonClicked_cases with ⟨-, heq⟩ | ⟨-, heq⟩ <;> rw [heq]
    · exact .playVideo hs.song hshown
    · exact hs.stopVideo s.pagesSwitch
  case forwardVideoButton =>
    subst h
    rcases s.onForwardVideoButtonClicked_cases with heq | ⟨pos, heq⟩ <;> rw [heq]
    · exact hs.reloadVideo.stopVideo s.pagesSwitch
    · exact hs.of_quiet id id rfl rfl rfl
  case stopVideoButton => exact h ▸ hs.reloadVideo.stopVideo s.pagesSwitch
  case goTovideosListButton => exact h ▸ hs.stopVideo .video
  case darkThemeButton =>
    obtain ⟨flag, icon, heq⟩ := s.onDarkThemeButtonClicked_eq
    exact h ▸ heq ▸ hs.of_quiet id id rfl rfl rfl
  case videoButton => exact h ▸ hs.showPage (by simp [hshown]) _
  case musicButton => exact h ▸ hs.showPage (by simp [hshown]) _
  case bluetoothButton => exact h ▸ hs.showPage (by simp [hshown]) _
  case settingsButton => exact h ▸ hs.of_song (by simp [hshown]) rfl rfl hs.song
  case homeButtonVd => exact h ▸ hs.showPage (by simp [hshown]) _
  case homeButtonMs => exact h ▸ hs.showPage (by simp [hshown]) _
  case homeButtonBl => exact h ▸ hs.showPage (by simp [hshown]) _
  case homeButtonSt => exact h ▸ hs.showPage (by simp [hshown]) _
  all_goals exact h ▸ hs.of_quiet id id rfl rfl rfl

theorem uiStep_exclusive {e : Event W} (hs : Exclusive s) (hsound : ShelvesSound s)
    (hshown : Shown e s) (h : uiStep s e = .ok s') : Exclusive s' := by
  cases e <;> simp only [uiStep, Except.ok.injEq] at h
  case poll sh => exact h ▸ hs
  case clock date time => exact h ▸ hs.of_quiet id id rfl rfl rfl
  case bluetooth sh =>
    obtain ⟨status, label, shown, heq⟩ := s.updatBluetoothDevices_eq sh
    exact h ▸ heq ▸ hs.of_quiet id id rfl rfl rfl
  case click b pick => exact press_exclusive b hs hsound hshown h
  case songRow i =>
    obtain ⟨s₁, hmove, ⟨-, hplay⟩ | ⟨-, rfl⟩⟩ := State.onSongListItemClicked_ok h
    · refine (hs.moveIndex hmove).playSong ?_ hplay
      obtain ⟨text, -, rfl⟩ := State.moveSongs_ok hmove
      simp [hshown.1]
    · exact hs.moveIndex hmove
  case videoRow i =>
    obtain ⟨text, -, rfl⟩ := State.onVideoListItemClicked_ok h
    refine .playVideo ?_ (s.openVideo_pagesSwitch i)
    simpa using hs.song
  case songEnd pick => exact hs.moveIndex h
  case videoEnd => exact h ▸ hs.of_quiet id QMediaPlayer.playing_of_load rfl rfl rfl
  case videoProgress position duration => exact h ▸ hs.of_quiet id id rfl rfl rfl

/-- A flash poll starts no player and leaves flags and page alone. -/
theorem PollOutcome.exclusive {sh : Shell W} {w : W} {c : State × W}
    (h : PollOutcome qt sh s w c) (hs : Exclusive s) (hsound : ShelvesSound s) :
    Exclusive c.1 := by
  cases h with
  | inserted m v text hdev hflash hm hv =>
    refine hs.of_quiet ?_ ?_ (by simp [State.withUsb]) (by simp [State.withUsb])
      (by simp [State.withUsb])
    · simpa using fun hplays => ((update_playing hsound.songs hm).mp hplays).1
    · simpa using fun hplays => ((update_playing hsound.videos hv).mp hplays).1
  | removed m v text hdev hflash hdetach hm hv =>
    refine hs.of_quiet ?_ ?_ (by simp [State.withoutUsb]) (by simp [State.withoutUsb])
      (by simp [State.withoutUsb])
    · simpa using fun hplays => ((update_playing hsound.songs hm).mp hplays).1
    · simpa using fun hplays => ((update_playing hsound.videos hv).mp hplays).1
  | notDetached => exact hs.of_quiet (by simp) (by simp) (by simp) (by simp) (by simp)
  | noUsb =>
    exact hs.of_quiet (by simp [State.noUsb]) (by simp [State.noUsb]) (by simp [State.noUsb])
      (by simp [State.noUsb]) (by simp [State.noUsb])
  | unchanged => exact hs.of_quiet (by simp) (by simp) (by simp) (by simp) (by simp)

theorem step_exclusive {e : Event W} {c c' : State × W} (hs : Exclusive c.1)
    (hsound : ShelvesSound c.1) (hshown : Shown e c.1) (h : step qt e c = .ok c') :
    Exclusive c'.1 := by
  rcases step_cases h with ⟨sh, rfl, hpoll⟩ | ⟨-, hui, -⟩
  · exact hpoll.exclusive hs hsound
  · exact uiStep_exclusive hs hsound hshown hui

theorem exclusive_of_history {l : List (Transition (State × W) (Event W))} {c : State × W}
    (h : (shownEvents qt W).History l c) : Exclusive c.1 := by
  refine (h.invariant (I := fun c' => ShelvesSound c'.1 ∧ Exclusive c'.1) ?_ ?_).2
  · exact fun c' hc' => ⟨hc' ▸ shelvesSound_startup, hc' ▸ .startup⟩
  · intro x hx hI
    exact ⟨step_shelvesSound hx.2 hI.1, step_exclusive hI.2 hI.1 hx.1 hx.2⟩

/-- **Music and video never play together.**  In front of the screen, at most one of the flags is
set, at most one of the players plays, and the video's flag is set only on the video's page. -/
theorem music_video_exclusive {l : List (Transition (State × W) (Event W))} {c : State × W}
    (h : (shownEvents qt W).History l c) :
    ¬ (c.1.playingSongFlag = true ∧ c.1.playingVideoFlag = true) ∧
      ¬ (c.1.songs.player.playing = true ∧ c.1.videos.player.playing = true) ∧
      (c.1.playingVideoFlag = true → c.1.pagesSwitch = .videoShow) := by
  have hs := exclusive_of_history h
  refine ⟨?_, ?_, fun hflag => (hs.page hflag).1⟩
  · rintro ⟨hsong, hvideo⟩
    rw [(hs.page hvideo).2] at hsong
    exact absurd hsong (by decide)
  · rintro ⟨hsong, hvideo⟩
    have hoff := (hs.page (hs.video hvideo)).2
    rw [hs.song hsong] at hoff
    exact absurd hoff (by decide)

/-- A video is opened while a song plays. -/
theorem video_opened_during_song :
    ∃ l c, (shownEvents ⟨false⟩ Unit).History l c ∧ c.1.videos.player.playing = true ∧
      ¬ (c.1.songs.player.playing = true ∧ c.1.videos.player.playing = true) := by
  obtain ⟨l, c, hl, -, hp⟩ := Machine.exists_history_of_replay (M := shownEvents ⟨false⟩ Unit)
    (s := (startup, ())) rfl
    [.poll (stickShell "sda1".toList ["a.mp3".toList] ["b.mp4".toList] 0),
      .click .musicButton 0, .songRow 0, .click .homeButtonMs 0, .click .videoButton 0,
      .videoRow 0]
    (fun _ c => c.1.videos.player.playing) (by decide +kernel)
  exact ⟨l, c, hl, hp, (music_video_exclusive hl).2.1⟩

end Infotainment
