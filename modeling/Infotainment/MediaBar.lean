import Infotainment.RowClicks
import Infotainment.Tokeniser

/-!
# What the media bar shows

The media bar shows one label for two players.  It should be the base name of what plays, whichever
of them plays it.

`LabelNamesSong` was about the songs, in runs whose lists are parallel.  Here both players are
looked at, and every event is asked *when* it keeps the label right (`NamesNext`).  Three things
make it wrong.

* A row that is not the name of its medium: the label is always taken from a row.
* The video player is started from its button.  No slot follows the index of the video playlist, so
  after the natural end of a video, which leaves no current entry, the button starts the first entry
  under the name of the last.
* A new stick moves the song playlist to its first entry, if Qt rewinds playlists, and
  `onSongChange` writes the name of that song over the name of a video that still plays.

`media_bar_iff` says that there is nothing else.
-/

namespace Infotainment

open EventSystem MediaShelf

variable {W : Type} {qt : Qt} {s s' : State}

/-! ## One shelf -/

namespace MediaShelf

variable {m m' : MediaShelf} {label text : Text}

/-- While the player plays, the label names the current entry. -/
def NamedBy (m : MediaShelf) (label : Text) : Prop :=
  m.player.playing = true → m.CurrentNamed label

instance (m : MediaShelf) (label : Text) : Decidable (m.NamedBy label) :=
  inferInstanceAs (Decidable (_ → _))

theorem namedBy_of_stopped (h : ¬ m.player.playing = true) : m.NamedBy label :=
  fun hplays => absurd hplays h

theorem namedBy_pause : m.pause.NamedBy label := namedBy_of_stopped (by simp [pause])

theorem NamedBy.congr (h : m.NamedBy label)
    (hplays : m'.player.playing = true → m.player.playing = true)
    (hmedia : m'.playList.media = m.playList.media)
    (hcur : m'.playList.currentIndex = m.playList.currentIndex) : m'.NamedBy label :=
  fun hp => (h (hplays hp)).congr hmedia hcur

/-- A label taken from the row at the current index is right exactly when the row is. -/
theorem currentNamed_iff_of_item {pos : ℤ} (hitem : item m.rows pos = .ok text)
    (hmedia : m'.playList.media = m.playList.media) (hcur : m'.playList.currentIndex = pos) :
    m'.CurrentNamed text ↔ m.RowNames pos.toNat := by
  obtain ⟨h0, hrow⟩ := item_eq_ok_iff.mp hitem
  rw [CurrentNamed, QMediaPlaylist.currentMedia, hcur, if_pos h0, hmedia, RowNames, hrow]

/-- If a player that plays is moved to another entry, the row of that entry names it. -/
def ArrivesNamed (m : MediaShelf) (pos : ℤ) : Prop :=
  m.player.playing = true → pos ≠ -1 → pos ≠ m.playList.currentIndex → m.RowNames pos.toNat

instance (m : MediaShelf) (pos : ℤ) : Decidable (m.ArrivesNamed pos) :=
  inferInstanceAs (Decidable (_ → _ → _ → _))

/-- `onSongChange` keeps up with a move exactly when the row it reads is right. -/
theorem NamedBy.setCurrentIndex_iff {pos : ℤ} (h : m.NamedBy label) (hm : m.Sound)
    (hpos : -1 ≤ pos ∧ pos < m.playList.media.length)
    (hlabel : State.Relabels m (m.setCurrentIndex pos) label text) :
    (m.setCurrentIndex pos).NamedBy text ↔ m.ArrivesNamed pos := by
  have hcur := m.setCurrentIndex_currentIndex hpos
  have hplays := hm.setCurrentIndex_playing pos
  have hmedia := m.setCurrentIndex_media pos
  rw [hcur] at hplays
  rw [State.Relabels, hcur] at hlabel
  rw [NamedBy, hplays, ArrivesNamed]
  rcases hlabel with ⟨hstays | hend, rfl⟩ | ⟨hmoved, hentry, hitem⟩
  · refine iff_of_true (fun hp => (h hp.1).congr hmedia (hcur.trans hstays)) ?_
    exact fun _ _ hmoved => absurd hstays hmoved
  · exact iff_of_true (fun hp => absurd hend hp.2) fun _ hentry => absurd hend hentry
  · have hitem' : item m.rows pos = .ok text := hitem
    rw [currentNamed_iff_of_item hitem' hmedia hcur]
    exact ⟨fun hrow hp _ _ => hrow ⟨hp, hentry⟩, fun hrow hp => hrow hp.1 hentry hmoved⟩

/-- The label names the entry that `play` starts: the current one, or else the first, which `toNat`
makes of `-1`. -/
def StartsNamed (m : MediaShelf) (label : Text) : Prop :=
  m.playList.media ≠ [] →
    m.playList.media[m.playList.currentIndex.toNat]?.map baseName = some label

instance (m : MediaShelf) (label : Text) : Decidable (m.StartsNamed label) :=
  inferInstanceAs (Decidable (_ → _))

theorem Sound.play_namedBy_iff (hm : m.Sound) : m.play.NamedBy label ↔ m.StartsNamed label := by
  rw [NamedBy, hm.play_playing, StartsNamed]
  refine imp_congr_right fun hne => ?_
  have hpos := List.length_pos_of_ne_nil hne
  have hcur : m.play.playList.currentIndex = (m.playList.currentIndex.toNat : ℤ) := by
    have h0 := m.playList.neg_one_le
    rw [play, if_pos ⟨hm.hasPlaylist hne, hne⟩]
    split_ifs with hnone
    · show (m.setCurrentIndex 0).playList.currentIndex = _
      rw [setCurrentIndex_currentIndex _ (by omega)]
      omega
    · show m.playList.currentIndex = _
      omega
  rw [CurrentNamed, QMediaPlaylist.currentMedia, hcur, if_pos (Int.natCast_nonneg _),
    Int.toNat_natCast, play_media]

end MediaShelf

/-! ## The bar -/

namespace State

/-- The media bar names what plays. -/
structure BarNames (s : State) : Prop where
  song : s.songs.NamedBy s.ui.currentRunningMediaLabel
  video : s.videos.NamedBy s.ui.currentRunningMediaLabel

instance (s : State) : Decidable s.BarNames :=
  decidable_of_iff
    (s.songs.NamedBy s.ui.currentRunningMediaLabel ∧ s.videos.NamedBy s.ui.currentRunningMediaLabel)
    ⟨fun h => ⟨h.1, h.2⟩, fun h => ⟨h.song, h.video⟩⟩

theorem barNames_startup : startup.BarNames := ⟨nofun, nofun⟩

theorem BarNames.of_quiet (h : s.BarNames)
    (hsongs : s'.songs.player.playing = true → s.songs.player.playing = true)
    (hsongsMedia : s'.songs.playList.media = s.songs.playList.media)
    (hsongsIndex : s'.songs.playList.currentIndex = s.songs.playList.currentIndex)
    (hvideos : s'.videos.player.playing = true → s.videos.player.playing = true)
    (hvideosMedia : s'.videos.playList.media = s.videos.playList.media)
    (hvideosIndex : s'.videos.playList.currentIndex = s.videos.playList.currentIndex)
    (hlabel : s'.ui.currentRunningMediaLabel = s.ui.currentRunningMediaLabel) : s'.BarNames := by
  refine ⟨?_, ?_⟩ <;> rw [hlabel]
  · exact h.song.congr hsongs hsongsMedia hsongsIndex
  · exact h.video.congr hvideos hvideosMedia hvideosIndex

/-- While the video stands still, only the song matters. -/
theorem barNames_iff_song (h : ¬ s.videos.player.playing = true) :
    s.BarNames ↔ s.songs.NamedBy s.ui.currentRunningMediaLabel :=
  ⟨BarNames.song, fun hsong => ⟨hsong, namedBy_of_stopped h⟩⟩

theorem barNames_iff_video (h : ¬ s.songs.player.playing = true) :
    s.BarNames ↔ s.videos.NamedBy s.ui.currentRunningMediaLabel :=
  ⟨BarNames.video, fun hvideo => ⟨namedBy_of_stopped h, hvideo⟩⟩

/-! ## Slots -/

theorem BarNames.moveIndex_iff {pos : ℤ} (h : s.BarNames) (hsound : s.songs.Sound)
    (hpos : -1 ≤ pos ∧ pos < s.songs.playList.media.length)
    (hvideo : ¬ s.videos.player.playing = true)
    (hmove : s.moveSongs (·.setCurrentIndex pos) = .ok s') :
    s'.BarNames ↔ s.songs.ArrivesNamed pos := by
  obtain ⟨text, hlabel, rfl⟩ := moveSongs_ok hmove
  rw [← h.song.setCurrentIndex_iff hsound hpos hlabel]
  exact barNames_iff_song hvideo

theorem toggleIfPastEnd_barNames_iff : s.toggleIfPastEnd.BarNames ↔ s.BarNames := by
  rw [toggleIfPastEnd]
  split_ifs
  · exact ⟨fun h => ⟨h.song, h.video⟩, fun h => ⟨h.song, h.video⟩⟩
  · exact Iff.rfl

theorem playSong_barNames_iff (hsound : s.songs.Sound) (hvideo : ¬ s.videos.player.playing = true)
    (h : s.playSong = .ok s') :
    s'.BarNames ↔ s.songs.RowNames s.songs.playList.currentIndex.toNat := by
  obtain ⟨text, hitem, rfl⟩ := playSong_ok h
  have h0 := (item_eq_ok_iff.mp hitem).1
  have hplays : s.songs.play.player.playing = true :=
    hsound.play_playing.mpr (QMediaPlaylist.media_ne_nil_of_currentIndex (by omega))
  have hcur : s.songs.play.playList.currentIndex = s.songs.playList.currentIndex :=
    play_currentIndex _ (by omega)
  refine (barNames_iff_song ?_).trans ((imp_iff_right hplays).trans ?_)
  · exact hvideo
  · exact currentNamed_iff_of_item hitem s.songs.play_media hcur

theorem playVideo_barNames_iff (hsong : s.songs.player.playing = true → s.playingSongFlag = true)
    (hsound : s.videos.Sound) :
    s.playVideo.BarNames ↔ s.videos.StartsNamed s.ui.currentRunningMediaLabel := by
  rw [barNames_iff_video (Exclusive.song_not_playing_playVideo hsong), playVideo_videos,
    playVideo_label, hsound.play_namedBy_iff]

theorem onSongListItemClicked_barNames_iff {i : ℕ} (h : s.BarNames) (hsound : s.songs.Sound)
    (hi : i < s.songs.rows.length) (hvideo : ¬ s.videos.player.playing = true)
    (hclick : s.onSongListItemClicked i = .ok s') :
    s'.BarNames ↔ (s.playingSongFlag = false ∨
      s.songs.player.playing = true ∧ s.songs.playList.currentIndex ≠ i → s.songs.RowNames i) := by
  have hle := hsound.rows_le
  have hpos : -1 ≤ (i : ℤ) ∧ (i : ℤ) < s.songs.playList.media.length := by omega
  obtain ⟨s₁, hmove, hplay⟩ := onSongListItemClicked_ok hclick
  have harrives := h.moveIndex_iff hsound hpos hvideo hmove
  obtain ⟨text, -, rfl⟩ := moveSongs_ok hmove
  rcases hplay with ⟨hflag, hplay⟩ | ⟨hflag, rfl⟩
  · -- the song is started, and the label taken from its row a second time
    have hflag' : s.playingSongFlag = false := hflag
    have hrow : (s.songs.setCurrentIndex i).RowNames
        (s.songs.setCurrentIndex i).playList.currentIndex.toNat ↔ s.songs.RowNames i := by
      rw [setCurrentIndex_currentIndex _ hpos, Int.toNat_natCast, RowNames, RowNames,
        setCurrentIndex_media, setCurrentIndex_rows]
    refine (playSong_barNames_iff ?_ ?_ hplay).trans (hrow.trans ?_)
    · exact hsound.setCurrentIndex i
    · exact hvideo
    · simp [hflag']
  · have hflag' : s.playingSongFlag = true := hflag
    rw [harrives, ArrivesNamed, Int.toNat_natCast]
    simp only [hflag', Bool.true_eq_false, false_or, and_imp]
    exact ⟨fun harr hp hne => harr hp (by omega) hne.symm,
      fun harr hp _ hne => harr hp hne.symm⟩

theorem onVideoListItemClicked_barNames_iff {j : ℕ} (hsound : s.videos.Sound)
    (hsong : s.songs.player.playing = true → s.playingSongFlag = true)
    (hj : j < s.videos.rows.length) (hclick : s.onVideoListItemClicked j = .ok s') :
    s'.BarNames ↔ s.videos.RowNames j := by
  obtain ⟨text, hitem, rfl⟩ := onVideoListItemClicked_ok hclick
  have hle := hsound.rows_le
  have heffect := (UiEffect.openVideo s j).videos
  have hcur := openVideo_currentIndex (s := s) (i := j) (by omega)
  have hne : (s.openVideo j).videos.playList.media ≠ [] := by
    rw [heffect.sameFiles.media]
    exact hsound.media_ne_nil_of_row hj
  refine (playVideo_barNames_iff ?_ ?_).trans ((imp_iff_right hne).trans ?_)
  · simpa using hsong
  · exact heffect.sound hsound
  · obtain ⟨-, hrow⟩ := item_eq_ok_iff.mp hitem
    rw [Int.toNat_natCast] at hrow
    rw [setMediaLabel_videos, hcur, Int.toNat_natCast, heffect.sameFiles.media, RowNames, hrow]
    rfl

end State

/-! ## Events -/

/-- The poll moves the song playlist to the first song of a new stick while a video goes on. -/
def RelabelsVideo (qt : Qt) (sh : Shell W) (s : State) : Prop :=
  qt.setPlaylistRewinds = true ∧ FindsNewStick sh s ∧ CountsFiles sh songsExt ∧
    getStdoutFromCommand sh (.findFiles (usbPathOf (devicesConnected sh)) songsExt) ≠ [] ∧
    s.songs.playList.currentIndex ≠ 0 ∧ s.videos.player.playing = true ∧ ¬ CountsFiles sh videosExt

/-- The event keeps the media bar right. -/
def NamesNext (qt : Qt) (s : State) : Event W → Prop
  | .click b pick =>
      (b = .playButton → s.playingSongFlag = false →
        s.songs.RowNames s.songs.playList.currentIndex.toNat) ∧
      (b = .forwardButton → s.songs.ArrivesNamed (s.songs.playList.nextIndex pick)) ∧
      (b = .backwardButton → s.songs.ArrivesNamed (s.songs.playList.previousIndex pick)) ∧
      (b = .playVideoButton → s.playingVideoFlag = false →
        s.videos.StartsNamed s.ui.currentRunningMediaLabel)
  | .songRow i =>
      s.playingSongFlag = false ∨
        s.songs.player.playing = true ∧ s.songs.playList.currentIndex ≠ i → s.songs.RowNames i
  | .videoRow j => s.videos.RowNames j
  | .songEnd pick => s.songs.ArrivesNamed (s.songs.playList.nextIndex pick)
  | .poll sh => ¬ RelabelsVideo qt sh s
  | _ => True

instance (qt : Qt) (sh : Shell W) (s : State) : Decidable (RelabelsVideo qt sh s) :=
  inferInstanceAs (Decidable (_ ∧ (_ ∧ _) ∧ _ ≠ _ ∧ _ ∧ _ ∧ _ ∧ ¬ (_ ≠ _)))

instance (qt : Qt) (s : State) : ∀ e : Event W, Decidable (NamesNext qt s e)
  | .click _ _ => inferInstanceAs (Decidable ((_ → _ → _) ∧ (_ → _) ∧ (_ → _) ∧ (_ → _ → _)))
  | .songRow _ => inferInstanceAs (Decidable (_ → _))
  | .videoRow _ => inferInstanceAs (Decidable (MediaShelf.RowNames _ _))
  | .songEnd _ => inferInstanceAs (Decidable (MediaShelf.ArrivesNamed _ _))
  | .poll _ => inferInstanceAs (Decidable (¬ _))
  | .clock .. | .bluetooth .. | .videoEnd | .videoProgress .. => inferInstanceAs (Decidable True)

theorem Exclusive.video_not_playing (hs : Exclusive s) (hoff : s.pagesSwitch ≠ .videoShow) :
    ¬ s.videos.player.playing = true := fun hplays =>
  hoff (hs.page (hs.video hplays)).1

theorem press_barNames_iff {pick : ℕ} (b : Button) (hbar : s.BarNames) (hsound : ShelvesSound s)
    (hs : Exclusive s) (hshown : s.pagesSwitch = b.page) (h : s.press pick b = .ok s') :
    s'.BarNames ↔ NamesNext qt s (.click b pick : Event W) := by
  cases b <;> simp only [State.press, Except.ok.injEq] at h <;>
    simp only [Button.page] at hshown <;>
    simp only [NamesNext, reduceCtorEq, false_imp_iff, true_imp_iff, true_and, and_true]
  case playButton =>
    rcases State.onPlayButtonClicked_ok h with ⟨hflag, hplay⟩ | ⟨hflag, rfl⟩
    · rw [State.playSong_barNames_iff hsound.songs (hs.video_not_playing (by simp [hshown])) hplay]
      simp [hflag]
    · exact iff_of_true ⟨namedBy_pause, hbar.video⟩ (by simp [hflag])
  case forwardButton =>
    obtain ⟨s₁, hmove, rfl⟩ := map_eq_ok_iff.mp h
    rw [State.toggleIfPastEnd_barNames_iff]
    exact hbar.moveIndex_iff hsound.songs (s.songs.playList.nextIndex_mem pick)
      (hs.video_not_playing (by simp [hshown])) hmove
  case backwardButton =>
    obtain ⟨s₁, hmove, rfl⟩ := map_eq_ok_iff.mp h
    rw [State.toggleIfPastEnd_barNames_iff]
    exact hbar.moveIndex_iff hsound.songs (s.songs.playList.previousIndex_mem pick)
      (hs.video_not_playing (by simp [hshown])) hmove
  case stopButton =>
    subst h
    rcases s.onStopButtonClicked_cases with heq | heq <;> rw [heq]
    · exact iff_of_true ⟨namedBy_of_stopped (by simp [MediaShelf.stop]), hbar.video⟩ trivial
    · exact iff_of_true hbar trivial
  case repeatButton =>
    obtain ⟨k, mode, icon, -, heq⟩ := s.onRepeatButtonClicked_eq
    exact iff_of_true (h ▸ heq ▸ hbar.of_quiet id rfl rfl id rfl rfl rfl) trivial
  case shuffleButton =>
    obtain ⟨k, mode, icon, -, heq⟩ := s.onShuffleButtonClicked_eq
    exact iff_of_true (h ▸ heq ▸ hbar.of_quiet id rfl rfl id rfl rfl rfl) trivial
  case playVideoButton =>
    subst h
    rcases s.onPlayVideoButtonClicked_cases with ⟨hflag, heq⟩ | ⟨hflag, heq⟩ <;> rw [heq]
    · rw [State.playVideo_barNames_iff hs.song hsound.videos]
      simp [hflag]
    · exact iff_of_true ⟨hbar.song, namedBy_pause⟩ (by simp [hflag])
  case forwardVideoButton =>
    subst h
    rcases s.onForwardVideoButtonClicked_cases with heq | ⟨pos, heq⟩ <;> rw [heq]
    · exact iff_of_true ⟨hbar.song, namedBy_pause⟩ trivial
    · exact iff_of_true (hbar.of_quiet id rfl rfl id rfl rfl rfl) trivial
  case stopVideoButton =>
    exact iff_of_true (h ▸ ⟨hbar.song, namedBy_pause⟩) trivial
  case goTovideosListButton =>
    exact iff_of_true (h ▸ ⟨hbar.song, namedBy_pause⟩) trivial
  case darkThemeButton =>
    obtain ⟨flag, icon, heq⟩ := s.onDarkThemeButtonClicked_eq
    exact iff_of_true (h ▸ heq ▸ hbar.of_quiet id rfl rfl id rfl rfl rfl) trivial
  all_goals exact iff_of_true (h ▸ hbar.of_quiet id rfl rfl id rfl rfl rfl) trivial

theorem uiStep_barNames_iff {e : Event W} (he : ∀ sh, e ≠ .poll sh) (hbar : s.BarNames)
    (hsound : ShelvesSound s) (hs : Exclusive s) (hshown : Shown e s) (h : uiStep s e = .ok s') :
    s'.BarNames ↔ NamesNext qt s e := by
  cases e <;> simp only [uiStep, Except.ok.injEq] at h
  case poll sh => exact absurd rfl (he sh)
  case clock date time =>
    exact iff_of_true (h ▸ hbar.of_quiet id rfl rfl id rfl rfl rfl) trivial
  case bluetooth sh =>
    obtain ⟨status, label, shown, heq⟩ := s.updatBluetoothDevices_eq sh
    exact iff_of_true (h ▸ heq ▸ hbar.of_quiet id rfl rfl id rfl rfl rfl) trivial
  case click b pick => exact press_barNames_iff b hbar hsound hs hshown h
  case songRow i =>
    exact State.onSongListItemClicked_barNames_iff hbar hsound.songs hshown.2
      (hs.video_not_playing (by simp [hshown.1])) h
  case videoRow j =>
    exact State.onVideoListItemClicked_barNames_iff hsound.videos hs.song hshown.2 h
  case songEnd pick =>
    refine hbar.moveIndex_iff hsound.songs (s.songs.playList.nextIndex_mem pick)
      (fun hvideo => ?_) h
    have hoff := (hs.page (hs.video hvideo)).2
    rw [hs.song hshown] at hoff
    exact absurd hoff (by decide)
  case videoEnd =>
    -- the video stops there
    have hmode := hsound.videosMode (hsound.videos.hasPlaylist (hsound.videos.media_ne_nil hshown))
    refine iff_of_true (h ▸ ⟨hbar.song, namedBy_of_stopped fun hplays => ?_⟩) trivial
    refine ((hsound.videos.setCurrentIndex_playing _).mp hplays).2 ?_
    rw [setCurrentIndex_currentIndex _ (s.videos.playList.nextIndex_mem 0)]
    exact QMediaPlaylist.nextIndex_of_currentItemOnce hmode
  case videoProgress position duration =>
    exact iff_of_true (h ▸ hbar.of_quiet id rfl rfl id rfl rfl rfl) trivial

/-! ## The flash poll -/

namespace MediaShelf

variable {m m' : MediaShelf} {ext usbPath count list label text : Text} {mode : PlaybackMode}
  {flashStatus : FlashStatus}

theorem NamedBy.update (h : m.NamedBy label) (hm : m.Sound)
    (hu : m.update qt ext mode flashStatus usbPath count list = some m') : m'.NamedBy label := by
  intro hplays
  obtain ⟨hplayed, hmedia, hcur⟩ := update_goes_on hm hu hplays
  exact (h hplayed).extend hmedia hcur

/-- The update lists something and moves the playlist to its first entry. -/
def MovesToFirst (m : MediaShelf) (qt : Qt) (flashStatus : FlashStatus) (count list : Text) :
    Prop :=
  flashStatus = .flashDetected ∧ count ≠ zeroCount ∧ qt.setPlaylistRewinds = true ∧ list ≠ [] ∧
    m.playList.currentIndex ≠ 0

/-- Otherwise `onSongChange` does not run on an entry. -/
theorem relabels_update_of_not (hu : m.update qt ext mode flashStatus usbPath count list = some m')
    (hlabel : State.Relabels m m' label text) (h : ¬ m.MovesToFirst qt flashStatus count list) :
    text = label := by
  rcases hlabel with ⟨-, heq⟩ | ⟨hmoved, hentry, hitem⟩
  · exact heq
  exfalso
  rcases update_cases hu with ⟨-, -, rfl⟩ | ⟨-, -, rfl⟩ | ⟨-, -, rfl⟩ |
    ⟨rfl, hcount, paths, hpaths, rfl⟩
  · exact hentry rfl
  · exact hmoved rfl
  · exact hmoved rfl
  · cases hrewinds : qt.setPlaylistRewinds with
    | false => exact hmoved (filled_currentIndex_of_not_rewinds hrewinds)
    | true =>
      have hne := QMediaPlaylist.media_ne_nil_of_currentIndex hentry
      rw [filled_media] at hne
      rw [filled_currentIndex_of_rewinds hrewinds hne, filled_rows] at hitem
      rw [filled_currentIndex_of_rewinds hrewinds hne] at hmoved
      refine h ⟨rfl, hcount, hrewinds, fun hnil => ?_, hmoved.symm⟩
      -- a first row was read, so something was listed
      rw [(scanPaths_eq_nil_iff hpaths).mpr hnil, List.map_nil, item_eq_error (by simp)] at hitem
      cases hitem

/-- If it runs, the label becomes the name of a file with the extension. -/
theorem relabels_update_of_movesToFirst (hslash : '/' ∉ ext)
    (hu : m.update qt ext mode flashStatus usbPath count list = some m')
    (hlabel : State.Relabels m m' label text) (h : m.MovesToFirst qt flashStatus count list) :
    ext <:+ text := by
  obtain ⟨rfl, hcount, hrewinds, hlist, hcur⟩ := h
  rcases update_cases hu with ⟨hflash, -⟩ | ⟨hflash, -⟩ | ⟨-, hzero, -⟩ |
    ⟨-, -, paths, hpaths, rfl⟩
  · exact absurd hflash (by decide)
  · exact absurd hflash (by decide)
  · exact absurd hzero hcount
  have hpaths' : paths ≠ [] := fun hnil => hlist ((scanPaths_eq_nil_iff hpaths).mp hnil)
  obtain ⟨path, rest, rfl⟩ := List.exists_cons_of_ne_nil hpaths'
  have hends := ext_suffix_of_mem_scanPaths hpaths path List.mem_cons_self
  rw [State.Relabels, filled_currentIndex_of_rewinds hrewinds (by simp), filled_rows] at hlabel
  rcases hlabel with ⟨hstays | hend, -⟩ | ⟨-, -, hitem⟩
  · exact absurd hstays.symm hcur
  · exact absurd hend (by decide)
  · obtain rfl : fileName path = text := Except.ok.inj hitem
    rw [fileName_eq_baseName]
    exact (isLongestName_baseName path).longest ext hends hslash

/-- The media of an update end in the extension if those before do. -/
theorem update_media_ends (hm : ∀ path ∈ m.playList.media, ext <:+ path)
    (hu : m.update qt ext mode flashStatus usbPath count list = some m') :
    ∀ path ∈ m'.playList.media, ext <:+ path := by
  rcases update_cases hu with ⟨-, -, rfl⟩ | ⟨-, -, rfl⟩ | ⟨-, -, rfl⟩ |
    ⟨-, -, paths, hpaths, rfl⟩
  · exact fun path hpath => absurd hpath List.not_mem_nil
  · exact hm
  · exact hm
  · rw [filled_media]
    exact List.forall_mem_append.mpr ⟨hm, ext_suffix_of_mem_scanPaths hpaths⟩

/-- The name of a medium ends as the medium does. -/
theorem CurrentNamed.ends (h : m.CurrentNamed label)
    (hm : ∀ path ∈ m.playList.media, ext <:+ path) (hslash : '/' ∉ ext) : ext <:+ label := by
  obtain ⟨path, hpath, rfl⟩ := Option.map_eq_some_iff.mp h
  rw [QMediaPlaylist.currentMedia] at hpath
  split_ifs at hpath
  exact (isLongestName_baseName path).longest ext (hm path (List.mem_of_getElem? hpath)) hslash

end MediaShelf

/-- The video playlist holds nothing but videos. -/
def VideosEnd (s : State) : Prop := ∀ path ∈ s.videos.playList.media, videosExt <:+ path

theorem State.showMediaBar_barNames_iff : s.showMediaBar.BarNames ↔ s.BarNames := by
  constructor
  · intro h
    exact h.of_quiet (by simp) (by simp) (by simp) (by simp) (by simp) (by simp) (by simp)
  · intro h
    exact h.of_quiet (by simp) (by simp) (by simp) (by simp) (by simp) (by simp) (by simp)

/-- No name ends in both extensions. -/
theorem not_both_extensions {text : Text} (hsong : songsExt <:+ text)
    (hvideo : videosExt <:+ text) : False :=
  absurd (List.suffix_of_suffix_length_le hsong hvideo (by decide)) (by decide)

theorem PollOutcome.barNames_iff {sh : Shell W} {w : W} {c : State × W}
    (h : PollOutcome qt sh s w c) (hbar : s.BarNames) (hsound : ShelvesSound s)
    (hends : VideosEnd s) : c.1.BarNames ↔ NamesNext qt s (.poll sh) := by
  have hgone : devicesConnected sh = [] → NamesNext qt s (.poll sh) :=
    fun hdev hrelabels => hrelabels.2.1.1 hdev
  cases h with
  | inserted m v text hdev hflash hm hv hlabel =>
    rw [State.showMediaBar_barNames_iff]
    by_cases hfirst : s.songs.MovesToFirst qt .flashDetected
        (getStdoutFromCommand sh (.countFiles (usbPathOf (devicesConnected sh)) songsExt))
        (getStdoutFromCommand sh (.findFiles (usbPathOf (devicesConnected sh)) songsExt))
    · -- the music stops, and the label is the name of a song
      obtain ⟨-, hcount, hrewinds, hlist, hcur⟩ := id hfirst
      have hstopped : ¬ m.player.playing = true := fun hplays =>
        ((update_playing hsound.songs hm).mp hplays).2 (Or.inr ⟨rfl, hcount, hrewinds⟩)
      have hsong := relabels_update_of_movesToFirst (by decide) hm hlabel hfirst
      have hnamed : v.NamedBy text ↔ ¬ v.player.playing = true :=
        ⟨fun hnamed hplays => not_both_extensions hsong
          ((hnamed hplays).ends (update_media_ends hends hv) (by decide)), namedBy_of_stopped⟩
      refine (State.barNames_iff_video hstopped).trans (hnamed.trans (not_congr ?_))
      rw [update_playing hsound.videos hv]
      simp only [UpdateStops, RelabelsVideo, hrewinds, reduceCtorEq, false_and, false_or, true_and,
        and_true]
      exact ⟨fun hv => ⟨⟨hdev, hflash⟩, hcount, hlist, hcur, hv.1, hv.2⟩,
        fun hv => ⟨hv.2.2.2.2.1, hv.2.2.2.2.2⟩⟩
    · obtain rfl := relabels_update_of_not hm hlabel hfirst
      refine iff_of_true ⟨hbar.song.update hsound.songs hm, hbar.video.update hsound.videos hv⟩ ?_
      rintro ⟨hrewinds, -, hcount, hlist, hcur, -⟩
      exact hfirst ⟨rfl, hcount, hrewinds, hlist, hcur⟩
  | removed m v text hdev hflash hdetach hm hv hlabel =>
    rw [State.showMediaBar_barNames_iff]
    obtain rfl := relabels_update_of_not hm hlabel fun hfirst => absurd hfirst.1 (by decide)
    exact iff_of_true ⟨hbar.song.update hsound.songs hm, hbar.video.update hsound.videos hv⟩
      (hgone hdev)
  | notDetached hdev =>
    rw [State.showMediaBar_barNames_iff]
    exact iff_of_true (hbar.of_quiet id rfl rfl id rfl rfl rfl) (hgone hdev)
  | noUsb hdev =>
    rw [State.showMediaBar_barNames_iff]
    exact iff_of_true (hbar.of_quiet id rfl rfl id rfl rfl rfl) (hgone hdev)
  | unchanged hdev hflash =>
    rw [State.showMediaBar_barNames_iff]
    refine iff_of_true hbar fun hrelabels => ?_
    have hnone := hrelabels.2.1.2
    rw [hflash] at hnone
    exact absurd hnone (by decide)

/-! ## All runs -/

/-- What the label depends on. -/
structure BarSound (s : State) : Prop where
  sound : ShelvesSound s
  exclusive : Exclusive s
  videos : VideosEnd s
  bar : s.BarNames

theorem barSound_startup : BarSound startup where
  sound := shelvesSound_startup
  exclusive := .startup
  videos _ hpath := absurd hpath List.not_mem_nil
  bar := State.barNames_startup

theorem step_videosEnd {e : Event W} {c c' : State × W} (hs : VideosEnd c.1)
    (h : step qt e c = .ok c') : VideosEnd c'.1 := by
  rcases step_cases h with ⟨sh, rfl, hpoll⟩ | ⟨-, hui, -⟩
  · cases hpoll with
    | inserted m v text hdev hflash hm hv hlabel =>
      have hmedia := update_media_ends hs hv
      simpa [VideosEnd, State.setMediaLabel] using hmedia
    | removed m v text hdev hflash hdetach hm hv hlabel =>
      have hmedia := update_media_ends hs hv
      simpa [VideosEnd, State.setMediaLabel] using hmedia
    | notDetached => simpa [VideosEnd] using hs
    | noUsb => simpa [VideosEnd, State.noUsb] using hs
    | unchanged => simpa [VideosEnd] using hs
  · intro path hpath
    rw [(uiStep_effect e hui).videos.sameFiles.media] at hpath
    exact hs path hpath

/-- **One event.** -/
theorem step_barNames_iff {e : Event W} {c c' : State × W} (hs : BarSound c.1)
    (hshown : Shown e c.1) (h : step qt e c = .ok c') :
    c'.1.BarNames ↔ NamesNext qt c.1 e := by
  rcases step_cases h with ⟨sh, rfl, hpoll⟩ | ⟨he, hui, -⟩
  · exact hpoll.barNames_iff hs.bar hs.sound hs.videos
  · exact uiStep_barNames_iff he hs.bar hs.sound hs.exclusive hshown hui

/-- **When the media bar names what plays.**  In every run in front of the screen, it does so in
every state exactly when every event keeps it right. -/
theorem media_bar_iff {l : List (Transition (State × W) (Event W))} {c : State × W}
    (h : (shownEvents qt W).History l c) :
    (∀ c', Machine.Visits l c c' → c'.1.BarNames) ↔
      ∀ x ∈ l, NamesNext qt x.before.1 x.event := by
  have h0 : ∀ c' : State × W, c'.1 = startup → BarSound c'.1 := fun c' hc' =>
    hc' ▸ barSound_startup
  rw [h.forall_visits_iff (P := fun c' => c'.1.BarNames) fun c' hc' => (h0 c' hc').bar]
  refine h.forall_iff (J := fun c' => BarSound c'.1) h0 ?_ ?_
  · exact fun x hx hs => step_barNames_iff hs hx.1 hx.2
  · exact fun x hx hs hnames =>
      { sound := step_shelvesSound hx.2 hs.sound
        exclusive := step_exclusive hs.exclusive hs.sound hx.1 hx.2
        videos := step_videosEnd hs.videos hx.2
        bar := (step_barNames_iff hs hx.1 hx.2).mpr hnames }

/-- The label names the only video of a stick: while it plays, when its button stops it and when its
button starts it again. -/
theorem bar_names_only_video :
    ∃ l c, (shownEvents ⟨false⟩ Unit).History l c ∧ l.length = 5 ∧
      c.1.videos.player.playing = true ∧ ∀ c', Machine.Visits l c c' → c'.1.BarNames := by
  obtain ⟨l, c, hl, -, hp⟩ := Machine.exists_history_of_replay (M := shownEvents ⟨false⟩ Unit)
    (s := (startup, ())) rfl
    [.poll (stickShell "sda1".toList [] ["a.mp4".toList] 0), .click .videoButton 0, .videoRow 0,
      .click .playVideoButton 0, .click .playVideoButton 0]
    (fun l c => decide (l.length = 5 ∧ c.1.videos.player.playing = true ∧
      ∀ x ∈ l, NamesNext ⟨false⟩ x.before.1 x.event))
    (by decide +kernel)
  obtain ⟨hlen, hplays, hnames⟩ := of_decide_eq_true hp
  exact ⟨l, c, hl, hlen, hplays, (media_bar_iff hl).mpr hnames⟩

/-- After the last of two videos came to its end, the button starts the first under the name of the
last. -/
theorem first_video_under_last_name :
    ¬ ∃ qt : Qt, ∀ l c, (shownEvents qt Unit).History l c → c.1.BarNames := by
  rintro ⟨⟨rewinds⟩, hall⟩
  obtain ⟨l, c, hl, -, hp⟩ := Machine.exists_history_of_replay
    (M := shownEvents ⟨rewinds⟩ Unit) (s := (startup, ())) rfl
    [.poll (stickShell "sda1".toList [] ["a.mp4".toList, "b.mp4".toList] 0),
      .click .videoButton 0, .videoRow 1, .videoEnd, .click .playVideoButton 0,
      .click .playVideoButton 0]
    (fun _ c => decide (¬ c.1.BarNames))
    (by cases rewinds <;> decide +kernel)
  exact of_decide_eq_true hp (hall l c hl)

end Infotainment
