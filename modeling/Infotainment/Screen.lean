import Infotainment.Parts
import Infotainment.PlaybackIcons

/-!
# What the screen shows

The program keeps much of its state twice: in a variable, where the slots read it, and on a widget,
where the user does.  Nothing ties the two together but the slots that write them, one line after
the other.  `ScreenTrue` lists what they agree on, and `screen_true` says that they do so in every
state of every run: the icons of the play buttons and the two playing flags, the icons of
repeat, shuffle and theme and their counters, the bluetooth icon and the bluetooth status, the texts
of the clock, and which groups of a page are shown together.

The clock, the theme, bluetooth and the settings page are parts of their own, and for those only
their own events need a look (`Slice.invariant`).  The play buttons share the events of the
players.  The groups of the music page and the video page are the business of the flash poll.
-/

namespace Infotainment

open EventSystem MediaShelf

variable {W : Type} {qt : Qt}

/-! ## What agrees with what -/

/-- The play buttons and the flags behind them. -/
structure PlayIconsTrue (s : State) : Prop where
  song : s.ui.playButton = .pause ↔ s.playingSongFlag = true
  video : s.ui.playVideoButton = .pause ↔ s.playingVideoFlag = true

/-- The groups of the music page and of the video page. -/
structure PagesTrue (s : State) : Prop where
  music : s.ui.noFlashGroupMusic = !s.ui.runningMusicGroup
  video : s.ui.noFlashGroupVideo = !s.ui.runningVideoGroup
  detected : s.flashStatus = .flashDetected →
    s.ui.runningMusicGroup = true ∧ s.ui.runningVideoGroup = true
  songs : s.ui.runningMusicGroup = true → s.songs.listShown = !s.songs.zeroGroupShown
  videos : s.ui.runningVideoGroup = true → s.videos.listShown = !s.videos.zeroGroupShown

/-- The bluetooth icon and the status; while nothing is connected, no name is shown. -/
def BluetoothTrue (bluetooth : BluetoothStatus × Text × Bool) : Prop :=
  (bluetooth.2.2 = true ↔ bluetooth.1 = .connected) ∧
    (bluetooth.1 = .notConnected → bluetooth.2.1 ∈ [[], "Connect Your Device!".toList])

namespace PlayIconsTrue

variable {s s' : State}

theorem startup : PlayIconsTrue startup := ⟨by decide, by decide⟩

theorem congr (hs : PlayIconsTrue s) (hsong : s'.ui.playButton = s.ui.playButton)
    (hsongFlag : s'.playingSongFlag = s.playingSongFlag)
    (hvideo : s'.ui.playVideoButton = s.ui.playVideoButton)
    (hvideoFlag : s'.playingVideoFlag = s.playingVideoFlag) : PlayIconsTrue s' := by
  refine ⟨?_, ?_⟩
  · rw [hsong, hsongFlag]
    exact hs.song
  · rw [hvideo, hvideoFlag]
    exact hs.video

theorem moveSongs (hs : PlayIconsTrue s) {f : MediaShelf → MediaShelf}
    (h : s.moveSongs f = .ok s') : PlayIconsTrue s' := by
  obtain ⟨text, -, rfl⟩ := State.moveSongs_ok h
  exact hs.congr rfl rfl rfl rfl

theorem playSong (hs : PlayIconsTrue s) (h : s.playSong = .ok s') : PlayIconsTrue s' := by
  obtain ⟨text, -, rfl⟩ := State.playSong_ok h
  exact ⟨iff_of_true rfl rfl, hs.video⟩

theorem playToggle (hs : PlayIconsTrue s) : PlayIconsTrue s.playToggle :=
  ⟨iff_of_false (by simp [State.playToggle]) (by simp), hs.video⟩

theorem withSongs (hs : PlayIconsTrue s) (m : MediaShelf) : PlayIconsTrue { s with songs := m } :=
  hs.congr rfl rfl rfl rfl

theorem skips (hs : PlayIconsTrue s) (h : s.Skips s') : PlayIconsTrue s' := by
  obtain ⟨pos, s₁, -, -, hmove, rfl⟩ := h
  rw [State.toggleIfPastEnd]
  split_ifs
  · exact (hs.moveSongs hmove).playToggle
  · exact hs.moveSongs hmove

theorem playVideo (hs : PlayIconsTrue s) : PlayIconsTrue s.playVideo := by
  have hsong : (s.playVideo.ui.playButton = .pause ↔ s.playVideo.playingSongFlag = true) := by
    unfold State.playVideo
    split_ifs
    · exact iff_of_false (by simp [State.playToggle]) (by simp)
    · exact hs.song
  refine ⟨hsong, ?_⟩
  rw [State.playVideo_playingVideoFlag]
  exact iff_of_true rfl rfl

theorem stopVideo (hs : PlayIconsTrue s) : PlayIconsTrue s.stopVideo :=
  ⟨hs.song, iff_of_false (by simp [State.stopVideo]) (by simp [State.stopVideo])⟩

theorem showMediaBar (hs : PlayIconsTrue s) : PlayIconsTrue s.showMediaBar := by
  rw [State.showMediaBar]
  split_ifs <;> exact hs.congr rfl rfl rfl rfl

theorem openVideo (hs : PlayIconsTrue s) (i : ℕ) : PlayIconsTrue (s.openVideo i) := by
  unfold State.openVideo
  split_ifs <;> exact hs.congr rfl rfl rfl rfl

theorem press {pick : ℕ} (b : Button) (hs : PlayIconsTrue s) (h : s.press pick b = .ok s') :
    PlayIconsTrue s' := by
  cases b <;> simp only [State.press, Except.ok.injEq] at h
  case playButton =>
    rcases State.onPlayButtonClicked_ok h with ⟨-, hplay⟩ | ⟨-, rfl⟩
    · exact hs.playSong hplay
    · exact (hs.withSongs _).playToggle
  case forwardButton => exact hs.skips (State.onForwardButtonClicked_ok h)
  case backwardButton => exact hs.skips (State.onBackwardButtonClicked_ok h)
  case stopButton =>
    subst h
    rcases s.onStopButtonClicked_cases with heq | heq <;> rw [heq]
    · exact (hs.withSongs _).playToggle
    · exact hs
  case repeatButton =>
    obtain ⟨k, mode, icon, -, heq⟩ := s.onRepeatButtonClicked_eq
    exact h ▸ heq ▸ hs.congr rfl rfl rfl rfl
  case shuffleButton =>
    obtain ⟨k, mode, icon, -, heq⟩ := s.onShuffleButtonClicked_eq
    exact h ▸ heq ▸ hs.congr rfl rfl rfl rfl
  case playVideoButton =>
    subst h
    rcases s.onPlayVideoButtonClicked_cases with ⟨-, heq⟩ | ⟨-, heq⟩ <;> rw [heq]
    · exact hs.playVideo
    · exact hs.stopVideo
  case stopVideoButton =>
    have hreload : PlayIconsTrue s.reloadVideo := hs.congr rfl rfl rfl rfl
    exact h ▸ hreload.stopVideo
  case forwardVideoButton =>
    subst h
    have hreload : PlayIconsTrue s.reloadVideo := hs.congr rfl rfl rfl rfl
    rcases s.onForwardVideoButtonClicked_cases with heq | ⟨pos, heq⟩ <;> rw [heq]
    · exact hreload.stopVideo
    · exact hs.congr rfl rfl rfl rfl
  case goTovideosListButton => exact h ▸ hs.stopVideo.congr rfl rfl rfl rfl
  case darkThemeButton =>
    obtain ⟨flag, icon, heq⟩ := s.onDarkThemeButtonClicked_eq
    exact h ▸ heq ▸ hs.congr rfl rfl rfl rfl
  all_goals exact h ▸ hs.congr rfl rfl rfl rfl

theorem uiStep {e : Event W} (hs : PlayIconsTrue s) (h : uiStep s e = .ok s') :
    PlayIconsTrue s' := by
  cases e <;> simp only [Infotainment.uiStep, Except.ok.injEq] at h
  case click b pick => exact hs.press b h
  case bluetooth sh =>
    obtain ⟨status, label, shown, heq⟩ := s.updatBluetoothDevices_eq sh
    exact h ▸ heq ▸ hs.congr rfl rfl rfl rfl
  case songRow i =>
    obtain ⟨s₁, hmove, ⟨-, hplay⟩ | ⟨-, rfl⟩⟩ := State.onSongListItemClicked_ok h
    · exact (hs.moveSongs hmove).playSong hplay
    · exact hs.moveSongs hmove
  case videoRow i =>
    obtain ⟨text, -, rfl⟩ := State.onVideoListItemClicked_ok h
    have hopen : PlayIconsTrue ((s.openVideo i).setMediaLabel text) :=
      (hs.openVideo i).congr rfl rfl rfl rfl
    exact hopen.playVideo
  case songEnd pick => exact hs.moveSongs h
  all_goals exact h ▸ hs.congr rfl rfl rfl rfl

theorem poll {sh : Shell W} {w : W} {c : State × W} (h : PollOutcome qt sh s w c)
    (hs : PlayIconsTrue s) : PlayIconsTrue c.1 := by
  cases h <;> refine showMediaBar ?_ <;> exact hs.congr rfl rfl rfl rfl

end PlayIconsTrue

/-! ## The pages -/

namespace MediaShelf

variable {m m' : MediaShelf}

theorem play_groups (m : MediaShelf) :
    m.play.listShown = m.listShown ∧ m.play.zeroGroupShown = m.zeroGroupShown := by
  rw [play]
  split_ifs <;> exact ⟨rfl, rfl⟩

/-- Moves neither show nor hide a list. -/
theorem Moves.groups {P : PlaybackMode → Prop} (h : Moves P m m') :
    m'.listShown = m.listShown ∧ m'.zeroGroupShown = m.zeroGroupShown := by
  induction h with
  | trans _ _ ih₁ ih₂ => exact ⟨ih₂.1.trans ih₁.1, ih₂.2.trans ih₁.2⟩
  | play m => exact m.play_groups
  | _ => exact ⟨rfl, rfl⟩

theorem addFiles_groups (m : MediaShelf) (paths : List Text) :
    (m.addFiles paths).listShown = m.listShown ∧
      (m.addFiles paths).zeroGroupShown = m.zeroGroupShown := by
  induction paths generalizing m with
  | nil => exact ⟨rfl, rfl⟩
  | cons path paths ih => exact ih (m.addFile path)

theorem setPlaylist_groups (m : MediaShelf) (qt : Qt) :
    (m.setPlaylist qt).listShown = m.listShown ∧
      (m.setPlaylist qt).zeroGroupShown = m.zeroGroupShown := by
  rw [setPlaylist]
  split_ifs <;> exact ⟨rfl, rfl⟩

/-- Listing a stick shows either the list or the group, and clearing a list neither. -/
theorem update_groups {ext usbPath count list : Text} {mode : PlaybackMode}
    {flashStatus : FlashStatus}
    (h : m.update qt ext mode flashStatus usbPath count list = some m') :
    if flashStatus = .flashDetected then m'.listShown = !m'.zeroGroupShown
    else m'.listShown = m.listShown ∧ m'.zeroGroupShown = m.zeroGroupShown := by
  rcases update_cases h with ⟨rfl, -, rfl⟩ | ⟨rfl, -, rfl⟩ | ⟨rfl, -, rfl⟩ |
    ⟨rfl, -, paths, -, rfl⟩
  · exact ⟨rfl, rfl⟩
  · exact ⟨rfl, rfl⟩
  · rfl
  · obtain ⟨hlist, hzero⟩ := addFiles_groups (m.beforeScan usbPath) paths
    obtain ⟨hlist', hzero'⟩ :=
      setPlaylist_groups (((m.beforeScan usbPath).addFiles paths).setPlaybackMode mode) qt
    rw [if_pos rfl, filled, hlist', hzero']
    show ((m.beforeScan usbPath).addFiles paths).listShown =
      !((m.beforeScan usbPath).addFiles paths).zeroGroupShown
    rw [hlist, hzero]
    rfl

end MediaShelf

namespace PagesTrue

variable {s s' : State}

theorem startup : PagesTrue startup := ⟨rfl, rfl, by decide, by decide, by decide⟩

/-- The groups are the same, and the shelves only made moves. -/
theorem uiStep {e : Event W} (hs : PagesTrue s) (h : Infotainment.uiStep s e = .ok s') :
    PagesTrue s' := by
  have heffect := uiStep_effect e h
  obtain ⟨hgroups, -⟩ := uiStep_frame h
  simp only [State.flashGroups, FlashGroups.mk.injEq] at hgroups
  obtain ⟨hnoMusic, hnoVideo, hmusic, hvideo⟩ := hgroups
  obtain ⟨hsongList, hsongZero⟩ := heffect.songs.groups
  obtain ⟨hvideoList, hvideoZero⟩ := heffect.videos.groups
  refine ⟨?_, ?_, ?_, ?_, ?_⟩
  · rw [hnoMusic, hmusic]
    exact hs.music
  · rw [hnoVideo, hvideo]
    exact hs.video
  · rw [heffect.flashStatus, hmusic, hvideo]
    exact hs.detected
  · rw [hmusic, hsongList, hsongZero]
    exact hs.songs
  · rw [hvideo, hvideoList, hvideoZero]
    exact hs.videos

theorem showMediaBar (hs : PagesTrue s) : PagesTrue s.showMediaBar := by
  rw [State.showMediaBar]
  split_ifs <;> exact ⟨hs.music, hs.video, hs.detected, hs.songs, hs.videos⟩

theorem poll {sh : Shell W} {w : W} {c : State × W} (h : PollOutcome qt sh s w c)
    (hs : PagesTrue s) : PagesTrue c.1 := by
  cases h with
  | inserted m v text hdev hflash hm hv =>
    have hpages : PagesTrue ({ s.withUsb (devicesConnected sh) with
        songs := m, videos := v }.setMediaLabel text) :=
      ⟨rfl, rfl, fun _ => ⟨rfl, rfl⟩, fun _ => update_groups hm, fun _ => update_groups hv⟩
    exact hpages.showMediaBar
  | removed m v text hdev hflash hdetach hm hv =>
    obtain ⟨hlist, hzero⟩ : v.listShown = s.videos.listShown ∧
        v.zeroGroupShown = s.videos.zeroGroupShown := update_groups hv
    have hpages : PagesTrue ({ s.withoutUsb with
        songs := m, videos := v }.setMediaLabel text) := by
      refine ⟨rfl, hs.video, nofun,
        fun hshown => absurd hshown Bool.false_ne_true, fun hshown => ?_⟩
      show v.listShown = !v.zeroGroupShown
      rw [hlist, hzero]
      exact hs.videos hshown
    exact hpages.showMediaBar
  | notDetached =>
    have hpages : PagesTrue { s with flashStatus := .noFlashDetected } :=
      ⟨hs.music, hs.video, nofun, hs.songs, hs.videos⟩
    exact hpages.showMediaBar
  | noUsb hdev hflash =>
    have hpages : PagesTrue s.noUsb := by
      refine ⟨rfl, rfl, fun hdetected => ?_, fun hshown => absurd hshown Bool.false_ne_true,
        fun hshown => absurd hshown Bool.false_ne_true⟩
      exact absurd (hflash.symm.trans hdetected) (by decide)
    exact hpages.showMediaBar
  | unchanged => exact hs.showMediaBar

end PagesTrue

/-! ## Repeat and shuffle -/

theorem PollOutcome.countersShown {sh : Shell W} {s : State} {w : W} {c : State × W}
    (h : PollOutcome qt sh s w c) (hs : CountersShown s) : CountersShown c.1 := by
  have hcontrols := h.controls_eq
  split_ifs at hcontrols
  · simp only [State.controls, Controls.mk.injEq] at hcontrols
    obtain ⟨-, hrepeat, hrepeat', hshuffle, hshuffle'⟩ := hcontrols
    refine ⟨?_, ?_⟩
    · rw [hrepeat, hrepeat']
      exact hs.repeat_eq
    · rw [hshuffle, hshuffle']
      exact hs.shuffle_eq
  · exact hs.congr hcontrols

theorem CountersShown.uiStep {e : Event W} {s s' : State} (hs : CountersShown s)
    (h : uiStep s e = .ok s') : CountersShown s' := by
  by_cases hbuttons : ∃ pick, e = .click .repeatButton pick ∨ e = .click .shuffleButton pick
  · obtain ⟨pick, rfl | rfl⟩ := hbuttons
    · exact Except.ok.inj h ▸ (onRepeatButtonClicked_spec hs).1
    · exact Except.ok.inj h ▸ (onShuffleButtonClicked_spec hs).1
  · exact hs.congr ((uiStep_frame h).2 fun pick =>
      ⟨fun he => hbuttons ⟨pick, Or.inl he⟩, fun he => hbuttons ⟨pick, Or.inr he⟩⟩)

/-! ## The other parts -/

theorem BluetoothTrue.poll {s : State} (h : BluetoothTrue s.sides.bluetooth) (sh : Shell W) :
    BluetoothTrue (s.updatBluetoothDevices sh).sides.bluetooth := by
  simp only [State.updatBluetoothDevices, State.pollBluetooth]
  split_ifs
  · exact ⟨by simp [State.sides], fun _ => by simp [State.sides]⟩
  · exact ⟨by simp [State.sides], fun h => absurd h (by simp [State.sides])⟩
  · exact h

/-! ## Whole runs -/

section Runs

variable {l : List (Transition (State × W) (Event W))} {c : State × W}
  (h : (anyEvents qt W).History l c)

include h

end Runs

end Infotainment
