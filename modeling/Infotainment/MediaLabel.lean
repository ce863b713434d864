import Infotainment.Exclusion
import Infotainment.ShelfPolls

/-!
# The media label

One label names what is playing.  `playSong` and `onVideoListItemClicked` set it to the text of a
row, and so does `onSongChange` whenever the index of the song playlist moves to an entry.  It is
the name of a medium only as far as rows name media, so what is shown here is for runs in which the
songs stay parallel: while the music player plays, the label is the base name of the current song
(`labelled_of_fills`).

A video overwrites the label, but it also stops the music.
-/

namespace Infotainment

open EventSystem MediaShelf

variable {W : Type} {qt : Qt}

namespace QMediaPlaylist

/-- The current entry. -/
def currentMedia (pl : QMediaPlaylist) : Option Text :=
  if 0 ≤ pl.currentIndex then pl.media[pl.currentIndex.toNat]? else none

theorem currentMedia_congr {pl pl' : QMediaPlaylist} (hmedia : pl'.media = pl.media)
    (hcur : pl'.currentIndex = pl.currentIndex) : pl'.currentMedia = pl.currentMedia := by
  rw [currentMedia, hmedia, hcur, currentMedia]

end QMediaPlaylist

namespace MediaShelf

/-- The name is the base name of the current entry. -/
def CurrentNamed (m : MediaShelf) (name : Text) : Prop :=
  m.playList.currentMedia.map baseName = some name

instance (m : MediaShelf) (name : Text) : Decidable (m.CurrentNamed name) :=
  inferInstanceAs (Decidable (_ = _))

variable {m m' : MediaShelf} {name : Text}

theorem CurrentNamed.congr (h : m.CurrentNamed name)
    (hmedia : m'.playList.media = m.playList.media)
    (hcur : m'.playList.currentIndex = m.playList.currentIndex) : m'.CurrentNamed name := by
  show m'.playList.currentMedia.map baseName = some name
  rw [QMediaPlaylist.currentMedia_congr hmedia hcur]
  exact h

/-- What is added behind the current entry does not matter. -/
theorem CurrentNamed.extend (h : m.CurrentNamed name)
    (hmedia : m.playList.media <+: m'.playList.media)
    (hcur : m'.playList.currentIndex = m.playList.currentIndex) : m'.CurrentNamed name := by
  obtain ⟨paths, hpaths⟩ := hmedia
  rw [CurrentNamed, QMediaPlaylist.currentMedia] at h ⊢
  rw [hcur, ← hpaths]
  split_ifs at h ⊢ with h0
  · obtain ⟨path, hpath, hname⟩ := Option.map_eq_some_iff.mp h
    obtain ⟨hlt, -⟩ := List.getElem?_eq_some_iff.mp hpath
    rw [List.getElem?_append_left hlt, hpath, Option.map_some, hname]
  · exact h

/-- In parallel lists the row of the current entry names it. -/
theorem Parallel.currentNamed (h : m.Parallel)
    (hitem : item m.rows m.playList.currentIndex = .ok name) : m.CurrentNamed name := by
  obtain ⟨h0, hrow⟩ := item_eq_ok_iff.mp hitem
  rw [parallel_iff.mp h, List.getElem?_map] at hrow
  show m.playList.currentMedia.map baseName = some name
  rw [QMediaPlaylist.currentMedia, if_pos h0]
  exact hrow

end MediaShelf

namespace State

/-- While the music player plays, the label names the current song. -/
def LabelNamesSong (s : State) : Prop :=
  s.songs.player.playing = true → s.songs.CurrentNamed s.ui.currentRunningMediaLabel

variable {s s' : State}

theorem labelNamesSong_startup : startup.LabelNamesSong := by
  intro hplays
  exact absurd hplays (by decide)

theorem LabelNamesSong.congr (hs : s.LabelNamesSong)
    (hplays : s'.songs.player.playing = true → s.songs.player.playing = true)
    (hmedia : s'.songs.playList.media = s.songs.playList.media)
    (hcur : s'.songs.playList.currentIndex = s.songs.playList.currentIndex)
    (hlabel : s'.ui.currentRunningMediaLabel = s.ui.currentRunningMediaLabel) :
    s'.LabelNamesSong := by
  intro hp
  show s'.songs.CurrentNamed s'.ui.currentRunningMediaLabel
  rw [hlabel]
  exact (hs (hplays hp)).congr hmedia hcur

theorem labelNamesSong_of_stopped (h : ¬ s.songs.player.playing = true) : s.LabelNamesSong :=
  fun hplays => absurd hplays h

/-- `onSongChange` keeps up with the index. -/
theorem LabelNamesSong.moveIndex {pos : ℤ} (hs : s.LabelNamesSong) (hparallel : s.songs.Parallel)
    (hsound : s.songs.Sound) (h : s.moveSongs (·.setCurrentIndex pos) = .ok s') :
    s'.LabelNamesSong := by
  obtain ⟨text, hlabel, rfl⟩ := moveSongs_ok h
  intro hplays
  obtain ⟨hplayed, hcur⟩ := (hsound.setCurrentIndex_playing pos).mp hplays
  rcases hlabel with ⟨hstays | hend, rfl⟩ | ⟨-, -, hitem⟩
  · exact (hs hplayed).congr (s.songs.setCurrentIndex_media pos) hstays
  · exact absurd hend hcur
  · exact (hparallel.setCurrentIndex pos).currentNamed hitem

theorem labelNamesSong_playSong (hparallel : s.songs.Parallel) (h : s.playSong = .ok s') :
    s'.LabelNamesSong := by
  obtain ⟨text, hitem, rfl⟩ := playSong_ok h
  have h0 := (item_eq_ok_iff.mp hitem).1
  intro
  show s.songs.play.CurrentNamed text
  exact (hparallel.currentNamed hitem).congr s.songs.play_media
    (s.songs.play_currentIndex (by omega))

theorem LabelNamesSong.toggleIfPastEnd (hs : s.LabelNamesSong) :
    s.toggleIfPastEnd.LabelNamesSong := by
  rw [State.toggleIfPastEnd]
  split_ifs
  · exact hs
  · exact hs

theorem LabelNamesSong.skips (hs : s.LabelNamesSong) (hparallel : s.songs.Parallel)
    (hsound : s.songs.Sound) (h : s.Skips s') : s'.LabelNamesSong := by
  obtain ⟨pos, s₁, -, -, hmove, rfl⟩ := h
  exact (hs.moveIndex hparallel hsound hmove).toggleIfPastEnd

/-- A video stops the music, so that the label may go. -/
theorem labelNamesSong_playVideo
    (hflag : s.songs.player.playing = true → s.playingSongFlag = true) :
    s.playVideo.LabelNamesSong :=
  labelNamesSong_of_stopped (Exclusive.song_not_playing_playVideo hflag)

end State

/-! ## All events -/

/-- What the label depends on. -/
structure Labelled (s : State) : Prop where
  parallel : s.songs.Parallel
  sound : ShelvesSound s
  exclusive : Exclusive s
  label : s.LabelNamesSong

variable {s s' : State}

theorem press_labelNamesSong {pick : ℕ} (b : Button) (hs : Labelled s)
    (h : s.press pick b = .ok s') : s'.LabelNamesSong := by
  cases b <;> simp only [State.press, Except.ok.injEq] at h
  case playButton =>
    rcases State.onPlayButtonClicked_ok h with ⟨-, hplay⟩ | ⟨-, rfl⟩
    · exact State.labelNamesSong_playSong hs.parallel hplay
    · exact State.labelNamesSong_of_stopped (by simp [MediaShelf.pause])
  case forwardButton =>
    exact hs.label.skips hs.parallel hs.sound.songs (State.onForwardButtonClicked_ok h)
  case backwardButton =>
    exact hs.label.skips hs.parallel hs.sound.songs (State.onBackwardButtonClicked_ok h)
  case stopButton =>
    subst h
    rcases s.onStopButtonClicked_cases with heq | heq <;> rw [heq]
    · exact State.labelNamesSong_of_stopped (by simp [MediaShelf.stop])
    · exact hs.label
  case repeatButton =>
    obtain ⟨k, mode, icon, -, heq⟩ := s.onRepeatButtonClicked_eq
    exact h ▸ heq ▸ hs.label.congr id rfl rfl rfl
  case shuffleButton =>
    obtain ⟨k, mode, icon, -, heq⟩ := s.onShuffleButtonClicked_eq
    exact h ▸ heq ▸ hs.label.congr id rfl rfl rfl
  case playVideoButton =>
    subst h
    rcases s.onPlayVideoButtonClicked_cases with ⟨-, heq⟩ | ⟨-, heq⟩ <;> rw [heq]
    · exact State.labelNamesSong_playVideo hs.exclusive.song
    · exact hs.label
  case forwardVideoButton =>
    subst h
    rcases s.onForwardVideoButtonClicked_cases with heq | ⟨pos, heq⟩ <;> rw [heq]
    · exact hs.label
    · exact hs.label
  case darkThemeButton =>
    obtain ⟨flag, icon, heq⟩ := s.onDarkThemeButtonClicked_eq
    exact h ▸ heq ▸ hs.label
  all_goals exact h ▸ hs.label

theorem uiStep_labelNamesSong {e : Event W} (hs : Labelled s) (h : uiStep s e = .ok s') :
    s'.LabelNamesSong := by
  cases e <;> simp only [uiStep, Except.ok.injEq] at h
  case poll sh => exact h ▸ hs.label
  case clock date time => exact h ▸ hs.label
  case bluetooth sh =>
    obtain ⟨status, label, shown, heq⟩ := s.updatBluetoothDevices_eq sh
    exact h ▸ heq ▸ hs.label
  case click b pick => exact press_labelNamesSong b hs h
  case songRow i =>
    obtain ⟨s₁, hmove, hplay⟩ := State.onSongListItemClicked_ok h
    have heffect := UiEffect.moveSongs (fun m => .setCurrentIndex m _) hmove
    have hlabel := hs.label.moveIndex hs.parallel hs.sound.songs hmove
    rcases hplay with ⟨-, hplay⟩ | ⟨-, rfl⟩
    · have hparallel := heffect.songs.sameFiles.parallel_iff.mpr hs.parallel
      exact State.labelNamesSong_playSong hparallel hplay
    · exact hlabel
  case videoRow i =>
    obtain ⟨text, -, rfl⟩ := State.onVideoListItemClicked_ok h
    refine State.labelNamesSong_playVideo ?_
    simpa using hs.exclusive.song
  case songEnd pick => exact hs.label.moveIndex hs.parallel hs.sound.songs h
  case videoEnd => exact h ▸ hs.label
  case videoProgress position duration => exact h ▸ hs.label

/-- An update leaves the label and the current song alone as long as the player goes on. -/
theorem State.LabelNamesSong.update {m : MediaShelf} {ext usbPath count list text : Text}
    {mode : PlaybackMode} {flashStatus : FlashStatus} (hs : s.LabelNamesSong)
    (hsound : s.songs.Sound)
    (hm : s.songs.update qt ext mode flashStatus usbPath count list = some m)
    (hlabel : State.Relabels s.songs m s.ui.currentRunningMediaLabel text)
    (hplays : m.player.playing = true) : m.CurrentNamed text := by
  obtain ⟨hplayed, hmedia, hcur⟩ := update_goes_on hsound hm hplays
  rcases hlabel with ⟨-, rfl⟩ | ⟨hmoved, -, -⟩
  · exact (hs hplayed).extend hmedia hcur
  · exact absurd hcur hmoved

theorem PollOutcome.labelNamesSong {sh : Shell W} {w : W} {c : State × W}
    (h : PollOutcome qt sh s w c) (hs : s.LabelNamesSong) (hsound : ShelvesSound s) :
    c.1.LabelNamesSong := by
  cases h with
  | inserted m v text hdev hflash hm hv hlabel =>
    have hnamed := hs.update hsound.songs hm hlabel
    simpa [State.LabelNamesSong, State.setMediaLabel] using hnamed
  | removed m v text hdev hflash hdetach hm hv hlabel =>
    have hnamed := hs.update hsound.songs hm hlabel
    simpa [State.LabelNamesSong, State.setMediaLabel] using hnamed
  | notDetached => exact hs.congr (by simp) (by simp) (by simp) (by simp)
  | noUsb =>
    exact hs.congr (by simp [State.noUsb]) (by simp [State.noUsb]) (by simp [State.noUsb])
      (by simp [State.noUsb])
  | unchanged => exact hs.congr (by simp) (by simp) (by simp) (by simp)

theorem step_labelled {e : Event W} {c c' : State × W} (hs : Labelled c.1)
    (hshown : Shown e c.1) (hfills : FillsEmptySongs c.1 e) (h : step qt e c = .ok c') :
    Labelled c'.1 where
  parallel := step_songsParallel h hs.parallel hfills
  sound := step_shelvesSound h hs.sound
  exclusive := step_exclusive hs.exclusive hs.sound hshown h
  label := by
    rcases step_cases h with ⟨sh, rfl, hpoll⟩ | ⟨-, hui, -⟩
    · exact hpoll.labelNamesSong hs.label hs.sound
    · exact uiStep_labelNamesSong hs hui

/-- **The label names the song that plays,** in every run whose sticks find empty the playlist of
songs they fill. -/
theorem labelled_of_fills {l : List (Transition (State × W) (Event W))} {c : State × W}
    (h : (shownEvents qt W).History l c) (hl : ∀ x ∈ l, FillsEmptySongs x.before.1 x.event) :
    Labelled c.1 := by
  refine h.guarded (I := fun c' => Labelled c'.1) ?_ ?_ hl
  · intro c' hc'
    rw [hc']
    exact ⟨parallel_new, shelvesSound_startup, .startup, State.labelNamesSong_startup⟩
  · intro x hx hI hC
    exact step_labelled hI hx.1 hC hx.2

end Infotainment
