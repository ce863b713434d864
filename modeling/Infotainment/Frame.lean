import Infotainment.Transitions

/-!
# What the events leave alone

Two parts of the state are changed in a few places only.  The groups that show whether there is a
stick are the business of the flash poll.  The playback mode of the songs, with the icons and the
counters behind it, is the business of two buttons and of the poll when it lists a stick.

`uiStep_frame` says so, once and for all events other than the poll.
-/

namespace Infotainment

open EventSystem MediaShelf

variable {W : Type}

/-- The groups that the branches of the flash poll show and hide. -/
structure FlashGroups where
  noFlashGroupMusic : Bool
  noFlashGroupVideo : Bool
  runningMusicGroup : Bool
  runningVideoGroup : Bool

/-- The playback mode of the songs, the two icons, and the counters behind them. -/
structure Controls where
  mode : PlaybackMode
  toggleRepeat : ℕ
  repeatButton : RepeatIcon
  toggleShuffle : ℕ
  shuffleButton : ShuffleIcon

namespace State

def flashGroups (s : State) : FlashGroups where
  noFlashGroupMusic := s.ui.noFlashGroupMusic
  noFlashGroupVideo := s.ui.noFlashGroupVideo
  runningMusicGroup := s.ui.runningMusicGroup
  runningVideoGroup := s.ui.runningVideoGroup

def controls (s : State) : Controls where
  mode := s.songs.playList.playbackMode
  toggleRepeat := s.toggleRepeat
  repeatButton := s.ui.repeatButton
  toggleShuffle := s.toggleShuffle
  shuffleButton := s.ui.shuffleButton

end State

/-- Neither groups nor controls differ. -/
structure SameFrame (s s' : State) : Prop where
  flashGroups : s'.flashGroups = s.flashGroups
  controls : s'.controls = s.controls

namespace SameFrame

variable {s s' s'' : State}

theorem trans (h₁ : SameFrame s s') (h₂ : SameFrame s' s'') : SameFrame s s'' :=
  ⟨h₂.flashGroups.trans h₁.flashGroups, h₂.controls.trans h₁.controls⟩

theorem moveIndex {pos : ℤ} (h : s.moveSongs (·.setCurrentIndex pos) = .ok s') :
    SameFrame s s' := by
  obtain ⟨text, -, rfl⟩ := State.moveSongs_ok h
  exact ⟨rfl, by simp [State.controls, State.setMediaLabel]⟩

theorem playSong (h : s.playSong = .ok s') : SameFrame s s' := by
  obtain ⟨text, -, rfl⟩ := State.playSong_ok h
  exact ⟨rfl, by simp [State.controls]⟩

theorem toggleIfPastEnd (s : State) : SameFrame s s.toggleIfPastEnd := by
  rw [State.toggleIfPastEnd]
  split_ifs <;> exact ⟨rfl, rfl⟩

theorem skips (h : s.Skips s') : SameFrame s s' := by
  obtain ⟨pos, s₁, -, -, hmove, rfl⟩ := h
  exact (moveIndex hmove).trans (.toggleIfPastEnd s₁)

theorem playVideo (s : State) : SameFrame s s.playVideo := by
  unfold State.playVideo
  split_ifs <;> exact ⟨rfl, rfl⟩

theorem openVideo (s : State) (i : ℕ) : SameFrame s (s.openVideo i) := by
  unfold State.openVideo
  split_ifs <;> exact ⟨rfl, rfl⟩

theorem showMediaBar (s : State) : SameFrame s s.showMediaBar := by
  rw [State.showMediaBar]
  split_ifs <;> exact ⟨rfl, rfl⟩

end SameFrame

variable {s s' : State}

theorem press_frame {pick : ℕ} (b : Button) (h : s.press pick b = .ok s') :
    s'.flashGroups = s.flashGroups ∧
      (b ≠ .repeatButton → b ≠ .shuffleButton → s'.controls = s.controls) := by
  have hsame : SameFrame s s' → _ := fun hframe => And.intro hframe.flashGroups
    fun (_ : b ≠ .repeatButton) (_ : b ≠ .shuffleButton) => hframe.controls
  cases b <;> simp only [State.press, Except.ok.injEq] at h
  case playButton =>
    rcases State.onPlayButtonClicked_ok h with ⟨-, hplay⟩ | ⟨-, rfl⟩
    · exact hsame (.playSong hplay)
    · exact hsame ⟨rfl, rfl⟩
  case forwardButton => exact hsame (.skips (State.onForwardButtonClicked_ok h))
  case backwardButton => exact hsame (.skips (State.onBackwardButtonClicked_ok h))
  case stopButton =>
    subst h
    rcases s.onStopButtonClicked_cases with heq | heq <;> rw [heq] at hsame ⊢ <;>
      exact hsame ⟨rfl, rfl⟩
  case repeatButton =>
    obtain ⟨k, mode, icon, -, heq⟩ := s.onRepeatButtonClicked_eq
    exact ⟨h ▸ heq ▸ rfl, fun hb => absurd rfl hb⟩
  case shuffleButton =>
    obtain ⟨k, mode, icon, -, heq⟩ := s.onShuffleButtonClicked_eq
    exact ⟨h ▸ heq ▸ rfl, fun _ hb => absurd rfl hb⟩
  case playVideoButton =>
    subst h
    rcases s.onPlayVideoButtonClicked_cases with ⟨-, heq⟩ | ⟨-, heq⟩ <;> rw [heq] at hsame ⊢
    · exact hsame (.playVideo s)
    · exact hsame ⟨rfl, rfl⟩
  case forwardVideoButton =>
    subst h
    rcases s.onForwardVideoButtonClicked_cases with heq | ⟨pos, heq⟩ <;> rw [heq] at hsame ⊢ <;>
      exact hsame ⟨rfl, rfl⟩
  case darkThemeButton =>
    obtain ⟨flag, icon, heq⟩ := s.onDarkThemeButtonClicked_eq
    exact hsame (h ▸ heq ▸ ⟨rfl, rfl⟩)
  all_goals exact hsame (h ▸ ⟨rfl, rfl⟩)

/-- **The frame of the events other than the poll.** -/
theorem uiStep_frame {e : Event W} (h : uiStep s e = .ok s') :
    s'.flashGroups = s.flashGroups ∧
      ((∀ pick, e ≠ .click .repeatButton pick ∧ e ≠ .click .shuffleButton pick) →
        s'.controls = s.controls) := by
  have hsame : SameFrame s s' → _ := fun hframe => And.intro hframe.flashGroups
    fun (_ : ∀ pick, e ≠ .click .repeatButton pick ∧ e ≠ .click .shuffleButton pick) =>
      hframe.controls
  cases e <;> simp only [uiStep, Except.ok.injEq] at h
  case click b pick =>
    obtain ⟨hgroups, hcontrols⟩ := press_frame b h
    refine ⟨hgroups, fun he => hcontrols ?_ ?_⟩
    · rintro rfl
      exact (he pick).1 rfl
    · rintro rfl
      exact (he pick).2 rfl
  case bluetooth sh =>
    obtain ⟨status, label, shown, heq⟩ := s.updatBluetoothDevices_eq sh
    exact hsame (h ▸ heq ▸ ⟨rfl, rfl⟩)
  case songRow i =>
    obtain ⟨s₁, hmove, ⟨-, hplay⟩ | ⟨-, rfl⟩⟩ := State.onSongListItemClicked_ok h
    · exact hsame ((SameFrame.moveIndex hmove).trans (.playSong hplay))
    · exact hsame (.moveIndex hmove)
  case videoRow i =>
    obtain ⟨text, -, rfl⟩ := State.onVideoListItemClicked_ok h
    have hlabel : SameFrame s ((s.openVideo i).setMediaLabel text) :=
      (SameFrame.openVideo s i).trans ⟨rfl, rfl⟩
    exact hsame (hlabel.trans (.playVideo _))
  case songEnd pick => exact hsame (.moveIndex h)
  all_goals exact hsame (h ▸ ⟨rfl, rfl⟩)

end Infotainment
