import Infotainment.PlayingFlags
import Infotainment.ShelfPolls

/-!
# The repeat and shuffle icons

The song list has one playback mode and three things that set it.  Repeat goes round `loop`,
`currentItemInLoop` and `sequential`; shuffle goes between `random` and `sequential`; and listing a
new stick sets `sequential`.  Repeat and shuffle each have an icon and a counter of their own and
change nothing of the other's, and listing a stick touches neither.

What the two icons promise together is `Ui.shownMode`.  Forward keeps the promise if that is the
playback mode and there is a row to read for the entry it goes to, which a playlist that was filled
twice need not have: its rows are those of the second stick.  `iconsTrue_iff` says so for one state,
and `icons_true_iff` which clicks and which sticks make the difference in a run.
-/

namespace Infotainment

open EventSystem MediaShelf

variable {W : Type} {qt : Qt}

/-! ## What the icons promise -/

/-- The playback mode the repeat icon stands for. -/
def RepeatIcon.mode : RepeatIcon → PlaybackMode
  | .repeat => .sequential
  | .repeatPressed => .loop
  | .repeatOnce => .currentItemInLoop

/-- The playback mode the icons show. -/
def Ui.shownMode (ui : Ui) : PlaybackMode :=
  match ui.shuffleButton with
  | .shufflePressed => .random
  | .shuffle => ui.repeatButton.mode

/-- Where the repeat icon says that forward leads from entry `i` of `n`. -/
def RepeatIcon.successor (icon : RepeatIcon) (n : ℕ) (i : ℤ) : ℤ :=
  match icon with
  | .repeat => if i = n - 1 then -1 else i + 1
  | .repeatPressed => (i + 1) % n
  | .repeatOnce => i

/-- The state with another song list. -/
def State.withSongs (s : State) (m : MediaShelf) : State := { s with songs := m }

/-- The icons keep their promise: the mode is `random` when shuffle is pressed and only then, and
otherwise forward gets through and leads to where the repeat icon says; past the end it resets the
playing flag.  That is said of each entry of the song list as it is, and of each entry of any other
list in this mode that has its rows. -/
def State.IconsTrue (s : State) : Prop :=
  (s.songs.playList.playbackMode = .random ↔ s.ui.shuffleButton = .shufflePressed) ∧
    (s.ui.shuffleButton ≠ .shufflePressed →
      ∀ (m : MediaShelf) (pick : ℕ),
        m.playList.playbackMode = s.songs.playList.playbackMode →
        SameFiles s.songs m ∨ m.playList.media.length ≤ m.rows.length →
        m.playList.currentIndex ≠ -1 →
        ∃ s', (s.withSongs m).onForwardButtonClicked pick = .ok s' ∧
          s'.songs.playList.currentIndex =
            s.ui.repeatButton.successor m.playList.media.length m.playList.currentIndex ∧
          (s'.songs.playList.currentIndex = -1 → s'.playingSongFlag = false))

/-- The mode is the one the icons show. -/
def State.ModeShown (s : State) : Prop := s.songs.playList.playbackMode = s.ui.shownMode

/-- Each entry has its row, or there are no two entries to move between. -/
def MediaShelf.RowsSuffice (m : MediaShelf) : Prop :=
  m.playList.media.length ≤ m.rows.length ∨ m.playList.media.length ≤ 1

instance (m : MediaShelf) : Decidable m.RowsSuffice := inferInstanceAs (Decidable (_ ∨ _))

theorem MediaShelf.not_missesRow_next_of_le {m : MediaShelf} {pick : ℕ}
    (hle : m.playList.media.length ≤ m.rows.length) : ¬ MissesRow m (m.next pick) := by
  have hlt := (m.next pick).playList.lt_mediaCount
  rw [show (m.next pick).playList.media = m.playList.media from setCurrentIndex_media _ _] at hlt
  rintro ⟨-, -, hrow⟩
  rw [show (m.next pick).rows = m.rows from rfl] at hrow
  omega

theorem MediaShelf.SameFiles.rowsSuffice_iff {m m' : MediaShelf} (h : SameFiles m m') :
    m'.RowsSuffice ↔ m.RowsSuffice := by
  rw [RowsSuffice, RowsSuffice, h.rows, h.media]

namespace State

variable {s s' : State}

/-- Where the entry it goes to has a row, forward gets through, and leads to `nextIndex`. -/
theorem exists_onForwardButtonClicked (pick : ℕ)
    (hrow : ¬ MissesRow s.songs (s.songs.next pick)) :
    ∃ s', s.onForwardButtonClicked pick = .ok s' ∧
      s'.songs.playList.currentIndex = s.songs.playList.nextIndex pick ∧
      (s.songs.playList.nextIndex pick = -1 → s.songs.playList.playbackMode = .sequential →
        s'.playingSongFlag = false) := by
  have hcur : (s.songs.next pick).playList.currentIndex = s.songs.playList.nextIndex pick :=
    setCurrentIndex_currentIndex _ (s.songs.playList.nextIndex_mem pick)
  obtain ⟨s₁, hmove⟩ := exists_moveSongs_of_not_missesRow (s := s) (f := (·.next pick)) hrow
  refine ⟨s₁.toggleIfPastEnd, map_eq_ok_iff.mpr ⟨s₁, hmove, rfl⟩, ?_⟩
  obtain ⟨text, -, rfl⟩ := moveSongs_ok hmove
  have hmode : (s.songs.next pick).playList.playbackMode = s.songs.playList.playbackMode :=
    setCurrentIndex_mode _ _
  rw [toggleIfPastEnd]
  simp only [setMediaLabel_songs, hcur, hmode]
  split_ifs with hpast
  · exact ⟨hcur, fun _ _ => rfl⟩
  · exact ⟨hcur, fun hend hseq => absurd ⟨by omega, hseq⟩ hpast⟩

/-- In the mode that the icons show, `next()` leads where the repeat icon says. -/
theorem nextIndex_eq_successor {pl : QMediaPlaylist} {ui : Ui} {pick : ℕ}
    (hcur : pl.currentIndex ≠ -1) (hmode : pl.playbackMode = ui.shownMode)
    (hshuffle : ui.shuffleButton ≠ .shufflePressed) :
    pl.nextIndex pick = ui.repeatButton.successor pl.media.length pl.currentIndex := by
  have hpos := List.length_pos_of_ne_nil (QMediaPlaylist.media_ne_nil_of_currentIndex hcur)
  have hlt := pl.lt_mediaCount
  rw [QMediaPlaylist.nextIndex, if_neg (by omega), hmode, Ui.shownMode]
  cases hs : ui.shuffleButton with
  | shufflePressed => exact absurd hs hshuffle
  | shuffle =>
    cases ui.repeatButton <;> simp only [RepeatIcon.mode, RepeatIcon.successor]
    split_ifs <;> omega

/-- Two songs, the second of them current.  No two modes agree on what comes next. -/
def twoSongs (mode : PlaybackMode) : MediaShelf :=
  ((((MediaShelf.new.addFile "a.mp3".toList).addFile "b.mp3".toList).setCurrentIndex
    1).setPlaybackMode mode)

theorem eq_mode_of_twoSongs {mode : PlaybackMode} {icon : RepeatIcon}
    (h : (twoSongs mode).playList.nextIndex 0 = icon.successor 2 1) (hrandom : mode ≠ .random)
    (honce : mode ≠ .currentItemOnce) : mode = icon.mode := by
  cases mode with
  | random => exact absurd rfl hrandom
  | currentItemOnce => exact absurd rfl honce
  | _ =>
    revert h
    cases icon <;> decide

/-- Where the promise is kept, the mode is the one that is shown. -/
theorem IconsTrue.modeShown (h : s.IconsTrue)
    (hmode : s.songs.playList.playbackMode ≠ .currentItemOnce) : s.ModeShown := by
  obtain ⟨hrandom, hforward⟩ := h
  cases hs : s.ui.shuffleButton with
  | shufflePressed =>
    rw [ModeShown, hrandom.mpr hs, Ui.shownMode, hs]
  | shuffle =>
    have hnot : s.songs.playList.playbackMode ≠ .random := fun h => by
      rw [hrandom.mp h] at hs
      exact absurd hs (by decide)
    obtain ⟨s₁, hok, hcur, -⟩ := hforward (by rw [hs]; decide)
      (twoSongs s.songs.playList.playbackMode) 0 rfl (Or.inr (le_refl 2))
      (show (1 : ℤ) ≠ -1 by decide)
    obtain ⟨s₂, hok', hcur', -⟩ := exists_onForwardButtonClicked
      (s := s.withSongs (twoSongs s.songs.playList.playbackMode)) 0
      (MediaShelf.not_missesRow_next_of_le (le_refl 2))
    rw [hok, Except.ok.injEq] at hok'
    rw [← hok', hcur] at hcur'
    rw [ModeShown, Ui.shownMode, hs]
    exact eq_mode_of_twoSongs hcur'.symm hnot hmode

/-- In the mode that is shown, forward goes from entry `i` to entry `i + 1`, except at the end and
where one song is repeated. -/
theorem nextIndex_eq_add_one (hshown : s.ModeShown)
    (hshuffle : s.ui.shuffleButton ≠ .shufflePressed) (honce : s.ui.repeatButton ≠ .repeatOnce)
    {i pick : ℕ} (hi : i + 1 < s.songs.playList.media.length) :
    (s.songs.setCurrentIndex i).playList.nextIndex pick = (i + 1 : ℕ) := by
  have hcur : (s.songs.setCurrentIndex i).playList.currentIndex = i :=
    setCurrentIndex_currentIndex _ (by omega)
  have hmode : (s.songs.setCurrentIndex i).playList.playbackMode = s.ui.shownMode :=
    (setCurrentIndex_mode _ _).trans hshown
  rw [nextIndex_eq_successor (by omega) hmode hshuffle, hcur, setCurrentIndex_media]
  cases hicon : s.ui.repeatButton with
  | «repeat» =>
    rw [RepeatIcon.successor, if_neg (by omega)]
    rfl
  | repeatPressed => exact Int.emod_eq_of_lt (by omega) (by exact_mod_cast hi)
  | repeatOnce => exact absurd hicon honce

/-- Where the promise is kept, there are rows enough, or forward does not need them. -/
theorem IconsTrue.rowsSuffice (h : s.IconsTrue) (hshown : s.ModeShown)
    (hshuffle : s.ui.shuffleButton ≠ .shufflePressed)
    (honce : s.ui.repeatButton ≠ .repeatOnce) : s.songs.RowsSuffice := by
  by_contra hfew
  simp only [RowsSuffice, not_or, not_le] at hfew
  -- entry `i` is the last one with a row, or the first entry of all
  have hi : s.songs.rows.length - 1 + 1 < s.songs.playList.media.length := by omega
  generalize hrow : s.songs.rows.length - 1 = i at hi
  have hcur : (s.songs.setCurrentIndex i).playList.currentIndex = i :=
    setCurrentIndex_currentIndex _ (by omega)
  obtain ⟨s', hok, -, -⟩ := h.2 hshuffle (s.songs.setCurrentIndex i) 0 (setCurrentIndex_mode _ _)
    (Or.inl (Moves.setCurrentIndex (P := fun _ => True) s.songs i).sameFiles) (by omega)
  have hnext : ((s.songs.setCurrentIndex i).next 0).playList.currentIndex = (i + 1 : ℕ) := by
    rw [MediaShelf.next, nextIndex_eq_add_one hshown hshuffle honce hi]
    exact setCurrentIndex_currentIndex _ (by rw [setCurrentIndex_media]; omega)
  have hmiss : MissesRow (s.songs.setCurrentIndex i) ((s.songs.setCurrentIndex i).next 0) := by
    refine ⟨by omega, by omega, ?_⟩
    rw [hnext]
    show (s.songs.rows.length : ℤ) ≤ _
    omega
  obtain ⟨s₁, hmove, -⟩ := map_eq_ok_iff.mp hok
  have hfails : (s.withSongs (s.songs.setCurrentIndex i)).moveSongs (·.next 0) =
      .error .nullItem := moveSongs_eq_error_iff.mpr ⟨rfl, hmiss⟩
  rw [hfails] at hmove
  exact nomatch hmove

/-- With rows enough, forward gets through. -/
theorem not_missesRow_next {ui : Ui} {m : MediaShelf} {pick : ℕ}
    (hcur : m.playList.currentIndex ≠ -1) (hmode : m.playList.playbackMode = ui.shownMode)
    (hshuffle : ui.shuffleButton ≠ .shufflePressed)
    (hrows : ui.repeatButton = .repeatOnce ∨ m.RowsSuffice) : ¬ MissesRow m (m.next pick) := by
  rcases hrows with honce | hle | hone
  · have hnext : (m.next pick).playList.currentIndex = m.playList.currentIndex := by
      rw [MediaShelf.next, setCurrentIndex_currentIndex _ (m.playList.nextIndex_mem pick),
        nextIndex_eq_successor hcur hmode hshuffle, honce]
      rfl
    exact fun hmiss => hmiss.1 hnext
  · exact MediaShelf.not_missesRow_next_of_le hle
  · -- both indices are that of the only entry
    have h0 := m.playList.neg_one_le
    have hlt := m.playList.lt_mediaCount
    have h0' := (m.next pick).playList.neg_one_le
    have hlt' := (m.next pick).playList.lt_mediaCount
    rw [show (m.next pick).playList.media = m.playList.media from setCurrentIndex_media _ _]
      at hlt'
    rintro ⟨hmoved, hentry, -⟩
    omega

/-- **The promise is kept exactly in the mode that is shown and with rows enough.**  Rows do not
matter where shuffle is pressed, for then nothing is promised, nor where one song is repeated. -/
theorem iconsTrue_iff (hmode : s.songs.playList.playbackMode ≠ .currentItemOnce) :
    s.IconsTrue ↔ s.ModeShown ∧ (s.ui.shuffleButton = .shufflePressed ∨
      s.ui.repeatButton = .repeatOnce ∨ s.songs.RowsSuffice) := by
  constructor
  · intro h
    have hshown := h.modeShown hmode
    refine ⟨hshown, ?_⟩
    by_contra hfew
    simp only [not_or] at hfew
    exact hfew.2.2 (h.rowsSuffice hshown hfew.1 hfew.2.1)
  · rintro ⟨hshown, hrows⟩
    refine ⟨?_, fun hshuffle m pick hm hfiles hcur => ?_⟩
    · rw [show s.songs.playList.playbackMode = _ from hshown, Ui.shownMode]
      cases s.ui.shuffleButton <;> cases s.ui.repeatButton <;> decide
    · have hrows' : s.ui.repeatButton = .repeatOnce ∨ m.RowsSuffice := by
        rcases hfiles with hsame | hle
        · rw [hsame.rowsSuffice_iff]
          exact hrows.resolve_left hshuffle
        · exact Or.inr (Or.inl hle)
      obtain ⟨s', hok, hnext, hflag⟩ := exists_onForwardButtonClicked (s := s.withSongs m) pick
        (not_missesRow_next hcur (hm.trans hshown) hshuffle hrows')
      refine ⟨s', hok, ?_, fun hend => ?_⟩
      · rw [hnext]
        exact nextIndex_eq_successor hcur (hm.trans hshown) hshuffle
      · rw [hnext] at hend
        refine hflag hend ?_
        exact ((QMediaPlaylist.nextIndex_eq_neg_one_iff hcur (hm ▸ hmode)).mp hend).1

end State

/-! ## What the events do to mode and icons -/

/-- Both counters are where their icons say. -/
structure CountersShown (s : State) : Prop where
  repeat_eq : s.toggleRepeat = match s.ui.repeatButton with
    | .repeat => 0
    | .repeatPressed => 1
    | .repeatOnce => 2
  shuffle_eq : s.toggleShuffle = match s.ui.shuffleButton with
    | .shuffle => 0
    | .shufflePressed => 1

theorem countersShown_startup : CountersShown startup := ⟨rfl, rfl⟩

variable {s s' : State}

theorem CountersShown.congr (hs : CountersShown s) (h : s'.controls = s.controls) :
    CountersShown s' := by
  simp only [State.controls, Controls.mk.injEq] at h
  obtain ⟨-, hrepeat, hrepeat', hshuffle, hshuffle'⟩ := h
  refine ⟨?_, ?_⟩
  · rw [hrepeat, hrepeat']
    exact hs.repeat_eq
  · rw [hshuffle, hshuffle']
    exact hs.shuffle_eq

/-- A click on repeat goes to the next mode, and shows it unless shuffle is pressed. -/
theorem onRepeatButtonClicked_spec (hs : CountersShown s) :
    CountersShown s.onRepeatButtonClicked ∧
      s.onRepeatButtonClicked.ui.shuffleButton = s.ui.shuffleButton ∧
      s.onRepeatButtonClicked.songs.playList.playbackMode =
        s.onRepeatButtonClicked.ui.repeatButton.mode := by
  have hrepeat := hs.repeat_eq
  cases hicon : s.ui.repeatButton <;> simp only [hicon] at hrepeat <;>
    simp only [State.onRepeatButtonClicked, hrepeat] <;>
    exact ⟨⟨rfl, hs.shuffle_eq⟩, rfl, rfl⟩

/-- A click on shuffle goes to `random` and back to `sequential`. -/
theorem onShuffleButtonClicked_spec (hs : CountersShown s) :
    CountersShown s.onShuffleButtonClicked ∧
      s.onShuffleButtonClicked.ui.repeatButton = s.ui.repeatButton ∧
      ((s.ui.shuffleButton = .shuffle ∧
          s.onShuffleButtonClicked.ui.shuffleButton = .shufflePressed ∧
          s.onShuffleButtonClicked.songs.playList.playbackMode = .random) ∨
        (s.ui.shuffleButton = .shufflePressed ∧
          s.onShuffleButtonClicked.ui.shuffleButton = .shuffle ∧
          s.onShuffleButtonClicked.songs.playList.playbackMode = .sequential)) := by
  have hshuffle := hs.shuffle_eq
  cases hicon : s.ui.shuffleButton <;> simp only [hicon] at hshuffle <;>
    simp only [State.onShuffleButtonClicked, hshuffle]
  · exact ⟨⟨hs.repeat_eq, rfl⟩, rfl, Or.inl ⟨trivial, rfl, rfl⟩⟩
  · exact ⟨⟨hs.repeat_eq, rfl⟩, rfl, Or.inr ⟨trivial, rfl, rfl⟩⟩

theorem MediaShelf.update_mode_eq {m m' : MediaShelf} {ext usbPath count list : Text}
    {mode : PlaybackMode} {flashStatus : FlashStatus}
    (h : m.update qt ext mode flashStatus usbPath count list = some m') :
    m'.playList.playbackMode =
      if flashStatus = .flashDetected ∧ count ≠ zeroCount then mode
      else m.playList.playbackMode := by
  rcases update_cases h with ⟨rfl, -, rfl⟩ | ⟨rfl, -, rfl⟩ | ⟨rfl, hcount, rfl⟩ |
    ⟨rfl, hcount, paths, -, rfl⟩
  · rfl
  · rfl
  · simp [hcount]
  · rw [filled_mode, if_pos ⟨rfl, hcount⟩]

/-- Listing a stick with songs sets the mode and nothing else. -/
theorem PollOutcome.controls_eq {sh : Shell W} {w : W} {c : State × W}
    (h : PollOutcome qt sh s w c) :
    c.1.controls =
      if FindsNewStick sh s ∧ CountsFiles sh songsExt then
        { s.controls with mode := .sequential }
      else s.controls := by
  cases h with
  | inserted m v text hdev hflash hm hv =>
    have hnew : FindsNewStick sh s := ⟨hdev, hflash⟩
    have hmode := update_mode_eq hm
    rw [(SameFrame.showMediaBar _).controls]
    show ({ s.controls with mode := m.playList.playbackMode } : Controls) = _
    by_cases hcount : CountsFiles sh songsExt
    · rw [if_pos ⟨rfl, hcount⟩] at hmode
      rw [if_pos ⟨hnew, hcount⟩, hmode]
    · rw [if_neg fun hc => hcount hc.2] at hmode
      rw [if_neg fun hc => hcount hc.2, hmode]
      rfl
  | removed m v text hdev hflash hdetach hm hv =>
    have hmode := update_mode_eq hm
    rw [if_neg fun hc => absurd hc.1 (by decide)] at hmode
    rw [if_neg fun hc => hc.1.1 hdev, (SameFrame.showMediaBar _).controls]
    show ({ s.controls with mode := m.playList.playbackMode } : Controls) = _
    rw [hmode]
    rfl
  | notDetached hdev hflash hdetach =>
    rw [if_neg fun hc => hc.1.1 hdev, (SameFrame.showMediaBar _).controls]
    rfl
  | noUsb hdev hflash =>
    rw [if_neg fun hc => hc.1.1 hdev, (SameFrame.showMediaBar _).controls]
    rfl
  | unchanged hdev hflash =>
    rw [if_neg fun hc => absurd (hc.1.2.symm.trans hflash) (by decide),
      (SameFrame.showMediaBar _).controls]

/-! ## All events -/

/-- The event does not separate the mode from the icons: repeat is not clicked while shuffle is
pressed, shuffle is not released and no songs are listed while repeat is on. -/
def KeepsMode (s : State) (e : Event W) : Prop :=
  (e.clicked = some .repeatButton → s.ui.shuffleButton = .shuffle) ∧
    (e.clicked = some .shuffleButton → s.ui.shuffleButton = .shufflePressed →
      s.ui.repeatButton = .repeat) ∧
    e.OnPoll fun sh => FindsNewStick sh s → CountsFiles sh songsExt →
      s.ui.shuffleButton = .shuffle ∧ s.ui.repeatButton = .repeat

/-- The event leaves rows enough: songs are listed on top of none, or none on top of one. -/
def KeepsRows (s : State) (e : Event W) : Prop :=
  e.OnPoll fun sh => FindsNewStick sh s → CountsFiles sh songsExt →
    s.songs.playList.media = [] ∨
      (s.songs.playList.media.length = 1 ∧ foundFiles sh songsExt = [])

/-- The event lets the icons keep their promise. -/
def KeepsIcons (s : State) (e : Event W) : Prop := KeepsMode s e ∧ KeepsRows s e

instance (s : State) (e : Event W) : Decidable (KeepsMode s e) :=
  inferInstanceAs (Decidable ((_ → _) ∧ (_ → _ → _) ∧ e.OnPoll _))

instance (s : State) (e : Event W) : Decidable (KeepsRows s e) :=
  inferInstanceAs (Decidable (e.OnPoll _))

instance (s : State) (e : Event W) : Decidable (KeepsIcons s e) :=
  inferInstanceAs (Decidable (_ ∧ _))

theorem mode_eq_shownMode_iff {ui : Ui} :
    ui.repeatButton.mode = ui.shownMode ↔ ui.shuffleButton = .shuffle := by
  rw [Ui.shownMode]
  cases ui.shuffleButton <;> cases ui.repeatButton <;> decide

theorem sequential_eq_shownMode_iff {ui : Ui} :
    .sequential = ui.shownMode ↔ ui.shuffleButton = .shuffle ∧ ui.repeatButton = .repeat := by
  rw [Ui.shownMode]
  cases ui.shuffleButton <;> cases ui.repeatButton <;> decide

theorem State.modeShown_congr (h : s'.controls = s.controls) : s'.ModeShown ↔ s.ModeShown := by
  simp only [State.controls, Controls.mk.injEq] at h
  obtain ⟨hmode, -, hrepeat, -, hshuffle⟩ := h
  rw [State.ModeShown, State.ModeShown, hmode, Ui.shownMode, Ui.shownMode, hrepeat, hshuffle]

theorem onRepeatButtonClicked_modeShown_iff (hs : CountersShown s) :
    s.onRepeatButtonClicked.ModeShown ↔ s.ui.shuffleButton = .shuffle := by
  obtain ⟨-, hshuffle, hmode⟩ := onRepeatButtonClicked_spec hs
  rw [State.ModeShown, hmode, mode_eq_shownMode_iff, hshuffle]

theorem onShuffleButtonClicked_modeShown_iff (hs : CountersShown s) :
    s.onShuffleButtonClicked.ModeShown ↔
      (s.ui.shuffleButton = .shufflePressed → s.ui.repeatButton = .repeat) := by
  obtain ⟨-, hrepeat, ⟨hoff, hon, hmode⟩ | ⟨hon, hoff, hmode⟩⟩ := onShuffleButtonClicked_spec hs
  · refine iff_of_true ?_ fun hpressed => absurd (hoff.symm.trans hpressed) (by decide)
    rw [State.ModeShown, hmode, Ui.shownMode, hon]
  · rw [State.ModeShown, hmode, sequential_eq_shownMode_iff, hoff, hrepeat]
    simp [hon]

theorem PollOutcome.modeShown_iff {sh : Shell W} {w : W} {c : State × W}
    (h : PollOutcome qt sh s w c) (hs : CountersShown s) (hshown : s.ModeShown) :
    CountersShown c.1 ∧ (c.1.ModeShown ↔ KeepsMode s (.poll sh)) := by
  have hcontrols := h.controls_eq
  by_cases hlists : FindsNewStick sh s ∧ CountsFiles sh songsExt
  · rw [if_pos hlists] at hcontrols
    simp only [State.controls, Controls.mk.injEq] at hcontrols
    obtain ⟨hmode, hrepeat, hrepeat', hshuffle, hshuffle'⟩ := hcontrols
    refine ⟨⟨?_, ?_⟩, ?_⟩
    · rw [hrepeat, hrepeat']
      exact hs.repeat_eq
    · rw [hshuffle, hshuffle']
      exact hs.shuffle_eq
    · rw [State.ModeShown, hmode, sequential_eq_shownMode_iff, hrepeat', hshuffle']
      exact ⟨fun h => ⟨by simp [Event.clicked], by simp [Event.clicked], fun _ _ => h⟩,
        fun h => h.2.2 hlists.1 hlists.2⟩
  · rw [if_neg hlists] at hcontrols
    refine ⟨hs.congr hcontrols, ?_⟩
    rw [State.modeShown_congr hcontrols]
    refine iff_of_true hshown ⟨by simp [Event.clicked], by simp [Event.clicked], ?_⟩
    exact fun hnew hcount => absurd ⟨hnew, hcount⟩ hlists

theorem step_modeShown_iff {e : Event W} {c c' : State × W} (hc : CountersShown c.1)
    (hshown : c.1.ModeShown) (h : step qt e c = .ok c') :
    CountersShown c'.1 ∧ (c'.1.ModeShown ↔ KeepsMode c.1 e) := by
  rcases step_cases h with ⟨sh, rfl, hpoll⟩ | ⟨he, hui, -⟩
  · exact hpoll.modeShown_iff hc hshown
  by_cases hbuttons : ∃ pick, e = .click .repeatButton pick ∨ e = .click .shuffleButton pick
  · obtain ⟨pick, rfl | rfl⟩ := hbuttons
    · rw [← Except.ok.inj hui, onRepeatButtonClicked_modeShown_iff hc]
      refine ⟨(onRepeatButtonClicked_spec hc).1, fun hoff => ⟨fun _ => hoff, nofun, trivial⟩, ?_⟩
      exact fun hkeeps => hkeeps.1 rfl
    · rw [← Except.ok.inj hui, onShuffleButtonClicked_modeShown_iff hc]
      refine ⟨(onShuffleButtonClicked_spec hc).1, fun hoff => ⟨nofun, fun _ => hoff, trivial⟩, ?_⟩
      exact fun hkeeps => hkeeps.2.1 rfl
  · have hcontrols := (uiStep_frame hui).2 fun pick =>
      ⟨fun h => hbuttons ⟨pick, Or.inl h⟩, fun h => hbuttons ⟨pick, Or.inr h⟩⟩
    refine ⟨hc.congr hcontrols, ?_⟩
    rw [State.modeShown_congr hcontrols]
    have hnot : ∀ b, b = .repeatButton ∨ b = .shuffleButton → e.clicked ≠ some b := by
      intro b hb hclick
      cases e with
      | click b' pick =>
        obtain rfl : b' = b := Option.some.inj hclick
        exact hbuttons
          ⟨pick, hb.imp (congrArg (Event.click · pick)) (congrArg (Event.click · pick))⟩
      | _ => exact nomatch hclick
    exact iff_of_true hshown ⟨fun hclick => absurd hclick (hnot _ (Or.inl rfl)),
      fun hclick => absurd hclick (hnot _ (Or.inr rfl)), e.onPoll_of_ne he _⟩

/-! ## What the events do to the rows -/

/-- Only a list that is filled can run out of rows. -/
theorem MediaShelf.update_rowsSuffice_iff {m m' : MediaShelf}
    {ext usbPath count list : Text} {mode : PlaybackMode} {flashStatus : FlashStatus}
    (hm : m.RowsSuffice)
    (h : m.update qt ext mode flashStatus usbPath count list = some m') :
    m'.RowsSuffice ↔ (flashStatus = .flashDetected → count ≠ zeroCount →
      m.playList.media = [] ∨ (m.playList.media.length = 1 ∧ list = [])) := by
  rcases update_cases h with ⟨rfl, -, rfl⟩ | ⟨rfl, -, rfl⟩ | ⟨rfl, hcount, rfl⟩ |
    ⟨rfl, hcount, paths, hpaths, rfl⟩
  · exact iff_of_true (Or.inr (Nat.zero_le 1)) nofun
  · exact iff_of_true hm nofun
  · exact iff_of_true hm fun _ hcount' => absurd hcount hcount'
  · rw [RowsSuffice, filled_rows, filled_media, List.length_map, List.length_append,
      ← scanPaths_eq_nil_iff hpaths, ← List.length_eq_zero_iff, ← List.length_eq_zero_iff]
    simp only [hcount, ne_eq, not_false_eq_true, forall_const]
    omega

theorem ShelfPoll.rowsSuffice_iff {sh : Shell W} {c : State × W} {ext : Text}
    {mode : PlaybackMode} {m m' : MediaShelf} (h : ShelfPoll qt sh c ext mode m m')
    (hm : m.RowsSuffice) :
    m'.RowsSuffice ↔ (FindsNewStick sh c.1 → CountsFiles sh ext →
      m.playList.media = [] ∨ (m.playList.media.length = 1 ∧ foundFiles sh ext = [])) := by
  cases h with
  | listed _ hnew hupdate =>
    rw [update_rowsSuffice_iff hm hupdate]
    exact ⟨fun hrows _ => hrows rfl, fun hkeeps _ => hkeeps hnew⟩
  | cleared _ hgone hupdate =>
    rw [update_rowsSuffice_iff hm hupdate]
    exact iff_of_true nofun fun hnew => absurd hgone.1.1 hnew.1
  | unmoved hnew => exact iff_of_true hm fun hnew' => absurd hnew' hnew

theorem step_rowsSuffice_iff {e : Event W} {c c' : State × W} (hc : c.1.songs.RowsSuffice)
    (h : step qt e c = .ok c') : c'.1.songs.RowsSuffice ↔ KeepsRows c.1 e := by
  rcases step_cases h with ⟨sh, rfl, hpoll⟩ | ⟨he, hui, -⟩
  · exact hpoll.shelfPolls.1.rowsSuffice_iff hc
  · rw [(uiStep_effect e hui).songs.sameFiles.rowsSuffice_iff]
    exact iff_of_true hc (e.onPoll_of_ne he _)

/-- Where songs have been listed and the mode is shown, neither icon is pressed. -/
theorem PollOutcome.icons_of_listed {sh : Shell W} {w : W} {c : State × W}
    (h : PollOutcome qt sh s w c) (hnew : FindsNewStick sh s) (hcount : CountsFiles sh songsExt)
    (hshown : c.1.ModeShown) :
    c.1.ui.shuffleButton = .shuffle ∧ c.1.ui.repeatButton = .repeat := by
  have hcontrols := h.controls_eq
  rw [if_pos ⟨hnew, hcount⟩] at hcontrols
  have hmode : c.1.songs.playList.playbackMode = .sequential := congrArg Controls.mode hcontrols
  exact sequential_eq_shownMode_iff.mp (hmode.symm.trans hshown)

/-! ## Both -/

/-- The icons keep their promise, and go on doing so until an event separates the mode from them
or takes a row away. -/
structure IconsInOrder (s : State) : Prop where
  shelves : ShelvesSound s
  counters : CountersShown s
  mode : s.ModeShown
  rows : s.songs.RowsSuffice

theorem iconsInOrder_startup : IconsInOrder startup :=
  ⟨shelvesSound_startup, countersShown_startup, rfl, by decide⟩

theorem IconsInOrder.iconsTrue (hs : IconsInOrder s) : s.IconsTrue :=
  (State.iconsTrue_iff hs.shelves.songsMode).mpr ⟨hs.mode, Or.inr (Or.inr hs.rows)⟩

/-- One event. -/
theorem IconsInOrder.step {e : Event W} {c c' : State × W} (hc : IconsInOrder c.1)
    (h : step qt e c = .ok c') (hkeeps : KeepsIcons c.1 e) : IconsInOrder c'.1 where
  shelves := step_shelvesSound h hc.shelves
  counters := (step_modeShown_iff hc.counters hc.mode h).1
  mode := (step_modeShown_iff hc.counters hc.mode h).2.mpr hkeeps.1
  rows := (step_rowsSuffice_iff hc.rows h).mpr hkeeps.2

theorem IconsInOrder.step_iconsTrue_iff {e : Event W} {c c' : State × W}
    (hc : IconsInOrder c.1) (h : Infotainment.step qt e c = .ok c') :
    c'.1.IconsTrue ↔ KeepsIcons c.1 e := by
  refine ⟨fun htrue => ?_, fun hkeeps => (hc.step h hkeeps).iconsTrue⟩
  obtain ⟨hmode, hrows⟩ :=
    (State.iconsTrue_iff (step_shelvesSound h hc.shelves).songsMode).mp htrue
  refine ⟨(step_modeShown_iff hc.counters hc.mode h).2.mp hmode, ?_⟩
  rcases step_cases h with ⟨sh, rfl, hpoll⟩ | ⟨he, -, -⟩
  · intro hnew hcount
    -- the icons that would excuse a missing row are off
    obtain ⟨hshuffle, hrepeat⟩ := hpoll.icons_of_listed hnew hcount hmode
    rw [hshuffle, hrepeat] at hrows
    have hsuffice : c'.1.songs.RowsSuffice := by simpa using hrows
    exact (step_rowsSuffice_iff hc.rows h).mp hsuffice hnew hcount
  · exact e.onPoll_of_ne he _

/-- **When the icons keep their promise.**  In a run with any events in any order, they do so in
every state exactly when no event separates the mode from them or takes a row away. -/
theorem icons_true_iff {l : List (Transition (State × W) (Event W))} {c : State × W}
    (h : (anyEvents qt W).History l c) :
    (∀ c', Machine.Visits l c c' → c'.1.IconsTrue) ↔ ∀ x ∈ l, KeepsIcons x.before.1 x.event := by
  have h0 : ∀ c : State × W, c.1 = startup → IconsInOrder c.1 :=
    fun c hc => hc ▸ iconsInOrder_startup
  rw [h.forall_visits_iff (P := fun c' => c'.1.IconsTrue) fun c hc => (h0 c hc).iconsTrue]
  refine h.forall_iff (J := fun c' => IconsInOrder c'.1) h0 ?_ ?_
  · intro x hx hJ
    exact hJ.step_iconsTrue_iff hx.2
  · intro x hx hJ hC
    exact hJ.step hx.2 hC

/-- A stick is listed, and then repeat is clicked. -/
theorem icons_true_after_repeat :
    ∃ l c, (anyEvents ⟨false⟩ Unit).History l c ∧ l.length = 2 ∧
      c.1.ui.repeatButton = .repeatPressed ∧ ∀ c', Machine.Visits l c c' → c'.1.IconsTrue := by
  obtain ⟨l, c, hl, -, hp⟩ := Machine.exists_history_of_replay (M := anyEvents ⟨false⟩ Unit)
    (s := (startup, ())) rfl
    [.poll (stickShell "sda1".toList ["a.mp3".toList, "b.mp3".toList] [] 0),
      .click .repeatButton 0]
    (fun l c => decide (l.length = 2 ∧ c.1.ui.repeatButton = .repeatPressed ∧
      ∀ x ∈ l, KeepsIcons x.before.1 x.event)) (by decide +kernel)
  obtain ⟨hlen, hicon, hC⟩ := of_decide_eq_true hp
  exact ⟨l, c, hl, hlen, hicon, (icons_true_iff hl).mpr hC⟩

/-- A click on repeat or on shuffle, or a poll of the stick. -/
def Event.OfControls : Event W → Prop
  | .click b _ => b = .repeatButton ∨ b = .shuffleButton
  | .poll _ => True
  | _ => False

/-- After a click on shuffle and one on repeat the shuffle icon is pressed and the mode is not
`random`. -/
theorem shuffle_lost_to_repeat :
    ¬ ∃ qt : Qt, ∀ l c, (anyEvents qt Unit).History l c → (∀ x ∈ l, x.event.OfControls) →
      c.1.IconsTrue := by
  rintro ⟨⟨rewinds⟩, hall⟩
  obtain ⟨l, c, hl, hevents, hp⟩ := Machine.exists_history_of_replay
    (M := anyEvents ⟨rewinds⟩ Unit) (s := (startup, ())) rfl
    [.click .shuffleButton 0, .click .repeatButton 0]
    (fun _ c => decide (c.1.ui.shuffleButton = .shufflePressed ∧
      c.1.songs.playList.playbackMode ≠ .random)) (by cases rewinds <;> decide +kernel)
  obtain ⟨hicon, hmode⟩ := of_decide_eq_true hp
  refine hmode ((hall l c hl fun x hx => ?_).1.mpr hicon)
  have hmem := hevents ▸ List.mem_map_of_mem (f := Transition.event) hx
  rcases List.mem_pair.mp hmem with he | he <;> rw [he]
  · exact Or.inr rfl
  · exact Or.inl rfl

end Infotainment
