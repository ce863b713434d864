import Infotainment.ShelfPolls

/-!
# Reading rows

`item(k)` is null unless `k` is the index of a row, and the slots of the lists read through it.  The
index comes from the playlist, or from the row that was clicked; the bound comes from the list
widget.  So a missing row is read exactly when the index is `-1` or not below the number of rows
(`ReadsNoRow`, and `step_eq_nullItem_iff` for every event in every state).

As long as the songs are parallel every entry of the playlist has its row, so the only index that
can go wrong is `-1`.  `onSongChange` tests for it and a click on a row brings its own index, which
leaves `playSong`: pressing play reads the row of the current entry whether there is one or
not.  An ordinary stick is enough for that, since adding media to a playlist does not give it a
current entry.  `step_nullItem_iff` says so of whole runs.
-/

namespace Infotainment

open EventSystem MediaShelf

variable {W : Type} {qt : Qt}

theorem MediaShelf.Parallel.length_eq {m : MediaShelf} (h : m.Parallel) :
    m.rows.length = m.playList.media.length := h.1

/-- Every entry of a parallel list has its row. -/
theorem MediaShelf.Parallel.currentIndex_lt {m : MediaShelf} (h : m.Parallel) :
    m.playList.currentIndex < m.rows.length := by
  rw [h.length_eq]
  exact m.playList.lt_mediaCount

theorem MediaShelf.Parallel.not_missesRow {m m' : MediaShelf} (h : m'.Parallel) :
    ¬ MissesRow m m' := fun hmiss => absurd h.currentIndex_lt (not_lt.mpr hmiss.2.2)

/-! ## Which index is read -/

/-- There is no row for the current entry, or there is no current entry. -/
def MediaShelf.NoCurrentRow (m : MediaShelf) : Prop :=
  m.playList.currentIndex = -1 ∨ m.rows.length ≤ m.playList.currentIndex

/-- The event reads a row that is not there. -/
def ReadsNoRow (qt : Qt) (s : State) : Event W → Prop
  | .poll sh => FindsNewStick sh s ∧ RewindsToNoRow qt sh s
  | .click b pick =>
      (b = .playButton ∧ s.playingSongFlag = false ∧ s.songs.NoCurrentRow) ∨
        (b = .forwardButton ∧ MissesRow s.songs (s.songs.next pick)) ∨
        (b = .backwardButton ∧ MissesRow s.songs (s.songs.previous pick))
  | .songRow i =>
      MissesRow s.songs (s.songs.setCurrentIndex i) ∨
        (s.playingSongFlag = false ∧ (s.songs.setCurrentIndex i).NoCurrentRow)
  | .videoRow i => s.videos.rows.length ≤ i
  | .songEnd pick => MissesRow s.songs (s.songs.next pick)
  | _ => False

namespace State

variable {s : State} {fault : Fault}

theorem playSong_eq_error_iff :
    s.playSong = .error fault ↔ fault = .nullItem ∧ s.songs.NoCurrentRow := by
  have h0 := s.songs.playList.neg_one_le
  by_cases hrow : 0 ≤ s.songs.playList.currentIndex ∧
      s.songs.playList.currentIndex < s.songs.rows.length
  · obtain ⟨s', hok⟩ := exists_playSong hrow.1 hrow.2
    rw [hok]
    refine iff_of_false (by simp) fun ⟨_, hnone⟩ => ?_
    rcases hnone with hcur | hle <;> omega
  · have hnone : s.songs.NoCurrentRow := by
      rw [NoCurrentRow]
      omega
    simp only [playSong, bind, Except.bind, item_eq_error hrow, Except.error.injEq, hnone,
      and_true]
    exact eq_comm

/-- The index moves to the row that was clicked, if there is such an entry, and where the flag is
off its row is read once more. -/
theorem onSongListItemClicked_eq_error_iff {i : ℕ} :
    s.onSongListItemClicked i = .error fault ↔
      fault = .nullItem ∧
        (MissesRow s.songs (s.songs.setCurrentIndex i) ∨
          (s.playingSongFlag = false ∧ (s.songs.setCurrentIndex i).NoCurrentRow)) := by
  rw [onSongListItemClicked]
  by_cases hmiss : MissesRow s.songs (s.songs.setCurrentIndex i)
  · have hmove : s.moveSongs (·.setCurrentIndex i) = .error .nullItem :=
      moveSongs_eq_error_iff.mpr ⟨rfl, hmiss⟩
    simp only [hmove, bind, Except.bind, Except.error.injEq, hmiss, true_or, and_true]
    exact eq_comm
  · obtain ⟨s₁, hmove⟩ := exists_moveSongs_of_not_missesRow (s := s) (f := (·.setCurrentIndex i))
      hmiss
    obtain ⟨hsongs, hflag⟩ : s₁.songs = s.songs.setCurrentIndex i ∧
        s₁.playingSongFlag = s.playingSongFlag := by
      obtain ⟨text, -, rfl⟩ := moveSongs_ok hmove
      exact ⟨rfl, rfl⟩
    simp only [hmove, bind, Except.bind, hmiss, false_or, hflag]
    split_ifs with hoff
    · rw [playSong_eq_error_iff, hsongs]
      simp [hoff]
    · simp [hoff, pure, Except.pure]

theorem onVideoListItemClicked_eq_error_iff {i : ℕ} :
    s.onVideoListItemClicked i = .error fault ↔
      fault = .nullItem ∧ s.videos.rows.length ≤ i := by
  have hrows : (s.openVideo i).videos.rows = s.videos.rows :=
    (UiEffect.openVideo s i).videos.sameFiles.rows
  rw [onVideoListItemClicked, hrows, map_eq_error_iff, item_eq_error_iff]
  refine and_congr_right fun _ => ?_
  omega

theorem press_eq_error_iff (qt : Qt) {pick : ℕ} (b : Button) :
    s.press pick b = .error fault ↔
      fault = .nullItem ∧ ReadsNoRow qt s (.click b pick : Event W) := by
  cases b
  case playButton =>
    rw [press, onPlayButtonClicked]
    split_ifs with hflag
    · rw [playSong_eq_error_iff]
      simp [ReadsNoRow, hflag]
    · simp [ReadsNoRow, hflag]
  case forwardButton =>
    rw [press, onForwardButtonClicked, map_eq_error_iff, moveSongs_eq_error_iff]
    simp [ReadsNoRow]
  case backwardButton =>
    rw [press, onBackwardButtonClicked, map_eq_error_iff, moveSongs_eq_error_iff]
    simp [ReadsNoRow]
  all_goals simp [press, ReadsNoRow]

/-- A click on a song that has a row gets through. -/
theorem exists_onSongListItemClicked {i : ℕ}
    (hle : s.songs.rows.length ≤ s.songs.playList.media.length) (hi : i < s.songs.rows.length) :
    ∃ s', s.onSongListItemClicked i = .ok s' := by
  have hcur : (s.songs.setCurrentIndex i).playList.currentIndex = i :=
    setCurrentIndex_currentIndex _ (by omega)
  cases hclick : s.onSongListItemClicked i with
  | ok s' => exact ⟨s', rfl⟩
  | error fault =>
    obtain ⟨-, hmiss | ⟨-, hnone⟩⟩ := onSongListItemClicked_eq_error_iff.mp hclick
    · rw [MissesRow, hcur, setCurrentIndex_rows] at hmiss
      omega
    · rw [NoCurrentRow, hcur, setCurrentIndex_rows] at hnone
      omega

theorem exists_onVideoListItemClicked {i : ℕ} (hi : i < s.videos.rows.length) :
    ∃ s', s.onVideoListItemClicked i = .ok s' := by
  cases hclick : s.onVideoListItemClicked i with
  | ok s' => exact ⟨s', rfl⟩
  | error fault =>
    exact absurd (onVideoListItemClicked_eq_error_iff.mp hclick).2 (not_le.mpr hi)

end State

/-! ## All events -/

/-- An event other than the flash poll fails in no other way. -/
theorem uiStep_eq_error_iff (qt : Qt) {s : State} {e : Event W} {fault : Fault}
    (he : ∀ sh, e ≠ .poll sh) :
    uiStep s e = .error fault ↔ fault = .nullItem ∧ ReadsNoRow qt s e := by
  cases e with
  | poll sh => exact absurd rfl (he sh)
  | click b pick => exact State.press_eq_error_iff qt b
  | songRow i => exact State.onSongListItemClicked_eq_error_iff
  | videoRow i => exact State.onVideoListItemClicked_eq_error_iff
  | songEnd pick => exact State.moveSongs_eq_error_iff (f := (·.next pick))
  | _ => simp [uiStep, ReadsNoRow]

/-- **A step reads a missing row exactly when the index it reads has no row,** in every state. -/
theorem step_eq_nullItem_iff {e : Event W} {c : State × W} :
    step qt e c = .error .nullItem ↔ ReadsNoRow qt c.1 e := by
  by_cases hpoll : ∃ sh, e = .poll sh
  · obtain ⟨sh, rfl⟩ := hpoll
    rw [show step qt (.poll sh) c = c.1.updateFlashStatus qt sh c.2 from rfl,
      State.updateFlashStatus_eq_error_iff, ReadsNoRow]
    simp
  · have he : ∀ sh, e ≠ .poll sh := fun sh hsh => hpoll ⟨sh, hsh⟩
    rw [step_eq_uiStep he, map_eq_error_iff, uiStep_eq_error_iff qt he]
    exact and_iff_right rfl

/-! ## Parallel lists -/

/-- Play is pressed while the flag says that nothing plays and the playlist has no current entry. -/
def PlaysNoEntry (s : State) (e : Event W) : Prop :=
  e.clicked = some .playButton ∧ s.playingSongFlag = false ∧ s.songs.playList.currentIndex = -1

instance (s : State) (e : Event W) : Decidable (PlaysNoEntry s e) :=
  inferInstanceAs (Decidable (_ = _ ∧ _ ∧ _))

theorem not_playsNoEntry {s : State} {e : Event W} (h : e.clicked = none) :
    ¬ PlaysNoEntry s e := by
  rintro ⟨hclick, -⟩
  rw [h] at hclick
  exact absurd hclick (by simp)

/-- Among parallel songs, and in front of the screen, `-1` is the only index without a row. -/
theorem readsNoRow_iff_playsNoEntry {s : State} {e : Event W} (hs : s.songs.Parallel)
    (hshown : Shown e s) (hfills : FillsEmptySongs s e) :
    ReadsNoRow qt s e ↔ PlaysNoEntry s e := by
  have hmoves : ∀ pos, ¬ MissesRow s.songs (s.songs.setCurrentIndex pos) :=
    fun pos => (hs.setCurrentIndex pos).not_missesRow
  cases e with
  | poll sh =>
    refine iff_of_false ?_ (not_playsNoEntry rfl)
    rintro ⟨hnew, hcount, -, -, hmedia, -⟩
    exact hmedia (hfills hnew hcount)
  | click b pick =>
    have hnext : ¬ MissesRow s.songs (s.songs.next pick) := hmoves _
    have hprevious : ¬ MissesRow s.songs (s.songs.previous pick) := hmoves _
    have hcurrent : s.songs.NoCurrentRow ↔ s.songs.playList.currentIndex = -1 :=
      or_iff_left (not_le.mpr hs.currentIndex_lt)
    simp [ReadsNoRow, PlaysNoEntry, Event.clicked, hnext, hprevious, hcurrent]
  | songRow i =>
    refine iff_of_false ?_ (not_playsNoEntry rfl)
    have hi := hshown.2
    rintro (hmiss | ⟨-, hnone⟩)
    · exact hmoves _ hmiss
    · rw [NoCurrentRow, setCurrentIndex_currentIndex _ (by rw [← hs.length_eq]; omega),
        setCurrentIndex_rows] at hnone
      omega
  | videoRow i =>
    refine iff_of_false ?_ (not_playsNoEntry rfl)
    exact not_le.mpr hshown.2
  | songEnd pick =>
    exact iff_of_false (hmoves _) (not_playsNoEntry rfl)
  | _ => exact iff_of_false not_false (not_playsNoEntry rfl)

/-- **When a missing row is read.**  In a run in front of the screen whose sticks all find empty
the playlist of songs they fill, the next event reads a missing row exactly when it presses play
without a current entry. -/
theorem step_nullItem_iff {l : List (Transition (State × W) (Event W))} {c : State × W}
    (h : (shownEvents qt W).History l c) (hl : ∀ x ∈ l, FillsEmptySongs x.before.1 x.event)
    {e : Event W} (hshown : Shown e c.1) (hfills : FillsEmptySongs c.1 e) :
    step qt e c = .error .nullItem ↔ PlaysNoEntry c.1 e := by
  rw [step_eq_nullItem_iff]
  exact readsNoRow_iff_playsNoEntry (songsParallel_of_fills (history_any_of_shown h) hl) hshown
    hfills

/-- Once a song has been chosen, play reads its row. -/
theorem play_after_song_row :
    ∃ l c, (shownEvents ⟨false⟩ Unit).History l c ∧ l.length = 3 ∧
      step ⟨false⟩ (.click .playButton 0) c ≠ .error .nullItem := by
  obtain ⟨l, c, hl, -, hp⟩ := Machine.exists_history_of_replay (M := shownEvents ⟨false⟩ Unit)
    (s := (startup, ())) rfl
    [.poll (stickShell "sda1".toList ["a.mp3".toList] [] 0), .click .musicButton 0, .songRow 0]
    (fun l c => decide (l.length = 3 ∧ (∀ x ∈ l, FillsEmptySongs x.before.1 x.event) ∧
      Shown (.click .playButton 0 : Event Unit) c.1 ∧
      ¬ PlaysNoEntry c.1 (.click .playButton 0 : Event Unit))) (by decide +kernel)
  obtain ⟨hlen, hC, hshown, hplays⟩ := of_decide_eq_true hp
  exact ⟨l, c, hl, hlen, fun herr => hplays ((step_nullItem_iff hl hC hshown trivial).mp herr)⟩

/-- With a stick that holds no songs, play on the music page reads a row of an empty list. -/
theorem play_on_stick_without_songs :
    ¬ ∃ qt : Qt, ∀ l c, (shownEvents qt Unit).History l c →
      ∀ e, Shown e c.1 → step qt e c ≠ .error .nullItem := by
  rintro ⟨⟨rewinds⟩, hall⟩
  obtain ⟨l, c, hl, -, hp⟩ := Machine.exists_history_of_replay (M := shownEvents ⟨rewinds⟩ Unit)
    (s := (startup, ())) rfl
    [.poll (stickShell "sda1".toList [] [] 0), .click .musicButton 0]
    (fun _ c => decide (Shown (.click .playButton 0 : Event Unit) c.1) &&
      match step ⟨rewinds⟩ (.click .playButton 0) c with
      | .error .nullItem => true
      | _ => false) (by cases rewinds <;> decide +kernel)
  rw [Bool.and_eq_true] at hp
  refine hall l c hl _ (of_decide_eq_true hp.1) ?_
  cases hstep : step ⟨rewinds⟩ (.click .playButton 0) c with
  | ok c' => simp [hstep] at hp
  | error fault =>
    cases fault with
    | nullItem => rfl
    | hang => simp [hstep] at hp

end Infotainment
