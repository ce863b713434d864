import Infotainment.MediaLabel
import Infotainment.RowAccess

/-!
# Clicks on rows

A click on a row should play what the row names.  `onSongListItemClicked` moves the index to the
row's number and then trusts two things: that the row's number is also the number of its medium,
and, if the playing flag is set, that the player really plays and need not be started.
`onVideoListItemClicked` trusts the first only, for it starts the player in any case.

`SongRowReady` and `VideoRowReady` say when that trust is justified, and `rows_play_iff` that a
click then works and otherwise does not.  Both hold of every row as long as sticks find empty the
playlists they fill and the flags are kept.
-/

namespace Infotainment

open EventSystem MediaShelf

variable {W : Type} {qt : Qt} {s s' : State} {i : ℕ}

namespace MediaShelf

/-- The player plays the medium with this base name. -/
def PlaysNamed (m : MediaShelf) (name : Text) : Prop :=
  m.player.playing = true ∧ m.CurrentNamed name

instance (m : MediaShelf) (name : Text) : Decidable (m.PlaysNamed name) :=
  inferInstanceAs (Decidable (_ ∧ _))

/-- Row `i` is the base name of medium `i`. -/
def RowNames (m : MediaShelf) (i : ℕ) : Prop := m.playList.media[i]?.map baseName = m.rows[i]?

instance (m : MediaShelf) (i : ℕ) : Decidable (m.RowNames i) := inferInstanceAs (Decidable (_ = _))

variable {m : MediaShelf}

theorem Parallel.rowNames (h : m.Parallel) (i : ℕ) : m.RowNames i := by
  show m.playList.media[i]?.map baseName = m.rows[i]?
  rw [parallel_iff.mp h, List.getElem?_map]

/-- With entry `i` current, its row is right exactly when it names the current entry. -/
theorem currentNamed_iff_rowNames (hi : i < m.rows.length) {m' : MediaShelf}
    (hmedia : m'.playList.media = m.playList.media) (hcur : m'.playList.currentIndex = i) :
    m'.CurrentNamed m.rows[i] ↔ m.RowNames i := by
  rw [CurrentNamed, QMediaPlaylist.currentMedia, hcur, if_pos (Int.natCast_nonneg i),
    Int.toNat_natCast, hmedia, RowNames, List.getElem?_eq_getElem hi]

end MediaShelf

/-! ## Songs -/

/-- What a click on a song's row is meant to achieve. -/
def SongRowPlays (text : Text) (s' : State) : Prop :=
  s'.songs.PlaysNamed text ∧ s'.playingSongFlag = true ∧ s'.ui.currentRunningMediaLabel = text

/-- When it achieves that: the row names its medium, and where the flag says that a song plays, one
does; if it is the one that was clicked, the label already names it. -/
def SongRowReady (s : State) (i : ℕ) : Prop :=
  s.songs.RowNames i ∧
    (s.playingSongFlag = false ∨
      s.songs.player.playing = true ∧
        (s.songs.playList.currentIndex ≠ i ∨
          s.songs.rows[i]? = some s.ui.currentRunningMediaLabel))

/-- The state after a click on a song's row. -/
theorem onSongListItemClicked_spec (hs : s.songs.Sound) (hi : i < s.songs.rows.length)
    (h : s.onSongListItemClicked i = .ok s') :
    s'.playingSongFlag = true ∧ s'.songs.playList.currentIndex = i ∧
      s'.songs.playList.media = s.songs.playList.media ∧
      (s'.songs.player.playing = true ↔
        s.playingSongFlag = false ∨ s.songs.player.playing = true) ∧
      (s'.ui.currentRunningMediaLabel = s.songs.rows[i] ↔
        s.playingSongFlag = false ∨ s.songs.playList.currentIndex ≠ i ∨
          s.songs.rows[i]? = some s.ui.currentRunningMediaLabel) := by
  have hle := hs.rows_le
  have hcur : (s.songs.setCurrentIndex i).playList.currentIndex = i :=
    setCurrentIndex_currentIndex _ (by omega)
  have hitem : item (s.songs.setCurrentIndex i).rows i = .ok s.songs.rows[i] := item_natCast hi
  obtain ⟨s₁, hmove, hplay⟩ := State.onSongListItemClicked_ok h
  obtain ⟨text, hlabel, rfl⟩ := State.moveSongs_ok hmove
  rcases hplay with ⟨hflag, hplay⟩ | ⟨hflag, rfl⟩
  · -- the player is started
    obtain ⟨text', hitem', rfl⟩ := State.playSong_ok hplay
    have hne : s.songs.playList.media ≠ [] := hs.media_ne_nil_of_row hi
    rw [State.setMediaLabel_songs, hcur, hitem, Except.ok.injEq] at hitem'
    refine ⟨rfl, ?_, ?_, ?_, ?_⟩
    · exact (play_currentIndex _ (by simp [hcur])).trans hcur
    · simp
    · refine iff_of_true ((hs.setCurrentIndex i).play_playing.mpr ?_) (Or.inl hflag)
      simpa using hne
    · exact iff_of_true hitem'.symm (Or.inl hflag)
  · -- it is left to itself
    have hflag' : s.playingSongFlag = true := hflag
    refine ⟨hflag, hcur, s.songs.setCurrentIndex_media i, ?_, ?_⟩
    · rw [State.setMediaLabel_songs, hs.setCurrentIndex_playing, hcur]
      simp [hflag']
    · rw [List.getElem?_eq_getElem hi]
      rcases hlabel with ⟨hstays | hend, rfl⟩ | ⟨hmoved, -, hitem'⟩
      · have hsame : s.songs.playList.currentIndex = i := by rw [← hstays, hcur]
        simp [State.setMediaLabel, hflag', hsame, eq_comm]
      · rw [hcur] at hend
        omega
      · rw [hcur, hitem, Except.ok.injEq] at hitem'
        rw [hcur] at hmoved
        exact iff_of_true hitem'.symm (Or.inr (Or.inl hmoved.symm))

theorem songRow_plays_iff (hs : s.songs.Sound) (hi : i < s.songs.rows.length) :
    (∃ s', s.onSongListItemClicked i = .ok s' ∧ SongRowPlays s.songs.rows[i] s') ↔
      SongRowReady s i := by
  obtain ⟨s', hok⟩ := State.exists_onSongListItemClicked hs.rows_le hi
  obtain ⟨hflag, hcur, hmedia, hplays, hlabel⟩ := onSongListItemClicked_spec hs hi hok
  rw [exists_ok_and_iff hok, SongRowPlays, PlaysNamed, currentNamed_iff_rowNames hi hmedia hcur,
    hplays, hlabel, SongRowReady]
  rcases s.playingSongFlag with _ | _
  · simp [hflag]
  · simp only [hflag, Bool.true_eq_false, false_or, true_and]
    exact ⟨fun h => ⟨h.1.2, h.1.1, h.2⟩, fun h => ⟨⟨h.2.1, h.1⟩, h.2.2⟩⟩

/-! ## Videos -/

/-- What a click on a video's row is meant to achieve. -/
def VideoRowPlays (text : Text) (s' : State) : Prop :=
  s'.pagesSwitch = .videoShow ∧ s'.videos.PlaysNamed text ∧
    s'.ui.currentRunningMediaLabel = text ∧ s'.playingSongFlag = false

theorem videoRow_plays_iff (hs : s.videos.Sound) (hi : i < s.videos.rows.length) :
    (∃ s', s.onVideoListItemClicked i = .ok s' ∧ VideoRowPlays s.videos.rows[i] s') ↔
      s.videos.RowNames i := by
  obtain ⟨s', hok⟩ := State.exists_onVideoListItemClicked hi
  obtain ⟨text, hitem, rfl⟩ := State.onVideoListItemClicked_ok hok
  rw [item_natCast hi, Except.ok.injEq] at hitem
  have hle := hs.rows_le
  have heffect := (UiEffect.openVideo s i).videos
  have hcur := State.openVideo_currentIndex (s := s) (i := i) (by omega)
  have hplays : (s.openVideo i).videos.play.player.playing = true := by
    rw [(heffect.sound hs).play_playing, heffect.sameFiles.media]
    exact hs.media_ne_nil_of_row hi
  have hmedia : (s.openVideo i).videos.play.playList.media = s.videos.playList.media := by
    rw [play_media, heffect.sameFiles.media]
  have hcur' : (s.openVideo i).videos.play.playList.currentIndex = i := by
    rw [play_currentIndex _ (by omega), hcur]
  rw [exists_ok_and_iff hok, VideoRowPlays, State.playVideo_videos, State.setMediaLabel_videos,
    PlaysNamed, currentNamed_iff_rowNames hi hmedia hcur']
  simp [hplays, hitem, State.setMediaLabel]

/-! ## All runs -/

/-- **When a click plays the row.**  In every state of a run in front of the screen, a click on a
row of either list gets through, and does what it is meant to do exactly when the row is ready for
it.  If the sticks of the run found empty the playlists they filled and its events kept the playing
flags, every row is. -/
theorem rows_play_iff {l : List (Transition (State × W) (Event W))} {c : State × W}
    (h : (shownEvents qt W).History l c) :
    (∀ (i : ℕ) (hi : i < c.1.songs.rows.length),
        (∃ s', c.1.onSongListItemClicked i = .ok s' ∧ SongRowPlays c.1.songs.rows[i] s') ↔
          SongRowReady c.1 i) ∧
      (∀ (j : ℕ) (hj : j < c.1.videos.rows.length),
        (∃ s', c.1.onVideoListItemClicked j = .ok s' ∧ VideoRowPlays c.1.videos.rows[j] s') ↔
          c.1.videos.RowNames j) ∧
      ((∀ x ∈ l, FillsEmptyLists x.before.1 x.event ∧ KeepsFlags qt x.before x.event) →
        (∀ i < c.1.songs.rows.length, SongRowReady c.1 i) ∧
          ∀ j < c.1.videos.rows.length, c.1.videos.RowNames j) := by
  have hs := shelvesSound_of_history (history_any_of_shown h)
  refine ⟨fun i hi => songRow_plays_iff hs.songs hi, fun j hj => videoRow_plays_iff hs.videos hj,
    fun hC => ?_⟩
  have hparallel := listsParallel_of_fills (history_any_of_shown h) fun x hx => (hC x hx).1
  have hlabelled := labelled_of_fills h fun x hx => (hC x hx).1.songs
  have hflags := flagsTrue_of_keeps h fun x hx => (hC x hx).2
  refine ⟨fun i hi => ⟨hparallel.1.rowNames i, ?_⟩, fun j _ => hparallel.2.rowNames j⟩
  rcases hflag : c.1.playingSongFlag with _ | _
  · exact Or.inl rfl
  · have hplays := hflags.1.mp hflag
    refine Or.inr ⟨hplays, ?_⟩
    by_cases hcur : c.1.songs.playList.currentIndex = i
    · right
      have hnamed := hlabelled.label hplays
      rw [CurrentNamed, QMediaPlaylist.currentMedia, hcur, if_pos (Int.natCast_nonneg i),
        Int.toNat_natCast, hparallel.1.rowNames i] at hnamed
      exact hnamed
    · exact Or.inl hcur

/-- A song is chosen, and then a video. -/
theorem rows_play_on_fresh_stick :
    ∃ l c, (shownEvents ⟨false⟩ Unit).History l c ∧ l.length = 3 ∧
      ∃ text ∈ c.1.videos.rows, ∃ s', c.1.onVideoListItemClicked 0 = .ok s' ∧
        VideoRowPlays text s' := by
  obtain ⟨l, c, hl, -, hp⟩ := Machine.exists_history_of_replay (M := shownEvents ⟨false⟩ Unit)
    (s := (startup, ())) rfl
    [.poll (stickShell "sda1".toList ["a.mp3".toList] ["b.mp4".toList] 0),
      .click .musicButton 0, .songRow 0]
    (fun l c => decide (l.length = 3 ∧ 0 < c.1.videos.rows.length ∧ c.1.videos.RowNames 0))
    (by decide +kernel)
  obtain ⟨hlen, hrow, hnames⟩ := of_decide_eq_true hp
  exact ⟨l, c, hl, hlen, _, List.getElem_mem hrow, ((rows_play_iff hl).2.1 0 hrow).mpr hnames⟩

/-- After the only song came to its end, a click on its row does not play it. -/
theorem ended_song_not_played_again :
    ¬ ∃ qt : Qt, ∀ l c, (shownEvents qt Unit).History l c → c.1.pagesSwitch = .music →
      ∀ (i : ℕ) (hi : i < c.1.songs.rows.length),
        ∃ s', c.1.onSongListItemClicked i = .ok s' ∧ SongRowPlays c.1.songs.rows[i] s' := by
  rintro ⟨⟨rewinds⟩, hall⟩
  obtain ⟨l, c, hl, -, hp⟩ := Machine.exists_history_of_replay
    (M := shownEvents ⟨rewinds⟩ Unit) (s := (startup, ())) rfl
    [.poll (stickShell "sda1".toList ["a.mp3".toList] [] 0), .click .musicButton 0, .songRow 0,
      .songEnd 0]
    (fun _ c => decide (c.1.pagesSwitch = .music ∧ 0 < c.1.songs.rows.length ∧
      ∃ s' ∈ (c.1.onSongListItemClicked 0).toOption, s'.songs.player.playing = false))
    (by cases rewinds <;> decide +kernel)
  obtain ⟨hpage, hrow, s₁, hs₁, hstopped⟩ := of_decide_eq_true hp
  obtain ⟨s', hok, hplays, -⟩ := hall l c hl hpage 0 hrow
  rw [hok] at hs₁
  obtain rfl : s' = s₁ := by simpa [Except.toOption] using hs₁
  rw [hplays.1] at hstopped
  exact absurd hstopped (by decide)

end Infotainment
