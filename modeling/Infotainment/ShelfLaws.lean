import Infotainment.ScanLoop

/-!
# What can happen to a shelf

Everything the slots do to a media shelf falls into two kinds.  Clicks, and the players by
themselves, move the index, start and stop the player, and change the playback mode; `Moves` is
the closure of these, and none of them touches the files that are listed (`Moves.sameFiles`).
Only `update`, which the flash poll runs, does, and `update_cases` says what its results are; the
one that lists a stick is `filled`.  When there is a result is `exists_update_iff`, and when it
points to an entry that has no row, `update_missesRow_iff`.

`Sound` collects what is true of either shelf at all times: there are never more rows than media,
a playlist with media was handed to its player, and a player that plays has a current entry.
-/

namespace Infotainment

namespace MediaShelf

/-! ## Moves -/

/-- What clicks and the players do to a shelf, where the playback modes that may be set are
those in `P`. -/
inductive Moves (P : PlaybackMode → Prop) : MediaShelf → MediaShelf → Prop where
  | refl (m : MediaShelf) : Moves P m m
  | trans {m₁ m₂ m₃ : MediaShelf} : Moves P m₁ m₂ → Moves P m₂ m₃ → Moves P m₁ m₃
  | setCurrentIndex (m : MediaShelf) (pos : ℤ) : Moves P m (m.setCurrentIndex pos)
  | play (m : MediaShelf) : Moves P m m.play
  | pause (m : MediaShelf) : Moves P m m.pause
  | stop (m : MediaShelf) : Moves P m m.stop
  | setPlaybackMode (m : MediaShelf) (mode : PlaybackMode) :
      P mode → Moves P m (m.setPlaybackMode mode)
  /-- Volume, position and duration. -/
  | adjust (m : MediaShelf) (p : QMediaPlayer) :
      p.playing = m.player.playing → p.hasPlaylist = m.player.hasPlaylist →
      Moves P m { m with player := p }

/-- The same files are listed, and the player has the same playlist. -/
structure SameFiles (m m' : MediaShelf) : Prop where
  rows : m'.rows = m.rows
  media : m'.playList.media = m.playList.media
  hasPlaylist : m'.player.hasPlaylist = m.player.hasPlaylist
  listed : m'.listed = m.listed

variable {P : PlaybackMode → Prop} {m m' : MediaShelf}

theorem Moves.sameFiles (h : Moves P m m') : SameFiles m m' := by
  induction h with
  | refl m => exact ⟨rfl, rfl, rfl, rfl⟩
  | trans _ _ ih₁ ih₂ =>
    exact ⟨ih₂.rows.trans ih₁.rows, ih₂.media.trans ih₁.media,
      ih₂.hasPlaylist.trans ih₁.hasPlaylist, ih₂.listed.trans ih₁.listed⟩
  | setCurrentIndex m pos =>
    exact ⟨rfl, m.setCurrentIndex_media pos, m.setCurrentIndex_hasPlaylist pos, rfl⟩
  | play m => exact ⟨m.play_rows, m.play_media, m.play_hasPlaylist, m.play_listed⟩
  | pause m => exact ⟨rfl, rfl, rfl, rfl⟩
  | stop m => exact ⟨rfl, rfl, rfl, rfl⟩
  | setPlaybackMode m mode _ => exact ⟨rfl, rfl, rfl, rfl⟩
  | adjust m p _ hlist => exact ⟨rfl, rfl, hlist, rfl⟩

/-- The playback mode is the old one or one of those that may be set. -/
theorem Moves.playbackMode (h : Moves P m m') :
    m'.playList.playbackMode = m.playList.playbackMode ∨ P m'.playList.playbackMode := by
  induction h with
  | refl m => exact Or.inl rfl
  | trans _ _ ih₁ ih₂ =>
    rcases ih₂ with h₂ | h₂
    · rw [h₂]
      exact ih₁
    · exact Or.inr h₂
  | setCurrentIndex m pos => exact Or.inl (m.setCurrentIndex_mode pos)
  | play m => exact Or.inl m.play_mode
  | pause m => exact Or.inl rfl
  | stop m => exact Or.inl rfl
  | setPlaybackMode m mode hmode => exact Or.inr hmode
  | adjust m p _ _ => exact Or.inl rfl

/-! ## Soundness -/

/-- What is true of a shelf at all times. -/
structure Sound (m : MediaShelf) : Prop where
  rows_le : m.rows.length ≤ m.playList.media.length
  hasPlaylist : m.playList.media ≠ [] → m.player.hasPlaylist = true
  current : m.player.playing = true → m.playList.currentIndex ≠ -1

theorem sound_new : Sound new := ⟨by decide, by decide, by decide⟩

theorem Sound.media_ne_nil (hm : m.Sound) (hp : m.player.playing = true) :
    m.playList.media ≠ [] :=
  QMediaPlaylist.media_ne_nil_of_currentIndex (hm.current hp)

/-- Where a row exists, so does a medium. -/
theorem Sound.media_ne_nil_of_row (hm : m.Sound) {i : ℕ} (hi : i < m.rows.length) :
    m.playList.media ≠ [] := by
  have hle := hm.rows_le
  rintro hnil
  rw [hnil, List.length_nil] at hle
  omega

/-- The player of a sound shelf after a move of the index: it plays if it played before and there
is a current entry. -/
theorem Sound.setCurrentIndex_playing (hm : m.Sound) (pos : ℤ) :
    (m.setCurrentIndex pos).player.playing = true ↔
      m.player.playing = true ∧ (m.setCurrentIndex pos).playList.currentIndex ≠ -1 := by
  by_cases hlist : m.player.hasPlaylist = true
  · simp [setCurrentIndex, QMediaPlayer.load, hlist]
  · have hstill : m.player.playing ≠ true := fun hp => hlist (hm.hasPlaylist (hm.media_ne_nil hp))
    simp [setCurrentIndex, QMediaPlayer.load, hlist, hstill]

/-- Starting the player of a sound shelf succeeds exactly when there is a medium. -/
theorem Sound.play_playing (hm : m.Sound) :
    m.play.player.playing = true ↔ m.playList.media ≠ [] := by
  constructor
  · intro h hnil
    rw [play_of_media_eq_nil m hnil] at h
    exact hm.media_ne_nil h hnil
  · intro hne
    exact MediaShelf.play_playing m (hm.hasPlaylist hne) hne

theorem Moves.sound (h : Moves P m m') (hm : m.Sound) : m'.Sound := by
  have hfiles := h.sameFiles
  refine ⟨by rw [hfiles.rows, hfiles.media]; exact hm.rows_le, ?_, ?_⟩
  · rw [hfiles.media, hfiles.hasPlaylist]
    exact hm.hasPlaylist
  · -- a player that plays has a current entry, one operation at a time
    induction h with
    | refl m => exact hm.current
    | @trans m₁ m₂ m₃ h₁ h₂ ih₁ ih₂ =>
      refine ih₂ ⟨?_, ?_, ih₁ hm h₁.sameFiles⟩ h₂.sameFiles
      · rw [h₁.sameFiles.rows, h₁.sameFiles.media]
        exact hm.rows_le
      · rw [h₁.sameFiles.media, h₁.sameFiles.hasPlaylist]
        exact hm.hasPlaylist
    | setCurrentIndex m pos => exact fun hp => ((hm.setCurrentIndex_playing pos).mp hp).2
    | play m =>
      intro hp
      have hne := hm.play_playing.mp hp
      have hpos := List.length_pos_of_ne_nil hne
      rw [MediaShelf.play, if_pos ⟨hm.hasPlaylist hne, hne⟩]
      by_cases hcur : m.playList.currentIndex = -1
      · rw [if_pos hcur]
        show (m.setCurrentIndex 0).playList.currentIndex ≠ -1
        rw [setCurrentIndex_currentIndex m (by omega)]
        decide
      · rw [if_neg hcur]
        exact hcur
    | pause m => exact fun hp => absurd hp (by simp [MediaShelf.pause])
    | stop m => exact fun hp => absurd hp (by simp [MediaShelf.stop])
    | setPlaybackMode m mode _ => exact hm.current
    | adjust m p hplay _ => exact fun hp => hm.current (hplay ▸ hp)

theorem Sound.setCurrentIndex (hm : m.Sound) (pos : ℤ) : (m.setCurrentIndex pos).Sound :=
  (Moves.setCurrentIndex (P := fun _ => True) m pos).sound hm

/-! ## Updates -/

/-- The shelf on which the listing is scanned: the rows are gone, the playlist is not. -/
def beforeScan (m : MediaShelf) (usbPath : Text) : MediaShelf :=
  { m with zeroGroupShown := false, listShown := true, rows := [], listed := some usbPath }

/-- The shelf of a stick on which the scan found these files. -/
def filled (m : MediaShelf) (qt : Qt) (mode : PlaybackMode) (usbPath : Text) (paths : List Text) :
    MediaShelf :=
  (((m.beforeScan usbPath).addFiles paths).setPlaybackMode mode).setPlaylist qt

variable {qt : Qt} {ext usbPath count list : Text} {mode : PlaybackMode}
  {flashStatus : FlashStatus}

/-- **The results of an update.** -/
theorem update_cases
    (h : m.update qt ext mode flashStatus usbPath count list = some m') :
    (flashStatus = .noFlashDetected ∧ m.rows ≠ [] ∧ m' = { m.clear with listed := none }) ∨
    (flashStatus = .noFlashDetected ∧ m.rows = [] ∧ m' = { m with listed := none }) ∨
    (flashStatus = .flashDetected ∧ count = zeroCount ∧
      m' = { m with listShown := false, zeroGroupShown := true, listed := some usbPath }) ∨
    (flashStatus = .flashDetected ∧ count ≠ zeroCount ∧
      ∃ paths, scanPaths ext list (list.length + 1) 0 = some paths ∧
        m' = m.filled qt mode usbPath paths) := by
  cases flashStatus with
  | noFlashDetected =>
    simp only [update, Option.some.injEq] at h
    by_cases hrows : m.rows = []
    · right; left
      rw [if_neg (by simp [hrows])] at h
      exact ⟨rfl, hrows, h.symm⟩
    · left
      rw [if_pos fun h0 => hrows (List.length_eq_zero_iff.mp h0)] at h
      exact ⟨rfl, hrows, h.symm⟩
  | flashDetected =>
    simp only [update] at h
    by_cases hcount : count = zeroCount
    · rw [if_pos hcount, Option.some.injEq] at h
      exact Or.inr (Or.inr (Or.inl ⟨rfl, hcount, h.symm⟩))
    · rw [if_neg hcount, scan_eq, Option.map_map, Option.map_eq_some_iff] at h
      obtain ⟨paths, hpaths, rfl⟩ := h
      exact Or.inr (Or.inr (Or.inr ⟨rfl, hcount, paths, hpaths, rfl⟩))

/-- With a stick, the update ends unless there is a listing on which the scan does not. -/
theorem exists_update_iff (hext : IsExtension ext) :
    (∃ m', m.update qt ext mode .flashDetected usbPath count list = some m') ↔
      (count ≠ zeroCount → ScanEnds ext list) := by
  constructor
  · rintro ⟨m', hm'⟩ hcount
    rcases update_cases hm' with ⟨hflash, -⟩ | ⟨hflash, -⟩ | ⟨-, hzero, -⟩ |
      ⟨-, -, paths, hpaths, -⟩
    · exact absurd hflash (by decide)
    · exact absurd hflash (by decide)
    · exact absurd hzero hcount
    · exact (scanEnds_iff hext list).mp ⟨_, paths, hpaths⟩
  · intro hends
    by_cases hcount : count = zeroCount
    · simp only [update, if_pos hcount]
      exact ⟨_, rfl⟩
    · have hstop := (ends_iff hext list).mp ((scanEnds_iff hext list).mpr (hends hcount))
      obtain ⟨paths, hpaths⟩ := exists_scanPaths hext hstop
      simp only [update, if_neg hcount, scan_eq, hpaths, Option.map_some]
      exact ⟨_, rfl⟩

/-- Rewinding a playlist and handing it to the player. -/
theorem setPlaylist_playing (m : MediaShelf) (qt : Qt) :
    (m.setPlaylist qt).player.playing = true ↔
      m.player.playing = true ∧ qt.setPlaylistRewinds = false := by
  rw [setPlaylist]
  cases qt.setPlaylistRewinds with
  | false => simp
  | true =>
    simp only [if_true, Bool.true_eq_false, and_false, iff_false]
    exact fun hp => absurd (QMediaPlayer.playing_of_load hp) (by simp [stop])

theorem setPlaylist_currentIndex_of_not_rewinds (m : MediaShelf) {qt : Qt}
    (h : qt.setPlaylistRewinds = false) :
    (m.setPlaylist qt).playList.currentIndex = m.playList.currentIndex := by
  simp [setPlaylist, h]

theorem setPlaylist_currentIndex_of_rewinds {m : MediaShelf} {qt : Qt}
    (h : qt.setPlaylistRewinds = true) (hne : m.playList.media ≠ []) :
    (m.setPlaylist qt).playList.currentIndex = 0 := by
  have hpos := List.length_pos_of_ne_nil hne
  rw [setPlaylist, if_pos h]
  exact m.stop.setCurrentIndex_currentIndex ⟨by decide, Int.natCast_pos.mpr hpos⟩

section Filled

variable {m : MediaShelf} {paths : List Text}

@[simp] theorem filled_rows : (m.filled qt mode usbPath paths).rows = paths.map fileName :=
  (setPlaylist_rows _ qt).trans (addFiles_rows _ _)

@[simp] theorem filled_media :
    (m.filled qt mode usbPath paths).playList.media = m.playList.media ++ paths :=
  (setPlaylist_media _ qt).trans (addFiles_media _ _)

@[simp] theorem filled_mode : (m.filled qt mode usbPath paths).playList.playbackMode = mode :=
  setPlaylist_mode _ qt

@[simp] theorem filled_listed : (m.filled qt mode usbPath paths).listed = some usbPath :=
  (setPlaylist_listed _ qt).trans (addFiles_listed _ _)

theorem filled_playing :
    (m.filled qt mode usbPath paths).player.playing = true ↔
      m.player.playing = true ∧ qt.setPlaylistRewinds = false := by
  rw [filled, setPlaylist_playing]
  show ((m.beforeScan usbPath).addFiles paths).player.playing = true ∧ _ ↔ _
  rw [addFiles_player]
  rfl

theorem filled_currentIndex_of_not_rewinds (h : qt.setPlaylistRewinds = false) :
    (m.filled qt mode usbPath paths).playList.currentIndex = m.playList.currentIndex :=
  (setPlaylist_currentIndex_of_not_rewinds _ h).trans (addFiles_currentIndex _ _)

theorem filled_currentIndex_of_rewinds (h : qt.setPlaylistRewinds = true)
    (hne : m.playList.media ++ paths ≠ []) :
    (m.filled qt mode usbPath paths).playList.currentIndex = 0 := by
  have hmedia : ((m.beforeScan usbPath).addFiles paths).playList.media =
      m.playList.media ++ paths := addFiles_media _ _
  exact setPlaylist_currentIndex_of_rewinds h (hmedia ▸ hne)

end Filled

/-- The index moves to an entry that has no row. -/
def MissesRow (m m' : MediaShelf) : Prop :=
  m'.playList.currentIndex ≠ m.playList.currentIndex ∧ m'.playList.currentIndex ≠ -1 ∧
    m'.rows.length ≤ m'.playList.currentIndex

/-- An update moves the index to an entry without a row if it rewinds to one that was there
before, and finds no files to make rows of. -/
theorem update_missesRow_iff
    (h : m.update qt ext mode .flashDetected usbPath count list = some m') :
    MissesRow m m' ↔ count ≠ zeroCount ∧ list = [] ∧ qt.setPlaylistRewinds = true ∧
      m.playList.media ≠ [] ∧ m.playList.currentIndex ≠ 0 := by
  rcases update_cases h with ⟨hflash, -⟩ | ⟨hflash, -⟩ | ⟨-, hzero, rfl⟩ |
    ⟨-, hcount, paths, hpaths, rfl⟩
  · exact absurd hflash (by decide)
  · exact absurd hflash (by decide)
  · exact iff_of_false (fun hmiss => hmiss.1 rfl) fun hc => hc.1 hzero
  rw [MissesRow, filled_rows, List.length_map, ← scanPaths_eq_nil_iff hpaths]
  cases hrewinds : qt.setPlaylistRewinds with
  | false => simp [filled_currentIndex_of_not_rewinds hrewinds]
  | true =>
    by_cases hnil : m.playList.media ++ paths = []
    · have hcur : (m.filled qt mode usbPath paths).playList.currentIndex = -1 :=
        QMediaPlaylist.currentIndex_of_media_eq_nil (filled_media.trans hnil)
      simp [hcur, (List.append_eq_nil_iff.mp hnil).1]
    · rw [filled_currentIndex_of_rewinds hrewinds hnil]
      have hlen : (paths.length : ℤ) ≤ 0 ↔ paths = [] := by
        rw [← List.length_eq_zero_iff]
        omega
      rw [hlen]
      constructor
      · rintro ⟨hmoved, -, hpaths'⟩
        exact ⟨hcount, hpaths', rfl, by simpa [hpaths'] using hnil, hmoved.symm⟩
      · rintro ⟨-, hpaths', -, -, hmoved⟩
        exact ⟨hmoved.symm, by decide, hpaths'⟩

/-- An update stops the player if it clears the list, or if it fills it and Qt rewinds. -/
def UpdateStops (qt : Qt) (flashStatus : FlashStatus) (count : Text) (m : MediaShelf) : Prop :=
  (flashStatus = .noFlashDetected ∧ m.rows ≠ []) ∨
    (flashStatus = .flashDetected ∧ count ≠ zeroCount ∧ qt.setPlaylistRewinds = true)

theorem clear_playing (hm : m.Sound) : m.clear.player.playing = false := by
  by_contra hp
  rw [Bool.not_eq_false] at hp
  have hlist := hm.hasPlaylist (hm.media_ne_nil (QMediaPlayer.playing_of_load hp))
  rw [show m.clear.player.playing = false from QMediaPlayer.load_neg_one_playing hlist] at hp
  exact absurd hp (by decide)

theorem update_playing (hm : m.Sound)
    (h : m.update qt ext mode flashStatus usbPath count list = some m') :
    m'.player.playing = true ↔
      m.player.playing = true ∧ ¬ UpdateStops qt flashStatus count m := by
  rcases update_cases h with ⟨rfl, hrows, rfl⟩ | ⟨rfl, hrows, rfl⟩ | ⟨rfl, hcount, rfl⟩ |
    ⟨rfl, hcount, paths, -, rfl⟩
  · simp [UpdateStops, hrows, clear_playing hm]
  · simp [UpdateStops, hrows]
  · simp [UpdateStops, hcount]
  · rw [filled_playing]
    simp [UpdateStops, hcount]

/-- A player that goes on through an update goes on with the same entry. -/
theorem update_goes_on (hm : m.Sound)
    (h : m.update qt ext mode flashStatus usbPath count list = some m')
    (hplays : m'.player.playing = true) :
    m.player.playing = true ∧ m.playList.media <+: m'.playList.media ∧
      m'.playList.currentIndex = m.playList.currentIndex := by
  obtain ⟨hplayed, hgoes⟩ := (update_playing hm h).mp hplays
  refine ⟨hplayed, ?_⟩
  rcases update_cases h with ⟨rfl, hrows, -⟩ | ⟨-, -, rfl⟩ | ⟨-, -, rfl⟩ |
    ⟨-, -, paths, -, rfl⟩
  · exact absurd (Or.inl ⟨rfl, hrows⟩) hgoes
  · exact ⟨List.prefix_rfl, rfl⟩
  · exact ⟨List.prefix_rfl, rfl⟩
  · rw [filled_media]
    exact ⟨List.prefix_append _ _, filled_currentIndex_of_not_rewinds (filled_playing.mp hplays).2⟩

theorem update_sound (hm : m.Sound)
    (h : m.update qt ext mode flashStatus usbPath count list = some m') : m'.Sound := by
  have hplay := update_playing hm h
  rcases update_cases h with ⟨rfl, hrows, rfl⟩ | ⟨rfl, hrows, rfl⟩ | ⟨rfl, hcount, rfl⟩ |
    ⟨rfl, hcount, paths, -, rfl⟩
  · refine ⟨le_rfl, fun hne => absurd rfl hne, fun hp => ?_⟩
    rw [show _ = false from clear_playing hm] at hp
    exact absurd hp (by decide)
  · exact ⟨hm.rows_le, hm.hasPlaylist, hm.current⟩
  · exact ⟨hm.rows_le, hm.hasPlaylist, hm.current⟩
  · refine ⟨?_, fun _ => rfl, fun hp => ?_⟩
    · simp
    · obtain ⟨hplayed, hstays⟩ := filled_playing.mp hp
      rw [filled_currentIndex_of_not_rewinds hstays]
      exact hm.current hplayed

end MediaShelf
end Infotainment
