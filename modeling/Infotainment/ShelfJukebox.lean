import Infotainment.ShelfPolls
import Infotainment.PlaybackIcons
import Infotainment.Library.Jukebox

/-!
# A shelf is a jukebox

`Infotainment.Library.Jukebox` says what a jukebox is expected to do.  A media shelf shows one
(`MediaShelf.jukebox`): the names of its media, the current entry, and whether it is heard.  The
navigator of `QMediaPlaylist` goes where the order of the playback mode leads, and what the slots do
to the playlist and the player are signals to the jukebox, as far as the shelf is sound.  A poll
loads the jukebox or empties it (`ShelfPoll.jukebox`), as long as nothing is listed on top of what
is there.
-/

namespace Infotainment

open EventSystem MediaShelf

variable {W : Type} {qt : Qt}

/-! ## The jukebox a shelf is -/

/-- An index of a playlist, where `-1` stands for no entry. -/
def entryAt (index : ℤ) : Option ℕ := if index = -1 then none else some index.toNat

theorem entryAt_natCast (i : ℕ) : entryAt i = some i := by
  rw [entryAt, if_neg (by omega), Int.toNat_natCast]

theorem entryAt_neg_one : entryAt (-1) = none := rfl

theorem entryAt_eq_none_iff {index : ℤ} : entryAt index = none ↔ index = -1 := by
  rw [entryAt]
  split_ifs with h <;> simp [h]

theorem entryAt_eq_some_iff {index : ℤ} (h : -1 ≤ index) {i : ℕ} :
    entryAt index = some i ↔ index = i := by
  rw [entryAt]
  split_ifs with hindex
  · exact iff_of_false (by simp) (by omega)
  · rw [Option.some.injEq]
    omega

theorem lt_of_mem_entryAt {index : ℤ} {n i : ℕ} (h : -1 ≤ index) (hlt : index < n)
    (hi : i ∈ entryAt index) : i < n := by
  rw [entryAt] at hi
  split_ifs at hi with hindex
  · exact absurd hi (by simp)
  · obtain rfl := Option.mem_some_iff.mp hi
    omega

def PlaybackMode.order : PlaybackMode → Order
  | .sequential => .straight
  | .loop => .around
  | .currentItemInLoop => .one
  | .currentItemOnce => .once
  | .random => .shuffled

/-- The jukebox a shelf is. -/
def MediaShelf.jukebox (m : MediaShelf) : Jukebox Text where
  tracks := m.playList.media.map baseName
  current := entryAt m.playList.currentIndex
  playing := m.player.playing && decide (m.playList.currentIndex ≠ -1)
  order := m.playList.playbackMode.order
  lt_length i hi := by
    rw [List.length_map]
    exact lt_of_mem_entryAt m.playList.neg_one_le m.playList.lt_mediaCount hi
  current_ne_none h := by
    rw [Bool.and_eq_true, decide_eq_true_eq] at h
    exact fun hnone => h.2 (entryAt_eq_none_iff.mp hnone)

namespace QMediaPlaylist

variable (pl : QMediaPlaylist) (pick : ℕ)

/-- The navigator goes where the order leads. -/
theorem entryAt_nextIndex :
    entryAt (pl.nextIndex pick) =
      pl.playbackMode.order.next pl.media.length pick (entryAt pl.currentIndex) := by
  have h0 := pl.neg_one_le
  have h1 := pl.lt_mediaCount
  unfold Order.next
  rw [nextIndex]
  by_cases hnil : pl.media.length = 0
  · rw [if_pos hnil, if_pos hnil]
    rfl
  · rw [if_neg hnil, if_neg hnil]
    obtain ⟨i, hi⟩ : ∃ i : ℕ, pl.currentIndex + 1 = i :=
      ⟨(pl.currentIndex + 1).toNat, by omega⟩
    -- the position after the current one, with `-1` before the first
    have hsucc : (entryAt pl.currentIndex).elim 0 (· + 1) = i := by
      rw [entryAt]
      split_ifs with hcur
      · show 0 = i
        omega
      · show pl.currentIndex.toNat + 1 = i
        omega
    cases hm : pl.playbackMode with
    | currentItemOnce => rfl
    | currentItemInLoop => rfl
    | sequential =>
      simp only [PlaybackMode.order, hsucc, hi, Nat.cast_lt]
      split_ifs
      · exact entryAt_natCast i
      · rfl
    | loop =>
      simp only [PlaybackMode.order, hsucc, hi, ← Int.natCast_emod]
      exact entryAt_natCast _
    | random => exact entryAt_natCast _

theorem entryAt_previousIndex :
    entryAt (pl.previousIndex pick) =
      pl.playbackMode.order.previous pl.media.length pick (entryAt pl.currentIndex) := by
  have h0 := pl.neg_one_le
  have h1 := pl.lt_mediaCount
  unfold Order.previous
  rw [previousIndex]
  by_cases hnil : pl.media.length = 0
  · rw [if_pos hnil, if_pos hnil]
    rfl
  · rw [if_neg hnil, if_neg hnil]
    cases hm : pl.playbackMode with
    | currentItemOnce => rfl
    | currentItemInLoop => rfl
    | sequential =>
      by_cases hcur : pl.currentIndex = -1
      · rw [hcur, entryAt_neg_one]
        have hlast : (pl.media.length : ℤ) - 1 = (pl.media.length - 1 : ℕ) := by omega
        simp only [if_true, PlaybackMode.order, hlast]
        exact entryAt_natCast _
      · obtain ⟨i, hi⟩ : ∃ i : ℕ, pl.currentIndex = i := ⟨pl.currentIndex.toNat, by omega⟩
        rw [hi, entryAt_natCast]
        cases i with
        | zero => simp [PlaybackMode.order, entryAt_neg_one]
        | succ i =>
          have hpred : ((i + 1 : ℕ) : ℤ) - 1 = i := by omega
          rw [if_neg (by omega), hpred, if_pos (by omega)]
          exact entryAt_natCast i
    | loop =>
      obtain ⟨i, hi⟩ : ∃ i : ℕ, (i : ℤ) % pl.media.length = (pl.currentIndex - 1) %
          pl.media.length ∧ (entryAt pl.currentIndex).elim (pl.media.length - 1) id +
            (pl.media.length - 1) = i := by
        refine ⟨_, ?_, rfl⟩
        by_cases hcur : pl.currentIndex = -1
        · rw [hcur, entryAt_neg_one]
          have hsum : ((pl.media.length - 1 + (pl.media.length - 1) : ℕ) : ℤ) =
              -1 - 1 + pl.media.length * 2 := by omega
          rw [Option.elim_none, hsum, Int.add_mul_emod_self_left]
        · obtain ⟨k, hk⟩ : ∃ k : ℕ, pl.currentIndex = k := ⟨pl.currentIndex.toNat, by omega⟩
          have hsum : ((k + (pl.media.length - 1) : ℕ) : ℤ) = k - 1 + pl.media.length := by omega
          rw [hk, entryAt_natCast, Option.elim_some, id, hsum, Int.add_emod_right]
      simp only [PlaybackMode.order, hi.2, ← hi.1, ← Int.natCast_emod]
      exact entryAt_natCast _
    | random => exact entryAt_natCast _

end QMediaPlaylist

/-! ## The operations of a shelf -/

namespace MediaShelf

variable {m : MediaShelf}

/-- On a sound shelf, playing is what the player says. -/
theorem Sound.jukebox_playing (hm : m.Sound) : m.jukebox.playing = m.player.playing := by
  show (m.player.playing && decide (m.playList.currentIndex ≠ -1)) = m.player.playing
  cases hp : m.player.playing with
  | false => rfl
  | true => simpa using hm.current hp

/-- Moving the index to an entry or to none. -/
theorem Sound.jukebox_setCurrentIndex (hm : m.Sound) {pos : ℤ} (h0 : -1 ≤ pos)
    (hlt : pos < m.playList.media.length) :
    (m.setCurrentIndex pos).jukebox = m.jukebox.moveTo (entryAt pos) (fun i hi => by
      have hlen : m.jukebox.tracks.length = m.playList.media.length := List.length_map _
      rw [hlen]
      exact lt_of_mem_entryAt h0 hlt hi) := by
  have hcur := setCurrentIndex_currentIndex m ⟨h0, hlt⟩
  ext1
  · show (m.setCurrentIndex pos).playList.media.map baseName = m.playList.media.map baseName
    rw [setCurrentIndex_media]
  · show entryAt (m.setCurrentIndex pos).playList.currentIndex = entryAt pos
    rw [hcur]
  · rw [(hm.setCurrentIndex pos).jukebox_playing, Bool.eq_iff_iff, hm.setCurrentIndex_playing, hcur]
    show _ ↔ (m.jukebox.playing && (entryAt pos).isSome) = true
    rw [hm.jukebox_playing, Bool.and_eq_true, Option.isSome_iff_ne_none]
    exact and_congr_right fun _ => not_congr entryAt_eq_none_iff.symm
  · show (m.setCurrentIndex pos).playList.playbackMode.order = m.playList.playbackMode.order
    rw [setCurrentIndex_mode]

theorem Sound.jukebox_next (hm : m.Sound) (pick : ℕ) :
    (m.next pick).jukebox = m.jukebox.receive (.forward pick) := by
  obtain ⟨h0, hlt⟩ := m.playList.nextIndex_mem pick
  have hlen : m.jukebox.tracks.length = m.playList.media.length := List.length_map _
  rw [next, hm.jukebox_setCurrentIndex h0 hlt]
  simp only [Jukebox.receive, m.playList.entryAt_nextIndex pick, hlen]
  rfl

theorem Sound.jukebox_previous (hm : m.Sound) (pick : ℕ) :
    (m.previous pick).jukebox = m.jukebox.receive (.backward pick) := by
  obtain ⟨h0, hlt⟩ := m.playList.previousIndex_mem pick
  have hlen : m.jukebox.tracks.length = m.playList.media.length := List.length_map _
  rw [previous, hm.jukebox_setCurrentIndex h0 hlt]
  simp only [Jukebox.receive, m.playList.entryAt_previousIndex pick, hlen]
  rfl

/-- Starting the player on a current entry. -/
theorem Sound.jukebox_play (hm : m.Sound) (hcur : m.playList.currentIndex ≠ -1) :
    m.play.jukebox = m.jukebox.setPlaying true := by
  have hne := QMediaPlaylist.media_ne_nil_of_currentIndex hcur
  have hplay : m.play = { m with player := { m.player with playing := true } } := by
    rw [play, if_pos ⟨hm.hasPlaylist hne, hne⟩]
    simp only [hcur, if_false]
  rw [hplay]
  ext1
  · rfl
  · rfl
  · show (true && decide (m.playList.currentIndex ≠ -1)) =
      (true && (entryAt m.playList.currentIndex).isSome)
    rw [entryAt]
    split_ifs with h
    · exact absurd h hcur
    · simp [hcur]
  · rfl

/-- Choosing an entry and starting the player. -/
theorem Sound.jukebox_choose (hm : m.Sound) {i : ℕ} (hi : i < m.playList.media.length) :
    (m.setCurrentIndex i).play.jukebox = m.jukebox.receive (.choose i) := by
  have htrack : i < m.jukebox.tracks.length := by
    rwa [show m.jukebox.tracks.length = m.playList.media.length from List.length_map _]
  have hcur : (m.setCurrentIndex i).playList.currentIndex = i :=
    setCurrentIndex_currentIndex m ⟨by omega, by omega⟩
  rw [(hm.setCurrentIndex i).jukebox_play (by omega),
    hm.jukebox_setCurrentIndex (by omega) (by omega), Jukebox.moveTo_congr _ (entryAt_natCast i)]
  symm
  exact dif_pos htrack

/-- Without a current entry the player starts with the first one. -/
theorem Sound.jukebox_play_first (hm : m.Sound) (hcur : m.playList.currentIndex = -1)
    (hne : m.playList.media ≠ []) : m.play.jukebox = m.jukebox.receive (.choose 0) := by
  have hpos := List.length_pos_of_ne_nil hne
  have hfirst : (m.setCurrentIndex 0).playList.currentIndex = 0 :=
    setCurrentIndex_currentIndex m ⟨by omega, by omega⟩
  have hplay : m.play = (m.setCurrentIndex 0).play := by
    simp [play, hm.hasPlaylist hne, hne, hcur, hfirst]
  rw [hplay]
  exact hm.jukebox_choose hpos

/-- Setting the index to where it is. -/
theorem Sound.jukebox_reload (hm : m.Sound) :
    (m.setCurrentIndex m.playList.currentIndex).jukebox = m.jukebox := by
  rw [hm.jukebox_setCurrentIndex m.playList.neg_one_le m.playList.lt_mediaCount]
  exact m.jukebox.moveTo_current

theorem jukebox_pause (m : MediaShelf) : m.pause.jukebox = m.jukebox.setPlaying false := rfl

theorem jukebox_stop (m : MediaShelf) : m.stop.jukebox = m.jukebox.setPlaying false := rfl

theorem jukebox_setPlaybackMode (m : MediaShelf) (mode : PlaybackMode) :
    (m.setPlaybackMode mode).jukebox = m.jukebox.receive (.setOrder mode.order) := rfl

/-- Listing files on an empty playlist. -/
theorem Sound.jukebox_filled (hm : m.Sound) (hnil : m.playList.media = []) {mode : PlaybackMode}
    {usbPath : Text} {paths : List Text} :
    (m.filled qt mode usbPath paths).jukebox =
      m.jukebox.receive (.load (paths.map baseName) qt.setPlaylistRewinds mode.order) := by
  have hcur := QMediaPlaylist.currentIndex_of_media_eq_nil hnil
  have hsilent : m.player.playing = false := by
    by_contra hp
    exact hm.media_ne_nil (by simpa using hp) hnil
  have hsilent' : (m.filled qt mode usbPath paths).player.playing = false := by
    by_contra hp
    have hplayed := (filled_playing.mp (by simpa using hp)).1
    rw [hsilent] at hplayed
    exact absurd hplayed Bool.false_ne_true
  ext1
  · show (m.filled qt mode usbPath paths).playList.media.map baseName = _
    rw [filled_media, hnil]
    rfl
  · show entryAt (m.filled qt mode usbPath paths).playList.currentIndex =
      if qt.setPlaylistRewinds ∧ paths.map baseName ≠ [] then some 0 else none
    have hmap : paths.map baseName ≠ [] ↔ paths ≠ [] := by simp
    by_cases hopens : qt.setPlaylistRewinds = true
    · by_cases hpaths : paths = []
      · have hmedia : (m.filled qt mode usbPath paths).playList.media = [] := by
          rw [filled_media, hnil, hpaths]
          rfl
        rw [QMediaPlaylist.currentIndex_of_media_eq_nil hmedia, if_neg fun h => hmap.mp h.2 hpaths]
        rfl
      · rw [filled_currentIndex_of_rewinds hopens (by simp [hpaths]),
          if_pos ⟨hopens, hmap.mpr hpaths⟩]
        rfl
    · rw [filled_currentIndex_of_not_rewinds (by simpa using hopens), hcur,
        if_neg fun h => hopens h.1]
      rfl
  · show ((m.filled qt mode usbPath paths).player.playing && _) = false
    rw [hsilent']
    rfl
  · show (m.filled qt mode usbPath paths).playList.playbackMode.order = _
    rw [filled_mode]
    rfl

/-- Clearing a list. -/
theorem jukebox_of_media_eq_nil {m m' : MediaShelf} (hnil : m'.playList.media = [])
    (hmode : m'.playList.playbackMode = m.playList.playbackMode) :
    m'.jukebox = m.jukebox.receive .eject := by
  have hcur := QMediaPlaylist.currentIndex_of_media_eq_nil hnil
  ext1
  · show m'.playList.media.map baseName = []
    rw [hnil]
    rfl
  · show entryAt m'.playList.currentIndex = none
    rw [hcur]
    rfl
  · show (m'.player.playing && decide (m'.playList.currentIndex ≠ -1)) = false
    rw [hcur]
    exact Bool.and_false _
  · show m'.playList.playbackMode.order = m.playList.playbackMode.order
    rw [hmode]

end MediaShelf

/-! ## Polls -/

/-- What a poll is to the jukebox of a shelf that lists the files with the extension and becomes
`m'`: it is loaded with the files of a new stick, and emptied when a stick was unmounted. -/
def pollSignal (qt : Qt) (sh : Shell W) (c : State × W) (ext : Text) (mode : PlaybackMode)
    (m' : MediaShelf) : Option (Jukebox.Signal Text) :=
  if FindsNewStick sh c.1 ∧ CountsFiles sh ext then
    some (.load m'.rows qt.setPlaylistRewinds mode.order)
  else if DetachesStick sh c then some .eject
  else none

namespace ShelfPoll

variable {sh : Shell W} {c : State × W} {ext : Text} {mode : PlaybackMode} {m m' : MediaShelf}

/-- **A poll is a signal.** -/
theorem jukebox (h : ShelfPoll qt sh c ext mode m m') (hm : m.Sound) (hparallel : m.Parallel)
    (hempty : FindsNewStick sh c.1 → CountsFiles sh ext → m.playList.media = []) :
    m'.jukebox = m.jukebox.receiveAll (pollSignal qt sh c ext mode m').toList := by
  rw [pollSignal]
  cases h with
  | listed _ hnew hupdate =>
    rcases update_cases hupdate with ⟨hflash, -⟩ | ⟨hflash, -⟩ | ⟨-, hzero, rfl⟩ |
      ⟨-, hcount, paths, -, rfl⟩
    · exact nomatch hflash
    · exact nomatch hflash
    · rw [if_neg fun h => h.2 hzero, if_neg (not_detachesStick_of_findsNewStick hnew)]
      rfl
    · rw [if_pos ⟨hnew, hcount⟩, hm.jukebox_filled (hempty hnew hcount), filled_rows,
        funext fileName_eq_baseName]
      rfl
  | cleared _ hgone hupdate =>
    rw [if_neg fun h => not_detachesStick_of_findsNewStick h.1 hgone, if_pos hgone]
    exact jukebox_of_media_eq_nil (update_noFlash hparallel hupdate).2 (update_mode_eq hupdate)
  | unmoved hnew hgone =>
    rw [if_neg fun h => hnew h.1, if_neg hgone]
    rfl

end ShelfPoll

end Infotainment
