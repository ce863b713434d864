import Infotainment.Text

/-!
# Qt's playlists and players

What the program uses of `QMediaPlaylist` and `QMediaPlayer`.

* The current index of a playlist is `-1` or the position of an entry.  `QMediaPlaylist` carries
  that as two fields, so an index out of range cannot be built: `jump`, through which every move
  of the index goes, turns a position out of range into `-1`, as Qt's navigator does.
* `nextIndex` and `previousIndex` are the navigator's arithmetic.  In `random` mode the entry is
  drawn by Qt; it is an argument here.
* Of a player only this is kept: whether it is in the Playing state, which the program never asks
  but the user hears; whether it was given a playlist; position, duration and volume.  A player
  follows its playlist: when the current entry changes it loads the new one, at position zero,
  and goes on if it was playing; when the index becomes `-1` it stops.

Qt documents that `setPlaylist` makes the player use the playlist.  Whether it also stops the
player and moves the playlist to its first entry depends on the release, so that is the one field
of `Qt`, and every result holds for both.
-/

namespace Infotainment

/-- What differs between the releases of Qt. -/
structure Qt where
  /-- `QMediaPlayer::setPlaylist` stops the player and moves the playlist to its first entry. -/
  setPlaylistRewinds : Bool

/-- `QMediaPlaylist::PlaybackMode` -/
inductive PlaybackMode where
  | currentItemOnce
  | currentItemInLoop
  | sequential
  | loop
  | random
  deriving DecidableEq

/-- A playlist.  Its media are local files and are named by their paths. -/
@[ext] structure QMediaPlaylist where
  media : List Text
  currentIndex : ℤ
  playbackMode : PlaybackMode
  neg_one_le : -1 ≤ currentIndex
  lt_mediaCount : currentIndex < media.length

namespace QMediaPlaylist

/-- A new playlist. -/
def new : QMediaPlaylist where
  media := []
  currentIndex := -1
  playbackMode := .sequential
  neg_one_le := le_rfl
  lt_mediaCount := by simp

variable (pl : QMediaPlaylist)

/-- Move the current index; a position that is neither `-1` nor an entry becomes `-1`. -/
def jump (pos : ℤ) : QMediaPlaylist :=
  if h : -1 ≤ pos ∧ pos < pl.media.length then
    { pl with currentIndex := pos, neg_one_le := h.1, lt_mediaCount := h.2 }
  else
    { pl with currentIndex := -1, neg_one_le := le_rfl, lt_mediaCount := by omega }

/-- `addMedia` appends, and leaves the current index alone. -/
def addMedia (path : Text) : QMediaPlaylist :=
  { pl with
    media := pl.media ++ [path]
    lt_mediaCount := by
      have h := pl.lt_mediaCount
      simp only [List.length_append, List.length_singleton]
      omega }

def clear : QMediaPlaylist :=
  { pl with media := [], currentIndex := -1, neg_one_le := le_rfl, lt_mediaCount := by simp }

def setPlaybackMode (mode : PlaybackMode) : QMediaPlaylist := { pl with playbackMode := mode }

/-- The index `next()` jumps to.  `pick` is what `random` mode draws. -/
def nextIndex (pick : ℕ) : ℤ :=
  if pl.media.length = 0 then -1
  else
    match pl.playbackMode with
    | .currentItemOnce => -1
    | .currentItemInLoop => pl.currentIndex
    | .sequential => if pl.currentIndex + 1 < pl.media.length then pl.currentIndex + 1 else -1
    | .loop => (pl.currentIndex + 1) % pl.media.length
    | .random => (pick % pl.media.length : ℕ)

/-- The index `previous()` jumps to. -/
def previousIndex (pick : ℕ) : ℤ :=
  if pl.media.length = 0 then -1
  else
    match pl.playbackMode with
    | .currentItemOnce => -1
    | .currentItemInLoop => pl.currentIndex
    | .sequential =>
      if pl.currentIndex = -1 then pl.media.length - 1
      else if 0 ≤ pl.currentIndex - 1 then pl.currentIndex - 1 else -1
    | .loop => (pl.currentIndex - 1) % pl.media.length
    | .random => (pick % pl.media.length : ℕ)

@[simp] theorem jump_media (pos : ℤ) : (pl.jump pos).media = pl.media := by
  rw [jump]; split_ifs <;> rfl

@[simp] theorem jump_playbackMode (pos : ℤ) :
    (pl.jump pos).playbackMode = pl.playbackMode := by
  rw [jump]; split_ifs <;> rfl

theorem jump_currentIndex (pos : ℤ) :
    (pl.jump pos).currentIndex = if -1 ≤ pos ∧ pos < pl.media.length then pos else -1 := by
  rw [jump]; split_ifs <;> rfl

/-- A jump to an entry, or to `-1`, arrives there. -/
theorem jump_currentIndex_of_lt {pos : ℤ} (h0 : -1 ≤ pos) (h : pos < pl.media.length) :
    (pl.jump pos).currentIndex = pos := by
  rw [jump_currentIndex, if_pos ⟨h0, h⟩]

/-- A jump to where the index already is changes nothing. -/
@[simp] theorem jump_self : pl.jump pl.currentIndex = pl := by
  rw [jump, dif_pos ⟨pl.neg_one_le, pl.lt_mediaCount⟩]

@[simp] theorem addMedia_media (path : Text) :
    (pl.addMedia path).media = pl.media ++ [path] := rfl
@[simp] theorem addMedia_currentIndex (path : Text) :
    (pl.addMedia path).currentIndex = pl.currentIndex := rfl
@[simp] theorem addMedia_playbackMode (path : Text) :
    (pl.addMedia path).playbackMode = pl.playbackMode := rfl
@[simp] theorem clear_media : pl.clear.media = [] := rfl
@[simp] theorem clear_currentIndex : pl.clear.currentIndex = -1 := rfl
@[simp] theorem clear_playbackMode : pl.clear.playbackMode = pl.playbackMode := rfl
@[simp] theorem setPlaybackMode_media (mode : PlaybackMode) :
    (pl.setPlaybackMode mode).media = pl.media := rfl
@[simp] theorem setPlaybackMode_currentIndex (mode : PlaybackMode) :
    (pl.setPlaybackMode mode).currentIndex = pl.currentIndex := rfl
@[simp] theorem setPlaybackMode_playbackMode (mode : PlaybackMode) :
    (pl.setPlaybackMode mode).playbackMode = mode := rfl

variable {pl}

/-- An empty playlist has no current entry. -/
theorem currentIndex_of_media_eq_nil (h : pl.media = []) : pl.currentIndex = -1 := by
  have h0 := pl.neg_one_le
  have h1 := pl.lt_mediaCount
  rw [h] at h1
  simp only [List.length_nil] at h1
  omega

theorem media_ne_nil_of_currentIndex (h : pl.currentIndex ≠ -1) : pl.media ≠ [] :=
  fun hnil => h (currentIndex_of_media_eq_nil hnil)

/-- **When `next()` runs past the end.**  From an entry, in the modes the song list is ever put
in, only the last entry of `sequential` mode has no successor. -/
theorem nextIndex_eq_neg_one_iff {pick : ℕ} (hcur : pl.currentIndex ≠ -1)
    (hmode : pl.playbackMode ≠ .currentItemOnce) :
    pl.nextIndex pick = -1 ↔
      pl.playbackMode = .sequential ∧ pl.currentIndex = pl.media.length - 1 := by
  have hne := media_ne_nil_of_currentIndex hcur
  have hpos : 0 < pl.media.length := List.length_pos_of_ne_nil hne
  have h0 := pl.neg_one_le
  have h1 := pl.lt_mediaCount
  rw [nextIndex, if_neg (by omega)]
  cases hm : pl.playbackMode with
  | currentItemOnce => exact absurd hm hmode
  | currentItemInLoop => simpa using hcur
  | sequential =>
    simp only [true_and]
    split_ifs <;> omega
  | loop =>
    have hmod := Int.emod_nonneg (pl.currentIndex + 1) (b := pl.media.length) (by omega)
    simp only [reduceCtorEq, false_and, iff_false]
    omega
  | random =>
    simp only [reduceCtorEq, false_and]

theorem nextIndex_of_currentItemOnce {pick : ℕ} (hmode : pl.playbackMode = .currentItemOnce) :
    pl.nextIndex pick = -1 := by
  rw [nextIndex, hmode]
  split_ifs <;> rfl

/-- Outside `sequential` mode a move from an entry leads to an entry. -/
theorem nextIndex_ne_neg_one {pick : ℕ} (hcur : pl.currentIndex ≠ -1)
    (hmode : pl.playbackMode ≠ .currentItemOnce) (hseq : pl.playbackMode ≠ .sequential) :
    pl.nextIndex pick ≠ -1 :=
  fun h => hseq ((nextIndex_eq_neg_one_iff hcur hmode).mp h).1

theorem previousIndex_ne_neg_one {pick : ℕ} (hcur : pl.currentIndex ≠ -1)
    (hmode : pl.playbackMode ≠ .currentItemOnce) (hseq : pl.playbackMode ≠ .sequential) :
    pl.previousIndex pick ≠ -1 := by
  have hpos : 0 < pl.media.length := List.length_pos_of_ne_nil (media_ne_nil_of_currentIndex hcur)
  rw [previousIndex, if_neg (by omega)]
  cases hm : pl.playbackMode with
  | currentItemOnce => exact absurd hm hmode
  | currentItemInLoop => exact hcur
  | sequential => exact absurd hm hseq
  | loop =>
    have hmod := Int.emod_nonneg (pl.currentIndex - 1) (b := pl.media.length) (by omega)
    simp only
    omega
  | random =>
    simp only
    omega

theorem nextIndex_mem (pl : QMediaPlaylist) (pick : ℕ) :
    -1 ≤ pl.nextIndex pick ∧ pl.nextIndex pick < pl.media.length := by
  have h0 := pl.neg_one_le
  have h1 := pl.lt_mediaCount
  rw [nextIndex]
  by_cases hnil : pl.media.length = 0
  · rw [if_pos hnil]
    omega
  · have hmod := Int.emod_nonneg (pl.currentIndex + 1) (b := pl.media.length) (by omega)
    have hlt := Int.emod_lt_of_pos (pl.currentIndex + 1) (b := pl.media.length) (by omega)
    have hpick := Nat.mod_lt pick (Nat.pos_of_ne_zero hnil)
    rw [if_neg hnil]
    cases pl.playbackMode with
    | sequential =>
      simp only
      split_ifs <;> omega
    | _ =>
      simp only
      omega

theorem previousIndex_mem (pl : QMediaPlaylist) (pick : ℕ) :
    -1 ≤ pl.previousIndex pick ∧ pl.previousIndex pick < pl.media.length := by
  have h0 := pl.neg_one_le
  have h1 := pl.lt_mediaCount
  rw [previousIndex]
  by_cases hnil : pl.media.length = 0
  · rw [if_pos hnil]
    omega
  · have hmod := Int.emod_nonneg (pl.currentIndex - 1) (b := pl.media.length) (by omega)
    have hlt := Int.emod_lt_of_pos (pl.currentIndex - 1) (b := pl.media.length) (by omega)
    have hpick := Nat.mod_lt pick (Nat.pos_of_ne_zero hnil)
    rw [if_neg hnil]
    cases pl.playbackMode with
    | sequential =>
      simp only
      split_ifs <;> omega
    | _ =>
      simp only
      omega

end QMediaPlaylist

/-! ## Players -/

/-- A player. -/
@[ext] structure QMediaPlayer where
  /-- It is in the Playing state. -/
  playing : Bool
  /-- `setPlaylist` was called on it. -/
  hasPlaylist : Bool
  /-- A `qint64`, in milliseconds. -/
  position : Int64
  duration : Int64
  volume : ℤ

namespace QMediaPlayer

/-- A new player. -/
def new : QMediaPlayer where
  playing := false
  hasPlaylist := false
  position := 0
  duration := 0
  volume := 100

variable (p : QMediaPlayer)

/-- The playlist's current entry was set to `index`: the player loads it.  The length of a new
entry is only known later, when the backend reports it. -/
def load (index : ℤ) : QMediaPlayer :=
  if p.hasPlaylist then { p with playing := p.playing && index ≠ -1, position := 0 } else p

def pause : QMediaPlayer := { p with playing := false }

/-- Stopping also goes back to the beginning of the entry. -/
def stop : QMediaPlayer := { p with playing := false, position := 0 }

def setPosition (position : Int64) : QMediaPlayer := { p with position := position }

def setVolume (volume : ℤ) : QMediaPlayer := { p with volume := volume }

@[simp] theorem load_hasPlaylist (index : ℤ) : (p.load index).hasPlaylist = p.hasPlaylist := by
  rw [load]; split_ifs <;> rfl

@[simp] theorem pause_playing : p.pause.playing = false := rfl
@[simp] theorem pause_hasPlaylist : p.pause.hasPlaylist = p.hasPlaylist := rfl
@[simp] theorem stop_playing : p.stop.playing = false := rfl
@[simp] theorem stop_hasPlaylist : p.stop.hasPlaylist = p.hasPlaylist := rfl
@[simp] theorem setPosition_playing (x : Int64) : (p.setPosition x).playing = p.playing := rfl
@[simp] theorem setPosition_hasPlaylist (x : Int64) :
    (p.setPosition x).hasPlaylist = p.hasPlaylist := rfl
@[simp] theorem setVolume_playing (x : ℤ) : (p.setVolume x).playing = p.playing := rfl
@[simp] theorem setVolume_hasPlaylist (x : ℤ) :
    (p.setVolume x).hasPlaylist = p.hasPlaylist := rfl

variable {p}

theorem load_neg_one_playing (h : p.hasPlaylist = true) : (p.load (-1)).playing = false := by
  simp [load, h]

/-- Loading never starts a player. -/
theorem playing_of_load {index : ℤ} (h : (p.load index).playing = true) : p.playing = true := by
  rw [load] at h
  split_ifs at h
  · simp only [Bool.and_eq_true] at h
    exact h.1
  · exact h

end QMediaPlayer

end Infotainment
