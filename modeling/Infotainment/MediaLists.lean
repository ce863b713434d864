import Infotainment.Multimedia

/-!
# The two media lists

Songs and videos are kept the same way: a list widget whose rows the user clicks, a group shown
instead of it when there is nothing to list, a playlist, and a player.  `MediaShelf` is one such
arrangement; the program has two, and `updateSongsList` and `updateVideosList` differ only in the
file extension, in the playback mode they set, and in the slot that follows the song list's
index.  What the two have in common is here.

## The scan loop

The names of the files arrive as one text: what `find` printed, with the newlines gone.  The loop
cuts it behind every occurrence of the extension,

    end = list.find(ext, start);
    path = list.substr(start, end - start) + ext;
    start = end + ext.length();

and appends each piece to the playlist and its file name to the rows.  `start` and `end` are
`int`s, and `end` is `-1` when nothing is found, so the loop need not end: `scanLoop` has fuel,
and `scan` gives it one unit more than there are characters.  `Infotainment.ScanLoop` shows that
this is enough whenever any amount is.
-/

namespace Infotainment

/-- `flashStatus` -/
inductive FlashStatus where
  | noFlashDetected
  | flashDetected
  deriving DecidableEq

/-- A list widget, its playlist, and its player. -/
structure MediaShelf where
  /-- The texts of the list widget's rows. -/
  rows : List Text
  /-- The list widget is shown. -/
  listShown : Bool
  /-- The group saying that there are no files is shown. -/
  zeroGroupShown : Bool
  playList : QMediaPlaylist
  player : QMediaPlayer
  /-- A history variable: the directory the last update of the list looked into, if it looked
  into one rather than clearing the list. -/
  listed : Option Text

namespace MediaShelf

/-- At startup nothing is listed. -/
def new : MediaShelf where
  rows := []
  listShown := true
  zeroGroupShown := true
  playList := .new
  player := .new
  listed := none

variable (m : MediaShelf)

/-! ## What the slots do to a shelf -/

/-- `playList->setCurrentIndex(pos)`; the player follows. -/
def setCurrentIndex (pos : ℤ) : MediaShelf :=
  { m with
    playList := m.playList.jump pos
    player := m.player.load (m.playList.jump pos).currentIndex }

/-- `playList->next()`, which is also what a player does at the natural end of an entry. -/
def next (pick : ℕ) : MediaShelf := m.setCurrentIndex (m.playList.nextIndex pick)

/-- `playList->previous()` -/
def previous (pick : ℕ) : MediaShelf := m.setCurrentIndex (m.playList.previousIndex pick)

def setPlaybackMode (mode : PlaybackMode) : MediaShelf :=
  { m with playList := m.playList.setPlaybackMode mode }

/-- `player->play()`.  Without a current entry the player first moves to entry `0`, and it only
enters the Playing state if there is an entry to play. -/
def play : MediaShelf :=
  if m.player.hasPlaylist = true ∧ m.playList.media ≠ [] then
    let m := if m.playList.currentIndex = -1 then m.setCurrentIndex 0 else m
    { m with player := { m.player with playing := true } }
  else m

def pause : MediaShelf := { m with player := m.player.pause }

def stop : MediaShelf := { m with player := m.player.stop }

/-- `player->setPlaylist(playList)` -/
def setPlaylist (qt : Qt) : MediaShelf :=
  let m := if qt.setPlaylistRewinds then m.stop.setCurrentIndex 0 else m
  { m with player := { m.player with hasPlaylist := true } }

/-- `list->clear(); playList->clear();` -/
def clear : MediaShelf :=
  { m with rows := [], playList := m.playList.clear, player := m.player.load (-1) }

/-- One round of the scan loop: `addMedia` and `addItem`. -/
def addFile (path : Text) : MediaShelf :=
  { m with playList := m.playList.addMedia path, rows := m.rows ++ [fileName path] }

end MediaShelf

/-! ## The scan loop -/

def songsExt : Text := ".mp3".toList

def videosExt : Text := ".mp4".toList

/-- What `wc -l` prints for no lines. -/
def zeroCount : Text := "0".toList

/-- One round of the loop: the path it cuts out and the next `start`.  The difference
`end - start` is an `int` as well. -/
def scanStep (ext list : Text) (start : ℤ) : Text × ℤ :=
  let endPos := findInt ext list start.toNat
  (substr list start.toNat (int32 (endPos - start)) ++ ext, int32 (endPos + ext.length))

/-- The loop.  A negative `start` compared with `length()` is larger than it. -/
def scanLoop (ext list : Text) : ℕ → ℤ → MediaShelf → Option MediaShelf
  | 0, _, _ => none
  | fuel + 1, start, m =>
    if 0 ≤ start ∧ start < list.length then
      let (path, start') := scanStep ext list start
      scanLoop ext list fuel start' (m.addFile path)
    else some m

/-- The loop from the beginning of the text; nothing if it does not end. -/
def scan (ext list : Text) (m : MediaShelf) : Option MediaShelf :=
  scanLoop ext list (list.length + 1) 0 m

/-! ## Updating a list -/

namespace MediaShelf

/-- What `updateSongsList` and `updateVideosList` do to their shelf.  `count` and `list` are the
outputs of the two listing commands; the result is missing if the scan does not end. -/
def update (qt : Qt) (ext : Text) (mode : PlaybackMode) (flashStatus : FlashStatus)
    (usbPath count list : Text) (m : MediaShelf) : Option MediaShelf :=
  match flashStatus with
  | .noFlashDetected =>
    some { (if m.rows.length ≠ 0 then m.clear else m) with listed := none }
  | .flashDetected =>
    if count = zeroCount then
      some { m with listShown := false, zeroGroupShown := true, listed := some usbPath }
    else
      let m :=
        { m with zeroGroupShown := false, listShown := true, rows := [], listed := some usbPath }
      (scan ext list m).map fun m => (m.setPlaybackMode mode).setPlaylist qt

variable (m : MediaShelf)

/-! ## How the operations read -/

@[simp] theorem setCurrentIndex_rows (pos : ℤ) : (m.setCurrentIndex pos).rows = m.rows := rfl
@[simp] theorem setCurrentIndex_media (pos : ℤ) :
    (m.setCurrentIndex pos).playList.media = m.playList.media := by simp [setCurrentIndex]
@[simp] theorem setCurrentIndex_mode (pos : ℤ) :
    (m.setCurrentIndex pos).playList.playbackMode = m.playList.playbackMode := by
  simp [setCurrentIndex]
@[simp] theorem setCurrentIndex_hasPlaylist (pos : ℤ) :
    (m.setCurrentIndex pos).player.hasPlaylist = m.player.hasPlaylist := by
  simp [setCurrentIndex]
@[simp] theorem setCurrentIndex_listed (pos : ℤ) : (m.setCurrentIndex pos).listed = m.listed := rfl

theorem setCurrentIndex_currentIndex {pos : ℤ} (h : -1 ≤ pos ∧ pos < m.playList.media.length) :
    (m.setCurrentIndex pos).playList.currentIndex = pos :=
  m.playList.jump_currentIndex_of_lt h.1 h.2

@[simp] theorem play_rows : m.play.rows = m.rows := by
  rw [play]; split_ifs <;> rfl
@[simp] theorem play_media : m.play.playList.media = m.playList.media := by
  rw [play]; split_ifs <;> simp
@[simp] theorem play_mode : m.play.playList.playbackMode = m.playList.playbackMode := by
  rw [play]; split_ifs <;> simp
@[simp] theorem play_hasPlaylist : m.play.player.hasPlaylist = m.player.hasPlaylist := by
  rw [play]; split_ifs <;> simp
@[simp] theorem play_listed : m.play.listed = m.listed := by
  rw [play]; split_ifs <;> rfl

/-- With an entry to play, the player plays. -/
theorem play_playing (h : m.player.hasPlaylist = true) (hne : m.playList.media ≠ []) :
    m.play.player.playing = true := by
  rw [play, if_pos ⟨h, hne⟩]

/-- Without one, nothing happens. -/
theorem play_of_media_eq_nil (h : m.playList.media = []) : m.play = m := by
  rw [play, if_neg fun hc => hc.2 h]

/-- A current entry is kept. -/
theorem play_currentIndex (h : m.playList.currentIndex ≠ -1) :
    m.play.playList.currentIndex = m.playList.currentIndex := by
  rw [play]; split_ifs <;> rfl

@[simp] theorem setPlaylist_rows (qt : Qt) : (m.setPlaylist qt).rows = m.rows := by
  rw [setPlaylist]; split_ifs <;> rfl
@[simp] theorem setPlaylist_media (qt : Qt) :
    (m.setPlaylist qt).playList.media = m.playList.media := by
  rw [setPlaylist]; split_ifs <;> simp [stop]
@[simp] theorem setPlaylist_mode (qt : Qt) :
    (m.setPlaylist qt).playList.playbackMode = m.playList.playbackMode := by
  rw [setPlaylist]; split_ifs <;> simp [stop]
@[simp] theorem setPlaylist_hasPlaylist (qt : Qt) : (m.setPlaylist qt).player.hasPlaylist = true :=
  rfl
@[simp] theorem setPlaylist_listed (qt : Qt) : (m.setPlaylist qt).listed = m.listed := by
  rw [setPlaylist]; split_ifs <;> rfl

end MediaShelf
end Infotainment
