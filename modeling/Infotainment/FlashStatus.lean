import Infotainment.MainScreen
import Infotainment.SystemInterface

/-!
# Watching for a stick

`updateFlashStatus` runs on a timer with no interval.  It asks which block devices there are,
picks the first that udev calls a usb device, and compares *whether there is one* with
`flashStatus`.

* A device where there was none: it is mounted --- with a second attempt if the first fails ---
  and both lists are filled (`usbInserted`).
* No device where there was one: it is unmounted and its directory removed, and if both succeed the
  lists are cleared (`usbRemoved`).
* No device, and none before: the pages say so (`noUsb`).
* A device where there was one already: nothing, whatever its name.

Then the media bar is redrawn from the two playing flags.  The state of the machine, on which the
commands act, is passed along.
-/

namespace Infotainment

variable {W : Type}

/-- `devNameLen` -/
def devNameLen : ℕ := 4

/-- The loop of `extractUsb`: names are taken to be four characters long.  The loop cannot go
round more often than there are characters, which is the fuel it gets. -/
def extractUsbLoop (sh : Shell W) (devices : Text) : ℕ → ℤ → Text
  | 0, _ => []
  | fuel + 1, start =>
    if 0 ≤ start ∧ start < devices.length then
      let dev := substr devices start.toNat devNameLen
      if getStdoutFromCommand sh (.udevadm dev) ≠ [] then dev
      else extractUsbLoop sh devices fuel (int32 (start + devNameLen))
    else []

/-- `extractUsb` -/
def extractUsb (sh : Shell W) (devices : Text) : Text :=
  extractUsbLoop sh devices (devices.length + 1) 0

/-- The device a poll sees: the listing, put through `extractUsb`. -/
def devicesConnected (sh : Shell W) : Text :=
  extractUsb sh (getStdoutFromCommand sh .listDevices)

/-- `"/media/" + usbName` -/
def mountPoint (usbName : Text) : Text := "/media/".toList ++ usbName

/-- `"/media/" + usbName + "/"` -/
def usbPathOf (usbName : Text) : Text := mountPoint usbName ++ "/".toList

/-! ## Mounting -/

/-- `mountUSB` -/
def mountUSB (sh : Shell W) (usbName : Text) (w : W) : ℤ × W :=
  sh.system (.mount ("/dev/".toList ++ usbName) (mountPoint usbName)) w

/-- `unmountUSB`: by force if it does not work otherwise. -/
def unmountUSB (sh : Shell W) (usbName : Text) (w : W) : ℤ × W :=
  let (systemStatus, w) := sh.system (.umount (mountPoint usbName)) w
  if systemStatus ≠ commandSucceded then sh.system (.umountLazy (mountPoint usbName)) w
  else (systemStatus, w)

/-- The commands of the insertion branch. -/
def attachUsb (sh : Shell W) (usbName : Text) (w : W) : W :=
  let (_, w) := sh.system (.mkdir (mountPoint usbName)) w
  let (systemStatus, w) := mountUSB sh usbName w
  if systemStatus ≠ commandSucceded then
    let (_, w) := unmountUSB sh usbName w
    let (_, w) := sh.system (.rmdir (mountPoint usbName)) w
    (mountUSB sh usbName w).2
  else w

/-- The commands of the removal branch, and whether all of them succeeded. -/
def detachUsb (sh : Shell W) (usbName : Text) (w : W) : Bool × W :=
  let (systemStatus, w) := unmountUSB sh usbName w
  if systemStatus = commandSucceded then
    let (systemStatus, w) := sh.system (.rmdir (mountPoint usbName)) w
    (systemStatus = commandSucceded, w)
  else (false, w)

/-! ## The lists -/

/-- What `updateSongsList` and `updateVideosList` have in common: one directory is asked about
twice, and remembered. -/
def MediaShelf.updateList (m : MediaShelf) (qt : Qt) (sh : Shell W) (ext : Text)
    (mode : PlaybackMode) (flashStatus : FlashStatus) (usbPath : Text) : Option MediaShelf :=
  m.update qt ext mode flashStatus usbPath (getStdoutFromCommand sh (.countFiles usbPath ext))
    (getStdoutFromCommand sh (.findFiles usbPath ext))

namespace State

variable (s : State)

/-- The song list after `updateSongsList`; nothing if its scan does not end. -/
def songsUpdate (qt : Qt) (sh : Shell W) : Option MediaShelf :=
  s.songs.updateList qt sh songsExt .sequential s.flashStatus s.usbPath

/-- `updateSongsList` -/
def updateSongsList (qt : Qt) (sh : Shell W) : Except Fault State :=
  match s.songsUpdate qt sh with
  | none => .error .hang
  | some shelf => s.moveSongs fun _ => shelf

/-- The video list after `updateVideosList`; nothing if its scan does not end. -/
def videosUpdate (qt : Qt) (sh : Shell W) : Option MediaShelf :=
  s.videos.updateList qt sh videosExt .currentItemOnce s.flashStatus s.usbPath

/-- `updateVideosList` -/
def updateVideosList (qt : Qt) (sh : Shell W) : Except Fault State :=
  match s.videosUpdate qt sh with
  | none => .error .hang
  | some shelf => .ok { s with videos := shelf }

/-- Both lists, as either branch updates them. -/
def updateLists (qt : Qt) (sh : Shell W) : Except Fault State :=
  (s.updateSongsList qt sh).bind fun s => s.updateVideosList qt sh

/-! ## The poll -/

/-- The state in which the insertion branch updates the lists: the new name, and the groups. -/
def withUsb (usbName : Text) : State :=
  { s with
    flashStatus := .flashDetected
    usbName := usbName
    usbPath := usbPathOf usbName
    ui.noFlashGroupMusic := false
    ui.noFlashGroupVideo := false
    ui.runningMusicGroup := true
    ui.runningVideoGroup := true }

/-- The insertion branch. -/
def usbInserted (qt : Qt) (sh : Shell W) (usbName : Text) (w : W) : Except Fault (State × W) :=
  ((s.withUsb usbName).updateLists qt sh).map (·, attachUsb sh usbName w)

/-- The state in which the removal branch updates the lists. -/
def withoutUsb : State :=
  { s with
    flashStatus := .noFlashDetected
    ui.runningMusicGroup := false
    ui.noFlashGroupMusic := true }

/-- The removal branch. -/
def usbRemoved (qt : Qt) (sh : Shell W) (w : W) : Except Fault (State × W) :=
  let (succeeded, w) := detachUsb sh s.usbName w
  if succeeded = true then (s.withoutUsb.updateLists qt sh).map (·, w)
  else .ok ({ s with flashStatus := .noFlashDetected }, w)

/-- The branch taken while there is no device. -/
def noUsb : State :=
  { s with
    ui.runningMusicGroup := false
    ui.runningVideoGroup := false
    ui.noFlashGroupMusic := true
    ui.noFlashGroupVideo := true }

/-- The media bar, redrawn from the flags. -/
def showMediaBar : State :=
  if s.playingSongFlag = true then
    { s with ui.currentRunningMediaGroup := true, ui.runningMediaLabel := some .music }
  else if s.playingVideoFlag = true then
    { s with ui.currentRunningMediaGroup := true, ui.runningMediaLabel := some .video }
  else { s with ui.currentRunningMediaGroup := false }

/-- The part of `updateFlashStatus` before the media bar. -/
def followUsb (qt : Qt) (sh : Shell W) (w : W) : Except Fault (State × W) :=
  let dev := devicesConnected sh
  if dev ≠ [] ∧ s.flashStatus = .noFlashDetected then s.usbInserted qt sh dev w
  else if dev = [] ∧ s.flashStatus = .flashDetected then s.usbRemoved qt sh w
  else if dev = [] ∧ s.flashStatus = .noFlashDetected then .ok (s.noUsb, w)
  else .ok (s, w)

/-- `updateFlashStatus` -/
def updateFlashStatus (qt : Qt) (sh : Shell W) (w : W) : Except Fault (State × W) :=
  (s.followUsb qt sh w).map fun c => (c.1.showMediaBar, c.2)

end State
end Infotainment
