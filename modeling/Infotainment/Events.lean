import Infotainment.FlashStatus
import Infotainment.Bluetooth
import Infotainment.Library.EventSystem

/-!
# The program as an event system

Qt calls one slot at a time, so a run of the program is a sequence of events: ticks of the three
timers, clicks, and what the players do by themselves.  `step` dispatches an event to its slot.
The state of the machine, on which the commands of the flash poll act, is the second component.

Two machines share this step.  In `anyEvents` every event may occur at any time; a statement about
all its runs covers whatever the user and the players could do.  In `shownEvents` a click lands on
a button or a row of the page that is shown, as `mainscreen.ui` lays them out (`Button.page`), and a
medium ends only while its player is playing.  A third machine, `presses`, is for statements about
sequences of presses of a few buttons with nothing in between.

Three things an event carries are decided outside the program: how the machine answers the
commands of a poll, what `random` mode draws, and the position and duration the video backend
reports.
-/

namespace Infotainment

open EventSystem

/-- The buttons of `mainscreen.ui`. -/
inductive Button where
  | videoButton
  | musicButton
  | bluetoothButton
  | settingsButton
  | homeButtonVd
  | homeButtonMs
  | homeButtonBl
  | homeButtonSt
  | playButton
  | forwardButton
  | backwardButton
  | stopButton
  | repeatButton
  | shuffleButton
  | volumeDownButton
  | volumeUpButton
  | playVideoButton
  | forwardVideoButton
  | backwardVideoButton
  | stopVideoButton
  | volumeDownVideoButton
  | volumeUpVideoButton
  | goTovideosListButton
  | darkThemeButton
  | setTimeDateButton
  | doneTimeDateButton
  | cancelTimeDateButton
  deriving DecidableEq

/-- The page of `pagesSwitch` that `mainscreen.ui` places the button on. -/
def Button.page : Button → Page
  | videoButton | musicButton | bluetoothButton | settingsButton => .home
  | homeButtonVd => .video
  | homeButtonMs | playButton | forwardButton | backwardButton | stopButton | repeatButton
  | shuffleButton | volumeDownButton | volumeUpButton => .music
  | homeButtonBl => .bluetooth
  | homeButtonSt | darkThemeButton | setTimeDateButton | doneTimeDateButton
  | cancelTimeDateButton => .settings
  | playVideoButton | forwardVideoButton | backwardVideoButton | stopVideoButton
  | volumeDownVideoButton | volumeUpVideoButton | goTovideosListButton => .videoShow

/-- The slot connected to the button.  `pick` is what `random` mode draws. -/
def State.press (s : State) (pick : ℕ) : Button → Except Fault State
  | .videoButton => .ok s.onVideoButtonClicked
  | .musicButton => .ok s.onMusicButtonClicked
  | .bluetoothButton => .ok s.onBluetoothButtonClicked
  | .settingsButton => .ok s.onSettingsButtonClicked
  | .homeButtonVd | .homeButtonMs | .homeButtonBl | .homeButtonSt => .ok s.goBackHome
  | .playButton => s.onPlayButtonClicked
  | .forwardButton => s.onForwardButtonClicked pick
  | .backwardButton => s.onBackwardButtonClicked pick
  | .stopButton => .ok s.onStopButtonClicked
  | .repeatButton => .ok s.onRepeatButtonClicked
  | .shuffleButton => .ok s.onShuffleButtonClicked
  | .volumeDownButton => .ok s.onVolumeDownButtonClicked
  | .volumeUpButton => .ok s.onVolumeUpButtonClicked
  | .playVideoButton => .ok s.onPlayVideoButtonClicked
  | .forwardVideoButton => .ok s.onForwardVideoButtonClicked
  | .backwardVideoButton => .ok s.onBackwardVideoButtonClicked
  | .stopVideoButton => .ok s.onStopVideoButtonClicked
  | .volumeDownVideoButton => .ok s.onVolumeDownVideoButtonClicked
  | .volumeUpVideoButton => .ok s.onVolumeUpVideoButtonClicked
  | .goTovideosListButton => .ok s.onGoToVideosListButtonClicked
  | .darkThemeButton => .ok s.onDarkThemeButtonClicked
  | .setTimeDateButton => .ok s.onSetTimeDateButtonClicked
  | .doneTimeDateButton => .ok s.onDoneTimeDateButtonClicked
  | .cancelTimeDateButton => .ok s.onCancelTimeDateButtonClicked

/-- What can happen to the program. -/
inductive Event (W : Type) where
  /-- `flashDetectionTimer`, with the machine's answers. -/
  | poll (sh : Shell W)
  /-- `timer`, with the clock's date and time. -/
  | clock (date time : Text)
  /-- `bluetoothDetectionTimer`, with the machine's answers. -/
  | bluetooth (sh : Shell W)
  | click (b : Button) (pick : ℕ)
  /-- A click on a row of `runningSongsList`. -/
  | songRow (i : ℕ)
  /-- A click on a row of `runningVideosList`. -/
  | videoRow (i : ℕ)
  /-- The song comes to its natural end and the player moves on. -/
  | songEnd (pick : ℕ)
  /-- The video comes to its natural end and the player moves on. -/
  | videoEnd
  /-- The video backend reports how far the video is. -/
  | videoProgress (position duration : Int64)

variable {W : Type}

namespace Event

/-- The event is asked this if it is a flash poll, and nothing if it is not. -/
@[simp] def OnPoll (asked : Shell W → Prop) : Event W → Prop
  | .poll sh => asked sh
  | _ => True

instance (asked : Shell W → Prop) [∀ sh, Decidable (asked sh)] :
    ∀ e : Event W, Decidable (e.OnPoll asked)
  | .poll sh => inferInstanceAs (Decidable (asked sh))
  | .clock .. | .bluetooth .. | .click .. | .songRow .. | .videoRow .. | .songEnd .. | .videoEnd
  | .videoProgress .. => inferInstanceAs (Decidable True)

theorem onPoll_of_ne {e : Event W} (he : ∀ sh, e ≠ .poll sh) (asked : Shell W → Prop) :
    e.OnPoll asked := by
  cases e with
  | poll sh => exact absurd rfl (he sh)
  | _ => trivial

theorem OnPoll.mono {e : Event W} {asked asked' : Shell W → Prop} (h : e.OnPoll asked)
    (himp : ∀ sh, asked sh → asked' sh) : e.OnPoll asked' := by
  cases e with
  | poll sh => exact himp sh h
  | _ => trivial

/-- The button that is clicked, if one is. -/
def clicked : Event W → Option Button
  | .click b _ => some b
  | _ => none

/-- A song comes to its end. -/
def isSongEnd : Event W → Bool
  | .songEnd _ => true
  | _ => false

end Event

namespace State

variable (s : State)

/-- The video player moves its playlist on; no slot is connected to that. -/
def videoEnded : State := { s with videos := s.videos.next 0 }

def videoProgressed (position duration : Int64) : State :=
  { s with
    videos :=
      { s.videos with
        player := { s.videos.player with position := position, duration := duration } } }

end State

/-- The events other than the flash poll do not touch the machine. -/
def uiStep (s : State) : Event W → Except Fault State
  | .poll _ => .ok s
  | .clock date time => .ok (s.updateTime date time)
  | .bluetooth sh => .ok (s.updatBluetoothDevices sh)
  | .click b pick => s.press pick b
  | .songRow i => s.onSongListItemClicked i
  | .videoRow i => s.onVideoListItemClicked i
  | .songEnd pick => s.moveSongs (·.next pick)
  | .videoEnd => .ok s.videoEnded
  | .videoProgress position duration => .ok (s.videoProgressed position duration)

/-- The effect of an event. -/
def step (qt : Qt) : Event W → State × W → Except Fault (State × W)
  | .poll sh, c => c.1.updateFlashStatus qt sh c.2
  | e, c => (uiStep c.1 e).map (·, c.2)

/-- The event is possible in front of the screen: clicks land on what is shown, and only a medium
that plays can end. -/
def Shown : Event W → State → Prop
  | .click b _, s => s.pagesSwitch = b.page
  | .songRow i, s => s.pagesSwitch = .music ∧ i < s.songs.rows.length
  | .videoRow i, s => s.pagesSwitch = .video ∧ i < s.videos.rows.length
  | .songEnd _, s => s.songs.player.playing = true
  | .videoEnd, s => s.videos.player.playing = true
  | _, _ => True

instance (s : State) : ∀ e : Event W, Decidable (Shown e s)
  | .click _ _ => inferInstanceAs (Decidable (_ = _))
  | .songRow _ => inferInstanceAs (Decidable (_ ∧ _))
  | .videoRow _ => inferInstanceAs (Decidable (_ ∧ _))
  | .songEnd _ => inferInstanceAs (Decidable (_ = _))
  | .videoEnd => inferInstanceAs (Decidable (_ = _))
  | .poll .. | .clock .. | .bluetooth .. | .videoProgress .. => inferInstanceAs (Decidable True)

/-- The program, with events in any order whatever. -/
def anyEvents (qt : Qt) (W : Type) : Machine (State × W) (Event W) Fault where
  start c := c.1 = startup
  enabled _ _ := True
  step := step qt

/-- The program in front of its screen. -/
def shownEvents (qt : Qt) (W : Type) : Machine (State × W) (Event W) Fault where
  start c := c.1 = startup
  enabled e c := Shown e c.1
  step := step qt

/-- Nothing but presses of certain buttons, from certain states. -/
def presses {ι : Type} (button : ι → Button) (start : State → Prop) : Machine State ι Fault where
  start := start
  enabled _ _ := True
  step i s := s.press 0 (button i)

instance {ι : Type} (button : ι → Button) (start : State → Prop) (i : ι) (s : State) :
    Decidable ((presses button start).enabled i s) :=
  inferInstanceAs (Decidable True)

instance (qt : Qt) (e : Event W) (c : State × W) : Decidable ((anyEvents qt W).enabled e c) :=
  inferInstanceAs (Decidable True)

instance (qt : Qt) (e : Event W) (c : State × W) : Decidable ((shownEvents qt W).enabled e c) :=
  inferInstanceAs (Decidable (Shown e c.1))

/-- A run in front of the screen is a run. -/
theorem history_any_of_shown {qt : Qt} {l : List (Transition (State × W) (Event W))}
    {c : State × W} (h : (shownEvents qt W).History l c) : (anyEvents qt W).History l c :=
  Machine.History.mono (M := shownEvents qt W) (N := anyEvents qt W) (fun _ hs => hs)
    (fun _ hx => ⟨trivial, hx.2⟩) h

end Infotainment
