import Infotainment.Frame
import Infotainment.PollReturns

/-!
# Polling twice

The flash poll runs on a timer without an interval, so as long as nothing changes outside it should
reach its result at once and stay there.  After any poll `flashStatus` says whether there is a
stick (`PollOutcome.flashStatus_iff`), so the next one takes one of the two quiet branches: it runs
no command and touches no list.

What it may still change are the groups.  The branch for a removed stick shows the page without a
stick for the music and forgets the video; the branch for no stick, which the next poll takes, does
both.  So the first poll after a removal is not final, and `poll_twice_iff` says that every other
one is, provided that it returns at all.

To speak of commands at all, the machine is given a log of those it was asked to run.
-/

namespace Infotainment

open EventSystem MediaShelf

variable {W : Type} {qt : Qt}

/-- A machine that keeps a log of the commands it runs. -/
def Shell.logged (sh : Shell W) : Shell (W × List Command) where
  popen := sh.popen
  system cmd w := ((sh.system cmd w.1).1, (sh.system cmd w.1).2, w.2 ++ [cmd])

/-- Which device a poll sees only depends on what the machine prints. -/
theorem devicesConnected_congr {W' : Type} {sh : Shell W} {sh' : Shell W'}
    (h : sh.popen = sh'.popen) : devicesConnected sh = devicesConnected sh' := by
  have hout : ∀ cmd, getStdoutFromCommand sh cmd = getStdoutFromCommand sh' cmd := by
    intro cmd
    rw [getStdoutFromCommand, getStdoutFromCommand, h]
  have hloop : ∀ devices fuel start,
      extractUsbLoop sh devices fuel start = extractUsbLoop sh' devices fuel start := by
    intro devices fuel
    induction fuel with
    | zero => exact fun _ => rfl
    | succ fuel ih =>
      intro start
      simp only [extractUsbLoop, hout, ih]
  rw [devicesConnected, devicesConnected, hout, extractUsb, extractUsb, hloop]

theorem devicesConnected_logged (sh : Shell W) : devicesConnected sh.logged = devicesConnected sh :=
  devicesConnected_congr rfl

/-- Nor does it depend on the log whether a poll returns. -/
theorem getsThrough_logged {sh : Shell W} {s : State} :
    GetsThrough qt sh.logged s ↔ GetsThrough qt sh s := by
  have hout : ∀ cmd, getStdoutFromCommand sh.logged cmd = getStdoutFromCommand sh cmd :=
    fun _ => rfl
  simp only [GetsThrough, FindsNewStick, ScanHangs, RewindsToNoRow, CountsFiles, foundFiles,
    devicesConnected_logged, hout]

/-! ## What a poll is compared by -/

/-- What the program knows of the stick, what it lists, and which groups it shows. -/
@[ext] structure PollView where
  flashStatus : FlashStatus
  usbName : Text
  usbPath : Text
  songRows : List Text
  songs : QMediaPlaylist
  videoRows : List Text
  videos : QMediaPlaylist
  noFlashGroupMusic : Bool
  noFlashGroupVideo : Bool
  runningMusicGroup : Bool
  runningVideoGroup : Bool
  currentRunningMediaGroup : Bool

namespace State

def pollView (s : State) : PollView where
  flashStatus := s.flashStatus
  usbName := s.usbName
  usbPath := s.usbPath
  songRows := s.songs.rows
  songs := s.songs.playList
  videoRows := s.videos.rows
  videos := s.videos.playList
  noFlashGroupMusic := s.ui.noFlashGroupMusic
  noFlashGroupVideo := s.ui.noFlashGroupVideo
  runningMusicGroup := s.ui.runningMusicGroup
  runningVideoGroup := s.ui.runningVideoGroup
  currentRunningMediaGroup := s.ui.currentRunningMediaGroup

/-! ## The quiet branches -/

variable {s : State} {sh : Shell W}

@[simp] theorem showMediaBar_showMediaBar (s : State) :
    s.showMediaBar.showMediaBar = s.showMediaBar := by
  cases hsong : s.playingSongFlag <;> cases hvideo : s.playingVideoFlag <;>
    simp [showMediaBar, hsong, hvideo]

@[simp] theorem showMediaBar_noUsb (s : State) : s.showMediaBar.noUsb = s.noUsb.showMediaBar := by
  cases hsong : s.playingSongFlag <;> cases hvideo : s.playingVideoFlag <;>
    simp [showMediaBar, noUsb, hsong, hvideo]

@[simp] theorem noUsb_noUsb (s : State) : s.noUsb.noUsb = s.noUsb := rfl

theorem updateFlashStatus_of_usb (hdev : devicesConnected sh ≠ [])
    (hflash : s.flashStatus = .flashDetected) (w : W) :
    s.updateFlashStatus qt sh w = .ok (s.showMediaBar, w) := by
  simp [updateFlashStatus, followUsb, hdev, hflash, Except.map]

theorem updateFlashStatus_of_no_usb (hdev : devicesConnected sh = [])
    (hflash : s.flashStatus = .noFlashDetected) (w : W) :
    s.updateFlashStatus qt sh w = .ok (s.noUsb.showMediaBar, w) := by
  simp [updateFlashStatus, followUsb, hdev, hflash, Except.map]

end State

variable {s s' : State}

/-- After a poll, `flashStatus` is what the poll saw. -/
theorem PollOutcome.flashStatus_iff {sh : Shell W} {w : W} {c : State × W}
    (h : PollOutcome qt sh s w c) :
    c.1.flashStatus = .flashDetected ↔ devicesConnected sh ≠ [] := by
  cases h with
  | inserted m v text hdev => simp [hdev, State.withUsb]
  | removed m v text hdev => simp [hdev, State.withoutUsb]
  | notDetached hdev => simp [hdev]
  | noUsb hdev hflash => simp [hdev, hflash, State.noUsb]
  | unchanged hdev hflash => simp [hdev, hflash]

/-- The second poll runs no command and redraws. -/
theorem PollOutcome.second_poll {sh : Shell W} {w : W} {c : State × W}
    (h : PollOutcome qt sh s w c) :
    c.1.updateFlashStatus qt sh c.2 =
      .ok (if devicesConnected sh = [] then c.1.noUsb.showMediaBar else c.1.showMediaBar, c.2) := by
  have hflash := h.flashStatus_iff
  by_cases hdev : devicesConnected sh = []
  · rw [if_pos hdev]
    refine State.updateFlashStatus_of_no_usb hdev ?_ c.2
    cases hc : c.1.flashStatus with
    | noFlashDetected => rfl
    | flashDetected => exact absurd hdev (hflash.mp hc)
  · rw [if_neg hdev]
    exact State.updateFlashStatus_of_usb hdev (hflash.mpr hdev) c.2

/-! ## The groups of the video page -/

/-- While a stick is known, the video page shows its list. -/
def VideoGroupShown (s : State) : Prop :=
  s.flashStatus = .flashDetected → s.flashGroups.runningVideoGroup = true

theorem PollOutcome.videoGroupShown {sh : Shell W} {w : W} {c : State × W}
    (h : PollOutcome qt sh s w c) (hs : VideoGroupShown s) : VideoGroupShown c.1 := by
  intro hflash
  have hdev := h.flashStatus_iff.mp hflash
  cases h with
  | inserted =>
    rw [(SameFrame.showMediaBar _).flashGroups]
    rfl
  | removed m v text hnone => exact absurd hnone hdev
  | notDetached hnone => exact absurd hnone hdev
  | noUsb hnone => exact absurd hnone hdev
  | unchanged _ hdetected =>
    rw [(SameFrame.showMediaBar _).flashGroups]
    exact hs hdetected

theorem videoGroupShown_of_history {l : List (Transition (State × W) (Event W))} {c : State × W}
    (h : (anyEvents qt W).History l c) : VideoGroupShown c.1 := by
  refine h.invariant (I := fun c' => VideoGroupShown c'.1) ?_ ?_
  · exact fun c' hc' hflash => absurd (hc' ▸ hflash : startup.flashStatus = _) (by decide)
  · intro x hx hI
    rcases step_cases hx.2 with ⟨sh, -, hpoll⟩ | ⟨-, hui, -⟩
    · exact hpoll.videoGroupShown hI
    · intro hflash
      rw [(uiStep_effect _ hui).flashStatus] at hflash
      rw [(uiStep_frame hui).1]
      exact hI hflash

/-! ## Two polls -/

/-- The poll returns, and a second one under the same circumstances returns as well, leaves the
program as it is, and runs no command. -/
def PollIsFinal (qt : Qt) (sh : Shell W) (c : State × W × List Command) : Prop :=
  ∃ c₁, c.1.updateFlashStatus qt sh.logged c.2 = .ok c₁ ∧
    ∃ c₂, c₁.1.updateFlashStatus qt sh.logged c₁.2 = .ok c₂ ∧
      c₂.1.pollView = c₁.1.pollView ∧ c₂.2.2 = c₁.2.2

/-- Every poll redraws the media bar last. -/
theorem PollOutcome.showMediaBar_eq {sh : Shell W} {w : W} {c : State × W}
    (h : PollOutcome qt sh s w c) : c.1.showMediaBar = c.1 := by
  cases h <;> exact State.showMediaBar_showMediaBar _

/-- The removal of a stick leaves the video page as it was. -/
theorem PollOutcome.runningVideoGroup_of_gone {sh : Shell W} {w : W} {c : State × W}
    (h : PollOutcome qt sh s w c) (hgone : FindsStickGone sh s) :
    c.1.flashGroups.runningVideoGroup = s.flashGroups.runningVideoGroup := by
  obtain ⟨hdev, hflash⟩ := hgone
  cases h with
  | inserted m v text hne => exact absurd hdev hne
  | removed =>
    rw [(SameFrame.showMediaBar _).flashGroups]
    rfl
  | notDetached =>
    rw [(SameFrame.showMediaBar _).flashGroups]
    rfl
  | noUsb _ hnone => exact absurd (hflash.symm.trans hnone) (by decide)
  | unchanged hne => exact absurd hdev hne

/-- **Which polls are final.**  From every state a run can reach, on any machine, a poll is final
exactly when it gets through and does not find the stick gone. -/
theorem poll_twice_iff
    {l : List (Transition (State × W × List Command) (Event (W × List Command)))}
    {c : State × W × List Command} (h : (anyEvents qt (W × List Command)).History l c)
    (sh : Shell W) :
    PollIsFinal qt sh c ↔ ¬ FindsStickGone sh c.1 ∧ GetsThrough qt sh c.1 := by
  have hdevices := devicesConnected_logged sh
  have hreturns : (∃ c', c.1.updateFlashStatus qt sh.logged c.2 = .ok c') ↔
      GetsThrough qt sh c.1 :=
    State.poll_returns_iff.trans getsThrough_logged
  constructor
  · rintro ⟨c₁, hc₁, c₂, hc₂, hview, -⟩
    refine ⟨?_, hreturns.mp ⟨c₁, hc₁⟩⟩
    rintro ⟨hdev, hflash⟩
    have hgone : FindsStickGone sh.logged c.1 := ⟨hdevices.trans hdev, hflash⟩
    have houtcome := poll_outcome hc₁
    rw [houtcome.second_poll, if_pos hgone.1, Except.ok.injEq] at hc₂
    -- the group is still shown after the first poll, and hidden after the second
    have hshown := (houtcome.runningVideoGroup_of_gone hgone).trans
      (videoGroupShown_of_history h hflash)
    have hhidden : c₂.1.flashGroups.runningVideoGroup = false := by
      rw [← hc₂, (SameFrame.showMediaBar _).flashGroups]
      rfl
    have hsame : c₂.1.flashGroups.runningVideoGroup = c₁.1.flashGroups.runningVideoGroup :=
      congrArg PollView.runningVideoGroup hview
    rw [hhidden, hshown] at hsame
    exact absurd hsame (by decide)
  · rintro ⟨hstays, hthrough⟩
    obtain ⟨c₁, hc₁⟩ := hreturns.mpr hthrough
    have houtcome := poll_outcome hc₁
    refine ⟨c₁, hc₁, _, houtcome.second_poll, ?_, rfl⟩
    by_cases hdev : devicesConnected sh.logged = []
    · rw [if_pos hdev]
      -- there was no stick before, so the first poll has done the same
      cases houtcome with
      | noUsb => simp
      | inserted m v text hne => exact absurd hdev hne
      | removed m v text _ hflash => exact absurd ⟨hdevices ▸ hdev, hflash⟩ hstays
      | notDetached _ hflash => exact absurd ⟨hdevices ▸ hdev, hflash⟩ hstays
      | unchanged hne => exact absurd hdev hne
    · rw [if_neg hdev, houtcome.showMediaBar_eq]

/-- Listing a stick is final. -/
theorem poll_twice_after_insertion :
    PollIsFinal ⟨false⟩ (stickShell "sda1".toList ["a.mp3".toList] ["b.mp4".toList] 0)
      (startup, (), []) := by
  have h : (anyEvents ⟨false⟩ (Unit × List Command)).History [] (startup, (), []) :=
    .start (show startup = startup from rfl)
  have hends : ∀ ext ∈ [songsExt, videosExt],
      (foundFiles (stickShell "sda1".toList ["a.mp3".toList] ["b.mp4".toList] 0) ext).length <
          2 ^ 31 ∧
        ext <:+ foundFiles (stickShell "sda1".toList ["a.mp3".toList] ["b.mp4".toList] 0) ext := by
    decide +kernel
  refine (poll_twice_iff h _).mpr ⟨by decide +kernel, fun _ => ⟨?_, ?_, by decide +kernel⟩⟩
  · exact fun hhangs => hhangs.2 (Or.inr (Or.inl (hends songsExt (by simp))))
  · exact fun hhangs => hhangs.2 (Or.inr (Or.inl (hends videosExt (by simp))))

/-- Finding a stick gone is not, whether it can be unmounted or not. -/
theorem poll_twice_after_removal :
    ¬ ∃ qt : Qt, ∀ l c, (anyEvents qt (Unit × List Command)).History l c →
      ∀ sh : Shell Unit, PollIsFinal qt sh c := by
  rintro ⟨⟨rewinds⟩, hall⟩
  obtain ⟨l, c, hl, -, hp⟩ := Machine.exists_history_of_replay
    (M := anyEvents ⟨rewinds⟩ (Unit × List Command)) (s := (startup, (), [])) rfl
    [.poll (stickShell "sda1".toList ["a.mp3".toList] [] 0).logged]
    (fun _ c => match c.1.updateFlashStatus ⟨rewinds⟩ (stickShell [] [] [] 0).logged c.2 with
      | .ok c₁ =>
        match c₁.1.updateFlashStatus ⟨rewinds⟩ (stickShell [] [] [] 0).logged c₁.2 with
        | .ok c₂ => c₂.1.ui.runningVideoGroup != c₁.1.ui.runningVideoGroup
        | .error _ => false
      | .error _ => false) (by cases rewinds <;> decide +kernel)
  obtain ⟨c₁, hc₁, c₂, hc₂, hview, -⟩ := hall l c hl (stickShell [] [] [] 0)
  simp only [hc₁, hc₂, bne_iff_ne] at hp
  exact hp (congrArg PollView.runningVideoGroup hview)

end Infotainment
