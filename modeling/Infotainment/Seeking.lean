import Infotainment.Events

/-!
# Seeking in a video

Forward and backward move the position of the video by `videoStep`.  Backward stops at the front.
Forward, where the step would reach the end, reloads the video instead and pauses it, which leaves
it at the front as well.

A video is loaded and nothing but the two buttons is pressed (`seekPresses`); the playback does not
progress in between.  Position and duration are 64-bit integers, and forward adds the step before it
compares.  As long as that sum fits, `forward_spec` and `backward_spec` say what one press does to a
loaded video, and everything else follows from these.  It fits at all positions of a video exactly
if the video is at least one step shorter than the longest there can be; in a longer one, forward
from the end leads in front of the beginning (`seeks_within_iff`).
-/

namespace Infotainment

open EventSystem

/-- A press of one of the two buttons. -/
inductive Seek where
  | forward
  | backward
  deriving DecidableEq

/-- The button that is pressed. -/
def Seek.button : Seek → Button
  | .forward => .forwardVideoButton
  | .backward => .backwardVideoButton

namespace State

/-- Where the video is, as a number. -/
def videoPosition (s : State) : ℤ := s.videos.player.position.toInt

/-- A video of this duration is loaded, and its position is inside it. -/
structure VideoLoaded (s : State) (duration : Int64) : Prop where
  hasPlaylist : s.videos.player.hasPlaylist = true
  duration_eq : s.videos.player.duration = duration
  nonneg : 0 ≤ s.videoPosition
  lt : s.videoPosition < duration.toInt

/-- The step would reach the end of the video. -/
def OvershootsEnd (s : State) (duration : Int64) : Prop :=
  duration.toInt ≤ s.videoPosition + videoStep.toInt

instance (s : State) (duration : Int64) : Decidable (s.OvershootsEnd duration) :=
  inferInstanceAs (Decidable (_ ≤ _))

end State

/-! ## Steps that fit -/

/-- A step forward from any position of the video fits. -/
def StepsFit (duration : Int64) : Prop := duration.toInt ≤ 2 ^ 63 - videoStep.toInt

theorem toInt_videoStep : videoStep.toInt = 10000 := rfl

theorem toInt_add_videoStep {p : Int64} (h : p.toInt + videoStep.toInt < 2 ^ 63) :
    (p + videoStep).toInt = p.toInt + videoStep.toInt := by
  have hlow := p.le_toInt
  rw [toInt_videoStep] at h ⊢
  rw [Int64.toInt_add, toInt_videoStep]
  exact Int.bmod_eq_of_le (by omega) (by omega)

/-- A sum that does not fit is negative. -/
theorem toInt_add_videoStep_neg {p : Int64} (h : 2 ^ 63 ≤ p.toInt + videoStep.toInt) :
    (p + videoStep).toInt < 0 := by
  have hhigh := p.toInt_lt
  rw [toInt_videoStep] at h
  rw [Int64.toInt_add, toInt_videoStep, Int.bmod_def]
  omega

theorem toInt_sub_videoStep {p : Int64} (h : 0 ≤ p.toInt) :
    (p - videoStep).toInt = p.toInt - videoStep.toInt := by
  have hhigh := p.toInt_lt
  rw [Int64.toInt_sub, toInt_videoStep]
  exact Int.bmod_eq_of_le (by omega) (by omega)

/-! ## One press -/

namespace State

variable {s s' : State} {duration : Int64}

/-- Forward: a step, or back to the front and paused where the step would reach the end. -/
theorem forward_spec (hfit : StepsFit duration) (hs : s.VideoLoaded duration) :
    s.onForwardVideoButtonClicked.VideoLoaded duration ∧
      (¬ s.OvershootsEnd duration →
        s.onForwardVideoButtonClicked.videoPosition = s.videoPosition + videoStep.toInt ∧
          s.onForwardVideoButtonClicked.playingVideoFlag = s.playingVideoFlag) ∧
      (s.OvershootsEnd duration → s.onForwardVideoButtonClicked.videoPosition = 0 ∧
        s.onForwardVideoButtonClicked.playingVideoFlag = false) := by
  obtain ⟨hlist, rfl, h0, hlt⟩ := hs
  have hsum : (s.videos.player.position + videoStep).toInt =
      s.videoPosition + videoStep.toInt := by
    refine toInt_add_videoStep ?_
    rw [StepsFit] at hfit
    exact lt_of_lt_of_le (Int.add_lt_add_right hlt _) (by omega)
  have htest : s.videos.player.position + videoStep ≥ s.videos.player.duration ↔
      s.OvershootsEnd s.videos.player.duration := by
    rw [ge_iff_le, Int64.le_iff_toInt_le, hsum, OvershootsEnd]
  simp only [onForwardVideoButtonClicked, htest]
  split_ifs with hend
  · -- the video is reloaded
    have hload : s.reloadVideo.stopVideo.videos.player =
        { s.videos.player with playing := false, position := 0 } := by
      simp [reloadVideo, stopVideo, MediaShelf.setCurrentIndex, MediaShelf.pause,
        QMediaPlayer.load, QMediaPlayer.pause, hlist]
    have hfront : s.reloadVideo.stopVideo.videoPosition = 0 := by
      rw [videoPosition, hload]
      exact Int64.toInt_zero
    refine ⟨⟨?_, ?_, ?_, ?_⟩, fun hno => absurd hend hno, fun _ => ⟨hfront, rfl⟩⟩
    · rw [hload]
      exact hlist
    · rw [hload]
    · exact hfront.ge
    · rw [hfront]
      exact lt_of_le_of_lt h0 hlt
  · generalize s.videos.player.position + videoStep = pos at hsum
    have hpos : (s.setVideoPosition pos).videoPosition = s.videoPosition + videoStep.toInt := hsum
    refine ⟨⟨hlist, rfl, ?_, ?_⟩, fun _ => ⟨hpos, rfl⟩, fun h => absurd h hend⟩
    · rw [hpos, toInt_videoStep]
      omega
    · rw [hpos]
      exact not_le.mp hend

/-- Backward: a step, but not past the front. -/
theorem backward_spec (hs : s.VideoLoaded duration) :
    s.onBackwardVideoButtonClicked.VideoLoaded duration ∧
      s.onBackwardVideoButtonClicked.videoPosition = max (s.videoPosition - videoStep.toInt) 0 ∧
      s.onBackwardVideoButtonClicked.playingVideoFlag = s.playingVideoFlag := by
  obtain ⟨hlist, rfl, h0, hlt⟩ := hs
  have hdiff := toInt_sub_videoStep h0
  have hpos : s.onBackwardVideoButtonClicked.videoPosition =
      max (s.videoPosition - videoStep.toInt) 0 := by
    show (if s.videos.player.position - videoStep < 0 then (0 : Int64)
      else s.videos.player.position - videoStep).toInt = _
    rw [videoPosition]
    split_ifs with hneg <;> rw [Int64.lt_iff_toInt_lt, hdiff, Int64.toInt_zero] at hneg
    · rw [Int64.toInt_zero, max_eq_right hneg.le]
    · rw [hdiff, max_eq_left (not_lt.mp hneg)]
  refine ⟨⟨hlist, rfl, ?_, ?_⟩, hpos, rfl⟩ <;> rw [hpos]
  · exact le_max_right _ _
  · rw [toInt_videoStep]
    show _ < s.videos.player.duration.toInt
    omega

/-- One step forward and one back. -/
theorem backward_forward (hfit : StepsFit duration) (hs : s.VideoLoaded duration)
    (hstep : ¬ s.OvershootsEnd duration) :
    s.onForwardVideoButtonClicked.onBackwardVideoButtonClicked.videoPosition = s.videoPosition ∧
      s.onForwardVideoButtonClicked.onBackwardVideoButtonClicked.playingVideoFlag =
        s.playingVideoFlag := by
  obtain ⟨hloaded, hforward, -⟩ := forward_spec hfit hs
  obtain ⟨hpos, hflag⟩ := hforward hstep
  obtain ⟨-, hpos', hflag'⟩ := backward_spec hloaded
  refine ⟨?_, hflag'.trans hflag⟩
  have h0 := hs.nonneg
  rw [hpos', hpos]
  omega

/-- One step back and one forward. -/
theorem forward_backward_iff (hfit : StepsFit duration) (hs : s.VideoLoaded duration) :
    s.onBackwardVideoButtonClicked.onForwardVideoButtonClicked.videoPosition = s.videoPosition ↔
      videoStep.toInt ≤ s.videoPosition ∨
        (s.videoPosition = 0 ∧ duration.toInt ≤ videoStep.toInt) := by
  obtain ⟨hloaded, hpos, -⟩ := backward_spec hs
  obtain ⟨-, hstays, hends⟩ := forward_spec hfit hloaded
  have h0 := hs.nonneg
  have hlt := hs.lt
  by_cases hend : s.onBackwardVideoButtonClicked.OvershootsEnd duration
  · rw [(hends hend).1]
    rw [OvershootsEnd, hpos] at hend
    simp only [toInt_videoStep] at hend ⊢
    omega
  · rw [(hstays hend).1]
    rw [OvershootsEnd, hpos] at hend
    rw [hpos]
    simp only [toInt_videoStep] at hend ⊢
    omega

end State

/-! ## Sequences of presses -/

/-- The program while a video of this duration is playing and nothing but the two buttons is
pressed. -/
def seekPresses (duration : Int64) : Machine State Seek Fault :=
  presses Seek.button fun s => s.VideoLoaded duration ∧ s.playingVideoFlag = true

instance (duration : Int64) (e : Seek) (s : State) :
    Decidable ((seekPresses duration).enabled e s) :=
  inferInstanceAs (Decidable True)

variable {duration : Int64}

/-- A press of forward that would reach the end of the video. -/
def PressesPastEnd (duration : Int64) (x : Transition State Seek) : Prop :=
  x.event = .forward ∧ x.before.OvershootsEnd duration

theorem videoLoaded_of_history (hfit : StepsFit duration) {l : List (Transition State Seek)}
    {s : State} (h : (seekPresses duration).History l s) : s.VideoLoaded duration := by
  refine h.invariant (I := fun s' => s'.VideoLoaded duration) (fun _ (hs : _ ∧ _) => hs.1)
    fun x hx hI => ?_
  have hpress := hx.2
  rcases x with ⟨before, _ | _, after⟩
  · exact Except.ok.inj hpress ▸ (State.forward_spec hfit hI).1
  · exact Except.ok.inj hpress ▸ (State.backward_spec hI).1

/-- The flag is lost with the first press past the end, and not regained. -/
theorem playingVideoFlag_eq_false_iff (hfit : StepsFit duration)
    {l : List (Transition State Seek)} {s : State} (h : (seekPresses duration).History l s) :
    s.playingVideoFlag = false ↔ ∃ x ∈ l, PressesPastEnd duration x := by
  induction h with
  | start hs => simp [hs.2]
  | @tail l x hl hx ih =>
    have hloaded := videoLoaded_of_history hfit hl
    have hpress := hx.2
    simp only [List.mem_append, List.mem_singleton, or_and_right, exists_or, exists_eq_left]
    rw [← ih]
    rcases x with ⟨before, _ | _, after⟩
    · obtain ⟨-, hstays, hends⟩ := State.forward_spec hfit hloaded
      rw [← show before.onForwardVideoButtonClicked = after from Except.ok.inj hpress]
      by_cases hend : before.OvershootsEnd duration
      · exact iff_of_true (hends hend).2 (Or.inr ⟨rfl, hend⟩)
      · rw [(hstays hend).2, or_iff_left fun hpast => hend hpast.2]
    · rw [← show before.onBackwardVideoButtonClicked = after from Except.ok.inj hpress,
        (State.backward_spec hloaded).2.2, or_iff_left fun hpast => by cases hpast.1]

/-- A press past the end leaves the video at the front. -/
theorem videoPosition_of_pressesPastEnd (hfit : StepsFit duration)
    {l : List (Transition State Seek)} {s : State} (h : (seekPresses duration).History l s)
    {x : Transition State Seek} (hx : x ∈ l) (hpast : PressesPastEnd duration x) :
    x.after.videoPosition = 0 := by
  obtain ⟨l₁, -, -, hbefore, hpress⟩ := h.exists_prefix hx
  obtain ⟨hforward, hend⟩ := hpast
  rcases x with ⟨before, e, after⟩
  obtain rfl : e = .forward := hforward
  have hspec := State.forward_spec hfit (videoLoaded_of_history hfit hbefore)
  exact Except.ok.inj hpress.2 ▸ (hspec.2.2 hend).1

/-! ## Which videos can be sought in -/

/-- Seeking stays inside a video of this duration and undoes itself, from any position inside it and
for any sequence of presses. -/
structure SeeksWithin (duration : Int64) : Prop where
  /-- The position is inside the video after every press. -/
  inside : ∀ l s, (seekPresses duration).History l s → ∀ x ∈ l,
    0 ≤ x.after.videoPosition ∧ x.after.videoPosition < duration.toInt
  /-- The flag is lost exactly when some press of forward would have reached the end. -/
  flag : ∀ l s, (seekPresses duration).History l s →
    (s.playingVideoFlag = false ↔ ∃ x ∈ l, PressesPastEnd duration x)
  /-- Every such press leaves the video at the front. -/
  front : ∀ l s, (seekPresses duration).History l s → ∀ x ∈ l, PressesPastEnd duration x →
    x.after.videoPosition = 0
  /-- Forward and then backward leads back unless the step reaches the end. -/
  thereAndBack : ∀ t : State, t.VideoLoaded duration → ¬ t.OvershootsEnd duration →
    t.onForwardVideoButtonClicked.onBackwardVideoButtonClicked.videoPosition = t.videoPosition ∧
      t.onForwardVideoButtonClicked.onBackwardVideoButtonClicked.playingVideoFlag =
        t.playingVideoFlag
  /-- Backward and then forward leads back exactly from a full step on, or from the front of a
  video that is not longer than a step. -/
  backAndThere : ∀ t : State, t.VideoLoaded duration →
    (t.onBackwardVideoButtonClicked.onForwardVideoButtonClicked.videoPosition = t.videoPosition ↔
      videoStep.toInt ≤ t.videoPosition ∨
        (t.videoPosition = 0 ∧ duration.toInt ≤ videoStep.toInt))

theorem StepsFit.seeksWithin (hfit : StepsFit duration) : SeeksWithin duration where
  inside l s h x hx := by
    obtain ⟨l₁, -, -, hbefore, hfires⟩ := h.exists_prefix hx
    have hafter := videoLoaded_of_history hfit (hbefore.tail hfires)
    exact ⟨hafter.nonneg, hafter.lt⟩
  flag l s h := playingVideoFlag_eq_false_iff hfit h
  front l s h x hx hpast := videoPosition_of_pressesPastEnd hfit h hx hpast
  thereAndBack t ht hstep := State.backward_forward hfit ht hstep
  backAndThere t ht := State.forward_backward_iff hfit ht

/-- A video of this duration, playing at this position. -/
def playingVideo (position duration : Int64) : State :=
  { startup with
    pagesSwitch := .videoShow
    playingVideoFlag := true
    videos :=
      { (MediaShelf.new.addFile "/media/sda1/b.mp4".toList).setCurrentIndex 0 with
        player := ⟨true, true, position, duration, 100⟩ } }

/-- From the end of a longer video, forward leads in front of the beginning. -/
theorem forward_of_not_stepsFit (hfit : ¬ StepsFit duration) :
    ∃ l s, (seekPresses duration).History l s ∧ ∃ x ∈ l, x.after.videoPosition < 0 := by
  rw [StepsFit, not_le, toInt_videoStep] at hfit
  obtain ⟨s, hs⟩ : ∃ s, s = playingVideo (duration - 1) duration := ⟨_, rfl⟩
  have hlast : s.videoPosition = duration.toInt - 1 := by
    have hhigh := duration.toInt_lt
    rw [hs]
    show (duration - 1).toInt = _
    rw [Int64.toInt_sub, show (1 : Int64).toInt = 1 from rfl]
    exact Int.bmod_eq_of_le (by omega) (by omega)
  have hstart : s.VideoLoaded duration ∧ s.playingVideoFlag = true := by
    refine ⟨⟨by rw [hs]; rfl, by rw [hs]; rfl, ?_, ?_⟩, by rw [hs]; rfl⟩ <;> rw [hlast] <;> omega
  have hneg : (s.videos.player.position + videoStep).toInt < 0 := by
    refine toInt_add_videoStep_neg ?_
    rw [← State.videoPosition, hlast, toInt_videoStep]
    omega
  have hstep : s.onForwardVideoButtonClicked =
      s.setVideoPosition (s.videos.player.position + videoStep) := by
    simp only [State.onForwardVideoButtonClicked]
    rw [if_neg]
    rw [ge_iff_le, Int64.le_iff_toInt_le, hstart.1.duration_eq, not_le]
    omega
  generalize s.videos.player.position + videoStep = pos at hneg hstep
  have hpress : (seekPresses duration).Fires ⟨s, .forward, s.setVideoPosition pos⟩ :=
    ⟨trivial, congrArg Except.ok hstep⟩
  exact ⟨_, _, (Machine.History.start hstart).tail hpress, _, List.mem_singleton_self _, hneg⟩

/-- **Seeking stays inside a video and undoes itself exactly if the steps fit.**  This is for every
duration and every sequence of presses from any position inside a playing video. -/
theorem seeks_within_iff : SeeksWithin duration ↔ duration.toInt ≤ 2 ^ 63 - videoStep.toInt := by
  constructor
  · intro h
    by_contra hfit
    obtain ⟨l, s, hl, x, hx, hneg⟩ := forward_of_not_stepsFit hfit
    exact absurd (h.inside l s hl x hx).1 (not_le.mpr hneg)
  · exact StepsFit.seeksWithin

/-- In a video of the greatest duration forward leads out of the video. -/
theorem not_seeks_within_longest :
    ¬ ∀ duration : Int64, 0 < duration → SeeksWithin duration := by
  intro hall
  have hlongest := hall Int64.maxValue (by decide)
  have hfit : ¬ StepsFit Int64.maxValue := by
    rw [StepsFit, Int64.toInt_maxValue, toInt_videoStep]
    omega
  obtain ⟨l, s, hl, x, hx, hneg⟩ := forward_of_not_stepsFit hfit
  exact absurd (hlongest.inside l s hl x hx).1 (not_le.mpr hneg)

end Infotainment
