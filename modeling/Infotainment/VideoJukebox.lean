import Infotainment.Exclusion
import Infotainment.ShelfJukebox
import Infotainment.Library.Slices

/-!
# The video player is a jukebox

The videos are the second jukebox of the program.  Its order is the one in which nothing follows,
so a video that has come to its end leaves no current one behind, and nobody tells the playing flag.
From then on the flag is set while nothing is heard, and the slots, which decide by the flag, see a
video where there is none.

This does not upset the jukebox, since without a current track its switch stays off as well: the
flag is right as long as there is a current video (`VideosInOrder`).  Two things about the button
that plays and pauses are to be known, though.

* Without a current video it starts the first one (`playVideoSignal`).
* If the last video came to its end by itself, it does not do so at once: the first press only takes
  the flag back.  `ended_video_stays_silent` says that nothing is heard after the end of a video
  until a row is clicked or the buttons that set the flag are pressed twice, and that the
  second press starts the first video of the list, not the one that has ended.

What does upset the jukebox is a stick whose videos are listed on top of others, or while the flag
is still set for a video that is gone.
-/

namespace Infotainment

open EventSystem MediaShelf

variable {W : Type} {qt : Qt}

/-- The jukebox of the videos. -/
def State.videoJukebox (s : State) : Jukebox Text := s.videos.jukebox

/-! ## What the events are to the jukebox -/

/-- The button that plays and pauses. -/
def playVideoSignal (s : State) : Jukebox.Signal Text :=
  if s.playingVideoFlag = false ∧ s.videos.playList.currentIndex = -1 ∧
      s.videos.playList.media ≠ [] then .choose 0
  else .toggle

/-- What an event other than a poll is to the jukebox.  Going forward past the end of the video
stops it. -/
def videoUiSignal (s : State) : Event W → Option (Jukebox.Signal Text)
  | .click .playVideoButton _ => some (playVideoSignal s)
  | .click .stopVideoButton _ => some .stop
  | .click .goTovideosListButton _ => some .stop
  | .click .forwardVideoButton _ =>
    if s.videos.player.position + videoStep ≥ s.videos.player.duration then some .stop else none
  | .videoRow i => some (.choose i)
  | .videoEnd => some (.finished 0)
  | _ => none

/-- What a transition is to the jukebox. -/
def videoSignal (qt : Qt) (x : Transition (State × W) (Event W)) : Option (Jukebox.Signal Text) :=
  match x.event with
  | .poll sh => pollSignal qt sh x.before videosExt .currentItemOnce x.after.1.videos
  | e => videoUiSignal x.before.1 e

/-- No videos are listed on top of others, nor, where they are opened at the first one, while the
flag is set. -/
def VideosUndisturbed (qt : Qt) (s : State) (e : Event W) : Prop :=
  e.OnPoll fun sh => FindsNewStick sh s → CountsFiles sh videosExt →
    s.videos.playList.media = [] ∧ (qt.setPlaylistRewinds = true → s.playingVideoFlag = false)

instance (s : State) (e : Event W) : Decidable (VideosUndisturbed qt s e) :=
  inferInstanceAs (Decidable (e.OnPoll _))

/-- The program in front of its screen, where nothing disturbs the videos. -/
def undisturbedVideos (qt : Qt) (W : Type) : Machine (State × W) (Event W) Fault where
  start c := c.1 = startup
  enabled e c := Shown e c.1 ∧ VideosUndisturbed qt c.1 e
  step := step qt

instance (qt : Qt) (e : Event W) (c : State × W) :
    Decidable ((undisturbedVideos qt W).enabled e c) :=
  inferInstanceAs (Decidable (_ ∧ _))

/-- The flag is right as long as there is a current video. -/
def State.VideoFlagKnown (s : State) : Prop :=
  s.videoJukebox.playing = (s.playingVideoFlag && s.videoJukebox.current.isSome)

/-- What the slots rely on. -/
structure VideosInOrder (s : State) : Prop where
  shelves : ShelvesSound s
  parallel : s.videos.Parallel
  flag : s.VideoFlagKnown

/-! ## One event at a time -/

/-- The jukebox and its flag are what they were. -/
def SameVideo (s s' : State) : Prop :=
  s'.videoJukebox = s.videoJukebox ∧ s'.playingVideoFlag = s.playingVideoFlag

namespace SameVideo

variable {s s' : State}

theorem skip (h : s.Skips s') : SameVideo s s' := by
  obtain ⟨pos, s₁, -, -, hmove, rfl⟩ := h
  obtain ⟨text, -, rfl⟩ := State.moveSongs_ok hmove
  exact ⟨by rw [State.videoJukebox, State.toggleIfPastEnd_videos]; rfl, by simp⟩

/-- A button that is no signal. -/
theorem press {pick : ℕ} {b : Button} (h : s.press pick b = .ok s')
    (hnone : videoUiSignal s (.click b pick : Event W) = none) : SameVideo s s' := by
  cases b <;> simp only [State.press, Except.ok.injEq] at h
  case playVideoButton => simp [videoUiSignal] at hnone
  case stopVideoButton => simp [videoUiSignal] at hnone
  case goTovideosListButton => simp [videoUiSignal] at hnone
  case forwardVideoButton =>
    simp only [videoUiSignal] at hnone
    split_ifs at hnone with hend
    obtain ⟨pos, heq⟩ : ∃ pos, s.onForwardVideoButtonClicked = s.setVideoPosition pos :=
      ⟨s.videos.player.position + videoStep, by
        simp only [State.onForwardVideoButtonClicked, if_neg hend]⟩
    exact h ▸ heq ▸ ⟨rfl, rfl⟩
  case playButton =>
    rcases State.onPlayButtonClicked_ok h with ⟨-, hplay⟩ | ⟨-, rfl⟩
    · obtain ⟨text, -, rfl⟩ := State.playSong_ok hplay
      exact ⟨rfl, rfl⟩
    · exact ⟨rfl, rfl⟩
  case forwardButton => exact skip (State.onForwardButtonClicked_ok h)
  case backwardButton => exact skip (State.onBackwardButtonClicked_ok h)
  case stopButton =>
    subst h
    rcases s.onStopButtonClicked_cases with heq | heq <;> rw [heq] <;> exact ⟨rfl, rfl⟩
  case repeatButton =>
    obtain ⟨k, mode, icon, -, heq⟩ := s.onRepeatButtonClicked_eq
    exact h ▸ heq ▸ ⟨rfl, rfl⟩
  case shuffleButton =>
    obtain ⟨k, mode, icon, -, heq⟩ := s.onShuffleButtonClicked_eq
    exact h ▸ heq ▸ ⟨rfl, rfl⟩
  case darkThemeButton =>
    obtain ⟨flag, icon, heq⟩ := s.onDarkThemeButtonClicked_eq
    exact h ▸ heq ▸ ⟨rfl, rfl⟩
  all_goals exact h ▸ ⟨rfl, rfl⟩

/-- An event that is no signal. -/
theorem uiStep {e : Event W} (h : uiStep s e = .ok s') (hnone : videoUiSignal s e = none) :
    SameVideo s s' := by
  cases e <;> simp only [Infotainment.uiStep, Except.ok.injEq] at h
  case click b pick => exact press h hnone
  case bluetooth sh =>
    obtain ⟨status, label, shown, heq⟩ := s.updatBluetoothDevices_eq sh
    exact h ▸ heq ▸ ⟨rfl, rfl⟩
  case songRow i =>
    obtain ⟨s₁, hmove, hplay⟩ := State.onSongListItemClicked_ok h
    obtain ⟨text, -, rfl⟩ := State.moveSongs_ok hmove
    rcases hplay with ⟨-, hplay⟩ | ⟨-, rfl⟩
    · obtain ⟨text', -, rfl⟩ := State.playSong_ok hplay
      exact ⟨rfl, rfl⟩
    · exact ⟨rfl, rfl⟩
  case songEnd pick =>
    obtain ⟨text, -, rfl⟩ := State.moveSongs_ok h
    exact ⟨rfl, rfl⟩
  case videoRow i => simp [videoUiSignal] at hnone
  case videoEnd => simp [videoUiSignal] at hnone
  all_goals exact h ▸ ⟨rfl, rfl⟩

end SameVideo

/-- The jukebox has received the signal, if there is one, and the flag is right. -/
def VideosReceive (s s' : State) (signal : Option (Jukebox.Signal Text)) : Prop :=
  s'.videoJukebox = s.videoJukebox.receiveAll signal.toList ∧ s'.VideoFlagKnown

namespace VideosInOrder

variable {s s' : State}

theorem unmoved (hs : VideosInOrder s) (h : SameVideo s s') : VideosReceive s s' none := by
  refine ⟨h.1, ?_⟩
  rw [State.VideoFlagKnown, h.1, h.2]
  exact hs.flag

/-- `playVideo` sets the flag, and whatever is current then is heard. -/
theorem flag_playVideo (hm : s.videos.Sound) : s.playVideo.VideoFlagKnown := by
  have hsound : s.videos.play.Sound := (Moves.play (P := fun _ => True) s.videos).sound hm
  rw [State.VideoFlagKnown, s.playVideo_playingVideoFlag, Bool.true_and, State.videoJukebox,
    s.playVideo_videos, Bool.eq_iff_iff]
  constructor
  · intro hplays
    exact Option.isSome_iff_ne_none.mpr (s.videos.play.jukebox.current_ne_none hplays)
  · intro hsome
    rw [hsound.jukebox_playing, hm.play_playing, ← play_media]
    refine QMediaPlaylist.media_ne_nil_of_currentIndex fun hcur => ?_
    exact Option.isSome_iff_ne_none.mp hsome (entryAt_eq_none_iff.mpr hcur)

/-- `stopVideo` turns the jukebox off. -/
theorem stopVideo (s : State) : VideosReceive s s.stopVideo (some .stop) :=
  ⟨s.videos.jukebox_pause, rfl⟩

/-- Setting the index to where it is before that makes no difference. -/
theorem reloadVideo_stopVideo (hs : VideosInOrder s) :
    VideosReceive s s.reloadVideo.stopVideo (some .stop) := by
  refine ⟨?_, rfl⟩
  have hstop := (stopVideo s.reloadVideo).1
  rwa [show s.reloadVideo.videoJukebox = s.videoJukebox from hs.shelves.videos.jukebox_reload]
    at hstop

theorem onPlayVideoButtonClicked (hs : VideosInOrder s) :
    VideosReceive s s.onPlayVideoButtonClicked (some (playVideoSignal s)) := by
  have hflag : s.videoJukebox.playing =
      (s.playingVideoFlag && s.videoJukebox.current.isSome) := hs.flag
  rcases s.onPlayVideoButtonClicked_cases with ⟨hoff, heq⟩ | ⟨hon, heq⟩ <;>
    rw [heq, playVideoSignal]
  · -- the flag is off, so nothing is heard
    rw [hoff, Bool.false_and] at hflag
    have htoggle : s.videoJukebox.receive .toggle = s.videoJukebox.setPlaying true := by
      show s.videoJukebox.setPlaying (!s.videoJukebox.playing) = _
      rw [hflag]
      rfl
    refine ⟨?_, flag_playVideo hs.shelves.videos⟩
    rw [State.videoJukebox, s.playVideo_videos]
    split_ifs with hfirst
    · exact hs.shelves.videos.jukebox_play_first hfirst.2.1 hfirst.2.2
    · refine Eq.trans ?_ htoggle.symm
      by_cases hcur : s.videos.playList.currentIndex = -1
      · have hnil : s.videos.playList.media = [] := by
          by_contra hne
          exact hfirst ⟨hoff, hcur, hne⟩
        rw [play_of_media_eq_nil _ hnil]
        exact (s.videoJukebox.setPlaying_of_current_eq_none (entryAt_eq_none_iff.mpr hcur) _).symm
      · exact hs.shelves.videos.jukebox_play hcur
  · -- the flag is on: either a video is heard, or none is current
    rw [hon, Bool.true_and] at hflag
    rw [if_neg fun h => by simp [hon] at h]
    refine ⟨(stopVideo s).1.trans ?_, rfl⟩
    show s.videoJukebox.setPlaying false = s.videoJukebox.setPlaying (!s.videoJukebox.playing)
    cases hcur : s.videoJukebox.current with
    | none =>
      have hnone := s.videoJukebox.setPlaying_of_current_eq_none hcur
      rw [hnone, hnone]
    | some i =>
      rw [hflag, hcur]
      rfl

/-- The opened video is chosen, whether it was current before or not. -/
theorem onVideoListItemClicked (hs : VideosInOrder s) {i : ℕ} (hi : i < s.videos.rows.length)
    (h : s.onVideoListItemClicked i = .ok s') : VideosReceive s s' (some (.choose i)) := by
  obtain ⟨text, -, rfl⟩ := State.onVideoListItemClicked_ok h
  have hm := hs.shelves.videos
  have hlt : i < s.videos.playList.media.length := hs.parallel.1 ▸ hi
  have hopen := (UiEffect.openVideo s i).videos.sound hm
  refine ⟨?_, flag_playVideo hopen⟩
  rw [State.videoJukebox, State.playVideo_videos]
  show (s.openVideo i).videos.play.jukebox = s.videos.jukebox.receive (.choose i)
  rw [State.openVideo]
  split_ifs with hne
  · exact hm.jukebox_choose hlt
  · have hcur : s.videos.jukebox.current = some i := by
      show entryAt s.videos.playList.currentIndex = some i
      rw [← not_not.mp hne, entryAt_natCast]
    rw [Jukebox.receive_choose_current _ hcur]
    exact hm.jukebox_play (by omega)

/-- The flag is set when a video ends, and stays set. -/
theorem videoEnded (hs : VideosInOrder s) (hplays : s.videos.player.playing = true) :
    VideosReceive s s.videoEnded (some (.finished 0)) := by
  have hnext : s.videoEnded.videoJukebox = s.videoJukebox.receive (.finished 0) :=
    hs.shelves.videos.jukebox_next 0
  have hheard : s.videoJukebox.playing = true := hs.shelves.videos.jukebox_playing.trans hplays
  have hset : s.playingVideoFlag = true := by
    have hflag := hs.flag
    rw [State.VideoFlagKnown, hheard, eq_comm, Bool.and_eq_true] at hflag
    exact hflag.1
  refine ⟨hnext, ?_⟩
  rw [State.VideoFlagKnown, hnext, show s.videoEnded.playingVideoFlag = true from hset,
    ← hheard]
  rfl

theorem uiStep {e : Event W} (hs : VideosInOrder s) (hshown : Shown e s)
    (h : uiStep s e = .ok s') : VideosReceive s s' (videoUiSignal s e) := by
  cases hsignal : videoUiSignal s e with
  | none => exact hs.unmoved (.uiStep h hsignal)
  | some signal =>
    rw [← hsignal]
    cases e with
    | click b pick =>
      cases b <;> simp only [videoUiSignal, reduceCtorEq] at hsignal <;>
        obtain rfl := Except.ok.inj h
      case playVideoButton => exact hs.onPlayVideoButtonClicked
      case stopVideoButton => exact hs.reloadVideo_stopVideo
      case goTovideosListButton => exact stopVideo s
      case forwardVideoButton =>
        split_ifs at hsignal with hend
        rw [videoUiSignal, State.onForwardVideoButtonClicked, if_pos hend, if_pos hend]
        exact hs.reloadVideo_stopVideo
    | videoRow i => exact hs.onVideoListItemClicked hshown.2 h
    | videoEnd =>
      obtain rfl := Except.ok.inj h
      exact hs.videoEnded hshown
    | _ => simp [videoUiSignal] at hsignal

/-- A poll loads the jukebox, empties it, or does nothing to it. -/
theorem poll {sh : Shell W} {w : W} {c : State × W} (hs : VideosInOrder s)
    (hquiet : VideosUndisturbed qt s (.poll sh)) (h : PollOutcome qt sh s w c) :
    VideosReceive s c.1 (pollSignal qt sh (s, w) videosExt .currentItemOnce c.1.videos) := by
  have hjukebox : c.1.videoJukebox = _ := h.shelfPolls.2.jukebox hs.shelves.videos hs.parallel
    fun hnew hcount => (hquiet hnew hcount).1
  refine ⟨hjukebox, ?_⟩
  rw [State.VideoFlagKnown, hjukebox, h.flags_eq.2, pollSignal]
  split_ifs with hnew hgone
  · -- if a video is current now, the flag was off before
    show false = (s.playingVideoFlag && (if qt.setPlaylistRewinds = true ∧ _ then some 0
      else none).isSome)
    split_ifs with hopens
    · rw [(hquiet hnew.1 hnew.2).2 hopens.1]
      rfl
    · exact (Bool.and_false _).symm
  · exact (Bool.and_false _).symm
  · exact hs.flag

/-- **One event.** -/
theorem step {x : Transition (State × W) (Event W)} (hs : VideosInOrder x.before.1)
    (hx : (undisturbedVideos qt W).Fires x) :
    VideosInOrder x.after.1 ∧ VideosReceive x.before.1 x.after.1 (videoSignal qt x) := by
  obtain ⟨⟨hshown, hquiet⟩, hstep⟩ := hx
  have hshelves := step_shelvesSound hstep hs.shelves
  rcases step_cases hstep with ⟨sh, he, houtcome⟩ | ⟨he, hui, -⟩
  · rw [he] at hquiet
    have hreceive : VideosReceive x.before.1 x.after.1 (videoSignal qt x) := by
      rw [videoSignal, he]
      exact hs.poll hquiet houtcome
    have hparallel := houtcome.shelfPolls.2.parallel hs.parallel
      fun hnew hcount => (hquiet hnew hcount).1
    exact ⟨⟨hshelves, hparallel, hreceive.2⟩, hreceive⟩
  · have hreceive : VideosReceive x.before.1 x.after.1 (videoSignal qt x) := by
      have hsignal : videoSignal qt x = videoUiSignal x.before.1 x.event := by
        rw [videoSignal]
        cases hevent : x.event with
        | poll sh => exact absurd hevent (he sh)
        | _ => rfl
      rw [hsignal]
      exact hs.uiStep hshown hui
    exact ⟨⟨hshelves, (uiStep_effect _ hui).videos.sameFiles.parallel_iff.mpr hs.parallel,
      hreceive.2⟩, hreceive⟩

theorem tracks_eq (hs : VideosInOrder s) : s.videoJukebox.tracks = s.videos.rows :=
  (parallel_iff.mp hs.parallel).symm

/-- What happens in front of the screen can happen to the jukebox. -/
theorem enabled {x : Transition (State × W) (Event W)} (hs : VideosInOrder x.before.1)
    (hshown : Shown x.event x.before.1) {signal : Jukebox.Signal Text}
    (hsignal : videoSignal qt x = some signal) :
    (Jukebox.machine Text).enabled signal x.before.1.videoJukebox := by
  cases hevent : x.event with
  | videoRow i =>
    obtain rfl : Jukebox.Signal.choose i = signal := by
      simpa [videoSignal, hevent, videoUiSignal] using hsignal
    rw [hevent] at hshown
    show i < x.before.1.videoJukebox.tracks.length
    rw [hs.tracks_eq]
    exact hshown.2
  | videoEnd =>
    obtain rfl : Jukebox.Signal.finished 0 = signal := by
      simpa [videoSignal, hevent, videoUiSignal] using hsignal
    rw [hevent] at hshown
    exact hs.shelves.videos.jukebox_playing.trans hshown
  | click b pick =>
    rw [videoSignal, hevent] at hsignal
    cases b <;> simp only [videoUiSignal, reduceCtorEq] at hsignal
    case playVideoButton =>
      obtain rfl := Option.some.inj hsignal
      rw [playVideoSignal]
      split_ifs with hfirst
      · show 0 < x.before.1.videoJukebox.tracks.length
        rw [show x.before.1.videoJukebox.tracks.length = _ from List.length_map _]
        exact List.length_pos_of_ne_nil hfirst.2.2
      · trivial
    case forwardVideoButton =>
      split_ifs at hsignal
      obtain rfl := Option.some.inj hsignal
      trivial
    all_goals
      obtain rfl := Option.some.inj hsignal
      trivial
  | poll sh =>
    rw [videoSignal, hevent] at hsignal
    simp only [pollSignal] at hsignal
    split_ifs at hsignal <;>
      · obtain rfl := Option.some.inj hsignal
        trivial
  | _ => simp [videoSignal, hevent, videoUiSignal] at hsignal

end VideosInOrder

/-! ## Whole runs -/

theorem videosInOrder_startup : VideosInOrder startup := ⟨shelvesSound_startup, parallel_new, rfl⟩

/-- **The refinement.** -/
def videoRefinement (qt : Qt) (W : Type) :
    (undisturbedVideos qt W).Refinement (Jukebox.machine Text) where
  inv c := VideosInOrder c.1
  view c := c.1.videoJukebox
  label := videoSignal qt
  inv_start := fun {c} hc => by
    rw [show c.1 = startup from hc]
    exact videosInOrder_startup
  inv_step hx hs := (hs.step hx).1
  start := fun {c} hc => by
    rw [show c.1 = startup from hc]
    rfl
  silent hx hs hlabel := by
    have hreceive := (hs.step hx).2.1
    rwa [hlabel] at hreceive
  fires hx hs hlabel := by
    have hreceive := (hs.step hx).2.1
    rw [hlabel] at hreceive
    exact ⟨hs.enabled hx.1.1 hlabel, congrArg Except.ok hreceive.symm⟩

/-- **The video player is a jukebox.**  In a run in front of the screen in which nothing disturbs
the videos, what is heard and what is current change exactly as a jukebox would change that received
the signals of the events; the tracks are the rows the user sees, and the flag says what is heard
as long as there is a current video. -/
theorem video_player_is_jukebox {l : List (Transition (State × W) (Event W))} {c : State × W}
    (h : (undisturbedVideos qt W).History l c) :
    (∃ l', (Jukebox.machine Text).History l' c.1.videoJukebox ∧
      l'.map Transition.event = l.filterMap (videoSignal qt)) ∧
    c.1.videoJukebox.tracks = c.1.videos.rows ∧
      c.1.videoJukebox.playing = c.1.videos.player.playing ∧
      c.1.videoJukebox.playing = (c.1.playingVideoFlag && c.1.videoJukebox.current.isSome) := by
  have hs : VideosInOrder c.1 := h.invariant (fun _ hc => (videoRefinement qt W).inv_start hc)
    fun _ hx hI => (hI.step hx).1
  exact ⟨⟨_, h.refine (videoRefinement qt W), Machine.Refinement.map_event_transitions _ l⟩,
    hs.tracks_eq, hs.shelves.videos.jukebox_playing, hs.flag⟩

/-- A video is watched to its end, and then the first one is started with two presses. -/
theorem jukebox_of_two_videos :
    ∃ l c, (undisturbedVideos ⟨false⟩ Unit).History l c ∧ l.length = 6 ∧
      (∃ l', (Jukebox.machine Text).History l' c.1.videoJukebox ∧
        l'.map Transition.event = l.filterMap (videoSignal ⟨false⟩)) ∧
      c.1.videoJukebox.tracks = c.1.videos.rows ∧
        c.1.videoJukebox.playing = c.1.videos.player.playing ∧
        c.1.videoJukebox.playing =
          (c.1.playingVideoFlag && c.1.videoJukebox.current.isSome) := by
  obtain ⟨l, c, hl, -, hp⟩ := Machine.exists_history_of_replay
    (M := undisturbedVideos ⟨false⟩ Unit) (s := (startup, ())) rfl
    [.poll (stickShell "sda1".toList [] ["a.mp4".toList, "b.mp4".toList] 0),
      .click .videoButton 0, .videoRow 1, .videoEnd, .click .playVideoButton 0,
      .click .playVideoButton 0]
    (fun l _ => decide (l.length = 6)) (by decide +kernel)
  exact ⟨l, c, hl, of_decide_eq_true hp, video_player_is_jukebox hl⟩

/-! ## After the end of a video -/

/-- The buttons that set the playing flag of the videos or take it back. -/
def Button.setsVideoFlag : Button → Bool
  | playVideoButton | stopVideoButton | goTovideosListButton | forwardVideoButton => true
  | _ => false

def Event.pressesVideo : Event W → Bool
  | .click b _ => b.setsVideoFlag
  | _ => false

def Event.isVideoEnd : Event W → Bool
  | .videoEnd => true
  | _ => false

def Event.isVideoRow : Event W → Bool
  | .videoRow _ => true
  | _ => false

theorem Event.eq_videoEnd {e : Event W} (h : e.isVideoEnd = true) : e = .videoEnd := by
  cases e <;> simp [Event.isVideoEnd] at h ⊢

/-- How often these buttons are pressed. -/
def videoPresses (l : List (Transition (State × W) (Event W))) : ℕ :=
  l.countP fun y => y.event.pressesVideo

/-- What is the case after a video has come to its end and so many presses: nothing is heard, the
flag has not been taken back without a press, and no video but the first is current. -/
structure EndedVideo (presses : ℕ) (s : State) : Prop where
  silent : s.videoJukebox.playing = false
  flag : presses = 0 → s.playingVideoFlag = true
  first : ∀ i ∈ s.videoJukebox.current, i = 0

namespace EndedVideo

variable {presses : ℕ} {s s' : State}

/-- What leaves the videos alone, or only turns the jukebox off after a press. -/
theorem of_stop (hs : EndedVideo presses s) {presses' : ℕ}
    (hjukebox : s'.videoJukebox = s.videoJukebox.setPlaying false)
    (hflag : presses' = 0 → s'.playingVideoFlag = true) : EndedVideo presses' s' where
  silent := by
    rw [hjukebox]
    rfl
  flag := hflag
  first := by
    rw [hjukebox]
    exact hs.first

theorem setPlaying_false (hs : EndedVideo presses s) :
    s.videoJukebox.setPlaying false = s.videoJukebox := by
  have hself := s.videoJukebox.setPlaying_self
  rwa [hs.silent] at hself

theorem uiStep {e : Event W} (hs : EndedVideo presses s) (hm : s.videos.Sound)
    (hshown : Shown e s) (hrow : e.isVideoRow = false)
    (hpresses : presses + (if e.pressesVideo = true then 1 else 0) ≤ 1)
    (h : Infotainment.uiStep s e = .ok s') :
    EndedVideo (presses + if e.pressesVideo = true then 1 else 0) s' := by
  cases hsignal : videoUiSignal s e with
  | none =>
    obtain ⟨hjukebox, hflag⟩ := SameVideo.uiStep h hsignal
    refine hs.of_stop (hjukebox.trans hs.setPlaying_false.symm) fun hzero => ?_
    rw [hflag]
    exact hs.flag (by omega)
  | some signal =>
    cases e with
    | click b pick =>
      have hstop := (VideosInOrder.stopVideo s).1
      have hreload : s.reloadVideo.stopVideo.videoJukebox = s.videoJukebox.setPlaying false := by
        rw [← show s.reloadVideo.videoJukebox = s.videoJukebox from hm.jukebox_reload]
        exact (VideosInOrder.stopVideo s.reloadVideo).1
      cases b <;> simp only [videoUiSignal, reduceCtorEq] at hsignal <;>
        obtain rfl := Except.ok.inj h
      case playVideoButton =>
        -- the first press finds the flag set
        have hzero : presses = 0 := Nat.le_zero.mp (Nat.le_of_succ_le_succ hpresses)
        have hpress : s.onPlayVideoButtonClicked = s.stopVideo := if_neg (by simp [hs.flag hzero])
        rw [hpress]
        exact hs.of_stop hstop fun hzero => absurd hzero (Nat.succ_ne_zero _)
      case stopVideoButton =>
        exact hs.of_stop hreload fun hzero => absurd hzero (Nat.succ_ne_zero _)
      case goTovideosListButton =>
        exact hs.of_stop hstop fun hzero => absurd hzero (Nat.succ_ne_zero _)
      case forwardVideoButton =>
        split_ifs at hsignal with hend
        rw [State.onForwardVideoButtonClicked, if_pos hend]
        exact hs.of_stop hreload fun hzero => absurd hzero (Nat.succ_ne_zero _)
    | videoRow i => exact absurd hrow (by simp [Event.isVideoRow])
    | videoEnd =>
      have hplays : s.videoJukebox.playing = true := hm.jukebox_playing.trans hshown
      rw [hs.silent] at hplays
      exact absurd hplays Bool.false_ne_true
    | _ => simp [videoUiSignal] at hsignal

theorem poll {sh : Shell W} {w : W} {c : State × W} (hs : EndedVideo presses s)
    (hshelves : ShelvesSound s) (h : PollOutcome qt sh s w c) : EndedVideo presses c.1 where
  silent := by
    by_contra hplays
    rw [Bool.not_eq_false] at hplays
    have hplayed := h.shelfPolls.2.playing hshelves.videos
      ((h.shelvesSound hshelves).videos.jukebox_playing.symm.trans hplays)
    have hheard : s.videoJukebox.playing = true :=
      hshelves.videos.jukebox_playing.trans hplayed
    rw [hs.silent] at hheard
    exact Bool.false_ne_true hheard
  flag hzero := h.flags_eq.2.trans (hs.flag hzero)
  first := by
    intro i hi
    have hcur : entryAt c.1.videos.playList.currentIndex = some i := hi
    rcases h.shelfPolls.2.currentIndex with hindex | hindex | hindex <;> rw [hindex] at hcur
    · exact hs.first i hcur
    · exact absurd hcur (by simp [entryAt_neg_one])
    · exact (Option.some.inj hcur).symm

/-- **One event** after the end. -/
theorem step {x : Transition (State × W) (Event W)} (hs : EndedVideo presses x.before.1)
    (hshelves : ShelvesSound x.before.1) (hx : (shownEvents qt W).Fires x)
    (hrow : x.event.isVideoRow = false) (hpresses : presses + videoPresses [x] ≤ 1) :
    EndedVideo (presses + videoPresses [x]) x.after.1 := by
  rw [videoPresses, List.countP_singleton] at hpresses ⊢
  rcases step_cases hx.2 with ⟨sh, he, houtcome⟩ | ⟨-, hui, -⟩
  · rw [he]
    exact hs.poll hshelves houtcome
  · exact hs.uiStep hshelves.videos hx.1 hrow hpresses hui

/-- The end itself. -/
theorem videoEnded (hshelves : ShelvesSound s) (hexclusive : Exclusive s)
    (hplays : s.videos.player.playing = true) : EndedVideo 0 s.videoEnded := by
  have hm := hshelves.videos
  have hmode := hshelves.videosMode (hm.hasPlaylist (hm.media_ne_nil hplays))
  have hnext : s.videoEnded.videoJukebox = s.videoJukebox.receive (.finished 0) := hm.jukebox_next 0
  have hnone : s.videoEnded.videoJukebox.current = none := by
    rw [hnext]
    show s.videos.playList.playbackMode.order.next _ 0 _ = none
    rw [hmode]
    exact ite_self none
  refine ⟨?_, fun _ => hexclusive.video hplays, ?_⟩
  · by_contra hheard
    exact s.videoEnded.videoJukebox.current_ne_none (by simpa using hheard) hnone
  · rw [hnone]
    exact fun i hi => absurd hi (by simp)

/-- Once the flag has been taken back, the button starts the first video. -/
theorem onPlayVideoButtonClicked (hs : EndedVideo presses s) (hm : s.videos.Sound)
    (hoff : s.playingVideoFlag = false) (hne : s.videos.playList.media ≠ []) :
    s.onPlayVideoButtonClicked.videos.player.playing = true ∧
      s.onPlayVideoButtonClicked.videos.playList.currentIndex = 0 := by
  have hpress : s.onPlayVideoButtonClicked.videos = s.videos.play := by
    rw [State.onPlayVideoButtonClicked, if_pos hoff, s.playVideo_videos]
  rw [hpress]
  refine ⟨hm.play_playing.mpr hne, ?_⟩
  by_cases hcur : s.videos.playList.currentIndex = -1
  · have hfirst : s.videos.play.jukebox.current = some 0 := by
      rw [hm.jukebox_play_first hcur hne]
      have hpos : 0 < s.videoJukebox.tracks.length := by
        rw [show s.videoJukebox.tracks.length = _ from List.length_map _]
        exact List.length_pos_of_ne_nil hne
      exact congrArg Jukebox.current (dif_pos hpos)
    exact (entryAt_eq_some_iff (QMediaPlaylist.neg_one_le _)).mp hfirst
  · obtain ⟨i, hi⟩ : ∃ i, entryAt s.videos.playList.currentIndex = some i :=
      Option.ne_none_iff_exists'.mp fun hnone => hcur (entryAt_eq_none_iff.mp hnone)
    obtain rfl := hs.first i hi
    rw [play_currentIndex _ hcur]
    exact (entryAt_eq_some_iff (QMediaPlaylist.neg_one_le _)).mp hi

end EndedVideo

/-- **Two presses after the end.**  After a video has come to its end, nothing is heard until a row
is clicked or the buttons that set its flag are pressed twice, whatever else happens; without a
press the flag stays set all the time, and after one that took it back the button that plays starts
the first video of the list. -/
theorem ended_video_stays_silent {l l' : List (Transition (State × W) (Event W))}
    {x : Transition (State × W) (Event W)} {c : State × W}
    (h : (shownEvents qt W).History (l ++ x :: l') c) (hend : x.event.isVideoEnd = true)
    (hrow : ∀ y ∈ l', y.event.isVideoRow = false) (hpresses : videoPresses l' ≤ 1) :
    c.1.videos.player.playing = false ∧
      (videoPresses l' = 0 → c.1.playingVideoFlag = true) ∧
      (c.1.playingVideoFlag = false → c.1.videos.playList.media ≠ [] →
        c.1.onPlayVideoButtonClicked.videos.player.playing = true ∧
          c.1.onPlayVideoButtonClicked.videos.playList.currentIndex = 0) := by
  have hended : ShelvesSound c.1 ∧
      (videoPresses l' ≤ 1 → EndedVideo (videoPresses l') c.1) := by
    refine h.since (I := fun l₁ c' => ShelvesSound c'.1 ∧
        (videoPresses l₁ ≤ 1 → EndedVideo (videoPresses l₁) c'.1))
      (C := fun y => y.event.isVideoRow = false) (fun hx => ?_) (fun l₁ y _ hy hC hI => ?_) hrow
    · obtain ⟨hbefore, hfires, -⟩ := hx.concat
      have hshelves := shelvesSound_of_history (history_any_of_shown hbefore)
      have hevent : x.event = .videoEnd := Event.eq_videoEnd hend
      have hplays : Shown (.videoEnd : Event W) x.before.1 := hevent ▸ hfires.1
      refine ⟨step_shelvesSound hfires.2 hshelves, fun _ => ?_⟩
      rcases step_cases hfires.2 with ⟨sh, he, -⟩ | ⟨-, hui, -⟩
      · rw [hevent] at he
        exact nomatch he
      · rw [hevent] at hui
        obtain heq : x.before.1.videoEnded = x.after.1 := Except.ok.inj hui
        rw [← heq]
        exact .videoEnded hshelves (exclusive_of_history hbefore) hplays
    · have hshelves := step_shelvesSound hy.2 hI.1
      refine ⟨hshelves, fun hle => ?_⟩
      rw [videoPresses, List.countP_append] at hle ⊢
      exact (hI.2 (Nat.le_of_add_right_le hle)).step hI.1 hy hC hle
  obtain ⟨hshelves, hs⟩ := hended
  refine ⟨?_, (hs hpresses).flag, fun hoff hne => ?_⟩
  · rw [← hshelves.videos.jukebox_playing]
    exact (hs hpresses).silent
  · exact (hs hpresses).onPlayVideoButtonClicked hshelves.videos hoff hne

/-- The second of two videos ends, and the button is pressed once. -/
theorem silence_after_second_video :
    ∃ l x l' c, (shownEvents ⟨false⟩ Unit).History (l ++ x :: l') c ∧ l'.length = 3 ∧
      videoPresses l' = 1 ∧ c.1.videos.player.playing = false ∧
      (videoPresses l' = 0 → c.1.playingVideoFlag = true) ∧
      (c.1.playingVideoFlag = false → c.1.videos.playList.media ≠ [] →
        c.1.onPlayVideoButtonClicked.videos.player.playing = true ∧
          c.1.onPlayVideoButtonClicked.videos.playList.currentIndex = 0) := by
  obtain ⟨l, c, hl, -, hp⟩ := Machine.exists_history_of_replay
    (M := shownEvents ⟨false⟩ Unit) (s := (startup, ())) rfl
    [.poll (stickShell "sda1".toList [] ["a.mp4".toList, "b.mp4".toList] 0),
      .click .videoButton 0, .videoRow 1, .videoEnd, .click .volumeUpVideoButton 0,
      .click .playVideoButton 0, .poll (stickShell "sda1".toList [] [] 0)]
    (fun l c => match l.drop 3 with
      | [] => false
      | x :: l' => decide (x.event.isVideoEnd = true ∧
          (∀ y ∈ l', y.event.isVideoRow = false) ∧ videoPresses l' = 1 ∧ l'.length = 3))
    (by decide +kernel)
  cases hd : l.drop 3 with
  | nil => simp [hd] at hp
  | cons x l' =>
    simp only [hd, decide_eq_true_eq] at hp
    obtain ⟨hend, hrow, hpresses, hlen⟩ := hp
    rw [← List.take_append_drop 3 l, hd] at hl
    exact ⟨_, x, l', c, hl, hlen, hpresses,
      ended_video_stays_silent hl hend hrow (le_of_eq hpresses)⟩

end Infotainment
