import Infotainment.Screen
import Infotainment.CleanMachine
import Infotainment.ShelfJukebox

/-!
# The song player is a jukebox

`Infotainment.Library.Jukebox` says what a jukebox is expected to do.  Here the song list, its
playlist, its player and the slots behind the music page are shown to be one.

The jukebox in a state is what is heard and what is current (`State.jukebox`); it does not mention
the playing flag, the icons or the label.  The slots decide by the flag, so they only do what is
expected of them while the flag is true, and they take the names of the tracks from the rows, so the
rows have to be those of the playlist.  Three things upset that: a stick that is listed on top of
another one's songs, a stick that is unmounted while one of its songs plays, and the end of the last
song.  `SongsUndisturbed` excludes these, and `song_player_is_jukebox` is that nothing else needs
to be excluded.
-/

namespace Infotainment

open EventSystem MediaShelf

variable {W : Type} {qt : Qt}

/-- The jukebox of the songs. -/
def State.jukebox (s : State) : Jukebox Text := s.songs.jukebox

/-! ## What the events are to the jukebox -/

/-- What an event other than a poll is to the jukebox.  The order that a click on repeat or shuffle
sets is the one its icon shows afterwards. -/
def uiSignal (s s' : State) : Event W → Option (Jukebox.Signal Text)
  | .click .playButton _ => some .toggle
  | .click .stopButton _ => some .stop
  | .click .forwardButton pick => some (.forward pick)
  | .click .backwardButton pick => some (.backward pick)
  | .click .repeatButton _ => some (.setOrder s'.ui.repeatButton.mode.order)
  | .click .shuffleButton _ =>
    some (.setOrder (if s'.ui.shuffleButton = .shufflePressed then .shuffled else .straight))
  | .click .playVideoButton _ => if s.playingVideoFlag = false then some .stop else none
  | .songRow i => some (.choose i)
  | .videoRow _ => some .stop
  | .songEnd pick => some (.finished pick)
  | _ => none

/-- What a transition is to the jukebox. -/
def songSignal (qt : Qt) (x : Transition (State × W) (Event W)) : Option (Jukebox.Signal Text) :=
  match x.event with
  | .poll sh => pollSignal qt sh x.before songsExt .sequential x.after.1.songs
  | e => uiSignal x.before.1 x.after.1 e

/-- No songs are listed on top of others, no stick is unmounted while the flag says that a song
plays, and no song is the last one when it ends. -/
def SongsUndisturbed (c : State × W) (e : Event W) : Prop :=
  FillsEmptySongs c.1 e ∧
    (e.OnPoll fun sh => DetachesStick sh c → c.1.playingSongFlag = false) ∧
    (e.isSongEnd = true →
      ¬ (c.1.songs.playList.playbackMode = .sequential ∧
        c.1.songs.playList.currentIndex = c.1.songs.playList.media.length - 1))

instance (c : State × W) (e : Event W) : Decidable (SongsUndisturbed c e) :=
  inferInstanceAs (Decidable (_ ∧ e.OnPoll _ ∧ (_ → ¬ (_ ∧ _))))

/-- The program in front of its screen, where nothing disturbs the songs. -/
def undisturbedEvents (qt : Qt) (W : Type) : Machine (State × W) (Event W) Fault where
  start c := c.1 = startup
  enabled e c := Shown e c.1 ∧ SongsUndisturbed c e
  step := step qt

instance (qt : Qt) (e : Event W) (c : State × W) :
    Decidable ((undisturbedEvents qt W).enabled e c) :=
  inferInstanceAs (Decidable (_ ∧ _))

/-- What the slots rely on. -/
structure SongsInOrder (s : State) : Prop where
  shelves : ShelvesSound s
  counters : CountersShown s
  parallel : s.songs.Parallel
  flag : s.SongFlagTrue

/-! ## One event at a time -/

/-- The jukebox has received the signal, if there is one, and the flag is true. -/
def Receives (s s' : State) (signal : Option (Jukebox.Signal Text)) : Prop :=
  s'.jukebox = s.jukebox.receiveAll signal.toList ∧ s'.SongFlagTrue

namespace SongsInOrder

variable {s s' : State}

theorem jukebox_playing (hs : SongsInOrder s) : s.jukebox.playing = s.playingSongFlag := by
  have hplaying : s.jukebox.playing = s.songs.player.playing := hs.shelves.songs.jukebox_playing
  rw [hplaying, Bool.eq_iff_iff]
  exact hs.flag.symm

/-- Where the flag is off, there is nothing to stop. -/
theorem setPlaying_false (hs : SongsInOrder s) (hflag : s.playingSongFlag = false) :
    s.jukebox.setPlaying false = s.jukebox := by
  have hself := s.jukebox.setPlaying_self
  rwa [hs.jukebox_playing, hflag] at hself

theorem playSong (hm : s.songs.Sound) (h : s.playSong = .ok s') :
    s'.jukebox = s.jukebox.setPlaying true ∧ s'.SongFlagTrue := by
  refine ⟨?_, State.songFlagTrue_playSong hm h⟩
  obtain ⟨text, hitem, rfl⟩ := State.playSong_ok h
  have h0 := (item_eq_ok_iff.mp hitem).1
  exact hm.jukebox_play (by omega)

theorem onPlayButtonClicked (hs : SongsInOrder s) (h : s.onPlayButtonClicked = .ok s') :
    Receives s s' (some .toggle) := by
  have htoggle : s.jukebox.receiveAll [.toggle] = s.jukebox.setPlaying !s.playingSongFlag := by
    rw [← hs.jukebox_playing]
    rfl
  rw [Receives, Option.toList_some, htoggle]
  rcases State.onPlayButtonClicked_ok h with ⟨hflag, hplay⟩ | ⟨hflag, rfl⟩
  · rw [hflag]
    exact playSong hs.shelves.songs hplay
  · rw [hflag]
    exact ⟨rfl, iff_of_false (by simp) (by simp [MediaShelf.pause])⟩

theorem onStopButtonClicked (hs : SongsInOrder s) :
    Receives s s.onStopButtonClicked (some .stop) := by
  rw [State.onStopButtonClicked]
  split_ifs with hflag
  · exact ⟨s.songs.jukebox_stop, iff_of_false (by simp) (by simp [MediaShelf.stop])⟩
  · exact ⟨(hs.setPlaying_false (by simpa using hflag)).symm, hs.flag⟩

/-- Both skips. -/
theorem skip (hs : SongsInOrder s) {signal : Jukebox.Signal Text} {s₁ : State}
    {f : MediaShelf → MediaShelf} (hf : (f s.songs).jukebox = s.songs.jukebox.receive signal)
    (hmove : s.moveSongs f = .ok s₁) (hskips : s.Skips s₁.toggleIfPastEnd) :
    Receives s s₁.toggleIfPastEnd (some signal) := by
  refine ⟨?_, State.songFlagTrue_of_skips hs.shelves hs.flag hskips⟩
  obtain ⟨text, -, rfl⟩ := State.moveSongs_ok hmove
  rw [State.toggleIfPastEnd]
  split_ifs <;> exact hf

/-- A video stops the song, on whatever page it is started. -/
theorem playVideo (hs : SongsInOrder s) {s₁ : State} (hsongs : s₁.songs = s.songs)
    (hflag : s₁.playingSongFlag = s.playingSongFlag) : Receives s s₁.playVideo (some .stop) := by
  have hflag₁ : s₁.SongFlagTrue := by
    rw [State.SongFlagTrue, hsongs, hflag]
    exact hs.flag
  refine ⟨?_, State.songFlagTrue_playVideo hflag₁⟩
  rw [State.jukebox, State.playVideo_songs, hsongs, hflag]
  split_ifs with hset
  · rfl
  · exact (hs.setPlaying_false (by simpa using hset)).symm

theorem onRepeatButtonClicked (hs : SongsInOrder s) : Receives s s.onRepeatButtonClicked
    (some (.setOrder s.onRepeatButtonClicked.ui.repeatButton.mode.order)) := by
  obtain ⟨-, -, hmode⟩ := onRepeatButtonClicked_spec hs.counters
  obtain ⟨k, mode, icon, -, heq⟩ := s.onRepeatButtonClicked_eq
  rw [heq] at hmode ⊢
  refine ⟨?_, hs.flag⟩
  rw [← hmode]
  exact s.songs.jukebox_setPlaybackMode mode

theorem onShuffleButtonClicked (hs : SongsInOrder s) : Receives s s.onShuffleButtonClicked
    (some (.setOrder (if s.onShuffleButtonClicked.ui.shuffleButton = .shufflePressed then
      .shuffled else .straight))) := by
  have hspec := (onShuffleButtonClicked_spec hs.counters).2.2
  obtain ⟨k, mode, icon, -, heq⟩ := s.onShuffleButtonClicked_eq
  rw [heq] at hspec ⊢
  refine ⟨?_, hs.flag⟩
  rcases hspec with ⟨-, hicon, hmode⟩ | ⟨-, hicon, hmode⟩
  · rw [if_pos hicon, show mode = _ from hmode]
    exact s.songs.jukebox_setPlaybackMode .random
  · rw [if_neg (by rw [hicon]; decide), show mode = _ from hmode]
    exact s.songs.jukebox_setPlaybackMode .sequential

theorem onSongListItemClicked (hs : SongsInOrder s) {i : ℕ} (hi : i < s.songs.rows.length)
    (h : s.onSongListItemClicked i = .ok s') : Receives s s' (some (.choose i)) := by
  have hlt : i < s.songs.playList.media.length := hs.parallel.1 ▸ hi
  have htrack : i < s.jukebox.tracks.length := by
    rwa [show s.jukebox.tracks.length = s.songs.playList.media.length from List.length_map _]
  obtain ⟨s₁, hmove, hplay⟩ := State.onSongListItemClicked_ok h
  have hjump : (s.songs.setCurrentIndex i).jukebox = _ :=
    hs.shelves.songs.jukebox_setCurrentIndex (by omega) (by omega)
  rw [Jukebox.moveTo_congr _ (entryAt_natCast i)] at hjump
  have hjump₁ : s₁.jukebox = s.jukebox.moveTo (some i) (by simpa using htrack) := by
    obtain ⟨text, -, rfl⟩ := State.moveSongs_ok hmove
    exact hjump
  have hchoose : s.jukebox.receiveAll [.choose i] = s₁.jukebox.setPlaying true := by
    rw [hjump₁]
    exact dif_pos htrack
  have hsound₁ := (UiEffect.moveSongs (fun m => .setCurrentIndex m _) hmove).shelvesSound hs.shelves
  rw [Receives, Option.toList_some, hchoose]
  rcases hplay with ⟨-, hplay⟩ | ⟨hflag, rfl⟩
  · exact playSong hsound₁.songs hplay
  · -- the song is heard already, so that only the index moves
    have hflag₁ : s'.SongFlagTrue := by
      rw [State.songFlagTrue_moveIndex hs.shelves.songs hs.flag hmove,
        setCurrentIndex_currentIndex s.songs ⟨by omega, by omega⟩]
      exact fun _ => by omega
    refine ⟨?_, hflag₁⟩
    have hplaying : s'.jukebox.playing = true := by
      rw [State.jukebox, hsound₁.songs.jukebox_playing]
      exact hflag₁.mp hflag
    rw [← hplaying, Jukebox.setPlaying_self]

theorem press {pick : ℕ} (b : Button) (hs : SongsInOrder s) (h : s.press pick b = .ok s') :
    Receives s s' (uiSignal s s' (.click b pick : Event W)) := by
  cases b <;> simp only [State.press, Except.ok.injEq] at h
  case playButton => exact hs.onPlayButtonClicked h
  case stopButton => exact h ▸ hs.onStopButtonClicked
  case forwardButton =>
    have hskips := State.onForwardButtonClicked_ok h
    obtain ⟨s₁, hmove, rfl⟩ := map_eq_ok_iff.mp h
    exact hs.skip (hs.shelves.songs.jukebox_next pick) hmove hskips
  case backwardButton =>
    have hskips := State.onBackwardButtonClicked_ok h
    obtain ⟨s₁, hmove, rfl⟩ := map_eq_ok_iff.mp h
    exact hs.skip (hs.shelves.songs.jukebox_previous pick) hmove hskips
  case repeatButton => exact h ▸ hs.onRepeatButtonClicked
  case shuffleButton => exact h ▸ hs.onShuffleButtonClicked
  case playVideoButton =>
    subst h
    rcases s.onPlayVideoButtonClicked_cases with ⟨hflag, heq⟩ | ⟨hflag, heq⟩ <;>
      rw [heq, uiSignal]
    · rw [if_pos hflag]
      exact hs.playVideo rfl rfl
    · rw [if_neg (by simp [hflag])]
      exact ⟨rfl, hs.flag⟩
  case forwardVideoButton =>
    subst h
    rcases s.onForwardVideoButtonClicked_cases with heq | ⟨pos, heq⟩ <;> rw [heq] <;>
      exact ⟨rfl, hs.flag⟩
  case darkThemeButton =>
    obtain ⟨flag, icon, heq⟩ := s.onDarkThemeButtonClicked_eq
    exact h ▸ heq ▸ ⟨rfl, hs.flag⟩
  all_goals exact h ▸ ⟨rfl, hs.flag⟩

theorem uiStep {e : Event W} {w : W} (hs : SongsInOrder s) (hshown : Shown e s)
    (hquiet : SongsUndisturbed (s, w) e) (h : uiStep s e = .ok s') :
    Receives s s' (uiSignal s s' e) := by
  cases e <;> simp only [Infotainment.uiStep, Except.ok.injEq] at h
  case click b pick => exact hs.press b h
  case bluetooth sh =>
    obtain ⟨status, label, shown, heq⟩ := s.updatBluetoothDevices_eq sh
    exact h ▸ heq ▸ ⟨rfl, hs.flag⟩
  case songRow i => exact hs.onSongListItemClicked hshown.2 h
  case videoRow i =>
    obtain ⟨text, -, rfl⟩ := State.onVideoListItemClicked_ok h
    exact hs.playVideo (by simp) (by simp)
  case songEnd pick =>
    have hplays : s.songs.player.playing = true := hshown
    have hcur := hs.shelves.songs.current hplays
    refine ⟨?_, ?_⟩
    · obtain ⟨text, -, rfl⟩ := State.moveSongs_ok h
      exact hs.shelves.songs.jukebox_next pick
    · rw [State.songFlagTrue_moveIndex hs.shelves.songs hs.flag h,
        setCurrentIndex_currentIndex _ (s.songs.playList.nextIndex_mem pick)]
      exact fun _ hend => hquiet.2.2 rfl
        ((QMediaPlaylist.nextIndex_eq_neg_one_iff hcur hs.shelves.songsMode).mp hend)
  all_goals exact h ▸ ⟨rfl, hs.flag⟩

/-- A poll loads the jukebox, empties it, or does nothing to it. -/
theorem poll {sh : Shell W} {w : W} {c : State × W} (hs : SongsInOrder s)
    (hquiet : SongsUndisturbed (s, w) (.poll sh)) (h : PollOutcome qt sh s w c) :
    Receives s c.1 (pollSignal qt sh (s, w) songsExt .sequential c.1.songs) := by
  obtain ⟨hempty, hsilent, -⟩ := hquiet
  have hjukebox := h.shelfPolls.1.jukebox hs.shelves.songs hs.parallel hempty
  refine ⟨hjukebox, ?_⟩
  rw [State.SongFlagTrue, h.flags_eq.1, ← (h.shelvesSound hs.shelves).songs.jukebox_playing,
    hjukebox, pollSignal]
  split_ifs with hnew hgone
  · -- nothing was heard, as there was nothing to hear
    refine iff_of_false (fun hflag => ?_) Bool.false_ne_true
    exact hs.shelves.songs.media_ne_nil (hs.flag.mp hflag) (hempty hnew.1 hnew.2)
  · exact iff_of_false (ne_true_of_eq_false (hsilent hgone)) Bool.false_ne_true
  · rw [← hs.jukebox_playing]
    rfl

/-- **One event.** -/
theorem step {x : Transition (State × W) (Event W)} (hs : SongsInOrder x.before.1)
    (hx : (undisturbedEvents qt W).Fires x) :
    SongsInOrder x.after.1 ∧ Receives x.before.1 x.after.1 (songSignal qt x) := by
  obtain ⟨⟨hshown, hquiet⟩, hstep⟩ := hx
  have hshelves := step_shelvesSound hstep hs.shelves
  rcases step_cases hstep with ⟨sh, he, houtcome⟩ | ⟨he, hui, -⟩
  · rw [he] at hquiet
    have hreceives : Receives x.before.1 x.after.1 (songSignal qt x) := by
      rw [songSignal, he]
      exact hs.poll hquiet houtcome
    have hparallel := houtcome.shelfPolls.1.parallel hs.parallel hquiet.1
    exact ⟨⟨hshelves, houtcome.countersShown hs.counters, hparallel, hreceives.2⟩, hreceives⟩
  · have hreceives : Receives x.before.1 x.after.1 (songSignal qt x) := by
      have hsignal : songSignal qt x = uiSignal x.before.1 x.after.1 x.event := by
        rw [songSignal]
        cases hevent : x.event with
        | poll sh => exact absurd hevent (he sh)
        | _ => rfl
      rw [hsignal]
      exact hs.uiStep hshown hquiet hui
    exact ⟨⟨hshelves, hs.counters.uiStep hui,
      (uiStep_effect _ hui).songs.sameFiles.parallel_iff.mpr hs.parallel, hreceives.2⟩, hreceives⟩

theorem tracks_eq (hs : SongsInOrder s) : s.jukebox.tracks = s.songs.rows :=
  (parallel_iff.mp hs.parallel).symm

/-- What happens in front of the screen can happen to the jukebox. -/
theorem enabled {x : Transition (State × W) (Event W)} (hs : SongsInOrder x.before.1)
    (hshown : Shown x.event x.before.1) {signal : Jukebox.Signal Text}
    (hsignal : songSignal qt x = some signal) :
    (Jukebox.machine Text).enabled signal x.before.1.jukebox := by
  cases hevent : x.event with
  | songRow i =>
    obtain rfl : Jukebox.Signal.choose i = signal := by
      simpa [songSignal, hevent, uiSignal] using hsignal
    rw [hevent] at hshown
    show i < x.before.1.jukebox.tracks.length
    rw [hs.tracks_eq]
    exact hshown.2
  | songEnd pick =>
    obtain rfl : Jukebox.Signal.finished pick = signal := by
      simpa [songSignal, hevent, uiSignal] using hsignal
    rw [hevent] at hshown
    exact hs.shelves.songs.jukebox_playing.trans hshown
  | click b pick =>
    rw [songSignal, hevent] at hsignal
    cases b <;> simp only [uiSignal, reduceCtorEq] at hsignal
    case playVideoButton =>
      split_ifs at hsignal
      obtain rfl := Option.some.inj hsignal
      trivial
    all_goals
      obtain rfl := Option.some.inj hsignal
      trivial
  | videoRow i =>
    obtain rfl : Jukebox.Signal.stop = signal := by
      simpa [songSignal, hevent, uiSignal] using hsignal
    trivial
  | poll sh =>
    rw [songSignal, hevent] at hsignal
    simp only [pollSignal] at hsignal
    split_ifs at hsignal <;>
      · obtain rfl := Option.some.inj hsignal
        trivial
  | _ => simp [songSignal, hevent, uiSignal] at hsignal

end SongsInOrder

/-! ## Whole runs -/

theorem songsInOrder_startup : SongsInOrder startup :=
  ⟨shelvesSound_startup, countersShown_startup, parallel_new, flagsTrue_startup.1⟩

/-- **The refinement.** -/
def songRefinement (qt : Qt) (W : Type) :
    (undisturbedEvents qt W).Refinement (Jukebox.machine Text) where
  inv c := SongsInOrder c.1
  view c := c.1.jukebox
  label := songSignal qt
  inv_start := fun {c} hc => by
    rw [show c.1 = startup from hc]
    exact songsInOrder_startup
  inv_step hx hs := (hs.step hx).1
  start := fun {c} hc => by
    rw [show c.1 = startup from hc]
    rfl
  silent hx hs hlabel := by
    have hreceives := (hs.step hx).2.1
    rwa [hlabel] at hreceives
  fires hx hs hlabel := by
    have hreceives := (hs.step hx).2.1
    rw [hlabel] at hreceives
    exact ⟨hs.enabled hx.1.1 hlabel, congrArg Except.ok hreceives.symm⟩

/-- **The song player is a jukebox.**  In a run in front of the screen in which nothing disturbs the
songs, what is heard and what is current change exactly as a jukebox would change that received the
signals of the events; the tracks are the rows the user sees, and the flag says what is heard. -/
theorem song_player_is_jukebox {l : List (Transition (State × W) (Event W))} {c : State × W}
    (h : (undisturbedEvents qt W).History l c) :
    (∃ l', (Jukebox.machine Text).History l' c.1.jukebox ∧
      l'.map Transition.event = l.filterMap (songSignal qt)) ∧
    c.1.jukebox.tracks = c.1.songs.rows ∧ c.1.jukebox.playing = c.1.songs.player.playing ∧
      c.1.jukebox.playing = c.1.playingSongFlag := by
  have hs : SongsInOrder c.1 := h.invariant (fun _ hc => (songRefinement qt W).inv_start hc)
    fun _ hx hI => (hI.step hx).1
  refine ⟨⟨_, h.refine (songRefinement qt W), Machine.Refinement.map_event_transitions _ l⟩,
    hs.tracks_eq, hs.shelves.songs.jukebox_playing, hs.jukebox_playing⟩

/-- A song is chosen, skipped, paused, and the stick pulled out. -/
theorem jukebox_of_one_stick :
    ∃ l c, (undisturbedEvents ⟨false⟩ Unit).History l c ∧ l.length = 6 ∧
      (∃ l', (Jukebox.machine Text).History l' c.1.jukebox ∧
        l'.map Transition.event = l.filterMap (songSignal ⟨false⟩)) ∧
      c.1.jukebox.tracks = c.1.songs.rows ∧ c.1.jukebox.playing = c.1.songs.player.playing ∧
        c.1.jukebox.playing = c.1.playingSongFlag := by
  obtain ⟨l, c, hl, -, hp⟩ := Machine.exists_history_of_replay
    (M := undisturbedEvents ⟨false⟩ Unit) (s := (startup, ())) rfl
    [.poll (stickShell "sda1".toList ["a.mp3".toList, "b.mp3".toList] [] 0),
      .click .musicButton 0, .songRow 0, .click .forwardButton 0, .click .playButton 0,
      .poll (stickShell [] [] [] 0)]
    (fun l _ => decide (l.length = 6)) (by decide +kernel)
  exact ⟨l, c, hl, of_decide_eq_true hp, song_player_is_jukebox hl⟩

end Infotainment
