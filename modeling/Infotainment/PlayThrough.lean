import Infotainment.SongJukebox
import Infotainment.MediaLabel

/-!
# Letting the songs play

What is known of jukeboxes is known of the song player as well.  Two uses are made of that, and both
are about what has happened since some point of a run.  Songs that are left alone are followed by
those that the playback mode puts after them (`songs_play_through`).  In `loop` mode, forward
and backward are additions modulo the number of songs, whatever their order (`skips_add_up`).  In
both cases other things may go on at the same time, as long as they are not about the songs, and
the label names the song that is heard.
-/

namespace Infotainment

open EventSystem MediaShelf

variable {W : Type} {qt : Qt}

theorem PlaybackMode.order_eq_straight_iff {mode : PlaybackMode} :
    mode.order = .straight ↔ mode = .sequential := by
  cases mode <;> decide

theorem PlaybackMode.order_goesOn {mode : PlaybackMode} (h : mode ≠ .random)
    (h' : mode ≠ .currentItemOnce) : mode.order.GoesOn := by
  cases mode with
  | random => exact absurd rfl h
  | currentItemOnce => exact absurd rfl h'
  | _ => exact ⟨nofun, nofun⟩

/-- The song in that row is heard, the flag says so, and the label names it. -/
structure Hears (s : State) (k : ℕ) : Prop where
  playing : s.songs.player.playing = true
  flag : s.playingSongFlag = true
  current : s.songs.playList.currentIndex = k
  label : s.songs.rows[k]? = some s.ui.currentRunningMediaLabel

/-- What the slots rely on, for the jukebox and for the label. -/
structure Tuned (s : State) : Prop where
  inOrder : SongsInOrder s
  labelled : Labelled s

theorem index_of_current {s : State} {k : ℕ} (h : s.jukebox.current = some k) :
    s.songs.playList.currentIndex = k :=
  (entryAt_eq_some_iff s.songs.playList.neg_one_le).mp h

namespace Tuned

variable {s : State}

/-- Reading the jukebox. -/
theorem hears (hs : Tuned s) {k : ℕ} (hcurrent : s.jukebox.current = some k)
    (hplaying : s.jukebox.playing = true) : Hears s k := by
  have hplays : s.songs.player.playing = true :=
    hs.inOrder.shelves.songs.jukebox_playing.symm.trans hplaying
  have hindex := index_of_current hcurrent
  refine ⟨hplays, hs.inOrder.flag.mpr hplays, hindex, ?_⟩
  have hnamed : s.songs.playList.currentMedia.map baseName =
      some s.ui.currentRunningMediaLabel := hs.labelled.label hplays
  rw [QMediaPlaylist.currentMedia, hindex, if_pos (by omega), Int.toNat_natCast,
    ← List.getElem?_map, ← parallel_iff.mp hs.inOrder.parallel] at hnamed
  exact hnamed

/-- An event after which everything is in order again. -/
theorem step {x : Transition (State × W) (Event W)} (hs : Tuned x.before.1)
    (hx : (undisturbedEvents qt W).Fires x) : Tuned x.after.1 where
  inOrder := (hs.inOrder.step hx).1
  labelled := step_labelled hs.labelled hx.1.1 hx.1.2.1 hx.2

end Tuned

theorem tuned_of_history {l : List (Transition (State × W) (Event W))} {c : State × W}
    (h : (undisturbedEvents qt W).History l c) : Tuned c.1 := by
  refine h.invariant (I := fun c => Tuned c.1) (fun c hc => ?_) fun x hx hI => hI.step hx
  rw [show c.1 = startup from hc]
  exact ⟨songsInOrder_startup, parallel_new, shelvesSound_startup, .startup,
    State.labelNamesSong_startup⟩

/-! ## Songs that end -/

/-- Nothing happens to the songs, except that one may come to its end. -/
def LeftAlone (qt : Qt) (y : Transition (State × W) (Event W)) : Prop :=
  songSignal qt y = none ∨ y.event.isSongEnd = true

instance (qt : Qt) (y : Transition (State × W) (Event W)) : Decidable (LeftAlone qt y) :=
  inferInstanceAs (Decidable (_ ∨ _))

/-- How many songs come to their end. -/
def songEnds (l : List (Transition (State × W) (Event W))) : ℕ :=
  l.countP fun y => y.event.isSongEnd

/-- In this order and among these rows, song `i` is heard. -/
structure Plays (o : Order) (rows : List Text) (i : ℕ) (s : State) : Prop where
  current : s.jukebox.current = some i
  playing : s.jukebox.playing = true
  tracks : s.jukebox.tracks = rows
  order : s.jukebox.order = o

theorem Tuned.plays {s : State} (hs : Tuned s) (hplays : s.songs.player.playing = true) {i : ℕ}
    (hi : s.songs.playList.currentIndex = i) :
    Plays s.songs.playList.playbackMode.order s.songs.rows
      (Jukebox.trackAfter s.songs.playList.playbackMode.order s.songs.rows.length i 0) s := by
  have hcurrent : s.jukebox.current = some i :=
    (congrArg entryAt hi).trans (entryAt_natCast i)
  have hlt := s.jukebox.lt_length i hcurrent
  rw [hs.inOrder.tracks_eq] at hlt
  rw [Jukebox.trackAfter_zero hlt]
  exact ⟨hcurrent, hs.inOrder.shelves.songs.jukebox_playing.trans hplays, hs.inOrder.tracks_eq, rfl⟩

/-- One transition that leaves the songs alone. -/
theorem Plays.step {o : Order} {rows : List Text} {i k : ℕ}
    {y : Transition (State × W) (Event W)} (ho : o.GoesOn)
    (hs : Plays o rows (Jukebox.trackAfter o rows.length i k) y.before.1)
    (htuned : Tuned y.before.1)
    (hy : (undisturbedEvents qt W).Fires y) (halone : LeftAlone qt y) :
    Plays o rows (Jukebox.trackAfter o rows.length i (k + songEnds [y])) y.after.1 := by
  obtain ⟨hreceives, -⟩ := (htuned.inOrder.step hy).2
  obtain ⟨hcurrent, hplaying, rfl, rfl⟩ := hs
  rcases halone with hnone | hend
  · have hjukebox : y.after.1.jukebox = y.before.1.jukebox := by rwa [hnone] at hreceives
    have hends : songEnds [y] = 0 := by
      refine List.countP_eq_zero.mpr fun z hz => ?_
      obtain rfl := List.mem_singleton.mp hz
      cases hevent : z.event with
      | songEnd pick => simp [songSignal, hevent, uiSignal] at hnone
      | _ => exact Bool.false_ne_true
    rw [hends, Nat.add_zero]
    exact ⟨hjukebox ▸ hcurrent, hjukebox ▸ hplaying, by rw [hjukebox], by rw [hjukebox]⟩
  · obtain ⟨pick, hevent⟩ : ∃ pick, y.event = .songEnd pick := by
      cases hevent : y.event with
      | songEnd pick => exact ⟨pick, rfl⟩
      | _ => simp [hevent, Event.isSongEnd] at hend
    have hjukebox : y.after.1.jukebox = y.before.1.jukebox.receive (.finished pick) := by
      rwa [show songSignal qt y = some (.finished pick) by rw [songSignal, hevent]; rfl]
        at hreceives
    have hstays : y.before.1.jukebox.order = .straight →
        Jukebox.trackAfter y.before.1.jukebox.order y.before.1.jukebox.tracks.length i k + 1 <
          y.before.1.jukebox.tracks.length := by
      intro hstraight
      have hlt := y.before.1.jukebox.lt_length _ hcurrent
      have hindex := (htuned.hears hcurrent hplaying).current
      have hquiet : SongsUndisturbed y.before (.songEnd pick : Event W) := hevent ▸ hy.1.2
      have hlast : y.before.1.songs.playList.currentIndex ≠
          y.before.1.songs.playList.media.length - 1 :=
        fun h => hquiet.2.2 rfl ⟨PlaybackMode.order_eq_straight_iff.mp hstraight, h⟩
      have hlen : y.before.1.jukebox.tracks.length = y.before.1.songs.playList.media.length :=
        List.length_map _
      omega
    obtain ⟨hnext, hheard⟩ := Jukebox.receive_finished ho hcurrent hplaying hstays pick
    rw [show songEnds [y] = 1 from List.countP_singleton.trans (if_pos hend)]
    exact ⟨hjukebox ▸ hnext, hjukebox ▸ hheard, by rw [hjukebox]; rfl, by rw [hjukebox]; rfl⟩

/-- **Letting the songs play.**  When a song is heard and from then on nothing is done to the songs,
the song that is heard after some of them have ended is the one that the playback mode puts that
many places further on; the label names it, and the list is the same. -/
theorem songs_play_through {l l' : List (Transition (State × W) (Event W))}
    {x : Transition (State × W) (Event W)} {c : State × W}
    (h : (undisturbedEvents qt W).History (l ++ x :: l') c)
    {i : ℕ} (hplays : x.after.1.songs.player.playing = true)
    (hi : x.after.1.songs.playList.currentIndex = i)
    (hmode : x.after.1.songs.playList.playbackMode ≠ .random)
    (halone : ∀ y ∈ l', LeftAlone qt y) :
    Hears c.1 (Jukebox.trackAfter x.after.1.songs.playList.playbackMode.order
        x.after.1.songs.rows.length i (songEnds l')) ∧
      c.1.songs.rows = x.after.1.songs.rows := by
  have hstart : Tuned x.after.1 := tuned_of_history h.upTo
  have hgoesOn := PlaybackMode.order_goesOn hmode hstart.inOrder.shelves.songsMode
  obtain ⟨htuned, hend⟩ : Tuned c.1 ∧ Plays x.after.1.songs.playList.playbackMode.order
      x.after.1.songs.rows (Jukebox.trackAfter x.after.1.songs.playList.playbackMode.order
        x.after.1.songs.rows.length i (songEnds l')) c.1 := by
    refine h.since (I := fun l₁ c' => Tuned c'.1 ∧ Plays _ _ (Jukebox.trackAfter _ _ i
        (songEnds l₁)) c'.1)
      (C := fun y => LeftAlone qt y) (fun _ => ⟨hstart, hstart.plays hplays hi⟩)
      (fun l₁ y _ hy hC hI => ?_) halone
    rw [songEnds, List.countP_append]
    exact ⟨hI.1.step hy, hI.2.step hgoesOn hI.1 hy hC⟩
  exact ⟨htuned.hears hend.current hend.playing, htuned.inOrder.tracks_eq.symm.trans hend.tracks⟩

/-- Two of three songs end while the volume is changed and the devices are polled. -/
theorem third_song_after_two_ends :
    ∃ l x l' c, (undisturbedEvents ⟨false⟩ Unit).History (l ++ x :: l') c ∧
      songEnds l' = 2 ∧ l'.length = 5 ∧
      Hears c.1 (Jukebox.trackAfter x.after.1.songs.playList.playbackMode.order
        x.after.1.songs.rows.length (0 : ℕ) (songEnds l')) ∧
      c.1.songs.rows = x.after.1.songs.rows := by
  obtain ⟨l, c, hl, -, hp⟩ := Machine.exists_history_of_replay
    (M := undisturbedEvents ⟨false⟩ Unit) (s := (startup, ())) rfl
    [.poll (stickShell "sda1".toList ["a.mp3".toList, "b.mp3".toList, "c.mp3".toList] [] 0),
      .click .musicButton 0, .songRow 0, .songEnd 0, .click .volumeUpButton 0, .songEnd 0,
      .poll (stickShell "sda1".toList [] [] 0), .click .homeButtonMs 0]
    (fun l c => match l.drop 2 with
      | [] => false
      | x :: l' => decide (x.after.1.songs.player.playing = true ∧
          x.after.1.songs.playList.currentIndex = 0 ∧
          x.after.1.songs.playList.playbackMode ≠ .random ∧ (∀ y ∈ l', LeftAlone ⟨false⟩ y) ∧
          songEnds l' = 2 ∧ l'.length = 5)) (by decide +kernel)
  cases hd : l.drop 2 with
  | nil => simp [hd] at hp
  | cons x l' =>
    simp only [hd, decide_eq_true_eq] at hp
    obtain ⟨hplays, hi, hmode, halone, hlen⟩ := hp
    rw [← List.take_append_drop 2 l, hd] at hl
    exact ⟨_, x, l', c, hl, hlen.1, hlen.2, songs_play_through hl hplays hi hmode halone⟩

/-! ## Skips -/

/-- How far an event takes the playlist that goes around. -/
def Event.songTurn : Event W → ℤ
  | .click .forwardButton _ | .songEnd _ => 1
  | .click .backwardButton _ => -1
  | _ => 0

/-- Nothing happens to the songs, except that one may be skipped or come to its end. -/
def OnlySkips (qt : Qt) (y : Transition (State × W) (Event W)) : Prop :=
  songSignal qt y = none ∨ y.event.songTurn ≠ 0

instance (qt : Qt) (y : Transition (State × W) (Event W)) : Decidable (OnlySkips qt y) :=
  inferInstanceAs (Decidable (_ ∨ _))

/-- An event that turns the playlist is a skip to the jukebox. -/
theorem songSignal_of_songTurn (qt : Qt) {y : Transition (State × W) (Event W)}
    (h : y.event.songTurn ≠ 0) :
    ∃ e, songSignal qt y = some e ∧ e.IsSkip ∧ e.turn = y.event.songTurn := by
  cases hevent : y.event with
  | click b pick =>
    rw [hevent] at h
    cases b with
    | forwardButton =>
      exact ⟨.forward pick, by simp [songSignal, hevent, uiSignal], ⟨pick, .inl rfl⟩, rfl⟩
    | backwardButton =>
      exact ⟨.backward pick, by simp [songSignal, hevent, uiSignal], ⟨pick, .inr (.inr rfl)⟩, rfl⟩
    | _ => exact absurd rfl h
  | songEnd pick =>
    exact ⟨.finished pick, by simp [songSignal, hevent, uiSignal], ⟨pick, .inr (.inl rfl)⟩, rfl⟩
  | _ =>
    rw [hevent] at h
    exact absurd rfl h

theorem OnlySkips.isSkip {y : Transition (State × W) (Event W)} (h : OnlySkips qt y)
    {e : Jukebox.Signal Text} (he : songSignal qt y = some e) :
    e.IsSkip ∧ e.turn = y.event.songTurn := by
  rcases h with hnone | hturn
  · rw [hnone] at he
    exact nomatch he
  · obtain ⟨e', he', hskip⟩ := songSignal_of_songTurn qt hturn
    obtain rfl := Option.some.inj (he'.symm.trans he)
    exact hskip

/-- The jukebox is turned as far as the playlist. -/
theorem sum_turn {l' : List (Transition (State × W) (Event W))}
    (h : ∀ y ∈ l', OnlySkips qt y) :
    ((l'.filterMap (songSignal qt)).map Jukebox.Signal.turn).sum =
      (l'.map fun y => y.event.songTurn).sum := by
  induction l' with
  | nil => rfl
  | cons y l' ih =>
    have hrest := ih fun z hz => h z (List.mem_cons_of_mem _ hz)
    rw [List.map_cons, List.sum_cons, ← hrest]
    cases hsignal : songSignal qt y with
    | none =>
      have hzero : y.event.songTurn = 0 := by
        by_contra hturn
        obtain ⟨e, he, -⟩ := songSignal_of_songTurn qt hturn
        exact nomatch hsignal.symm.trans he
      rw [List.filterMap_cons_none hsignal, hzero, zero_add]
    | some e =>
      have hturn := ((h y List.mem_cons_self).isSkip hsignal).2
      rw [List.filterMap_cons_some hsignal, List.map_cons, List.sum_cons, hturn]

/-- **Skips add up.**  In `loop` mode, when from some point on nothing is done to the songs but
skipping, the current song is as many places further on, modulo the number of songs, as the skips
forward and the ends of songs together exceed the skips backward.  Playing it goes on or stays
off, and the label names it if it is heard. -/
theorem skips_add_up {l l' : List (Transition (State × W) (Event W))}
    {x : Transition (State × W) (Event W)} {c : State × W}
    (h : (undisturbedEvents qt W).History (l ++ x :: l') c)
    {i : ℕ} (hi : x.after.1.songs.playList.currentIndex = i)
    (hmode : x.after.1.songs.playList.playbackMode = .loop)
    (hskips : ∀ y ∈ l', OnlySkips qt y) :
    ∃ k : ℕ, c.1.songs.playList.currentIndex = k ∧
      (k : ℤ) = (i + (l'.map fun y => y.event.songTurn).sum) % c.1.songs.rows.length ∧
      c.1.songs.player.playing = x.after.1.songs.player.playing ∧
      (c.1.songs.player.playing = true → Hears c.1 k) := by
  have htuned : Tuned c.1 := tuned_of_history h
  have hstart : Tuned x.after.1 := tuned_of_history h.upTo
  have hreceived : x.after.1.jukebox.receiveAll (l'.filterMap (songSignal qt)) = c.1.jukebox :=
    Except.ok.inj ((Jukebox.run_machine _ _).symm.trans (h.run_since (songRefinement qt W)))
  have hcurrent : x.after.1.jukebox.current = some i :=
    (congrArg entryAt hi).trans (entryAt_natCast i)
  have horder : x.after.1.jukebox.order = .around := congrArg PlaybackMode.order hmode
  obtain ⟨k, hk, hsum, htracks, hplaying⟩ := Jukebox.skip_run horder hcurrent
    (l'.filterMap (songSignal qt)) fun e he => by
      obtain ⟨y, hy, hsignal⟩ := List.mem_filterMap.mp he
      exact ((hskips y hy).isSkip hsignal).1
  rw [hreceived] at hk htracks hplaying
  rw [sum_turn hskips, ← htracks, htuned.inOrder.tracks_eq] at hsum
  have hplays : c.1.songs.player.playing = x.after.1.songs.player.playing := by
    rw [← htuned.inOrder.shelves.songs.jukebox_playing,
      ← hstart.inOrder.shelves.songs.jukebox_playing]
    exact hplaying
  refine ⟨k, ?_, hsum, hplays, fun hheard => ?_⟩
  · exact index_of_current hk
  · exact htuned.hears hk (htuned.inOrder.shelves.songs.jukebox_playing.trans hheard)

/-- Three skips and the end of a song, among three songs. -/
theorem loop_after_four_skips :
    ∃ l x l' c, (undisturbedEvents ⟨false⟩ Unit).History (l ++ x :: l') c ∧ l'.length = 5 ∧
      ∃ k : ℕ, c.1.songs.playList.currentIndex = k ∧
        (k : ℤ) = ((1 : ℕ) + (l'.map fun y => y.event.songTurn).sum) % c.1.songs.rows.length ∧
        c.1.songs.player.playing = x.after.1.songs.player.playing ∧
        (c.1.songs.player.playing = true → Hears c.1 k) := by
  obtain ⟨l, c, hl, -, hp⟩ := Machine.exists_history_of_replay
    (M := undisturbedEvents ⟨false⟩ Unit) (s := (startup, ())) rfl
    [.poll (stickShell "sda1".toList ["a.mp3".toList, "b.mp3".toList, "c.mp3".toList] [] 0),
      .click .musicButton 0, .songRow 1, .click .repeatButton 0, .click .backwardButton 0,
      .click .backwardButton 0, .songEnd 0, .click .volumeUpButton 0, .click .backwardButton 0]
    (fun l c => match l.drop 3 with
      | [] => false
      | x :: l' => decide (x.after.1.songs.playList.currentIndex = 1 ∧
          x.after.1.songs.playList.playbackMode = .loop ∧ (∀ y ∈ l', OnlySkips ⟨false⟩ y) ∧
          l'.length = 5)) (by decide +kernel)
  cases hd : l.drop 3 with
  | nil => simp [hd] at hp
  | cons x l' =>
    simp only [hd, decide_eq_true_eq] at hp
    obtain ⟨hi, hmode, hskips, hlen⟩ := hp
    rw [← List.take_append_drop 3 l, hd] at hl
    exact ⟨_, x, l', c, hl, hlen, skips_add_up hl hi hmode hskips⟩

end Infotainment
