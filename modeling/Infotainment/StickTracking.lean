import Infotainment.ParallelLists

/-!
# Following the stick

What the program knows of the stick is `flashStatus`, `usbName` and `usbPath`, and what the two
lists show.  Two questions about it are settled here, both for all runs of the program.

**Which stick is it?**  A poll sets the names and lists the files when it finds a stick after there
was none.  A poll that finds a stick after there was one does nothing, so the program follows the
stick unless it was exchanged for another between two polls (`follows_iff`).

**What does a removed stick leave behind?**  Nothing, if it was unmounted and its directory could be
removed: then both lists are cleared.  Otherwise they are kept, and no later poll comes back to
them, since `flashStatus` was set before (`leavesNothing_iff`).
-/

namespace Infotainment

open EventSystem MediaShelf

variable {W : Type} {qt : Qt}

/-! ## Which stick -/

/-- The history variable of a shelf after an update. -/
theorem MediaShelf.update_listed {m m' : MediaShelf} {ext usbPath count list : Text}
    {mode : PlaybackMode} {flashStatus : FlashStatus}
    (h : m.update qt ext mode flashStatus usbPath count list = some m') :
    m'.listed = if flashStatus = .flashDetected then some usbPath else none := by
  rcases update_cases h with ⟨rfl, -, rfl⟩ | ⟨rfl, -, rfl⟩ | ⟨rfl, -, rfl⟩ |
    ⟨rfl, -, paths, -, rfl⟩
  · rfl
  · rfl
  · rfl
  · rw [filled_listed]
    rfl

/-- What the program knows agrees with itself: both lists were made from the directory of the
stick that `usbName` names. -/
def Consistent (s : State) : Prop :=
  s.flashStatus = .flashDetected →
    s.usbPath = usbPathOf s.usbName ∧ s.songs.listed = some s.usbPath ∧
      s.videos.listed = some s.usbPath

/-- What the program knows is what the poll saw. -/
def Follows (sh : Shell W) (s : State) : Prop :=
  (devicesConnected sh ≠ [] →
    s.flashStatus = .flashDetected ∧ s.usbName = devicesConnected sh ∧
      s.usbPath = usbPathOf (devicesConnected sh) ∧
      s.songs.listed = some (usbPathOf (devicesConnected sh)) ∧
      s.videos.listed = some (usbPathOf (devicesConnected sh))) ∧
  (devicesConnected sh = [] → s.flashStatus = .noFlashDetected)

/-- If the poll sees a stick and the program already has one, it is the same. -/
def SameStick (sh : Shell W) (s : State) : Prop :=
  devicesConnected sh ≠ [] → s.flashStatus = .flashDetected → s.usbName = devicesConnected sh

instance (sh : Shell W) (s : State) : Decidable (Follows sh s) :=
  inferInstanceAs (Decidable (_ ∧ _))

instance (sh : Shell W) (s : State) : Decidable (SameStick sh s) :=
  inferInstanceAs (Decidable (_ → _))

theorem consistent_startup : Consistent startup := fun h => absurd h (by decide)

theorem UiEffect.consistent {s s' : State} (h : UiEffect s s') (hs : Consistent s) :
    Consistent s' := by
  intro hflash
  rw [h.flashStatus] at hflash
  show s'.usbPath = usbPathOf s'.usbName ∧ s'.songs.listed = some s'.usbPath ∧
    s'.videos.listed = some s'.usbPath
  rw [h.usbPath, h.usbName, h.songs.sameFiles.listed, h.videos.sameFiles.listed]
  exact hs hflash

theorem PollOutcome.consistent {sh : Shell W} {s : State} {w : W} {c : State × W}
    (h : PollOutcome qt sh s w c) (hs : Consistent s) : Consistent c.1 := by
  cases h with
  | inserted m v text hdev hflash hm hv =>
    intro
    simpa [State.withUsb] using And.intro (update_listed hm) (update_listed hv)
  | removed m v text hdev hflash hdetach hm hv =>
    intro h
    simp [State.withoutUsb] at h
  | notDetached hdev hflash hdetach =>
    intro h
    simp at h
  | noUsb hdev hflash =>
    intro h
    simp [State.noUsb, hflash] at h
  | unchanged hdev hflash =>
    intro h
    simpa using hs hflash

theorem step_consistent {e : Event W} {c c' : State × W} (h : step qt e c = .ok c')
    (hc : Consistent c.1) : Consistent c'.1 := by
  rcases step_cases h with ⟨sh, rfl, hpoll⟩ | ⟨he, hui, -⟩
  · exact hpoll.consistent hc
  · exact (uiStep_effect e hui).consistent hc

theorem consistent_of_history {l : List (Transition (State × W) (Event W))} {c : State × W}
    (h : (anyEvents qt W).History l c) : Consistent c.1 := by
  refine h.invariant (I := fun c' => Consistent c'.1) (fun c' hc' => hc' ▸ consistent_startup) ?_
  intro x hx hI
  exact step_consistent hx.2 hI

/-- From consistent knowledge, a poll leads to the truth exactly when the stick was not
exchanged. -/
theorem PollOutcome.follows_iff_sameStick {sh : Shell W} {s : State} {w : W} {c : State × W}
    (h : PollOutcome qt sh s w c) (hs : Consistent s) : Follows sh c.1 ↔ SameStick sh s := by
  cases h with
  | inserted m v text hdev hflash hm hv =>
    have hsongs := update_listed hm
    have hvideos := update_listed hv
    simp [Follows, SameStick, hdev, hflash, State.withUsb, hsongs, hvideos]
  | removed m v text hdev hflash hdetach hm hv =>
    simp [Follows, SameStick, hdev, State.withoutUsb]
  | notDetached hdev hflash hdetach =>
    simp [Follows, SameStick, hdev]
  | noUsb hdev hflash =>
    simp [Follows, SameStick, hdev, State.noUsb, hflash]
  | unchanged hdev hflash =>
    obtain ⟨hpath, hsongs, hvideos⟩ := hs hflash
    constructor
    · intro hfollows _ _
      simpa using (hfollows.1 hdev).2.1
    · intro hsame
      have hname := hsame hdev hflash
      simp [Follows, hdev, hflash, hpath, hsongs, hvideos, hname]

/-- **The program follows the stick, except where it was exchanged.**  After a poll of any run the
program knows what the poll saw exactly when the poll saw no stick other than the one the program
had. -/
theorem follows_iff {l : List (Transition (State × W) (Event W))} {c : State × W}
    (h : (anyEvents qt W).History l c) {x : Transition (State × W) (Event W)} (hx : x ∈ l)
    {sh : Shell W} (hpoll : x.event = .poll sh) :
    Follows sh x.after.1 ↔ SameStick sh x.before.1 := by
  obtain ⟨l₁, -, -, hbefore, hfires⟩ := h.exists_prefix hx
  have hstep : step qt (.poll sh) x.before = .ok x.after := hpoll ▸ hfires.2
  exact (poll_outcome hstep).follows_iff_sameStick (consistent_of_history hbefore)

/-- A stick that stays is followed. -/
theorem follows_while_it_stays :
    ∃ l c, (anyEvents ⟨false⟩ Unit).History l c ∧ l.length = 2 ∧
      ∀ x ∈ l, Follows (stickShell "sda1".toList ["a.mp3".toList] [] 0) x.after.1 := by
  obtain ⟨l, c, hl, hevents, hp⟩ := Machine.exists_history_of_replay
    (M := anyEvents ⟨false⟩ Unit) (s := (startup, ())) rfl
    (List.replicate 2 (.poll (stickShell "sda1".toList ["a.mp3".toList] [] 0)))
    (fun l _ => decide (l.length = 2 ∧
      ∀ x ∈ l, SameStick (stickShell "sda1".toList ["a.mp3".toList] [] 0) x.before.1))
    (by decide +kernel)
  obtain ⟨hlen, hsame⟩ := of_decide_eq_true hp
  refine ⟨l, c, hl, hlen, fun x hx => (follows_iff hl hx ?_).mpr (hsame x hx)⟩
  exact List.eq_of_mem_replicate (hevents ▸ List.mem_map_of_mem hx)

/-- A stick that takes the place of another between two polls is not noticed. -/
theorem exchanged_stick_not_followed :
    ¬ ∃ qt : Qt, ∀ l c, (anyEvents qt Unit).History l c →
      ∀ x ∈ l, ∀ sh, x.event = .poll sh → Follows sh x.after.1 := by
  rintro ⟨⟨rewinds⟩, hall⟩
  obtain ⟨l, c, hl, hevents, hp⟩ := Machine.exists_history_of_replay
    (M := anyEvents ⟨rewinds⟩ Unit) (s := (startup, ())) rfl
    [.poll (stickShell "sda1".toList [] [] 0), .poll (stickShell "sdb1".toList [] [] 0)]
    (fun l _ => decide (∀ x ∈ l.drop 1, ¬ Follows (stickShell "sdb1".toList [] [] 0) x.after.1))
    (by cases rewinds <;> decide +kernel)
  obtain ⟨x, y, rfl⟩ : ∃ x y, l = [x, y] := by
    rw [← List.length_eq_two, ← List.length_map (f := Transition.event), hevents]
    rfl
  simp only [List.map_cons, List.map_nil, List.cons.injEq, and_true] at hevents
  obtain ⟨-, hy⟩ := hevents
  exact of_decide_eq_true hp y (by simp) (hall _ c hl y (by simp) _ hy)

/-! ## What a removed stick leaves behind -/

namespace State

variable (s : State)

/-- Nothing is listed and nothing can be played. -/
def Emptied : Prop :=
  s.songs.rows = [] ∧ s.videos.rows = [] ∧ s.songs.playList.media = [] ∧
    s.videos.playList.media = []

instance : Decidable s.Emptied := inferInstanceAs (Decidable (_ ∧ _))

end State

/-- If the event is a poll that sees no stick, nothing is left in the lists. -/
def LeavesNothing (s : State) (e : Event W) : Prop :=
  e.OnPoll fun sh => devicesConnected sh = [] → s.Emptied

/-- If the event is a poll that finds the stick gone, its unmounting succeeds, or there is nothing
to clear. -/
def Detaches (c : State × W) (e : Event W) : Prop :=
  e.OnPoll fun sh => devicesConnected sh = [] → c.1.flashStatus = .flashDetected →
    (detachUsb sh c.1.usbName c.2).1 = true ∨ c.1.Emptied

instance (s : State) (e : Event W) : Decidable (LeavesNothing s e) :=
  inferInstanceAs (Decidable (e.OnPoll _))

instance (c : State × W) (e : Event W) : Decidable (Detaches c e) :=
  inferInstanceAs (Decidable (e.OnPoll _))

/-- The lists are parallel, and empty while there is no stick. -/
def Tidy (s : State) : Prop :=
  s.ListsParallel ∧ (s.flashStatus = .noFlashDetected → s.Emptied)

theorem tidy_startup : Tidy startup := ⟨listsParallel_startup, by decide⟩

/-- Without a stick an update of a parallel list empties it. -/
theorem MediaShelf.update_noFlash {m m' : MediaShelf} {ext usbPath count list : Text}
    {mode : PlaybackMode} (hm : m.Parallel)
    (h : m.update qt ext mode .noFlashDetected usbPath count list = some m') :
    m'.rows = [] ∧ m'.playList.media = [] := by
  rcases update_cases h with ⟨-, -, rfl⟩ | ⟨-, hrows, rfl⟩ | ⟨hflash, -⟩ | ⟨hflash, -⟩
  · exact ⟨rfl, rfl⟩
  · have hlen := hm.1
    rw [hrows] at hlen
    exact ⟨hrows, List.length_eq_zero_iff.mp hlen.symm⟩
  · exact absurd hflash (by decide)
  · exact absurd hflash (by decide)

theorem UiEffect.tidy {s s' : State} (h : UiEffect s s') (hs : Tidy s) : Tidy s' := by
  refine ⟨h.listsParallel_iff.mpr hs.1, fun hflash => ?_⟩
  rw [h.flashStatus] at hflash
  show s'.songs.rows = [] ∧ s'.videos.rows = [] ∧ s'.songs.playList.media = [] ∧
    s'.videos.playList.media = []
  rw [h.songs.sameFiles.rows, h.songs.sameFiles.media, h.videos.sameFiles.rows,
    h.videos.sameFiles.media]
  exact hs.2 hflash

/-- From a tidy state a poll leaves nothing behind exactly when it detaches the stick, and then it
leaves a tidy state. -/
theorem PollOutcome.leavesNothing_iff_detaches {sh : Shell W} {s : State} {w : W} {c : State × W}
    (h : PollOutcome qt sh s w c) (hs : Tidy s) :
    (LeavesNothing c.1 (.poll sh) ↔ Detaches (s, w) (.poll sh)) ∧
      (Detaches (s, w) (.poll sh) → Tidy c.1) := by
  have hfills : s.flashStatus = .noFlashDetected → FillsEmptyLists s (.poll sh) := by
    intro hflash _
    obtain ⟨-, -, hsongs, hvideos⟩ := hs.2 hflash
    exact ⟨fun _ => hsongs, fun _ => hvideos⟩
  have hparallel := h.listsParallel_iff hs.1
  cases h with
  | inserted m v text hdev hflash hm hv =>
    refine ⟨by simp [LeavesNothing, Detaches, hdev], fun _ => ⟨?_, ?_⟩⟩
    · exact hparallel.mpr (hfills hflash)
    · intro h
      simp [State.withUsb] at h
  | removed m v text hdev hflash hdetach hm hv =>
    obtain ⟨hmrows, hmmedia⟩ := update_noFlash hs.1.1 hm
    obtain ⟨hvrows, hvmedia⟩ := update_noFlash hs.1.2 hv
    have hfills' : FillsEmptyLists s (.poll sh) := fun hnew => absurd hdev hnew.1
    refine ⟨?_, fun _ => ⟨hparallel.mpr hfills', fun _ => ?_⟩⟩
    · simp [LeavesNothing, Detaches, State.Emptied, hdetach, hmrows, hmmedia, hvrows, hvmedia]
    · simp [State.Emptied, hmrows, hmmedia, hvrows, hvmedia]
  | notDetached hdev hflash hdetach =>
    have hsame : ({ s with flashStatus := .noFlashDetected } : State).showMediaBar.Emptied ↔
        s.Emptied := by
      simp [State.Emptied]
    have hiff : Detaches (s, w) (.poll sh) ↔ s.Emptied := by
      simp [Detaches, hdev, hflash, hdetach]
    refine ⟨?_, fun hC => ⟨?_, fun _ => hsame.mpr (hiff.mp hC)⟩⟩
    · rw [hiff, ← hsame]
      simp [LeavesNothing, hdev]
    · exact hparallel.mpr fun hnew => absurd hdev hnew.1
  | noUsb hdev hflash =>
    have hempty : s.noUsb.showMediaBar.Emptied := by
      simpa [State.Emptied, State.noUsb] using hs.2 hflash
    refine ⟨?_, fun _ => ⟨hparallel.mpr (hfills hflash), fun _ => hempty⟩⟩
    simp [LeavesNothing, Detaches, hempty, hflash]
  | unchanged hdev hflash =>
    refine ⟨by simp [LeavesNothing, Detaches, hdev], fun _ => ⟨?_, ?_⟩⟩
    · exact hparallel.mpr fun hnew => absurd (hnew.2.symm.trans hflash) (by decide)
    · intro h
      rw [State.showMediaBar_flashStatus, hflash] at h
      exact absurd h (by decide)

theorem step_leavesNothing_iff {e : Event W} {c c' : State × W} (h : step qt e c = .ok c')
    (hc : Tidy c.1) :
    (LeavesNothing c'.1 e ↔ Detaches c e) ∧ (Detaches c e → Tidy c'.1) := by
  rcases step_cases h with ⟨sh, rfl, hpoll⟩ | ⟨he, hui, -⟩
  · exact hpoll.leavesNothing_iff_detaches hc
  · exact ⟨iff_of_true (e.onPoll_of_ne he _) (e.onPoll_of_ne he _),
      fun _ => (uiStep_effect e hui).tidy hc⟩

/-- **A removed stick leaves nothing behind exactly when it is unmounted.**  Along a run, the lists
are empty after every poll that sees no stick if and only if every poll that found a stick gone
could unmount it and remove its directory, or had nothing to clear. -/
theorem leavesNothing_iff {l : List (Transition (State × W) (Event W))} {c : State × W}
    (h : (anyEvents qt W).History l c) :
    (∀ x ∈ l, LeavesNothing x.after.1 x.event) ↔ ∀ x ∈ l, Detaches x.before x.event := by
  refine h.forall_iff (J := fun c' => Tidy c'.1) (fun c' hc' => hc' ▸ tidy_startup) ?_ ?_
  · intro x hx hJ
    exact (step_leavesNothing_iff hx.2 hJ).1
  · intro x hx hJ hC
    exact (step_leavesNothing_iff hx.2 hJ).2 hC

/-- A stick that can be unmounted leaves nothing behind. -/
theorem leavesNothing_after_unmount :
    ∃ l c, (anyEvents ⟨false⟩ Unit).History l c ∧ l.length = 2 ∧
      ∀ x ∈ l, LeavesNothing x.after.1 x.event := by
  obtain ⟨l, c, hl, -, hp⟩ := Machine.exists_history_of_replay (M := anyEvents ⟨false⟩ Unit)
    (s := (startup, ())) rfl
    [.poll (stickShell "sda1".toList ["a.mp3".toList] [] 0), .poll (stickShell [] [] [] 0)]
    (fun l _ => decide (l.length = 2 ∧ ∀ x ∈ l, Detaches x.before x.event)) (by decide +kernel)
  obtain ⟨hlen, hC⟩ := of_decide_eq_true hp
  exact ⟨l, c, hl, hlen, (leavesNothing_iff hl).mpr hC⟩

/-- A stick that cannot be unmounted leaves its song behind. -/
theorem song_left_after_failed_unmount :
    ¬ ∃ qt : Qt, ∀ l c, (anyEvents qt Unit).History l c →
      ∀ x ∈ l, LeavesNothing x.after.1 x.event := by
  rintro ⟨⟨rewinds⟩, hall⟩
  obtain ⟨l, c, hl, -, hp⟩ := Machine.exists_history_of_replay (M := anyEvents ⟨rewinds⟩ Unit)
    (s := (startup, ())) rfl
    [.poll (stickShell "sda1".toList ["a.mp3".toList] [] 0), .poll (stickShell [] [] [] 1)]
    (fun l _ => decide ¬ ∀ x ∈ l, LeavesNothing x.after.1 x.event)
    (by cases rewinds <;> decide +kernel)
  exact of_decide_eq_true hp (hall l c hl)

end Infotainment
