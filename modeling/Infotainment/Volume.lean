import Infotainment.Events
import Mathlib.Algebra.Order.Group.Abs
import Mathlib.Algebra.Order.Group.Int

/-!
# The volume buttons

There are two players, two volume buttons for each, and one variable `currentVolume`.  A press
moves the variable by `volumeStep`, keeps it between `minVolume` and `maxVolume`, and sets the
volume of its own player to it.

What a press does to the volume the user hears therefore depends on how far that volume was from
`currentVolume` before.  The two are set apart from the beginning --- the variable starts at 50
and the players at 100 --- and again by every press for the other player.  `InStep` says when a
press moves its player one step its own way or not at all, and `goodPress_iff` that it otherwise
does not.  At startup it never does, so the first press always goes wrong
(`volume_presses_iff`).
-/

namespace Infotainment

open EventSystem

/-! ## Presses -/

/-- The players. -/
inductive Player where
  | music
  | video
  deriving DecidableEq

/-- The two directions of a volume button. -/
inductive Direction where
  | up
  | down
  deriving DecidableEq

/-- A press of a volume button. -/
structure VolumePress where
  player : Player
  direction : Direction
  deriving DecidableEq

/-- The button that is pressed. -/
def VolumePress.button : VolumePress → Button
  | ⟨.music, .up⟩ => .volumeUpButton
  | ⟨.music, .down⟩ => .volumeDownButton
  | ⟨.video, .up⟩ => .volumeUpVideoButton
  | ⟨.video, .down⟩ => .volumeDownVideoButton

/-- The program, from startup, when nothing but the volume buttons is pressed. -/
def volumePresses : Machine State VolumePress Fault :=
  presses VolumePress.button (· = startup)

instance (e : VolumePress) (s : State) : Decidable (volumePresses.enabled e s) :=
  inferInstanceAs (Decidable True)

namespace State

/-- The volume of a player. -/
def volumeOf (s : State) : Player → ℤ
  | .music => s.songs.player.volume
  | .video => s.videos.player.volume

/-- `currentVolume` after a press in this direction. -/
def nextVolume (s : State) : Direction → ℤ
  | .up => s.volumeUp
  | .down => s.volumeDown

variable {s s' : State}

/-- **What a press does.**  The variable moves, the player follows it, and the other player is left
alone. -/
theorem press_volume {p : VolumePress} (h : s.press 0 p.button = .ok s') :
    s'.currentVolume = s.nextVolume p.direction ∧
      s'.volumeOf p.player = s.nextVolume p.direction ∧
      ∀ player ≠ p.player, s'.volumeOf player = s.volumeOf player := by
  obtain ⟨player, direction⟩ := p
  cases player <;> cases direction <;> rw [← Except.ok.inj h] <;> refine ⟨rfl, rfl, ?_⟩ <;>
    rintro (_ | _) hne <;> first | rfl | exact absurd rfl hne

end State

/-! ## Where the volumes are -/

/-- Between `minVolume` and `maxVolume`. -/
def InRange (volume : ℤ) : Prop := minVolume ≤ volume ∧ volume ≤ maxVolume

instance (volume : ℤ) : Decidable (InRange volume) := inferInstanceAs (Decidable (_ ∧ _))

/-- The variable and both volumes are whole steps from the bottom of the range. -/
structure VolumesInRange (s : State) : Prop where
  current : InRange s.currentVolume
  current_dvd : volumeStep ∣ s.currentVolume
  player (player : Player) : InRange (s.volumeOf player)
  player_dvd (player : Player) : volumeStep ∣ s.volumeOf player

theorem volumesInRange_startup : VolumesInRange startup where
  current := by decide
  current_dvd := by decide
  player player := by cases player <;> decide
  player_dvd player := by cases player <;> decide

variable {s s' : State}

theorem VolumesInRange.nextVolume (hs : VolumesInRange s) (direction : Direction) :
    InRange (s.nextVolume direction) ∧ volumeStep ∣ s.nextVolume direction := by
  obtain ⟨hlow, hhigh⟩ := hs.current
  have hdvd := hs.current_dvd
  cases direction <;>
    simp only [State.nextVolume, State.volumeUp, State.volumeDown, InRange, volumeStep, minVolume,
      maxVolume] at * <;>
    split_ifs <;> omega

/-- The other player keeps its volume, and this one gets the new value. -/
theorem VolumesInRange.press {p : VolumePress} (hs : VolumesInRange s)
    (h : s.press 0 p.button = .ok s') : VolumesInRange s' := by
  obtain ⟨hcurrent, hplayer, hother⟩ := State.press_volume h
  obtain ⟨hrange, hdvd⟩ := hs.nextVolume p.direction
  refine ⟨hcurrent ▸ hrange, hcurrent ▸ hdvd, fun player => ?_, fun player => ?_⟩
  · by_cases hp : player = p.player
    · rw [hp, hplayer]
      exact hrange
    · rw [hother player hp]
      exact hs.player player
  · by_cases hp : player = p.player
    · rw [hp, hplayer]
      exact hdvd
    · rw [hother player hp]
      exact hs.player_dvd player

theorem volumesInRange_of_history {l : List (Transition State VolumePress)} {s : State}
    (h : volumePresses.History l s) : VolumesInRange s :=
  h.invariant (fun _ hs => hs ▸ volumesInRange_startup) fun _ hx hI => hI.press hx.2

/-! ## What a press should do -/

/-- From `old` to `new` the volume does not go the other way. -/
def Direction.Agrees : Direction → ℤ → ℤ → Prop
  | .up, old, new => old ≤ new
  | .down, old, new => new ≤ old

instance : ∀ (d : Direction) (old new : ℤ), Decidable (d.Agrees old new)
  | .up, _, _ => inferInstanceAs (Decidable (_ ≤ _))
  | .down, _, _ => inferInstanceAs (Decidable (_ ≤ _))

/-- The press moves the volume of its player its own way, by at most one step, and neither the
volume nor `currentVolume` leaves the range. -/
def GoodPress (x : Transition State VolumePress) : Prop :=
  x.event.direction.Agrees (x.before.volumeOf x.event.player) (x.after.volumeOf x.event.player) ∧
    |x.after.volumeOf x.event.player - x.before.volumeOf x.event.player| ≤ volumeStep ∧
    InRange x.after.currentVolume ∧ InRange (x.after.volumeOf x.event.player)

/-- The player's volume, compared with `currentVolume`: it is the same, or one step ahead in the
direction of the press, or --- where the variable cannot go further --- one step behind. -/
def Direction.InStep : Direction → ℤ → ℤ → Prop
  | .up, current, volume =>
    volume = current ∨ volume = current + volumeStep ∨
      (current = maxVolume ∧ volume = current - volumeStep)
  | .down, current, volume =>
    volume = current ∨ volume = current - volumeStep ∨
      (current = minVolume ∧ volume = current + volumeStep)

instance : ∀ (d : Direction) (current volume : ℤ), Decidable (d.InStep current volume)
  | .up, _, _ => inferInstanceAs (Decidable (_ ∨ _ ∨ (_ ∧ _)))
  | .down, _, _ => inferInstanceAs (Decidable (_ ∨ _ ∨ (_ ∧ _)))

/-- **Which presses are good.** -/
theorem goodPress_iff {x : Transition State VolumePress} (hs : VolumesInRange x.before)
    (h : x.before.press 0 x.event.button = .ok x.after) :
    GoodPress x ↔
      x.event.direction.InStep x.before.currentVolume (x.before.volumeOf x.event.player) := by
  obtain ⟨hcurrent, hplayer, -⟩ := State.press_volume h
  obtain ⟨hrange, -⟩ := hs.nextVolume x.event.direction
  have hlow := hs.current
  have hdvd := hs.current_dvd
  have hvolume := hs.player x.event.player
  have hvolume_dvd := hs.player_dvd x.event.player
  have hgood : GoodPress x ↔
      x.event.direction.Agrees (x.before.volumeOf x.event.player)
          (x.before.nextVolume x.event.direction) ∧
        |x.before.nextVolume x.event.direction - x.before.volumeOf x.event.player| ≤
          volumeStep := by
    rw [GoodPress, hcurrent, hplayer]
    exact and_congr_right fun _ => and_iff_left ⟨hrange, hrange⟩
  rw [hgood, abs_le]
  clear hgood hrange hcurrent hplayer h
  generalize x.before.volumeOf x.event.player = volume at *
  cases x.event.direction <;>
    simp only [Direction.Agrees, Direction.InStep, State.nextVolume, State.volumeUp,
      State.volumeDown, InRange, volumeStep, minVolume, maxVolume] at * <;>
    split_ifs <;> omega

/-- At startup no press is in step. -/
theorem not_inStep_startup (p : VolumePress) :
    ¬ p.direction.InStep startup.currentVolume (startup.volumeOf p.player) := by
  obtain ⟨player, direction⟩ := p
  cases player <;> cases direction <;> decide

/-- **When the volume buttons do what they say.**  Along any sequence of presses from startup the
volumes stay in range, and a press is good exactly when its player is in step with `currentVolume`.
The first press never is, so the only sequence of good presses is the empty one. -/
theorem volume_presses_iff {l : List (Transition State VolumePress)} {s : State}
    (h : volumePresses.History l s) :
    ((∀ x ∈ l, GoodPress x) ↔ l = []) ∧
      ∀ x ∈ l, InRange x.after.currentVolume ∧ InRange (x.after.volumeOf x.event.player) ∧
        (GoodPress x ↔ x.event.direction.InStep x.before.currentVolume
          (x.before.volumeOf x.event.player)) := by
  have hiff : ∀ x ∈ l, VolumesInRange x.before ∧ volumePresses.Fires x := by
    intro x hx
    obtain ⟨l₁, -, -, hbefore, hfires⟩ := h.exists_prefix hx
    exact ⟨volumesInRange_of_history hbefore, hfires⟩
  refine ⟨⟨fun hgood => ?_, by rintro rfl; simp⟩, fun x hx => ?_⟩
  · rcases h.start_or with ⟨hnil, -⟩ | ⟨x, hx, hfirst⟩
    · exact hnil
    obtain ⟨hrange, hfires⟩ := hiff x hx
    have hstep := (goodPress_iff hrange hfires.2).mp (hgood x hx)
    rw [show x.before = startup from hfirst] at hstep
    exact absurd hstep (not_inStep_startup x.event)
  · obtain ⟨hrange, hfires⟩ := hiff x hx
    have hafter := hrange.press hfires.2
    exact ⟨hafter.current, hafter.player _, goodPress_iff hrange hfires.2⟩

/-- Volume up, pressed twice: the second time the volume rises by one step. -/
theorem volume_up_twice :
    ∃ l s, volumePresses.History l s ∧ l.length = 2 ∧ ∃ x ∈ l, GoodPress x := by
  obtain ⟨l, s, hl, -, hp⟩ := Machine.exists_history_of_replay (M := volumePresses)
    (s := startup) rfl [⟨.music, .up⟩, ⟨.music, .up⟩]
    (fun l _ => decide (l.length = 2 ∧ ∃ x ∈ l,
      x.event.direction.InStep x.before.currentVolume (x.before.volumeOf x.event.player)))
    (by decide +kernel)
  obtain ⟨hlen, x, hx, hstep⟩ := of_decide_eq_true hp
  exact ⟨l, s, hl, hlen, x, hx, ((volume_presses_iff hl).2 x hx).2.2.mpr hstep⟩

/-- Volume up, pressed once after startup, turns the music down from 100 to 60. -/
theorem volume_up_turns_down :
    ¬ ∀ l s, volumePresses.History l s → ∀ x ∈ l, GoodPress x := by
  intro hall
  obtain ⟨l, s, hl, -, hp⟩ := Machine.exists_history_of_replay (M := volumePresses)
    (s := startup) rfl [⟨.music, .up⟩]
    (fun l _ => decide (∃ x ∈ l, ¬ x.event.direction.Agrees (x.before.volumeOf x.event.player)
      (x.after.volumeOf x.event.player))) (by decide +kernel)
  obtain ⟨x, hx, hdown⟩ := of_decide_eq_true hp
  exact hdown (hall l s hl x hx).1

end Infotainment
