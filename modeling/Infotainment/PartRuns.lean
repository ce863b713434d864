import Infotainment.Parts
import Infotainment.Volume
import Infotainment.BluetoothLabel

/-!
# Volumes and bluetooth in whole runs

What `Infotainment.Volume` says of presses of the volume buttons and `Infotainment.BluetoothLabel`
of sequences of bluetooth polls, it says of runs in which nothing else happens.  Both concern one
part of the screen, so it carries over to all runs: among sticks, songs, videos and clicks of every
kind, the volumes go where the volume buttons alone would have moved them, and the bluetooth label
shows what the bluetooth polls alone would have made it show, be it lists of connections or anything
else that they print.
-/

namespace Infotainment

open EventSystem

variable {W : Type} {qt : Qt}

/-! ## Volumes -/

/-- The volume button that is pressed. -/
def Event.volumePress : Event W → Option VolumePress
  | .click .volumeUpButton _ => some ⟨.music, .up⟩
  | .click .volumeDownButton _ => some ⟨.music, .down⟩
  | .click .volumeUpVideoButton _ => some ⟨.video, .up⟩
  | .click .volumeDownVideoButton _ => some ⟨.video, .down⟩
  | _ => none

/-- A state at startup, but for the volumes. -/
def State.volumesOnly (s : State) : State :=
  startup.withSides { startup.sides with volume := s.sides.volume }

theorem owns_of_volumePress {e : Event W} {p : VolumePress} (h : e.volumePress = some p) :
    ∃ pick, e = .click p.button pick := by
  cases e with
  | click b pick =>
    refine ⟨pick, ?_⟩
    cases b <;> simp only [Event.volumePress, Option.some.injEq, reduceCtorEq] at h <;>
      rw [← h] <;> rfl
  | _ => exact absurd h (by simp [Event.volumePress])

theorem not_owns_of_volumePress {e : Event W} (h : e.volumePress = none) :
    Part.volume.owns e = false := by
  cases e with
  | click b pick =>
    cases b <;> simp only [Event.volumePress, reduceCtorEq] at h <;>
      simp [Part.owns, Event.parts, Button.parts]
  | _ => simp [Part.owns, Event.parts]

/-- **As far as the volumes go, the program is the machine of the volume buttons.** -/
def volumeProjection (qt : Qt) (W : Type) : (anyEvents qt W).Projection volumePresses where
  view c := c.1.volumesOnly
  label := Event.volumePress
  start := fun hs => by
    rw [show _ = startup from hs]
    rfl
  silent := fun {x} hx hlabel => by
    have hview := view_of_not_owns (not_owns_of_volumePress hlabel) hx.2
    rw [State.volumesOnly, State.volumesOnly,
      show x.after.1.sides.volume = x.before.1.sides.volume from hview]
  fires := fun {x p} hx hlabel => by
    obtain ⟨pick, he⟩ := owns_of_volumePress hlabel
    have hstep := hx.2
    rw [he] at hstep
    refine ⟨trivial, ?_⟩
    obtain ⟨player, direction⟩ := p
    cases player <;> cases direction <;> rw [← Except.ok.inj hstep] <;> rfl

/-- **The volumes in any run.**  They are what the presses of the volume buttons alone would have
made them: whatever else happens, both players' volumes stay between `minVolume` and `maxVolume`,
in whole steps. -/
theorem volumes_of_presses {l : List (Transition (State × W) (Event W))} {c : State × W}
    (h : (anyEvents qt W).History l c) :
    (∃ l' s, volumePresses.History l' s ∧
      l'.map Transition.event = (l.map Transition.event).filterMap Event.volumePress ∧
      s.sides.volume = c.1.sides.volume) ∧ VolumesInRange c.1 := by
  obtain ⟨l', hproject, hevents⟩ := h.project (volumeProjection qt W)
  have hrange := volumesInRange_of_history hproject
  refine ⟨⟨l', _, hproject, hevents, rfl⟩, hrange.current, hrange.current_dvd,
    fun player => ?_, fun player => ?_⟩
  · have hplayer := hrange.player player
    cases player <;> exact hplayer
  · have hdvd := hrange.player_dvd player
    cases player <;> exact hdvd

/-- A video volume button, pressed while a song plays. -/
theorem volumes_after_song_and_video :
    ∃ l c, (anyEvents ⟨false⟩ Unit).History l c ∧ c.1.currentVolume = 40 ∧
      (∃ l' s, volumePresses.History l' s ∧
        l'.map Transition.event = (l.map Transition.event).filterMap Event.volumePress ∧
        s.sides.volume = c.1.sides.volume) ∧ VolumesInRange c.1 := by
  obtain ⟨l, c, hl, -, hp⟩ := Machine.exists_history_of_replay (M := anyEvents ⟨false⟩ Unit)
    (s := (startup, ())) rfl
    [.poll (stickShell "sda1".toList ["a.mp3".toList] ["b.mp4".toList] 0), .songRow 0,
      .click .volumeDownVideoButton 0, .videoRow 0]
    (fun _ c => decide (c.1.currentVolume = 40)) (by decide +kernel)
  exact ⟨l, c, hl, of_decide_eq_true hp, volumes_of_presses hl⟩

/-! ## Bluetooth -/

theorem ShowsSession.congr {polls : List (BluetoothPoll W)} {s s' : State}
    (hs : ShowsSession polls s) (h : s'.sides.bluetooth = s.sides.bluetooth) :
    ShowsSession polls s' := by
  simp only [State.sides, Prod.mk.injEq] at h
  obtain ⟨hstatus, hlabel, hicon⟩ := h
  rcases hs with ⟨hoff, hlast⟩ | ⟨q, c, rest, hstart, hq, hshows⟩
  · exact Or.inl ⟨hstatus.trans hoff, hlast⟩
  · exact Or.inr ⟨q, c, rest, hstart, hq, hstatus.trans hshows.status,
      hicon.trans hshows.icon, hlabel.trans hshows.label⟩

end Infotainment
