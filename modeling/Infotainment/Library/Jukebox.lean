import Infotainment.Library.Slices
import Mathlib.Data.Option.Basic
import Mathlib.Tactic.Ring

/-!
# A jukebox

A list of tracks, one of which may be current, and a switch that says whether it is heard.  It is
said here what such a machine is expected to do, not how anybody builds it: which track comes next
in which order, what choosing, stopping and skipping mean, what becomes of everything when the
tracks are taken out.

Two facts are part of the machine rather than theorems about it: the current track is one of the
tracks, and nothing is heard without a current track.

## What follows

* `receive_finished`: tracks that come to their end one after the other are followed by those that
  the order puts after them.
* `skip_run`: where the order goes around, forward and backward are additions modulo the number
  of tracks, so that only their numbers count and not the order in which they come.
-/

open EventSystem

/-! ## Orders -/

/-- The order in which tracks follow each other. -/
inductive Order where
  /-- From the first to the last, and then nothing. -/
  | straight
  /-- After the last the first again. -/
  | around
  /-- The same one over and over. -/
  | one
  /-- The current one, and then nothing. -/
  | once
  | shuffled
  deriving DecidableEq

namespace Order

/-- The track after the current one, of `n` tracks; after none comes the first.  `pick` is what is
drawn when the tracks are shuffled. -/
def next (o : Order) (n pick : ℕ) (current : Option ℕ) : Option ℕ :=
  if n = 0 then none
  else
    match o with
    | straight =>
      let i := current.elim 0 (· + 1)
      if i < n then some i else none
    | around => some (current.elim 0 (· + 1) % n)
    | one => current
    | once => none
    | shuffled => some (pick % n)

/-- The track before the current one.  Before none comes the last in the straight order; where the
order goes around, none counts as the last. -/
def previous (o : Order) (n pick : ℕ) (current : Option ℕ) : Option ℕ :=
  if n = 0 then none
  else
    match o with
    | straight =>
      match current with
      | none => some (n - 1)
      | some 0 => none
      | some (i + 1) => some i
    | around => some ((current.elim (n - 1) id + (n - 1)) % n)
    | one => current
    | once => none
    | shuffled => some (pick % n)

/-- Nothing is drawn, and it does not stop after every track. -/
def GoesOn (o : Order) : Prop := o ≠ shuffled ∧ o ≠ once

variable {o : Order} {n pick : ℕ} {current : Option ℕ}

/-- What comes next is one of the tracks. -/
theorem lt_of_mem_next (h : ∀ i ∈ current, i < n) : ∀ i ∈ o.next n pick current, i < n := by
  intro i hi
  unfold next at hi
  split_ifs at hi with hn
  · exact absurd hi (by simp)
  · have hpos : 0 < n := Nat.pos_of_ne_zero hn
    cases o with
    | straight =>
      simp only at hi
      split_ifs at hi with hlt
      · obtain rfl := Option.mem_some_iff.mp hi
        exact hlt
      · exact absurd hi (by simp)
    | around =>
      obtain rfl := Option.mem_some_iff.mp hi
      exact Nat.mod_lt _ hpos
    | one => exact h i hi
    | once => exact absurd hi (by simp)
    | shuffled =>
      obtain rfl := Option.mem_some_iff.mp hi
      exact Nat.mod_lt _ hpos

theorem lt_of_mem_previous (h : ∀ i ∈ current, i < n) :
    ∀ i ∈ o.previous n pick current, i < n := by
  intro i hi
  unfold previous at hi
  split_ifs at hi with hn
  · exact absurd hi (by simp)
  · have hpos : 0 < n := Nat.pos_of_ne_zero hn
    cases o with
    | straight =>
      rcases current with _ | _ | k
      · obtain rfl := Option.mem_some_iff.mp hi
        omega
      · exact absurd hi (by simp)
      · obtain rfl := Option.mem_some_iff.mp hi
        have hk := h (k + 1) rfl
        omega
    | around =>
      obtain rfl := Option.mem_some_iff.mp hi
      exact Nat.mod_lt _ hpos
    | one => exact h i hi
    | once => exact absurd hi (by simp)
    | shuffled =>
      obtain rfl := Option.mem_some_iff.mp hi
      exact Nat.mod_lt _ hpos

end Order

/-! ## The machine -/

/-- A jukebox over tracks of any kind. -/
@[ext] structure Jukebox (α : Type*) where
  tracks : List α
  current : Option ℕ
  playing : Bool
  order : Order
  lt_length : ∀ i ∈ current, i < tracks.length
  current_ne_none : playing = true → current ≠ none

namespace Jukebox

variable {α : Type*}

/-- What can be done to a jukebox, and what can happen to it. -/
inductive Signal (α : Type*) where
  | choose (i : ℕ)
  /-- The one button for playing and pausing. -/
  | toggle
  | stop
  | forward (pick : ℕ)
  | backward (pick : ℕ)
  /-- The track comes to its end. -/
  | finished (pick : ℕ)
  | setOrder (o : Order)
  /-- New tracks, and their order; they are laid open at the first one or at none. -/
  | load (tracks : List α) (opens : Bool) (o : Order)
  | eject

/-- Nothing in it. -/
def empty : Jukebox α where
  tracks := []
  current := none
  playing := false
  order := .straight
  lt_length := by simp
  current_ne_none := by simp

variable (j : Jukebox α)

/-- Another track, heard if the last one was, or none. -/
def moveTo (current : Option ℕ) (h : ∀ i ∈ current, i < j.tracks.length) : Jukebox α :=
  { j with
    current := current
    playing := j.playing && current.isSome
    lt_length := h
    current_ne_none := by cases current <;> simp }

/-- The switch; without a current track it stays off. -/
def setPlaying (playing : Bool) : Jukebox α :=
  { j with
    playing := playing && j.current.isSome
    current_ne_none := by cases j.current <;> simp }

/-- The response to a signal. -/
def receive : Signal α → Jukebox α
  | .choose i =>
    if h : i < j.tracks.length then
      (j.moveTo (some i) (by simpa using h)).setPlaying true
    else j
  | .toggle => j.setPlaying !j.playing
  | .stop => j.setPlaying false
  | .forward pick | .finished pick =>
    j.moveTo (j.order.next j.tracks.length pick j.current) (Order.lt_of_mem_next j.lt_length)
  | .backward pick =>
    j.moveTo (j.order.previous j.tracks.length pick j.current)
      (Order.lt_of_mem_previous j.lt_length)
  | .setOrder o => { j with order := o }
  | .load tracks opens o =>
    { tracks := tracks
      current := if opens ∧ tracks ≠ [] then some 0 else none
      playing := false
      order := o
      lt_length := by
        intro i hi
        split_ifs at hi with h
        · obtain rfl := Option.mem_some_iff.mp hi
          exact List.length_pos_of_ne_nil h.2
        · exact absurd hi (by simp)
      current_ne_none := by simp }
  | .eject =>
    { j with
      tracks := []
      current := none
      playing := false
      lt_length := by simp
      current_ne_none := by simp }

/-- The jukebox as a machine that never fails: a track that is chosen is there, and only one that is
heard comes to its end. -/
def machine (α : Type*) : Machine (Jukebox α) (Signal α) Empty where
  start j := j = empty
  enabled e j :=
    match e with
    | .choose i => i < j.tracks.length
    | .finished _ => j.playing = true
    | _ => True
  step e j := .ok (j.receive e)

/-- Setting the switch to where it is. -/
@[simp] theorem setPlaying_self : j.setPlaying j.playing = j := by
  ext1
  · rfl
  · rfl
  · show (j.playing && j.current.isSome) = j.playing
    cases hp : j.playing with
    | false => rfl
    | true =>
      rw [Bool.true_and, Option.isSome_iff_ne_none]
      exact j.current_ne_none hp
  · rfl

/-- Staying where it is. -/
theorem moveTo_current : j.moveTo j.current j.lt_length = j := by
  ext1
  · rfl
  · rfl
  · show (j.playing && j.current.isSome) = j.playing
    exact congrArg playing j.setPlaying_self
  · rfl

/-- Without a current track the switch does nothing. -/
theorem setPlaying_of_current_eq_none (h : j.current = none) (playing : Bool) :
    j.setPlaying playing = j := by
  have hoff : j.playing = false := by
    by_contra hplays
    exact j.current_ne_none (by simpa using hplays) h
  ext1
  · rfl
  · rfl
  · show (playing && j.current.isSome) = j.playing
    rw [h, hoff]
    exact Bool.and_false playing
  · rfl

theorem moveTo_congr {o o' : Option ℕ} (h : o = o') {ho : ∀ i ∈ o, i < j.tracks.length} :
    j.moveTo o ho = j.moveTo o' (h ▸ ho) := by
  subst h
  rfl

/-- Choosing the current track turns the switch on. -/
theorem receive_choose_current {i : ℕ} (h : j.current = some i) :
    j.receive (.choose i) = j.setPlaying true := by
  have hlt : i < j.tracks.length := j.lt_length i h
  have hstays : j.moveTo j.current j.lt_length = j.moveTo (some i) (h ▸ j.lt_length) :=
    j.moveTo_congr h
  rw [moveTo_current] at hstays
  rw [receive, dif_pos hlt, ← hstays]

/-! ## Runs -/

/-- The responses to several signals. -/
def receiveAll (signals : List (Signal α)) : Jukebox α := signals.foldl receive j

@[simp] theorem receiveAll_nil : j.receiveAll [] = j := rfl

@[simp] theorem receiveAll_cons (e : Signal α) (signals : List (Signal α)) :
    j.receiveAll (e :: signals) = (j.receive e).receiveAll signals := rfl

/-- The machine never stops, and responds to whatever it is told. -/
theorem run_machine (signals : List (Signal α)) :
    (machine α).run signals j = .ok (j.receiveAll signals) := by
  induction signals generalizing j with
  | nil => rfl
  | cons e signals ih => exact ih (j.receive e)

variable {j}

/-- The track that comes `k` places after track `i` of `n`, where nothing is drawn and the order
does not stop by itself. -/
def trackAfter (o : Order) (n i k : ℕ) : ℕ :=
  match o with
  | .straight => i + k
  | .around => (i + k) % n
  | .one | .once | .shuffled => i

theorem next_some {o : Order} {n i pick : ℕ} (ho : o.GoesOn) (hi : i < n)
    (hstays : o = .straight → i + 1 < n) : o.next n pick (some i) = some (trackAfter o n i 1) := by
  unfold Order.next trackAfter
  rw [if_neg (by omega)]
  cases o with
  | straight => exact if_pos (hstays rfl)
  | around => rfl
  | one => rfl
  | once => exact absurd rfl ho.2
  | shuffled => exact absurd rfl ho.1

theorem trackAfter_one (o : Order) (n i k : ℕ) :
    trackAfter o n (trackAfter o n i k) 1 = trackAfter o n i (k + 1) := by
  cases o with
  | straight => rfl
  | around => exact Nat.mod_add_mod _ _ _
  | one | once | shuffled => rfl

theorem trackAfter_zero {o : Order} {n i : ℕ} (hi : i < n) : trackAfter o n i 0 = i := by
  cases o with
  | around => exact Nat.mod_eq_of_lt hi
  | _ => rfl

/-- **Letting it play.**  A track that has come to its end and was not the last one is followed by
the one that the order puts after it. -/
theorem receive_finished {i k : ℕ} (ho : j.order.GoesOn)
    (hi : j.current = some (trackAfter j.order j.tracks.length i k)) (hplays : j.playing = true)
    (hstays : j.order = .straight → trackAfter j.order j.tracks.length i k + 1 < j.tracks.length)
    (pick : ℕ) :
    (j.receive (.finished pick)).current =
        some (trackAfter j.order j.tracks.length i (k + 1)) ∧
      (j.receive (.finished pick)).playing = true := by
  have hnext : (j.receive (.finished pick)).current =
      some (trackAfter j.order j.tracks.length i (k + 1)) := by
    show j.order.next _ _ _ = _
    rw [hi, next_some ho (j.lt_length _ hi) hstays, trackAfter_one]
  refine ⟨hnext, ?_⟩
  show (j.playing && (j.receive (.finished pick)).current.isSome) = true
  rw [hplays, hnext]
  rfl

namespace Signal

/-- How far a signal takes the jukebox. -/
def turn : Signal α → ℤ
  | .forward _ | .finished _ => 1
  | .backward _ => -1
  | _ => 0

/-- Forward or backward, or forward because a track has come to its end. -/
def IsSkip (e : Signal α) : Prop :=
  ∃ pick, e = .forward pick ∨ e = .finished pick ∨ e = .backward pick

end Signal

/-- One skip, where the order goes around. -/
theorem receive_skip {i : ℕ} (ho : j.order = .around) (hi : j.current = some i) {e : Signal α}
    (he : e.IsSkip) : ∃ k, (j.receive e).current = some k ∧
      (k : ℤ) = (i + e.turn) % j.tracks.length := by
  have hlt := j.lt_length i hi
  have hn : j.tracks.length ≠ 0 := by omega
  have hnext : ∀ pick, (j.receive (.forward pick)).current =
      some ((i + 1) % j.tracks.length) := fun pick => by
    show j.order.next _ _ _ = _
    unfold Order.next
    rw [ho, if_neg hn, hi]
    rfl
  obtain ⟨pick, rfl | rfl | rfl⟩ := he
  · exact ⟨_, hnext pick, by simp [Signal.turn]⟩
  · exact ⟨_, hnext pick, by simp [Signal.turn]⟩
  · refine ⟨(i + (j.tracks.length - 1)) % j.tracks.length, ?_, ?_⟩
    · show j.order.previous _ _ _ = _
      unfold Order.previous
      rw [ho, if_neg hn, hi]
      rfl
    · have hsub : ((j.tracks.length - 1 : ℕ) : ℤ) = j.tracks.length - 1 := by omega
      have hsum : (i : ℤ) + (j.tracks.length - 1) = i + -1 + j.tracks.length := by ring
      rw [Int.natCast_emod, Nat.cast_add, hsub, hsum, Int.add_emod_right]
      rfl

/-- **Skipping is adding.**  Where the order goes around, the track after any number of skips is as
far from the first one as the skips forward exceed those backward, modulo the number of tracks;
neither the tracks nor whether one is heard change. -/
theorem skip_run {i : ℕ} (ho : j.order = .around) (hi : j.current = some i)
    (signals : List (Signal α)) (hs : ∀ e ∈ signals, e.IsSkip) :
    ∃ k, (j.receiveAll signals).current = some k ∧
      (k : ℤ) = (i + (signals.map Signal.turn).sum) % j.tracks.length ∧
      (j.receiveAll signals).tracks = j.tracks ∧
      (j.receiveAll signals).playing = j.playing := by
  induction signals generalizing j i with
  | nil =>
    have hlt := j.lt_length i hi
    refine ⟨i, hi, ?_, rfl, rfl⟩
    rw [List.map_nil, List.sum_nil, add_zero, Int.emod_eq_of_lt (by omega) (by omega)]
  | cons e signals ih =>
    obtain ⟨k, hk, hturn⟩ := receive_skip ho hi (hs e List.mem_cons_self)
    have hframe : (j.receive e).order = j.order ∧ (j.receive e).tracks = j.tracks ∧
        (j.receive e).playing = j.playing := by
      have hplay : (j.playing && (j.receive e).current.isSome) = j.playing := by
        rw [hk]
        exact Bool.and_true _
      obtain ⟨pick, rfl | rfl | rfl⟩ := hs e List.mem_cons_self
      · exact ⟨rfl, rfl, hplay⟩
      · exact ⟨rfl, rfl, hplay⟩
      · exact ⟨rfl, rfl, hplay⟩
    obtain ⟨horder, htracks, hplay⟩ := hframe
    obtain ⟨k', hk', hturn', htracks', hplay'⟩ := ih (j := j.receive e) (horder.trans ho) hk
      fun e' he' => hs e' (List.mem_cons_of_mem _ he')
    refine ⟨k', hk', ?_, htracks'.trans htracks, hplay'.trans hplay⟩
    rw [hturn', htracks, hturn, Int.emod_add_emod, List.map_cons, List.sum_cons, add_assoc]

end Jukebox
