import Mathlib.Data.List.Basic

/-!
# Event-driven machines that can fail

A machine of this kind sits in a state, receives one event at a time from outside, and either
moves to a new state or stops with a fault.  Nothing is said about what the states, the events
and the faults are.

A *history* is a finite run from a start state.  It records every transition it made --- the
state before, the event, and the state after --- because most statements about such a machine
are about transitions rather than about states: "after every poll ...", "every click that ...".

## The rules

* `History.invariant`: what holds at the start and survives every transition holds of every
  state reached.
* `History.guarded`: the same when each transition is only known to preserve the invariant under
  a condition of its own, for the histories all of whose transitions meet it.
* `History.forall_iff`: the exact form.  If, from the states the invariant describes, a
  transition is good precisely when it meets a condition, and the good ones keep the invariant,
  then a history is good throughout precisely when it meets the condition throughout.  The
  induction stops at the first transition that breaks the condition, which is why the invariant
  need not survive it.

`replay` runs through a list of events and checks that each was enabled, so that a history on
concrete data is obtained by evaluation.
-/

namespace EventSystem

variable {σ ε φ : Type*}

/-! ## Results that can be a fault -/

theorem map_eq_ok_iff {α β : Type*} {x : Except φ α} {f : α → β} {b : β} :
    x.map f = .ok b ↔ ∃ a, x = .ok a ∧ f a = b := by
  cases x <;> simp [Except.map]

theorem map_eq_error_iff {α β : Type*} {x : Except φ α} {f : α → β} {e : φ} :
    x.map f = .error e ↔ x = .error e := by
  cases x <;> simp [Except.map]

theorem bind_eq_ok_iff {α β : Type*} {x : Except φ α} {f : α → Except φ β} {b : β} :
    x.bind f = .ok b ↔ ∃ a, x = .ok a ∧ f a = .ok b := by
  cases x <;> simp [Except.bind]

theorem bind_eq_error_iff {α β : Type*} {x : Except φ α} {f : α → Except φ β} {e : φ} :
    x.bind f = .error e ↔ x = .error e ∨ ∃ a, x = .ok a ∧ f a = .error e := by
  cases x <;> simp [Except.bind]

/-- A result that is known: what it has to satisfy is asked of that. -/
theorem exists_ok_and_iff {α : Type*} {x : Except φ α} {a : α} (h : x = .ok a) {P : α → Prop} :
    (∃ b, x = .ok b ∧ P b) ↔ P a := by
  simp [h]

/-! ## Machines -/

/-- A machine: its start states, the events it can receive in a state, and what an event does.
A step that ends in a fault has no successor. -/
structure Machine (σ ε φ : Type*) where
  /-- The states a history may begin in. -/
  start : σ → Prop
  /-- The events that can occur in a state. -/
  enabled : ε → σ → Prop
  /-- The effect of an event. -/
  step : ε → σ → Except φ σ

/-- One transition, with the state on either side of its event. -/
structure Transition (σ ε : Type*) where
  before : σ
  event : ε
  after : σ

/-- The transition is one the machine can make. -/
def Machine.Fires (M : Machine σ ε φ) (x : Transition σ ε) : Prop :=
  M.enabled x.event x.before ∧ M.step x.event x.before = .ok x.after

/-- A finite run from a start state, with the transitions it made in order. -/
inductive Machine.History (M : Machine σ ε φ) : List (Transition σ ε) → σ → Prop where
  | start {s : σ} : M.start s → M.History [] s
  | tail {l : List (Transition σ ε)} {x : Transition σ ε} :
      M.History l x.before → M.Fires x → M.History (l ++ [x]) x.after

variable {M : Machine σ ε φ}

namespace Machine

/-! ## Reading a history -/

/-- Every transition of a history fires, and the part of the history before it is a history. -/
theorem History.exists_prefix {l : List (Transition σ ε)} {t : σ} (h : M.History l t)
    {x : Transition σ ε} (hx : x ∈ l) :
    ∃ l₁ l₂, l = l₁ ++ x :: l₂ ∧ M.History l₁ x.before ∧ M.Fires x := by
  induction h with
  | start _ => exact absurd hx (by simp)
  | @tail l y hl hy ih =>
    rcases List.mem_append.mp hx with hx | hx
    · obtain ⟨l₁, l₂, rfl, hb, hf⟩ := ih hx
      exact ⟨l₁, l₂ ++ [y], by simp, hb, hf⟩
    · obtain rfl : x = y := by simpa using hx
      exact ⟨l, [], rfl, hl, hy⟩

/-- A history that made a transition made one from a start state. -/
theorem History.start_or {l : List (Transition σ ε)} {t : σ} (h : M.History l t) :
    (l = [] ∧ M.start t) ∨ ∃ x ∈ l, M.start x.before := by
  induction h with
  | start hs => exact Or.inl ⟨rfl, hs⟩
  | @tail l x _ _ ih =>
    rcases ih with ⟨-, hs⟩ | ⟨y, hy, hs⟩
    · exact Or.inr ⟨x, by simp, hs⟩
    · exact Or.inr ⟨y, List.mem_append_left _ hy, hs⟩

/-- A history of a machine that lets fewer events occur is a history of one that lets more. -/
theorem History.mono {N : Machine σ ε φ} (hstart : ∀ s, M.start s → N.start s)
    (hfires : ∀ x, M.Fires x → N.Fires x) {l : List (Transition σ ε)} {t : σ}
    (h : M.History l t) : N.History l t := by
  induction h with
  | start hs => exact .start (hstart _ hs)
  | tail _ hx ih => exact .tail ih (hfires _ hx)

/-! ## The invariant rules -/

/-- What every transition preserves under its condition holds at the end of a history whose
transitions all meet it. -/
theorem History.guarded {I : σ → Prop} {C : Transition σ ε → Prop}
    (h0 : ∀ s, M.start s → I s)
    (hstep : ∀ x, M.Fires x → I x.before → C x → I x.after)
    {l : List (Transition σ ε)} {t : σ} (h : M.History l t) (hC : ∀ x ∈ l, C x) : I t := by
  induction h with
  | start hs => exact h0 _ hs
  | tail _ hx ih =>
    have hpre := ih fun y hy => hC y (List.mem_append_left _ hy)
    exact hstep _ hx hpre (hC _ (by simp))

/-- **The invariant rule.** -/
theorem History.invariant {I : σ → Prop} (h0 : ∀ s, M.start s → I s)
    (hstep : ∀ x, M.Fires x → I x.before → I x.after)
    {l : List (Transition σ ε)} {t : σ} (h : M.History l t) : I t :=
  h.guarded (C := fun _ => True) h0 (fun x hx hI _ => hstep x hx hI) fun _ _ => trivial

/-- **The exact rule.**  `Q` is what the transitions are wanted to satisfy and `C` the condition
under which they do; off the condition nothing is asked of the invariant. -/
theorem History.forall_iff {J : σ → Prop} {Q C : Transition σ ε → Prop}
    (h0 : ∀ s, M.start s → J s)
    (hQC : ∀ x, M.Fires x → J x.before → (Q x ↔ C x))
    (hJ : ∀ x, M.Fires x → J x.before → C x → J x.after)
    {l : List (Transition σ ε)} {t : σ} (h : M.History l t) :
    (∀ x ∈ l, Q x) ↔ ∀ x ∈ l, C x := by
  induction h with
  | start _ => simp
  | @tail l x hl hx ih =>
    simp only [List.forall_mem_append, List.forall_mem_singleton]
    rw [ih]
    refine and_congr_right fun hC => hQC x hx ?_
    exact hl.guarded h0 hJ hC

/-! ## The states of a history -/

/-- The states a history with these transitions passes through, its last one included. -/
def Visits (l : List (Transition σ ε)) (t s : σ) : Prop := s = t ∨ ∃ x ∈ l, s = x.before

/-- Every state visited but the first is the one after some transition. -/
theorem History.forall_visits_iff {P : σ → Prop} (h0 : ∀ s, M.start s → P s)
    {l : List (Transition σ ε)} {t : σ} (h : M.History l t) :
    (∀ s, Visits l t s → P s) ↔ ∀ x ∈ l, P x.after := by
  induction h with
  | start hs => simpa [Visits] using h0 _ hs
  | @tail l x hl hx ih =>
    have hvisits : ∀ s, Visits (l ++ [x]) x.after s ↔ s = x.after ∨ Visits l x.before s := by
      intro s
      simp only [Visits, List.mem_append, List.mem_singleton, or_and_right, exists_or,
        exists_eq_left]
      exact or_congr Iff.rfl or_comm
    simp only [hvisits, forall_eq_or_imp, List.forall_mem_append, List.forall_mem_singleton]
    rw [ih]
    exact and_comm

/-! ## Replaying events -/

section Replay

variable [∀ (e : ε) (s : σ), Decidable (M.enabled e s)]

variable (M) in
/-- Feed the events to the machine in order and record the transitions; nothing is returned when
one of the events is not enabled or ends in a fault. -/
def replay : List ε → σ → Option (List (Transition σ ε) × σ)
  | [], s => some ([], s)
  | e :: es, s =>
    if M.enabled e s then
      match M.step e s with
      | .ok t => (replay es t).map fun r => (⟨s, e, t⟩ :: r.1, r.2)
      | .error _ => none
    else none

/-- What a replay records is a history, continued from where it started, of exactly the given
events. -/
theorem History.append_replay {es : List ε} {l l' : List (Transition σ ε)} {s t : σ}
    (h : M.History l s) (hr : M.replay es s = some (l', t)) :
    M.History (l ++ l') t ∧ l'.map Transition.event = es := by
  induction es generalizing l l' s with
  | nil =>
    obtain ⟨rfl, rfl⟩ : [] = l' ∧ s = t := by simpa [replay] using hr
    simpa using h
  | cons e es ih =>
    rw [replay] at hr
    by_cases he : M.enabled e s
    · rw [if_pos he] at hr
      cases hs : M.step e s with
      | error f => simp [hs] at hr
      | ok u =>
        rw [hs] at hr
        obtain ⟨⟨l₁, t₁⟩, hes, heq⟩ := Option.map_eq_some_iff.mp hr
        obtain ⟨rfl, rfl⟩ : ⟨s, e, u⟩ :: l₁ = l' ∧ t₁ = t := by simpa using heq
        obtain ⟨hrest, hevents⟩ := ih (h.tail (x := ⟨s, e, u⟩) ⟨he, hs⟩) hes
        rw [List.append_assoc, List.singleton_append] at hrest
        exact ⟨hrest, by rw [List.map_cons, hevents]⟩
    · simp [he] at hr

/-- A replay that passes a test exhibits a history that passes it. -/
theorem exists_history_of_replay {s : σ} (hs : M.start s) (es : List ε)
    (p : List (Transition σ ε) → σ → Bool)
    (h : (M.replay es s).any (fun r => p r.1 r.2) = true) :
    ∃ l t, M.History l t ∧ l.map Transition.event = es ∧ p l t = true := by
  cases hd : M.replay es s with
  | none => simp [hd] at h
  | some r =>
    have happ := (History.start hs).append_replay hd
    rw [List.nil_append] at happ
    exact ⟨r.1, r.2, happ.1, happ.2, by simpa [hd] using h⟩

end Replay

end Machine
end EventSystem
