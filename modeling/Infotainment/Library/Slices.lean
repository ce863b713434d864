import Infotainment.Library.EventSystem
import Mathlib.Data.List.Infix

/-!
# Slices and refinements of a machine

A machine whose state has parts that do not concern each other behaves like several machines side
by side.  Two ways of saying so are here, and neither knows what the states and the events are.

* A *slice* is a view of the state together with the events that concern it: those events change
  the view in a way that depends on the view alone, and the others leave it as it is.  What the
  view is after a run is then what it is after the events of the slice alone
  (`Slice.run_filter`).
* A *refinement* is a view under which the machine looks like another machine that sometimes
  stands still.  The view of a history is a history of the other machine (`History.refine`), so
  what is known of that machine's histories is known of these; and so for what has happened since
  one of the transitions (`History.run_since`).  Where no invariant is needed and
  the events alone tell what the other machine does, it is a *projection* (`History.project`).

If the slices together show the whole state, a run is determined by what it does in each of them,
whatever the order in which the events of different slices come: `run_eq_of_slices`.  One slice may
contain events that fail; the events outside it may not.  The order in which a failing event
and the others come is then of no account either.
-/

namespace EventSystem

variable {σ ε φ τ δ ψ α : Type*}

namespace Machine

/-! ## Runs of a list of events -/

/-- The events, one after the other, whether they are enabled or not; the first fault ends the
run. -/
def run (M : Machine σ ε φ) : List ε → σ → Except φ σ
  | [], s => .ok s
  | e :: es, s => (M.step e s).bind (M.run es)

variable {M : Machine σ ε φ}

@[simp] theorem run_nil (s : σ) : M.run [] s = .ok s := rfl

theorem run_cons (e : ε) (es : List ε) (s : σ) :
    M.run (e :: es) s = (M.step e s).bind (M.run es) := rfl

theorem run_append (es es' : List ε) (s : σ) :
    M.run (es ++ es') s = (M.run es s).bind (M.run es') := by
  induction es generalizing s with
  | nil => rfl
  | cons e es ih =>
    rw [List.cons_append, run_cons, run_cons]
    cases M.step e s with
    | error f => rfl
    | ok t => exact ih t

/-- What a run with one more event does. -/
theorem run_concat_eq_ok_iff {es : List ε} {e : ε} {s u : σ} :
    M.run (es ++ [e]) s = .ok u ↔ ∃ t, M.run es s = .ok t ∧ M.step e t = .ok u := by
  rw [run_append, bind_eq_ok_iff]
  refine exists_congr fun t => and_congr_right fun _ => ?_
  rw [run_cons, bind_eq_ok_iff]
  simp

/-- The last transition of a history. -/
theorem History.concat {l : List (Transition σ ε)} {x : Transition σ ε} {t : σ}
    (h : M.History (l ++ [x]) t) : M.History l x.before ∧ M.Fires x ∧ t = x.after := by
  generalize hl : l ++ [x] = l' at h
  cases h with
  | start _ => simp at hl
  | tail hl' hx =>
    obtain ⟨rfl, hxy⟩ := List.append_inj' hl rfl
    obtain rfl := List.singleton_inj.mp hxy
    exact ⟨hl', hx, rfl⟩

/-- **Since a transition.**  What holds right after it, and what every later transition that meets
the condition preserves, with an eye on the transitions in between. -/
theorem History.since {I : List (Transition σ ε) → σ → Prop} {C : Transition σ ε → Prop}
    {l l' : List (Transition σ ε)} {x : Transition σ ε} {t : σ} (h : M.History (l ++ x :: l') t)
    (h0 : M.History (l ++ [x]) x.after → I [] x.after)
    (hstep : ∀ l₁ y, M.History (l ++ x :: l₁) y.before → M.Fires y → C y → I l₁ y.before →
      I (l₁ ++ [y]) y.after)
    (hC : ∀ y ∈ l', C y) : I l' t := by
  induction l' using List.reverseRecOn generalizing t with
  | nil =>
    obtain ⟨-, -, rfl⟩ := h.concat
    exact h0 h
  | append_singleton l' y ih =>
    rw [← List.cons_append, ← List.append_assoc] at h
    obtain ⟨hl, hy, rfl⟩ := h.concat
    have hbefore := ih hl fun z hz => hC z (List.mem_append_left _ hz)
    exact hstep l' y hl hy (hC y (by simp)) hbefore

theorem History.upTo {l l' : List (Transition σ ε)} {x : Transition σ ε} {t : σ}
    (h : M.History (l ++ x :: l') t) : M.History (l ++ [x]) x.after :=
  h.since (I := fun _ _ => M.History (l ++ [x]) x.after) (C := fun _ => True) id
    (fun _ _ _ _ _ hx => hx) fun _ _ => trivial

/-- Where the events can occur at any time, a run is a history. -/
theorem exists_history_of_run {s t : σ} (hs : M.start s) {es : List ε}
    (henabled : ∀ e ∈ es, ∀ u, M.enabled e u) (h : M.run es s = .ok t) :
    ∃ l, M.History l t ∧ l.map Transition.event = es := by
  induction es using List.reverseRecOn generalizing t with
  | nil =>
    obtain rfl : s = t := by simpa using h
    exact ⟨[], .start hs, rfl⟩
  | append_singleton es e ih =>
    obtain ⟨u, hrun, hstep⟩ := run_concat_eq_ok_iff.mp h
    obtain ⟨l, hl, hevents⟩ := ih (fun e' he' => henabled e' (List.mem_append_left _ he')) hrun
    have he : M.enabled e u := henabled e (by simp) u
    exact ⟨l ++ [⟨u, e, t⟩], hl.tail (x := ⟨u, e, t⟩) ⟨he, hstep⟩, by simp [hevents]⟩

/-- A run that ends where a test says so. -/
theorem exists_run_of_test (es : List ε) (s : σ) (p : σ → Bool)
    (h : (M.run es s).toOption.any p = true) : ∃ t, M.run es s = .ok t ∧ p t = true := by
  cases hrun : M.run es s with
  | error f => simp [hrun, Except.toOption] at h
  | ok t => exact ⟨t, rfl, by simpa [hrun, Except.toOption] using h⟩

/-! ## Slices -/

/-- A view, and the events that concern it. -/
structure Slice (M : Machine σ ε φ) (view : σ → α) (own : ε → Bool) : Prop where
  /-- What an own event makes of the view depends on the view. -/
  congr : ∀ {e s s'}, own e = true → view s = view s' →
    (M.step e s).map view = (M.step e s').map view
  /-- The other events leave the view alone. -/
  other : ∀ {e s t}, own e = false → M.step e s = .ok t → view t = view s

variable {view : σ → α} {own : ε → Bool}

/-- **What a run does to a view.**  The events of the slice alone, from any state that looks the
same, lead to a state that looks the same. -/
theorem Slice.run_of_ok (h : M.Slice view own) {es : List ε} {s s' t : σ}
    (hrun : M.run es s = .ok t) (hs : view s = view s') :
    (M.run (es.filter own) s').map view = .ok (view t) := by
  induction es generalizing s s' with
  | nil =>
    obtain rfl : s = t := by simpa using hrun
    simp [Except.map, hs]
  | cons e es ih =>
    obtain ⟨u, hstep, hrun⟩ := bind_eq_ok_iff.mp hrun
    cases he : own e with
    | true =>
      obtain ⟨u', hstep', hu⟩ := map_eq_ok_iff.mp
        ((h.congr he hs).symm.trans (map_eq_ok_iff.mpr ⟨u, hstep, rfl⟩))
      rw [List.filter_cons_of_pos he, run_cons, hstep']
      exact ih hrun hu.symm
    | false =>
      rw [List.filter_cons_of_neg (by simp [he])]
      exact ih hrun ((h.other he hstep).trans hs)

/-- Where the other events cannot fail, the faults are those of the slice as well. -/
theorem Slice.run_filter (h : M.Slice view own)
    (htotal : ∀ e s, own e = false → ∃ t, M.step e s = .ok t) (es : List ε) {s s' : σ}
    (hs : view s = view s') :
    (M.run es s).map view = (M.run (es.filter own) s').map view := by
  induction es generalizing s s' with
  | nil => simp [Except.map, hs]
  | cons e es ih =>
    cases he : own e with
    | true =>
      have hstep := h.congr he hs
      rw [List.filter_cons_of_pos he, run_cons, run_cons]
      cases ht : M.step e s with
      | error f =>
        rw [ht] at hstep
        have herr := map_eq_error_iff.mp hstep.symm
        rw [herr]
        rfl
      | ok t =>
        rw [ht] at hstep
        obtain ⟨t', ht', heq⟩ := map_eq_ok_iff.mp hstep.symm
        rw [ht']
        exact ih heq.symm
    | false =>
      obtain ⟨t, ht⟩ := htotal e s he
      rw [List.filter_cons_of_neg (by simp [he]), run_cons, ht]
      exact ih ((h.other he ht).trans hs)

/-- A slice of a history is a history, where the view decides which of its events can occur. -/
theorem History.slice (h : M.Slice view own)
    (henabled : ∀ {e s s'}, own e = true → view s = view s' → M.enabled e s → M.enabled e s')
    {l : List (Transition σ ε)} {t : σ} (hl : M.History l t) :
    ∃ l' t', M.History l' t' ∧
      l'.map Transition.event = (l.map Transition.event).filter own ∧ view t' = view t := by
  induction hl with
  | start hs => exact ⟨[], _, .start hs, rfl, rfl⟩
  | @tail l x _ hx ih =>
    obtain ⟨l', t', hl', hevents, hview⟩ := ih
    rw [List.map_append, List.map_singleton, List.filter_append]
    cases he : own x.event with
    | true =>
      obtain ⟨u, hstep, hu⟩ := map_eq_ok_iff.mp
        ((h.congr he hview).trans (map_eq_ok_iff.mpr ⟨x.after, hx.2, rfl⟩))
      refine ⟨l' ++ [⟨t', x.event, u⟩], u,
        hl'.tail (x := ⟨t', x.event, u⟩) ⟨henabled he hview.symm hx.1, hstep⟩, ?_, hu⟩
      rw [List.map_append, List.map_singleton, hevents, List.filter_cons_of_pos he, List.filter_nil]
    | false =>
      refine ⟨l', t', hl', ?_, hview.trans (h.other he hx.2).symm⟩
      rw [hevents, List.filter_cons_of_neg (by simp [he]), List.filter_nil, List.append_nil]

/-- What is said of a view is an invariant if the events of the slice preserve it. -/
theorem Slice.invariant (h : M.Slice view own) {I : α → Prop} (h0 : ∀ s, M.start s → I (view s))
    (hstep : ∀ x, M.Fires x → own x.event = true → I (view x.before) → I (view x.after))
    {l : List (Transition σ ε)} {t : σ} (hl : M.History l t) : I (view t) := by
  refine hl.invariant (I := fun s => I (view s)) h0 fun x hx hI => ?_
  cases he : own x.event with
  | true => exact hstep x hx he hI
  | false =>
    rw [h.other he hx.2]
    exact hI

/-! ## Slices that show everything -/

/-- **Only the order inside each slice matters.**  Slices that together show the whole state, one
of which contains every event that can fail: two sequences of events that agree in each slice have
the same outcome, fault or state. -/
theorem run_eq_of_slices {ι : Type*} {β : ι → Type*} {view : ∀ k, σ → β k} {own : ι → ε → Bool}
    (hslice : ∀ k, M.Slice (view k) (own k))
    (hjoint : ∀ s t, (∀ k, view k s = view k t) → s = t) (k₀ : ι)
    (htotal : ∀ e s, own k₀ e = false → ∃ t, M.step e s = .ok t) {es es' : List ε}
    (hes : ∀ k, es.filter (own k) = es'.filter (own k)) (s : σ) :
    M.run es s = M.run es' s := by
  have hfault : (M.run es s).map (view k₀) = (M.run es' s).map (view k₀) := by
    rw [(hslice k₀).run_filter htotal es rfl, hes k₀,
      ← (hslice k₀).run_filter htotal es' rfl]
  cases hrun : M.run es s with
  | error f =>
    rw [hrun] at hfault
    exact (map_eq_error_iff.mp hfault.symm).symm
  | ok t =>
    rw [hrun] at hfault
    obtain ⟨t', hrun', -⟩ := map_eq_ok_iff.mp hfault.symm
    rw [hrun']
    congr 1
    refine hjoint t t' fun k => ?_
    -- both ends are what the events of the slice alone lead to
    have ht := (hslice k).run_of_ok hrun rfl
    have ht' := (hslice k).run_of_ok hrun' rfl
    rw [hes k, ht', Except.ok.injEq] at ht
    exact ht.symm

/-! ## Refinements -/

/-- A view under which `M` looks like `N`, as long as an invariant of `M` holds.  Each transition of
`M` is either nothing to `N`, and then the view stays as it is, or a step of `N`. -/
structure Refinement (M : Machine σ ε φ) (N : Machine τ δ ψ) where
  inv : σ → Prop
  view : σ → τ
  label : Transition σ ε → Option δ
  inv_start : ∀ {s}, M.start s → inv s
  inv_step : ∀ {x}, M.Fires x → inv x.before → inv x.after
  start : ∀ {s}, M.start s → N.start (view s)
  silent : ∀ {x}, M.Fires x → inv x.before → label x = none → view x.after = view x.before
  fires : ∀ {x d}, M.Fires x → inv x.before → label x = some d →
    N.Fires ⟨view x.before, d, view x.after⟩

variable {N : Machine τ δ ψ}

namespace Refinement

/-- The transitions of `N` that these transitions of `M` look like. -/
def transitions (R : M.Refinement N) (l : List (Transition σ ε)) : List (Transition τ δ) :=
  l.filterMap fun x => (R.label x).map fun d => ⟨R.view x.before, d, R.view x.after⟩

theorem transitions_concat (R : M.Refinement N) (l : List (Transition σ ε)) (x : Transition σ ε) :
    R.transitions (l ++ [x]) = R.transitions l ++
      ((R.label x).map fun d => ⟨R.view x.before, d, R.view x.after⟩).toList := by
  rw [transitions, List.filterMap_append]
  cases hd : R.label x <;> simp [transitions, hd]

/-- The events of the transitions are the labels. -/
theorem map_event_transitions (R : M.Refinement N) (l : List (Transition σ ε)) :
    (R.transitions l).map Transition.event = l.filterMap R.label := by
  rw [transitions, List.map_filterMap]
  congr 1
  funext x
  simp only [Option.map_map]
  exact Option.map_id'

end Refinement

/-- **The view of a history is a history.** -/
theorem History.refine (R : M.Refinement N) {l : List (Transition σ ε)} {t : σ}
    (h : M.History l t) : N.History (R.transitions l) (R.view t) := by
  induction h with
  | start hs => exact .start (R.start hs)
  | @tail l x hl hx ih =>
    have hinv : R.inv x.before := hl.invariant (fun _ hs => R.inv_start hs) fun _ => R.inv_step
    rw [R.transitions_concat]
    cases hd : R.label x with
    | none =>
      rw [R.silent hx hinv hd]
      simpa using ih
    | some d => exact ih.tail (R.fires hx hinv hd)

/-- **From a transition on.**  What has happened to the view since is what `N` does with the labels
of the transitions since. -/
theorem History.run_since (R : M.Refinement N) {l l' : List (Transition σ ε)}
    {x : Transition σ ε} {t : σ} (h : M.History (l ++ x :: l') t) :
    N.run (l'.filterMap R.label) (R.view x.after) = .ok (R.view t) := by
  refine h.since (I := fun l₁ s => N.run (l₁.filterMap R.label) (R.view x.after) = .ok (R.view s))
    (C := fun _ => True) (fun _ => rfl) (fun l₁ y hl hy _ hrun => ?_) fun _ _ => trivial
  have hinv : R.inv y.before := hl.invariant (fun _ hs => R.inv_start hs) fun _ => R.inv_step
  rw [List.filterMap_append, run_append, hrun]
  cases hd : R.label y with
  | none => simpa [hd, Except.bind] using (R.silent hy hinv hd).symm
  | some d =>
    have hfires : N.step d (R.view y.before) = .ok (R.view y.after) := (R.fires hy hinv hd).2
    simp [hd, run_cons, Except.bind, hfires]

/-! ## Projections -/

/-- A refinement that needs no invariant and is told by the event alone what to do.  An event that
`N` does not know leaves the view alone; any other makes a step of `N`. -/
structure Projection (M : Machine σ ε φ) (N : Machine τ δ ψ) where
  view : σ → τ
  label : ε → Option δ
  start : ∀ {s}, M.start s → N.start (view s)
  silent : ∀ {x}, M.Fires x → label x.event = none → view x.after = view x.before
  fires : ∀ {x d}, M.Fires x → label x.event = some d →
    N.Fires ⟨view x.before, d, view x.after⟩

def Projection.toRefinement (P : M.Projection N) : M.Refinement N where
  inv _ := True
  view := P.view
  label x := P.label x.event
  inv_start _ := trivial
  inv_step _ _ := trivial
  start := P.start
  silent hx _ := P.silent hx
  fires hx _ := P.fires hx

/-- **The projection of a history is a history**, with the labels of its events. -/
theorem History.project (P : M.Projection N) {l : List (Transition σ ε)} {t : σ}
    (h : M.History l t) : ∃ l', N.History l' (P.view t) ∧
      l'.map Transition.event = (l.map Transition.event).filterMap P.label := by
  refine ⟨_, h.refine P.toRefinement, ?_⟩
  rw [Refinement.map_event_transitions, List.filterMap_map]
  rfl

/-- The same for runs, where every event can occur at any time. -/
theorem Projection.run_of_ok (P : M.Projection N) (henabled : ∀ e s, M.enabled e s) {es : List ε}
    {s t : σ} (h : M.run es s = .ok t) :
    N.run (es.filterMap P.label) (P.view s) = .ok (P.view t) := by
  induction es generalizing s with
  | nil =>
    obtain rfl : s = t := by simpa using h
    rfl
  | cons e es ih =>
    obtain ⟨u, hstep, hrun⟩ := bind_eq_ok_iff.mp h
    have hx : M.Fires ⟨s, e, u⟩ := ⟨henabled e s, hstep⟩
    cases hd : P.label e with
    | none =>
      rw [List.filterMap_cons_none hd, ← P.silent hx hd]
      exact ih hrun
    | some d =>
      rw [List.filterMap_cons_some hd, run_cons, (P.fires hx hd).2]
      exact ih hrun

end Machine
end EventSystem
