import Mathlib.Data.List.Basic

/-!
# Runs of a partial transition function

A machine is a step function into `Option`; `none` is a step that has no defined outcome.  A run
executes a list of events.  The rules of this file reduce a statement about every run to one about
a single step, possibly under a side condition that every step of the run has to meet.
-/

namespace Run

variable {σ ε : Type*}

/-- Execute the events in order, stopping at the first step without an outcome. -/
def exec (step : σ → ε → Option σ) : σ → List ε → Option σ
  | state, [] => some state
  | state, event :: events => (step state event).bind fun next => exec step next events

/-- Every event of the run is taken in a state that meets the side condition. -/
def Along (step : σ → ε → Option σ) (cond : σ → ε → Prop) : σ → List ε → Prop
  | _, [] => True
  | state, event :: events =>
    cond state event ∧ ∀ next, step state event = some next → Along step cond next events

@[simp]
theorem exec_nil (step : σ → ε → Option σ) (state : σ) : exec step state [] = some state := rfl

theorem exec_cons (step : σ → ε → Option σ) (state : σ) (event : ε) (events : List ε) :
    exec step state (event :: events) =
      (step state event).bind fun next => exec step next events := rfl

theorem exec_append (step : σ → ε → Option σ) (state : σ) (front back : List ε) :
    exec step state (front ++ back) =
      (exec step state front).bind fun next => exec step next back := by
  induction front generalizing state with
  | nil => rfl
  | cons event front ih =>
    simp only [List.cons_append, exec_cons, Option.bind_assoc, ih]

theorem exec_append_eq_some {step : σ → ε → Option σ} {state final : σ} {front back : List ε} :
    exec step state (front ++ back) = some final ↔
      ∃ middle, exec step state front = some middle ∧ exec step middle back = some final := by
  simp [exec_append, Option.bind_eq_some_iff]

theorem exec_cons_eq_some {step : σ → ε → Option σ} {state final : σ} {event : ε}
    {events : List ε} :
    exec step state (event :: events) = some final ↔
      ∃ next, step state event = some next ∧ exec step next events = some final := by
  simp [exec_cons, Option.bind_eq_some_iff]

theorem along_append {step : σ → ε → Option σ} {cond : σ → ε → Prop} {state : σ}
    {front back : List ε} :
    Along step cond state (front ++ back) ↔
      Along step cond state front ∧
        ∀ middle, exec step state front = some middle → Along step cond middle back := by
  induction front generalizing state with
  | nil => simp [Along]
  | cons event front ih =>
    simp only [List.cons_append, Along, ih, exec_cons_eq_some]
    constructor
    · rintro ⟨head, tail⟩
      exact ⟨⟨head, fun next step => (tail next step).1⟩,
        fun middle ⟨next, step, run⟩ => (tail next step).2 middle run⟩
    · rintro ⟨⟨head, tail⟩, rest⟩
      exact ⟨head, fun next step =>
        ⟨tail next step, fun middle run => rest middle ⟨next, step, run⟩⟩⟩

theorem along_of_forall {step : σ → ε → Option σ} {cond : ε → Prop} {state : σ} {events : List ε}
    (all : ∀ event ∈ events, cond event) : Along step (fun _ event => cond event) state events := by
  induction events generalizing state with
  | nil => trivial
  | cons event events ih =>
    exact ⟨all event (by simp), fun _ _ => ih fun other member => all other (by simp [member])⟩

theorem exec_invariant {step : σ → ε → Option σ} {cond : σ → ε → Prop} (inv : σ → Prop)
    (preserved : ∀ {state event next},
      inv state → cond state event → step state event = some next → inv next)
    {state final : σ} {events : List ε} (initial : inv state)
    (along : Along step cond state events) (run : exec step state events = some final) :
    inv final := by
  induction events generalizing state with
  | nil =>
    obtain rfl : state = final := by simpa using run
    exact initial
  | cons event events ih =>
    obtain ⟨next, taken, rest⟩ := exec_cons_eq_some.mp run
    exact ih (preserved initial along.1 taken) (along.2 next taken) rest

theorem exec_preserves {step : σ → ε → Option σ} (inv : σ → Prop)
    (preserved : ∀ {state event next}, inv state → step state event = some next → inv next)
    {state final : σ} {events : List ε} (initial : inv state)
    (run : exec step state events = some final) : inv final :=
  have unconditional : Along step (fun _ _ => True) state events :=
    along_of_forall fun _ _ => trivial
  exec_invariant inv (fun holds _ taken => preserved holds taken) initial unconditional run

theorem exec_progress {step : σ → ε → Option σ} {cond : σ → ε → Prop} (inv : σ → Prop)
    (progress : ∀ {state event},
      inv state → cond state event → ∃ next, step state event = some next ∧ inv next)
    {state : σ} {events : List ε} (initial : inv state)
    (along : Along step cond state events) :
    ∃ final, exec step state events = some final ∧ inv final := by
  induction events generalizing state with
  | nil => exact ⟨state, rfl, initial⟩
  | cons event events ih =>
    obtain ⟨next, taken, kept⟩ := progress initial along.1
    obtain ⟨final, run, finalInv⟩ := ih kept (along.2 next taken)
    exact ⟨final, exec_cons_eq_some.mpr ⟨next, taken, run⟩, finalInv⟩

theorem exec_length_le {step : σ → ε → Option σ} (measure : σ → Nat)
    (decreases : ∀ {state event next}, step state event = some next → measure next < measure state)
    {state final : σ} {events : List ε} (run : exec step state events = some final) :
    events.length + measure final ≤ measure state := by
  induction events generalizing state with
  | nil =>
    obtain rfl : state = final := by simpa using run
    simp
  | cons event events ih =>
    obtain ⟨next, taken, rest⟩ := exec_cons_eq_some.mp run
    have first := decreases taken
    have later := ih rest
    simp only [List.length_cons]
    omega

/-- Every event of the run is reached, has an outcome, and the outcome meets the postcondition. -/
def EveryStep (step : σ → ε → Option σ) (post : σ → Prop) (start : σ) (events : List ε) : Prop :=
  ∀ front event back, events = front ++ event :: back →
    ∃ before after, exec step start front = some before ∧ step before event = some after ∧ post after

theorem everyStep_cons {step : σ → ε → Option σ} {post : σ → Prop} {start : σ} {event : ε}
    {events : List ε} :
    EveryStep step post start (event :: events) ↔
      ∃ next, step start event = some next ∧ post next ∧ EveryStep step post next events := by
  constructor
  · intro every
    obtain ⟨before, next, run, taken, holds⟩ := every [] event events rfl
    obtain rfl : start = before := by simpa using run
    refine ⟨next, taken, holds, fun front later back split => ?_⟩
    obtain ⟨before, after, run, rest⟩ := every (event :: front) later back (by simp [split])
    obtain ⟨other, otherTaken, laterRun⟩ := exec_cons_eq_some.mp run
    obtain rfl := Option.some.inj (taken.symm.trans otherTaken)
    exact ⟨before, after, laterRun, rest⟩
  · rintro ⟨next, taken, holds, every⟩ front later back split
    cases front with
    | nil =>
      obtain ⟨rfl, rfl⟩ := List.cons.inj split
      exact ⟨start, next, rfl, taken, holds⟩
    | cons first front =>
      obtain ⟨rfl, tail⟩ := List.cons.inj split
      obtain ⟨before, after, run, rest⟩ := every front later back tail
      exact ⟨before, after, exec_cons_eq_some.mpr ⟨next, taken, run⟩, rest⟩

theorem everyStep_iff_along {step : σ → ε → Option σ} {cond : σ → ε → Prop} {post inv : σ → Prop}
    (exact_ : ∀ {state event}, inv state →
      ((∃ next, step state event = some next ∧ post next) ↔ cond state event))
    (kept : ∀ {state event next},
      inv state → step state event = some next → post next → inv next)
    {start : σ} {events : List ε} (initial : inv start) :
    EveryStep step post start events ↔ Along step cond start events := by
  induction events generalizing start with
  | nil => simp [EveryStep, Along]
  | cons event events ih =>
    rw [everyStep_cons]
    constructor
    · rintro ⟨next, taken, holds, every⟩
      refine ⟨(exact_ initial).mp ⟨next, taken, holds⟩, fun other otherTaken => ?_⟩
      obtain rfl := Option.some.inj (taken.symm.trans otherTaken)
      exact (ih (kept initial taken holds)).mp every
    · rintro ⟨admissible, rest⟩
      obtain ⟨next, taken, holds⟩ := (exact_ initial).mpr admissible
      exact ⟨next, taken, holds, (ih (kept initial taken holds)).mpr (rest next taken)⟩

end Run
