import Mathlib.Data.List.Forall2

/-!
# Length-prefixed frames

A stream is a concatenation of frames.  Every frame says at its front how long it is: the size of
the first frame is a function of the stream from there on.  A stream can be cut into frames in at
most one way.
-/

namespace Frames

variable {α β : Type*}

inductive Cuts (size : List α → Nat) : List α → List (List α) → Prop where
  | nil : Cuts size [] []
  | cons {frame rest : List α} {frames : List (List α)} :
      frame ≠ [] → size (frame ++ rest) = frame.length → Cuts size rest frames →
      Cuts size (frame ++ rest) (frame :: frames)

namespace Cuts

variable {size : List α → Nat} {stream : List α} {frames others : List (List α)}

theorem flatten_eq (cuts : Cuts size stream frames) : frames.flatten = stream := by
  induction cuts with
  | nil => rfl
  | cons _ _ _ ih => rw [List.flatten_cons, ih]

theorem eq_nil (cuts : Cuts size [] frames) : frames = [] := by
  generalize streamEq : ([] : List α) = stream at cuts
  cases cuts with
  | nil => rfl
  | cons nonempty _ _ => exact absurd (List.append_eq_nil_iff.mp streamEq.symm).1 nonempty

theorem exists_cons (cuts : Cuts size stream frames) (nonempty : stream ≠ []) :
    ∃ frame rest tail, stream = frame ++ rest ∧ frames = frame :: tail ∧
      size stream = frame.length ∧ Cuts size rest tail := by
  cases cuts with
  | nil => exact absurd rfl nonempty
  | cons _ stated rest => exact ⟨_, _, _, rfl, rfl, stated, rest⟩

theorem unique (cuts : Cuts size stream frames) (other : Cuts size stream others) :
    others = frames := by
  induction cuts generalizing others with
  | nil => exact other.eq_nil
  | @cons frame rest frames nonempty stated _ ih =>
    obtain ⟨frame', rest', tail, streamEq, rfl, stated', restCuts⟩ :=
      other.exists_cons (by simp [nonempty])
    obtain ⟨rfl, rfl⟩ := List.append_inj streamEq (stated.symm.trans stated')
    rw [ih restCuts]

end Cuts

end Frames
