import Mathlib.Data.List.Forall2
import Mathlib.Data.List.TakeDrop

/-!
# Streams that arrive in segments

A stream of frames is cut at arbitrary places.  A decoder is called with what it left over and the
next segment; it returns the values of some frames and what it leaves over this time.  If a call
takes every frame that is complete and leaves the front of the next one alone, the segments do not
matter.
-/

namespace Segments

variable {α β ε : Type*}

def feed (decode : List α → Except ε (List β × List α)) :
    List α → List (List α) → Except ε (List β × List α)
  | pending, [] => .ok ([], pending)
  | pending, segment :: segments =>
    match decode (pending ++ segment) with
    | .error error => .error error
    | .ok (values, rest) =>
      (feed decode rest segments).map fun (more, last) => (values ++ more, last)

def IsPart (frame part : List α) : Prop := part <+: frame ∧ part ≠ frame

def IsRest (isFrame : List α → β → Prop) (part : List α) : Prop :=
  part = [] ∨ ∃ frame value, isFrame frame value ∧ IsPart frame part

def Drains (decode : List α → Except ε (List β × List α)) (isFrame : List α → β → Prop) : Prop :=
  ∀ {frames : List (List α)} {values : List β}, List.Forall₂ isFrame frames values →
    ∀ {part : List α}, IsRest isFrame part → decode (frames.flatten ++ part) = .ok (values, part)

variable {decode : List α → Except ε (List β × List α)} {isFrame : List α → β → Prop}

def IsFront (frames : List (List α)) (part : List α) : Prop :=
  part = [] ∨ ∃ frame more, frames = frame :: more ∧ IsPart frame part

theorem IsFront.isRest {frames : List (List α)} {values : List β} {part : List α}
    (isFront : IsFront frames part) (framed : List.Forall₂ isFrame frames values) :
    IsRest isFrame part := by
  obtain rfl | ⟨frame, more, rfl, isPart⟩ := isFront
  · exact .inl rfl
  · obtain ⟨value, _, isFrame, -, -⟩ := List.forall₂_cons_left_iff.mp framed
    exact .inr ⟨frame, value, isFrame, isPart⟩

theorem exists_split {frames : List (List α)} {values : List β}
    (framed : List.Forall₂ isFrame frames values) {front rest : List α}
    (stream : front ++ rest = frames.flatten) :
    ∃ before after part valuesBefore valuesAfter,
      List.Forall₂ isFrame before valuesBefore ∧ List.Forall₂ isFrame after valuesAfter ∧
        values = valuesBefore ++ valuesAfter ∧ front = before.flatten ++ part ∧
        part ++ rest = after.flatten ∧ IsFront after part := by
  induction framed generalizing front with
  | nil =>
    obtain ⟨rfl, rfl⟩ := List.append_eq_nil_iff.mp stream
    exact ⟨[], [], [], [], [], .nil, .nil, rfl, rfl, rfl, .inl rfl⟩
  | @cons frame value frames values isFrame framed ih =>
    rw [List.flatten_cons] at stream
    obtain ⟨more, rfl, restEq⟩ | ⟨more, frameEq, restEq⟩ := List.append_eq_append_iff.mp stream
    · by_cases complete : more = []
      · subst complete
        refine ⟨[_], frames, [], [value], values, .cons isFrame .nil, framed, rfl, ?_, ?_, .inl rfl⟩
        · simp
        · simpa using restEq
      · refine ⟨[], _, front, [], _, .nil, .cons isFrame framed, rfl, rfl, ?_, .inr ?_⟩
        · rw [List.flatten_cons, stream]
        · exact ⟨_, _, rfl, List.prefix_append _ _, by simpa using complete⟩
    · obtain ⟨before, after, part, valuesBefore, valuesAfter, framedBefore, framedAfter, rfl,
        frontEq, streamEq, isFront⟩ := ih restEq.symm
      refine ⟨frame :: before, after, part, value :: valuesBefore, valuesAfter,
        .cons isFrame framedBefore, framedAfter, rfl, ?_, streamEq, isFront⟩
      rw [frameEq, frontEq, List.flatten_cons, List.append_assoc]

theorem IsFront.eq_nil {frames : List (List α)} {values : List β} {part : List α}
    (isFront : IsFront frames part) (framed : List.Forall₂ isFrame frames values)
    (filled : ∀ frame value, isFrame frame value → frame ≠ []) (whole : part = frames.flatten) :
    values = [] ∧ part = [] := by
  cases framed with
  | nil => exact ⟨rfl, whole⟩
  | @cons frame value frames values isFrame framed =>
    rw [List.flatten_cons] at whole
    obtain rfl | ⟨first, more, framesEq, inside, incomplete⟩ := isFront
    · exact absurd (List.append_eq_nil_iff.mp whole.symm).1 (filled _ _ isFrame)
    · obtain ⟨rfl, rfl⟩ := List.cons.inj framesEq
      refine absurd (inside.eq_of_length (Nat.le_antisymm inside.length_le ?_)) incomplete
      rw [whole, List.length_append]
      exact Nat.le_add_right _ _

theorem feed_eq (drains : Drains decode isFrame)
    (filled : ∀ frame value, isFrame frame value → frame ≠ []) {frames : List (List α)}
    {values : List β} (framed : List.Forall₂ isFrame frames values) {pending : List α}
    {segments : List (List α)} (isFront : IsFront frames pending)
    (stream : pending ++ segments.flatten = frames.flatten) :
    feed decode pending segments = .ok (values, []) := by
  induction segments generalizing pending frames values with
  | nil =>
    rw [List.flatten_nil, List.append_nil] at stream
    obtain ⟨rfl, rfl⟩ := isFront.eq_nil framed filled stream
    rfl
  | cons segment segments ih =>
    rw [List.flatten_cons, ← List.append_assoc] at stream
    obtain ⟨before, after, rest, valuesBefore, valuesAfter, framedBefore, framedAfter, rfl,
      frontEq, streamEq, restFront⟩ := exists_split framed stream
    have fed := ih framedAfter restFront streamEq
    rw [feed, frontEq, drains framedBefore (restFront.isRest framedAfter)]
    simp only [fed, Except.map]

theorem forall_mem_of_feed {holds : β → Prop}
    (call : ∀ {bytes values rest}, decode bytes = .ok (values, rest) → ∀ value ∈ values, holds value)
    {pending last : List α} {segments : List (List α)} {values : List β}
    (fed : feed decode pending segments = .ok (values, last)) : ∀ value ∈ values, holds value := by
  induction segments generalizing pending values last with
  | nil =>
    obtain ⟨rfl, -⟩ := Prod.mk.inj (Except.ok.inj fed)
    simp
  | cons segment segments ih =>
    rw [feed] at fed
    split at fed
    · cases fed
    · rename_i front rest called
      cases next : feed decode rest segments with
      | error error =>
        rw [next] at fed
        cases fed
      | ok result =>
        rw [next] at fed
        obtain ⟨rfl, -⟩ := Prod.mk.inj (Except.ok.inj fed)
        exact List.forall_mem_append.mpr ⟨call called, ih next⟩

end Segments
