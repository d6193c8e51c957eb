import Mathlib.Data.Finset.Card
import Mathlib.Data.Finset.Image
import LazyCtrl.Sim.Groups

/-!
# Two readers of a partition file

METIS writes the group of each switch in a line of its own.  `processMetisPartition` reports the
number of groups and the size of the largest one; `readinEdgeSWInfo` builds the groups.  Both count
how often each id occurs, but the first one takes the first character of a line for the id.
-/

namespace LazyCtrl
namespace Sim

open Text Keyed

structure MetisGroup where
  gid : Int
  members : List Nat
  deriving DecidableEq, Repr

instance : Keyed MetisGroup Int := ⟨MetisGroup.gid⟩

def firstGid : Chars → Except SimError Int
  | [] => .error .index
  | c :: _ =>
    match pyIntLine [c] with
    | none => .error .value
    | some gid => .ok gid

def MetisGroup.join (element : Nat × Int) (present : Option MetisGroup) : MetisGroup :=
  { gid := element.2, members := (present.map members).getD [] ++ [element.1] }

def metisGroups : Nat → List Chars → List MetisGroup → List MetisGroup × Option SimError
  | _, [], groups => (groups, none)
  | i, line :: lines, groups =>
    match firstGid line with
    | .error error => (groups, some error)
    | .ok gid => metisGroups (i + 1) lines (upsert groups gid (MetisGroup.join (i, gid)))

/-- The numbers that it prints, unless there is no group, and the exception of the loop. -/
def processMetisPartition (lines : List Chars) : Option (Nat × Nat) × Option SimError :=
  let (groups, error) := metisGroups 1 lines []
  ((groups.map fun group => group.members.length).max?.map fun largest =>
    (groups.length, largest), error)

/-- Both readers come to the same numbers. -/
def ReadersAgree (sha1 : Chars → Nat) (lines : List Chars) : Prop :=
  ∃ numGroup largest : Nat,
    processMetisPartition lines = (some (numGroup, largest), none) ∧
    (Dc.empty.readinEdgeSWInfo sha1 lines).1.numGroup = numGroup ∧
    ((Dc.empty.readinEdgeSWInfo sha1 lines).1.groupDic.map Group.numSwitch).max? =
      some (largest : Int)

/-- A line with a decimal number, and white space up to its end. -/
def HoldsGid (line : Chars) (gid : Nat) : Prop :=
  ∃ spaces : Chars, spaces.all isSpace ∧ line = Nat.toDigits 10 gid ++ spaces

def leadingDigit (n : Nat) : Nat := digitsValue 10 ((Nat.toDigits 10 n).take 1)

section Lines

variable {line : Chars} {gid : Nat}

theorem HoldsGid.pyIntLine (holds : HoldsGid line gid) : pyIntLine line = some (gid : Int) := by
  obtain ⟨spaces, space, rfl⟩ := holds
  have words : pySplit (Nat.toDigits 10 gid ++ spaces) = [Nat.toDigits 10 gid] := by
    cases spaces with
    | nil =>
      rw [List.append_nil]
      exact pySplit_word Nat.toDigits_ne_nil
        (isSpace_of_mem_toDigits (by decide) (by decide) gid)
    | cons c spaces =>
      rw [List.all_cons, Bool.and_eq_true] at space
      rw [pySplit_toDigits_append gid space.1, pySplit_spaces space.2]
  rw [Sim.pyIntLine, words]
  exact pyIntOf_toDigits gid

theorem pyIntLine_digitChar : ∀ d < 10, pyIntLine [Nat.digitChar d] = some (d : Int) := by decide

theorem HoldsGid.firstGid (holds : HoldsGid line gid) :
    firstGid line = .ok (leadingDigit gid : Int) := by
  obtain ⟨spaces, -, rfl⟩ := holds
  obtain ⟨d, tail, small, digits, -⟩ := toDigits_eq_cons (by decide : 1 < 10) gid
  have leading : leadingDigit gid = d := by
    rw [leadingDigit, digits, List.take_succ_cons, List.take_zero, ← Nat.toDigits_of_lt_base small,
      digitsValue_toDigits (by decide) (by decide)]
  rw [digits, List.cons_append, Sim.firstGid, pyIntLine_digitChar d small, leading]

end Lines

theorem nonneg_of_holdsGid {lines : List Chars} {gids : List Nat}
    (holds : List.Forall₂ HoldsGid lines gids) :
    ∀ line ∈ lines, ∀ gid, pyIntLine line = some gid → 0 ≤ gid := by
  induction holds with
  | nil => simp
  | cons first _ ih =>
    refine List.forall_mem_cons.mpr ⟨fun gid parsed => ?_, ih⟩
    rw [first.pyIntLine] at parsed
    exact Option.some.inj parsed ▸ Int.natCast_nonneg _

theorem MetisGroup.keepsKey_join (element : Nat × Int) :
    KeepsKey element.2 (MetisGroup.join element) := fun _ _ => rfl

theorem metisGroups_eq {lines : List Chars} {gids : List Nat}
    (holds : List.Forall₂ HoldsGid lines gids) (i : Nat) (groups : List MetisGroup) :
    ∃ elements : List (Nat × Int),
      elements.map Prod.snd = gids.map (fun gid => (leadingDigit gid : Int)) ∧
      metisGroups i lines groups = (collect Prod.snd MetisGroup.join groups elements, none) := by
  induction holds generalizing i groups with
  | nil => exact ⟨[], rfl, rfl⟩
  | @cons line gid lines gids first _ ih =>
    obtain ⟨elements, ids, rest⟩ :=
      ih (i + 1)
        (upsert groups (leadingDigit gid : Int) (MetisGroup.join (i, (leadingDigit gid : Int))))
    refine ⟨(i, (leadingDigit gid : Int)) :: elements, by simp [ids], ?_⟩
    rw [metisGroups, first.firstGid]
    exact rest

def Group.enter (element : Int × Int) (present : Option Group) : Group :=
  (present.getD (.new element.2)).addSwitch element.1

theorem Group.keepsKey_enter (element : Int × Int) : KeepsKey element.2 (Group.enter element) :=
  Dc.keepsKey_addSwitch element.2 element.1

namespace Dc

theorem groupDic_addSwitch (dc : Dc) {sw : EdgeSwitch} (grouped : sw.gid ≠ defaultGroupId) :
    (dc.addSwitch (.edge sw)).groupDic =
      upsert dc.groupDic sw.gid (Group.enter (sw.swid, sw.gid)) := by
  have entered : ∀ dc : Dc, ((dc.ensureGroup sw.gid).joinGroup sw.gid sw.swid).groupDic =
      upsert dc.groupDic sw.gid (Group.enter (sw.swid, sw.gid)) := by
    intro dc
    rw [ensureGroup]
    split
    · rfl
    · rename_i missing
      have absent := Option.not_isSome_iff_eq_none.mp missing
      rw [upsert_of_absent absent]
      have sameKey : KeepsKey sw.gid fun _ : Option Group => Group.new sw.gid :=
        keepsKey_const (.new sw.gid)
      exact @upsert_upsert_of_absent _ _ _ _ dc.groupDic sw.gid (Group.enter (sw.swid, sw.gid)) _
        sameKey absent
  simp only [Dc.addSwitch, groupDic_mergeVms, if_pos grouped]
  exact entered _

@[simp] theorem gid_foldl_addVM (sha1 : Chars → Nat) (vms : List Vm) (sw : EdgeSwitch) :
    (vms.foldl (EdgeSwitch.addVM sha1) sw).gid = sw.gid := by
  induction vms generalizing sw with
  | nil => rfl
  | cons vm vms ih => exact ih _

@[simp] theorem gid_new (sha1 : Chars → Nat) (swid gid numPort : Int) :
    (EdgeSwitch.new sha1 swid gid numPort).gid = gid :=
  gid_foldl_addVM _ _ _

theorem readSwitches_eq (sha1 : Chars → Nat) {lines : List Chars} {gids : List Nat}
    (holds : List.Forall₂ HoldsGid lines gids) (swid : Int) (dc : Dc)
    (fresh : ∀ known ∈ dc.edgeSWList, known < swid) :
    ∃ elements : List (Int × Int), elements.map Prod.snd = gids.map Nat.cast ∧
      (dc.readSwitches sha1 swid lines).1.groupDic =
        collect Prod.snd Group.enter dc.groupDic elements := by
  induction holds generalizing swid dc with
  | nil => exact ⟨[], rfl, rfl⟩
  | @cons line gid lines gids first _ ih =>
    let sw := EdgeSwitch.new sha1 swid gid 0
    have unknown : ¬dc.edgeSWList.contains swid := by
      simp only [List.contains_iff_mem]
      exact fun inside => Int.lt_irrefl _ (fresh swid inside)
    have swids : sw.swid = swid := swid_new swid gid 0
    have gidEq : sw.gid = gid := gid_new sha1 swid gid 0
    have notDefault : sw.gid ≠ defaultGroupId :=
      gidEq ▸ ne_default_of_nonneg (Int.natCast_nonneg gid)
    obtain ⟨elements, ids, rest⟩ := ih (swid + 1) (dc.addSwitch (.edge sw)) (by
      intro known inside
      rw [edgeSWList_addSwitch, List.mem_append, List.mem_singleton, swids] at inside
      rcases inside with inside | rfl
      · have := fresh known inside
        omega
      · omega)
    refine ⟨(swid, (gid : Int)) :: elements, by simp [ids], ?_⟩
    rw [groupDic_addSwitch dc notDefault, swids, gidEq] at rest
    rw [readSwitches, first.pyIntLine]
    simp only [placeSwitch, if_neg unknown]
    exact rest

end Dc

section Agreement

variable {α : Type} [Keyed α Int] {β : Type} {keyOf : β → Int} {step : β → Option α → α}

theorem max_size_collect_iff (size : α → Int)
    (sameKey : ∀ element, KeepsKey (keyOf element) (step element))
    (grows : ∀ element present, size (step element present) = (present.map size).getD 0 + 1)
    {elements : List β} {largest : Nat} :
    ((collect keyOf step [] elements).map size).max? = some (largest : Int) ↔
      (∃ k ∈ elements.map keyOf, (elements.map keyOf).count k = largest) ∧
        ∀ k ∈ elements.map keyOf, (elements.map keyOf).count k ≤ largest := by
  have sizes : (collect keyOf step [] elements).map size =
      (keys (collect keyOf step [] elements)).map fun k =>
        ((elements.map keyOf).count k : Int) := by
    rw [keys, List.map_map]
    exact List.map_congr_left fun item member => size_of_mem_collect size sameKey grows member
  rw [sizes, List.max?_eq_some_iff]
  simp only [List.mem_map, mem_keys_collect sameKey]
  constructor
  · rintro ⟨⟨k, member, count⟩, largestOf⟩
    refine ⟨⟨k, member, by exact_mod_cast count⟩, fun other inside => ?_⟩
    exact_mod_cast largestOf _ ⟨other, inside, rfl⟩
  · rintro ⟨⟨k, member, count⟩, largestOf⟩
    refine ⟨⟨k, member, by rw [count]⟩, ?_⟩
    rintro _ ⟨other, inside, rfl⟩
    exact_mod_cast largestOf other inside

theorem length_collect (sameKey : ∀ element, KeepsKey (keyOf element) (step element))
    (elements : List β) :
    (collect keyOf step [] elements).length = (elements.map keyOf).toFinset.card := by
  have perm := (keys_collect_perm sameKey elements).length_eq
  rwa [keys, List.length_map, ← List.card_toFinset] at perm

end Agreement

theorem max_map_natCast_iff {sizes : List Nat} {largest : Nat} :
    (sizes.map fun size : Nat => (size : Int)).max? = some (largest : Int) ↔
      sizes.max? = some largest := by
  rw [List.max?_eq_some_iff, List.max?_eq_some_iff]
  simp

theorem count_leadingDigit {gids : List Nat} {gid : Nat}
    (alone : ∀ other ∈ gids, leadingDigit other = leadingDigit gid → other = gid) :
    (gids.map fun gid => (leadingDigit gid : Int)).count (leadingDigit gid : Int) =
      (gids.map Nat.cast).count (gid : Int) := by
  rw [List.count_eq_countP, List.count_eq_countP, List.countP_map, List.countP_map]
  refine List.countP_congr fun other member => ?_
  simp only [Function.comp_apply, beq_iff_eq, Nat.cast_inj]
  constructor
  · exact alone other member
  · rintro rfl
    rfl

theorem card_gids (gids : List Nat) :
    (gids.map (Nat.cast : Nat → Int)).toFinset.card = gids.toFinset.card := by
  have image : (gids.map (Nat.cast : Nat → Int)).toFinset =
      gids.toFinset.image (Nat.cast : Nat → Int) := by
    ext
    simp
  rw [image, Finset.card_image_of_injective _ Nat.cast_injective]

theorem card_leadingDigits_iff (gids : List Nat) :
    (gids.map fun gid => (leadingDigit gid : Int)).toFinset.card = gids.toFinset.card ↔
      ∀ a ∈ gids, ∀ b ∈ gids, leadingDigit a = leadingDigit b → a = b := by
  have image : (gids.map fun gid => (leadingDigit gid : Int)).toFinset =
      gids.toFinset.image fun gid => (leadingDigit gid : Int) := by
    ext
    simp
  rw [image, Finset.card_image_iff]
  simp [Set.InjOn]

theorem Group.numSwitch_enter (element : Int × Int) (present : Option Group) :
    (Group.enter element present).numSwitch = (present.map Group.numSwitch).getD 0 + 1 := by
  cases present <;> rfl

theorem MetisGroup.length_join (element : Nat × Int) (present : Option MetisGroup) :
    ((MetisGroup.join element present).members.length : Int) =
      (present.map fun group => (group.members.length : Int)).getD 0 + 1 := by
  cases present <;> simp [MetisGroup.join]

theorem exists_largest_metisGroup {lines : List Chars} {gids : List Nat}
    {digits : List (Nat × Int)} (holds : List.Forall₂ HoldsGid lines gids) (nonempty : lines ≠ [])
    (digitKeys : digits.map Prod.snd = gids.map fun gid => (leadingDigit gid : Int)) :
    ∃ largest, ((collect Prod.snd MetisGroup.join [] digits).map fun group =>
      group.members.length).max? = some largest := by
  have someGroup : collect Prod.snd MetisGroup.join [] digits ≠ [] := by
    rw [← List.length_pos_iff, length_collect MetisGroup.keepsKey_join, digitKeys,
      Finset.card_pos]
    cases holds with
    | nil => exact absurd rfl nonempty
    | cons => exact ⟨_, List.mem_toFinset.mpr List.mem_cons_self⟩
  rw [← Option.isSome_iff_exists, List.isSome_max?_iff]
  simpa using someGroup

/-- The readers agree on a file exactly if its different ids begin with different digits. -/
theorem readersAgree_iff (sha1 : Chars → Nat) {lines : List Chars} {gids : List Nat}
    (holds : List.Forall₂ HoldsGid lines gids) (nonempty : lines ≠ []) :
    ReadersAgree sha1 lines ↔
      ∀ a ∈ gids, ∀ b ∈ gids, leadingDigit a = leadingDigit b → a = b := by
  obtain ⟨digits, digitKeys, reported⟩ := metisGroups_eq holds 1 []
  obtain ⟨switches, switchKeys, built⟩ :=
    Dc.readSwitches_eq sha1 holds 1 Dc.empty (by simp [Dc.empty])
  change _ = collect Prod.snd Group.enter [] switches at built
  have grouped := (@Dc.Grouped.readSwitches sha1 _ lines Dc.grouped_empty 1
    (nonneg_of_holdsGid holds)).2
  have report : processMetisPartition lines =
      (((collect Prod.snd MetisGroup.join [] digits).map fun group => group.members.length).max?.map
        fun largest => ((collect Prod.snd MetisGroup.join [] digits).length, largest), none) := by
    rw [processMetisPartition, reported]
  have numbers : ∀ numGroup : Nat,
      (Dc.empty.readinEdgeSWInfo sha1 lines).1.numGroup = numGroup ↔
        gids.toFinset.card = numGroup := by
    intro numGroup
    have number := grouped.groups.number
    rw [built, length_collect Group.keepsKey_enter, switchKeys, card_gids] at number
    rw [Dc.readinEdgeSWInfo, number, Nat.cast_inj]
  have reportNumber : (collect Prod.snd MetisGroup.join [] digits).length =
      (gids.map fun gid => (leadingDigit gid : Int)).toFinset.card := by
    rw [length_collect MetisGroup.keepsKey_join, digitKeys]
  rw [← card_leadingDigits_iff]
  constructor
  · rintro ⟨numGroup, largest, reportedAs, number, -⟩
    rw [report, Prod.mk.injEq, Option.map_eq_some_iff] at reportedAs
    obtain ⟨⟨_, -, numbersEq⟩, -⟩ := reportedAs
    rw [numbers] at number
    rw [number, ← reportNumber]
    exact (Prod.mk.inj numbersEq).1
  · intro sameNumber
    have alone := (card_leadingDigits_iff gids).mp sameNumber
    have sameCount : ∀ gid ∈ gids,
        (gids.map fun gid => (leadingDigit gid : Int)).count (leadingDigit gid : Int) =
          (gids.map Nat.cast).count (gid : Int) :=
      fun gid member => count_leadingDigit fun other inside => alone other inside gid member
    obtain ⟨largest, largestOf⟩ := exists_largest_metisGroup holds nonempty digitKeys
    refine ⟨gids.toFinset.card, largest, ?_, (numbers _).mpr rfl, ?_⟩
    · rw [report, largestOf, reportNumber, sameNumber]
      rfl
    · rw [Dc.readinEdgeSWInfo, built, max_size_collect_iff Group.numSwitch Group.keepsKey_enter
        Group.numSwitch_enter, switchKeys]
      rw [← max_map_natCast_iff, List.map_map, ← Function.comp_def,
        max_size_collect_iff _ MetisGroup.keepsKey_join MetisGroup.length_join, digitKeys]
        at largestOf
      simp only [List.mem_map, exists_exists_and_eq_and, forall_exists_index, and_imp,
        forall_apply_eq_imp_iff₂] at largestOf ⊢
      obtain ⟨⟨gid, member, count⟩, atMost⟩ := largestOf
      refine ⟨⟨gid, member, by rw [← sameCount gid member, count]⟩, fun other inside => ?_⟩
      rw [← sameCount other inside]
      exact atMost other inside

theorem readersAgree_two : ReadersAgree (fun _ => 0) ["0\n".toList, "1\n".toList] := by
  have holds : List.Forall₂ HoldsGid ["0\n".toList, "1\n".toList] [0, 1] :=
    .cons ⟨['\n'], rfl, rfl⟩ (.cons ⟨['\n'], rfl, rfl⟩ .nil)
  rw [readersAgree_iff _ holds (by decide)]
  decide

/-- Groups 1 and 10 are one group of two switches for the report. -/
theorem not_readersAgree_ten :
    processMetisPartition ["1\n".toList, "10\n".toList] = (some (1, 2), none) ∧
      (Dc.empty.readinEdgeSWInfo (fun _ => 0) ["1\n".toList, "10\n".toList]).1.numGroup = 2 ∧
      ¬ReadersAgree (fun _ => 0) ["1\n".toList, "10\n".toList] := by
  have report : processMetisPartition ["1\n".toList, "10\n".toList] = (some (1, 2), none) := by
    decide
  have number :
      (Dc.empty.readinEdgeSWInfo (fun _ => 0) ["1\n".toList, "10\n".toList]).1.numGroup = 2 := by
    decide
  refine ⟨report, number, ?_⟩
  rintro ⟨numGroup, largest, reported, built, -⟩
  rw [report] at reported
  rw [number] at built
  have one : 1 = numGroup := by simpa using congrArg (fun r => r.1.map Prod.fst) reported
  omega

end Sim
end LazyCtrl
