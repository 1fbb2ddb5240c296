/-
This file proves that merging two ascending lists sorts them stably, from the
front, from the back, or from both ends at once.

A merge under way has cut each list in two. The cut is a place of the merged
list: no element before it is greater than one behind it, and no element of the
right list before it equals one of the left list behind it. How many elements
lie before a cut determines the cut. That is why two ends that do not look at
each other meet after as many steps as there are elements.
-/

import StagedQuery.Proofs.Sorting.Answers
import StagedQuery.Proofs.Sorting.StableOrder
import StagedQuery.StableSort.Merging

namespace StagedQuery.StableSort

open Std Strategy

variable {α : Type} {comparing : α → α → Ordering}

/-! ### Cuts -/

/-- A left and a right list, each cut in two at the same place of their merge. -/
structure Cut (comparing : α → α → Ordering) (leftFront leftBack rightFront rightBack : List α) :
    Prop where
  left_le : ∀ left ∈ leftFront, ∀ right ∈ rightBack, (comparing left right).isLE
  right_lt : ∀ right ∈ rightFront, ∀ left ∈ leftBack, comparing right left = .lt

/-- Of two ways to cut a list, the later one passes an element that the earlier one does not. -/
theorem exists_mem_of_append_eq {front back front' back' : List α}
    (same : front ++ back = front' ++ back') (shorter : front.length < front'.length) :
    ∃ element, element ∈ back ∧ element ∈ front' := by
  rcases List.append_eq_append_iff.mp same with ⟨between, rfl, rfl⟩ | ⟨between, rfl, rfl⟩
  · cases between with
    | nil => exact absurd shorter (by simp)
    | cons element rest => exact ⟨element, by simp, by simp⟩
  · rw [List.length_append] at shorter
    omega

section

variable [TransCmp comparing]

/-- A cut that lies further on in the left list does not lie further back in the right one. -/
theorem Cut.not_crossing {leftFront leftBack rightFront rightBack : List α}
    {leftFront' leftBack' rightFront' rightBack' : List α}
    (cut : Cut comparing leftFront leftBack rightFront rightBack)
    (cut' : Cut comparing leftFront' leftBack' rightFront' rightBack')
    (left : leftFront ++ leftBack = leftFront' ++ leftBack')
    (right : rightFront ++ rightBack = rightFront' ++ rightBack')
    (further : leftFront.length < leftFront'.length) :
    ¬rightFront'.length < rightFront.length := by
  intro back
  obtain ⟨first, firstBehind, firstBefore⟩ := exists_mem_of_append_eq left further
  obtain ⟨second, secondBehind, secondBefore⟩ := exists_mem_of_append_eq right.symm back
  have less : comparing second first = .lt := cut.right_lt second secondBefore first firstBehind
  exact OrientedCmp.not_isLE_of_lt less (cut'.left_le first firstBefore second secondBehind)

/-- Two cuts with as many elements before them are the same cut. -/
theorem Cut.length_unique {leftFront leftBack rightFront rightBack : List α}
    {leftFront' leftBack' rightFront' rightBack' : List α}
    (cut : Cut comparing leftFront leftBack rightFront rightBack)
    (cut' : Cut comparing leftFront' leftBack' rightFront' rightBack')
    (left : leftFront ++ leftBack = leftFront' ++ leftBack')
    (right : rightFront ++ rightBack = rightFront' ++ rightBack')
    (lengths : leftFront.length + rightFront.length = leftFront'.length + rightFront'.length) :
    leftFront.length = leftFront'.length := by
  rcases Nat.lt_trichotomy leftFront.length leftFront'.length with shorter | same | longer
  · exact absurd (by omega) (cut.not_crossing cut' left right shorter)
  · exact same
  · exact absurd (by omega) (cut'.not_crossing cut left.symm right.symm longer)

/-- What lies before a cut and what lies behind it can be sorted apart. -/
theorem Cut.stablySorted {leftFront leftBack rightFront rightBack fronts backs : List α}
    (cut : Cut comparing leftFront leftBack rightFront rightBack)
    (leftAscending : Ascending comparing (leftFront ++ leftBack))
    (rightAscending : Ascending comparing (rightFront ++ rightBack))
    (frontsSorted : StablySorted comparing (leftFront ++ rightFront) fronts)
    (backsSorted : StablySorted comparing (leftBack ++ rightBack) backs) :
    StablySorted comparing (leftFront ++ leftBack ++ (rightFront ++ rightBack))
      (fronts ++ backs) := by
  have moved : Rearranged comparing (leftFront ++ leftBack ++ (rightFront ++ rightBack))
      (leftFront ++ rightFront ++ (leftBack ++ rightBack)) := by
    have middle : Rearranged comparing (leftBack ++ rightFront) (rightFront ++ leftBack) := by
      refine .swap fun left leftMember right rightMember same => ?_
      have less := cut.right_lt right rightMember left leftMember
      rw [OrientedCmp.eq_symm same] at less
      contradiction
    have around := ((Rearranged.refl leftFront).append middle).append (.refl rightBack)
    simpa only [List.append_assoc] using around
  refine (frontsSorted.append backsSorted ?_).of_rearranged moved
  intro first firstMember second secondMember
  rcases List.mem_append.mp firstMember with inLeft | inRight <;>
    rcases List.mem_append.mp secondMember with inLeft' | inRight'
  · exact (ascending_append.mp leftAscending).2.2 first inLeft second inLeft'
  · exact cut.left_le first inLeft second inRight'
  · rw [cut.right_lt first inRight second inLeft']
    rfl
  · exact (ascending_append.mp rightAscending).2.2 first inRight second inRight'

end

/-! ### Merging from the front -/

namespace Merging

/-- A merge from the front that has taken a part of each list. -/
structure Front (comparing : α → α → Ordering) (left right leftTaken rightTaken : List α)
    (merging : Merging α) : Prop where
  left_eq : left = leftTaken ++ merging.left
  right_eq : right = rightTaken ++ merging.right
  cut : Cut comparing leftTaken merging.left rightTaken merging.right
  sorted : StablySorted comparing (leftTaken ++ rightTaken) merging.taken.reverse

/-- A merge from the front that has taken so many heads. -/
def FrontAfter (comparing : α → α → Ordering) (left right : List α) (count : Nat)
    (merging : Merging α) : Prop :=
  ∃ leftTaken rightTaken, leftTaken.length + rightTaken.length = count ∧
    merging.Front comparing left right leftTaken rightTaken

theorem frontAfter_start (left right : List α) :
    (start left right).FrontAfter comparing left right 0 :=
  ⟨[], [], rfl, rfl, rfl, ⟨by simp, by simp⟩, .nil⟩

variable [TransCmp comparing]

/-- A left head that is not greater than any right element comes next. -/
theorem Front.takeLeft {left right leftTaken rightTaken taken rest others : List α} {head : α}
    (front : Front comparing left right leftTaken rightTaken ⟨taken, head :: rest, others⟩)
    (ascending : Ascending comparing left)
    (first : ∀ other ∈ others, (comparing head other).isLE) :
    Front comparing left right (leftTaken ++ [head]) rightTaken ⟨head :: taken, rest, others⟩ where
  left_eq := by rw [front.left_eq, List.append_assoc, List.singleton_append]
  right_eq := front.right_eq
  cut := by
    refine ⟨fun item member => ?_, fun other otherMember item member =>
      front.cut.right_lt other otherMember item (List.mem_cons_of_mem head member)⟩
    rcases List.mem_append.mp member with before | last
    · exact front.cut.left_le item before
    · rw [List.eq_of_mem_singleton last]
      exact first
  sorted := by
    have headBehind : ∀ item ∈ rightTaken, comparing item head = .lt := fun item member =>
      front.cut.right_lt item member head List.mem_cons_self
    have moved : Rearranged comparing (leftTaken ++ [head] ++ rightTaken)
        (leftTaken ++ rightTaken ++ [head]) := by
      rw [List.append_assoc, List.append_assoc]
      refine (Rearranged.refl leftTaken).append (Rearranged.symm (.swap ?_))
      simp +contextual [headBehind]
    rw [List.reverse_cons]
    refine (front.sorted.concat fun item member => ?_).of_rearranged moved
    rcases List.mem_append.mp member with inLeft | inRight
    · have split := front.left_eq ▸ ascending
      exact (ascending_append.mp split).2.2 item inLeft head List.mem_cons_self
    · rw [headBehind item inRight]
      rfl

/-- A right head that is less than every left element comes next. -/
theorem Front.takeRight {left right leftTaken rightTaken taken others rest : List α} {head : α}
    (front : Front comparing left right leftTaken rightTaken ⟨taken, others, head :: rest⟩)
    (ascending : Ascending comparing right)
    (first : ∀ other ∈ others, comparing head other = .lt) :
    Front comparing left right leftTaken (rightTaken ++ [head]) ⟨head :: taken, others, rest⟩ where
  left_eq := front.left_eq
  right_eq := by rw [front.right_eq, List.append_assoc, List.singleton_append]
  cut := by
    refine ⟨fun item member other otherMember =>
      front.cut.left_le item member other (List.mem_cons_of_mem head otherMember),
      fun item member => ?_⟩
    rcases List.mem_append.mp member with before | last
    · exact front.cut.right_lt item before
    · rw [List.eq_of_mem_singleton last]
      exact first
  sorted := by
    rw [List.reverse_cons, ← List.append_assoc]
    refine front.sorted.concat fun item member => ?_
    rcases List.mem_append.mp member with inLeft | inRight
    · exact front.cut.left_le item inLeft head List.mem_cons_self
    · have split := front.right_eq ▸ ascending
      exact (ascending_append.mp split).2.2 item inRight head List.mem_cons_self

/-- As long as a head is left, one is taken and the merge goes on. -/
theorem finds_takeLesser {left right : List α} {count : Nat} {merging : Merging α}
    (leftAscending : Ascending comparing left) (rightAscending : Ascending comparing right)
    (more : count < left.length + right.length)
    (front : merging.FrontAfter comparing left right count) :
    merging.takeLesser.Finds comparing (FrontAfter comparing left right (count + 1)) := by
  obtain ⟨leftTaken, rightTaken, rfl, front⟩ := front
  obtain ⟨taken, leftRest, rightRest⟩ := merging
  have leftSplit := front.left_eq ▸ leftAscending
  have rightSplit := front.right_eq ▸ rightAscending
  have takesLeft {head : α} {rest : List α} (shape : leftRest = head :: rest)
      (first : ∀ other ∈ rightRest, (comparing head other).isLE) :
      FrontAfter comparing left right (leftTaken.length + rightTaken.length + 1)
        ⟨head :: taken, rest, rightRest⟩ := by
    subst shape
    refine ⟨leftTaken ++ [head], rightTaken, ?_, front.takeLeft leftAscending first⟩
    rw [List.length_append, List.length_singleton, Nat.add_right_comm]
  have takesRight {head : α} {rest : List α} (shape : rightRest = head :: rest)
      (first : ∀ other ∈ leftRest, comparing head other = .lt) :
      FrontAfter comparing left right (leftTaken.length + rightTaken.length + 1)
        ⟨head :: taken, leftRest, rest⟩ := by
    subst shape
    refine ⟨leftTaken, rightTaken ++ [head], ?_, front.takeRight rightAscending first⟩
    rw [List.length_append, List.length_singleton, Nat.add_assoc]
  cases leftRest with
  | nil =>
    cases rightRest with
    | nil => exact absurd more (by simp [front.left_eq, front.right_eq])
    | cons rightHead rightRest => exact takesRight rfl (by simp)
  | cons leftHead leftRest =>
    cases rightRest with
    | nil => exact takesLeft rfl (by simp)
    | cons rightHead rightRest =>
      have leftHeadLe := (ascending_cons.mp (ascending_append.mp leftSplit).2.1).1
      have rightHeadLe := (ascending_cons.mp (ascending_append.mp rightSplit).2.1).1
      rw [takeLesser, take, Finds.bind_iff, Finds.isLess_iff, Bool.bne_false]
      split
      · rename_i less
        have less : comparing rightHead leftHead = .lt := Ordering.isLT_iff_eq_lt.mp less
        refine takesRight rfl fun other member => ?_
        rcases List.mem_cons.mp member with rfl | later
        · exact less
        · exact TransCmp.lt_of_lt_of_isLE less (leftHeadLe other later)
      · rename_i notLess
        refine takesLeft rfl fun other member => ?_
        rcases List.mem_cons.mp member with rfl | later
        · exact isLE_of_not_isLT notLess
        · exact TransCmp.isLE_trans (isLE_of_not_isLT notLess) (rightHeadLe other later)

/-! ### Merging from the back -/

/-- A merge from the back, of turned lists, that has taken a part of each list. -/
structure Back (comparing : α → α → Ordering) (left right leftTaken rightTaken : List α)
    (merging : Merging α) : Prop where
  left_eq : left = merging.left.reverse ++ leftTaken
  right_eq : right = merging.right.reverse ++ rightTaken
  cut : Cut comparing merging.left.reverse leftTaken merging.right.reverse rightTaken
  sorted : StablySorted comparing (leftTaken ++ rightTaken) merging.taken

/-- A merge from the back that has taken so many heads. -/
def BackAfter (comparing : α → α → Ordering) (left right : List α) (count : Nat)
    (merging : Merging α) : Prop :=
  ∃ leftTaken rightTaken, leftTaken.length + rightTaken.length = count ∧
    merging.Back comparing left right leftTaken rightTaken

omit [TransCmp comparing] in
theorem backAfter_start (left right : List α) :
    (start left.reverse right.reverse).BackAfter comparing left right 0 :=
  ⟨[], [], rfl, by simp [start], by simp [start], ⟨by simp, by simp⟩, .nil⟩

/-- A right head that is not less than any left element comes next. -/
theorem Back.takeRight {left right leftTaken rightTaken taken others rest : List α} {head : α}
    (back : Back comparing left right leftTaken rightTaken ⟨taken, others, head :: rest⟩)
    (ascending : Ascending comparing right)
    (last : ∀ other ∈ others, (comparing other head).isLE) :
    Back comparing left right leftTaken (head :: rightTaken) ⟨head :: taken, others, rest⟩ where
  left_eq := back.left_eq
  right_eq := by rw [back.right_eq, List.reverse_cons, List.append_assoc, List.singleton_append]
  cut := by
    refine ⟨fun other otherMember item member => ?_, fun item member other otherMember => ?_⟩
    · rcases List.mem_cons.mp member with rfl | behind
      · exact last other (List.mem_reverse.mp otherMember)
      · exact back.cut.left_le other otherMember item behind
    · refine back.cut.right_lt item ?_ other otherMember
      rw [List.reverse_cons]
      exact List.mem_append_left [head] member
  sorted := by
    have headMember : head ∈ (head :: rest).reverse := by simp
    have headBefore : ∀ item ∈ leftTaken, comparing head item = .lt := fun item member =>
      back.cut.right_lt head headMember item member
    have moved : Rearranged comparing (leftTaken ++ head :: rightTaken)
        (head :: (leftTaken ++ rightTaken)) := by
      have turned : Rearranged comparing ([head] ++ leftTaken) (leftTaken ++ [head]) :=
        .swap (by simp +contextual [headBefore])
      have around := turned.symm.append (.refl rightTaken)
      rwa [List.append_assoc, List.append_assoc] at around
    refine (back.sorted.cons fun item member => ?_).of_rearranged moved
    rcases List.mem_append.mp member with inLeft | inRight
    · rw [headBefore item inLeft]
      rfl
    · have split := back.right_eq ▸ ascending
      exact (ascending_append.mp split).2.2 head headMember item inRight

/-- A left head that is greater than every right element comes next. -/
theorem Back.takeLeft {left right leftTaken rightTaken taken rest others : List α} {head : α}
    (back : Back comparing left right leftTaken rightTaken ⟨taken, head :: rest, others⟩)
    (ascending : Ascending comparing left)
    (last : ∀ other ∈ others, comparing other head = .lt) :
    Back comparing left right (head :: leftTaken) rightTaken ⟨head :: taken, rest, others⟩ where
  left_eq := by rw [back.left_eq, List.reverse_cons, List.append_assoc, List.singleton_append]
  right_eq := back.right_eq
  cut := by
    refine ⟨fun item member other otherMember => ?_, fun other otherMember item member => ?_⟩
    · refine back.cut.left_le item ?_ other otherMember
      rw [List.reverse_cons]
      exact List.mem_append_left [head] member
    · rcases List.mem_cons.mp member with rfl | behind
      · exact last other (List.mem_reverse.mp otherMember)
      · exact back.cut.right_lt other otherMember item behind
  sorted := by
    have headMember : head ∈ (head :: rest).reverse := by simp
    rw [List.cons_append]
    refine back.sorted.cons fun item member => ?_
    rcases List.mem_append.mp member with inLeft | inRight
    · have split := back.left_eq ▸ ascending
      exact (ascending_append.mp split).2.2 head headMember item inLeft
    · exact back.cut.left_le head headMember item inRight

/-- As long as a head is left, one is taken and the merge goes on. -/
theorem finds_takeGreater {left right : List α} {count : Nat} {merging : Merging α}
    (leftAscending : Ascending comparing left) (rightAscending : Ascending comparing right)
    (more : count < left.length + right.length)
    (back : merging.BackAfter comparing left right count) :
    merging.takeGreater.Finds comparing (BackAfter comparing left right (count + 1)) := by
  obtain ⟨leftTaken, rightTaken, rfl, back⟩ := back
  obtain ⟨taken, leftRest, rightRest⟩ := merging
  have leftSplit := (ascending_append.mp (back.left_eq ▸ leftAscending)).1
  have rightSplit := (ascending_append.mp (back.right_eq ▸ rightAscending)).1
  have takesLeft {head : α} {rest : List α} (shape : leftRest = head :: rest)
      (last : ∀ other ∈ rightRest, comparing other head = .lt) :
      BackAfter comparing left right (leftTaken.length + rightTaken.length + 1)
        ⟨head :: taken, rest, rightRest⟩ := by
    subst shape
    refine ⟨head :: leftTaken, rightTaken, ?_, back.takeLeft leftAscending last⟩
    rw [List.length_cons, Nat.add_right_comm]
  have takesRight {head : α} {rest : List α} (shape : rightRest = head :: rest)
      (last : ∀ other ∈ leftRest, (comparing other head).isLE) :
      BackAfter comparing left right (leftTaken.length + rightTaken.length + 1)
        ⟨head :: taken, leftRest, rest⟩ := by
    subst shape
    refine ⟨leftTaken, head :: rightTaken, ?_, back.takeRight rightAscending last⟩
    rw [List.length_cons, Nat.add_assoc]
  cases leftRest with
  | nil =>
    cases rightRest with
    | nil => exact absurd more (by simp [back.left_eq, back.right_eq])
    | cons rightHead rightRest => exact takesRight rfl (by simp)
  | cons leftHead leftRest =>
    cases rightRest with
    | nil => exact takesLeft rfl (by simp)
    | cons rightHead rightRest =>
      rw [List.reverse_cons] at leftSplit rightSplit
      have leLeftHead (item : α) (member : item ∈ leftRest) : (comparing item leftHead).isLE :=
        (ascending_append.mp leftSplit).2.2 item (List.mem_reverse.mpr member) leftHead
          List.mem_cons_self
      have leRightHead (item : α) (member : item ∈ rightRest) : (comparing item rightHead).isLE :=
        (ascending_append.mp rightSplit).2.2 item (List.mem_reverse.mpr member) rightHead
          List.mem_cons_self
      rw [takeGreater, take, Finds.bind_iff, Finds.isLess_iff, Bool.bne_true]
      split
      · rename_i notLess
        have le : (comparing leftHead rightHead).isLE :=
          isLE_of_not_isLT (by rwa [Bool.not_eq_true, ← Bool.not_eq_true'])
        refine takesRight rfl fun other member => ?_
        rcases List.mem_cons.mp member with rfl | later
        · exact le
        · exact TransCmp.isLE_trans (leLeftHead other later) le
      · rename_i less
        have less : comparing rightHead leftHead = .lt := by
          rwa [Bool.not_eq_true', Bool.not_eq_false, Ordering.isLT_iff_eq_lt] at less
        refine takesLeft rfl fun other member => ?_
        rcases List.mem_cons.mp member with rfl | later
        · exact less
        · exact TransCmp.lt_of_isLE_of_lt (leRightHead other later) less

end Merging

/-! ### Whole merges -/

section

variable [TransCmp comparing] {left right : List α}

theorem finds_mergeForward (leftAscending : Ascending comparing left)
    (rightAscending : Ascending comparing right) :
    (mergeForward left right).Finds comparing (StablySorted comparing (left ++ right)) := by
  rw [mergeForward, Finds.bind_iff]
  refine (Finds.repeated (Merging.FrontAfter comparing left right)
    (Merging.frontAfter_start left right) fun count bound merging front =>
      Merging.finds_takeLesser leftAscending rightAscending (by omega) front).mono ?_
  rintro merging ⟨leftTaken, rightTaken, lengths, front⟩
  have leftLengths := congrArg List.length front.left_eq
  have rightLengths := congrArg List.length front.right_eq
  rw [List.length_append] at leftLengths rightLengths
  have leftEmpty : merging.left = [] := List.eq_nil_of_length_eq_zero (by omega)
  have rightEmpty : merging.right = [] := List.eq_nil_of_length_eq_zero (by omega)
  rw [Finds.pure_iff, front.left_eq, front.right_eq, leftEmpty, rightEmpty, List.append_nil,
    List.append_nil]
  exact front.sorted

theorem finds_mergeBackward (leftAscending : Ascending comparing left)
    (rightAscending : Ascending comparing right) :
    (mergeBackward left right).Finds comparing (StablySorted comparing (left ++ right)) := by
  rw [mergeBackward, Finds.bind_iff]
  refine (Finds.repeated (Merging.BackAfter comparing left right)
    (Merging.backAfter_start left right) fun count bound merging back =>
      Merging.finds_takeGreater leftAscending rightAscending (by omega) back).mono ?_
  rintro merging ⟨leftTaken, rightTaken, lengths, back⟩
  have leftLengths := congrArg List.length back.left_eq
  have rightLengths := congrArg List.length back.right_eq
  rw [List.length_append, List.length_reverse] at leftLengths rightLengths
  have leftEmpty : merging.left = [] := List.eq_nil_of_length_eq_zero (by omega)
  have rightEmpty : merging.right = [] := List.eq_nil_of_length_eq_zero (by omega)
  rw [Finds.pure_iff, back.left_eq, back.right_eq, leftEmpty, rightEmpty]
  exact back.sorted

/-- A merge sorts what is ascending. -/
theorem finds_merge (leftAscending : Ascending comparing left)
    (rightAscending : Ascending comparing right) :
    (merge left right).Finds comparing (StablySorted comparing (left ++ right)) := by
  unfold merge
  split
  · exact finds_mergeForward leftAscending rightAscending
  · exact finds_mergeBackward leftAscending rightAscending

end

/-! ### Both ends -/

namespace Merging

@[simp]
theorem right_takeLeft (merging : Merging α) : merging.takeLeft.right = merging.right := by
  obtain ⟨taken, left, right⟩ := merging
  cases left <;> rfl

@[simp]
theorem left_takeRight (merging : Merging α) : merging.takeRight.left = merging.left := by
  obtain ⟨taken, left, right⟩ := merging
  cases right <;> rfl

/-- Whatever the answer, the next head is the left one or the right one. -/
theorem finds_take (turned : Bool) (merging : Merging α) :
    (merging.take turned).Finds comparing fun next =>
      next = merging.takeLeft ∨ next = merging.takeRight := by
  unfold take
  split
  · rw [Finds.bind_iff, Finds.isLess_iff]
    split
    · exact Or.inr rfl
    · exact Or.inl rfl
  · exact Or.inr rfl
  · exact Or.inl rfl

theorem FrontAfter.length_eq {left right : List α} {count : Nat} {merging : Merging α}
    (front : merging.FrontAfter comparing left right count) :
    count + merging.left.length + merging.right.length = left.length + right.length := by
  obtain ⟨leftTaken, rightTaken, rfl, front⟩ := front
  rw [front.left_eq, front.right_eq, List.length_append, List.length_append]
  omega

/-- Ends that have taken all elements between them have cut the lists at one place. -/
theorem ends_meet [TransCmp comparing] {left right : List α} {front back : Merging α}
    {count backCount : Nat} (leftAscending : Ascending comparing left)
    (rightAscending : Ascending comparing right)
    (frontAfter : front.FrontAfter comparing left right count)
    (backAfter : back.BackAfter comparing left right backCount)
    (all : count + backCount = left.length + right.length) :
    front.left.length + back.left.length = left.length ∧
      StablySorted comparing (left ++ right) (front.taken.reverse ++ back.taken) := by
  obtain ⟨leftFront, rightFront, rfl, atFront⟩ := frontAfter
  obtain ⟨leftBack, rightBack, rfl, atBack⟩ := backAfter
  have leftParts := atFront.left_eq.symm.trans atBack.left_eq
  have rightParts := atFront.right_eq.symm.trans atBack.right_eq
  have leftLengths := congrArg List.length atBack.left_eq
  have rightLengths := congrArg List.length atBack.right_eq
  rw [List.length_append] at leftLengths rightLengths
  have same := atFront.cut.length_unique atBack.cut leftParts rightParts (by omega)
  have leftSame : leftFront = back.left.reverse ∧ front.left = leftBack :=
    List.append_inj leftParts same
  have rightSame : rightFront = back.right.reverse ∧ front.right = rightBack :=
    List.append_inj rightParts (by omega)
  constructor
  · rw [leftSame.2, leftLengths, List.length_reverse, Nat.add_comm]
  · have backSorted := atBack.sorted
    rw [← leftSame.2, ← rightSame.2] at backSorted
    rw [atFront.left_eq] at leftAscending ⊢
    rw [atFront.right_eq] at rightAscending ⊢
    exact atFront.cut.stablySorted leftAscending rightAscending atFront.sorted backSorted

end Merging

namespace EndMerging

/-- A merge from both ends after a number of rounds. -/
structure After (comparing : α → α → Ordering) (left right : List α) (count : Nat)
    (merging : EndMerging α) : Prop where
  front : merging.front.FrontAfter comparing left right count
  back : merging.back.BackAfter comparing left right count

theorem after_start (left right : List α) : (start left right).After comparing left right 0 :=
  ⟨Merging.frontAfter_start left right, Merging.backAfter_start left right⟩

variable [TransCmp comparing] {left right : List α} {merging : EndMerging α}

/-- A round takes one head at each end, as long as one is left. -/
theorem finds_take {count : Nat} (leftAscending : Ascending comparing left)
    (rightAscending : Ascending comparing right) (more : count < left.length + right.length)
    (after : merging.After comparing left right count) :
    merging.take.Finds comparing (After comparing left right (count + 1)) := by
  rw [take, Finds.bind_iff]
  refine (Merging.finds_takeLesser leftAscending rightAscending more after.front).mono ?_
  intro front frontAfter
  rw [Finds.bind_iff]
  exact (Merging.finds_takeGreater leftAscending rightAscending more after.back).mono
    fun back backAfter => ⟨frontAfter, backAfter⟩

theorem finds_finish {count backCount : Nat} (leftAscending : Ascending comparing left)
    (rightAscending : Ascending comparing right)
    (front : merging.front.FrontAfter comparing left right count)
    (back : merging.back.BackAfter comparing left right backCount)
    (all : count + backCount = left.length + right.length) :
    (merging.finish left.length).Finds comparing (StablySorted comparing (left ++ right)) := by
  have meet := Merging.ends_meet leftAscending rightAscending front back all
  rw [finish, if_pos meet.1, Finds.pure_iff]
  exact meet.2

omit [TransCmp comparing] in
theorem back_takeMiddle (leftLength : Nat) (merging : EndMerging α) :
    (merging.takeMiddle leftLength).back = merging.back := by
  unfold takeMiddle
  split <;> rfl

/-- The element that is left between the ends is the next one of the front. -/
theorem front_takeMiddle {count : Nat} (leftAscending : Ascending comparing left)
    (rightAscending : Ascending comparing right)
    (after : merging.After comparing left right count)
    (all : count + 1 + count = left.length + right.length) :
    (merging.takeMiddle left.length).front.FrontAfter comparing left right (count + 1) := by
  have more : count < left.length + right.length := by omega
  obtain ⟨next, nextFront, shape⟩ := ((Merging.finds_takeLesser leftAscending rightAscending more
    after.front).and (Merging.finds_take false merging.front)).exists_value
  have lengths := after.front.length_eq
  have nextLengths := nextFront.length_eq
  have nextMeet := (Merging.ends_meet leftAscending rightAscending nextFront after.back all).1
  unfold takeMiddle
  rcases shape with rfl | rfl
  · rw [Merging.right_takeLeft] at nextLengths
    rw [if_pos (by omega)]
    exact nextFront
  · rw [Merging.left_takeRight] at nextMeet
    rw [if_neg (by omega)]
    exact nextFront

end EndMerging

/-- A merge from both ends sorts what is ascending, and its ends meet. -/
theorem finds_mergeEnds [TransCmp comparing] {left right : List α}
    (leftAscending : Ascending comparing left) (rightAscending : Ascending comparing right) :
    (mergeEnds left right).Finds comparing (StablySorted comparing (left ++ right)) := by
  rw [mergeEnds, Finds.bind_iff]
  refine (Finds.repeated (EndMerging.After comparing left right)
    (EndMerging.after_start left right) fun count bound merging after =>
      EndMerging.finds_take leftAscending rightAscending (by omega) after).mono ?_
  intro merging after
  split
  · exact EndMerging.finds_finish leftAscending rightAscending after.front after.back (by omega)
  · exact EndMerging.finds_finish leftAscending rightAscending
      (EndMerging.front_takeMiddle leftAscending rightAscending after (by omega))
      (EndMerging.back_takeMiddle left.length merging ▸ after.back) (by omega)

end StagedQuery.StableSort
