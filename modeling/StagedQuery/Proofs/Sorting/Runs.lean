/-
This file proves that sorting by runs is a stable sort, however the stretches
that were put off are sorted, as long as that is done stably.

A run stands for a stretch of the list: it is that stretch, or its stable sort.
Joining two runs gives a run for both stretches together. Which runs are joined
first does not matter for the result, so nothing is said about depths here,
except that a depth of zero joins everything that waits.
-/

import StagedQuery.Proofs.Sorting.Blocks
import StagedQuery.StableSort.Adaptive

namespace StagedQuery.StableSort

open Std Strategy

variable {α : Type} {comparing : α → α → Ordering}

/-- A way to sort every list stably. -/
def Sorts (comparing : α → α → Ordering) (sort : List α → Strategy α (List α)) : Prop :=
  ∀ items, (sort items).Finds comparing (StablySorted comparing items)

/-! ### Runs -/

namespace Run

/-- A run that stands for a stretch of a list. -/
def Of (comparing : α → α → Ordering) (stretch : List α) (run : Run α) : Prop :=
  if run.sorted then StablySorted comparing stretch run.items else run.items = stretch

theorem of_sorted {stretch items : List α} (sorted : StablySorted comparing stretch items) :
    Of comparing stretch ⟨items, true⟩ := sorted

theorem finds_settle {sort : List α → Strategy α (List α)} (sorts : Sorts comparing sort)
    {stretch : List α} {run : Run α} (of : run.Of comparing stretch) :
    (run.settle sort).Finds comparing (StablySorted comparing stretch) := by
  unfold Of at of
  unfold settle
  split
  · rename_i sorted
    rwa [if_pos sorted] at of
  · rename_i putOff
    rw [if_neg putOff] at of
    rw [of]
    exact sorts stretch

variable [TransCmp comparing]

theorem Of.length_eq {stretch : List α} {run : Run α} (of : run.Of comparing stretch) :
    run.length = stretch.length := by
  unfold Of at of
  split at of
  · exact of.length_eq
  · rw [length, of]

theorem finds_join {sort : List α → Strategy α (List α)} (sorts : Sorts comparing sort)
    {leftStretch rightStretch : List α} {left right : Run α}
    (leftOf : left.Of comparing leftStretch) (rightOf : right.Of comparing rightStretch) :
    (left.join sort right).Finds comparing (Of comparing (leftStretch ++ rightStretch)) := by
  unfold join
  split
  · rw [Finds.bind_iff]
    refine (finds_settle sorts leftOf).mono fun leftItems leftSorted => ?_
    rw [Finds.bind_iff]
    refine (finds_settle sorts rightOf).mono fun rightItems rightSorted => ?_
    rw [Finds.bind_iff]
    exact (finds_merge leftSorted.ascending rightSorted.ascending).mono fun items sorted =>
      of_sorted (sorted.of_rearranged (leftSorted.rearranged.append rightSorted.rearranged))
  · rename_i putOff
    rw [Bool.or_eq_true, not_or] at putOff
    rw [Of, if_neg putOff.1] at leftOf
    rw [Of, if_neg putOff.2] at rightOf
    rw [Finds.pure_iff, Of, if_neg Bool.false_ne_true, leftOf, rightOf]

/-! ### Cutting runs off -/

/-- Elements of a run, the later one first: less, or not less, as the run descends or does not. -/
def Turns (comparing : α → α → Ordering) (descending : Bool) (later earlier : α) : Prop :=
  (comparing later earlier).isLT = descending

theorem Turns.trans {descending : Bool} {third second first : α}
    (upper : Turns comparing descending third second)
    (lower : Turns comparing descending second first) :
    Turns comparing descending third first := by
  unfold Turns at *
  cases descending with
  | true =>
    rw [Ordering.isLT_iff_eq_lt] at *
    exact TransCmp.lt_trans upper lower
  | false =>
    have upperLe : (comparing second third).isLE := isLE_of_not_isLT (by rw [upper]; decide)
    have lowerLe : (comparing first second).isLE := isLE_of_not_isLT (by rw [lower]; decide)
    rw [Bool.eq_false_iff, ne_eq, Ordering.isLT_iff_eq_lt]
    exact OrientedCmp.not_lt_of_isLE (TransCmp.isLE_trans lowerLe upperLe)

/-- A run is followed as far as its elements keep turning the same way. -/
theorem finds_follow {descending : Bool} {last : α} {earlier : List α} (rest : List α)
    (turning : (last :: earlier).Pairwise (Turns comparing descending)) :
    (follow descending last earlier rest).Finds comparing fun run =>
      run.Pairwise (Turns comparing descending) ∧
        run.reverse <+: (last :: earlier).reverse ++ rest := by
  induction rest generalizing last earlier with
  | nil => exact ⟨turning, List.prefix_append _ []⟩
  | cons next rest inductionHypothesis =>
    rw [follow, Finds.bind_iff, Finds.isLess_iff]
    split
    · rename_i turns
      have nextTurning : (next :: last :: earlier).Pairwise (Turns comparing descending) := by
        refine List.pairwise_cons.mpr ⟨fun item member => ?_, turning⟩
        rcases List.mem_cons.mp member with rfl | before
        · exact turns
        · exact Turns.trans turns ((List.pairwise_cons.mp turning).1 item before)
      have found := inductionHypothesis nextTurning
      rwa [List.reverse_cons, List.append_assoc, List.singleton_append] at found
    · exact ⟨turning, List.prefix_append _ _⟩

/-- The run that a list begins with is put in order. -/
theorem finds_find (items : List α) :
    (find items).Finds comparing fun found =>
      StablySorted comparing (items.take found.length) found := by
  unfold find
  split
  · rename_i first second rest
    rw [Finds.bind_iff, Finds.isLess_iff, Finds.bind_iff]
    refine (finds_follow rest ?_).mono fun run found => ?_
    · refine List.pairwise_cons.mpr ⟨fun item same => ?_, List.pairwise_singleton ..⟩
      rw [List.eq_of_mem_singleton same]
      rfl
    · obtain ⟨turning, isPrefix⟩ := found
      have stretch : (first :: second :: rest).take run.length = run.reverse := by
        rw [← List.length_reverse]
        exact (List.prefix_iff_eq_take.mp isPrefix).symm
      rw [Finds.pure_iff]
      cases descending : (comparing second first).isLT with
      | true =>
        rw [descending] at turning
        have less : run.Pairwise fun later earlier => comparing later earlier = .lt :=
          turning.imp Ordering.isLT_iff_eq_lt.mp
        rw [if_pos rfl, stretch]
        refine StablySorted.of_rearranged (.reverse (less.imp fun less => ?_))
          (.of_ascending (less.imp fun less => ?_)) <;> rw [less]
        · decide
        · rfl
      | false =>
        rw [descending] at turning
        rw [if_neg Bool.false_ne_true, List.length_reverse, stretch]
        refine .of_ascending (List.pairwise_reverse.mpr (turning.imp fun notLess => ?_))
        exact isLE_of_not_isLT (Bool.eq_false_iff.mp notLess)
  · rename_i short
    rw [Finds.pure_iff, List.take_length]
    refine .of_ascending ?_
    match items with
    | [] => exact List.Pairwise.nil
    | [_] => exact List.pairwise_singleton ..
    | first :: second :: rest => exact absurd rfl (short first second rest)

/-- A run that is cut off a list stands for its first elements, of which there is at least one. -/
structure CutOff (comparing : α → α → Ordering) (items : List α) (run : Run α) : Prop where
  of : run.Of comparing (items.take run.length)
  length_pos : items ≠ [] → 0 < run.length

omit [TransCmp comparing] in
theorem CutOff.of_take {items : List α} {run : Run α} {count : Nat}
    (of : run.Of comparing (items.take count)) (length : run.length = (items.take count).length)
    (positive : 0 < count) : CutOff comparing items run where
  of := by
    have same : items.take (items.take count).length = items.take count :=
      (List.prefix_iff_eq_take.mp (List.take_prefix count items)).symm
    rwa [length, same]
  length_pos nonempty := by
    have itemsPositive := List.length_pos_iff.mpr nonempty
    rw [length, List.length_take]
    omega

theorem finds_fill (eager : Bool) {length : Nat} (positive : 0 < length) (items : List α) :
    (fill eager length items).Finds comparing (CutOff comparing items) := by
  unfold fill
  split
  · rw [Finds.bind_iff]
    refine (finds_sortBlock (items.take blockLength)).mono fun block sorted => ?_
    exact .of_take (of_sorted sorted) (of_sorted sorted).length_eq (by decide)
  · exact .of_take rfl rfl positive

theorem finds_cut (eager : Bool) {length : Nat} {items : List α}
    (positive : items ≠ [] → 0 < length) :
    (cut eager length items).Finds comparing (CutOff comparing items) := by
  unfold cut
  split
  · exact finds_fill eager (by omega) items
  · rw [Finds.bind_iff]
    refine (finds_find items).mono fun found sorted => ?_
    split
    · exact finds_fill eager (by omega) items
    · rename_i long
      exact ⟨of_sorted sorted, fun nonempty =>
        Nat.lt_of_lt_of_le (positive nonempty) (Nat.le_of_not_lt long)⟩

end Run

/-! ### Joining runs -/

/-- Waiting runs that stand for the beginning of a list, the last stretch of it first. -/
def Cover (comparing : α → α → Ordering) (front : List α) : List (Waiting α) → Prop
  | [] => front = []
  | last :: earlier => ∃ before stretch, front = before ++ stretch ∧
      last.run.Of comparing stretch ∧ Cover comparing before earlier

variable [TransCmp comparing] {sort : List α → Strategy α (List α)}

/-- What is joined and what still waits stand for the same list as before. -/
theorem finds_joinDeep (sorts : Sorts comparing sort) (depth : Nat) {front stretch : List α}
    {run : Run α} {waiting : List (Waiting α)} (covered : Cover comparing front waiting)
    (of : run.Of comparing stretch) :
    (joinDeep sort depth run waiting).Finds comparing fun result =>
      (∃ before joined, front ++ stretch = before ++ joined ∧
        result.1.Of comparing joined ∧ Cover comparing before result.2) ∧
        (depth = 0 → result.2 = []) := by
  induction waiting generalizing front stretch run with
  | nil => exact ⟨⟨front, stretch, rfl, of, covered⟩, fun _ => rfl⟩
  | cons last earlier inductionHypothesis =>
    unfold joinDeep
    split
    · obtain ⟨before, lastStretch, rfl, lastOf, beforeCovered⟩ := covered
      rw [Finds.bind_iff]
      refine (Run.finds_join sorts lastOf of).mono fun joined joinedOf => ?_
      rw [List.append_assoc]
      exact inductionHypothesis beforeCovered joinedOf
    · rename_i shallow
      exact ⟨⟨front, stretch, rfl, of, covered⟩, fun zero => absurd (zero ▸ Nat.zero_le _) shallow⟩

/-- A depth of zero joins everything. -/
theorem finds_joinAll (sorts : Sorts comparing sort) {front stretch : List α} {run : Run α}
    {waiting : List (Waiting α)} (covered : Cover comparing front waiting)
    (of : run.Of comparing stretch) :
    (joinDeep sort 0 run waiting).Finds comparing fun result =>
      result.1.Of comparing (front ++ stretch) := by
  refine (finds_joinDeep sorts 0 covered of).mono ?_
  rintro ⟨joinedRun, stillWaiting⟩ ⟨⟨before, joined, same, joinedOf, beforeCovered⟩, empty⟩
  obtain rfl : stillWaiting = [] := empty rfl
  obtain rfl : before = [] := beforeCovered
  rwa [same]

theorem usefulLength_pos {length : Nat} (positive : 0 < length) : 0 < usefulLength length := by
  unfold usefulLength
  split
  · omega
  · rename_i long
    unfold nearSquareRoot
    have shiftPositive : 1 ≤ (length.log2 + 1) / 2 := by
      have log2Positive : 1 ≤ length.log2 := (Nat.le_log2 (by omega)).mpr (by omega)
      omega
    have powerLarge : Nat.pow 2 1 ≤ Nat.pow 2 ((length.log2 + 1) / 2) :=
      Nat.pow_le_pow_right (by decide) shiftPositive
    exact Nat.div_pos (Nat.le_trans powerLarge (Nat.le_add_right ..)) (by decide)

namespace Plan

/-- Going through the rest of a list ends with a run for the whole list. -/
theorem finds_joinRest {plan : Plan α} (sorts : Sorts comparing plan.sort) {cuts : Nat}
    (position : Nat) {front stretch rest : List α} {run : Run α} {waiting : List (Waiting α)}
    (enough : rest.length ≤ cuts) (positive : rest ≠ [] → 0 < plan.length)
    (covered : Cover comparing front waiting) (of : run.Of comparing stretch) :
    (plan.joinRest cuts position run waiting rest).Finds comparing
      (Run.Of comparing (front ++ stretch ++ rest)) := by
  induction cuts generalizing position front stretch rest run waiting with
  | zero =>
    obtain rfl : rest = [] := List.eq_nil_of_length_eq_zero (by omega)
    rw [joinRest, Finds.bind_iff, List.append_nil]
    · exact finds_joinAll sorts covered of
    · simp
  | succ cuts inductionHypothesis =>
    cases rest with
    | nil =>
      rw [joinRest, Finds.bind_iff, List.append_nil]
      · exact finds_joinAll sorts covered of
      · simp
    | cons next rest =>
      have planPositive := positive (List.cons_ne_nil next rest)
      rw [joinRest, Finds.bind_iff]
      refine (Run.finds_cut plan.eager fun _ => usefulLength_pos planPositive).mono ?_
      intro following cutOff
      rw [Finds.bind_iff]
      refine (finds_joinDeep sorts _ covered of).mono ?_
      rintro ⟨joinedRun, stillWaiting⟩ ⟨⟨before, joined, same, joinedOf, beforeCovered⟩, -⟩
      have followingPositive := cutOff.length_pos (List.cons_ne_nil next rest)
      have shorter : ((next :: rest).drop following.length).length ≤ cuts := by
        rw [List.length_drop, List.length_cons]
        rw [List.length_cons] at enough
        omega
      have nextCovered (depth : Nat) :
          Cover comparing (front ++ stretch) (⟨joinedRun, depth⟩ :: stillWaiting) :=
        ⟨before, joined, same, joinedOf, beforeCovered⟩
      have whole : front ++ stretch ++ next :: rest =
          front ++ stretch ++ (next :: rest).take following.length ++
            (next :: rest).drop following.length := by
        rw [List.append_assoc (front ++ stretch), List.take_append_drop]
      rw [whole]
      exact inductionHypothesis (position + following.length) shorter (fun _ => planPositive)
        (nextCovered _) cutOff.of

theorem finds_carryOut {plan : Plan α} (sorts : Sorts comparing plan.sort) {items : List α}
    (length : plan.length = items.length) :
    (plan.carryOut items).Finds comparing (StablySorted comparing items) := by
  have positive : items ≠ [] → 0 < plan.length := fun nonempty =>
    length ▸ List.length_pos_iff.mpr nonempty
  rw [carryOut, Finds.bind_iff]
  refine (Run.finds_cut plan.eager fun nonempty => usefulLength_pos (positive nonempty)).mono ?_
  intro first cutOff
  rw [Finds.bind_iff]
  have nothingWaits : Cover comparing [] ([] : List (Waiting α)) := rfl
  have enough : (items.drop first.length).length ≤ items.length := by
    rw [List.length_drop]
    omega
  have restPositive (nonempty : items.drop first.length ≠ []) : 0 < plan.length :=
    positive fun empty => nonempty (by rw [empty, List.drop_nil])
  have found := finds_joinRest sorts first.length enough restPositive nothingWaits cutOff.of
  rw [List.nil_append, List.take_append_drop] at found
  exact found.mono fun run of => Run.finds_settle sorts of

end Plan

theorem finds_sortByRuns (eager : Bool) (sorts : Sorts comparing sort) :
    Sorts comparing (sortByRuns eager sort) := fun _ => Plan.finds_carryOut sorts rfl

end StagedQuery.StableSort
