/-
This file proves that the sort asks about nothing but the elements of its list and
gives them back, each as often as it was there, whatever the answers are.

The answers need not be those of an order, and the sort may find a contradiction
in them. It then gives nothing. Everything else that it has in hand is a
rearrangement of a part of its list: what was placed, what both ends of a merge have
taken and left over, the runs, and both parts at a pivot. So what is known of the
elements of the list is known of those that are asked about. The two ends of a merge
do not look at each other and could take an element twice; this is where the sort
has to find a contradiction. An element may be compared with itself, as a pivot
remains in the part behind it and can be chosen there again.
-/

import StagedQuery.Proofs.Sorting.Pivots

namespace StagedQuery

variable {α β γ : Type} {known : α → Prop}

/-! ### Questions -/

namespace Strategy

/-- Whatever the answers, a strategy asks about known elements only, and what it comes to reaches
a goal. -/
def AsksAmong (known : α → Prop) (goal : β → Prop) : Strategy α β → Prop
  | done value => goal value
  | ask left right next =>
    known left ∧ known right ∧ ∀ answer, (next answer).AsksAmong known goal
  | contradicted => True

namespace AsksAmong

@[simp]
theorem pure_iff {goal : β → Prop} {value : β} :
    (pure value : Strategy α β).AsksAmong known goal ↔ goal value := Iff.rfl

@[simp]
theorem isLess_iff {goal : Bool → Prop} {left right : α} :
    (isLess left right).AsksAmong known goal ↔
      known left ∧ known right ∧ ∀ answer, goal answer := Iff.rfl

/-- A continued strategy asks what its first part asks and what the continuation asks then. -/
@[simp]
theorem bind_iff {goal : γ → Prop} {strategy : Strategy α β} {later : β → Strategy α γ} :
    (strategy >>= later).AsksAmong known goal ↔
      strategy.AsksAmong known fun value => (later value).AsksAmong known goal := by
  induction strategy with
  | done value => exact Iff.rfl
  | ask left right next inductionHypothesis =>
    exact and_congr_right' (and_congr_right' (forall_congr' inductionHypothesis))
  | contradicted => exact Iff.rfl

@[simp]
theorem map_iff {goal : γ → Prop} {change : β → γ} {strategy : Strategy α β} :
    (change <$> strategy).AsksAmong known goal ↔
      strategy.AsksAmong known fun value => goal (change value) := by
  rw [map_eq_pure_bind, bind_iff]
  exact Iff.rfl

/-- A strategy that reaches a goal reaches every goal that follows from it. -/
theorem mono {goal wider : β → Prop} {strategy : Strategy α β}
    (asks : strategy.AsksAmong known goal) (follows : ∀ value, goal value → wider value) :
    strategy.AsksAmong known wider := by
  induction strategy with
  | done value => exact follows value asks
  | ask left right next inductionHypothesis =>
    exact ⟨asks.1, asks.2.1, fun answer => inductionHypothesis answer (asks.2.2 answer)⟩
  | contradicted => trivial

/-- A step that leads from one stretch of the way to the next leads to the end of the way. -/
theorem repeated (reached : Nat → β → Prop) {step : β → Strategy α β} {count start : Nat}
    {state : β} (initial : reached start state)
    (advance : ∀ index < start + count, ∀ state, reached index state →
      (step state).AsksAmong known (reached (index + 1))) :
    (Strategy.repeated step count state).AsksAmong known (reached (start + count)) := by
  induction count generalizing start state with
  | zero => exact initial
  | succ count inductionHypothesis =>
    rw [Strategy.repeated, bind_iff]
    refine (advance start (by omega) state initial).mono fun state' initial' => ?_
    have asks := inductionHypothesis initial' fun index bound => advance index (by omega)
    rwa [Nat.add_right_comm, Nat.add_assoc] at asks

end AsksAmong

end Strategy

namespace StableSort

open Strategy

/-- A list of known elements. -/
def Among (known : α → Prop) (items : List α) : Prop := ∀ item ∈ items, known item

section

variable {items other front back : List α} {first : α}

@[simp]
theorem among_nil : Among known [] := fun _ => nofun

@[simp]
theorem among_cons : Among known (first :: items) ↔ known first ∧ Among known items :=
  List.forall_mem_cons

@[simp]
theorem among_append : Among known (front ++ back) ↔ Among known front ∧ Among known back :=
  List.forall_mem_append

theorem Among.sublist (among : Among known items) (sublist : other.Sublist items) :
    Among known other := fun item member => among item (sublist.mem member)

theorem Among.take (among : Among known items) (count : Nat) : Among known (items.take count) :=
  among.sublist (List.take_sublist count items)

theorem Among.drop (among : Among known items) (count : Nat) : Among known (items.drop count) :=
  among.sublist (List.drop_sublist count items)

/-- A rearrangement of known elements consists of known elements. -/
theorem Among.perm (among : Among known items) (rearranged : other.Perm items) :
    Among known other := fun item member => among item (rearranged.mem_iff.mp member)

end

/-- A way to sort that asks about the elements of a list only and rearranges them. -/
def AsksWithin (known : α → Prop) (sort : List α → Strategy α (List α)) : Prop :=
  ∀ ⦃items⦄, Among known items → (sort items).AsksAmong known (·.Perm items)

/-! ### Insertion -/

theorem asks_place {element : α} {placed : List α} (elementKnown : known element)
    (placedKnown : Among known placed) :
    (place element placed).AsksAmong known (·.Perm (element :: placed)) := by
  induction placed with
  | nil => exact .refl _
  | cons neighbour rest inductionHypothesis =>
    obtain ⟨neighbourKnown, restKnown⟩ := among_cons.mp placedKnown
    rw [place, AsksAmong.bind_iff, AsksAmong.isLess_iff]
    refine ⟨elementKnown, neighbourKnown, fun answer => ?_⟩
    split
    · rw [AsksAmong.bind_iff]
      exact (inductionHypothesis restKnown).mono fun _ rearranged =>
        (rearranged.cons neighbour).trans (.swap element neighbour rest)
    · exact .refl _

theorem asks_placeAll {placed items : List α} (placedKnown : Among known placed)
    (itemsKnown : Among known items) :
    (placeAll placed items).AsksAmong known (·.Perm (placed ++ items)) := by
  induction items generalizing placed with
  | nil =>
    rw [List.append_nil]
    exact .refl placed
  | cons element rest inductionHypothesis =>
    obtain ⟨elementKnown, restKnown⟩ := among_cons.mp itemsKnown
    rw [placeAll, AsksAmong.bind_iff]
    refine (asks_place elementKnown placedKnown).mono fun next nextRearranged => ?_
    have nextKnown := (among_cons.mpr ⟨elementKnown, placedKnown⟩).perm nextRearranged
    refine (inductionHypothesis nextKnown restKnown).mono fun result rearranged => ?_
    exact rearranged.trans ((nextRearranged.append_right rest).trans List.perm_middle.symm)

theorem asks_insertion : AsksWithin known insertion := by
  intro items itemsKnown
  rw [insertion, AsksAmong.bind_iff]
  exact (asks_placeAll among_nil itemsKnown).mono fun result rearranged =>
    (List.reverse_perm result).trans rearranged

/-! ### Merging -/

namespace Merging

/-- A merge that has taken so many heads off two lists. -/
structure TakenOff (left right : List α) (count : Nat) (merging : Merging α) : Prop where
  left_suffix : merging.left <:+ left
  right_suffix : merging.right <:+ right
  perm : (merging.taken ++ (merging.left ++ merging.right)).Perm (left ++ right)
  length_taken : merging.taken.length = count

theorem takenOff_start (left right : List α) : (start left right).TakenOff left right 0 :=
  ⟨List.suffix_rfl, List.suffix_rfl, .refl _, rfl⟩

namespace TakenOff

variable {left right : List α} {count : Nat} {merging : Merging α}

/-- What is taken and what is left over are as many elements as there were. -/
theorem length_eq (takenOff : merging.TakenOff left right count) :
    count + (merging.left.length + merging.right.length) = left.length + right.length := by
  have lengths := takenOff.perm.length_eq
  rwa [List.length_append, List.length_append, List.length_append, takenOff.length_taken]
    at lengths

theorem takeLeft (takenOff : merging.TakenOff left right count) (more : merging.left ≠ []) :
    merging.takeLeft.TakenOff left right (count + 1) := by
  obtain ⟨taken, leftRest, rightRest⟩ := merging
  cases leftRest with
  | nil => exact absurd rfl more
  | cons head rest =>
    obtain ⟨leftSuffix, rightSuffix, perm, lengthTaken⟩ := takenOff
    exact ⟨(List.suffix_cons head rest).trans leftSuffix, rightSuffix,
      List.perm_middle.symm.trans perm, congrArg (· + 1) lengthTaken⟩

theorem takeRight (takenOff : merging.TakenOff left right count) (more : merging.right ≠ []) :
    merging.takeRight.TakenOff left right (count + 1) := by
  obtain ⟨taken, leftRest, rightRest⟩ := merging
  cases rightRest with
  | nil => exact absurd rfl more
  | cons head rest =>
    obtain ⟨leftSuffix, rightSuffix, perm, lengthTaken⟩ := takenOff
    have moved : (head :: taken ++ (leftRest ++ rest)).Perm (taken ++ (leftRest ++ head :: rest)) :=
      List.perm_middle.symm.trans (List.perm_middle.symm.append_left taken)
    exact ⟨leftSuffix, (List.suffix_cons head rest).trans rightSuffix, moved.trans perm,
      congrArg (· + 1) lengthTaken⟩

/-- As long as a head is left, one is taken. -/
theorem asks_take (turned : Bool) (leftKnown : Among known left) (rightKnown : Among known right)
    (more : count < left.length + right.length) (takenOff : merging.TakenOff left right count) :
    (merging.take turned).AsksAmong known (TakenOff left right (count + 1)) := by
  have lengths := takenOff.length_eq
  unfold take
  split
  · rename_i leftHead leftRest rightHead rightRest leftShape rightShape
    have leftHeadKnown :=
      (among_cons.mp (leftShape ▸ leftKnown.sublist takenOff.left_suffix.sublist)).1
    have rightHeadKnown :=
      (among_cons.mp (rightShape ▸ rightKnown.sublist takenOff.right_suffix.sublist)).1
    rw [AsksAmong.bind_iff, AsksAmong.isLess_iff]
    refine ⟨rightHeadKnown, leftHeadKnown, fun answer => ?_⟩
    split
    · exact takenOff.takeRight (by simp [rightShape])
    · exact takenOff.takeLeft (by simp [leftShape])
  · rename_i leftEmpty
    refine takenOff.takeRight fun rightEmpty => ?_
    rw [leftEmpty, rightEmpty, List.length_nil] at lengths
    omega
  · rename_i rightEmpty _
    refine takenOff.takeLeft fun leftEmpty => ?_
    rw [leftEmpty, rightEmpty, List.length_nil] at lengths
    omega

/-- After as many heads as there are elements, all of them are taken. -/
theorem perm_taken (takenOff : merging.TakenOff left right (left.length + right.length)) :
    merging.taken.Perm (left ++ right) := by
  have lengths := takenOff.length_eq
  have leftEmpty : merging.left = [] := List.eq_nil_of_length_eq_zero (by omega)
  have rightEmpty : merging.right = [] := List.eq_nil_of_length_eq_zero (by omega)
  have perm := takenOff.perm
  rwa [leftEmpty, rightEmpty, List.append_nil, List.append_nil] at perm

end TakenOff

end Merging

section

variable {left right : List α}

theorem asks_merge (leftKnown : Among known left) (rightKnown : Among known right) :
    (merge left right).AsksAmong known (·.Perm (left ++ right)) := by
  unfold merge
  split
  · rw [mergeForward, AsksAmong.bind_iff]
    refine (AsksAmong.repeated (Merging.TakenOff left right) (Merging.takenOff_start left right)
      fun count bound merging takenOff =>
        takenOff.asks_take false leftKnown rightKnown (by omega)).mono fun merging takenOff => ?_
    rw [Nat.zero_add] at takenOff
    exact (List.reverse_perm _).trans takenOff.perm_taken
  · rw [mergeBackward, AsksAmong.bind_iff]
    have leftPerm := List.reverse_perm left
    have rightPerm := List.reverse_perm right
    refine (AsksAmong.repeated (Merging.TakenOff left.reverse right.reverse)
      (Merging.takenOff_start _ _) fun count bound merging takenOff =>
        takenOff.asks_take true (leftKnown.perm leftPerm) (rightKnown.perm rightPerm)
          (by simpa using bound)).mono fun merging takenOff => ?_
    rw [Nat.zero_add, ← leftPerm.length_eq, ← rightPerm.length_eq] at takenOff
    exact takenOff.perm_taken.trans (leftPerm.append rightPerm)

/-! ### Merging from both ends -/

namespace EndMerging

/-- A merge from both ends that has taken so many heads at each of them. -/
structure TakenOff (left right : List α) (count backCount : Nat) (merging : EndMerging α) :
    Prop where
  front : merging.front.TakenOff left right count
  back : merging.back.TakenOff left.reverse right.reverse backCount

variable {count backCount : Nat} {merging : EndMerging α}

theorem asks_take (leftKnown : Among known left) (rightKnown : Among known right)
    (more : count < left.length + right.length)
    (takenOff : merging.TakenOff left right count count) :
    merging.take.AsksAmong known (TakenOff left right (count + 1) (count + 1)) := by
  rw [take, AsksAmong.bind_iff]
  refine (takenOff.front.asks_take false leftKnown rightKnown more).mono fun front frontTaken => ?_
  rw [AsksAmong.bind_iff]
  exact (takenOff.back.asks_take true (leftKnown.perm (List.reverse_perm left))
    (rightKnown.perm (List.reverse_perm right)) (by simpa using more)).mono
      fun back backTaken => ⟨frontTaken, backTaken⟩

/-- Where one element is left between the ends, it can be taken at the front. -/
theorem TakenOff.takeMiddle (takenOff : merging.TakenOff left right count count)
    (odd : count + 1 + count = left.length + right.length) :
    (merging.takeMiddle left.length).TakenOff left right (count + 1) count := by
  have frontLengths := takenOff.front.length_eq
  have backLengths := takenOff.back.length_eq
  have backLeft := takenOff.back.left_suffix.length_le
  have backRight := takenOff.back.right_suffix.length_le
  rw [List.length_reverse, List.length_reverse] at backLengths
  rw [List.length_reverse] at backLeft backRight
  unfold EndMerging.takeMiddle
  split
  · exact ⟨takenOff.front.takeLeft (List.ne_nil_of_length_pos (by omega)), takenOff.back⟩
  · exact ⟨takenOff.front.takeRight (List.ne_nil_of_length_pos (by omega)), takenOff.back⟩

/-- A list that is cut from both ends falls into what is left over at them, if nothing is left over
twice. -/
theorem perm_of_suffixes {items front back : List α} (frontSuffix : front <:+ items)
    (backSuffix : back <:+ items.reverse) (lengths : front.length + back.length = items.length) :
    (front ++ back).Perm items := by
  obtain ⟨before, rfl⟩ := frontSuffix
  obtain ⟨behind, parts⟩ := backSuffix
  have same : before = back.reverse := by
    have turned := congrArg List.reverse parts
    rw [List.reverse_append, List.reverse_reverse] at turned
    refine (List.append_inj turned ?_).1.symm
    rw [List.length_append] at lengths
    rw [List.length_reverse]
    omega
  rw [same]
  exact List.perm_append_comm.trans ((List.reverse_perm back).symm.append_right front)

/-- Ends that meet in both lists have taken every element once. -/
theorem TakenOff.asks_finish (takenOff : merging.TakenOff left right count backCount)
    (all : count + backCount = left.length + right.length) :
    (merging.finish left.length).AsksAmong known (·.Perm (left ++ right)) := by
  classical
  unfold finish
  split
  · rename_i meet
    have frontLengths := takenOff.front.length_eq
    have backLengths := takenOff.back.length_eq
    rw [List.length_reverse, List.length_reverse] at backLengths
    have leftOver := perm_of_suffixes takenOff.front.left_suffix takenOff.back.left_suffix meet
    have rightOver := perm_of_suffixes takenOff.front.right_suffix takenOff.back.right_suffix
      (by omega)
    -- Each end has taken what the other end has left over.
    refine List.perm_iff_count.mpr fun element => ?_
    have front := takenOff.front.perm.count_eq element
    have back := takenOff.back.perm.count_eq element
    have lefts := leftOver.count_eq element
    have rights := rightOver.count_eq element
    simp only [List.count_append, List.count_reverse] at *
    omega
  · trivial

end EndMerging

theorem asks_mergeEnds (leftKnown : Among known left) (rightKnown : Among known right) :
    (mergeEnds left right).AsksAmong known (·.Perm (left ++ right)) := by
  rw [mergeEnds, AsksAmong.bind_iff]
  refine (AsksAmong.repeated (fun count => EndMerging.TakenOff left right count count)
    ⟨Merging.takenOff_start _ _, Merging.takenOff_start _ _⟩ fun count bound merging takenOff =>
      EndMerging.asks_take leftKnown rightKnown (by omega) takenOff).mono fun merging takenOff => ?_
  rw [Nat.zero_add] at takenOff
  split
  · exact takenOff.asks_finish (by omega)
  · exact (takenOff.takeMiddle (by omega)).asks_finish (by omega)

end

/-! ### Blocks -/

theorem asks_sortPair {first second : α} (firstKnown : known first) (secondKnown : known second) :
    (sortPair first second).AsksAmong known fun pair =>
      [pair.1, pair.2].Perm [first, second] := by
  rw [sortPair, AsksAmong.bind_iff, AsksAmong.isLess_iff]
  refine ⟨secondKnown, firstKnown, fun answer => ?_⟩
  split
  · exact List.Perm.swap first second []
  · exact List.Perm.refl [first, second]

theorem asks_sortPairs {low high : α × α} (fourKnown : Among known [low.1, low.2, high.1, high.2]) :
    (sortPairs low high).AsksAmong known (·.Perm [low.1, low.2, high.1, high.2]) := by
  classical
  obtain ⟨first, second⟩ := low
  obtain ⟨third, fourth⟩ := high
  obtain ⟨firstKnown, secondKnown, thirdKnown, fourthKnown, _⟩ :
      known first ∧ known second ∧ known third ∧ known fourth ∧ Among known [] := by
    simpa only [among_cons] using fourKnown
  rw [sortPairs, AsksAmong.bind_iff, AsksAmong.isLess_iff]
  refine ⟨thirdKnown, firstKnown, fun lowIsLater => ?_⟩
  rw [AsksAmong.bind_iff, AsksAmong.isLess_iff]
  refine ⟨fourthKnown, secondKnown, fun highIsEarlier => ?_⟩
  have chosen : [if lowIsLater then third else first,
      if lowIsLater then first else if highIsEarlier then third else second,
      if highIsEarlier then fourth else if lowIsLater then second else third,
      if highIsEarlier then second else fourth].Perm [first, second, third, fourth] := by
    refine List.perm_iff_count.mpr fun element => ?_
    cases lowIsLater <;> cases highIsEarlier <;>
      simp only [List.count_cons, Bool.false_eq_true, if_true, if_false] <;> omega
  have chosenKnown := fourKnown.perm chosen
  simp only [among_cons] at chosenKnown
  rw [AsksAmong.bind_iff, AsksAmong.isLess_iff]
  refine ⟨chosenKnown.2.2.1, chosenKnown.2.1, fun answer => ?_⟩
  split
  · exact ((List.Perm.swap _ _ _).cons _).trans chosen
  · exact chosen

namespace Placing

/-- A part of a block, some elements of which have been placed. -/
def Rearranges (part : List α) (placing : Placing α) : Prop :=
  (placing.placed ++ placing.rest).Perm part

variable {part : List α}

theorem rearranges_start (part : List α) : (start part).Rearranges part := .refl part

theorem asks_startWithFour (partKnown : Among known part) :
    (startWithFour part).AsksAmong known (Rearranges part) := by
  unfold startWithFour
  split
  · rename_i first second third fourth rest
    have fourKnown : Among known [first, second, third, fourth] := partKnown.take 4
    rw [AsksAmong.bind_iff, sortFour, AsksAmong.bind_iff]
    refine (asks_sortPair (fourKnown first (by simp)) (fourKnown second (by simp))).mono
      fun low lowRearranged => ?_
    rw [AsksAmong.bind_iff]
    refine (asks_sortPair (fourKnown third (by simp)) (fourKnown fourth (by simp))).mono
      fun high highRearranged => ?_
    have pairs : [low.1, low.2, high.1, high.2].Perm [first, second, third, fourth] :=
      lowRearranged.append highRearranged
    exact (asks_sortPairs (fourKnown.perm pairs)).mono fun four rearranged =>
      ((List.reverse_perm four).trans (rearranged.trans pairs)).append_right rest
  · exact rearranges_start part

theorem Rearranges.asks_finish {placing : Placing α} (rearranges : placing.Rearranges part)
    (partKnown : Among known part) : placing.finish.AsksAmong known (·.Perm part) := by
  obtain ⟨placedKnown, restKnown⟩ := among_append.mp (partKnown.perm rearranges)
  rw [finish, AsksAmong.bind_iff]
  exact (asks_placeAll placedKnown restKnown).mono fun result rearranged =>
    (List.reverse_perm result).trans (rearranged.trans rearranges)

end Placing

theorem asks_sortBlock : AsksWithin known sortBlock := by
  intro items itemsKnown
  have opening {part : List α} (partKnown : Among known part) :
      (if 8 ≤ items.length then Placing.startWithFour part else pure (Placing.start part)).AsksAmong
        known (Placing.Rearranges part) := by
    split
    · exact Placing.asks_startWithFour partKnown
    · exact Placing.rearranges_start part
  have leftKnown := itemsKnown.take (items.length / 2)
  have rightKnown := itemsKnown.drop (items.length / 2)
  rw [sortBlock, AsksAmong.bind_iff]
  refine (opening leftKnown).mono fun left leftPlaced => ?_
  rw [AsksAmong.bind_iff]
  refine (opening rightKnown).mono fun right rightPlaced => ?_
  rw [AsksAmong.bind_iff]
  refine (leftPlaced.asks_finish leftKnown).mono fun leftItems leftPerm => ?_
  rw [AsksAmong.bind_iff]
  refine (rightPlaced.asks_finish rightKnown).mono fun rightItems rightPerm => ?_
  have halves := leftPerm.append rightPerm
  rw [List.take_append_drop] at halves
  exact (asks_mergeEnds (leftKnown.perm leftPerm) (rightKnown.perm rightPerm)).mono
    fun _ rearranged => rearranged.trans halves

/-! ### Runs -/

namespace Run

section

variable {sort : List α → Strategy α (List α)} {items : List α}

theorem asks_settle (sorts : AsksWithin known sort) {run : Run α} (among : Among known run.items) :
    (run.settle sort).AsksAmong known (·.Perm run.items) := by
  unfold settle
  split
  · exact List.Perm.refl run.items
  · exact sorts among

theorem asks_join (sorts : AsksWithin known sort) {left right : Run α}
    (leftAmong : Among known left.items) (rightAmong : Among known right.items) :
    (left.join sort right).AsksAmong known fun run =>
      run.items.Perm (left.items ++ right.items) := by
  unfold join
  split
  · rw [AsksAmong.bind_iff]
    refine (asks_settle sorts leftAmong).mono fun leftItems leftPerm => ?_
    rw [AsksAmong.bind_iff]
    refine (asks_settle sorts rightAmong).mono fun rightItems rightPerm => ?_
    rw [AsksAmong.bind_iff]
    exact (asks_merge (leftAmong.perm leftPerm) (rightAmong.perm rightPerm)).mono
      fun _ rearranged => rearranged.trans (leftPerm.append rightPerm)
  · exact List.Perm.refl _

/-- A run is followed along the list. -/
theorem asks_follow (descending : Bool) {last : α} {earlier rest : List α}
    (lastKnown : known last) (restKnown : Among known rest) :
    (follow descending last earlier rest).AsksAmong known fun run =>
      run ≠ [] ∧ run.reverse <+: (last :: earlier).reverse ++ rest := by
  induction rest generalizing last earlier with
  | nil => exact ⟨List.cons_ne_nil last earlier, List.prefix_append _ []⟩
  | cons next rest inductionHypothesis =>
    obtain ⟨nextKnown, restKnown⟩ := among_cons.mp restKnown
    rw [follow, AsksAmong.bind_iff, AsksAmong.isLess_iff]
    refine ⟨nextKnown, lastKnown, fun answer => ?_⟩
    split
    · have further := @inductionHypothesis next (last :: earlier) nextKnown restKnown
      rwa [List.reverse_cons, List.append_assoc, List.singleton_append] at further
    · exact ⟨List.cons_ne_nil last earlier, List.prefix_append _ _⟩

/-- The elements of a run that rearrange the first ones of a list, of which there is at least
one. -/
structure TakenOff (items run : List α) : Prop where
  perm : run.Perm (items.take run.length)
  length_pos : items ≠ [] → 0 < run.length

theorem TakenOff.of_perm_take {run : List α} {count : Nat} (perm : run.Perm (items.take count))
    (positive : 0 < count) : TakenOff items run where
  perm := by
    have same : items.take (items.take count).length = items.take count :=
      (List.prefix_iff_eq_take.mp (List.take_prefix count items)).symm
    rwa [perm.length_eq, same]
  length_pos nonempty := by
    have itemsPositive := List.length_pos_iff.mpr nonempty
    rw [perm.length_eq, List.length_take]
    omega

/-- What is taken off a list and what is left of it make up the list. -/
theorem TakenOff.perm_append {run : List α} (takenOff : TakenOff items run) :
    (run ++ items.drop run.length).Perm items := by
  have whole := takenOff.perm.append_right (items.drop run.length)
  rwa [List.take_append_drop] at whole

theorem asks_find (itemsKnown : Among known items) :
    (find items).AsksAmong known (TakenOff items) := by
  unfold find
  split
  · rename_i first second rest
    simp only [among_cons] at itemsKnown
    obtain ⟨firstKnown, secondKnown, restKnown⟩ := itemsKnown
    rw [AsksAmong.bind_iff, AsksAmong.isLess_iff]
    refine ⟨secondKnown, firstKnown, fun descending => ?_⟩
    rw [AsksAmong.bind_iff]
    refine (asks_follow descending secondKnown restKnown).mono ?_
    rintro run ⟨nonempty, isPrefix⟩
    have stretch : run.reverse = (first :: second :: rest).take run.length := by
      rw [← List.length_reverse]
      exact List.prefix_iff_eq_take.mp isPrefix
    have takenOff : TakenOff (first :: second :: rest) run :=
      .of_perm_take (stretch ▸ (List.reverse_perm run).symm) (List.length_pos_iff.mpr nonempty)
    rw [AsksAmong.pure_iff]
    split
    · exact takenOff
    · refine ⟨?_, ?_⟩ <;> rw [List.length_reverse]
      · exact (List.reverse_perm run).trans takenOff.perm
      · exact takenOff.length_pos
  · rw [AsksAmong.pure_iff]
    exact ⟨by rw [List.take_length], List.length_pos_iff.mpr⟩

theorem asks_fill (eager : Bool) {length : Nat} (positive : 0 < length)
    (itemsKnown : Among known items) :
    (fill eager length items).AsksAmong known fun run => TakenOff items run.items := by
  unfold fill
  split
  · rw [AsksAmong.bind_iff]
    exact (asks_sortBlock (itemsKnown.take blockLength)).mono fun block rearranged =>
      .of_perm_take rearranged (by decide)
  · exact .of_perm_take (.refl _) positive

theorem asks_cut (eager : Bool) (length : Nat) (itemsKnown : Among known items) :
    (cut eager length items).AsksAmong known fun run => TakenOff items run.items := by
  unfold cut
  split
  · exact asks_fill eager (by omega) itemsKnown
  · rw [AsksAmong.bind_iff]
    refine (asks_find itemsKnown).mono fun found takenOff => ?_
    split
    · exact asks_fill eager (by omega) itemsKnown
    · exact takenOff

end

end Run

/-- The elements of runs that wait. -/
def waitingItems (waiting : List (Waiting α)) : List α := waiting.flatMap fun last => last.run.items

theorem waitingItems_cons (last : Waiting α) (earlier : List (Waiting α)) :
    waitingItems (last :: earlier) = last.run.items ++ waitingItems earlier := List.flatMap_cons

section

variable {sort : List α → Strategy α (List α)} {run : Run α} {waiting : List (Waiting α)}

/-- Joining loses no element, and with a depth of zero nothing waits any more. -/
theorem asks_joinDeep (sorts : AsksWithin known sort) (depth : Nat)
    (runAmong : Among known run.items) (waitingAmong : Among known (waitingItems waiting)) :
    (joinDeep sort depth run waiting).AsksAmong known fun result =>
      (waitingItems result.2 ++ result.1.items).Perm (waitingItems waiting ++ run.items) ∧
        (depth = 0 → result.2 = []) := by
  induction waiting generalizing run with
  | nil => exact ⟨.refl _, fun _ => rfl⟩
  | cons last earlier inductionHypothesis =>
    rw [waitingItems_cons] at waitingAmong ⊢
    obtain ⟨lastAmong, earlierAmong⟩ := among_append.mp waitingAmong
    unfold joinDeep
    split
    · rw [AsksAmong.bind_iff]
      refine (Run.asks_join sorts lastAmong runAmong).mono fun joined joinedPerm => ?_
      have joinedAmong := (among_append.mpr ⟨lastAmong, runAmong⟩).perm joinedPerm
      refine (inductionHypothesis joinedAmong earlierAmong).mono fun result reached => ?_
      refine ⟨reached.1.trans ?_, reached.2⟩
      have moved := joinedPerm.append_left (waitingItems earlier)
      rw [← List.append_assoc] at moved
      exact moved.trans (List.perm_append_comm.append_right run.items)
    · rename_i shallow
      rw [AsksAmong.pure_iff, waitingItems_cons]
      exact ⟨.refl _, fun zero => absurd (zero ▸ Nat.zero_le _) shallow⟩

/-- A depth of zero joins everything. -/
theorem asks_joinAll (sorts : AsksWithin known sort) (runAmong : Among known run.items)
    (waitingAmong : Among known (waitingItems waiting)) :
    (joinDeep sort 0 run waiting).AsksAmong known fun result =>
      result.1.items.Perm (waitingItems waiting ++ run.items) := by
  refine (asks_joinDeep sorts 0 runAmong waitingAmong).mono ?_
  rintro ⟨joined, stillWaiting⟩ ⟨perm, empty⟩
  obtain rfl : stillWaiting = [] := empty rfl
  exact perm

namespace Plan

variable {plan : Plan α}

theorem asks_joinRest (sorts : AsksWithin known plan.sort) {cuts : Nat} (position : Nat)
    {rest : List α} (enough : rest.length ≤ cuts) (runAmong : Among known run.items)
    (waitingAmong : Among known (waitingItems waiting)) (restKnown : Among known rest) :
    (plan.joinRest cuts position run waiting rest).AsksAmong known fun joined =>
      joined.items.Perm (waitingItems waiting ++ run.items ++ rest) := by
  induction cuts, position, run, waiting, rest using joinRest.induct plan with
  | case1 cuts position run waiting next rest inductionHypothesis =>
    rw [joinRest, AsksAmong.bind_iff]
    refine (Run.asks_cut plan.eager _ restKnown).mono fun following takenOff => ?_
    obtain ⟨followingAmong, behindKnown⟩ := among_append.mp (restKnown.perm takenOff.perm_append)
    rw [AsksAmong.bind_iff]
    refine (asks_joinDeep sorts _ runAmong waitingAmong).mono ?_
    rintro ⟨joined, stillWaiting⟩ ⟨perm, -⟩
    have nextPerm (depth : Nat) : (waitingItems (⟨joined, depth⟩ :: stillWaiting)).Perm
        (waitingItems waiting ++ run.items) := by
      rw [waitingItems_cons]
      exact List.perm_append_comm.trans perm
    have nextAmong (depth : Nat) : Among known (waitingItems (⟨joined, depth⟩ :: stillWaiting)) :=
      (among_append.mpr ⟨waitingAmong, runAmong⟩).perm (nextPerm depth)
    -- A cut takes an element at least, so that the cuts do not run out before the elements.
    have shorter : ((next :: rest).drop following.length).length ≤ cuts := by
      have positive : 0 < following.length := takenOff.length_pos (List.cons_ne_nil next rest)
      rw [List.length_drop, List.length_cons]
      rw [List.length_cons] at enough
      omega
    refine (inductionHypothesis _ _ _ shorter followingAmong (nextAmong _) behindKnown).mono ?_
    intro whole wholePerm
    rw [List.append_assoc] at wholePerm
    exact wholePerm.trans ((nextPerm _).append takenOff.perm_append)
  | case2 cuts position rest run waiting noMore =>
    have nothing : rest = [] := by
      cases rest with
      | nil => rfl
      | cons next rest =>
        obtain ⟨fewer, rfl⟩ := Nat.exists_eq_succ_of_ne_zero (Nat.ne_zero_of_lt enough)
        exact (noMore fewer next rest rfl rfl).elim
    subst nothing
    rw [joinRest, AsksAmong.bind_iff, List.append_nil]
    · exact asks_joinAll sorts runAmong waitingAmong
    · exact noMore

theorem asks_carryOut (sorts : AsksWithin known plan.sort) : AsksWithin known plan.carryOut := by
  intro items itemsKnown
  rw [carryOut, AsksAmong.bind_iff]
  refine (Run.asks_cut plan.eager _ itemsKnown).mono fun first takenOff => ?_
  obtain ⟨firstAmong, restKnown⟩ := among_append.mp (itemsKnown.perm takenOff.perm_append)
  have enough : (items.drop first.length).length ≤ items.length := by
    rw [List.length_drop]
    omega
  rw [AsksAmong.bind_iff]
  refine (asks_joinRest sorts first.length enough firstAmong among_nil restKnown).mono ?_
  intro run perm
  have runPerm := perm.trans takenOff.perm_append
  exact (Run.asks_settle sorts (itemsKnown.perm runPerm)).mono fun _ settled =>
    settled.trans runPerm

end Plan

theorem asks_sortByRuns (eager : Bool) (sorts : AsksWithin known sort) :
    AsksWithin known (sortByRuns eager sort) := fun _ itemsKnown =>
  Plan.asks_carryOut sorts itemsKnown

end

/-! ### Pivots -/

section

variable {items : List α}

theorem asks_median (itemsKnown : Among known items) (first second third : Fin items.length) :
    (median items first second third).AsksAmong known fun _ => True := by
  have knownAt (position : Fin items.length) : known items[position] :=
    itemsKnown _ (List.getElem_mem position.isLt)
  rw [median, AsksAmong.bind_iff, AsksAmong.isLess_iff]
  refine ⟨knownAt first, knownAt second, fun belowSecond => ?_⟩
  rw [AsksAmong.bind_iff, AsksAmong.isLess_iff]
  refine ⟨knownAt first, knownAt third, fun belowThird => ?_⟩
  split
  · rw [AsksAmong.bind_iff, AsksAmong.isLess_iff]
    refine ⟨knownAt second, knownAt third, fun answer => ?_⟩
    split <;> trivial
  · trivial

theorem asks_representative (itemsKnown : Among known items) (start length : Nat)
    (nonempty : 0 < length) (within : start + length ≤ items.length) :
    (representative items start length nonempty within).AsksAmong known fun _ => True := by
  induction length using Nat.strongRecOn generalizing start with
  | ind length inductionHypothesis =>
    rw [representative]
    split
    · have shorter : length / 8 < length := by omega
      rw [AsksAmong.bind_iff]
      refine (inductionHypothesis _ shorter _ _ _).mono fun first _ => ?_
      rw [AsksAmong.bind_iff]
      refine (inductionHypothesis _ shorter _ _ _).mono fun second _ => ?_
      rw [AsksAmong.bind_iff]
      exact (inductionHypothesis _ shorter _ _ _).mono fun third _ =>
        asks_median itemsKnown first second third
    · trivial

namespace Parts

/-- The elements of both parts. -/
def joined (parts : Parts α) : List α := parts.first ++ parts.second

variable {parts : Parts α}

theorem perm_cons_second (item : α) (first second : List α) :
    (joined ⟨first, item :: second⟩).Perm (item :: joined ⟨first, second⟩) := List.perm_middle

theorem asks_divide {question : α → Strategy α Bool}
    (asks : ∀ item, known item → (question item).AsksAmong known fun _ => True)
    (itemsKnown : Among known items) :
    (divide question parts items).AsksAmong known fun divided =>
      divided.joined.Perm (parts.joined ++ items) := by
  induction items generalizing parts with
  | nil =>
    rw [List.append_nil]
    exact .refl parts.joined
  | cons item rest inductionHypothesis =>
    obtain ⟨itemKnown, restKnown⟩ := among_cons.mp itemsKnown
    rw [divide, AsksAmong.bind_iff]
    refine (asks item itemKnown).mono fun answer _ => ?_
    split
    · exact (inductionHypothesis restKnown).mono fun divided perm =>
        perm.trans List.perm_middle.symm
    · exact (inductionHypothesis restKnown).mono fun divided perm =>
        perm.trans (((perm_cons_second item _ _).append_right rest).trans List.perm_middle.symm)

end Parts

namespace Pivoted

variable {pivoted : Pivoted α}

theorem asks_choose (itemsKnown : Among known items) (nonempty : 0 < items.length) :
    (choose items nonempty).AsksAmong known fun pivoted => pivoted.items = items := by
  rw [choose, AsksAmong.bind_iff]
  exact (asks_representative itemsKnown _ _ nonempty _).mono fun position _ => items_mk position

/-- What is divided in front of the pivot and behind it is, with the pivot, the whole list. -/
theorem perm_items {before withPivot divided : Parts α}
    (beforePerm : before.joined.Perm pivoted.before)
    (withPivotPerm : withPivot.joined.Perm (pivoted.pivot :: before.joined))
    (dividedPerm : divided.joined.Perm (withPivot.joined ++ pivoted.after)) :
    divided.reverse.joined.Perm pivoted.items := by
  have turned : divided.reverse.joined.Perm divided.joined :=
    (List.reverse_perm divided.first).append (List.reverse_perm divided.second)
  have front := withPivotPerm.trans (beforePerm.cons pivoted.pivot)
  exact turned.trans (dividedPerm.trans ((front.append_right pivoted.after).trans
    List.perm_middle.symm))

theorem asks_divideBelow (among : Among known pivoted.items) :
    pivoted.divideBelow.AsksAmong known fun parts => parts.joined.Perm pivoted.items := by
  obtain ⟨beforeKnown, behindKnown⟩ := among_append.mp among
  obtain ⟨pivotKnown, afterKnown⟩ := among_cons.mp behindKnown
  have asks (item : α) (itemKnown : known item) :
      (isLess item pivoted.pivot).AsksAmong known fun _ => True :=
    ⟨itemKnown, pivotKnown, fun _ => trivial⟩
  rw [divideBelow, AsksAmong.bind_iff]
  refine (Parts.asks_divide asks beforeKnown).mono fun before beforePerm => ?_
  rw [AsksAmong.bind_iff]
  exact (Parts.asks_divide asks afterKnown).mono fun divided dividedPerm =>
    perm_items beforePerm (Parts.perm_cons_second _ _ _) dividedPerm

theorem asks_divideAbove (among : Among known pivoted.items) :
    pivoted.divideAbove.AsksAmong known fun parts => parts.joined.Perm pivoted.items := by
  obtain ⟨beforeKnown, behindKnown⟩ := among_append.mp among
  obtain ⟨pivotKnown, afterKnown⟩ := among_cons.mp behindKnown
  have asks (item : α) (itemKnown : known item) :
      (not <$> isLess pivoted.pivot item).AsksAmong known fun _ => True :=
    AsksAmong.map_iff.mpr ⟨pivotKnown, itemKnown, fun _ => trivial⟩
  rw [divideAbove, AsksAmong.bind_iff]
  refine (Parts.asks_divide asks beforeKnown).mono fun before beforePerm => ?_
  rw [AsksAmong.bind_iff]
  exact (Parts.asks_divide asks afterKnown).mono fun divided dividedPerm =>
    perm_items beforePerm (.refl _) dividedPerm

theorem known_pivot (among : Among known pivoted.items) : known pivoted.pivot :=
  among pivoted.pivot (List.mem_append_right _ List.mem_cons_self)

end Pivoted

theorem asks_repeats {earlier : Option α} {pivot : α}
    (earlierKnown : ∀ element ∈ earlier, known element) (pivotKnown : known pivot) :
    (repeats earlier pivot).AsksAmong known fun _ => True := by
  cases earlier with
  | none => trivial
  | some element =>
    rw [repeats, AsksAmong.map_iff]
    exact ⟨earlierKnown element rfl, pivotKnown, fun _ => trivial⟩

/-- The parts of a list are sorted and put together. -/
theorem asks_sortParts {pivots : Nat} {earlier : Option α} {pivoted : Pivoted α} {parts : Parts α}
    (sorts : ∀ {earlier : Option α}, (∀ element ∈ earlier, known element) →
      AsksWithin known (sortByPivots pivots earlier))
    (earlierKnown : ∀ element ∈ earlier, known element) (among : Among known pivoted.items)
    (divided : parts.joined.Perm pivoted.items) :
    (if parts.first.isEmpty then do
        let parts ← pivoted.divideAbove
        return parts.first ++ (← sortByPivots pivots none parts.second)
      else do
        let second ← sortByPivots pivots (some pivoted.pivot) parts.second
        let first ← sortByPivots pivots earlier parts.first
        return first ++ second).AsksAmong known fun sorted : List α =>
      sorted.Perm pivoted.items := by
  split
  · have noneEarlier : ∀ element ∈ (none : Option α), known element := by simp
    rw [AsksAmong.bind_iff]
    refine (Pivoted.asks_divideAbove among).mono fun parts divided => ?_
    have secondKnown := (among_append.mp (among.perm divided)).2
    rw [AsksAmong.bind_iff]
    exact (sorts noneEarlier secondKnown).mono fun second perm =>
      (perm.append_left parts.first).trans divided
  · obtain ⟨firstKnown, secondKnown⟩ := among_append.mp (among.perm divided)
    have pivotKnown : ∀ element ∈ some pivoted.pivot, known element := by
      simpa using Pivoted.known_pivot among
    rw [AsksAmong.bind_iff]
    refine (sorts pivotKnown secondKnown).mono fun second secondPerm => ?_
    rw [AsksAmong.bind_iff]
    exact (sorts earlierKnown firstKnown).mono fun first firstPerm =>
      (firstPerm.append secondPerm).trans divided

theorem asks_sortByPivots (pivots : Nat) {earlier : Option α}
    (earlierKnown : ∀ element ∈ earlier, known element) :
    AsksWithin known (sortByPivots pivots earlier) := by
  induction pivots generalizing earlier with
  | zero =>
    intro items itemsKnown
    unfold sortByPivots
    split
    · exact asks_sortBlock itemsKnown
    · exact asks_sortByRuns true asks_insertion itemsKnown
  | succ pivots inductionHypothesis =>
    intro items itemsKnown
    unfold sortByPivots
    split
    · exact asks_sortBlock itemsKnown
    · rw [AsksAmong.bind_iff]
      refine (Pivoted.asks_choose itemsKnown _).mono ?_
      rintro pivoted rfl
      rw [AsksAmong.bind_iff]
      refine (asks_repeats earlierKnown (Pivoted.known_pivot itemsKnown)).mono fun repeated _ => ?_
      dsimp only
      split
      · have undivided : (Parts.joined ⟨[], pivoted.items⟩).Perm pivoted.items := .refl _
        exact asks_sortParts inductionHypothesis earlierKnown itemsKnown undivided
      · rw [AsksAmong.bind_iff]
        exact (Pivoted.asks_divideBelow itemsKnown).mono fun parts divided =>
          asks_sortParts inductionHypothesis earlierKnown itemsKnown divided

theorem asks_quicksort : AsksWithin known quicksort := fun _ itemsKnown =>
  asks_sortByPivots _ (by simp) itemsKnown

/-- The sort asks about the elements of its list only, and it rearranges them. -/
theorem asks_sort : AsksWithin known sort := by
  intro items itemsKnown
  unfold sort
  split
  · exact asks_insertion itemsKnown
  · exact asks_sortByRuns _ asks_quicksort itemsKnown

end

end StableSort

end StagedQuery
