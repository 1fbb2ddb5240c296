/-
This file proves that the result of a naturally ordered query does not depend on the
order of its source, as far as equality can tell.

When the source is permuted, other elements come first among those that are equal. So
other ones of them are left when duplicates are dropped, and the sort, which is stable,
leaves them in another order. What stays is how many images there are of every class,
and an ascending list is fixed by these numbers up to equal elements. Dropping duplicates
and sorting can change places, so the lists are compared as if they were sorted first:
lists that are equal in place stay so when duplicates are dropped.
-/

import Mathlib.Data.List.Forall2
import StagedQuery.Proofs.Duplicates.Sorting
import StagedQuery.Proofs.Run.Projections

namespace StagedQuery

open Std

variable {α β : Type}

/-! ### Classes of equal elements -/

/-- Two lists that have as many elements of every class as each other. -/
def SameCounts (comparing : α → α → Ordering) (items other : List α) : Prop :=
  ∀ element, (equals comparing element items).length = (equals comparing element other).length

namespace SameCounts

variable {comparing : α → α → Ordering} {items other : List α}

theorem of_perm (rearranged : items.Perm other) : SameCounts comparing items other :=
  fun _ => (rearranged.filter _).length_eq

theorem symm (counts : SameCounts comparing items other) : SameCounts comparing other items :=
  fun element => (counts element).symm

variable [TransCmp comparing]

/-- The first elements of two lists can be dropped if they are of the same class. -/
theorem of_cons {first otherFirst : α} (same : comparing first otherFirst = .eq)
    (counts : SameCounts comparing (first :: items) (otherFirst :: other)) :
    SameCounts comparing items other := by
  intro element
  have counted := counts element
  have congruent : comparing element first = comparing element otherFirst :=
    TransCmp.congr_right same
  by_cases equal : comparing element first = .eq
  · rw [equals_cons_of_eq equal, equals_cons_of_eq (congruent ▸ equal)] at counted
    exact Nat.succ.inj counted
  · rwa [equals_cons_of_ne equal, equals_cons_of_ne (congruent ▸ equal)] at counted

/-- An element of one list has an element of its class in the other. -/
theorem exists_mem (counts : SameCounts comparing items other) {element : α}
    (member : element ∈ items) : ∃ item ∈ other, comparing element item = .eq := by
  have ofClass : element ∈ equals comparing element items :=
    mem_equals.mpr ⟨member, ReflCmp.compare_self⟩
  have counted := List.length_pos_of_mem ofClass
  rw [counts element] at counted
  obtain ⟨item, otherOfClass⟩ := List.exists_mem_of_length_pos counted
  exact ⟨item, mem_equals.mp otherOfClass⟩

/-- The first element of an ascending list is not greater than that of another with the same
counts. -/
theorem isLE_first {first otherFirst : α} (ascending : Ascending comparing (first :: items))
    (counts : SameCounts comparing (first :: items) (otherFirst :: other)) :
    (comparing first otherFirst).isLE := by
  obtain ⟨item, member, same⟩ := counts.symm.exists_mem List.mem_cons_self
  rw [TransCmp.congr_right same]
  rcases List.mem_cons.mp member with rfl | later
  · exact ReflCmp.isLE_rfl
  · exact (ascending_cons.mp ascending).1 item later

end SameCounts

/-- Ascending lists with the same counts have elements of the same class in every place. -/
theorem Ascending.forall₂_of_sameCounts {comparing : α → α → Ordering} [TransCmp comparing]
    {items other : List α} (ascending : Ascending comparing items)
    (otherAscending : Ascending comparing other) (counts : SameCounts comparing items other) :
    List.Forall₂ (fun first second => comparing first second = .eq) items other := by
  induction items generalizing other with
  | nil =>
    cases other with
    | nil => exact .nil
    | cons otherFirst otherRest =>
      obtain ⟨_, inNil, _⟩ := counts.symm.exists_mem List.mem_cons_self
      nomatch inNil
  | cons first rest inductionHypothesis =>
    cases other with
    | nil =>
      obtain ⟨_, inNil, _⟩ := counts.exists_mem List.mem_cons_self
      nomatch inNil
    | cons otherFirst otherRest =>
      -- The first elements need not be the same, but neither is greater than the other.
      have same : comparing first otherFirst = .eq :=
        OrientedCmp.isLE_antisymm (counts.isLE_first ascending)
          (counts.symm.isLE_first otherAscending)
      exact .cons same (inductionHypothesis (ascending_cons.mp ascending).2
        (ascending_cons.mp otherAscending).2 (counts.of_cons same))

/-! ### Lists that are equal in place -/

/-- Dropping duplicates leaves the same places of lists that are equal in place. -/
theorem eraseDups_forall₂ [BEq α] [EquivBEq α] {items other : List α}
    (equal : List.Forall₂ (fun first second => first == second) items other) :
    List.Forall₂ (fun first second => first == second) items.eraseDups other.eraseDups := by
  induction equal with
  | nil => exact .nil
  | @cons first otherFirst rest otherRest same _ inductionHypothesis =>
    rw [eraseDups_cons_eq_filter, eraseDups_cons_eq_filter]
    refine .cons same (List.rel_filter (fun item otherItem alike => ?_) inductionHypothesis)
    show (!item == first) = true ↔ (!otherItem == otherFirst) = true
    rw [BEq.congr_left alike, BEq.congr_right same]

section

variable [Ord α] [TransOrd α]

/-- Whatever becomes of duplicates, permutations are sorted into lists that are equal in place. -/
theorem mergeSorted_forall₂_of_perm [BEq α] [LawfulBEqOrd α] (deduplication : Deduplication)
    {items other : List α} (rearranged : items.Perm other) :
    List.Forall₂ (fun first second => first == second)
      (mergeSorted compare (deduplication.apply items))
      (mergeSorted compare (deduplication.apply other)) := by
  have sorted : StablySorted compare items (mergeSorted compare items) := .mergeSorted items
  have otherSorted : StablySorted compare other (mergeSorted compare other) := .mergeSorted other
  have counts : SameCounts compare (mergeSorted compare items) (mergeSorted compare other) :=
    .of_perm ((sorted.perm.trans rearranged).trans otherSorted.perm.symm)
  have equal : List.Forall₂ (fun first second => first == second)
      (mergeSorted compare items) (mergeSorted compare other) :=
    (sorted.ascending.forall₂_of_sameCounts otherSorted.ascending counts).imp
      fun _ _ => LawfulBEqOrd.compare_eq_iff_beq.mp
  cases deduplication with
  | keepAll => exact equal
  | distinct =>
    have alike : ∀ first second : α, first == second → compare first second = .eq :=
      fun first second => LawfulBEqOrd.compare_eq_iff_beq.mpr
    rw [Deduplication.apply_distinct, Deduplication.apply_distinct, mergeSorted_eraseDups alike,
      mergeSorted_eraseDups alike]
    exact eraseDups_forall₂ equal

/-- Without different elements that compare equal, permutations have the same stable sort. -/
theorem mergeSorted_eq_of_perm {items other : List α} (rearranged : items.Perm other)
    (different : ∀ first ∈ items, ∀ second ∈ items, compare first second = .eq → first = second) :
    mergeSorted compare items = mergeSorted compare other := by
  have sorted : StablySorted compare items (mergeSorted compare items) := .mergeSorted items
  have otherSorted : StablySorted compare other (mergeSorted compare other) := .mergeSorted other
  refine List.Perm.eq_of_pairwise (fun first second member otherMember le ge => ?_)
    sorted.ascending otherSorted.ascending ((sorted.perm.trans rearranged).trans
      otherSorted.perm.symm)
  exact different first (sorted.mem_iff.mp member) second
    (rearranged.mem_iff.mpr (otherSorted.mem_iff.mp otherMember))
    (OrientedCmp.isLE_antisymm le ge)

end

/-! ### Runs over another source -/

/-- The query over another source. -/
def Query.withSource (query : Query α β) (source : List α) : Query α β := { query with source }

/-- A chain that is legal on one source is legal on every other, and builds the same query. -/
theorem Chain.refineAll?_of_source {source : List α} {chain : Chain α β} {query : Query α β}
    (legal : (Query.ofList source).refineAll? chain = some query) (other : List α) :
    (Query.ofList other).refineAll? chain = some (query.withSource other) := by
  refine legal_induction (fun chain query =>
    (Query.ofList other).refineAll? chain = some (query.withSource other)) rfl ?_ legal
  intro chain query refinement refined _ built offered
  obtain ⟨stage, next, rfl⟩ := Option.map_eq_some_iff.mp offered
  unfold Query.refineAll? at built ⊢
  rw [List.foldlM_append, built]
  show Option.bind (Option.map _ (query.stage.next? refinement)) _ = _
  rw [next]
  rfl

/-- Where neither a test nor the projection fails on an element of the source, no call of a run
fails. -/
theorem Phase.succeed_of_computes {phase : Phase α β} {change : α → β}
    (tests : ∀ element ∈ phase.source,
      ∃ accepted, (phase.predicate.test element).result = .ok accepted)
    (computes : phase.mapper.Computes change phase.source) :
    ∀ call ∈ phase.calls, phase.fault? call = none := by
  intro call made
  obtain ⟨position, element, place, planned⟩ := mem_planned_iff.mp (mem_calls_iff.mp made).1
  have member := List.mem_of_getElem? place
  rw [fault?_eq_none_iff]
  obtain ⟨_, rfl | ⟨rfl, _⟩⟩ := mem_turn_iff.mp planned
  · obtain ⟨accepted, ended⟩ := tests element member
    rw [outcome, Outcome.result_map, ended]
    rfl
  · rw [outcome, Outcome.result_map, computes _ element member]
    rfl

namespace Query

variable {change : α → β}

/-- The images of all elements of the source that are accepted. -/
def allImages (query : Query α β) (change : α → β) : List β :=
  (query.source.filter query.predicate.accepts).map change

/-- Without a limit, such a run gathers the images of all elements that are accepted. -/
theorem result_projected_of_computes {query : Query α β} {mapper : Mapper α β}
    (unlimited : query.limit = none)
    (tests : ∀ element ∈ query.source,
      ∃ accepted, (query.predicate.test element).result = .ok accepted)
    (computes : mapper.Computes change query.source) :
    (query.projected mapper).result = .ok (query.allImages change) := by
  have accepted : (query.phase mapper).accepted = query.source.filter query.predicate.accepts :=
    Phase.accepted_of_unlimited unlimited
  rw [Phase.projected_of_none (Phase.succeed_of_computes tests computes), Phase.images, accepted,
    allImages]
  have acceptedComputes : mapper.Computes change (query.source.filter query.predicate.accepts) :=
    fun calls element member => computes calls element (List.mem_of_mem_filter member)
  exact congrArg Except.ok (acceptedComputes.images_eq 0)

theorem allImages_withSource (query : Query α β) (change : α → β) {other : List α}
    (rearranged : query.source.Perm other) :
    (query.allImages change).Perm ((query.withSource other).allImages change) :=
  (rearranged.filter query.predicate.accepts).map change

end Query

namespace Chain

/-- A naturally ordered query over a permutation of a source gives lists that are equal in place,
whether it drops duplicates or not, if it has no limit and neither its tests nor the projection
fail. The lists are the same if duplicates are kept and no different ones of their elements compare
equal. -/
theorem select_ordered_of_perm [BEq β] [Ord β] [TransOrd β] [LawfulBEqOrd β]
    {source other : List α} {chain : Chain α β} {query : Query α β} {projection : Projection α β}
    {change : α → β} (rearranged : source.Perm other)
    (legal : (Query.ofList source).refineAll? chain = some query) (ordered : .ordered ∈ chain)
    (unlimited : ∀ count, .limit count ∉ chain)
    (tests : ∀ element ∈ source, ∃ accepted, (query.predicate.test element).result = .ok accepted)
    (computes : projection.mapper.Computes change source) :
    ∃ otherQuery items otherItems,
      (Query.ofList other).refineAll? chain = some otherQuery ∧
      query.elements? projection none = some items ∧
      otherQuery.elements? projection none = some otherItems ∧
      items.length = otherItems.length ∧
      List.Forall₂ (fun first second => first == second) items otherItems ∧
      (.distinct ∉ chain →
        (∀ first ∈ items, ∀ second ∈ items, compare first second = .eq → first = second) →
          items = otherItems) := by
  have described := describes_of_legal legal
  have natural : query.stage.sorting = .natural := sorting_eq_of_mem legal ordered rfl
  have noLimit : query.limit = none := by
    rw [described.limit_eq, ← Option.not_isSome_iff_eq_none, isSome_limit?_iff_mem]
    exact fun ⟨count, member⟩ => unlimited count member
  obtain rfl : query.source = source := described.source_eq
  have otherTests : ∀ element ∈ other,
      ∃ accepted, (query.predicate.test element).result = .ok accepted :=
    fun element member => tests element (rearranged.mem_iff.mpr member)
  have otherComputes : projection.mapper.Computes change other :=
    fun earlierCalls element member =>
      computes earlierCalls element (rearranged.mem_iff.mpr member)
  have gathered := Query.result_projected_of_computes noLimit tests computes
  have otherGathered := @Query.result_projected_of_computes α β change (query.withSource other)
    projection.mapper noLimit otherTests otherComputes
  have images := query.allImages_withSource change rearranged
  have equal := mergeSorted_forall₂_of_perm query.stage.deduplication images
  refine ⟨query.withSource other, _, _, refineAll?_of_source legal other,
    Query.elements?_of_natural natural gathered,
    @Query.elements?_of_natural α β _ _ (query.withSource other) projection natural _ otherGathered,
    equal.length_eq, equal, fun repeating different => ?_⟩
  have keeps : query.stage.deduplication = .keepAll := by
    rw [described.deduplication_eq, if_neg (isDistinct_iff_mem.not.mpr repeating)]
  show mergeSorted compare (query.stage.deduplication.apply _) =
    mergeSorted compare (query.stage.deduplication.apply _)
  rw [keeps, Deduplication.apply_keepAll] at different ⊢
  have sorted : StablySorted compare (query.allImages change) _ := .mergeSorted _
  exact mergeSorted_eq_of_perm images fun first member second otherMember =>
    different first (sorted.mem_iff.mpr member) second (sorted.mem_iff.mpr otherMember)

/-- The source is turned around. Of two values that differ in their tags only, the one is left that
is then first. Equal numbers cannot be told apart. -/
theorem select_ordered_of_perm_of_tags :
    let isTagged : Value → Outcome Bool := fun element => pure (element matches .tagged _ _)
    let wrap : Mapper Value := fun _ element => pure (.list [element])
    let chain : Chain Value := [.filter isTagged, .ordered, .distinct]
    let source : List Value :=
      [.tagged (.int 2) "a", .null, .tagged (.int 1) "b", .tagged (.int 2) "c"]
    let items : List Value := [.list [.tagged (.int 1) "b"], .list [.tagged (.int 2) "a"]]
    let otherItems : List Value := [.list [.tagged (.int 1) "b"], .list [.tagged (.int 2) "c"]]
    (∃ query otherQuery, (Query.ofList source).refineAll? chain = some query ∧
        (Query.ofList source.reverse).refineAll? chain = some otherQuery ∧
        query.elements? (.mapped wrap) none = some items ∧
        otherQuery.elements? (.mapped wrap) none = some otherItems ∧
        List.Forall₂ (fun first second => first == second) items otherItems) ∧
      ∃ query otherQuery : Query Value,
        (Query.ofList [.int 2, .int 1, .int 2]).refineAll? [.ordered] = some query ∧
        (Query.ofList [.int 2, .int 2, .int 1]).refineAll? [.ordered] = some otherQuery ∧
        query.elements? (.plain rfl) none = some [Value.int 1, .int 2, .int 2] ∧
        otherQuery.elements? (.plain rfl) none = some [Value.int 1, .int 2, .int 2] := by
  intro isTagged wrap chain source items otherItems
  constructor
  · have legal : (Query.ofList source).refineAll? chain = some _ := rfl
    obtain ⟨otherQuery, found, otherFound, otherLegal, given, otherGiven, _, equal, _⟩ :=
      @select_ordered_of_perm Value Value _ _ _ _ source source.reverse chain _ (.mapped wrap)
        (fun element => .list [element]) (List.reverse_perm source).symm legal (by simp [chain])
        (by simp [chain]) (fun element _ => ⟨_, rfl⟩) (fun _ _ _ => rfl)
    obtain rfl := Option.some.inj otherLegal
    have calculated := given.symm.trans (Query.elements?_of_natural rfl rfl)
    have otherCalculated := otherGiven.symm.trans (Query.elements?_of_natural rfl rfl)
    rw [@Comparator.mergeSorted_of_sort_natural Value _ _ _ items rfl] at calculated
    rw [@Comparator.mergeSorted_of_sort_natural Value _ _ _ otherItems rfl] at otherCalculated
    obtain rfl := Option.some.inj calculated
    obtain rfl := Option.some.inj otherCalculated
    exact ⟨_, _, legal, otherLegal, given, otherGiven, equal⟩
  · let whole : Query Value := .ofList [.int 2, .int 1, .int 2]
    have legal : whole.refineAll? [.ordered] = some _ := rfl
    have rearranged : [Value.int 2, .int 1, .int 2].Perm [.int 2, .int 2, .int 1] :=
      (List.Perm.swap _ _ _).cons _
    obtain ⟨otherQuery, found, otherFound, otherLegal, given, otherGiven, _, _, same⟩ :=
      @select_ordered_of_perm Value Value _ _ _ _ _ _ _ _ (.plain rfl) id rearranged legal
        (by simp) (by simp) (fun element _ => ⟨_, rfl⟩) (fun _ _ _ => rfl)
    have calculated := given.symm.trans (Query.elements?_of_natural rfl rfl)
    rw [@Comparator.mergeSorted_of_sort_natural Value _ _ _ [.int 1, .int 2, .int 2] rfl]
      at calculated
    obtain rfl := Option.some.inj calculated
    obtain rfl := same (by simp) (by simp +decide)
    exact ⟨_, _, legal, otherLegal, given, otherGiven⟩

end Chain

end StagedQuery
