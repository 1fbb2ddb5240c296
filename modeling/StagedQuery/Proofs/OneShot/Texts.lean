/-
This file proves that joined texts can be told apart again.

The loop that joins looks at the place of an element, never at what is joined already. So
an element without a text, even the first one, is parted from its neighbours like any
other, and whatever stands in front of a later element takes no part in what is appended
for it and behind it. Joining two lists then comes to joining each and putting the
delimiter between the two. If the delimiter is a character that no text has, it marks
exactly the borders, and splitting at it undoes the joining.
-/

import StagedQuery.OneShot

namespace StagedQuery.OneShot

variable {α : Type} {display : α → String} {delimiter : String}

/-! ### The loop -/

theorem intercalate_map_cons_cons (element next : α) (rest : List α) :
    delimiter.intercalate ((element :: next :: rest).map display) =
      display element ++ delimiter ++ delimiter.intercalate ((next :: rest).map display) :=
  String.intercalate_cons_cons

/-- Behind the first place, the delimiter comes before every element, and then what joining alone
gives. -/
theorem joinFrom_succ_cons (place : Nat) (joined : String) (element : α) (rest : List α) :
    joinFrom display delimiter (place + 1) joined (element :: rest) =
      joined ++ delimiter ++ delimiter.intercalate ((element :: rest).map display) := by
  induction rest generalizing place joined element with
  | nil =>
    rw [joinFrom, if_pos (Nat.succ_pos place), joinFrom, List.map_singleton,
      String.intercalate_singleton]
  | cons next rest inductionHypothesis =>
    rw [joinFrom, if_pos (Nat.succ_pos place), inductionHypothesis, intercalate_map_cons_cons]
    simp only [String.append_assoc]

theorem join_eq_intercalate (items : List α) :
    join display delimiter items = delimiter.intercalate (items.map display) := by
  match items with
  | [] => exact String.intercalate_nil.symm
  | [element] =>
    rw [List.map_singleton, String.intercalate_singleton]
    exact String.empty_append
  | element :: next :: rest =>
    rw [join, joinFrom, if_neg (Nat.lt_irrefl 0), joinFrom_succ_cons, String.empty_append,
      intercalate_map_cons_cons]

/-! ### Pieces -/

/-- The pieces of a text that a character parts from one another. -/
def pieces (separator : Char) (text : String) : List String :=
  (text.split separator).toList.map (·.copy)

/-- What is joined with a character falls into the texts, if there are any and none has the
character. -/
theorem pieces_join {separator : Char} {items : List α} (nonempty : items ≠ [])
    (absent : ∀ element ∈ items, separator ∉ (display element).toList) :
    pieces separator (join display (String.singleton separator) items) = items.map display := by
  rw [pieces, join_eq_intercalate, String.toList_split_intercalate, if_neg]
  · exact mt List.map_eq_nil_iff.mp nonempty
  · exact List.forall_mem_map.mpr absent

/-! ### Joined lists -/

/-- Joining puts the delimiter between every two neighbours and nowhere else. If the delimiter is a
character that no text has, the texts are the pieces of what is joined, so that lists with different
texts are joined to different texts. -/
theorem join_delimits (display : α → String) (delimiter : String) :
    join display delimiter [] = "" ∧
    (∀ element, join display delimiter [element] = display element) ∧
    (∀ first second, first ≠ [] → second ≠ [] → join display delimiter (first ++ second) =
      join display delimiter first ++ delimiter ++ join display delimiter second) ∧
    ∀ separator, delimiter = String.singleton separator →
      (∀ items, items ≠ [] → (∀ element ∈ items, separator ∉ (display element).toList) →
        pieces separator (join display delimiter items) = items.map display) ∧
      ∀ first second, first ≠ [] → second ≠ [] →
        (∀ element ∈ first ++ second, separator ∉ (display element).toList) →
          (join display delimiter first = join display delimiter second ↔
            first.map display = second.map display) := by
  refine ⟨rfl, fun element => String.empty_append, ?_, ?_⟩
  · intro first second firstNonempty secondNonempty
    rw [join_eq_intercalate, join_eq_intercalate, join_eq_intercalate, List.map_append,
      String.intercalate_append_of_ne_nil (mt List.map_eq_nil_iff.mp firstNonempty)
        (mt List.map_eq_nil_iff.mp secondNonempty)]
  · rintro separator rfl
    refine ⟨fun items => pieces_join, ?_⟩
    intro first second firstNonempty secondNonempty absent
    obtain ⟨firstAbsent, secondAbsent⟩ := List.forall_mem_append.mp absent
    constructor
    · intro same
      rw [← pieces_join firstNonempty firstAbsent, same, pieces_join secondNonempty secondAbsent]
    · intro same
      rw [join_eq_intercalate, join_eq_intercalate, same]

/-- The first two elements have no text, and the others show members of their own. -/
theorem join_delimits_of_nested_values :
    let items : List Value :=
      [.str "", .str "", .list [.tagged .null "a", .list [], .str "b"],
        .tagged (.list [.str ""]) "c"]
    join Value.display ";" (items ++ items) =
        join Value.display ";" items ++ ";" ++ join Value.display ";" items ∧
      pieces ';' (join Value.display ";" items) = ["", "", "[null#a, [], b]", "[]#c"] ∧
      join Value.display ";" items ≠ join Value.display ";" items.reverse := by
  intro items
  obtain ⟨_, _, append, splits⟩ := join_delimits Value.display ";"
  obtain ⟨recovers, join_eq_iff⟩ := splits ';' rfl
  have absent : ∀ element ∈ items ++ items.reverse, ';' ∉ element.display.toList := by decide
  refine ⟨append items items nofun nofun,
    recovers items nofun (List.forall_mem_append.mp absent).1, ?_⟩
  rw [ne_eq, join_eq_iff items items.reverse nofun (by decide) absent]
  decide

end StagedQuery.OneShot
