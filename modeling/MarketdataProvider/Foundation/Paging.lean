import Mathlib.Data.List.Sort
import Mathlib.Order.Basic

namespace Foundation.Paging

variable {Item Key : Type} [LinearOrder Key] (key : Item → Key) (size : Nat)

/-- A reader that takes a page and goes on behind the key of its last item while pages are full. -/
def collect : Nat → List Item → List Item
  | 0, _ => []
  | fuel + 1, items =>
      match (items.take size).getLast? with
      | none => []
      | some last =>
          if (items.take size).length < size then items.take size
          else items.take size ++ collect fuel (items.filter fun item => key last < key item)

/-- No page ends between two items of one key. -/
def CutsClean (items : List Item) : Prop :=
  ∀ page, ∀ inside : size * (page + 1) < items.length,
    key (items.get ⟨size * (page + 1) - 1, by omega⟩) ≠ key items[size * (page + 1)]

variable {key size} {items : List Item}

omit [LinearOrder Key] in
theorem cutsClean_of_short (short : items.length ≤ size) : CutsClean key size items := by
  intro page inside
  have : size ≤ size * (page + 1) := Nat.le_mul_of_pos_right _ (Nat.succ_pos _)
  omega

omit [LinearOrder Key] in
/-- The cuts are the first one and those of the items behind the first page. -/
theorem cutsClean_iff (positive : 0 < size) : CutsClean key size items ↔
    (∀ inside : size < items.length, key (items.get ⟨size - 1, by omega⟩) ≠ key items[size]) ∧
      CutsClean key size (items.drop size) := by
  have next (page : Nat) : size * (page + 1 + 1) = size + size * (page + 1) := by
    rw [Nat.mul_succ size (page + 1), Nat.add_comm]
  have before (page : Nat) : size + size * (page + 1) - 1 = size + (size * (page + 1) - 1) := by
    have nonempty : 0 < size * (page + 1) := Nat.mul_pos positive (Nat.succ_pos _)
    omega
  constructor
  · intro clean
    constructor
    · intro inside
      have cut := clean 0 (by omega)
      simpa using cut
    · intro page inside
      rw [List.length_drop] at inside
      have cut := clean (page + 1) (by rw [next]; omega)
      simp only [List.get_eq_getElem, next, before] at cut
      simpa only [List.get_eq_getElem, List.getElem_drop] using cut
  · rintro ⟨first, clean⟩ page inside
    cases page with
    | zero =>
        have cut := first (by omega)
        simpa using cut
    | succ page =>
        have cut := clean page (by rw [next] at inside; rw [List.length_drop]; omega)
        simp only [List.get_eq_getElem, List.getElem_drop] at cut
        simpa only [List.get_eq_getElem, next, before] using cut

/-- Behind the last key of the first page there are only items of the later pages. -/
theorem filter_behind (sorted : items.Pairwise (key · ≤ key ·)) {last : Item}
    (ends : (items.take size).getLast? = some last) :
    (items.filter fun item => key last < key item) =
      (items.drop size).filter fun item => key last < key item := by
  obtain ⟨front, page⟩ := List.getLast?_eq_some_iff.mp ends
  have pageSorted : (front ++ [last]).Pairwise (key · ≤ key ·) :=
    page ▸ sorted.sublist (List.take_sublist size items)
  have none : (items.take size).filter (fun item => decide (key last < key item)) = [] := by
    rw [List.filter_eq_nil_iff]
    intro item member
    rw [page, List.mem_append, List.mem_singleton] at member
    rw [decide_eq_true_eq, not_lt]
    rcases member with before | rfl
    · exact (List.pairwise_append.mp pageSorted).2.2 item before last (List.mem_singleton_self _)
    · exact le_refl _
  conv_lhs => rw [← List.take_append_drop size items]
  rw [List.filter_append, none, List.nil_append]

variable (size) in
/-- The reader sees some of the items, each at most once and in order. -/
theorem collect_sublist (sorted : items.Pairwise (key · ≤ key ·)) (fuel : Nat) :
    (collect key size fuel items).Sublist items := by
  induction fuel generalizing items with
  | zero => exact List.nil_sublist _
  | succ fuel ih =>
      unfold collect
      split
      · exact List.nil_sublist _
      · rename_i last ends
        split
        · exact List.take_sublist _ _
        · rw [filter_behind sorted ends]
          have rest : ((items.drop size).filter fun item => decide (key last < key item)).Pairwise
              (key · ≤ key ·) :=
            sorted.sublist (List.filter_sublist.trans (List.drop_sublist _ _))
          have part := (ih rest).trans List.filter_sublist
          have whole := (List.Sublist.refl (items.take size)).append part
          rwa [List.take_append_drop] at whole

/-- The items behind a full page are all read on when its cut is clean, and not all of them else. -/
theorem filter_behind_eq_iff (sorted : items.Pairwise (key · ≤ key ·)) (positive : 0 < size)
    {last : Item} (ends : (items.take size).getLast? = some last)
    (full : ¬ (items.take size).length < size) :
    ((items.drop size).filter fun item => key last < key item) = items.drop size ↔
      ∀ inside : size < items.length, key (items.get ⟨size - 1, by omega⟩) ≠ key items[size] := by
  rw [List.length_take] at full
  have enough : size ≤ items.length := by omega
  obtain rfl : items[size - 1] = last := by
    rw [List.getLast?_eq_getElem?, List.length_take, Nat.min_eq_left enough,
      List.getElem?_take_of_lt (by omega), List.getElem?_eq_getElem (by omega)] at ends
    exact Option.some.inj ends
  rw [List.filter_eq_self]
  constructor
  · intro all inside
    have behind := all items[size] (by
      rw [List.drop_eq_getElem_cons inside]
      exact List.mem_cons_self)
    rw [decide_eq_true_eq] at behind
    exact behind.ne
  · intro different item member
    obtain ⟨index, inside, rfl⟩ := List.mem_iff_getElem.mp member
    rw [List.length_drop] at inside
    rw [List.getElem_drop, decide_eq_true_eq]
    have ordered (left right : Nat) (before : left < right) (bound : right < items.length) :
        key (items.get ⟨left, by omega⟩) ≤ key items[right] :=
      List.pairwise_iff_getElem.mp sorted left right (by omega) bound before
    have first : key items[size - 1] < key items[size] :=
      lt_of_le_of_ne (ordered _ _ (by omega) (by omega)) (different (by omega))
    by_cases start : index = 0
    · simpa [start] using first
    · exact first.trans_le (ordered _ _ (by omega) (by omega))

/-- A reader of ordered items sees all of them exactly when no page cuts through a key. -/
theorem collect_eq_self_iff (sorted : items.Pairwise (key · ≤ key ·)) (positive : 0 < size)
    {fuel : Nat} (enough : items.length < fuel) :
    collect key size fuel items = items ↔ CutsClean key size items := by
  induction fuel generalizing items with
  | zero => omega
  | succ fuel ih =>
      unfold collect
      split
      · rename_i ends
        have empty : items = [] := by
          rw [List.getLast?_eq_none_iff, List.take_eq_nil_iff] at ends
          exact ends.resolve_left positive.ne'
        subst empty
        exact iff_of_true rfl (cutsClean_of_short (Nat.zero_le _))
      · rename_i last ends
        split
        · rename_i short
          rw [List.length_take] at short
          have few : items.length ≤ size := by omega
          exact iff_of_true (List.take_of_length_le few) (cutsClean_of_short few)
        · rename_i full
          have rest : (items.drop size).Pairwise (key · ≤ key ·) := sorted.sublist (List.drop_sublist _ _)
          have shorter : (items.drop size).length < fuel := by
            rw [List.length_take] at full
            rw [List.length_drop]
            omega
          rw [filter_behind sorted ends, cutsClean_iff positive,
            ← filter_behind_eq_iff sorted positive ends full, ← ih rest shorter]
          constructor
          · intro whole
            have tail : collect key size fuel
                ((items.drop size).filter fun item => decide (key last < key item)) = items.drop size := by
              conv_rhs at whole => rw [← List.take_append_drop size items]
              exact List.append_cancel_left whole
            have all : ((items.drop size).filter fun item => decide (key last < key item)) =
                items.drop size := by
              apply List.filter_sublist.antisymm
              have part := collect_sublist size
                (rest.sublist (List.filter_sublist (p := fun item => decide (key last < key item)))) fuel
              rwa [tail] at part
            rw [all] at tail
            exact ⟨all, tail⟩
          · rintro ⟨all, tail⟩
            rw [all, tail, List.take_append_drop]

end Foundation.Paging
