import Mathlib.Data.Int.ConditionallyCompleteOrder
import Mathlib.Data.List.Sort
import Mathlib.Tactic.Ring

namespace Foundation.Grid

/-- The points `start, start + step, …` before the stop. -/
def points (start stop step : Int) : List Int :=
  (List.range ((stop - start + step - 1) / step).toNat).map fun index : Nat => start + index * step

variable {start middle stop step time : Int}

/-- The points are the times of the range at whole steps from its start. -/
theorem mem_points_iff (positive : 0 < step) : time ∈ points start stop step ↔
    start ≤ time ∧ time < stop ∧ (time - start) % step = 0 := by
  rw [points, List.mem_map]
  constructor
  · rintro ⟨index, member, rfl⟩
    rw [List.mem_range] at member
    have below : (index : Int) + 1 ≤ (stop - start + step - 1) / step := by omega
    have product : ((index : Int) + 1) * step ≤ stop - start + step - 1 :=
      (Int.le_ediv_iff_mul_le positive).mp below
    have expanded : ((index : Int) + 1) * step = index * step + step := by ring
    have nonneg : 0 ≤ (index : Int) * step := Int.mul_nonneg (Int.natCast_nonneg _) positive.le
    refine ⟨by omega, by omega, ?_⟩
    rw [show start + (index : Int) * step - start = index * step by ring]
    exact Int.mul_emod_left _ _
  · rintro ⟨atLeast, below, aligned⟩
    obtain ⟨count, product⟩ := Int.dvd_of_emod_eq_zero aligned
    have nonneg : 0 ≤ count := by
      by_contra negative
      have := Int.mul_le_mul_of_nonneg_left (show count ≤ -1 by omega) positive.le
      omega
    refine ⟨count.toNat, ?_, ?_⟩
    · have lower : (count + 1) * step ≤ stop - start + step - 1 := by
        rw [show (count + 1) * step = step * count + step by ring]
        omega
      have bound := (Int.le_ediv_iff_mul_le positive).mpr lower
      rw [List.mem_range]
      omega
    · rw [Int.toNat_of_nonneg nonneg, show count * step = step * count by ring]
      omega

theorem points_sorted (positive : 0 < step) : (points start stop step).Pairwise (· < ·) := by
  rw [points, List.pairwise_map]
  apply List.pairwise_lt_range.imp
  intro left right before
  have scaled := Int.mul_lt_mul_of_pos_right (Int.ofNat_lt.mpr before) positive
  omega

/-- Two ascending lists of times are equal when they have the same members. -/
theorem eq_of_mem_iff {left right : List Int} (leftSorted : left.Pairwise (· < ·))
    (rightSorted : right.Pairwise (· < ·)) (same : ∀ time, time ∈ left ↔ time ∈ right) :
    left = right := by
  have perm : left.Perm right :=
    (List.perm_ext_iff_of_nodup (leftSorted.imp Int.ne_of_lt) (rightSorted.imp Int.ne_of_lt)).mpr same
  apply List.Perm.eq_of_pairwise _ leftSorted rightSorted perm
  intro left right _ _ before after
  omega

/-- A counter that stays or rises by one from each place to the next. -/
def UnitSteps (count : Int → Int) : Prop :=
  ∀ place, count (place + 1) = count place ∨ count (place + 1) = count place + 1

variable {count : Int → Int} {first last value : Int}

theorem UnitSteps.monotone (steps : UnitSteps count) (ordered : first ≤ last) : count first ≤ count last := by
  have rises : Monotone count := by
    apply monotone_int_of_le_succ
    intro place
    have step := steps place
    omega
  exact rises ordered

/-- Between two places, the counter takes all the values between theirs and no others. -/
theorem UnitSteps.between_iff (steps : UnitSteps count) (ordered : first ≤ last) :
    (∃ place, first ≤ place ∧ place ≤ last ∧ count place = value) ↔
      count first ≤ value ∧ value ≤ count last := by
  constructor
  · rintro ⟨place, after, before, rfl⟩
    exact ⟨steps.monotone after, steps.monotone before⟩
  · intro bounds
    induction last, ordered using Int.leInduction with
    | base => exact ⟨first, le_rfl, le_rfl, by omega⟩
    | succ last before ih =>
        by_cases reached : value ≤ count last
        · obtain ⟨place, after, inside, counted⟩ := ih ⟨bounds.1, reached⟩
          exact ⟨place, after, by omega, counted⟩
        · have step := steps last
          exact ⟨last + 1, by omega, le_rfl, by omega⟩

end Foundation.Grid
