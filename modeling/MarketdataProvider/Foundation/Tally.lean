import MarketdataProvider.Foundation.Accumulate
import Mathlib.Algebra.BigOperators.Group.List.Basic

namespace Foundation

namespace Keyed

variable {Key Value : Type} [DecidableEq Key] {key : Value → Key} {values : List Value} {item value : Value}

theorem upsert_cons_of_ne (other : key item ≠ key value) :
    upsert key (item :: values) value = item :: upsert key values value := by
  unfold upsert
  simp only [List.any_cons, decide_eq_false other, Bool.false_or, List.map_cons, if_neg other]
  split
  · rfl
  · rfl

theorem upsert_cons_self (same : key item = key value) (absent : ∀ other ∈ values, key other ≠ key value) :
    upsert key (item :: values) value = value :: values := by
  unfold upsert
  rw [List.any_cons, decide_eq_true same, Bool.true_or, if_pos rfl, List.map_cons, if_pos same]
  congr 1
  have kept : ∀ other ∈ values, (if key other = key value then value else other) = id other :=
    fun other member => if_neg (absent other member)
  rw [List.map_congr_left kept, List.map_id]

omit [DecidableEq Key] in
/-- Two ascending lists with the same members are equal. -/
theorem eq_of_mem_iff [LinearOrder Key] {others : List Value} (sorted : values.Pairwise (key · < key ·))
    (otherSorted : others.Pairwise (key · < key ·)) (same : ∀ value, value ∈ values ↔ value ∈ others) :
    values = others := by
  have perm : values.Perm others :=
    (List.perm_ext_iff_of_nodup (List.Nodup.of_map key (nodup_of_sorted sorted))
      (List.Nodup.of_map key (nodup_of_sorted otherSorted))).mpr same
  apply List.Perm.eq_of_pairwise _ sorted otherSorted perm
  intro left right _ _ before after
  exact absurd before (not_lt_of_gt after)

end Keyed

namespace Accumulate

variable {Key Value Total Error Measure : Type} [DecidableEq Key] [AddCommMonoid Measure]
  {keyOf : Value → Except Error (Option Key)} {add : Total → Value → Except Error Total}
  {initial : Total} {entries final : List (Key × Total)} {values : List Value}

/-- A value that is added to a key. -/
def keyed (keyOf : Value → Except Error (Option Key)) (value : Value) : Bool :=
  match keyOf value with
  | .ok (some _) => true
  | _ => false

omit [AddCommMonoid Measure] in
/-- Where no value fails, the run does not. -/
theorem run_ok (keys : ∀ value ∈ values, ∃ key, keyOf value = .ok key)
    (adds : ∀ total, ∀ value ∈ values, ∃ sum, add total value = .ok sum) :
    ∃ final, values.foldlM (step keyOf add initial) entries = .ok final := by
  induction values generalizing entries with
  | nil => exact ⟨entries, rfl⟩
  | cons value values ih =>
      obtain ⟨own, others⟩ := List.forall_mem_cons.mp keys
      obtain ⟨key, known⟩ := own
      rw [List.foldlM_cons, step, known, ok_bind]
      have rest (next : List (Key × Total)) : ∃ final, values.foldlM (step keyOf add initial) next = .ok final :=
        ih others fun total other member => adds total other (List.mem_cons_of_mem _ member)
      cases key with
      | none => exact rest entries
      | some target =>
          obtain ⟨sum, added⟩ := adds (totalOf initial entries target) value List.mem_cons_self
          dsimp only
          rw [added, ok_bind]
          exact rest _

omit [DecidableEq Key] in
/-- The values that pass a test weigh as much as all of them where the others weigh nothing. -/
theorem sum_filter (test : Value → Bool) (weight : Value → Measure) :
    ((values.filter test).map weight).sum =
      (values.map fun value => if test value then weight value else 0).sum := by
  induction values with
  | nil => rfl
  | cons value values ih =>
      rw [List.map_cons, List.sum_cons, ← ih]
      by_cases passes : test value = true
      · rw [List.filter_cons_of_pos passes, if_pos passes, List.map_cons, List.sum_cons]
      · rw [List.filter_cons_of_neg passes, if_neg passes, zero_add]

variable {measure : Total → Measure}

/-- A total that gains something adds it to the sum over the keys. -/
theorem sum_upsert {gain : Measure} {target : Key} {total : Total} (blank : measure initial = 0)
    (distinct : (entries.map Prod.fst).Nodup)
    (gained : measure total = measure (totalOf initial entries target) + gain) :
    ((Keyed.upsert Prod.fst entries (target, total)).map fun entry => measure entry.2).sum =
      (entries.map fun entry => measure entry.2).sum + gain := by
  induction entries with
  | nil =>
      change measure total = measure initial + gain at gained
      change measure total + 0 = 0 + gain
      rw [gained, blank, add_zero]
  | cons entry entries ih =>
      rw [List.map_cons, List.nodup_cons] at distinct
      by_cases own : entry.1 = target
      · have absent : ∀ other ∈ entries, other.1 ≠ target := by
          intro other member same
          apply distinct.1
          rw [own, ← same]
          exact List.mem_map_of_mem member
        have before : totalOf initial (entry :: entries) target = entry.2 := by
          simp [totalOf, Keyed.find, own]
        rw [before] at gained
        rw [Keyed.upsert_cons_self own absent, List.map_cons, List.map_cons, List.sum_cons, List.sum_cons,
          gained, add_right_comm]
      · have before : totalOf initial (entry :: entries) target = totalOf initial entries target := by
          simp [totalOf, Keyed.find, own]
        rw [before] at gained
        rw [Keyed.upsert_cons_of_ne own, List.map_cons, List.map_cons, List.sum_cons, List.sum_cons,
          ih distinct.2 gained, add_assoc]

/-- The sum over the keys is that over the values that have one. -/
theorem sum_run {weight : Value → Measure} (blank : measure initial = 0)
    (adds : ∀ total value sum, add total value = .ok sum → measure sum = measure total + weight value)
    (distinct : (entries.map Prod.fst).Nodup)
    (folded : values.foldlM (step keyOf add initial) entries = .ok final) :
    (final.map fun entry => measure entry.2).sum =
      (entries.map fun entry => measure entry.2).sum + ((values.filter (keyed keyOf)).map weight).sum := by
  induction values generalizing entries with
  | nil =>
      cases folded
      simp
  | cons value values ih =>
      rw [List.foldlM_cons, bind_eq_ok] at folded
      obtain ⟨middle, stepped, rest⟩ := folded
      rw [step, bind_eq_ok] at stepped
      obtain ⟨key, known, stepped⟩ := stepped
      cases key with
      | none =>
          cases stepped
          rw [ih distinct rest, List.filter_cons_of_neg (by simp [keyed, known])]
      | some target =>
          obtain ⟨total, added, made⟩ := bind_eq_ok.mp stepped
          obtain rfl := pure_eq_ok.mp made
          rw [ih (Keyed.nodup_upsert distinct) rest, sum_upsert blank distinct (adds _ _ _ added),
            List.filter_cons_of_pos (by simp [keyed, known]), List.map_cons, List.sum_cons, add_assoc]

end Accumulate

end Foundation
