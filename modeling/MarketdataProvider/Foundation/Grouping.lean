import MarketdataProvider.Foundation.Keyed
import Mathlib.Data.List.Induction

namespace Foundation.Grouping

section Groups

variable {Key Value : Type} [DecidableEq Key] (key : Value → Key)

/-- `groups.setdefault(key(value), []).append(value)` -/
def append (groups : List (Key × List Value)) (value : Value) : List (Key × List Value) :=
  Keyed.upsert Prod.fst groups
    (key value, ((Keyed.find Prod.fst groups (key value)).elim [] Prod.snd) ++ [value])

/-- The values of each key in their order, the keys in the order of their first values. -/
def groupBy (values : List Value) : List (Key × List Value) := values.foldl (append key) []

variable {key} {values : List Value} {target : Key} {rows : List Value}

theorem groupBy_concat (value : Value) :
    groupBy key (values ++ [value]) = append key (groupBy key values) value := by
  rw [groupBy, List.foldl_append]
  rfl

theorem nodup_groupBy : ((groupBy key values).map Prod.fst).Nodup := by
  induction values using List.reverseRecOn with
  | nil => exact List.nodup_nil
  | append_singleton values value ih =>
      rw [groupBy_concat]
      exact Keyed.nodup_upsert ih

/-- The group of a key has exactly its values. -/
theorem find_groupBy : Keyed.find Prod.fst (groupBy key values) target =
    if values.filter (key · = target) = [] then none
    else some (target, values.filter (key · = target)) := by
  induction values using List.reverseRecOn with
  | nil => rfl
  | append_singleton values value ih =>
      rw [groupBy_concat, append, Keyed.find_upsert, List.filter_append]
      split
      · rename_i own
        subst own
        rw [ih]
        split
        · rename_i none
          simp [none]
        · simp
      · rename_i other
        have single : [value].filter (key · = target) = [] := by simp [Ne.symm other]
        rw [single, List.append_nil, ih]

theorem mem_groupBy :
    (target, rows) ∈ groupBy key values ↔ rows = values.filter (key · = target) ∧ rows ≠ [] := by
  have found : Keyed.find Prod.fst (groupBy key values) target = some (target, rows) ↔ _ :=
    Keyed.find_eq_some_iff nodup_groupBy
  rw [find_groupBy] at found
  constructor
  · intro member
    have group := found.mpr ⟨member, rfl⟩
    split at group
    · cases group
    · rename_i nonempty
      cases group
      exact ⟨rfl, nonempty⟩
  · rintro ⟨rfl, nonempty⟩
    rw [if_neg nonempty] at found
    exact (found.mp rfl).1

/-- Values of a new key form a group of their own at the end. -/
theorem groupBy_append (fresh : ∀ value ∈ values, key value ≠ target)
    (own : ∀ value ∈ rows, key value = target) (nonempty : rows ≠ []) :
    groupBy key (values ++ rows) = groupBy key values ++ [(target, rows)] := by
  have absent : Keyed.find Prod.fst (groupBy key values) target = none := by
    rw [find_groupBy, if_pos]
    rw [List.filter_eq_nil_iff]
    intro value member
    simpa using fresh value member
  have others : ∀ group ∈ groupBy key values, group.1 ≠ target := Keyed.find_eq_none_iff.mp absent
  induction rows using List.reverseRecOn with
  | nil => exact absurd rfl nonempty
  | append_singleton rows value ih =>
      obtain rfl : key value = target := own value (List.mem_append_right _ List.mem_cons_self)
      rw [← List.append_assoc, groupBy_concat]
      by_cases first : rows = []
      · subst first
        have none : (groupBy key values).any (fun group => decide (group.1 = key value)) = false := by
          rw [List.any_eq_false]
          intro group member
          simpa using others group member
        simp [append, absent, Keyed.upsert, none]
      · rw [ih (fun other member => own other (List.mem_append_left _ member)) first, append,
          Keyed.find_append, absent]
        have kept : (groupBy key values).map (fun group =>
            if group.1 = key value then (key value, rows ++ [value]) else group) = groupBy key values := by
          conv_rhs => rw [← List.map_id (groupBy key values)]
          apply List.map_congr_left
          intro group member
          rw [if_neg (others group member), id]
        simp [Keyed.find, Keyed.upsert, kept]

/-- Values that come group by group are grouped as they come. -/
theorem groupBy_flatMap {groups : List (Key × List Value)} (distinct : (groups.map Prod.fst).Nodup)
    (nonempty : ∀ group ∈ groups, group.2 ≠ []) (own : ∀ group ∈ groups, ∀ value ∈ group.2, key value = group.1) :
    groupBy key (groups.flatMap Prod.snd) = groups := by
  induction groups using List.reverseRecOn with
  | nil => rfl
  | append_singleton groups group ih =>
      rw [List.map_append, List.nodup_append] at distinct
      obtain ⟨before, -, apart⟩ := distinct
      have front := ih before (fun other member => nonempty other (List.mem_append_left _ member))
        fun other member => own other (List.mem_append_left _ member)
      have last : group ∈ groups ++ [group] := List.mem_append_right _ List.mem_cons_self
      rw [List.flatMap_append, List.flatMap_singleton,
        groupBy_append _ (own group last) (nonempty group last), front]
      intro value member
      obtain ⟨other, inside, row⟩ := List.mem_flatMap.mp member
      rw [own other (List.mem_append_left _ inside) value row]
      exact apart other.1 (List.mem_map_of_mem inside) group.1 (List.mem_map_of_mem List.mem_cons_self)

/-- Values of one key keep their order when they are grouped. -/
theorem filter_groupBy {keep : Value → Bool}
    (alike : ∀ value ∈ values, keep value = true → key value = target) :
    (groupBy key values).flatMap (fun group => group.2.filter keep) = values.filter keep := by
  have others : ∀ group ∈ groupBy key values, group.1 ≠ target → group.2.filter keep = [] := by
    rintro ⟨name, rows⟩ member different
    obtain ⟨rfl, -⟩ := mem_groupBy.mp member
    rw [List.filter_eq_nil_iff]
    intro value inside kept
    obtain ⟨known, own⟩ := List.mem_filter.mp inside
    rw [decide_eq_true_eq, alike value known kept] at own
    exact different own.symm
  rw [Keyed.flatMap_eq_find nodup_groupBy others, find_groupBy]
  have within : (values.filter (key · = target)).filter keep = values.filter keep := by
    rw [List.filter_filter]
    apply List.filter_congr
    intro value member
    by_cases kept : keep value = true
    · simp [kept, alike value member kept]
    · simp [kept]
  split
  · rename_i none
    rw [← within, none]
    rfl
  · exact within

end Groups

end Foundation.Grouping
