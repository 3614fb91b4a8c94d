import Mathlib.Data.List.Sort
import Mathlib.Order.Basic

namespace Foundation

section Reduce

variable {Value : Type}

/-- The values joined from the left; there is nothing to join in an empty list. -/
def reduce (join : Value → Value → Value) : List Value → Option Value
  | [] => none
  | first :: rest => some (rest.foldl join first)

variable {join : Value → Value → Value} [Std.Associative join] {front back values : List Value}

theorem reduce_append :
    reduce join (front ++ back) = Option.merge join (reduce join front) (reduce join back) := by
  cases front with
  | nil => simp [reduce]
  | cons first rest =>
      cases back with
      | nil => simp [reduce]
      | cons next others =>
          change some ((rest ++ next :: others).foldl join first) =
            some (join (rest.foldl join first) (others.foldl join next))
          rw [List.foldl_append, List.foldl_cons, List.foldl_assoc]

/-- Joining what is joined of each part is joining it all. -/
theorem reduce_flatten {parts : List (List Value)}
    (joined : List.Forall₂ (fun value part => reduce join part = some value) values parts) :
    reduce join values = reduce join parts.flatten := by
  induction joined with
  | nil => rfl
  | @cons value part values parts own rest ih =>
      have split : reduce join (value :: values) =
          Option.merge join (reduce join [value]) (reduce join values) :=
        @reduce_append _ join _ [value] values
      rw [split, List.flatten_cons, reduce_append, own, ih]
      rfl

end Reduce

section Preferring

variable {Value Group : Type} (test : Value → Bool)

/-- The values that pass a test, or all of them when none does. -/
def preferring (values : List Value) : List Value :=
  if (values.filter test).isEmpty then values else values.filter test

variable {test} {members : Group → List Value} {groups : List Group}

theorem preferring_reverse {values : List Value} :
    preferring test values.reverse = (preferring test values).reverse := by
  rw [preferring, preferring, List.filter_reverse, List.isEmpty_reverse]
  split <;> rfl

theorem head?_flatMap_filter : (groups.flatMap fun group => (members group).filter test).head? =
    (groups.filter fun group => (members group).any test).head?.bind
      fun group => ((members group).filter test).head? := by
  induction groups with
  | nil => rfl
  | cons group groups ih =>
      rw [List.flatMap_cons, List.head?_append, ih, List.filter_cons]
      by_cases hit : (members group).any test = true
      · obtain ⟨value, member, passes⟩ := List.any_eq_true.mp hit
        obtain ⟨first, rest, same⟩ := List.exists_cons_of_ne_nil
          (List.ne_nil_of_mem (List.mem_filter.mpr ⟨member, passes⟩))
        rw [if_pos hit, List.head?_cons, Option.bind_some, same]
        rfl
      · have nothing : (members group).filter test = [] := by
          rw [List.filter_eq_nil_iff]
          intro value member passes
          exact hit (List.any_eq_true.mpr ⟨value, member, passes⟩)
        rw [if_neg hit, nothing]
        rfl

/-- The first preferred value comes from the first preferred group. -/
theorem head?_preferring_flatMap (filled : ∀ group ∈ groups, members group ≠ []) :
    (preferring test (groups.flatMap members)).head? =
      (preferring (fun group => (members group).any test) groups).head?.bind
        fun group => (preferring test (members group)).head? := by
  have hits (group : Group) : (members group).any test = true ↔ (members group).filter test ≠ [] := by
    simp [List.filter_eq_nil_iff]
  have split : (groups.flatMap members).filter test =
      groups.flatMap fun group => (members group).filter test := List.filter_flatMap
  by_cases none_hit : ∀ group ∈ groups, (members group).filter test = []
  · have values : (groups.flatMap members).filter test = [] := by
      rw [split, List.flatMap_eq_nil_iff]
      exact none_hit
    have all : groups.filter (fun group => (members group).any test) = [] := by
      rw [List.filter_eq_nil_iff]
      intro group member
      rw [hits, not_not]
      exact none_hit group member
    rw [preferring, preferring, values, all, List.isEmpty_nil, if_pos rfl, List.isEmpty_nil, if_pos rfl]
    cases groups with
    | nil => rfl
    | cons group groups =>
        obtain ⟨first, rest, same⟩ := List.exists_cons_of_ne_nil (filled group List.mem_cons_self)
        rw [List.head?_cons, Option.bind_some, preferring, none_hit group List.mem_cons_self,
          List.isEmpty_nil, if_pos rfl, List.flatMap_cons, List.head?_append, same]
        rfl
  · simp only [not_forall] at none_hit
    obtain ⟨hit, member, passes⟩ := none_hit
    have some_value : (groups.flatMap members).filter test ≠ [] := by
      rw [split, Ne, List.flatMap_eq_nil_iff]
      exact fun nothing => passes (nothing hit member)
    have some_group : groups.filter (fun group => (members group).any test) ≠ [] :=
      List.ne_nil_of_mem (List.mem_filter.mpr ⟨member, (hits hit).mpr passes⟩)
    rw [preferring, if_neg (by simpa using some_value), split, head?_flatMap_filter, preferring,
      if_neg (by simpa using some_group)]
    cases found : groups.filter fun group => (members group).any test with
    | nil => rfl
    | cons group others =>
        have first : group ∈ groups.filter fun group => (members group).any test := by
          rw [found]
          exact List.mem_cons_self
        have own : (members group).any test = true := (List.mem_filter.mp first).2
        rw [List.head?_cons, Option.bind_some, Option.bind_some, preferring,
          if_neg (by simpa using (hits group).mp own)]

/-- The last preferred value comes from the last preferred group. -/
theorem getLast?_preferring_flatMap (filled : ∀ group ∈ groups, members group ≠ []) :
    (preferring test (groups.flatMap members)).getLast? =
      (preferring (fun group => (members group).any test) groups).getLast?.bind
        fun group => (preferring test (members group)).getLast? := by
  have reversed := @head?_preferring_flatMap _ _ test (fun group => (members group).reverse) groups.reverse (by
      intro group member
      rw [Ne, List.reverse_eq_nil_iff]
      exact filled group (List.mem_reverse.mp member))
  have whole : (groups.reverse.flatMap fun group => (members group).reverse) =
      (groups.flatMap members).reverse := by
    rw [List.reverse_flatMap]
    rfl
  simp only [whole, preferring_reverse, List.any_reverse, List.head?_reverse] at reversed
  exact reversed

end Preferring

section Grouped

variable {Value Group Key : Type} [LinearOrder Key] (key : Value → Key) (label : Group → Key)
  (members : Group → List Value)

/-- Values cut into groups, one for each key in ascending order. -/
structure Grouped (values : List Value) (groups : List Group) : Prop where
  whole : groups.flatMap members = values
  keyed : ∀ group ∈ groups, ∀ value ∈ members group, key value = label group
  filled : ∀ group ∈ groups, members group ≠ []
  ascending : groups.Pairwise (label · < label ·)

variable {key label members} {values : List Value} {groups : List Group}

/-- There is a group for each key of a value. -/
theorem Grouped.label_iff (grouped : Grouped key label members values groups) {target : Key} :
    (∃ group ∈ groups, label group = target) ↔ ∃ value ∈ values, key value = target := by
  rw [← grouped.whole]
  constructor
  · rintro ⟨group, member, rfl⟩
    obtain ⟨value, inside⟩ := List.exists_mem_of_ne_nil _ (grouped.filled group member)
    exact ⟨value, List.mem_flatMap.mpr ⟨group, member, inside⟩, grouped.keyed group member value inside⟩
  · rintro ⟨value, member, rfl⟩
    obtain ⟨group, known, inside⟩ := List.mem_flatMap.mp member
    exact ⟨group, known, (grouped.keyed group known value inside).symm⟩

/-- The values with a property of the key are those of the groups with it. -/
theorem Grouped.filter_eq (grouped : Grouped key label members values groups) (test : Key → Bool) :
    values.filter (fun value => test (key value)) =
      (groups.filter fun group => test (label group)).flatMap members := by
  have parts : groups.flatMap (fun group => (members group).filter fun value => test (key value)) =
      (groups.filter fun group => test (label group)).flatMap members := by
    have keyed := grouped.keyed
    clear grouped
    induction groups with
    | nil => rfl
    | cons group groups ih =>
        rw [List.flatMap_cons, ih fun other member => keyed other (List.mem_cons_of_mem _ member),
          List.filter_cons]
        have same : (members group).filter (fun value => test (key value)) =
            (members group).filter fun _ => test (label group) := by
          apply List.filter_congr
          intro value member
          rw [keyed group List.mem_cons_self value member]
        rw [same]
        cases test (label group) with
        | false => simp
        | true => simp
  rw [← parts, ← List.filter_flatMap, grouped.whole]

/-- A group has the values of its key. -/
theorem Grouped.members_eq (grouped : Grouped key label members values groups) {group : Group}
    (member : group ∈ groups) : values.filter (fun value => key value = label group) = members group := by
  rw [grouped.filter_eq fun other => other = label group]
  have alone : groups.filter (fun other => decide (label other = label group)) = [group] := by
    obtain ⟨front, back, rfl⟩ := List.append_of_mem member
    have order := List.pairwise_append.mp grouped.ascending
    rw [List.filter_append, List.filter_cons, decide_eq_true rfl, if_pos rfl]
    have before : front.filter (fun other => decide (label other = label group)) = [] := by
      rw [List.filter_eq_nil_iff]
      intro other inside
      simpa using (order.2.2 other inside group List.mem_cons_self).ne
    have after : back.filter (fun other => decide (label other = label group)) = [] := by
      rw [List.filter_eq_nil_iff]
      intro other inside
      simpa using (List.rel_of_pairwise_cons order.2.1 inside).ne'
    rw [before, after]
    rfl
  rw [alone, List.flatMap_singleton]

/-- Two ascending lists with the same labels have them in the same places. -/
theorem map_label_eq {Other : Type} {others : List Other} {otherLabel : Other → Key}
    (ascending : groups.Pairwise (label · < label ·))
    (otherAscending : others.Pairwise (otherLabel · < otherLabel ·))
    (same : ∀ target, (∃ group ∈ groups, label group = target) ↔
      ∃ other ∈ others, otherLabel other = target) : groups.map label = others.map otherLabel := by
  have left := List.pairwise_map.mpr ascending
  have right := List.pairwise_map.mpr otherAscending
  have perm : (groups.map label).Perm (others.map otherLabel) := by
    rw [List.perm_ext_iff_of_nodup (left.imp ne_of_lt) (right.imp ne_of_lt)]
    intro target
    simp only [List.mem_map]
    exact same target
  apply List.Perm.eq_of_pairwise _ left right perm
  intro first second _ _ before after
  exact absurd before (not_lt_of_gt after)

omit [LinearOrder Key] in
/-- What items with the same label have in common is in the same places. -/
theorem map_eq_of_labels {Other Result : Type} {others : List Other} {otherLabel : Other → Key}
    {result : Group → Result} {otherResult : Other → Result}
    (labels : groups.map label = others.map otherLabel)
    (same : ∀ group ∈ groups, ∀ other ∈ others, label group = otherLabel other →
      result group = otherResult other) : groups.map result = others.map otherResult := by
  induction groups generalizing others with
  | nil =>
      cases others with
      | nil => rfl
      | cons other others => cases labels
  | cons group groups ih =>
      cases others with
      | nil => cases labels
      | cons other others =>
          rw [List.map_cons, List.map_cons, List.cons.injEq] at labels
          rw [List.map_cons, List.map_cons, same group List.mem_cons_self other List.mem_cons_self labels.1]
          congr 1
          apply ih labels.2
          intro next member item inside
          exact same next (List.mem_cons_of_mem _ member) item (List.mem_cons_of_mem _ inside)

end Grouped

end Foundation
