import Mathlib.Data.List.Forall2
import Mathlib.Data.List.Sort
import Mathlib.Data.List.SplitBy
import Mathlib.Order.Defs.LinearOrder

namespace Foundation

namespace Runs

variable {Item Other Key : Type} {alike : Item → Item → Bool} {item next : Item} {front back rest group : List Item}
  {groups : List (List Item)}

/-- An item joins the first run, or it is a run of its own. -/
def attach (joins : Bool) (item : Item) : List (List Item) → List (List Item)
  | [] => [[item]]
  | group :: groups => if joins then (item :: group) :: groups else [item] :: group :: groups

theorem splitBy_cons_head (alike : Item → Item → Bool) (item : Item) (rest : List Item) : ∃ group groups, (item :: rest).splitBy alike = (item :: group) :: groups := by
  cases whole : (item :: rest).splitBy alike with
  | nil => exact absurd (List.splitBy_eq_nil.mp whole) (List.cons_ne_nil _ _)
  | cons first groups =>
      rw [List.splitBy_eq_iff] at whole
      obtain ⟨flat, nonempty, _⟩ := whole
      cases first with
      | nil => simp at nonempty
      | cons head group =>
          obtain rfl := (List.cons.inj flat).1
          exact ⟨group, groups, rfl⟩

theorem splitBy_cons : (item :: next :: rest).splitBy alike =
    attach (alike item next) item ((next :: rest).splitBy alike) := by
  obtain ⟨group, groups, split⟩ := splitBy_cons_head alike next rest
  rw [split, attach]
  cases same : alike item next with
  | false =>
      rw [if_neg (by decide), ← split]
      exact List.splitBy_append_cons (l := [item]) rest (by simpa using same)
  | true =>
      rw [if_pos rfl]
      rw [List.splitBy_eq_iff] at split ⊢
      obtain ⟨whole, nonempty, chains, breaks⟩ := split
      refine ⟨by rw [whole]; rfl, by simpa using nonempty, ?_, ?_⟩
      · rw [List.forall_mem_cons] at chains ⊢
        exact ⟨List.isChain_cons_cons.mpr ⟨same, chains.1⟩, chains.2⟩
      · cases groups with
        | nil => exact List.isChain_singleton _
        | cons second others =>
            rw [List.isChain_cons_cons] at breaks ⊢
            obtain ⟨⟨_, filled, differs⟩, later⟩ := breaks
            exact ⟨⟨List.cons_ne_nil _ _, filled, by simpa using differs⟩, later⟩

/-- Mapping the items maps the runs when it keeps which items are alike. -/
theorem splitBy_map {change : Item → Other} {likewise : Other → Other → Bool} {items : List Item}
    (same : ∀ left right, likewise (change left) (change right) = alike left right) :
    (items.map change).splitBy likewise = (items.splitBy alike).map (List.map change) := by
  induction items with
  | nil => rfl
  | cons item rest ih =>
      cases rest with
      | nil => rfl
      | cons next rest =>
          rw [List.map_cons, List.map_cons, splitBy_cons, splitBy_cons, ← List.map_cons, ih, same]
          cases (next :: rest).splitBy alike with
          | nil => rfl
          | cons group groups =>
              simp only [attach, List.map_cons]
              split_ifs <;> rfl

/-- A second copy of an item right behind it stays in the run of the item. -/
theorem splitBy_copy (same : alike item item = true) (front back : List Item) : ∃ before left right after,
    (front ++ item :: back).splitBy alike = before ++ (left ++ item :: right) :: after ∧
      (front ++ item :: item :: back).splitBy alike = before ++ (left ++ item :: item :: right) :: after := by
  induction front with
  | nil =>
      obtain ⟨group, groups, split⟩ := splitBy_cons_head alike item back
      refine ⟨[], [], group, groups, split, ?_⟩
      rw [List.nil_append, splitBy_cons, split, same]
      rfl
  | cons first front ih =>
      obtain ⟨before, left, right, after, once, twice⟩ := ih
      have shape : ∃ next rest copied, front ++ item :: back = next :: rest ∧
          front ++ item :: item :: back = next :: copied := by
        cases front with
        | nil => exact ⟨item, back, item :: back, rfl, rfl⟩
        | cons next front => exact ⟨next, _, _, rfl, rfl⟩
      obtain ⟨next, rest, copied, plain, double⟩ := shape
      rw [List.cons_append, List.cons_append, plain, double, splitBy_cons, splitBy_cons, ← plain, ← double, once,
        twice]
      cases joins : alike first next with
      | false =>
          refine ⟨[first] :: before, left, right, after, ?_, ?_⟩
          · cases before <;> rfl
          · cases before <;> rfl
      | true =>
          cases before with
          | nil => exact ⟨[], first :: left, right, after, rfl, rfl⟩
          | cons group before => exact ⟨(first :: group) :: before, left, right, after, rfl, rfl⟩

section Sorted

variable [LinearOrder Key] {key : Item → Key} {items others : List Item}

/-- The runs of equal keys of sorted items have ascending keys. -/
theorem splitBy_ascending (runs : ∀ left right, alike left right = true ↔ key left = key right)
    (sorted : items.Pairwise fun left right => key left ≤ key right) :
    (items.splitBy alike).Pairwise fun left right => ∀ first ∈ left, ∀ second ∈ right, key first < key second := by
  induction items with
  | nil => exact .nil
  | cons item rest ih =>
      cases rest with
      | nil => exact List.pairwise_singleton ..
      | cons next rest =>
          obtain ⟨least, tail⟩ := List.pairwise_cons.mp sorted
          have ascending := ih tail
          obtain ⟨group, groups, split⟩ := splitBy_cons_head alike next rest
          rw [splitBy_cons]
          rw [split] at ascending ⊢
          obtain ⟨lower, upper⟩ := List.pairwise_cons.mp ascending
          cases joins : alike item next with
          | true =>
              have equal := (runs item next).mp joins
              rw [attach, if_pos rfl, List.pairwise_cons]
              refine ⟨?_, upper⟩
              intro other member first inside second among
              rcases List.mem_cons.mp inside with rfl | inside
              · rw [equal]
                exact lower other member next List.mem_cons_self second among
              · exact lower other member first inside second among
          | false =>
              have differs : key item ≠ key next := fun equal => by
                rw [(runs item next).mpr equal] at joins
                cases joins
              rw [attach, if_neg (by decide), List.pairwise_cons]
              refine ⟨?_, ascending⟩
              intro other member first inside second among
              rw [List.mem_singleton.mp inside]
              have flat : next :: rest = ((next :: group) :: groups).flatten := by
                rw [← split, List.flatten_splitBy]
              have behind : second ∈ next :: rest := by
                rw [flat]
                exact List.mem_flatten.mpr ⟨other, member, among⟩
              have early : key item < key next := lt_of_le_of_ne (least next List.mem_cons_self) differs
              rcases List.mem_cons.mp behind with rfl | behind
              · exact early
              · exact early.trans_le ((List.pairwise_cons.mp tail).1 second behind)

/-- Sorted items with one key lie in one run. -/
theorem splitBy_same_run (runs : ∀ left right, alike left right = true ↔ key left = key right)
    (sorted : items.Pairwise fun left right => key left ≤ key right) {left right : Item}
    (first : left ∈ items) (second : right ∈ items) (same : key left = key right) :
    ∃ group ∈ items.splitBy alike, left ∈ group ∧ right ∈ group := by
  have flat : items = (items.splitBy alike).flatten := (List.flatten_splitBy ..).symm
  rw [flat] at first second
  obtain ⟨group, member, inside⟩ := List.mem_flatten.mp first
  obtain ⟨other, others, among⟩ := List.mem_flatten.mp second
  refine ⟨group, member, inside, ?_⟩
  by_cases equal : group = other
  · rw [equal]
    exact among
  · exfalso
    let apart (left right : List Item) : Prop := (∀ first ∈ left, ∀ second ∈ right, key first < key second) ∨
      (∀ first ∈ right, ∀ second ∈ left, key first < key second)
    have ordered : (items.splitBy alike).Pairwise apart := (splitBy_ascending runs sorted).imp Or.inl
    have : Std.Symm apart := ⟨fun _ _ => Or.symm⟩
    rcases ordered.forall member others equal with before | after
    · exact absurd same (before left inside right among).ne
    · exact absurd same.symm (after right among left inside).ne

omit [LinearOrder Key] in
/-- Lists with the same keys are related item by item when items of one key are related. -/
theorem forall₂_of_keys {related : Item → Item → Prop} (keys : items.map key = others.map key)
    (each : ∀ left ∈ items, ∀ right ∈ others, key left = key right → related left right) :
    List.Forall₂ related items others := by
  induction items generalizing others with
  | nil =>
      obtain rfl := List.map_eq_nil_iff.mp keys.symm
      exact .nil
  | cons item items ih =>
      cases others with
      | nil => cases keys
      | cons other others =>
          obtain ⟨same, rest⟩ := List.cons.inj keys
          refine .cons (each item List.mem_cons_self other List.mem_cons_self same) (ih rest ?_)
          intro left first right second
          exact each left (List.mem_cons_of_mem _ first) right (List.mem_cons_of_mem _ second)

/-- Two sorted orders of the same items have the same keys in the same places. -/
theorem forall₂_of_sorted {related : Item → Item → Prop} (perm : items.Perm others)
    (sorted : items.Pairwise fun left right => key left ≤ key right)
    (otherSorted : others.Pairwise fun left right => key left ≤ key right)
    (each : ∀ left ∈ items, ∀ right ∈ items, key left = key right → related left right) :
    List.Forall₂ related items others := by
  have keys : items.map key = others.map key := by
    apply List.Perm.eq_of_pairwise _ (List.pairwise_map.mpr sorted) (List.pairwise_map.mpr otherSorted)
      (perm.map key)
    intro left right _ _
    exact le_antisymm
  apply forall₂_of_keys keys
  intro left first right second
  exact each left first right (perm.mem_iff.mpr second)

end Sorted

section Related

variable {related : Item → Other → Prop} {items : List Item} {others : List Other}

theorem exists_of_forall₂ (pairs : List.Forall₂ related items others) {item : Item} (member : item ∈ items) :
    ∃ other ∈ others, related item other := by
  induction pairs with
  | nil => cases member
  | cons head rest ih =>
      rcases List.mem_cons.mp member with rfl | member
      · exact ⟨_, List.mem_cons_self, head⟩
      · obtain ⟨other, inside, found⟩ := ih member
        exact ⟨other, List.mem_cons_of_mem _ inside, found⟩

/-- An order of the partners is an order of the items. -/
theorem pairwise_of_forall₂ {before : Other → Other → Prop} {early : Item → Item → Prop}
    (pairs : List.Forall₂ related items others) (ordered : others.Pairwise before)
    (lift : ∀ first second left right, related first left → related second right → before left right →
      early first second) : items.Pairwise early := by
  induction pairs with
  | nil => exact .nil
  | cons head rest ih =>
      obtain ⟨least, tail⟩ := List.pairwise_cons.mp ordered
      refine List.pairwise_cons.mpr ⟨?_, ih tail⟩
      intro item member
      obtain ⟨other, inside, found⟩ := exists_of_forall₂ rest member
      exact lift _ _ _ _ head found (least other inside)

end Related

end Runs

end Foundation
