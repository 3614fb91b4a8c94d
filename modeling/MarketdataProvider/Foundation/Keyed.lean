import Mathlib.Data.List.Sort
import Mathlib.Data.List.Nodup
import Mathlib.Order.Basic

namespace Foundation.Keyed

section Entries

variable {Key Value : Type} [DecidableEq Key] (key : Value → Key)

/-- The entry of a key. -/
def find (values : List Value) (target : Key) : Option Value := values.find? (key · = target)

/-- A new value takes the place of the one with its key, or the end of the list. -/
def upsert (values : List Value) (value : Value) : List Value :=
  if values.any (key · = key value) then
    values.map fun item => if key item = key value then value else item
  else values ++ [value]

/-- The later of two values with one key wins. -/
def upsertAll (values incoming : List Value) : List Value := incoming.foldl (upsert key) values

variable {key} {values incoming : List Value} {value : Value} {target : Key}

theorem key_of_find (found : find key values target = some value) : key value = target := by
  simpa using List.find?_some found

theorem mem_of_find (found : find key values target = some value) : value ∈ values :=
  List.mem_of_find?_eq_some found

theorem find_eq_none_iff : find key values target = none ↔ ∀ value ∈ values, key value ≠ target := by
  simp [find]

theorem find_isSome_iff : (find key values target).isSome ↔ ∃ value ∈ values, key value = target := by
  simp [find]

/-- With distinct keys every member is the entry of its key. -/
theorem find_eq_some_iff (distinct : (values.map key).Nodup) :
    find key values target = some value ↔ value ∈ values ∧ key value = target := by
  constructor
  · intro found
    exact ⟨mem_of_find found, key_of_find found⟩
  · rintro ⟨member, rfl⟩
    have occurs : (find key values (key value)).isSome = true :=
      find_isSome_iff.mpr ⟨value, member, rfl⟩
    obtain ⟨other, found⟩ := Option.isSome_iff_exists.mp occurs
    have same : other = value :=
      List.inj_on_of_nodup_map distinct (mem_of_find found) member (key_of_find found)
    rw [found, same]

theorem find_append (front back : List Value) :
    find key (front ++ back) target = (find key front target).or (find key back target) :=
  List.find?_append

theorem find_upsert : find key (upsert key values value) target =
    if target = key value then some value else find key values target := by
  unfold upsert
  split
  · rename_i present
    rw [List.any_eq_true] at present
    obtain ⟨old, member, same⟩ := present
    rw [decide_eq_true_eq] at same
    rw [find, List.find?_map]
    split
    · rename_i own
      subst own
      have hit : values.find? ((fun item => decide (key item = key value)) ∘
          fun item => if key item = key value then value else item) =
          values.find? fun item => key item = key value := by
        congr 1
        funext item
        by_cases equal : key item = key value <;> simp [equal]
      have occurs : (find key values (key value)).isSome = true :=
        find_isSome_iff.mpr ⟨old, member, same⟩
      obtain ⟨first, found⟩ := Option.isSome_iff_exists.mp occurs
      have keyed := key_of_find found
      rw [hit, show values.find? (fun item => decide (key item = key value)) = some first from found,
        Option.map_some, if_pos keyed]
    · rename_i other
      have miss : values.find? ((fun item => decide (key item = target)) ∘
          fun item => if key item = key value then value else item) =
          values.find? fun item => key item = target := by
        congr 1
        funext item
        by_cases equal : key item = key value
        · simp [equal]
        · simp [equal]
      rw [miss]
      cases found : values.find? (fun item => decide (key item = target)) with
      | none => exact found.symm
      | some item =>
          have keyed : key item = target := key_of_find found
          have different : key item ≠ key value := fun same => other (keyed ▸ same)
          rw [Option.map_some, if_neg different]
          exact found.symm
  · rename_i absent
    rw [find_append]
    have missing : ∀ item ∈ values, key item ≠ key value := by
      simpa using absent
    split
    · rename_i own
      subst own
      rw [find_eq_none_iff.mpr missing]
      simp [find]
    · rename_i other
      have single : find key [value] target = none := by
        simp [find, Ne.symm other]
      rw [single, Option.or_none]

/-- Without the values of one key every other entry stays. -/
theorem find_without (other : Key) :
    find key (values.filter fun value => !decide (key value = target)) other =
      if other = target then none else find key values other := by
  rw [find, List.find?_filter]
  split
  · rename_i own
    subst own
    simp
  · rename_i away
    rw [find]
    congr 1
    funext value
    by_cases same : key value = other
    · simp [same, away]
    · simp [same]

theorem map_key_upsert : (upsert key values value).map key =
    if values.any (key · = key value) then values.map key else values.map key ++ [key value] := by
  unfold upsert
  split
  · rw [List.map_map]
    apply List.map_congr_left
    intro item _
    by_cases same : key item = key value <;> simp [same]
  · simp

theorem nodup_upsert (distinct : (values.map key).Nodup) :
    ((upsert key values value).map key).Nodup := by
  rw [map_key_upsert]
  split
  · exact distinct
  · rename_i absent
    rw [List.nodup_append]
    refine ⟨distinct, List.nodup_singleton _, ?_⟩
    intro left inValues right inSingle same
    obtain ⟨item, member, rfl⟩ := List.mem_map.mp inValues
    rw [List.mem_singleton] at inSingle
    exact absent (List.any_eq_true.mpr ⟨item, member, by simp [same, inSingle]⟩)

theorem mem_upsert {item : Value} (member : item ∈ upsert key values value) :
    item = value ∨ item ∈ values := by
  unfold upsert at member
  split at member
  · obtain ⟨old, inside, rfl⟩ := List.mem_map.mp member
    split
    · exact .inl rfl
    · exact .inr inside
  · rcases List.mem_append.mp member with inside | single
    · exact .inr inside
    · exact .inl (List.mem_singleton.mp single)

/-- The last incoming value of a key, or else the value that was there. -/
theorem find_upsertAll : find key (upsertAll key values incoming) target =
    (find key incoming.reverse target).or (find key values target) := by
  induction incoming generalizing values with
  | nil => rfl
  | cons value incoming ih =>
      have step : upsertAll key values (value :: incoming) =
          upsertAll key (upsert key values value) incoming := rfl
      rw [step, ih, find_upsert, List.reverse_cons, find_append, Option.or_assoc]
      congr 1
      by_cases same : target = key value
      · rw [if_pos same]
        simp [find, same]
      · rw [if_neg same]
        have single : find key [value] target = none := by simp [find, Ne.symm same]
        rw [single, Option.none_or]

theorem nodup_upsertAll (distinct : (values.map key).Nodup) :
    ((upsertAll key values incoming).map key).Nodup := by
  induction incoming generalizing values with
  | nil => exact distinct
  | cons value incoming ih => exact ih (nodup_upsert distinct)

theorem mem_upsertAll {item : Value} (member : item ∈ upsertAll key values incoming) :
    item ∈ incoming ∨ item ∈ values := by
  induction incoming generalizing values with
  | nil => exact .inr member
  | cons value incoming ih =>
      rcases ih member with later | before
      · exact .inl (List.mem_cons_of_mem _ later)
      · rcases mem_upsert before with rfl | old
        · exact .inl List.mem_cons_self
        · exact .inr old

/-- A permutation has the same entries. -/
theorem find_perm {others : List Value} (distinct : (values.map key).Nodup)
    (same : others.Perm values) : find key others target = find key values target := by
  apply Option.ext
  intro value
  rw [find_eq_some_iff distinct, find_eq_some_iff ((same.map key).nodup_iff.mpr distinct), same.mem_iff]

/-- The entry of a key in the reversed list is the last value with it. -/
theorem find_reverse : find key values.reverse target = (values.filter (key · = target)).getLast? := by
  rw [find, ← List.head?_filter, List.filter_reverse, List.head?_reverse]

/-- Only the entry of one key contributes. -/
theorem flatMap_eq_find {Part : Type} {part : Value → List Part} (distinct : (values.map key).Nodup)
    (others : ∀ value ∈ values, key value ≠ target → part value = []) :
    values.flatMap part = (find key values target).elim [] part := by
  induction values with
  | nil => rfl
  | cons value values ih =>
      rw [List.map_cons, List.nodup_cons] at distinct
      have rest := ih distinct.2 fun item member => others item (List.mem_cons_of_mem _ member)
      rw [List.flatMap_cons, rest]
      by_cases own : key value = target
      · have absent : find key values target = none := by
          rw [find_eq_none_iff]
          intro item member same
          exact distinct.1 (List.mem_map.mpr ⟨item, member, same.trans own.symm⟩)
        rw [absent]
        simp [find, own]
      · rw [others value List.mem_cons_self own]
        simp [find, own]

end Entries

section Sorted

variable {Key Value : Type} [LinearOrder Key] {key : Value → Key} {values incoming : List Value}

theorem nodup_of_sorted (sorted : values.Pairwise (key · < key ·)) : (values.map key).Nodup :=
  List.pairwise_map.mpr (sorted.imp ne_of_lt)

/-- Values with distinct keys, sorted by key, ascend strictly. -/
theorem sorted_insertionSort (distinct : (values.map key).Nodup) :
    (values.insertionSort (key · ≤ key ·)).Pairwise (key · < key ·) := by
  have ordered := List.pairwise_insertionSort (fun left right => key left ≤ key right) values
  have nodup : ((values.insertionSort (key · ≤ key ·)).map key).Nodup :=
    ((List.perm_insertionSort _ values).map key).nodup_iff.mpr distinct
  have different := List.pairwise_map.mp nodup
  exact (ordered.and different).imp fun both => lt_of_le_of_ne both.1 both.2

/-- Two ascending lists with the same entries are equal. -/
theorem eq_of_find_eq {others : List Value} (sorted : values.Pairwise (key · < key ·))
    (otherSorted : others.Pairwise (key · < key ·))
    (same : ∀ target, find key values target = find key others target) : values = others := by
  have member (value : Value) : value ∈ values ↔ value ∈ others := by
    have left : find key values (key value) = some value ↔ _ := find_eq_some_iff (nodup_of_sorted sorted)
    have right : find key others (key value) = some value ↔ _ :=
      find_eq_some_iff (nodup_of_sorted otherSorted)
    rw [same] at left
    simpa using left.symm.trans right
  have perm : values.Perm others :=
    (List.perm_ext_iff_of_nodup (List.Nodup.of_map key (nodup_of_sorted sorted))
      (List.Nodup.of_map key (nodup_of_sorted otherSorted))).mpr member
  apply List.Perm.eq_of_pairwise _ sorted otherSorted perm
  intro left right _ _ before after
  exact absurd before (not_lt_of_gt after)

omit [LinearOrder Key] in
theorem distinct_nil : (([] : List Value).map key).Nodup := List.nodup_nil

variable (key values) in
/-- The last value of each key, in the order of the keys. -/
def byKey : List Value := (upsertAll key [] values).insertionSort (key · ≤ key ·)

theorem byKey_sorted : (byKey key values).Pairwise (key · < key ·) :=
  sorted_insertionSort (nodup_upsertAll distinct_nil)

theorem find_byKey (target : Key) : find key (byKey key values) target = find key values.reverse target := by
  rw [byKey, find_perm (nodup_upsertAll distinct_nil) (List.perm_insertionSort _ _),
    find_upsertAll]
  exact Option.or_none

theorem mem_byKey {value : Value} (member : value ∈ byKey key values) : value ∈ values := by
  rcases mem_upsertAll ((List.mem_insertionSort _).mp member) with incoming | old
  · exact incoming
  · cases old

/-- No value is lost when each one has a key of its own. -/
theorem mem_byKey_iff (injective : Function.Injective key) {value : Value} :
    value ∈ byKey key values ↔ value ∈ values := by
  constructor
  · exact mem_byKey
  · intro member
    have known : ((find key values.reverse (key value)).isSome) :=
      find_isSome_iff.mpr ⟨value, List.mem_reverse.mpr member, rfl⟩
    obtain ⟨other, found⟩ := Option.isSome_iff_exists.mp known
    rw [← find_byKey] at found
    rw [← injective (key_of_find found)]
    exact mem_of_find found

/-- Two lists agree by key when they agree on the last value of each key. -/
theorem byKey_eq_iff {others : List Value} : byKey key values = byKey key others ↔
    ∀ target, (values.filter (key · = target)).getLast? = (others.filter (key · = target)).getLast? := by
  constructor
  · intro same target
    rw [← find_reverse, ← find_reverse, ← find_byKey, ← find_byKey, same]
  · intro same
    apply eq_of_find_eq byKey_sorted byKey_sorted
    intro target
    rw [find_byKey, find_byKey, find_reverse, find_reverse, same]

/-- Values that ascend strictly stay as they are. -/
theorem byKey_eq_self (sorted : values.Pairwise (key · < key ·)) : byKey key values = values := by
  apply eq_of_find_eq byKey_sorted sorted
  intro target
  rw [find_byKey, find_perm (nodup_of_sorted sorted) values.reverse_perm]

/-- Values among those of an ascending list, with all of them, are that list by key. -/
theorem byKey_eq_of_mem {others : List Value} (sorted : others.Pairwise (key · < key ·))
    (same : ∀ value, value ∈ values ↔ value ∈ others) : byKey key values = others := by
  apply eq_of_find_eq byKey_sorted sorted
  intro target
  rw [find_byKey]
  cases found : find key others target with
  | none =>
      rw [find_eq_none_iff] at found ⊢
      intro value member
      exact found value ((same value).mp (List.mem_reverse.mp member))
  | some value =>
      have member := (same value).mpr (mem_of_find found)
      have occurs : (find key values.reverse target).isSome = true :=
        find_isSome_iff.mpr ⟨value, List.mem_reverse.mpr member, key_of_find found⟩
      obtain ⟨last, entry⟩ := Option.isSome_iff_exists.mp occurs
      have inside := (same last).mp (List.mem_reverse.mp (mem_of_find entry))
      rw [entry, ← found]
      exact ((find_eq_some_iff (nodup_of_sorted sorted)).mpr ⟨inside, key_of_find entry⟩).symm

/-- The last value has the greatest key. -/
theorem le_getLast {value last : Value} (sorted : values.Pairwise (key · < key ·))
    (ends : values.getLast? = some last) (member : value ∈ values) : key value ≤ key last := by
  obtain ⟨front, rfl⟩ := List.getLast?_eq_some_iff.mp ends
  rcases List.mem_append.mp member with before | single
  · exact ((List.pairwise_append.mp sorted).2.2 value before last (List.mem_singleton_self _)).le
  · rw [List.mem_singleton.mp single]

end Sorted

end Foundation.Keyed
