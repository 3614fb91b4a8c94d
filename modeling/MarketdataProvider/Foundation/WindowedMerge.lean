import MarketdataProvider.Foundation.Keyed
import Mathlib.Data.List.Induction

namespace Foundation.WindowedMerge

/-- A write of some values; the rewrite keeps the old values that its window shows. -/
structure Write (Key Value : Type) where
  window : Key → Bool
  values : List Value

variable {Key Value : Type} [LinearOrder Key] (key : Value → Key)

/-- The old values are read through the window, and the new ones take their places. -/
def merge (contents : List Value) (write : Write Key Value) : List Value :=
  Keyed.byKey key (contents.filter (fun value => write.window (key value)) ++ write.values)

def run (contents : List Value) (writes : List (Write Key Value)) : List Value :=
  writes.foldl (merge key) contents

/-- The last value of each key that was ever written. -/
def whole (writes : List (Write Key Value)) : List Value :=
  Keyed.byKey key (writes.flatMap Write.values)

/-- A value that no later write replaces is in the window of each of them. -/
def Kept : List (Write Key Value) → Prop
  | [] => True
  | write :: back =>
      (∀ value ∈ write.values,
        (∀ later ∈ back, ∀ other ∈ later.values, key other ≠ key value) →
          ∀ later ∈ back, later.window (key value) = true) ∧ Kept back

/-- The same for the values of one key. -/
def KeptAt (target : Key) : List (Write Key Value) → Prop
  | [] => True
  | write :: back =>
      ((Keyed.find key write.values.reverse target).isSome →
        (∀ later ∈ back, Keyed.find key later.values.reverse target = none) →
          ∀ later ∈ back, later.window target = true) ∧ KeptAt target back

variable {key} {contents : List Value} {writes : List (Write Key Value)} {write : Write Key Value}
  {target : Key}

theorem kept_iff : Kept key writes ↔ ∀ target, KeptAt key target writes := by
  induction writes with
  | nil => simp [Kept, KeptAt]
  | cons write back ih =>
      simp only [Kept, KeptAt, ih, forall_and]
      apply and_congr_left
      intro _
      constructor
      · intro kept target occurs missing later member
        obtain ⟨value, inside, rfl⟩ := Keyed.find_isSome_iff.mp occurs
        apply kept value (List.mem_reverse.mp inside) _ later member
        intro write written other otherMember same
        exact Keyed.find_eq_none_iff.mp (missing write written) other (List.mem_reverse.mpr otherMember) same
      · intro kept value inside missing later member
        apply kept (key value) _ _ later member
        · exact Keyed.find_isSome_iff.mpr ⟨value, List.mem_reverse.mpr inside, rfl⟩
        · intro write written
          rw [Keyed.find_eq_none_iff]
          intro other otherMember
          exact missing write written other (List.mem_reverse.mp otherMember)

theorem find_filter_window (distinct : (contents.map key).Nodup) (window : Key → Bool) :
    Keyed.find key (contents.filter fun value => window (key value)) target =
      if window target then Keyed.find key contents target else none := by
  have kept : ((contents.filter fun value => window (key value)).map key).Nodup :=
    distinct.sublist (List.filter_sublist.map key)
  apply Option.ext
  intro value
  rw [Keyed.find_eq_some_iff kept, List.mem_filter]
  split
  · rename_i shown
    rw [Keyed.find_eq_some_iff distinct]
    constructor
    · rintro ⟨⟨member, _⟩, own⟩
      exact ⟨member, own⟩
    · rintro ⟨member, own⟩
      exact ⟨⟨member, own ▸ shown⟩, own⟩
  · rename_i hidden
    constructor
    · rintro ⟨⟨_, shown⟩, rfl⟩
      exact absurd shown hidden
    · intro absurdity
      cases absurdity

/-- What one rewrite leaves at a key. -/
theorem find_merge (distinct : (contents.map key).Nodup) :
    Keyed.find key (merge key contents write) target =
      (Keyed.find key write.values.reverse target).or
        (if write.window target then Keyed.find key contents target else none) := by
  have kept : ((contents.filter fun value => write.window (key value)).map key).Nodup :=
    distinct.sublist (List.filter_sublist.map key)
  rw [merge, Keyed.find_byKey, List.reverse_append, Keyed.find_append,
    Keyed.find_perm kept (List.reverse_perm _), find_filter_window distinct]

theorem nodup_merge : ((merge key contents write).map key).Nodup :=
  Keyed.nodup_of_sorted Keyed.byKey_sorted

variable (key) in
/-- One rewrite after the other, at one key. -/
def stepAt (target : Key) (entry : Option Value) (write : Write Key Value) : Option Value :=
  (Keyed.find key write.values.reverse target).or (if write.window target then entry else none)

theorem find_run (distinct : (contents.map key).Nodup) : Keyed.find key (run key contents writes) target =
    writes.foldl (stepAt key target) (Keyed.find key contents target) := by
  induction writes generalizing contents with
  | nil => rfl
  | cons write back ih =>
      rw [run, List.foldl_cons, List.foldl_cons, stepAt, ← find_merge distinct]
      exact ih nodup_merge

variable (key) in
/-- The last write of a key, whatever the windows show. -/
def lastAt (target : Key) (entry : Option Value) (write : Write Key Value) : Option Value :=
  (Keyed.find key write.values.reverse target).or entry

theorem find_whole : Keyed.find key (whole key writes) target =
    writes.foldl (lastAt key target) none := by
  rw [whole, Keyed.find_byKey]
  induction writes using List.reverseRecOn with
  | nil => rfl
  | append_singleton writes write ih =>
      rw [List.flatMap_append, List.flatMap_singleton, List.reverse_append, Keyed.find_append, ih,
        List.foldl_append]
      rfl

theorem foldl_lastAt_none (missing : ∀ write ∈ writes, Keyed.find key write.values.reverse target = none)
    (entry : Option Value) : writes.foldl (lastAt key target) entry = entry := by
  induction writes with
  | nil => rfl
  | cons write back ih =>
      rw [List.foldl_cons, lastAt, missing write List.mem_cons_self, Option.none_or]
      exact ih fun other member => missing other (List.mem_cons_of_mem _ member)

theorem foldl_stepAt_none (missing : ∀ write ∈ writes, Keyed.find key write.values.reverse target = none) :
    writes.foldl (stepAt key target) none = none := by
  induction writes with
  | nil => rfl
  | cons write back ih =>
      rw [List.foldl_cons, stepAt, missing write List.mem_cons_self, Option.none_or, ite_self]
      exact ih fun other member => missing other (List.mem_cons_of_mem _ member)

/-- A write of the key makes everything before it irrelevant. -/
theorem foldl_lastAt_of_written {written : Write Key Value} (member : written ∈ writes)
    (found : Keyed.find key written.values.reverse target ≠ none) (first second : Option Value) :
    writes.foldl (lastAt key target) first = writes.foldl (lastAt key target) second := by
  induction writes generalizing first second with
  | nil => cases member
  | cons write back ih =>
      rw [List.foldl_cons, List.foldl_cons]
      rcases List.mem_cons.mp member with rfl | later
      · obtain ⟨value, same⟩ := Option.ne_none_iff_exists'.mp found
        rw [lastAt, lastAt, same, Option.some_or, Option.some_or]
      · exact ih later _ _

/-- The rewrites leave the last value of a key when its windows show it to the end. -/
theorem foldl_stepAt_eq_iff (entry : Option Value) :
    writes.foldl (stepAt key target) entry = writes.foldl (lastAt key target) entry ↔
      (entry.isSome → (∀ write ∈ writes, Keyed.find key write.values.reverse target = none) →
        ∀ write ∈ writes, write.window target = true) ∧ KeptAt key target writes := by
  induction writes generalizing entry with
  | nil => simp [KeptAt]
  | cons write back ih =>
      rw [List.foldl_cons, List.foldl_cons, KeptAt]
      cases found : Keyed.find key write.values.reverse target with
      | some value =>
          have step : stepAt key target entry write = some value := by simp [stepAt, found]
          have last : lastAt key target entry write = some value := by simp [lastAt, found]
          rw [step, last, ih]
          simp [found]
      | none =>
          have last : lastAt key target entry write = entry := by simp [lastAt, found]
          rw [last]
          by_cases shown : write.window target = true
          · have step : stepAt key target entry write = entry := by simp [stepAt, found, shown]
            rw [step, ih]
            simp [found, shown]
          · have step : stepAt key target entry write = none := by simp [stepAt, found, shown]
            rw [step]
            cases entry with
            | none =>
                rw [ih]
                simp [found]
            | some old =>
                by_cases missing : ∀ write ∈ back, Keyed.find key write.values.reverse target = none
                · rw [foldl_stepAt_none missing, foldl_lastAt_none missing]
                  constructor
                  · intro absurdity
                    cases absurdity
                  · rintro ⟨kept, -⟩
                    exact absurd (kept rfl (List.forall_mem_cons.mpr ⟨found, missing⟩) write
                      List.mem_cons_self) shown
                · have again := missing
                  simp only [not_forall] at again
                  obtain ⟨written, member, other⟩ := again
                  rw [foldl_lastAt_of_written member other (some old) none, ih]
                  simp [found, missing]

/-- The rewrites keep the last value of every key exactly when no window hides one. -/
theorem run_eq_whole_iff : run key [] writes = whole key writes ↔ Kept key writes := by
  have empty : (([] : List Value).map key).Nodup := List.nodup_nil
  have at_key (target : Key) : Keyed.find key (run key [] writes) target =
      Keyed.find key (whole key writes) target ↔ KeptAt key target writes := by
    rw [find_run empty, find_whole]
    exact (foldl_stepAt_eq_iff none).trans (by simp)
  rw [kept_iff]
  constructor
  · intro same target
    rw [← at_key, same]
  · intro kept
    apply Keyed.eq_of_find_eq _ Keyed.byKey_sorted fun target => (at_key target).mpr (kept target)
    cases writes using List.reverseRecOn with
    | nil => exact List.Pairwise.nil
    | append_singleton writes write =>
        rw [run, List.foldl_append]
        exact Keyed.byKey_sorted

end Foundation.WindowedMerge
