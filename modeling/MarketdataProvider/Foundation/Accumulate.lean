import MarketdataProvider.Foundation.Keyed
import MarketdataProvider.Foundation.Outcome
import Mathlib.Data.List.Induction

namespace Foundation.Accumulate

variable {Key Value Total Error : Type} [DecidableEq Key]

/-- The total of a key, which starts where nothing was added yet. -/
def totalOf (initial : Total) (entries : List (Key × Total)) (target : Key) : Total :=
  (Keyed.find Prod.fst entries target).elim initial Prod.snd

/-- A value is added to the total of its key; a value without a key is passed over. -/
def step (keyOf : Value → Except Error (Option Key)) (add : Total → Value → Except Error Total)
    (initial : Total) (entries : List (Key × Total)) (value : Value) :
    Except Error (List (Key × Total)) := do
  match ← keyOf value with
  | none => return entries
  | some target =>
      let total ← add (totalOf initial entries target) value
      return Keyed.upsert Prod.fst entries (target, total)

variable {keyOf : Value → Except Error (Option Key)} {add : Total → Value → Except Error Total}
  {initial : Total} {entries final : List (Key × Total)} {values : List Value} {target : Key}

/-- The values of one key. -/
def ofKey (keyOf : Value → Except Error (Option Key)) (target : Key) (value : Value) : Bool :=
  match keyOf value with
  | .ok (some other) => other = target
  | _ => false

theorem totalOf_upsert (total : Total) (other : Key) :
    totalOf initial (Keyed.upsert Prod.fst entries (other, total)) target =
      if target = other then total else totalOf initial entries target := by
  rw [totalOf, Keyed.find_upsert]
  split
  · rfl
  · rfl

variable (target) in
/-- A value of another key, or of none, leaves the total of a key; its own is added. -/
theorem step_total {value : Value} (stepped : step keyOf add initial entries value = .ok final) :
    (if ofKey keyOf target value = true then add (totalOf initial entries target) value
      else .ok (totalOf initial entries target)) = .ok (totalOf initial final target) ∧
    ((Keyed.find Prod.fst final target).isSome ↔
      (Keyed.find Prod.fst entries target).isSome ∨ ofKey keyOf target value = true) := by
  rw [step] at stepped
  cases keyed : keyOf value with
  | error error =>
      rw [keyed] at stepped
      cases stepped
  | ok key =>
      rw [keyed, ok_bind] at stepped
      cases key with
      | none =>
          cases stepped
          simp [ofKey, keyed]
      | some other =>
          simp only [bind_eq_ok, pure_eq_ok] at stepped
          obtain ⟨total, added, rfl⟩ := stepped
          rw [totalOf_upsert, Keyed.find_upsert, ofKey, keyed]
          by_cases own : other = target
          · subst own
            simp [added]
          · simp [own, Ne.symm own]

variable (target) in
/-- The total of a key is what its own values add up to, in their order. -/
theorem run_total (folded : values.foldlM (step keyOf add initial) entries = .ok final) :
    (values.filter (ofKey keyOf target)).foldlM add (totalOf initial entries target) =
        .ok (totalOf initial final target) ∧
      ((Keyed.find Prod.fst final target).isSome ↔
        (Keyed.find Prod.fst entries target).isSome ∨ values.filter (ofKey keyOf target) ≠ []) := by
  induction values generalizing entries with
  | nil =>
      cases folded
      simp
  | cons value values ih =>
      rw [List.foldlM_cons, bind_eq_ok] at folded
      obtain ⟨middle, stepped, rest⟩ := folded
      obtain ⟨total, present⟩ := step_total target stepped
      obtain ⟨totals, final⟩ := ih rest
      rw [final, present, List.filter_cons]
      by_cases own : ofKey keyOf target value = true
      · rw [if_pos own] at total
        rw [if_pos own, List.foldlM_cons, total, ok_bind]
        exact ⟨totals, by simp [own]⟩
      · rw [if_neg own, Except.ok.injEq] at total
        rw [if_neg own, total]
        exact ⟨totals, by simp [own]⟩

theorem nodup_run (distinct : (entries.map Prod.fst).Nodup)
    (folded : values.foldlM (step keyOf add initial) entries = .ok final) :
    (final.map Prod.fst).Nodup := by
  induction values generalizing entries with
  | nil =>
      cases folded
      exact distinct
  | cons value values ih =>
      rw [List.foldlM_cons, bind_eq_ok] at folded
      obtain ⟨middle, stepped, rest⟩ := folded
      apply ih _ rest
      simp only [step, bind_eq_ok] at stepped
      obtain ⟨key, _, stepped⟩ := stepped
      cases key with
      | none =>
          cases stepped
          exact distinct
      | some other =>
          simp only [bind_eq_ok, pure_eq_ok] at stepped
          obtain ⟨total, _, rfl⟩ := stepped
          exact Keyed.nodup_upsert distinct

/-- Values of one key, or of none, are added up in one entry. -/
theorem run_single {total : Total} (keys : ∀ value ∈ values, keyOf value = .ok none ∨
      keyOf value = .ok (some target))
    (added : (values.filter (ofKey keyOf target)).foldlM add initial = .ok total) :
    values.foldlM (step keyOf add initial) [] =
      .ok (if values.filter (ofKey keyOf target) = [] then [] else [(target, total)]) := by
  induction values using List.reverseRecOn generalizing total with
  | nil => rfl
  | append_singleton values value ih =>
      have before (other : Value) (member : other ∈ values) := keys other (List.mem_append_left _ member)
      rw [List.filter_append, foldlM_append_eq_ok] at added
      obtain ⟨middle, front, last⟩ := added
      rw [foldlM_append_eq_ok]
      refine ⟨_, ih before front, ?_⟩
      rw [List.foldlM_cons, List.filter_append]
      rcases keys value (List.mem_append_right _ List.mem_cons_self) with passed | own
      · have skipped : [value].filter (ofKey keyOf target) = [] := by simp [ofKey, passed]
        rw [skipped, List.foldlM_nil, pure_eq_ok] at last
        subst last
        rw [step, passed, skipped, List.append_nil]
        rfl
      · have taken : [value].filter (ofKey keyOf target) = [value] := by simp [ofKey, own]
        rw [taken, List.foldlM_cons, bind_eq_ok] at last
        obtain ⟨sum, summed, done⟩ := last
        rw [List.foldlM_nil, pure_eq_ok] at done
        subst done
        have nonempty : values.filter (ofKey keyOf target) ++ [value] ≠ [] := by simp
        rw [step, own, taken, ok_bind, if_neg nonempty]
        by_cases empty : values.filter (ofKey keyOf target) = []
        · rw [empty, List.foldlM_nil, pure_eq_ok] at front
          subst front
          rw [if_pos empty]
          simp only [totalOf, Keyed.find, List.find?_nil, Option.elim_none, summed, ok_bind, List.foldlM_nil]
          rfl
        · have known : totalOf initial [(target, middle)] target = middle := by simp [totalOf, Keyed.find]
          rw [if_neg empty]
          simp only [known, summed, ok_bind, List.foldlM_nil]
          simp [Keyed.upsert]

end Foundation.Accumulate
