import Mathlib.Data.List.Sort
import Mathlib.Order.Basic

namespace Foundation.Spans

variable {Item Key : Type} [LinearOrder Key] (opens closes : Item → Key)

/-- Spans of a line, one behind the other. -/
structure Ordered (items : List Item) : Prop where
  spans : ∀ item ∈ items, opens item ≤ closes item
  apart : items.Pairwise fun left right => closes left < opens right

/-- The spans that have ended at a time. -/
def ended (now : Key) (items : List Item) : List Item := items.filter fun item => closes item ≤ now

/-- The spans that open behind the end of another one. -/
def behind (last : Item) (items : List Item) : List Item :=
  items.filter fun item => closes last < opens item

variable {opens closes} {items front back : List Item} {last : Item} {now : Key} {size : Nat}

theorem Ordered.sublist (ordered : Ordered opens closes items) {part : List Item}
    (sublist : part.Sublist items) : Ordered opens closes part where
  spans item member := ordered.spans item (sublist.subset member)
  apart := ordered.apart.sublist sublist

theorem Ordered.ascending (ordered : Ordered opens closes items) :
    items.Pairwise fun left right => opens left < opens right := by
  apply ordered.apart.imp_of_mem
  intro left right member _ apart
  exact (ordered.spans left member).trans_lt apart

theorem ended_append : ended closes now (front ++ back) = ended closes now front ++ ended closes now back :=
  List.filter_append ..

/-- Whatever comes before an ended span has ended too. -/
theorem ended_of_ended (ordered : Ordered opens closes (front ++ last :: back)) (past : closes last ≤ now) :
    ended closes now front = front := by
  rw [ended, List.filter_eq_self]
  intro item member
  have apart := (List.pairwise_append.mp ordered.apart).2.2 item member last List.mem_cons_self
  have spans := ordered.spans last (by simp)
  exact decide_eq_true ((apart.trans_le spans).le.trans past)

theorem behind_split (ordered : Ordered opens closes (front ++ last :: back)) :
    behind opens closes last (front ++ last :: back) = back := by
  have apart := List.pairwise_append.mp ordered.apart
  have spans := ordered.spans last (by simp)
  have none : (front ++ [last]).filter (fun item => decide (closes last < opens item)) = [] := by
    rw [List.filter_eq_nil_iff]
    intro item member
    rw [decide_eq_true_eq, not_lt]
    rcases List.mem_append.mp member with before | same
    · have ends := apart.2.2 item before last List.mem_cons_self
      exact (ordered.spans item (by simp [before])).trans (ends.le.trans spans)
    · rwa [List.mem_singleton.mp same]
  have all : back.filter (fun item => decide (closes last < opens item)) = back := by
    rw [List.filter_eq_self]
    intro item member
    exact decide_eq_true (List.rel_of_pairwise_cons apart.2.1 member)
  rw [behind, List.append_cons, List.filter_append, none, all, List.nil_append]

/-- A span does not open behind its own end. -/
theorem length_behind_lt (ordered : Ordered opens closes items) (member : last ∈ items) :
    (behind opens closes last items).length < items.length := by
  apply List.length_filter_lt_length_iff_exists.mpr
  refine ⟨last, member, ?_⟩
  rw [decide_eq_true_eq, not_lt]
  exact ordered.spans last member

/-- The last span that has ended, and the spans around it. -/
theorem split_of_getLast (ordered : Ordered opens closes items)
    (ends : (ended closes now items).getLast? = some last) :
    ∃ front back, items = front ++ last :: back ∧ ended closes now items = front ++ [last] ∧
      ended closes now back = [] := by
  obtain ⟨init, kept⟩ := List.getLast?_eq_some_iff.mp ends
  obtain ⟨front, rest, rfl, -, tail⟩ := List.filter_eq_append_iff.mp kept
  obtain ⟨gap, back, rfl, -, past, none⟩ := List.filter_eq_cons_iff.mp tail
  rw [decide_eq_true_eq] at past
  have joined : front ++ (gap ++ last :: back) = (front ++ gap) ++ last :: back :=
    (List.append_assoc ..).symm
  refine ⟨front ++ gap, back, joined, ?_, none⟩
  rw [joined] at ordered ⊢
  have whole : ended closes now (last :: back) = [last] := by
    have here : List.filter (fun item => decide (closes item ≤ now)) (last :: back) =
        last :: back.filter fun item => decide (closes item ≤ now) :=
      List.filter_cons_of_pos (decide_eq_true past)
    rw [ended, here, none]
  rw [ended_append, ended_of_ended ordered past, whole]

/-- The ended spans are those of a first page and those that open behind its last one. -/
theorem ended_take (ordered : Ordered opens closes items)
    (ends : (ended closes now (items.take size)).getLast? = some last) :
    ended closes now items =
      ended closes now (items.take size) ++ ended closes now (behind opens closes last items) := by
  obtain ⟨front, gap, page, kept, none⟩ :=
    split_of_getLast (ordered.sublist (List.take_sublist size items)) ends
  have whole : items = front ++ last :: (gap ++ items.drop size) := by
    conv_lhs => rw [← List.take_append_drop size items, page]
    simp
  have rest : behind opens closes last items = gap ++ items.drop size := by
    conv_lhs => rw [whole]
    exact behind_split (whole ▸ ordered)
  rw [rest, ended_append, none, List.nil_append, ← ended_append, List.take_append_drop]

/-- When no span of a first page has ended, none has. -/
theorem ended_eq_nil_of_take (ordered : Ordered opens closes items) (positive : 0 < size)
    (none : ended closes now (items.take size) = []) : ended closes now items = [] := by
  cases ends : (ended closes now items).getLast? with
  | none => exact List.getLast?_eq_none_iff.mp ends
  | some last =>
      obtain ⟨front, back, rfl, -, -⟩ := split_of_getLast ordered ends
      have past : closes last ≤ now :=
        of_decide_eq_true (List.mem_filter.mp (List.mem_of_getLast? ends)).2
      obtain ⟨smaller, rfl⟩ := Nat.exists_eq_succ_of_ne_zero positive.ne'
      cases front with
      | nil => simp [ended, past] at none
      | cons first front =>
          have early := ended_of_ended ordered past
          have start : closes first ≤ now := by
            have member : first ∈ ended closes now (first :: front) := by
              rw [early]
              exact List.mem_cons_self
            exact of_decide_eq_true (List.mem_filter.mp member).2
          simp [ended, start] at none

/-- No span behind the last ended one of a last page has ended. -/
theorem ended_behind_drop (ordered : Ordered opens closes items)
    (ends : (ended closes now (items.drop size)).getLast? = some last) :
    ended closes now (behind opens closes last items) = [] := by
  obtain ⟨front, back, page, -, none⟩ :=
    split_of_getLast (ordered.sublist (List.drop_sublist size items)) ends
  have whole : items = (items.take size ++ front) ++ last :: back := by
    conv_lhs => rw [← List.take_append_drop size items, page]
    simp
  have rest : behind opens closes last items = back := by
    conv_lhs => rw [whole]
    exact behind_split (whole ▸ ordered)
  rw [rest, none]

/-- A last page holds all the ended spans when it is the whole, or when there are none. -/
theorem ended_last_iff (ordered : Ordered opens closes items) :
    ended closes now (items.drop (items.length - size)) = ended closes now items ↔
      items.length ≤ size ∨ ended closes now items = [] := by
  by_cases whole : items.length ≤ size
  · rw [Nat.sub_eq_zero_of_le whole, List.drop_zero]
    exact iff_of_true rfl (.inl whole)
  rw [or_iff_right whole]
  obtain ⟨skipped, count⟩ : ∃ skipped, items.length - size = skipped + 1 :=
    ⟨items.length - size - 1, by omega⟩
  rw [count]
  cases items with
  | nil => exact absurd (Nat.zero_le size) whole
  | cons first rest =>
      rw [List.drop_succ_cons]
      have part : (ended closes now (rest.drop skipped)).Sublist (ended closes now rest) :=
        (List.drop_sublist skipped rest).filter _
      constructor
      · intro same
        by_contra some
        have past : closes first ≤ now := by
          by_contra late
          have none : ended closes now ((first :: rest).take 1) = [] := by simp [ended, late]
          exact some (ended_eq_nil_of_take ordered Nat.one_pos none)
        have longer : ended closes now (first :: rest) = first :: ended closes now rest :=
          List.filter_cons_of_pos (decide_eq_true past)
        have bound := part.length_le
        rw [same, longer, List.length_cons] at bound
        omega
      · intro none
        rw [none]
        have tail : ended closes now rest = [] := by
          rw [ended, List.filter_eq_nil_iff] at none ⊢
          exact fun item member => none item (List.mem_cons_of_mem first member)
        rw [tail] at part
        exact List.sublist_nil.mp part

end Foundation.Spans
