import Mathlib.Data.List.Induction
import Mathlib.Data.List.Sort
import Mathlib.Order.MinMax

namespace Foundation

/-- The times from a start on, up to a stop. -/
structure Extent (Time : Type) where
  start : Time
  stop : Time
  deriving DecidableEq

namespace Extent

variable {Time : Type} [LinearOrder Time] {extents done : List (Extent Time)} {next extent : Extent Time}
  {lower upper time cursor : Time}

def Covers (extents : List (Extent Time)) (time : Time) : Prop :=
  ∃ extent ∈ extents, extent.start ≤ time ∧ time < extent.stop

/-- Each extent has a time, and some time lies between an extent and the next one. -/
structure Apart (extents : List (Extent Time)) : Prop where
  nonempty : ∀ extent ∈ extents, extent.start < extent.stop
  separate : extents.Pairwise fun first second => first.stop < second.start

/-- An extent joins the last one unless some time lies between the two. -/
def join (done : List (Extent Time)) (next : Extent Time) : List (Extent Time) :=
  match done.getLast? with
  | none => done ++ [next]
  | some last =>
      if next.start ≤ last.stop then done.dropLast ++ [⟨last.start, max last.stop next.stop⟩]
      else done ++ [next]

def joined (extents : List (Extent Time)) : List (Extent Time) := extents.foldl join []

/-- The times between a cursor and an extent are a gap, and the cursor moves behind the extent. -/
def leave (state : List (Extent Time) × Time) (next : Extent Time) : List (Extent Time) × Time :=
  (if state.2 < next.start then state.1 ++ [⟨state.2, next.start⟩] else state.1, max state.2 next.stop)

/-- The gaps that the extents leave between two times. -/
def gaps (lower upper : Time) (extents : List (Extent Time)) : List (Extent Time) :=
  let state := extents.foldl leave ([], lower)
  if state.2 < upper then state.1 ++ [⟨state.2, upper⟩] else state.1

@[simp] theorem covers_nil : ¬ Covers [] time := by simp [Covers]

@[simp] theorem covers_append (front back : List (Extent Time)) :
    Covers (front ++ back) time ↔ Covers front time ∨ Covers back time := by
  simp only [Covers, List.mem_append, or_and_right, exists_or]

@[simp] theorem covers_singleton : Covers [extent] time ↔ extent.start ≤ time ∧ time < extent.stop := by
  simp [Covers]

theorem Apart.append (front : Apart done) (own : extent.start < extent.stop)
    (behind : ∀ other ∈ done, other.stop < extent.start) : Apart (done ++ [extent]) where
  nonempty := by
    intro other member
    rcases List.mem_append.mp member with member | member
    · exact front.nonempty other member
    · rw [List.mem_singleton.mp member]
      exact own
  separate := by
    rw [List.pairwise_append]
    refine ⟨front.separate, List.pairwise_singleton .., ?_⟩
    intro first member second same
    rw [List.mem_singleton.mp same]
    exact behind first member

theorem Apart.front (apart : Apart (done ++ [extent])) :
    Apart done ∧ extent.start < extent.stop ∧ ∀ other ∈ done, other.stop < extent.start := by
  obtain ⟨first, _, between⟩ := List.pairwise_append.mp apart.separate
  refine ⟨⟨fun other member => apart.nonempty other (List.mem_append_left _ member), first⟩,
    apart.nonempty extent List.mem_concat_self, ?_⟩
  exact fun other member => between other member extent (List.mem_singleton_self _)

section Join

/-- A step of joining keeps the extents apart and adds the times of the next extent. -/
theorem join_step (apart : Apart done) (own : next.start < next.stop)
    (after : ∀ other ∈ done, other.start ≤ next.start) :
    Apart (join done next) ∧ (∀ other ∈ join done next, other.start ≤ next.start) ∧
      ∀ time, Covers (join done next) time ↔ Covers done time ∨ (next.start ≤ time ∧ time < next.stop) := by
  rcases List.eq_nil_or_concat' done with rfl | ⟨front, last, rfl⟩
  · rw [join, List.getLast?_nil, List.nil_append]
    refine ⟨⟨by simpa using own, List.pairwise_singleton ..⟩, by simp, by simp⟩
  · obtain ⟨first, long, between⟩ := apart.front
    have ordered := after last List.mem_concat_self
    simp only [join, List.getLast?_concat, List.dropLast_concat]
    by_cases touches : next.start ≤ last.stop
    · rw [if_pos touches]
      have grown : last.start < max last.stop next.stop := lt_of_lt_of_le long (le_max_left ..)
      refine ⟨first.append grown between, ?_, ?_⟩
      · intro other member
        rcases List.mem_append.mp member with member | member
        · exact after other (List.mem_append_left _ member)
        · rw [List.mem_singleton.mp member]
          exact ordered
      · intro time
        have whole : (last.start ≤ time ∧ time < max last.stop next.stop) ↔
            (last.start ≤ time ∧ time < last.stop) ∨ (next.start ≤ time ∧ time < next.stop) := by
          rw [lt_max_iff]
          constructor
          · rintro ⟨begun, inside | inside⟩
            · exact .inl ⟨begun, inside⟩
            · rcases lt_or_ge time last.stop with before | past
              · exact .inl ⟨begun, before⟩
              · exact .inr ⟨touches.trans past, inside⟩
          · rintro (⟨begun, inside⟩ | ⟨begun, inside⟩)
            · exact ⟨begun, .inl inside⟩
            · exact ⟨ordered.trans begun, .inr inside⟩
        rw [covers_append, covers_singleton, covers_append, covers_singleton, whole, or_assoc]
    · rw [if_neg touches]
      have beyond : last.stop < next.start := lt_of_not_ge touches
      refine ⟨apart.append own ?_, ?_, ?_⟩
      · intro other member
        rcases List.mem_append.mp member with member | member
        · exact ((between other member).trans long).trans beyond
        · rw [List.mem_singleton.mp member]
          exact beyond
      · intro other member
        rcases List.mem_append.mp member with member | member
        · exact after other member
        · rw [List.mem_singleton.mp member]
      · intro time
        rw [covers_append, covers_singleton]

theorem join_inside (front : ∀ other ∈ done, lower ≤ other.start ∧ other.stop ≤ upper)
    (own : lower ≤ next.start ∧ next.stop ≤ upper) :
    ∀ other ∈ join done next, lower ≤ other.start ∧ other.stop ≤ upper := by
  unfold join
  split
  · exact List.forall_mem_append.mpr ⟨front, by simpa using own⟩
  · rename_i last found
    have member := List.mem_of_getLast? found
    split_ifs
    · rw [List.forall_mem_append]
      refine ⟨fun other inside => front other (List.dropLast_subset done inside), ?_⟩
      intro other same
      rw [List.mem_singleton.mp same]
      exact ⟨(front last member).1, max_le (front last member).2 own.2⟩
    · exact List.forall_mem_append.mpr ⟨front, by simpa using own⟩

/-- The joined extents stay inside a range. -/
theorem joined_inside (inside : ∀ extent ∈ extents, lower ≤ extent.start ∧ extent.stop ≤ upper) :
    ∀ extent ∈ joined extents, lower ≤ extent.start ∧ extent.stop ≤ upper := by
  induction extents using List.reverseRecOn with
  | nil => simp [joined]
  | append_singleton front next ih =>
      rw [joined, List.foldl_concat]
      exact join_inside (ih fun other member => inside other (List.mem_append_left _ member))
        (inside next List.mem_concat_self)

/-- The joined extents are apart, and they have the times of the extents. -/
theorem joined_spec (nonempty : ∀ extent ∈ extents, extent.start < extent.stop)
    (sorted : extents.Pairwise fun first second => first.start ≤ second.start) :
    Apart (joined extents) ∧ ∀ time, Covers (joined extents) time ↔ Covers extents time := by
  have run : Apart (joined extents) ∧ (∀ other ∈ joined extents, ∃ extent ∈ extents, other.start ≤ extent.start) ∧
      ∀ time, Covers (joined extents) time ↔ Covers extents time := by
    induction extents using List.reverseRecOn with
    | nil => exact ⟨⟨by simp [joined], .nil⟩, by simp [joined], fun _ => Iff.rfl⟩
    | append_singleton front next ih =>
        obtain ⟨ordered, _, before⟩ := List.pairwise_append.mp sorted
        obtain ⟨apart, started, covers⟩ := ih (fun extent member =>
          nonempty extent (List.mem_append_left _ member)) ordered
        have after : ∀ other ∈ joined front, other.start ≤ next.start := by
          intro other member
          obtain ⟨extent, inside, below⟩ := started other member
          exact below.trans (before extent inside next (List.mem_singleton_self _))
        obtain ⟨kept, bounded, covered⟩ := join_step apart (nonempty next List.mem_concat_self) after
        have same : joined (front ++ [next]) = join (joined front) next := by
          rw [joined, List.foldl_concat]
          rfl
        rw [same]
        refine ⟨kept, fun other member => ⟨next, List.mem_concat_self, bounded other member⟩, ?_⟩
        intro time
        rw [covered, covers time, covers_append, covers_singleton]
  exact ⟨run.1, run.2.2⟩

end Join

section Gaps

/-- What the scan for gaps knows after some extents: its gaps lie below the cursor, in front of the
last start, and they are the times below the cursor that the extents leave out. -/
structure Scanned (lower : Time) (seen : List (Extent Time)) (state : List (Extent Time) × Time) : Prop where
  apart : Apart state.1
  after : ∀ gap ∈ state.1, lower ≤ gap.start
  before : ∀ gap ∈ state.1, ∃ extent ∈ seen, gap.stop ≤ extent.start
  begun : lower ≤ state.2
  ends : ∀ extent ∈ seen, extent.stop ≤ state.2
  complement : ∀ time, lower ≤ time → time < state.2 → (Covers state.1 time ↔ ¬ Covers seen time)

theorem Scanned.gap_lt_cursor {state : List (Extent Time) × Time} (scanned : Scanned lower extents state)
    (nonempty : ∀ extent ∈ extents, extent.start < extent.stop) :
    ∀ gap ∈ state.1, gap.stop < state.2 := by
  intro gap member
  obtain ⟨extent, inside, below⟩ := scanned.before gap member
  exact (below.trans_lt (nonempty extent inside)).trans_le (scanned.ends extent inside)

/-- A cursor below an extent is a gap up to it. -/
theorem Scanned.fill {state : List (Extent Time) × Time} (scanned : Scanned lower extents state)
    (nonempty : ∀ extent ∈ extents, extent.start < extent.stop) (room : state.2 < upper) :
    Apart (state.1 ++ [⟨state.2, upper⟩]) ∧
      ∀ time, lower ≤ time → time < upper → (Covers (state.1 ++ [⟨state.2, upper⟩]) time ↔ ¬ Covers extents time) := by
  refine ⟨scanned.apart.append room (scanned.gap_lt_cursor nonempty), ?_⟩
  intro time first last
  rw [covers_append, covers_singleton]
  rcases lt_or_ge time state.2 with below | above
  · rw [scanned.complement time first below]
    exact or_iff_left fun ⟨reached, _⟩ => absurd below (not_lt_of_ge reached)
  · refine iff_of_true (.inr ⟨above, last⟩) ?_
    rintro ⟨extent, member, _, inside⟩
    exact absurd (inside.trans_le (scanned.ends extent member)) (not_lt_of_ge above)

theorem Scanned.leave {state : List (Extent Time) × Time} (scanned : Scanned lower extents state)
    (nonempty : ∀ extent ∈ extents, extent.start < extent.stop)
    (sorted : ∀ extent ∈ extents, extent.start ≤ next.start) :
    Scanned lower (extents ++ [next]) (Extent.leave state next) := by
  have seen (time : Time) : Covers (extents ++ [next]) time ↔
      Covers extents time ∨ (next.start ≤ time ∧ time < next.stop) := by
    rw [covers_append, covers_singleton]
  have ends : ∀ extent ∈ extents ++ [next], extent.stop ≤ max state.2 next.stop := by
    intro extent member
    rcases List.mem_append.mp member with member | member
    · exact (scanned.ends extent member).trans (le_max_left ..)
    · rw [List.mem_singleton.mp member]
      exact le_max_right ..
  have begun := scanned.begun.trans (le_max_left state.2 next.stop)
  unfold Extent.leave
  by_cases room : state.2 < next.start
  · rw [if_pos room]
    obtain ⟨apart, complement⟩ := scanned.fill nonempty room
    refine ⟨apart, ?_, ?_, begun, ends, ?_⟩
    · intro gap member
      rcases List.mem_append.mp member with member | member
      · exact scanned.after gap member
      · rw [List.mem_singleton.mp member]
        exact scanned.begun
    · intro gap member
      refine ⟨next, List.mem_concat_self, ?_⟩
      rcases List.mem_append.mp member with member | member
      · exact ((scanned.gap_lt_cursor nonempty gap member).trans room).le
      · rw [List.mem_singleton.mp member]
    · intro time first last
      rw [seen]
      rcases lt_or_ge time next.start with below | above
      · rw [complement time first below]
        exact not_congr (or_iff_left fun ⟨reached, _⟩ => absurd below (not_lt_of_ge reached)).symm
      · have inside : time < next.stop := by
          rcases lt_max_iff.mp last with short | inside
          · exact absurd (short.trans room) (not_lt_of_ge above)
          · exact inside
        refine iff_of_false ?_ (not_not_intro (.inr ⟨above, inside⟩))
        rw [covers_append, covers_singleton]
        rintro (⟨gap, member, _, short⟩ | ⟨_, short⟩)
        · have stops := (scanned.gap_lt_cursor nonempty gap member).trans room
          exact absurd (short.trans stops) (not_lt_of_ge above)
        · exact absurd short (not_lt_of_ge above)
  · rw [if_neg room]
    refine ⟨scanned.apart, scanned.after, ?_, begun, ends, ?_⟩
    · intro gap member
      obtain ⟨extent, inside, below⟩ := scanned.before gap member
      exact ⟨extent, List.mem_append_left _ inside, below⟩
    · intro time first last
      rw [seen]
      rcases lt_or_ge time state.2 with below | above
      · rw [scanned.complement time first below, not_or]
        refine ⟨fun free => ⟨free, ?_⟩, And.left⟩
        rintro ⟨reached, _⟩
        -- A gap ends in front of an extent that starts no later than the next one.
        obtain ⟨gap, member, _, short⟩ := (scanned.complement time first below).mpr free
        obtain ⟨extent, inside, bound⟩ := scanned.before gap member
        exact absurd (short.trans_le (bound.trans (sorted extent inside))) (not_lt_of_ge reached)
      · have inside : time < next.stop := by
          rcases lt_max_iff.mp last with short | inside
          · exact absurd short (not_lt_of_ge above)
          · exact inside
        refine iff_of_false ?_ (not_not_intro (.inr ⟨(not_lt.mp room).trans above, inside⟩))
        rintro ⟨gap, member, _, short⟩
        exact absurd (short.trans (scanned.gap_lt_cursor nonempty gap member)) (not_lt_of_ge above)

theorem scanned_of_sorted (nonempty : ∀ extent ∈ extents, extent.start < extent.stop)
    (sorted : extents.Pairwise fun first second => first.start ≤ second.start) :
    Scanned lower extents (extents.foldl Extent.leave ([], lower)) := by
  induction extents using List.reverseRecOn with
  | nil =>
      refine ⟨⟨by simp, .nil⟩, by simp, by simp, le_refl lower, by simp, ?_⟩
      intro time first last
      exact absurd last (not_lt_of_ge first)
  | append_singleton front next ih =>
      obtain ⟨ordered, _, before⟩ := List.pairwise_append.mp sorted
      have long : ∀ extent ∈ front, extent.start < extent.stop := fun extent member =>
        nonempty extent (List.mem_append_left _ member)
      rw [List.foldl_concat]
      exact (ih long ordered).leave long fun extent member => before extent member next (List.mem_singleton_self _)

/-- The gaps are apart, and they are the times of the range that the extents leave out. -/
theorem gaps_spec (lower : Time) (nonempty : ∀ extent ∈ extents, extent.start < extent.stop)
    (sorted : extents.Pairwise fun first second => first.start ≤ second.start)
    (inside : ∀ extent ∈ extents, extent.stop ≤ upper) :
    Apart (gaps lower upper extents) ∧
      (∀ gap ∈ gaps lower upper extents, lower ≤ gap.start ∧ gap.stop ≤ upper) ∧
      ∀ time, lower ≤ time → time < upper → (Covers (gaps lower upper extents) time ↔ ¬ Covers extents time) := by
  have scanned : Scanned lower extents (extents.foldl Extent.leave ([], lower)) := scanned_of_sorted nonempty sorted
  have bounded : ∀ gap ∈ (extents.foldl Extent.leave ([], lower)).1, lower ≤ gap.start ∧ gap.stop ≤ upper := by
    intro gap member
    obtain ⟨extent, member', below⟩ := scanned.before gap member
    exact ⟨scanned.after gap member, (below.trans (nonempty extent member').le).trans (inside extent member')⟩
  rw [gaps]
  by_cases room : (extents.foldl Extent.leave ([], lower)).2 < upper
  · rw [if_pos room]
    obtain ⟨apart, complement⟩ := scanned.fill nonempty room
    refine ⟨apart, ?_, complement⟩
    intro gap member
    rcases List.mem_append.mp member with member | member
    · exact bounded gap member
    · rw [List.mem_singleton.mp member]
      exact ⟨scanned.begun, le_refl upper⟩
  · rw [if_neg room]
    refine ⟨scanned.apart, bounded, ?_⟩
    intro time first last
    exact scanned.complement time first (last.trans_le (not_lt.mp room))

/-- There is no gap exactly where the extents have every time of the range. -/
theorem gaps_eq_nil_iff (lower : Time) (nonempty : ∀ extent ∈ extents, extent.start < extent.stop)
    (sorted : extents.Pairwise fun first second => first.start ≤ second.start)
    (inside : ∀ extent ∈ extents, extent.stop ≤ upper) :
    gaps lower upper extents = [] ↔ ∀ time, lower ≤ time → time < upper → Covers extents time := by
  obtain ⟨apart, bounded, complement⟩ := gaps_spec lower nonempty sorted inside
  constructor
  · intro none time first last
    have free := complement time first last
    rw [none] at free
    exact not_not.mp (mt free.mpr covers_nil)
  · intro whole
    rw [List.eq_nil_iff_forall_not_mem]
    intro gap member
    have long := apart.nonempty gap member
    have first := (bounded gap member).1
    have last := long.trans_le (bounded gap member).2
    exact (complement gap.start first last).mp ⟨gap, member, le_refl _, long⟩ (whole gap.start first last)

end Gaps

end Extent

end Foundation
