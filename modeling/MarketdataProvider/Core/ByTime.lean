import MarketdataProvider.Core.Bar
import MarketdataProvider.Foundation.Keyed

namespace MarketdataProvider

open Foundation

variable {F : Type}

/-- The bar that opens at a time. -/
def barAt (bars : List (MarketBar F)) (time : Int) : Option (MarketBar F) :=
  Keyed.find (fun bar : MarketBar F => bar.time) bars time

/-- `by_time[bar.time] = bar` for each bar in turn, and then the bars by time. -/
def mergeByTime (existing incoming : List (MarketBar F)) : List (MarketBar F) :=
  sortByTime (Keyed.upsertAll (fun bar : MarketBar F => bar.time) existing incoming)

variable {existing incoming : List (MarketBar F)} {bar : MarketBar F} {time : Int}

theorem barAt_eq_some_iff (sorted : existing.Pairwise (·.time < ·.time)) :
    barAt existing time = some bar ↔ bar ∈ existing ∧ bar.time = time :=
  Keyed.find_eq_some_iff (Keyed.nodup_of_sorted sorted)

theorem barAt_eq_none_iff : barAt existing time = none ↔ ∀ bar ∈ existing, bar.time ≠ time :=
  Keyed.find_eq_none_iff

theorem barAt_isSome_iff : (barAt existing time).isSome ↔ time ∈ existing.map (·.time) := by
  rw [barAt, Keyed.find_isSome_iff, List.mem_map]

theorem barAt_append (front back : List (MarketBar F)) :
    barAt (front ++ back) time = (barAt front time).or (barAt back time) :=
  Keyed.find_append front back

theorem mem_of_barAt (found : barAt existing time = some bar) : bar ∈ existing :=
  Keyed.mem_of_find found

theorem time_of_barAt (found : barAt existing time = some bar) : bar.time = time := by
  have keyed := Keyed.key_of_find found
  exact keyed

/-- The last bar is the latest. -/
theorem time_le_getLast {last : MarketBar F} (sorted : existing.Pairwise (·.time < ·.time))
    (ends : existing.getLast? = some last) (member : bar ∈ existing) : bar.time ≤ last.time :=
  @Keyed.le_getLast Int (MarketBar F) _ (fun item => item.time) existing bar last sorted ends member

theorem mergeByTime_sorted (distinct : (existing.map (·.time)).Nodup) :
    (mergeByTime existing incoming).Pairwise (·.time < ·.time) :=
  Keyed.sorted_insertionSort (Keyed.nodup_upsertAll distinct)

/-- The last incoming bar of a time, or else the bar that was there. -/
theorem barAt_mergeByTime (distinct : (existing.map (·.time)).Nodup) :
    barAt (mergeByTime existing incoming) time =
      (barAt incoming.reverse time).or (barAt existing time) := by
  rw [barAt, mergeByTime, sortByTime,
    Keyed.find_perm (Keyed.nodup_upsertAll distinct) (List.perm_insertionSort _ _)]
  exact Keyed.find_upsertAll

theorem mem_mergeByTime (member : bar ∈ mergeByTime existing incoming) :
    bar ∈ incoming ∨ bar ∈ existing :=
  Keyed.mem_upsertAll (mem_sortByTime.mp member)

end MarketdataProvider
