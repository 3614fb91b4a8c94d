import MarketdataProvider.Core.ByTime
import MarketdataProvider.Exchanges.ArchiveMerge

namespace MarketdataProvider

open Foundation

section Rows

variable [PyText] {F : Type} [PyFloat F] {symbol market timeframe : String} {duration start stop : Int}
  {row : List String} {bar : MarketBar F}

/-- The grid cell of a row with an open time. -/
def rowCell (duration : Int) (row : List String) : Option Int :=
  (pyInt (row.headD "").toList).map fun epoch => epochToMs epoch / duration * duration

/-- Only the cell of a row decides whether it is read. -/
theorem archiveRowBar_eq (given : duration ≠ 0) :
    archiveRowBar (F := F) symbol market timeframe duration start stop row =
      match rowCell duration row with
      | none => .ok none
      | some cell =>
          if start ≤ cell ∧ cell < stop then
            archiveRowBar symbol market timeframe duration cell (cell + 1) row
          else .ok none := by
  unfold archiveRowBar rowCell
  cases pyInt (row.headD "").toList with
  | none => rfl
  | some epoch =>
      have own (cell : Int) : cell ≤ cell ∧ cell < cell + 1 := ⟨le_rfl, by omega⟩
      simp only [Option.map_some, if_neg given, if_pos (own _)]
      rfl

omit [PyText] in
theorem floatAt_text {index : Nat} {number : F} (read : floatAt row index = .ok number) :
    TextOf row[index]? number := by
  rw [floatAt] at read
  split at read
  · rename_i text here
    rw [PyFloat.parse] at read
    split at read
    · rename_i value parsed
      cases read
      exact ⟨text, here, parsed⟩
    · cases read
  · cases read

/-- The bar of a row lies in its cell, and it keeps the texts of its numbers. -/
theorem archiveRowBar_bar
    (made : archiveRowBar symbol market timeframe duration start stop row = .ok (some bar)) :
    rowCell duration row = some bar.time ∧ start ≤ bar.time ∧ bar.time < stop ∧ bar.Texted := by
  rw [archiveRowBar] at made
  rw [rowCell]
  split at made
  · cases made
  · rename_i epoch read
    split at made
    · cases made
    · dsimp only at made
      split at made
      · rename_i inside
        simp only [bind_eq_ok, pure_eq_ok] at made
        obtain ⟨opening, opens, high, highs, low, lows, close, closes, volume, volumes, same⟩ := made
        cases same
        rw [read]
        exact ⟨rfl, inside.1, inside.2, floatAt_text opens, floatAt_text highs, floatAt_text lows,
          floatAt_text closes, floatAt_text volumes⟩
      · cases made

/-- The bar of a row in a cell; a row of another cell has none. -/
def cellBar (symbol market timeframe : String) (duration cell : Int) (row : List String) :
    Option (MarketBar F) :=
  if row = [] then none
  else (archiveRowBar symbol market timeframe duration cell (cell + 1) row).toOption.join

/-- The bars of the rows in a cell, in the order of the file. -/
def cellBars (symbol market timeframe : String) (duration cell : Int) (rows : List (List String)) :
    List (MarketBar F) :=
  rows.filterMap (cellBar symbol market timeframe duration cell)

/-- A row that is empty, or that is read or passed over without an error. -/
def RowParses (F : Type) [PyFloat F] (symbol market timeframe : String) (duration start stop : Int)
    (row : List String) : Prop :=
  row = [] ∨ ∃ bar : Option (MarketBar F),
    archiveRowBar symbol market timeframe duration start stop row = .ok bar

/-- In its range, a row is seen in its own cell only. -/
theorem cellBar_eq (given : duration ≠ 0) {read : Option (MarketBar F)} (filled : row ≠ [])
    (made : archiveRowBar symbol market timeframe duration start stop row = .ok read) {cell : Int}
    (inside : start ≤ cell ∧ cell < stop) :
    cellBar symbol market timeframe duration cell row = read.filter (·.time = cell) := by
  rw [cellBar, if_neg filled, archiveRowBar_eq given]
  rw [archiveRowBar_eq given] at made
  cases located : rowCell duration row with
  | none =>
      rw [located] at made
      cases made
      rfl
  | some own =>
      rw [located] at made
      dsimp only at made ⊢
      by_cases here : own = cell
      · subst here
        rw [if_pos inside] at made
        rw [if_pos ⟨le_rfl, by omega⟩, made]
        cases read with
        | none => rfl
        | some bar =>
            have time := (archiveRowBar_bar made).1
            rw [located, Option.some.injEq] at time
            rw [Option.filter_some, if_pos (by rw [← time]; simp)]
            rfl
      · have elsewhere : ¬ (cell ≤ own ∧ own < cell + 1) := by omega
        rw [if_neg elsewhere]
        split at made
        · cases read with
          | none => rfl
          | some bar =>
              have time := (archiveRowBar_bar made).1
              rw [located, Option.some.injEq] at time
              rw [Option.filter_some, if_neg (by rw [← time]; simpa using here)]
              rfl
        · cases made
          rfl

end Rows

section Load

variable [PyText] {F : Type} [PyFloat F] {D : Type} [PyDecimal D] [DecimalFloat D F]
  {symbol market timeframe : String} {duration start middle stop : Int} {rows : List (List String)}

theorem cellBars_texted (cell : Int) (rows : List (List String)) :
    ∀ bar ∈ cellBars (F := F) symbol market timeframe duration cell rows,
      bar.time = cell ∧ bar.Texted := by
  intro bar member
  obtain ⟨row, -, made⟩ := List.mem_filterMap.mp member
  rw [cellBar] at made
  split at made
  · cases made
  · cases read : archiveRowBar (F := F) symbol market timeframe duration cell (cell + 1) row with
    | error error =>
        rw [read] at made
        cases made
    | ok known =>
        rw [read] at made
        obtain rfl : known = some bar := made
        obtain ⟨-, after, before, texted⟩ := archiveRowBar_bar read
        exact ⟨by omega, texted⟩

theorem cellBars_append (cell : Int) (front back : List (List String)) :
    cellBars (F := F) symbol market timeframe duration cell (front ++ back) =
      cellBars symbol market timeframe duration cell front ++
        cellBars symbol market timeframe duration cell back :=
  List.filterMap_append

/-- A file that is read: its rows parse, and rows that share a cell of the range can be merged. -/
structure FileReads (F D : Type) [PyFloat F] [PyDecimal D] (symbol market timeframe : String)
    (duration start stop : Int) (rows : List (List String)) : Prop where
  parses : ∀ row ∈ rows, RowParses F symbol market timeframe duration start stop row
  merges : ∀ cell, start ≤ cell → cell < stop →
    Mergeable D (cellBars (F := F) symbol market timeframe duration cell rows)

/-- The dictionary holds, for each cell of the range, the merged bars of its rows. -/
structure FoldedCells (D : Type) [PyDecimal D] [DecimalFloat D F] (symbol market timeframe : String)
    (duration start stop : Int) (rows : List (List String)) (byTime : List (MarketBar F)) : Prop where
  distinct : (byTime.map fun bar => bar.time).Nodup
  inside : ∀ bar ∈ byTime, start ≤ bar.time ∧ bar.time < stop
  merged : ∀ cell, start ≤ cell → cell < stop →
    mergeBars D (cellBars symbol market timeframe duration cell rows) =
      .ok (Keyed.find (fun bar : MarketBar F => bar.time) byTime cell)

/-- One more row changes the bar of its cell and no other one, or it cannot be merged into that bar. -/
theorem FoldedCells.add (given : duration ≠ 0) {byTime : List (MarketBar F)} {row : List String}
    (folded : FoldedCells D symbol market timeframe duration start stop rows byTime)
    (parses : RowParses F symbol market timeframe duration start stop row) :
    (∃ after, addArchiveRow D symbol market timeframe duration start stop byTime row = .ok after ∧
      FoldedCells D symbol market timeframe duration start stop (rows ++ [row]) after) ∨
    (∃ error, addArchiveRow D symbol market timeframe duration start stop byTime row = .error error) ∧
      ∃ cell, start ≤ cell ∧ cell < stop ∧ ∃ error,
        mergeBars D (cellBars (F := F) symbol market timeframe duration cell (rows ++ [row])) =
          .error error := by
  have same (none : ∀ cell, start ≤ cell → cell < stop →
      cellBar (F := F) symbol market timeframe duration cell row = .none) :
      FoldedCells D symbol market timeframe duration start stop (rows ++ [row]) byTime := by
    refine ⟨folded.distinct, folded.inside, ?_⟩
    intro cell after before
    have skipped : cellBars (F := F) symbol market timeframe duration cell [row] = [] := by
      rw [cellBars, List.filterMap_cons_none (none cell after before), List.filterMap_nil]
    rw [cellBars_append, skipped, List.append_nil]
    exact folded.merged cell after before
  by_cases filled : row = []
  · refine .inl ⟨byTime, by rw [addArchiveRow, if_pos filled], same ?_⟩
    intro cell _ _
    rw [cellBar, if_pos filled]
  obtain ⟨read, made⟩ := parses.resolve_left filled
  have seen (cell : Int) (after : start ≤ cell) (before : cell < stop) :=
    cellBar_eq given filled made ⟨after, before⟩
  cases read with
  | none =>
      refine .inl ⟨byTime, by rw [addArchiveRow, if_neg filled, made]; rfl, same ?_⟩
      intro cell after before
      rw [seen cell after before]
      rfl
  | some bar =>
      obtain ⟨-, after, before, texted⟩ := archiveRowBar_bar made
      have shown : cellBars (F := F) symbol market timeframe duration bar.time [row] = [bar] := by
        have taken := seen bar.time after before
        rw [Option.filter_some, if_pos (by simp)] at taken
        rw [cellBars, List.filterMap_cons_some taken, List.filterMap_nil]
      have hidden (cell : Int) (behind : start ≤ cell) (ahead : cell < stop) (other : cell ≠ bar.time) :
          cellBars (F := F) symbol market timeframe duration cell [row] = [] := by
        have passed := seen cell behind ahead
        rw [Option.filter_some, if_neg (by simpa using Ne.symm other)] at passed
        rw [cellBars, List.filterMap_cons_none passed, List.filterMap_nil]
      have own : mergeBars D (cellBars (F := F) symbol market timeframe duration bar.time (rows ++ [row])) =
          mergeInto D (Keyed.find (fun known : MarketBar F => known.time) byTime bar.time) bar := by
        have front := folded.merged bar.time after before
        rw [mergeBars] at front
        rw [cellBars_append, shown, mergeBars, List.foldlM_append, front, ok_bind, List.foldlM_cons]
        cases mergeInto D (Keyed.find (fun known : MarketBar F => known.time) byTime bar.time) bar <;> rfl
      have upserted {merged : MarketBar F} (time : merged.time = bar.time)
          (joined : mergeInto D (Keyed.find (fun known : MarketBar F => known.time) byTime bar.time) bar =
            .ok (some merged)) :
          FoldedCells D symbol market timeframe duration start stop (rows ++ [row])
            (Keyed.upsert (fun known : MarketBar F => known.time) byTime merged) := by
        refine ⟨Keyed.nodup_upsert folded.distinct, ?_, ?_⟩
        · intro other member
          rcases Keyed.mem_upsert member with rfl | old
          · omega
          · exact folded.inside other old
        · intro cell behind ahead
          rw [Keyed.find_upsert, time]
          by_cases here : cell = bar.time
          · rw [here, if_pos rfl, own, joined]
          · rw [if_neg here, cellBars_append, hidden cell behind ahead here, List.append_nil]
            exact folded.merged cell behind ahead
      rw [addArchiveRow, if_neg filled, made, ok_bind]
      cases found : Keyed.find (fun known : MarketBar F => known.time) byTime bar.time with
      | none =>
          left
          rw [found] at upserted
          refine ⟨_, ?_, upserted rfl rfl⟩
          simp only [found]
          rfl
      | some current =>
          rw [found, mergeInto] at own upserted
          simp only [found]
          cases joined : mergeSameOpenTime D current bar with
          | error error =>
              rw [joined] at own
              exact .inr ⟨⟨error, rfl⟩, bar.time, after, before, error, own⟩
          | ok merged =>
              rw [joined] at upserted
              left
              exact ⟨_, rfl, upserted ((mergeSameOpenTime_time joined).trans (time_of_barAt found)) rfl⟩

/-- Strictly ascending bars of the range, one for each cell with a row, each the fold of its rows. -/
structure CleanFold (D : Type) [PyDecimal D] [DecimalFloat D F] (symbol market timeframe : String)
    (duration start stop : Int) (rows : List (List String)) (bars : List (MarketBar F)) : Prop where
  ascending : bars.Pairwise (·.time < ·.time)
  cells : ∀ cell, (∃ bar ∈ bars, bar.time = cell) ↔ (start ≤ cell ∧ cell < stop) ∧
    cellBars (F := F) symbol market timeframe duration cell rows ≠ []
  folds : ∀ bar ∈ bars,
    (∀ source ∈ cellBars (F := F) symbol market timeframe duration bar.time rows, source.Numbers) →
      CellBar D (cellBars symbol market timeframe duration bar.time rows) bar

theorem FoldedCells.outside {byTime : List (MarketBar F)} {cell : Int}
    (folded : FoldedCells D symbol market timeframe duration start stop rows byTime)
    (outside : ¬ (start ≤ cell ∧ cell < stop)) : barAt byTime cell = none := by
  rw [barAt_eq_none_iff]
  rintro bar member rfl
  exact outside (folded.inside bar member)

theorem FoldedCells.mergedBar {byTime : List (MarketBar F)}
    (folded : FoldedCells D symbol market timeframe duration start stop rows byTime) {bar : MarketBar F}
    (member : bar ∈ byTime) :
    mergeBars D (cellBars symbol market timeframe duration bar.time rows) = .ok (some bar) := by
  have inside := folded.inside bar member
  rw [folded.merged bar.time inside.1 inside.2]
  exact congrArg Except.ok ((Keyed.find_eq_some_iff folded.distinct).mpr ⟨member, rfl⟩)

/-- A sorted dictionary has a bar at each cell with a row. -/
theorem FoldedCells.cells {byTime : List (MarketBar F)}
    (folded : FoldedCells D symbol market timeframe duration start stop rows byTime) (cell : Int) :
    (∃ bar ∈ sortByTime byTime, bar.time = cell) ↔ (start ≤ cell ∧ cell < stop) ∧
      cellBars (F := F) symbol market timeframe duration cell rows ≠ [] := by
  constructor
  · rintro ⟨bar, member, rfl⟩
    have member := mem_sortByTime.mp member
    refine ⟨folded.inside bar member, ?_⟩
    intro none
    have merged := folded.mergedBar member
    rw [none] at merged
    cases merged
  · rintro ⟨inside, some⟩
    have merged := folded.merged cell inside.1 inside.2
    cases found : Keyed.find (fun bar : MarketBar F => bar.time) byTime cell with
    | none =>
        rw [found] at merged
        exact absurd (mergeBars_eq_none.mp merged) some
    | some bar => exact ⟨bar, mem_sortByTime.mpr (Keyed.mem_of_find found), time_of_barAt found⟩

/-- A sorted dictionary of cells is a clean fold of the rows. -/
theorem FoldedCells.clean (texts : DecimalReading D F) (order : NumberOrder F)
    (rounding : DecimalRounding D F) {byTime : List (MarketBar F)}
    (folded : FoldedCells D symbol market timeframe duration start stop rows byTime) :
    CleanFold D symbol market timeframe duration start stop rows (sortByTime byTime) where
  ascending := Keyed.sorted_insertionSort folded.distinct
  cells := folded.cells
  folds bar member numbers :=
    cellBar_of_merged texts order rounding
      (fun source inside => (cellBars_texted bar.time rows source inside).2) numbers
      (folded.mergedBar (mem_sortByTime.mp member))

variable {interval : String}

theorem RowParses.narrow (given : duration ≠ 0) {row : List String} {low high : Int}
    (parses : RowParses F symbol market timeframe duration start stop row) (after : start ≤ low)
    (before : high ≤ stop) : RowParses F symbol market timeframe duration low high row := by
  rcases parses with empty | ⟨read, made⟩
  · exact .inl empty
  · rw [archiveRowBar_eq given] at made
    right
    rw [archiveRowBar_eq given]
    cases located : rowCell duration row with
    | none => exact ⟨none, rfl⟩
    | some cell =>
        rw [located] at made
        dsimp only at made ⊢
        split
        · rename_i inside
          rw [if_pos (by omega)] at made
          exact ⟨read, made⟩
        · exact ⟨none, rfl⟩

omit [DecimalFloat D F] in
theorem FileReads.narrow (given : duration ≠ 0) {low high : Int}
    (reads : FileReads F D symbol market timeframe duration start stop rows) (after : start ≤ low)
    (before : high ≤ stop) : FileReads F D symbol market timeframe duration low high rows where
  parses row member := (reads.parses row member).narrow given after before
  merges cell behind ahead := reads.merges cell (by omega) (by omega)

end Load

end MarketdataProvider
