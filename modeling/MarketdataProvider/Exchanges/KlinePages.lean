import MarketdataProvider.Core.Intervals
import MarketdataProvider.Core.Reference
import MarketdataProvider.Core.Symbols
import MarketdataProvider.Exchanges.KlineRows
import MarketdataProvider.Foundation.Keyed
import MarketdataProvider.Foundation.Spans

namespace MarketdataProvider

open Foundation

section Pages

variable [PyText] {F : Type} [PyFloat F]

def nextOpenTimeMs (openTime : Int) (tf : String) : Except PyError Int := do
  return (← closeTimeMs openTime tf) + 1

/-- A page: the number of its raw rows, and the bars that the normalizer keeps of them. -/
structure KlinePage (F : Type) where
  rows : Nat
  bars : List (MarketBar F)

/-- The answer to the request behind a cursor. -/
abbrev KlineFetch (F : Type) := Option Int → Int → Except PyError (KlinePage F)

omit [PyText] [PyFloat F] in
/-- `min(limit, max_bars or limit)` -/
def perPage (limit : Int) (maxBars : Option Int) : Int := min limit (intOr maxBars limit)

/-- The limit of the next request, or `none` when no bars remain to be read. -/
def nextLimit (perPage : Int) (maxBars : Option Int) (taken : Nat) : Option Int :=
  match maxBars with
  | none => some perPage
  | some count => if count - taken ≤ 0 then none else some (min perPage (count - taken))

def inAskedRange (start stop : Option Int) (bar : MarketBar F) : Bool :=
  start.all (· ≤ bar.time) && stop.all (bar.time < ·)

/-- The loop over the pages of both exchanges; it is `none` when the fuel does not suffice. -/
def klinePages (fetch : KlineFetch F) (stalled timeframe : String) (start stop : Option Int)
    (perPage : Int) (maxBars : Option Int) : Nat → Option Int → List (MarketBar F) →
      Option (Except PyError (List (MarketBar F)))
  | 0, _, _ => none
  | fuel + 1, cursor, out =>
      match nextLimit perPage maxBars out.length with
      | none => some (.ok out)
      | some limit =>
          match fetch cursor limit with
          | .error error => some (.error error)
          | .ok payload =>
              let page := payload.bars.filter (inAskedRange start stop)
              match page.getLast? with
              | none => some (.ok out)
              | some last =>
                  if payload.rows < limit then some (.ok (out ++ page))
                  else
                    match nextOpenTimeMs last.time timeframe with
                    | .error error => some (.error error)
                    | .ok next =>
                        if cursor.any (next ≤ ·) then
                          some (.error (.mdPaginationStalled stalled [("cursor", .int next)]))
                        else if stop.any (· ≤ next) then some (.ok (out ++ page))
                        else klinePages fetch stalled timeframe start stop perPage maxBars fuel
                          (some next) (out ++ page)

/-- `bars[:max_bars]`, where a negative number drops bars from the end. -/
def firstBars (maxBars : Option Int) (bars : List (MarketBar F)) : List (MarketBar F) :=
  match maxBars with
  | none => bars
  | some count => if count < 0 then bars.take (bars.length - count.natAbs) else bars.take count.toNat

/-- `by_time`, the bars of its sorted keys, and their check -/
def finishPages (maxBars : Option Int) (out : List (MarketBar F)) :
    Except PyError (List (MarketBar F)) := do
  let final := firstBars maxBars (Keyed.byKey (fun bar : MarketBar F => bar.time) out)
  validateBars (final.map MarketBar.toBar)
  return final

end Pages

section History

variable [PyText] {F : Type} [PyFloat F]

/-- A kline of an exchange: its row, the bar that the row stands for, and its close time. -/
structure Kline (F : Type) where
  row : List Cell
  bar : MarketBar F
  closeTime : Int

/-- Klines that a normalizer reads, each with the close time of the calendar, and one behind the
other; klines may be missing between them. -/
structure KlineHistory (parse : List Cell → Except PyError (MarketBar F)) (timeframe : String)
    (history : List (Kline F)) : Prop where
  read : ∀ kline ∈ history, parse kline.row = .ok kline.bar
  wellFormed : ∀ kline ∈ history, kline.bar.toBar.WellFormed
  closes : ∀ kline ∈ history, kline.bar.timeClose = some kline.closeTime
  calendar : ∀ kline ∈ history, closeTimeMs kline.bar.time timeframe = .ok kline.closeTime
  apart : history.Pairwise fun left right => left.closeTime < right.bar.time

/-- The klines of `[start, stop)`. -/
def klinesWithin (start stop : Int) (history : List (Kline F)) : List (Kline F) :=
  history.filter fun kline => start ≤ kline.bar.time ∧ kline.bar.time < stop

/-- The klines that are closed at the server's time. -/
def closedKlines (serverTime : Int) (history : List (Kline F)) : List (Kline F) :=
  Spans.ended Kline.closeTime serverTime history

/-- The bars of closed klines, as a caller gets them. -/
def closedBars (serverTime : Int) (history : List (Kline F)) : List (MarketBar F) :=
  (closedKlines serverTime history).map Kline.bar

def firstKlines (maxBars : Option Int) (bars : List (MarketBar F)) : List (MarketBar F) :=
  match maxBars with
  | none => bars
  | some count => bars.take count.toNat

variable {parse : List Cell → Except PyError (MarketBar F)} {timeframe : String}
  {history : List (Kline F)} {start stop cursor serverTime : Int}

theorem KlineHistory.sublist (klines : KlineHistory parse timeframe history) {part : List (Kline F)}
    (sublist : part.Sublist history) : KlineHistory parse timeframe part where
  read kline member := klines.read kline (sublist.subset member)
  wellFormed kline member := klines.wellFormed kline (sublist.subset member)
  closes kline member := klines.closes kline (sublist.subset member)
  calendar kline member := klines.calendar kline (sublist.subset member)
  apart := klines.apart.sublist sublist

theorem KlineHistory.within (klines : KlineHistory parse timeframe history) (start stop : Int) :
    KlineHistory parse timeframe (klinesWithin start stop history) :=
  klines.sublist List.filter_sublist

theorem KlineHistory.ordered (klines : KlineHistory parse timeframe history) :
    Spans.Ordered (fun kline : Kline F => kline.bar.time) Kline.closeTime history where
  spans kline member := (klines.wellFormed kline member).timeClose _ (klines.closes kline member)
  apart := klines.apart

theorem KlineHistory.ascending (klines : KlineHistory parse timeframe history) :
    (history.map Kline.bar).Pairwise (·.time < ·.time) :=
  List.pairwise_map.mpr klines.ordered.ascending

theorem KlineHistory.valid (klines : KlineHistory parse timeframe history) {bars : List (MarketBar F)}
    (sublist : bars.Sublist (history.map Kline.bar)) :
    validateBars (bars.map MarketBar.toBar) = .ok () := by
  rw [validateBars_ok_iff, List.pairwise_map]
  refine ⟨klines.ascending.sublist sublist, ?_⟩
  intro bar member
  obtain ⟨market, inside, rfl⟩ := List.mem_map.mp member
  obtain ⟨kline, source, rfl⟩ := List.mem_map.mp (sublist.subset inside)
  exact klines.wellFormed kline source

omit [PyText] [PyFloat F] in
theorem closedBars_append (front back : List (Kline F)) :
    closedBars serverTime (front ++ back) = closedBars serverTime front ++ closedBars serverTime back := by
  rw [closedBars, closedKlines, Spans.ended_append, List.map_append]
  rfl

omit [PyText] [PyFloat F] in
theorem closedBars_sublist : (closedBars serverTime history).Sublist (history.map Kline.bar) :=
  List.filter_sublist.map Kline.bar

omit [PyText] [PyFloat F] in
theorem closedBars_eq_nil_iff : closedBars serverTime history = [] ↔ closedKlines serverTime history = [] :=
  List.map_eq_nil_iff

theorem excludeOpenCandle_klines (klines : KlineHistory parse timeframe history) (serverTime : Int) :
    excludeOpenCandle (history.map Kline.bar) (some serverTime) = .ok (closedBars serverTime history) := by
  induction history using List.reverseRecOn with
  | nil => rfl
  | append_singleton front kline ih =>
      have rest := ih (klines.sublist (List.sublist_append_left front [kline]))
      have closes := klines.closes kline (by simp)
      simp only [excludeOpenCandle] at rest ⊢
      rw [List.map_append, List.foldlM_append, rest, ok_bind, closedBars_append]
      simp only [List.map_cons, List.map_nil, List.foldlM_cons, List.foldlM_nil, closes, ok_bind]
      by_cases past : kline.closeTime ≤ serverTime
      · simp [closedBars, closedKlines, Spans.ended, past]
      · simp [closedBars, closedKlines, Spans.ended, past]

omit [PyText] [PyFloat F] in
/-- Bars of different times have one order. -/
theorem sortByTime_of_perm {bars ascending : List (MarketBar F)}
    (sorted : ascending.Pairwise (·.time < ·.time)) (same : bars.Perm ascending) :
    sortByTime bars = ascending := by
  have distinct : (bars.map (·.time)).Nodup :=
    (same.map _).nodup_iff.mpr (Keyed.nodup_of_sorted sorted)
  apply List.Perm.eq_of_pairwise _ (Keyed.sorted_insertionSort distinct) sorted
    ((List.perm_insertionSort _ bars).trans same)
  intro left right _ _ before after
  exact absurd before (lt_asymm after)

omit [PyText] [PyFloat F] in
/-- A part of the klines has the same closed bars when it has the same closed klines. -/
theorem closedBars_eq_iff {part : List (Kline F)} (sublist : part.Sublist history) :
    closedBars serverTime part = closedBars serverTime history ↔
      closedKlines serverTime part = closedKlines serverTime history := by
  constructor
  · intro same
    have lengths := congrArg List.length same
    simp only [closedBars, List.length_map] at lengths
    exact (sublist.filter _).eq_of_length lengths
  · exact congrArg (List.map Kline.bar)

/-- The last steps of a normalizer keep the closed klines, whatever the order of the rows. -/
theorem finishKlines_klines (klines : KlineHistory parse timeframe history) (serverTime : Int)
    {bars : List (MarketBar F)} (same : bars.Perm (history.map Kline.bar)) :
    finishKlines bars (some serverTime) false = .ok (closedBars serverTime history) := by
  have sorted := sortByTime_of_perm klines.ascending same
  have kept := excludeOpenCandle_klines klines serverTime
  rw [finishKlines, sorted, keptKlines, if_neg Bool.false_ne_true, kept, ok_bind,
    klines.valid closedBars_sublist, ok_bind]
  rfl

omit [PyText] [PyFloat F] in
/-- The klines of the asked range start at the cursor. -/
theorem inAskedRange_of_klinesWithin (from_start : start ≤ cursor) {part : List (Kline F)}
    (sublist : part.Sublist (klinesWithin cursor stop history)) :
    (closedBars serverTime part).filter (inAskedRange (some start) (some stop)) = closedBars serverTime part := by
  rw [List.filter_eq_self]
  intro bar member
  obtain ⟨kline, inside, rfl⟩ := List.mem_map.mp member
  have asked := (List.mem_filter.mp (sublist.subset (List.mem_of_mem_filter inside))).2
  rw [decide_eq_true_eq] at asked
  simp only [inAskedRange, Option.all_some, Bool.and_eq_true, decide_eq_true_eq]
  omega

omit [PyText] [PyFloat F] in
/-- The klines behind the close time of one are those that the next request asks for. -/
theorem klinesWithin_behind {last : Kline F} (later : cursor ≤ last.closeTime) :
    klinesWithin (last.closeTime + 1) stop history =
      Spans.behind (fun kline : Kline F => kline.bar.time) Kline.closeTime last
        (klinesWithin cursor stop history) := by
  rw [Spans.behind, klinesWithin, klinesWithin, List.filter_filter]
  apply List.filter_congr
  intro kline _
  rw [← Bool.decide_and]
  apply decide_eq_decide.mpr
  omega

omit [PyText] [PyFloat F] in
theorem klinesWithin_eq_nil (passed : stop ≤ cursor) : klinesWithin cursor stop history = [] := by
  rw [klinesWithin, List.filter_eq_nil_iff]
  intro kline _
  rw [decide_eq_true_eq]
  omega

theorem nextOpenTimeMs_kline (klines : KlineHistory parse timeframe history) {kline : Kline F}
    (member : kline ∈ history) : nextOpenTimeMs kline.bar.time timeframe = .ok (kline.closeTime + 1) := by
  rw [nextOpenTimeMs, klines.calendar kline member]
  rfl

omit [PyText] [PyFloat F] in
/-- The last bar of a page is that of its last closed kline. -/
theorem getLast_closedBars {page : List (Kline F)} {bar : MarketBar F}
    (ends : (closedBars serverTime page).getLast? = some bar) :
    ∃ kline ∈ page, (closedKlines serverTime page).getLast? = some kline ∧ kline.bar = bar := by
  rw [closedBars, List.getLast?_map, Option.map_eq_some_iff] at ends
  obtain ⟨kline, last, same⟩ := ends
  exact ⟨kline, List.mem_of_mem_filter (List.mem_of_getLast? last), last, same⟩

/-- A page as the loop sees it: all its rows count, and its closed klines are kept. -/
def pageOf (serverTime : Int) (page : List (Kline F)) : KlinePage F where
  rows := page.length
  bars := closedBars serverTime page

omit [PyText] [PyFloat F] in
theorem firstKlines_append {maxBars : Option Int} {front : List (MarketBar F)}
    (fits : ∀ count, maxBars = some count → front.length ≤ count) (back : List (MarketBar F)) :
    firstKlines maxBars (front ++ back) =
      front ++ firstKlines (maxBars.map fun count => count - front.length) back := by
  cases maxBars with
  | none => rfl
  | some count =>
      have room := fits count rfl
      simp only [firstKlines, Option.map_some]
      rw [List.take_append, List.take_of_length_le (by omega)]
      congr 2
      omega

omit [PyText] [PyFloat F] in
theorem firstKlines_eq_self {maxBars : Option Int} {bars : List (MarketBar F)}
    (fits : ∀ count, maxBars = some count → bars.length ≤ count) : firstKlines maxBars bars = bars := by
  cases maxBars with
  | none => rfl
  | some count =>
      have room := fits count rfl
      exact List.take_of_length_le (by omega)

omit [PyText] [PyFloat F] in
theorem firstKlines_nil (maxBars : Option Int) : firstKlines maxBars ([] : List (MarketBar F)) = [] := by
  cases maxBars with
  | none => rfl
  | some count => exact List.take_nil

omit [PyText] [PyFloat F] in
theorem firstKlines_sublist (maxBars : Option Int) (bars : List (MarketBar F)) :
    (firstKlines maxBars bars).Sublist bars := by
  cases maxBars with
  | none => exact List.Sublist.refl bars
  | some count => exact List.take_sublist _ bars

omit [PyText] [PyFloat F] in
/-- Bars that are not too many are not cut again. -/
theorem firstBars_firstKlines (maxBars : Option Int) (bars : List (MarketBar F)) :
    firstBars maxBars (firstKlines maxBars bars) = firstKlines maxBars bars := by
  cases maxBars with
  | none => rfl
  | some count =>
      simp only [firstBars, firstKlines]
      split
      · rename_i negative
        rw [Int.toNat_of_nonpos negative.le, List.take_zero, List.take_nil]
      · rw [List.take_take, min_self]

omit [PyText] [PyFloat F] in
/-- No bars remain to be read, and none are added. -/
theorem firstKlines_of_none {size : Int} {maxBars : Option Int} {taken : Nat}
    (none : nextLimit size maxBars taken = none) (bars : List (MarketBar F)) :
    firstKlines (maxBars.map fun count => count - taken) bars = [] := by
  cases maxBars with
  | none => cases none
  | some count =>
      simp only [nextLimit] at none
      split at none
      · rename_i past
        simp only [Option.map_some, firstKlines, Int.toNat_of_nonpos past, List.take_zero]
      · cases none

omit [PyText] in
/-- A request asks for one row at least, and for as many as may still be taken at most. -/
theorem nextLimit_bounds {limit size : Int} {maxBars : Option Int} {taken : Nat} (positive : 1 ≤ limit)
    (next : nextLimit (perPage limit maxBars) maxBars taken = some size) :
    1 ≤ size ∧ ∀ count, maxBars = some count → size ≤ count - taken := by
  cases maxBars with
  | none =>
      simp only [nextLimit, perPage, intOr, min_self, Option.some.injEq] at next
      exact ⟨by omega, by simp⟩
  | some count =>
      simp only [nextLimit] at next
      split at next
      · cases next
      · rename_i left
        have given : ¬ count = 0 := by omega
        simp only [perPage, intOr, if_neg given, Option.some.injEq] at next
        constructor
        · omega
        · intro other same
          cases same
          omega

end History

section Runs

variable [PyText] {F : Type} [PyFloat F] {parse : List Cell → Except PyError (MarketBar F)}
  {fetch : KlineFetch F} {timeframe : String} {history : List (Kline F)}
  {start stop cursor serverTime limit : Int} (stalled : String) (maxBars : Option Int)

/-- A server that answers with the first klines behind the cursor is read to the end. -/
theorem klinePages_forward (klines : KlineHistory parse timeframe history) (positive : 1 ≤ limit)
    (answers : ∀ cursor size, fetch (some cursor) size =
      .ok (pageOf serverTime ((klinesWithin cursor stop history).take size.toNat)))
    {fuel : Nat} (out : List (MarketBar F)) (from_start : start ≤ cursor)
    (enough : (klinesWithin cursor stop history).length < fuel) :
    klinePages fetch stalled timeframe (some start) (some stop) (perPage limit maxBars) maxBars fuel
        (some cursor) out =
      some (.ok (out ++ firstKlines (maxBars.map fun count => count - out.length)
        (closedBars serverTime (klinesWithin cursor stop history)))) := by
  induction fuel generalizing cursor out with
  | zero => omega
  | succ fuel ih =>
      have inside := klines.within cursor stop
      unfold klinePages
      split
      · rename_i none
        rw [firstKlines_of_none none, List.append_nil]
      rename_i size next
      obtain ⟨one, room⟩ := nextLimit_bounds positive next
      simp only [answers, pageOf]
      rw [inAskedRange_of_klinesWithin from_start (List.take_sublist _ _)]
      split
      · rename_i none
        have nothing := closedBars_eq_nil_iff.mp (List.getLast?_eq_none_iff.mp none)
        have all := Spans.ended_eq_nil_of_take inside.ordered (by omega) nothing
        rw [closedBars_eq_nil_iff.mpr all, firstKlines_nil, List.append_nil]
      rename_i bar ends
      obtain ⟨last, member, closing, rfl⟩ := getLast_closedBars ends
      have here := List.mem_of_mem_take member
      have asked := (List.mem_filter.mp here).2
      rw [decide_eq_true_eq] at asked
      have spans := inside.ordered.spans last here
      -- The page and what the server has behind it.
      have split := Spans.ended_take inside.ordered closing
      rw [← klinesWithin_behind (asked.1.trans spans)] at split
      have whole : closedBars serverTime (klinesWithin cursor stop history) =
          closedBars serverTime ((klinesWithin cursor stop history).take size.toNat) ++
            closedBars serverTime (klinesWithin (last.closeTime + 1) stop history) := by
        rw [closedBars, closedKlines, split, List.map_append]
        rfl
      have few : (closedBars serverTime ((klinesWithin cursor stop history).take size.toNat)).length ≤
          size := by
        have kept := List.length_filter_le (fun kline : Kline F => decide (kline.closeTime ≤ serverTime))
          ((klinesWithin cursor stop history).take size.toNat)
        have taken := List.length_take_le size.toNat (klinesWithin cursor stop history)
        rw [closedBars, List.length_map, closedKlines, Spans.ended]
        omega
      have fits : ∀ count, maxBars.map (fun count => count - (out.length : Int)) = some count →
          ((closedBars serverTime ((klinesWithin cursor stop history).take size.toNat)).length : Int) ≤
            count := by
        intro count given
        obtain ⟨total, known, rfl⟩ := Option.map_eq_some_iff.mp given
        exact few.trans (room total known)
      split
      · rename_i short
        have complete : (klinesWithin cursor stop history).take size.toNat =
            klinesWithin cursor stop history := by
          apply List.take_of_length_le
          rw [List.length_take] at short
          omega
        rw [complete] at fits ⊢
        rw [firstKlines_eq_self fits]
      rw [nextOpenTimeMs_kline inside here]
      have advances : ¬ last.closeTime + 1 ≤ cursor := by omega
      simp only [Option.any_some, advances, decide_false, Bool.false_eq_true, if_false,
        decide_eq_true_eq]
      split
      · rename_i passed
        rw [klinesWithin_eq_nil passed] at whole
        have none : closedBars serverTime ([] : List (Kline F)) = [] := rfl
        rw [none, List.append_nil] at whole
        rw [whole, firstKlines_eq_self fits]
      · have fewer : (klinesWithin (last.closeTime + 1) stop history).length < fuel := by
          rw [klinesWithin_behind (asked.1.trans spans)]
          have shorter := Spans.length_behind_lt inside.ordered here
          omega
        rw [ih _ (by omega) fewer, whole, firstKlines_append fits, List.append_assoc]
        simp only [Option.map_map, Function.comp_def, List.length_append, Nat.cast_add, Int.sub_sub]

omit [PyFloat F] in
/-- Behind the closed klines of the last page there are none, and the loop ends. -/
theorem klinePages_done {fuel : Nat} (out : List (MarketBar F)) (from_start : start ≤ cursor)
    (answers : ∀ cursor size, fetch (some cursor) size = .ok (pageOf serverTime
      ((klinesWithin cursor stop history).drop ((klinesWithin cursor stop history).length - size.toNat))))
    (none : closedKlines serverTime (klinesWithin cursor stop history) = []) :
    klinePages fetch stalled timeframe (some start) (some stop) limit maxBars (fuel + 1)
      (some cursor) out = some (.ok out) := by
  unfold klinePages
  split
  · rfl
  rename_i size next
  simp only [answers, pageOf]
  rw [inAskedRange_of_klinesWithin from_start (List.drop_sublist _ _)]
  have nothing : closedBars serverTime ((klinesWithin cursor stop history).drop
      ((klinesWithin cursor stop history).length - size.toNat)) = [] := by
    apply closedBars_eq_nil_iff.mpr
    have part := (List.drop_sublist ((klinesWithin cursor stop history).length - size.toNat)
      (klinesWithin cursor stop history)).filter fun kline => decide (kline.closeTime ≤ serverTime)
    rw [closedKlines, Spans.ended] at none
    rw [none] at part
    exact List.sublist_nil.mp part
  rw [nothing]
  rfl

/-- A server that answers with the last klines of the range is read once: of the range, the caller
gets the last page. -/
theorem klinePages_backward (klines : KlineHistory parse timeframe history) (start limit : Int)
    (answers : ∀ cursor size, fetch (some cursor) size = .ok (pageOf serverTime
      ((klinesWithin cursor stop history).drop ((klinesWithin cursor stop history).length - size.toNat))))
    {fuel : Nat} (enough : 2 ≤ fuel) :
    klinePages fetch stalled timeframe (some start) (some stop) limit none fuel (some start) [] =
      some (.ok (closedBars serverTime ((klinesWithin start stop history).drop
        ((klinesWithin start stop history).length - limit.toNat)))) := by
  obtain ⟨more, rfl⟩ : ∃ more, fuel = more + 1 + 1 := ⟨fuel - 2, by omega⟩
  have inside := klines.within start stop
  unfold klinePages
  simp only [nextLimit, answers, pageOf]
  rw [inAskedRange_of_klinesWithin (le_refl start) (List.drop_sublist _ _)]
  split
  · rename_i none
    rw [List.getLast?_eq_none_iff.mp none]
  rename_i bar ends
  obtain ⟨last, member, closing, rfl⟩ := getLast_closedBars ends
  have here := List.mem_of_mem_drop member
  have asked := (List.mem_filter.mp here).2
  rw [decide_eq_true_eq] at asked
  have spans := inside.ordered.spans last here
  split
  · rfl
  rw [nextOpenTimeMs_kline inside here]
  have advances : ¬ last.closeTime + 1 ≤ start := by omega
  simp only [Option.any_some, advances, decide_false, Bool.false_eq_true, if_false, decide_eq_true_eq]
  split
  · rfl
  have later := Spans.ended_behind_drop inside.ordered closing
  rw [← klinesWithin_behind (asked.1.trans spans)] at later
  exact klinePages_done stalled none _ (by omega) answers later

/-- The collected bars are those of klines, and the last steps keep them. -/
theorem finishPages_klines (klines : KlineHistory parse timeframe history) :
    finishPages maxBars (firstKlines maxBars (closedBars serverTime history)) =
      .ok (firstKlines maxBars (closedBars serverTime history)) := by
  have part : (firstKlines maxBars (closedBars serverTime history)).Sublist (history.map Kline.bar) :=
    (firstKlines_sublist maxBars _).trans closedBars_sublist
  rw [finishPages, Keyed.byKey_eq_self (klines.ascending.sublist part), firstBars_firstKlines,
    klines.valid part]
  rfl

end Runs

end MarketdataProvider

namespace MarketdataProvider.Reference

open scoped Reference

/-- A kline of one minute at the price of one, as an exchange's normalizer reads its row. -/
def servedMinute (exchange : String) (row : Int → List Cell) (serverTime openTime : Int) : Kline Whole where
  row := row openTime
  bar := {
    candle openTime with
    exchange
    isClosed := openTime + 59999 ≤ serverTime
    source := "fixture"
    provider := ""
    providerRevision := none
    openText := some "1"
    highText := some "1"
    lowText := some "1"
    closeText := some "1"
    volumeText := some "1" }
  closeTime := openTime + 59999

end MarketdataProvider.Reference
