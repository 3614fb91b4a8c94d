import Mathlib.Data.List.Dedup
import MarketdataProvider.Core.Exact
import MarketdataProvider.Foundation.Groups
import MarketdataProvider.Service.OneGrid

namespace MarketdataProvider

open Foundation

/-- Exact sums: parts may be added first, and only positive parts make a positive sum. -/
structure ExactSum (F : Type) [PyFloat F] [PySum F] : Prop where
  flatten : ∀ parts : List (List F), PySum.sum (parts.map PySum.sum) = PySum.sum parts.flatten
  positive : ∀ values : List F, (∀ value ∈ values, PyFloat.lt value PyFloat.zero = false) →
    (PyFloat.lt PyFloat.zero (PySum.sum values) = true ↔
      ∃ value ∈ values, PyFloat.lt PyFloat.zero value = true)

section Cut

variable [PyText] {F : Type} {duration : Int}

def bucketTime (duration : Int) (bar : MarketBar F) : Int := bar.time / duration * duration

/-- The bars of a bucket -/
def Bucket.bars (bucket : Bucket F) : List (MarketBar F) := bucket.first :: bucket.rest

/-- The bars of the query, cut into buckets. -/
def bucketsOf (duration : Int) (query : BarQuery) (bars : List (MarketBar F)) : List (Bucket F) :=
  (bars.filter (inBuckets duration query)).foldl (addToBuckets duration) []

abbrev Buckets (duration : Int) : List (MarketBar F) → List (Bucket F) → Prop :=
  Grouped (bucketTime duration) Bucket.time Bucket.bars

omit [PyText] in
/-- A bar of the last bucket or of a later one. -/
theorem Buckets.add {bars : List (MarketBar F)} {buckets : List (Bucket F)} {bar : MarketBar F}
    (cut : Buckets duration bars buckets)
    (later : ∀ other ∈ bars, bucketTime duration other ≤ bucketTime duration bar) :
    Buckets duration (bars ++ [bar]) (addToBuckets duration buckets bar) := by
  have before (bucket : Bucket F) (member : bucket ∈ buckets) : bucket.time ≤ bucketTime duration bar := by
    obtain ⟨other, inside, same⟩ := cut.label_iff.mp ⟨bucket, member, rfl⟩
    rw [← same]
    exact later other inside
  have fresh (apart : ∀ bucket ∈ buckets, bucket.time < bucketTime duration bar) :
      Buckets duration (bars ++ [bar]) (buckets ++ [⟨bucketTime duration bar, bar, []⟩]) := by
    refine ⟨?_, ?_, ?_, ?_⟩
    · rw [List.flatMap_append, cut.whole]
      rfl
    · intro bucket member value inside
      rcases List.mem_append.mp member with old | new
      · exact cut.keyed bucket old value inside
      · obtain rfl := List.mem_singleton.mp new
        obtain rfl := List.mem_singleton.mp inside
        rfl
    · intro bucket _
      exact List.cons_ne_nil _ _
    · rw [List.pairwise_append]
      refine ⟨cut.ascending, List.pairwise_singleton _ _, ?_⟩
      intro bucket member new same
      rw [List.mem_singleton.mp same]
      exact apart bucket member
  unfold addToBuckets
  dsimp only
  split
  · rename_i empty
    obtain rfl := List.getLast?_eq_none_iff.mp empty
    exact fresh fun bucket member => by cases member
  · rename_i current found
    obtain ⟨front, rfl⟩ := List.getLast?_eq_some_iff.mp found
    have order := (List.pairwise_append.mp cut.ascending).2.2
    split
    · rename_i joined
      rw [List.dropLast_concat]
      have whole := cut.whole
      rw [List.flatMap_append, List.flatMap_singleton] at whole
      refine ⟨?_, ?_, ?_, ?_⟩
      · rw [List.flatMap_append, List.flatMap_singleton, ← whole, List.append_assoc]
        rfl
      · intro bucket member value inside
        rcases List.mem_append.mp member with old | new
        · exact cut.keyed bucket (List.mem_append_left _ old) value inside
        · obtain rfl := List.mem_singleton.mp new
          have parts : value ∈ current.bars ++ [bar] := inside
          rcases List.mem_append.mp parts with known | last
          · exact cut.keyed current (List.mem_append_right _ (List.mem_singleton_self _)) value known
          · rw [List.mem_singleton.mp last]
            exact joined
      · intro bucket _
        exact List.cons_ne_nil _ _
      · rw [List.pairwise_append]
        refine ⟨(List.pairwise_append.mp cut.ascending).1, List.pairwise_singleton _ _, ?_⟩
        intro bucket member new same
        rw [List.mem_singleton.mp same]
        exact order bucket member current (List.mem_singleton_self _)
    · rename_i other
      apply fresh
      intro bucket member
      have last := before current (List.mem_append_right _ (List.mem_singleton_self _))
      have beyond : current.time < bucketTime duration bar := lt_of_le_of_ne last (Ne.symm other)
      rcases List.mem_append.mp member with old | same
      · exact (order bucket old current (List.mem_singleton_self _)).trans beyond
      · rw [List.mem_singleton.mp same]
        exact beyond

omit [PyText] in
theorem bucketTime_mono (positive : 0 < duration) {early late : MarketBar F}
    (ordered : early.time ≤ late.time) : bucketTime duration early ≤ bucketTime duration late :=
  Int.mul_le_mul_of_nonneg_right (Int.ediv_le_ediv positive ordered) positive.le

omit [PyText] in
/-- Ascending bars are neither merged nor split by the cut. -/
theorem buckets_cut (positive : 0 < duration) {bars : List (MarketBar F)}
    (ascending : bars.Pairwise (·.time < ·.time)) :
    Buckets duration bars (bars.foldl (addToBuckets duration) []) := by
  induction bars using List.reverseRecOn with
  | nil => exact ⟨rfl, by simp, by simp, List.Pairwise.nil⟩
  | append_singleton rest bar ih =>
      rw [List.foldl_append]
      have order := List.pairwise_append.mp ascending
      apply (ih order.1).add
      intro other member
      exact bucketTime_mono positive (order.2.2 other member bar (List.mem_singleton_self _)).le

end Cut

section Summaries

variable {F : Type} [PyFloat F] [PySum F]

def traded (bar : MarketBar F) : Bool := PyFloat.lt PyFloat.zero bar.volume

/-- What a bar says of the bars that it stands for. -/
structure Summarises (bars : List (MarketBar F)) (bar : MarketBar F) : Prop where
  opening : (preferring traded bars).head?.map (fun bar => bar.openPrice) = some bar.openPrice
  high : reduce PyFloat.max (bars.map fun bar => bar.high) = some bar.high
  low : reduce PyFloat.min (bars.map fun bar => bar.low) = some bar.low
  closing : (preferring traded bars).getLast?.map (fun bar => bar.close) = some bar.close
  volume : PySum.sum (bars.map fun bar => bar.volume) = bar.volume
  isClosed : bars.all (fun bar => bar.isClosed) = bar.isClosed

omit [PySum F] in
theorem reduce_le (order : FloatOrder F) {values : List F} {greatest : F}
    (reduced : reduce PyFloat.max values = some greatest) :
    ∀ value ∈ values, PyFloat.lt greatest value = false := by
  cases values with
  | nil => cases reduced
  | cons first rest =>
      obtain rfl := Option.some.inj reduced
      induction rest using List.reverseRecOn with
      | nil =>
          intro value member
          rw [List.mem_singleton.mp member]
          exact order.irrefl first
      | append_singleton rest last ih =>
          rw [List.foldl_append]
          have spec := (order.max_spec (rest.foldl PyFloat.max first) last).2
          intro value member
          rcases List.mem_append.mp (List.cons_append ▸ member : value ∈ (first :: rest) ++ [last])
            with known | new
          · exact order.negTrans _ _ _ spec.1 (ih rfl value known)
          · rw [List.mem_singleton.mp new]
            exact spec.2

omit [PySum F] in
theorem reduce_ge (order : FloatOrder F) {values : List F} {least : F}
    (reduced : reduce PyFloat.min values = some least) :
    ∀ value ∈ values, PyFloat.lt value least = false := by
  cases values with
  | nil => cases reduced
  | cons first rest =>
      obtain rfl := Option.some.inj reduced
      induction rest using List.reverseRecOn with
      | nil =>
          intro value member
          rw [List.mem_singleton.mp member]
          exact order.irrefl first
      | append_singleton rest last ih =>
          rw [List.foldl_append]
          have spec := (order.min_spec (rest.foldl PyFloat.min first) last).2
          intro value member
          rcases List.mem_append.mp (List.cons_append ▸ member : value ∈ (first :: rest) ++ [last])
            with known | new
          · exact order.negTrans _ _ _ (ih rfl value known) spec.1
          · rw [List.mem_singleton.mp new]
            exact spec.2

omit [PySum F] in
/-- Of three values the first greatest one is the same on either way. -/
theorem max_assoc (order : FloatOrder F) : Std.Associative (PyFloat.max (F := F)) where
  assoc first second third := by
    by_cases up : PyFloat.lt first second = true
    · by_cases more : PyFloat.lt second third = true
      · have whole : PyFloat.lt first third = true := by
          by_contra below
          have later := order.negTrans first third second (Bool.eq_false_of_not_eq_true below)
            (order.asymm _ _ more)
          rw [up] at later
          cases later
        simp [PyFloat.max, up, more, whole]
      · simp [PyFloat.max, up, more]
    · by_cases more : PyFloat.lt second third = true
      · simp [PyFloat.max, up, more]
      · have whole : PyFloat.lt first third = false := order.negTrans first second third
          (Bool.eq_false_of_not_eq_true up) (Bool.eq_false_of_not_eq_true more)
        simp [PyFloat.max, up, more, whole]

omit [PySum F] in
theorem min_assoc (order : FloatOrder F) : Std.Associative (PyFloat.min (F := F)) where
  assoc first second third := by
    by_cases down : PyFloat.lt second first = true
    · by_cases more : PyFloat.lt third second = true
      · have whole : PyFloat.lt third first = true := by
          by_contra above
          have later := order.negTrans second third first (order.asymm _ _ more)
            (Bool.eq_false_of_not_eq_true above)
          rw [down] at later
          cases later
        simp [PyFloat.min, down, more, whole]
      · simp [PyFloat.min, down, more]
    · by_cases more : PyFloat.lt third second = true
      · simp [PyFloat.min, down, more]
      · have whole : PyFloat.lt third first = false := order.negTrans third second first
          (Bool.eq_false_of_not_eq_true more) (Bool.eq_false_of_not_eq_true down)
        simp [PyFloat.min, down, more, whole]

/-- The bars that stand for some groups say together what the groups say. -/
theorem Summarises.compose (order : FloatOrder F) (exact_sum : ExactSum F) {Group : Type}
    {groups : List Group} {members : Group → List (MarketBar F)} {middle : Group → MarketBar F}
    {bar : MarketBar F} (each : ∀ group ∈ groups, Summarises (members group) (middle group))
    (volumes : ∀ group ∈ groups, ∀ part ∈ members group, PyFloat.lt part.volume PyFloat.zero = false)
    (summary : Summarises (groups.map middle) bar) : Summarises (groups.flatMap members) bar := by
  have filled (group : Group) (member : group ∈ groups) : members group ≠ [] := by
    intro empty
    have opening := (each group member).opening
    rw [empty] at opening
    cases opening
  have hits (group : Group) (member : group ∈ groups) :
      traded (middle group) = (members group).any traded := by
    rw [Bool.eq_iff_iff, traded, ← (each group member).volume, exact_sum.positive _ (by
      intro value inside
      obtain ⟨part, known, rfl⟩ := List.mem_map.mp inside
      exact volumes group member part known), List.any_eq_true]
    simp only [List.mem_map, exists_exists_and_eq_and]
    rfl
  have preferred : preferring traded (groups.map middle) =
      (preferring (fun group => (members group).any traded) groups).map middle := by
    have filtered : (groups.map middle).filter traded =
        (groups.filter fun group => (members group).any traded).map middle := by
      rw [List.filter_map]
      congr 1
      apply List.filter_congr
      intro group member
      exact hits group member
    rw [preferring, preferring, filtered, List.isEmpty_map]
    split <;> rfl
  have inside (group : Group)
      (member : group ∈ preferring (fun group => (members group).any traded) groups) : group ∈ groups := by
    rw [preferring] at member
    split at member
    · exact member
    · exact (List.mem_filter.mp member).1
  refine ⟨?_, ?_, ?_, ?_, ?_, ?_⟩
  · have opening := summary.opening
    rw [preferred, List.head?_map, Option.map_map] at opening
    obtain ⟨group, found, same⟩ := Option.map_eq_some_iff.mp opening
    rw [head?_preferring_flatMap filled, found, Option.bind_some,
      (each group (inside group (List.mem_of_head? found))).opening, ← same]
    rfl
  · rw [← summary.high, List.map_flatMap, List.map_map, List.flatMap_def]
    have assoc := max_assoc order
    symm
    apply reduce_flatten
    rw [List.forall₂_map_left_iff, List.forall₂_map_right_iff, List.forall₂_same]
    intro group member
    exact (each group member).high
  · rw [← summary.low, List.map_flatMap, List.map_map, List.flatMap_def]
    have assoc := min_assoc order
    symm
    apply reduce_flatten
    rw [List.forall₂_map_left_iff, List.forall₂_map_right_iff, List.forall₂_same]
    intro group member
    exact (each group member).low
  · have closing := summary.closing
    rw [preferred, List.getLast?_map, Option.map_map] at closing
    obtain ⟨group, found, same⟩ := Option.map_eq_some_iff.mp closing
    rw [getLast?_preferring_flatMap filled, found, Option.bind_some,
      (each group (inside group (List.mem_of_getLast? found))).closing, ← same]
    rfl
  · rw [← summary.volume, List.map_flatMap, List.flatMap_def, ← exact_sum.flatten, List.map_map,
      List.map_map]
    congr 1
    apply List.map_congr_left
    intro group member
    exact (each group member).volume
  · rw [← summary.isClosed, List.all_flatMap, List.all_map]
    rw [Bool.eq_iff_iff, List.all_eq_true, List.all_eq_true]
    apply forall₂_congr
    intro group member
    rw [(each group member).isClosed]
    rfl

/-- The OHLC rule of the bars holds for the bar that stands for them. -/
theorem Summarises.ohlc (order : FloatOrder F) {bars : List (MarketBar F)} {bar : MarketBar F}
    (summary : Summarises bars bar) (rules : ∀ part ∈ bars, part.WellFormed) :
    PyFloat.lt bar.high (PyFloat.max bar.openPrice bar.close) = false ∧
      PyFloat.lt (PyFloat.min bar.openPrice bar.close) bar.low = false := by
  have inside (part : MarketBar F) (member : part ∈ preferring traded bars) : part ∈ bars := by
    rw [preferring] at member
    split at member
    · exact member
    · exact (List.mem_filter.mp member).1
  have high (part : MarketBar F) (member : part ∈ bars) : PyFloat.lt bar.high part.high = false :=
    reduce_le order summary.high _ (List.mem_map_of_mem member)
  have low (part : MarketBar F) (member : part ∈ bars) : PyFloat.lt part.low bar.low = false :=
    reduce_ge order summary.low _ (List.mem_map_of_mem member)
  obtain ⟨first, opens, opening⟩ := Option.map_eq_some_iff.mp summary.opening
  obtain ⟨last, closes, closing⟩ := Option.map_eq_some_iff.mp summary.closing
  have firstMember := inside first (List.mem_of_head? opens)
  have lastMember := inside last (List.mem_of_getLast? closes)
  have firstRule := rules first firstMember
  have lastRule := rules last lastMember
  have maxima (part : MarketBar F) := (order.max_spec part.openPrice part.close).2
  have minima (part : MarketBar F) := (order.min_spec part.openPrice part.close).2
  have opening_high : PyFloat.lt bar.high bar.openPrice = false := by
    rw [← opening]
    exact order.negTrans _ _ _ (high first firstMember) (order.negTrans _ _ _ firstRule.high (maxima first).1)
  have closing_high : PyFloat.lt bar.high bar.close = false := by
    rw [← closing]
    exact order.negTrans _ _ _ (high last lastMember) (order.negTrans _ _ _ lastRule.high (maxima last).2)
  have opening_low : PyFloat.lt bar.openPrice bar.low = false := by
    rw [← opening]
    exact order.negTrans _ _ _ (order.negTrans _ _ _ (minima first).1 firstRule.low) (low first firstMember)
  have closing_low : PyFloat.lt bar.close bar.low = false := by
    rw [← closing]
    exact order.negTrans _ _ _ (order.negTrans _ _ _ (minima last).2 lastRule.low) (low last lastMember)
  constructor
  · rcases (order.max_spec bar.openPrice bar.close).1 with same | same
    · rw [same]
      exact opening_high
    · rw [same]
      exact closing_high
  · rcases (order.min_spec bar.openPrice bar.close).1 with same | same
    · rw [same]
      exact opening_low
    · rw [same]
      exact closing_low

end Summaries

section Bucket

variable [PyText] {F : Type} [PyFloat F] {D : Type} [PyDecimal D] [AggregateHash]

omit [PyText] [AggregateHash] in
theorem firstGreatest_mem {Value Key : Type} (lt : Key → Key → Bool) (first : Value × Key)
    (rest : List (Value × Key)) : firstGreatest lt first rest ∈ first :: rest := by
  induction rest generalizing first with
  | nil => exact List.mem_singleton_self _
  | cons next rest ih =>
      have member := ih (if lt first.2 next.2 then next else first)
      change firstGreatest lt _ rest ∈ _
      rcases List.mem_cons.mp member with same | later
      · rw [same]
        split
        · exact List.mem_cons_of_mem _ List.mem_cons_self
        · exact List.mem_cons_self
      · exact List.mem_cons_of_mem _ (List.mem_cons_of_mem _ later)

variable (D) in
/-- The texts of which decimals are made can be read. -/
structure DecimalTexts (bar : MarketBar F) : Prop where
  high : ∃ decimal : D, parseDecimal D (textOr bar.highText bar.high) = .ok decimal
  low : ∃ decimal : D, parseDecimal D (textOr bar.lowText bar.low) = .ok decimal
  volume : ∃ decimal : D, parseDecimal D (textOr bar.volumeText bar.volume) = .ok decimal

/-- Texts of exact arithmetic spell the numbers. -/
structure ExactTexts (bar : MarketBar F) : Prop where
  high : PyFloat.ofStr (textOr bar.highText bar.high) = some bar.high
  low : PyFloat.ofStr (textOr bar.lowText bar.low) = some bar.low
  volume : PyFloat.ofStr (textOr bar.volumeText bar.volume) = some bar.volume

omit [PyText] [AggregateHash] in
theorem ExactDecimals.parse [DecimalFloat D F] (exact_decimals : ExactDecimals D F) {text : String}
    {number : F} (read : PyFloat.ofStr text = some number) :
    ∃ decimal : D, parseDecimal D text = .ok decimal := by
  obtain ⟨decimal, parsed, -⟩ := exact_decimals.reads text number read
  exact ⟨decimal, by rw [parseDecimal, parsed]⟩

omit [PyText] [AggregateHash] in
theorem ExactTexts.readable [DecimalFloat D F] (exact_decimals : ExactDecimals D F) {bar : MarketBar F}
    (texts : ExactTexts bar) : DecimalTexts D bar where
  high := exact_decimals.parse texts.high
  low := exact_decimals.parse texts.low
  volume := exact_decimals.parse texts.volume

omit [PyText] [AggregateHash] in
/-- A text that was read can be read again, next to any number. -/
theorem ExactDecimals.parse_textOr [DecimalFloat D F] (exact_decimals : ExactDecimals D F) {text : String}
    {decimal : D} (read : parseDecimal D text = .ok decimal) (number : F) :
    ∃ again : D, parseDecimal D (textOr (some text) number) = .ok again := by
  rw [textOr]
  split
  · exact exact_decimals.parse (exact_decimals.str number)
  · exact ⟨decimal, read⟩

omit [AggregateHash] [PyText] [PyFloat F] in
theorem onlyProvider_ok {provider : String} (named : provider ≠ "") {first : MarketBar F}
    {rest : List (MarketBar F)} (same : ∀ bar ∈ first :: rest, bar.provider = provider) :
    onlyProvider (first :: rest) = .ok provider := by
  have providers : (first :: rest).map MarketBar.provider = List.replicate (rest.length + 1) provider := by
    apply List.eq_replicate_iff.mpr
    refine ⟨by simp, ?_⟩
    intro other member
    obtain ⟨bar, inside, rfl⟩ := List.mem_map.mp member
    exact same bar inside
  have kept : (List.replicate (rest.length + 1) provider).filter (· ≠ "") =
      List.replicate (rest.length + 1) provider := by
    rw [List.filter_eq_self]
    intro other member
    rw [List.eq_of_mem_replicate member]
    simpa using named
  rw [onlyProvider, providers, kept, List.replicate_dedup (Nat.succ_ne_zero _)]

variable [PySum F] {time : Int} {first bar : MarketBar F} {rest : List (MarketBar F)} {query : BarQuery}

theorem aggregateBucket_ok {provider : String} (named : provider ≠ "")
    (same : ∀ part ∈ first :: rest, part.provider = provider)
    (readable : ∀ part ∈ first :: rest, DecimalTexts D part) {close : Int}
    (closes : closeTimeMs time query.timeframe.canonical = .ok close) :
    ∃ bar, aggregateBucket D time first rest query = .ok bar := by
  have keyed_ok (text : MarketBar F → String) {part : MarketBar F}
      (read : ∃ decimal : D, parseDecimal D (text part) = .ok decimal) :
      ∃ pair, keyed D text part = .ok pair := by
    obtain ⟨decimal, parsed⟩ := read
    exact ⟨(part, decimal), by rw [keyed, parsed]; rfl⟩
  have later (part : MarketBar F) (member : part ∈ rest) := readable part (List.mem_cons_of_mem _ member)
  have own := readable first List.mem_cons_self
  obtain ⟨highs, highsRead⟩ := mapM_ok fun part member => keyed_ok
    (fun bar => textOr bar.highText bar.high) (later part member).high
  obtain ⟨high, highRead⟩ := keyed_ok (fun bar => textOr bar.highText bar.high) own.high
  obtain ⟨lows, lowsRead⟩ := mapM_ok fun part member => keyed_ok
    (fun bar => textOr bar.lowText bar.low) (later part member).low
  obtain ⟨low, lowRead⟩ := keyed_ok (fun bar => textOr bar.lowText bar.low) own.low
  obtain ⟨volumes, volumesRead⟩ := mapM_ok fun part member => (readable part member).volume
  simp only [aggregateBucket, onlyProvider_ok named same, highsRead, highRead, lowsRead, lowRead,
    volumesRead, closes, ok_bind]
  exact ⟨_, rfl⟩

theorem aggregateBucket_summarises (made : aggregateBucket D time first rest query = .ok bar) :
    Summarises (first :: rest) bar := by
  simp only [aggregateBucket, bind_eq_ok, pure_eq_ok] at made
  obtain ⟨_, -, _, -, _, -, _, -, _, -, _, -, _, -, rfl⟩ := made
  have filled : preferring traded (first :: rest) ≠ [] := by
    rw [preferring]
    split
    · exact List.cons_ne_nil _ _
    · rename_i some_traded
      simpa using some_traded
  obtain ⟨opening, others, opens⟩ := List.exists_cons_of_ne_nil filled
  refine ⟨?_, ?_, ?_, ?_, rfl, rfl⟩
  · change _ = some ((preferring traded (first :: rest)).headD first).openPrice
    rw [opens]
    rfl
  · rw [List.map_cons, reduce, List.foldl_map]
  · rw [List.map_cons, reduce, List.foldl_map]
  · change _ = some ((preferring traded (first :: rest)).getLastD first).close
    rw [List.getLastD_eq_getLast?, List.getLast?_eq_some_getLast filled]
    rfl

theorem aggregateBucket_provider {provider : String} (named : provider ≠ "")
    (same : ∀ part ∈ first :: rest, part.provider = provider)
    (made : aggregateBucket D time first rest query = .ok bar) : bar.provider = provider := by
  simp only [aggregateBucket, onlyProvider_ok named same, ok_bind, bind_eq_ok, pure_eq_ok] at made
  obtain ⟨_, -, _, -, _, -, _, -, _, -, _, -, rfl⟩ := made
  rfl

/-- The texts of an aggregated bar can be read again. -/
theorem aggregateBucket_readable [DecimalFloat D F] (exact_decimals : ExactDecimals D F)
    (made : aggregateBucket D time first rest query = .ok bar) : DecimalTexts D bar := by
  have of_keyed {text : MarketBar F → String} {part : MarketBar F} {pair : MarketBar F × D}
      (read : keyed D text part = .ok pair) : ∃ decimal : D, parseDecimal D (text pair.1) = .ok decimal := by
    obtain ⟨decimal, parsed, same⟩ := bind_eq_ok.mp read
    obtain rfl := Except.ok.inj same
    exact ⟨decimal, parsed⟩
  simp only [aggregateBucket, bind_eq_ok, pure_eq_ok] at made
  obtain ⟨_, -, highs, highsRead, high, highRead, lows, lowsRead, low, lowRead, volumes, -, _, -, rfl⟩ := made
  refine ⟨?_, ?_, ?_⟩
  · have source : ∃ decimal : D, parseDecimal D (textOr (firstGreatest PyDecimal.lt high highs).1.highText
        (firstGreatest PyDecimal.lt high highs).1.high) = .ok decimal := by
      rcases List.mem_cons.mp (firstGreatest_mem PyDecimal.lt high highs) with same | later
      · rw [same]
        exact of_keyed highRead
      · obtain ⟨part, -, read⟩ := of_mem_mapM highsRead _ later
        exact of_keyed read
    obtain ⟨decimal, read⟩ := source
    exact exact_decimals.parse_textOr read _
  · have source : ∃ decimal : D, parseDecimal D (textOr (firstLeast PyDecimal.lt low lows).1.lowText
        (firstLeast PyDecimal.lt low lows).1.low) = .ok decimal := by
      have least : firstLeast PyDecimal.lt low lows =
          firstGreatest (fun left right => PyDecimal.lt right left) low lows := rfl
      rw [least]
      rcases List.mem_cons.mp (firstGreatest_mem (fun left right => PyDecimal.lt right left) low lows)
        with same | later
      · rw [same]
        exact of_keyed lowRead
      · obtain ⟨part, -, read⟩ := of_mem_mapM lowsRead _ later
        exact of_keyed read
    obtain ⟨decimal, read⟩ := source
    exact exact_decimals.parse_textOr read _
  · have read : parseDecimal D (PyDecimal.format (volumes.foldl PyDecimal.add PyDecimal.zero)) =
        .ok (volumes.foldl PyDecimal.add (PyDecimal.zero : D)) := by
      rw [parseDecimal, (exact_decimals.format _).1]
    exact exact_decimals.parse_textOr read _

end Bucket

section Compose

variable [PyText] {F : Type} [PyFloat F]

/-- The numbers of a bar and its finality. -/
structure Candle (F : Type) extends Bar F where
  isClosed : Bool

omit [PyText] [PyFloat F] in
def MarketBar.candle (bar : MarketBar F) : Candle F := { bar.toBar with isClosed := bar.isClosed }

/-- Base bars of one provider, with gaps and without negative volumes. -/
structure BaseBars (provider : String) (bars : List (MarketBar F)) : Prop where
  ascending : bars.Pairwise (·.time < ·.time)
  provided : ∀ bar ∈ bars, bar.provider = provider
  named : provider ≠ ""
  volumes : ∀ bar ∈ bars, PyFloat.lt bar.volume PyFloat.zero = false

/-- One candle for each bucket of the query with a bar, under the rules of the bars. -/
structure AggregatesTo (duration : Int) (query : BarQuery) (bars : List (MarketBar F))
    (candles : List (Candle F)) : Prop where
  ascending : candles.Pairwise (·.time < ·.time)
  buckets : ∀ time, (∃ candle ∈ candles, candle.time = time) ↔
    ∃ bar ∈ bars, inBuckets duration query bar = true ∧ bucketTime duration bar = time
  rules : (∀ bar ∈ bars, bar.WellFormed) → ∀ candle ∈ candles, candle.WellFormed

variable {D : Type} [PyDecimal D] [AggregateHash] [PySum F] {duration : Int} {query : BarQuery}
  {bars out : List (MarketBar F)}

omit [PyFloat F] [AggregateHash] [PySum F] in
theorem bucketsOf_cut (positive : 0 < duration) (ascending : bars.Pairwise (·.time < ·.time)) :
    Buckets duration (bars.filter (inBuckets duration query)) (bucketsOf duration query bars) :=
  buckets_cut positive (ascending.sublist List.filter_sublist)

/-- An aggregation has one bar for each bucket. -/
theorem aggregateMarketBars_eq (positive : 0 < duration) (known : query.timeframe.durationMs = some duration) :
    aggregateMarketBars D bars query = (bucketsOf duration query bars).mapM fun bucket =>
      aggregateBucket D bucket.time bucket.first bucket.rest query := by
  rw [aggregateMarketBars, known]
  dsimp only
  rw [if_neg fun both => positive.ne' both.1]
  rfl

/-- Each bar of an aggregation by the bucket for which it stands. -/
theorem results_of_aggregate (positive : 0 < duration)
    (known : query.timeframe.durationMs = some duration)
    (made : aggregateMarketBars D bars query = .ok out) :
    ∃ result : Bucket F → MarketBar F, out = (bucketsOf duration query bars).map result ∧
      ∀ bucket ∈ bucketsOf duration query bars,
        aggregateBucket D bucket.time bucket.first bucket.rest query = .ok (result bucket) := by
  rw [aggregateMarketBars_eq positive known] at made
  have each (bucket : Bucket F) (member : bucket ∈ bucketsOf duration query bars) :
      aggregateBucket D bucket.time bucket.first bucket.rest query =
        .ok ((aggregateBucket D bucket.time bucket.first bucket.rest query).toOption.getD bucket.first) := by
    obtain ⟨bar, aggregated⟩ := ok_of_mem_mapM made bucket member
    rw [aggregated]
    rfl
  refine ⟨_, ?_, each⟩
  rw [mapM_eq_map each, Except.ok.injEq] at made
  exact made.symm

omit [AggregateHash] [PySum F] [PyFloat F] in
theorem Timeframe.timeframeMs_eq (known : query.timeframe.durationMs = some duration) :
    timeframeMs query.timeframe.canonical = .ok duration := by
  have own := query.timeframe.duration
  rw [known, timeframeDuration] at own
  split at own
  · cases own
  · cases read : timeframeMs query.timeframe.canonical with
    | error error =>
        rw [read] at own
        cases own
    | ok other =>
        rw [read] at own
        exact congrArg Except.ok (Option.some.inj (Except.ok.inj own))

omit [AggregateHash] in
/-- A bucket closes behind its opening. -/
theorem bucket_closes (positive : 0 < duration) (known : query.timeframe.durationMs = some duration)
    {time close : Int} (aligned : duration ∣ time)
    (closes : closeTimeMs time query.timeframe.canonical = .ok close) : time ≤ close := by
  obtain ⟨count, rfl⟩ := aligned
  have accepted := query.timeframe.fixedPoint
  have read := Timeframe.timeframeMs_eq known
  have inside := inside_of_closeTimeMs accepted closes
  rw [Int.mul_comm] at *
  rw [closeTimeMs_bucket accepted read positive count inside] at closes
  obtain rfl := Except.ok.inj closes
  split
  · rename_i week
    rw [week] at read
    have days : duration = 7 * dayMs := by
      have weekly : timeframeMs "1W" = .ok (7 * dayMs) := by
        rw [week] at accepted
        rw [timeframeMs, accepted]
        rfl
      exact Except.ok.inj (read.symm.trans weekly)
    rw [days, dayMs]
    omega
  · omega

/-- An aggregation has a candle for each bucket with a bar. -/
theorem aggregatesTo (order : FloatOrder F) (positive : 0 < duration)
    (known : query.timeframe.durationMs = some duration) (ascending : bars.Pairwise (·.time < ·.time))
    (made : aggregateMarketBars D bars query = .ok out) :
    AggregatesTo duration query bars (out.map MarketBar.candle) := by
  obtain ⟨result, rfl, each⟩ := results_of_aggregate positive known made
  have cut : Buckets duration (bars.filter (inBuckets duration query)) (bucketsOf duration query bars) :=
    bucketsOf_cut positive ascending
  have times (bucket : Bucket F) (member : bucket ∈ bucketsOf duration query bars) :=
    aggregateBucket_times D (each bucket member)
  refine ⟨?_, ?_, ?_⟩
  · rw [List.map_map, List.pairwise_map]
    apply cut.ascending.imp_of_mem
    intro early late first second before
    change (result early).time < (result late).time
    rw [(times early first).1, (times late second).1]
    exact before
  · intro time
    have labels : (∃ bucket ∈ bucketsOf duration query bars, bucket.time = time) ↔ _ := cut.label_iff
    simp only [List.mem_filter, and_assoc] at labels
    rw [← labels, List.map_map]
    constructor
    · rintro ⟨candle, member, rfl⟩
      obtain ⟨bucket, inside, rfl⟩ := List.mem_map.mp member
      exact ⟨bucket, inside, (times bucket inside).1.symm⟩
    · rintro ⟨bucket, inside, rfl⟩
      exact ⟨_, List.mem_map_of_mem inside, (times bucket inside).1⟩
  · intro rules candle member
    rw [List.map_map] at member
    obtain ⟨bucket, inside, rfl⟩ := List.mem_map.mp member
    obtain ⟨opens, close, closing, closes⟩ := times bucket inside
    have summary := aggregateBucket_summarises (each bucket inside)
    have parts (part : MarketBar F) (known : part ∈ bucket.first :: bucket.rest) : part.WellFormed := by
      have kept : part ∈ bars.filter (inBuckets duration query) := by
        rw [← cut.whole]
        exact List.mem_flatMap.mpr ⟨bucket, inside, known⟩
      exact rules part (List.mem_filter.mp kept).1
    obtain ⟨high, low⟩ := summary.ohlc order parts
    refine ⟨high, low, ?_⟩
    intro other same
    obtain rfl := Option.some.inj (closing.symm.trans same)
    change (result bucket).time ≤ close
    rw [opens]
    exact bucket_closes positive known (buckets_aligned _ bucket inside) closes

/-- Bars with readable texts and times can be aggregated. -/
theorem aggregate_returns (positive : 0 < duration) (known : query.timeframe.durationMs = some duration)
    {provider : String} (named : provider ≠ "") (provided : ∀ bar ∈ bars, bar.provider = provider)
    (ascending : bars.Pairwise (·.time < ·.time)) (readable : ∀ bar ∈ bars, DecimalTexts D bar)
    (closes : ∀ bar ∈ bars, inBuckets duration query bar = true →
      ∃ close, closeTimeMs (bucketTime duration bar) query.timeframe.canonical = .ok close) :
    ∃ out, aggregateMarketBars D bars query = .ok out := by
  rw [aggregateMarketBars_eq positive known]
  have cut : Buckets duration (bars.filter (inBuckets duration query)) (bucketsOf duration query bars) :=
    bucketsOf_cut positive ascending
  apply mapM_ok
  intro bucket member
  have parts (part : MarketBar F) (known : part ∈ bucket.first :: bucket.rest) :
      part ∈ bars ∧ inBuckets duration query part = true := by
    rw [← List.mem_filter, ← cut.whole]
    exact List.mem_flatMap.mpr ⟨bucket, member, known⟩
  have first := parts bucket.first List.mem_cons_self
  obtain ⟨close, closing⟩ := closes bucket.first first.1 first.2
  rw [cut.keyed bucket member bucket.first List.mem_cons_self] at closing
  exact aggregateBucket_ok named (fun part known => provided part (parts part known).1)
    (fun part known => readable part (parts part known).1) closing

/-- Two queries for one range, whose ends lie on the grid of the wider timeframe. -/
structure Nested (fine coarse : BarQuery) (narrow wide : Int) : Prop where
  start : fine.startMs = coarse.startMs
  stop : fine.endMs = coarse.endMs
  fineMs : fine.timeframe.durationMs = some narrow
  coarseMs : coarse.timeframe.durationMs = some wide
  narrowPositive : 0 < narrow
  widePositive : 0 < wide
  divides : narrow ∣ wide
  startAligned : wide ∣ coarse.startMs
  stopAligned : wide ∣ coarse.endMs

variable {fine coarse : BarQuery} {narrow wide : Int}

omit [PyText] [PyFloat F] [AggregateHash] [PySum F] in
/-- A bucket starts in a range with ends on its grid when its bar does. -/
theorem between_bucketTime (positive : 0 < duration) {start stop : Int} (first : duration ∣ start)
    (last : duration ∣ stop) (bar : MarketBar F) :
    start ≤ bucketTime duration bar ∧ bucketTime duration bar < stop ↔ start ≤ bar.time ∧ bar.time < stop := by
  obtain ⟨low, rfl⟩ := first
  obtain ⟨high, rfl⟩ := last
  rw [bucketTime, Int.mul_comm duration low, Int.mul_comm duration high]
  apply and_congr
  · rw [Int.mul_le_mul_right positive, Int.le_ediv_iff_mul_le positive]
  · rw [Int.mul_lt_mul_right positive, Int.ediv_lt_iff_lt_mul positive]

omit [PyFloat F] [AggregateHash] [PySum F] in
/-- The bucket of a bucket is the wider bucket. -/
theorem bucketTime_bucketTime (nested : Nested fine coarse narrow wide) (time : Int) :
    time / narrow * narrow / wide * wide = time / wide * wide := by
  obtain ⟨factor, rfl⟩ := nested.divides
  have positive := nested.narrowPositive
  congr 1
  rw [Int.mul_comm (time / narrow), Int.mul_ediv_mul_of_pos _ _ positive,
    Int.ediv_ediv_of_nonneg positive.le]

omit [AggregateHash] [PyText] in
/-- A summary leaves nothing open but the times. -/
theorem Summarises.unique {first second : MarketBar F} (left : Summarises bars first)
    (right : Summarises bars second) (time : first.time = second.time)
    (timeClose : first.timeClose = second.timeClose) : first.candle = second.candle := by
  have opening := Option.some.inj (left.opening.symm.trans right.opening)
  have high := Option.some.inj (left.high.symm.trans right.high)
  have low := Option.some.inj (left.low.symm.trans right.low)
  have closing := Option.some.inj (left.closing.symm.trans right.closing)
  have volume := left.volume.symm.trans right.volume
  have isClosed := left.isClosed.symm.trans right.isClosed
  have numbers : first.toBar = second.toBar := by
    rw [Bar.mk.injEq]
    exact ⟨time, opening, high, low, closing, volume, timeClose⟩
  rw [MarketBar.candle, MarketBar.candle, numbers, isClosed]

variable [DecimalFloat D F] {provider : String} {middle direct : List (MarketBar F)}

/-- The bars of the finer timeframe stand for the base bars in every wider bucket. -/
theorem aggregate_twice (exact_decimals : ExactDecimals D F) (exact_sum : ExactSum F)
    (nested : Nested fine coarse narrow wide) (base : BaseBars provider bars)
    (middleMade : aggregateMarketBars D bars fine = .ok middle)
    (directMade : aggregateMarketBars D bars coarse = .ok direct) :
    ∃ out, aggregateMarketBars D middle coarse = .ok out ∧
      out.map MarketBar.candle = direct.map MarketBar.candle := by
  have finer := aggregatesTo exact_decimals.order nested.narrowPositive nested.fineMs base.ascending middleMade
  obtain ⟨fineResult, rfl, fineEach⟩ := results_of_aggregate nested.narrowPositive nested.fineMs middleMade
  obtain ⟨directResult, rfl, directEach⟩ :=
    results_of_aggregate nested.widePositive nested.coarseMs directMade
  have inRange (bar : MarketBar F) : inBuckets narrow fine bar = inBuckets wide coarse bar := by
    have fineRange := between_bucketTime nested.narrowPositive
      (Int.dvd_trans nested.divides nested.startAligned) (Int.dvd_trans nested.divides nested.stopAligned) bar
    have coarseRange := between_bucketTime nested.widePositive nested.startAligned nested.stopAligned bar
    rw [Bool.eq_iff_iff, inBuckets, inBuckets, Bool.and_eq_true, Bool.and_eq_true, decide_eq_true_eq,
      decide_eq_true_eq, decide_eq_true_eq, decide_eq_true_eq, nested.start, nested.stop]
    exact fineRange.trans coarseRange.symm
  have kept : bars.filter (inBuckets narrow fine) = bars.filter (inBuckets wide coarse) :=
    List.filter_congr fun bar _ => inRange bar
  have fineCut : Buckets narrow (bars.filter (inBuckets wide coarse)) (bucketsOf narrow fine bars) :=
    kept ▸ bucketsOf_cut nested.narrowPositive base.ascending
  have directCut : Buckets wide (bars.filter (inBuckets wide coarse)) (bucketsOf wide coarse bars) :=
    bucketsOf_cut nested.widePositive base.ascending
  have times (bucket : Bucket F) (member : bucket ∈ bucketsOf narrow fine bars) :
      (fineResult bucket).time = bucket.time := (aggregateBucket_times D (fineEach bucket member)).1
  have parts (bucket : Bucket F) (member : bucket ∈ bucketsOf narrow fine bars) :
      ∀ part ∈ bucket.first :: bucket.rest, part ∈ bars.filter (inBuckets wide coarse) := by
    intro part known
    rw [← fineCut.whole]
    exact List.mem_flatMap.mpr ⟨bucket, member, known⟩
  -- A bar of the finer timeframe lies in the wider bucket of its base bars.
  have wider (bucket : Bucket F) (member : bucket ∈ bucketsOf narrow fine bars) :
      inBuckets wide coarse (fineResult bucket) = true ∧
        bucketTime wide (fineResult bucket) = bucketTime wide bucket.first := by
    have first := (List.mem_filter.mp (parts bucket member bucket.first List.mem_cons_self)).2
    have label : bucketTime narrow bucket.first = bucket.time :=
      fineCut.keyed bucket member bucket.first List.mem_cons_self
    have same : bucketTime wide (fineResult bucket) = bucketTime wide bucket.first := by
      rw [bucketTime, times bucket member, ← label, bucketTime, bucketTime_bucketTime nested]
      rfl
    refine ⟨?_, same⟩
    change (decide (_ ≤ bucketTime wide (fineResult bucket)) &&
      decide (bucketTime wide (fineResult bucket) < _)) = true
    rw [same]
    exact first
  have middleKept : ((bucketsOf narrow fine bars).map fineResult).filter (inBuckets wide coarse) =
      (bucketsOf narrow fine bars).map fineResult := by
    rw [List.filter_eq_self]
    intro bar member
    obtain ⟨bucket, inside, rfl⟩ := List.mem_map.mp member
    exact (wider bucket inside).1
  have ascending : ((bucketsOf narrow fine bars).map fineResult).Pairwise (·.time < ·.time) :=
    (List.pairwise_map (f := MarketBar.candle)).mp finer.ascending
  have provided : ∀ bar ∈ (bucketsOf narrow fine bars).map fineResult, bar.provider = provider := by
    intro bar member
    obtain ⟨bucket, inside, rfl⟩ := List.mem_map.mp member
    exact aggregateBucket_provider base.named (fun part known =>
      base.provided part (List.mem_filter.mp (parts bucket inside part known)).1) (fineEach bucket inside)
  have readable : ∀ bar ∈ (bucketsOf narrow fine bars).map fineResult, DecimalTexts D bar := by
    intro bar member
    obtain ⟨bucket, inside, rfl⟩ := List.mem_map.mp member
    exact aggregateBucket_readable exact_decimals (fineEach bucket inside)
  have closes : ∀ bar ∈ (bucketsOf narrow fine bars).map fineResult, inBuckets wide coarse bar = true →
      ∃ close, closeTimeMs (bucketTime wide bar) coarse.timeframe.canonical = .ok close := by
    intro bar member _
    obtain ⟨bucket, inside, rfl⟩ := List.mem_map.mp member
    rw [(wider bucket inside).2]
    obtain ⟨wideBucket, known, label⟩ := directCut.label_iff.mpr
      ⟨bucket.first, parts bucket inside bucket.first List.mem_cons_self, rfl⟩
    obtain ⟨-, close, -, closing⟩ := aggregateBucket_times D (directEach wideBucket known)
    exact ⟨close, label ▸ closing⟩
  obtain ⟨out, made⟩ := aggregate_returns nested.widePositive nested.coarseMs base.named provided ascending
    readable closes
  refine ⟨out, made, ?_⟩
  obtain ⟨result, rfl, each⟩ := results_of_aggregate nested.widePositive nested.coarseMs made
  have cut : Buckets wide ((bucketsOf narrow fine bars).map fineResult)
      (bucketsOf wide coarse ((bucketsOf narrow fine bars).map fineResult)) := by
    have own := @bucketsOf_cut _ F _ coarse _ nested.widePositive ascending
    rw [middleKept] at own
    exact own
  have labels : (bucketsOf wide coarse ((bucketsOf narrow fine bars).map fineResult)).map Bucket.time =
      (bucketsOf wide coarse bars).map Bucket.time := by
    apply map_label_eq cut.ascending directCut.ascending
    intro time
    rw [cut.label_iff, directCut.label_iff]
    constructor
    · rintro ⟨bar, member, rfl⟩
      obtain ⟨bucket, inside, rfl⟩ := List.mem_map.mp member
      exact ⟨bucket.first, parts bucket inside bucket.first List.mem_cons_self, (wider bucket inside).2.symm⟩
    · rintro ⟨bar, member, rfl⟩
      rw [← fineCut.whole] at member
      obtain ⟨bucket, inside, known⟩ := List.mem_flatMap.mp member
      refine ⟨fineResult bucket, List.mem_map_of_mem inside, ?_⟩
      rw [bucketTime, times bucket inside, ← fineCut.keyed bucket inside bar known, bucketTime,
        bucketTime_bucketTime nested]
      rfl
  rw [List.map_map, List.map_map]
  apply map_eq_of_labels labels
  intro bucket member wideBucket known label
  -- The two buckets of one time: of bars of the finer timeframe, and of all their base bars.
  let chosen := (bucketsOf narrow fine bars).filter fun part => part.time / wide * wide = wideBucket.time
  have upper : bucket.first :: bucket.rest = chosen.map fineResult := by
    have own : _ = bucket.first :: bucket.rest := cut.members_eq member
    rw [← own, List.filter_map]
    congr 1
    apply List.filter_congr
    intro part inside
    change decide (bucketTime wide (fineResult part) = bucket.time) = _
    rw [bucketTime, times part inside, label]
  have lower : wideBucket.first :: wideBucket.rest = chosen.flatMap Bucket.bars := by
    have own : _ = wideBucket.first :: wideBucket.rest := directCut.members_eq known
    rw [← own, ← fineCut.filter_eq fun time => time / wide * wide = wideBucket.time]
    apply List.filter_congr
    intro bar _
    rw [bucketTime, bucketTime, bucketTime_bucketTime nested]
  have summary := aggregateBucket_summarises (each bucket member)
  rw [upper] at summary
  have composed := @Summarises.compose F _ _ exact_decimals.order exact_sum _ chosen Bucket.bars _ _
    (fun part inside => aggregateBucket_summarises (fineEach part (List.mem_filter.mp inside).1))
    (fun part inside bar here => base.volumes bar (List.mem_filter.mp
      (parts part (List.mem_filter.mp inside).1 bar here)).1) summary
  rw [← lower] at composed
  obtain ⟨time, close, closing, closed⟩ := aggregateBucket_times D (each bucket member)
  obtain ⟨directTime, directClose, directClosing, directClosed⟩ :=
    aggregateBucket_times D (directEach wideBucket known)
  apply composed.unique (aggregateBucket_summarises (directEach wideBucket known))
  · rw [time, directTime, label]
  · rw [label] at closed
    rw [closing, directClosing, Except.ok.inj (closed.symm.trans directClosed)]

/-- Aggregating twice is aggregating once. An aggregation has one candle for each bucket with a bar, and
it keeps the OHLC rules; it returns for exact texts and times of the calendar. -/
theorem aggregation_composes (exact_decimals : ExactDecimals D F) (exact_sum : ExactSum F)
    (nested : Nested fine coarse narrow wide) (base : BaseBars provider bars) :
    (∀ middle direct, aggregateMarketBars D bars fine = .ok middle →
      aggregateMarketBars D bars coarse = .ok direct →
        ∃ out, aggregateMarketBars D middle coarse = .ok out ∧
          out.map MarketBar.candle = direct.map MarketBar.candle ∧
          AggregatesTo wide coarse bars (out.map MarketBar.candle)) ∧
    (∀ query duration out, 0 < duration → query.timeframe.durationMs = some duration →
      aggregateMarketBars D bars query = .ok out →
        AggregatesTo duration query bars (out.map MarketBar.candle)) ∧
    ((∀ bar ∈ bars, ExactTexts bar ∧ datetimeRange bar.time = true) →
      datetimeRange coarse.startMs = true →
        ∃ middle direct, aggregateMarketBars D bars fine = .ok middle ∧
          aggregateMarketBars D bars coarse = .ok direct) := by
  refine ⟨?_, ?_, ?_⟩
  · intro middle direct middleMade directMade
    obtain ⟨out, made, same⟩ := aggregate_twice exact_decimals exact_sum nested base middleMade directMade
    refine ⟨out, made, same, ?_⟩
    rw [same]
    exact aggregatesTo exact_decimals.order nested.widePositive nested.coarseMs base.ascending directMade
  · intro query duration out positive known made
    exact aggregatesTo exact_decimals.order positive known base.ascending made
  · intro dated begins
    have returns {query : BarQuery} {duration : Int} (positive : 0 < duration)
        (known : query.timeframe.durationMs = some duration) (start : query.startMs = coarse.startMs) :
        ∃ out, aggregateMarketBars D bars query = .ok out := by
      apply aggregate_returns positive known base.named base.provided base.ascending
        (fun bar member => (dated bar member).1.readable exact_decimals)
      intro bar member here
      have accepted := query.timeframe.fixedPoint
      have read := Timeframe.timeframeMs_eq known
      have inside : datetimeRange (bar.time / duration * duration) = true := by
        have low := (le_of_normalizeOpenTime bar.time positive).1
        rw [normalizeOpenTime] at low
        have limits := (dated bar member).2
        rw [inBuckets, Bool.and_eq_true, decide_eq_true_eq, start] at here
        rw [datetimeRange, Bool.and_eq_true, decide_eq_true_eq, decide_eq_true_eq] at begins limits ⊢
        omega
      exact ⟨_, closeTimeMs_bucket accepted read positive _ inside⟩
    obtain ⟨middle, middleMade⟩ := returns nested.narrowPositive nested.fineMs nested.start
    obtain ⟨direct, directMade⟩ := returns nested.widePositive nested.coarseMs rfl
    exact ⟨middle, direct, middleMade, directMade⟩

end Compose

end MarketdataProvider

namespace MarketdataProvider

open Foundation Reference
open scoped Reference

namespace Reference

theorem wholeSum_exact : ExactSum Whole where
  flatten parts := by
    change Whole.mk _ = Whole.mk _
    congr 1
    induction parts with
    | nil => rfl
    | cons part parts ih =>
        rw [List.map_cons, List.map_cons, List.sum_cons, List.flatten_cons, List.map_append, List.sum_append,
          ih]
        rfl
  positive values nonneg := by
    change decide (0 < (values.map Whole.value).sum) = true ↔ ∃ value ∈ values, decide (0 < value.value) = true
    simp only [decide_eq_true_eq]
    have low : ∀ value ∈ values, 0 ≤ value.value := by
      intro value member
      have known := nonneg value member
      change decide (value.value < 0) = false at known
      simpa using known
    clear nonneg
    have total : 0 ≤ (values.map Whole.value).sum ∧
        (0 < (values.map Whole.value).sum ↔ ∃ value ∈ values, 0 < value.value) := by
      induction values with
      | nil => simp
      | cons value values ih =>
          obtain ⟨rest, some_positive⟩ := ih fun other member => low other (List.mem_cons_of_mem _ member)
          have first := low value List.mem_cons_self
          rw [List.map_cons, List.sum_cons, List.exists_mem_cons_iff, ← some_positive]
          omega
    exact total.2

def hour : Timeframe where
  canonical := "1h"
  durationMs := some 3600000
  fixedPoint := eq_ok_of_toOption (by decide +kernel)
  duration := eq_ok_of_toOption (by decide +kernel)

def hourQuery : BarQuery := ⟨btcusdt, hour, 0, 3600000, .fail, by decide⟩

end Reference

theorem aggregation_composes_hour :
    (∀ middle direct, aggregateMarketBars Whole [candle 0, candle 120000]
        (minuteQuery 0 3600000 (by decide)) = .ok middle →
      aggregateMarketBars Whole [candle 0, candle 120000] hourQuery = .ok direct →
        ∃ out, aggregateMarketBars Whole middle hourQuery = .ok out ∧
          out.map MarketBar.candle = direct.map MarketBar.candle ∧
          AggregatesTo 3600000 hourQuery [candle 0, candle 120000] (out.map MarketBar.candle)) ∧
    (∀ query duration out, 0 < duration → query.timeframe.durationMs = some duration →
      aggregateMarketBars Whole [candle 0, candle 120000] query = .ok out →
        AggregatesTo duration query [candle 0, candle 120000] (out.map MarketBar.candle)) ∧
    ((∀ bar ∈ [candle 0, candle 120000], ExactTexts bar ∧ datetimeRange bar.time = true) →
      datetimeRange hourQuery.startMs = true →
        ∃ middle direct, aggregateMarketBars Whole [candle 0, candle 120000]
            (minuteQuery 0 3600000 (by decide)) = .ok middle ∧
          aggregateMarketBars Whole [candle 0, candle 120000] hourQuery = .ok direct) := by
  have nested : Nested (minuteQuery 0 3600000 (by decide)) hourQuery 60000 3600000 :=
    ⟨rfl, rfl, rfl, rfl, by decide, by decide, by decide, by decide, by decide⟩
  have base : BaseBars "binance" [candle 0, candle 120000] :=
    ⟨by decide, by decide, by decide, by decide⟩
  exact aggregation_composes wholeExact wholeSum_exact nested base

/-- An hour of two traded minutes is one candle with both volumes. -/
example : (aggregateMarketBars Whole [candle 0, candle 120000] hourQuery).toOption.map
    (List.map fun bar => (bar.time, bar.volume.value)) = some [(0, 2)] := by decide +kernel

end MarketdataProvider
