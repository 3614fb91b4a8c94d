import MarketdataProvider.Store.SegmentTree
import MarketdataProvider.Store.SeriesFiles
import MarketdataProvider.Store.SeriesWrites

namespace MarketdataProvider

open Foundation Foundation.Crash

variable [PyText] {F : Type} [PyFloat F] [Sha256] [Parquet]

/-- The files after a program hold what an operation makes of the series, as a read gives it back. -/
abbrev Refines {Value : Type} (store : SegmentStore) (normal : SeriesKey) (stored : Option (ClosedSeries F))
    (outcome : Except PyError (ClosedSeries F)) (program : StoreProg Value) (state : SeriesState) : Prop :=
  Prog.Achieves (Held store normal) stored ((fun after => some after.normalize) <$> outcome) program state

variable {store : SegmentStore} {normal key : SeriesKey} {state after : SeriesState}
  {stored : Option (ClosedSeries F)} {series : ClosedSeries F} {bars written : List (MarketBar F)}
  {raw : RawManifest}

section Written

/-- A sound CSV generation of these bars is the files of their series. -/
theorem filesOf_of_generation {found : Option RawManifest} {manifest : SegmentManifest}
    (sound : Sound F found normal state) (place : seriesDirectory normal = .ok state.directory)
    (named : state.manifest = some manifest.asdict) (csv : manifest.dataFormat = .csv)
    (contract : manifest.runtimeContractVersion = runtimeContractVersion)
    (generation : Generation normal manifest.asdict written (csvFile written))
    (data : state.data (.bars .csv) = some (csvFile written)) (format : series.format = .csv)
    (bars : series.bars = written.map MarketBar.normalForm) :
    FilesOf store normal state manifest.asdict written series := by
  have files (other : SegmentFormat) : state.data (.bars other) =
      oneFile (some manifest.asdict.toManifest.dataFormat) (csvFile written) other := by
    obtain ⟨-, -, _, bytes, -, files⟩ := sound.present _ named
    rw [toManifest_asdict, csv] at files ⊢
    have own := (files .csv).symm.trans data
    rw [oneFile_self, Option.some.injEq] at own
    rw [files other, own]
  have normalized := mapM_normalForm generation.timeframes
  rw [← bars] at normalized
  refine ⟨⟨found, sound⟩, place, named, ⟨_, generation, files⟩, csv.trans format.symm, bars, ?_⟩
  obtain ⟨file, present, same⟩ := SeriesState.exists_file data
  have disk : OnDisk state manifest.asdict .csv file := by
    refine ⟨sound.quiet, named, fun other => ?_⟩
    rw [oneFile]
    split
    · rename_i own
      rw [← Option.some.inj own, present]
    · rename_i foreign
      rw [← SeriesState.data_eq_none_iff, files, toManifest_asdict, csv, oneFile, if_neg foreign]
  refine disk.readAllLocked_iff.mpr ⟨if_pos contract, congrArg (fun format => (some format).getD _) csv, ?_, ?_, .inr ?_⟩
  · rw [same]
    exact readCsv_of_storable normalized fun bar member => (generation.lasting bar member).toStorable
  · exact validateMarketBars_ok_iff.mpr ⟨series.sorted, series.formed⟩
  · rw [same]
    exact sound.validates named csv data

end Written

section Replace

/-- The plan of a replacement refuses what the series refuses, and else has the bars of the series. -/
theorem replaceAllPlan_of_series {dataFormat : Option SegmentFormat}
    (csv : dataFormat.getD store.dataFormat = .csv) (keyed : normalizedKey key = .ok normal) :
    match replaceSeries .csv bars key with
    | .error error => replaceAllPlan store bars key dataFormat = .error error
    | .ok series => series.bars = sortByTime bars ∧ ∃ checksum, rowsDigest .v4 series.bars = .ok checksum ∧
        replaceAllPlan store bars key dataFormat = .ok ⟨generationManifest normal .csv series.bars checksum,
          .ok (csvFile series.bars), generationDownloadedAt series.bars⟩ := by
  have plain : ¬ (SegmentFormat.csv = .parquet ∧ store.pyarrow = false) := fun parquet => nomatch parquet.1
  have planned : replaceAllPlan store bars key dataFormat = (do
      validateMarketBars (sortByTime bars)
      let checksum ← rowsDigest .v4 (sortByTime bars)
      return ⟨generationManifest normal .csv (sortByTime bars) checksum, .ok (csvFile (sortByTime bars)),
        generationDownloadedAt (sortByTime bars)⟩) := by
    rw [replaceAllPlan, csv, generationPlan, if_neg plain, keyed]
    cases valid : validateMarketBars (sortByTime bars) with
    | error error => rfl
    | ok checked =>
        rw [barsChecksum, versionedBarsChecksum, sortByTime_eq_self (validateMarketBars_sorted valid)]
        rfl
  rw [planned]
  unfold replaceSeries
  split
  · rename_i error refused
    split at refused
    · rename_i first invalid
      rw [← Except.error.inj refused, invalid]
      rfl
    · rename_i valid
      rw [keyed] at refused
      dsimp only at refused
      split at refused
      · rename_i first undigested
        rw [← Except.error.inj refused, valid, ok_bind, rowsDigest, undigested]
        rfl
      · cases refused
  · rename_i made returned
    split at returned
    · cases returned
    · rename_i valid
      rw [keyed] at returned
      dsimp only at returned
      split at returned
      · cases returned
      · rename_i rows digested
        cases returned
        have summed : rowsDigest .v4 (sortByTime bars) = .ok (hexDigest rows.flatten) := by
          rw [rowsDigest, digested]
          rfl
        refine ⟨rfl, _, summed, ?_⟩
        simp only [valid, ok_bind, summed]
        rfl

variable {found : Option RawManifest}

/-- No series of another key lies in the directory. -/
theorem Sound.validateManifestIdentity (sound : Sound F found normal state) {manifest : SegmentManifest}
    (own : manifest.key = normal) :
    MarketdataProvider.validateManifestIdentity (state.manifest.map RawManifest.toManifest) manifest = .ok () := by
  cases named : state.manifest with
  | none => rfl
  | some raw =>
      obtain ⟨-, -, _, _, generation, -⟩ := sound.present raw named
      exact if_pos (generation.key.trans own.symm)

theorem contained_of_sound (sound : Sound F found normal state)
    (place : seriesDirectory normal = .ok state.directory) : Contained state state where
  directory := rfl
  manifest raw named := by
    obtain ⟨-, -, _, _, generation, -⟩ := sound.present raw named
    rw [show raw.toManifest.key = normal from generation.key]
    exact place
  append journal pending := by
    rw [sound.quiet.1] at pending
    cases pending
  replace journal pending := by
    rw [sound.quiet.2] at pending
    cases pending
  foreign _ _ := rfl

/-- A replacement that is not refused makes the files of the sorted bars. -/
theorem Held.replaceAllLocked_files (held : Held store normal state stored) {dataFormat : Option SegmentFormat}
    (csv : dataFormat.getD store.dataFormat = .csv) (keyed : normalizedKey key = .ok normal)
    (lasting : ∀ bar ∈ bars, bar.Lasting) (replaced : replaceSeries .csv bars key = .ok series) :
    ∃ value last raw, (MarketdataProvider.replaceAllLocked store bars key dataFormat).run state = (.ok value, last) ∧
      FilesOf store normal last raw series.bars series.normalize := by
  obtain ⟨found, sound⟩ := held.sound
  have place := held.place
  have planned := @replaceAllPlan_of_series _ F _ _ _ store normal key bars dataFormat csv keyed
  rw [MarketdataProvider.replaceAllLocked, MarketdataProvider.runPlan]
  rw [replaced] at planned
  obtain ⟨sorted, checksum, digested, planned⟩ := planned
  rw [planned]
  obtain ⟨format, -⟩ := replaceSeries_ok replaced
  obtain ⟨live, replaceable⟩ := sound.replaceable
  let plan : ReplacePlan := ⟨generationManifest normal .csv series.bars checksum, .ok (csvFile series.bars),
    generationDownloadedAt series.bars⟩
  obtain ⟨rows, indexed⟩ := (insertable_generationManifest normal .csv series.bars checksum).indexRows
    plan.downloadedAt
  have identity : MarketdataProvider.validateManifestIdentity (state.manifest.map RawManifest.toManifest)
      plan.manifest = .ok () := sound.validateManifestIdentity rfl
  have path : validateJournalPath state.directory plan.manifest = .ok () := by
    rw [validateJournalPath, show plan.manifest.key = normal from rfl, place]
    exact if_pos rfl
  let commit := replaceable.commit store identity path indexed
  have generation : Generation normal commit.new.asdict series.bars (csvFile series.bars) :=
    generationManifest_sound series.sorted digested
      (fun bar member => lasting bar (mem_sortByTime.mp (sorted ▸ member))) rfl
  obtain ⟨-, value, last, ran, -, completed⟩ := commit.commitReplacement_guarded (csvFile series.bars)
  have reached : Sound F found normal last := generation.completed
    (fun _ => .inl (generation_legacy series.bars normal .csv checksum rfl)) completed
  have inside := ((contained_of_sound sound place).commitReplacement store plan.manifest
    plan.content).2 value last ran
  have image := completed.image
  refine ⟨value, last, commit.new.asdict, ran, ?_⟩
  exact filesOf_of_generation reached (inside.directory.symm ▸ place)
    (congrArg SeriesImage.manifest image) rfl rfl generation
    (congrFun (congrArg SeriesImage.data image) .csv) format rfl

/-- The replacement of a whole CSV generation. -/
theorem Held.replaceAllLocked (held : Held store normal state stored) {dataFormat : Option SegmentFormat}
    (csv : dataFormat.getD store.dataFormat = .csv) (keyed : normalizedKey key = .ok normal)
    (lasting : ∀ bar ∈ bars, bar.Lasting) :
    Refines store normal stored (replaceSeries .csv bars key)
      (MarketdataProvider.replaceAllLocked store bars key dataFormat) state := by
  have planned := @replaceAllPlan_of_series _ F _ _ _ store normal key bars dataFormat csv keyed
  cases replaced : replaceSeries .csv bars key with
  | error error =>
      rw [replaced] at planned
      rw [MarketdataProvider.replaceAllLocked, MarketdataProvider.runPlan,
        show replaceAllPlan store bars key dataFormat = _ from planned]
      exact Prog.Achieves.fail held
  | ok series =>
      obtain ⟨value, last, raw, ran, files⟩ := held.replaceAllLocked_files csv keyed lasting replaced
      exact ⟨value, last, ran, raw, series.bars, files⟩

/-- The rows of a replacement. -/
theorem Held.replaceAllLocked_rows (held : Held store normal state stored) {dataFormat : Option SegmentFormat}
    (csv : dataFormat.getD store.dataFormat = .csv) (keyed : normalizedKey key = .ok normal)
    (lasting : ∀ bar ∈ bars, bar.Lasting) {manifest : SegmentManifest}
    (ran : (MarketdataProvider.replaceAllLocked store bars key dataFormat).run state = (.ok manifest, after)) :
    after.data (.bars .csv) = some (csvFile (sortByTime bars)) := by
  have achieved := held.replaceAllLocked csv keyed lasting
  cases replaced : replaceSeries .csv bars key with
  | error error =>
      rw [replaced] at achieved
      obtain ⟨_, raised, -⟩ := achieved
      cases raised.symm.trans ran
  | ok series =>
      obtain ⟨value, last, raw, returned, files⟩ := held.replaceAllLocked_files csv keyed lasting replaced
      obtain ⟨-, rfl⟩ := Prod.mk.inj (returned.symm.trans ran)
      rw [files.data_csv (replaceSeries_ok replaced).1, (replaceSeries_ok replaced).2]

end Replace

section Chain

omit [Parquet] in
theorem extendTailChain_hexDigest (version : ChecksumVersion) (previous : List UInt8) (bar : MarketBar F) :
    extendTailChain version (hexDigest previous) bar = (fun row => hexDigest
      (encodeUtf8 (ChecksumAlgorithm.tailChain version).name.toList ++ [0] ++ Sha256.digest previous ++
        Sha256.digest row)) <$> updateChecksum version bar := by
  rw [extendTailChain, hexDigest, bytesOfHex_hexOfBytes]
  dsimp only
  rw [if_neg (not_not.mpr (Sha256.length_digest previous))]
  cases updateChecksum version bar <;> rfl

omit [Parquet] in
/-- A chain of digests goes on as long as the rows of the bars can be made. -/
theorem extendTailChainAll_hexDigest (version : ChecksumVersion) (previous : List UInt8) :
    match bars.mapM (updateChecksum version) with
    | .error error => extendTailChainAll version (hexDigest previous) bars = .error error
    | .ok _ => ∃ last, extendTailChainAll version (hexDigest previous) bars = .ok (hexDigest last) := by
  induction bars generalizing previous with
  | nil => exact ⟨previous, rfl⟩
  | cons bar rest ih =>
      rw [List.mapM_cons, extendTailChainAll, List.foldlM_cons, extendTailChain_hexDigest]
      cases updateChecksum version bar with
      | error error => rfl
      | ok row =>
          have later := ih (encodeUtf8 (ChecksumAlgorithm.tailChain version).name.toList ++ [0] ++
            Sha256.digest previous ++ Sha256.digest row)
          cases made : rest.mapM (updateChecksum version) with
          | error error =>
              rw [made] at later
              exact later
          | ok rows =>
              rw [made] at later
              exact later

omit [Parquet] in
/-- The checksum of a tail chain is a digest. -/
theorem checksum_of_modern {manifest : SegmentManifest} (modern : manifest.legacy = false)
    (agrees : ChecksumAgrees manifest.asdict bars) : ∃ fed, manifest.checksum = hexDigest fed := by
  have name : ChecksumAlgorithm.ofName tailChainChecksum = some (.tailChain .v4) :=
    ChecksumAlgorithm.ofName_name _
  have algorithm : manifest.checksumAlgorithm = tailChainChecksum := by
    by_contra other
    simp [SegmentManifest.legacy, other] at modern
  simp only [ChecksumAgrees, SegmentManifest.asdict, Option.getD_some, algorithm, name] at agrees
  obtain ⟨base, -, -, digested, linked⟩ := agrees
  obtain ⟨rows, -, summed⟩ := bind_eq_ok.mp digested
  rw [← Except.ok.inj summed] at linked
  have chain := @extendTailChainAll_hexDigest _ F _ _ (bars.drop base.rows) .v4 rows.flatten
  cases made : (bars.drop base.rows).mapM (updateChecksum .v4) with
  | error error =>
      rw [made] at chain
      cases linked.symm.trans chain
  | ok rows =>
      rw [made] at chain
      obtain ⟨last, chained⟩ := chain
      exact ⟨last, Except.ok.inj (linked.symm.trans chained)⟩

omit [Parquet] in
/-- An extension is refused for the same reason as on the series. -/
theorem extensionPlan_of_series {stored manifest : SegmentManifest} {bytes fed : List UInt8} {endTime : Int}
    {first : MarketBar F} {rest : List (MarketBar F)} {ends : series.endTime = some endTime}
    {ascends : (first :: rest).Pairwise (·.time < ·.time)} {later : endTime < first.time}
    {formed : ∀ bar ∈ first :: rest, bar.WellFormed} (summed : manifest.checksum = hexDigest fed) :
    match extendSeries series endTime first rest ends ascends later formed with
    | .error error => extensionPlan state stored manifest bytes first rest = .error error
    | .ok _ => ∃ plan, extensionPlan state stored manifest bytes first rest = .ok plan := by
  have chain := @extendTailChainAll_hexDigest _ F _ _ (first :: rest) .v4 fed
  rw [← summed] at chain
  unfold extendSeries
  split
  · rename_i error refused
    split at refused
    · rename_i first undigested
      rw [undigested] at chain
      rw [extensionPlan, chain, ← Except.error.inj refused]
      rfl
    · cases refused
  · rename_i made returned
    split at returned
    · cases returned
    · rename_i rows digested
      rw [digested] at chain
      obtain ⟨last, chained⟩ := chain
      exact ⟨_, by rw [extensionPlan, chained]; rfl⟩

omit [Parquet] in
theorem contract_of_currentManifest {manifest : SegmentManifest} {bytes : List UInt8}
    (current : currentManifest F raw bytes = .ok manifest) :
    manifest.runtimeContractVersion = raw.toManifest.runtimeContractVersion := by
  unfold currentManifest at current
  split at current
  · simp only [bind_eq_ok, pure_eq_ok] at current
    obtain ⟨_, _, checksum, _, rfl⟩ := current
    rfl
  · rw [← Except.ok.inj current]

omit [Sha256] [Parquet] in
/-- An append keeps the format of a series. -/
theorem appendSeries_ok_format {after : ClosedSeries F} (returned : appendSeries (some series) bars key = .ok after) :
    after.format = series.format := by
  unfold appendSeries at returned
  split at returned
  · cases returned
  · exact (appendIncoming_ok returned).2.1

omit [Sha256] [Parquet] in
/-- An append is for CSV. -/
theorem appendSeries_ok_csv {after : ClosedSeries F} (returned : appendSeries (some series) bars key = .ok after) :
    series.format = .csv := by
  unfold appendSeries at returned
  split at returned
  · cases returned
  · exact (appendIncoming_ok returned).1

end Chain

section Append

variable (files : FilesOf store normal state raw written series)
include files

/-- A legacy manifest is validated and rebased without an error. -/
theorem FilesOf.currentManifest (csv : series.format = .csv) : ∃ manifest,
    MarketdataProvider.currentManifest F raw (csvFile written) = .ok manifest ∧
      CsvSeries manifest.asdict written := by
  obtain ⟨found, sound⟩ := files.sound
  obtain ⟨bytes, generation, -⟩ := files.generation
  have isCsv := files.format.trans csv
  obtain ⟨described, -⟩ := generation.csvSeries isCsv
  have storable : ∀ bar ∈ written, bar.Storable := fun bar member => (generation.lasting bar member).toStorable
  suffices current : ∃ manifest, MarketdataProvider.currentManifest F raw (csvFile written) = .ok manifest by
    obtain ⟨manifest, current⟩ := current
    exact ⟨manifest, current, described.current current⟩
  unfold MarketdataProvider.currentManifest
  split
  · obtain ⟨rows, digested⟩ := mapM_ok series.digested
    have summed : rowsDigest .v4 series.bars = .ok (hexDigest rows.flatten) := by
      rw [rowsDigest, digested]
      rfl
    rw [rowsDigest_congr (sameDigest_normalized files.mapM_normalizedBar)] at summed
    have checksum := (csvCanonicalChecksum_csvFile_iff files.mapM_normalizedBar storable).mpr summed
    rw [sound.validates files.named isCsv (files.data_csv csv), ok_bind, checksum]
    exact ⟨_, rfl⟩
  · exact ⟨_, rfl⟩

/-- The tail decides alike on the files and on the series. -/
theorem FilesOf.tailPlan {manifest : SegmentManifest} {first : MarketBar F} {rest : List (MarketBar F)}
    (csv : series.format = .csv) (current : MarketdataProvider.currentManifest F raw (csvFile written) = .ok manifest)
    (described : CsvSeries manifest.asdict written) (tail : TailReads F state)
    (ascends : (first :: rest).Pairwise (·.time < ·.time)) (formed : ∀ bar ∈ first :: rest, bar.WellFormed) :
    match appendIncoming series (first :: rest) ascends formed with
    | .error error => MarketdataProvider.tailPlan state raw.toManifest manifest (csvFile written) first rest =
        .error error
    | .ok _ => ∃ plan,
        MarketdataProvider.tailPlan state raw.toManifest manifest (csvFile written) first rest = .ok plan := by
  obtain ⟨span, modern⟩ := currentManifest_span current
  have ended : manifest.endTime = series.endTime := span.endTime.trans files.endTime
  have rows : manifest.rowsCount = series.bars.length := span.rowsCount.trans files.rowsCount
  obtain ⟨fed, summed⟩ := checksum_of_modern modern (described.agrees fun bar member =>
    (files.writtenLasting bar member).toStorable)
  generalize made : appendIncoming series (first :: rest) ascends formed = outcome
  simp only [MarketdataProvider.tailPlan, files.tail csv tail, ok_bind, ended, ClosedSeries.endTime]
  unfold appendIncoming at made
  rw [if_neg (not_not.mpr csv)] at made
  dsimp only at made
  split at made
  · rename_i empty
    rw [← made, empty]
    rfl
  · rename_i last found
    have many : ¬ manifest.rowsCount ≤ 0 := by
      have positive := List.length_pos_of_mem (List.mem_of_getLast? found)
      omega
    simp only [found, Option.map_some, many, if_false, ne_eq, not_true_eq_false]
    split_ifs at made with before same equal
    · rw [← made, if_pos before]
    · rw [if_neg before, if_pos same, if_pos equal]
      cases rest with
      | nil =>
          rw [← made]
          exact ⟨_, rfl⟩
      | cons second others =>
          rw [← made]
          exact extensionPlan_of_series summed
    · rw [← made, if_neg before, if_pos same, if_neg equal]
    · rw [← made, if_neg before, if_neg same]
      exact extensionPlan_of_series summed

/-- An append is refused for the same reason as on the series. -/
theorem FilesOf.appendPlan (tail : bars ≠ [] → TailReads F state) :
    match appendSeries (some series) bars key with
    | .error error => MarketdataProvider.appendPlan state key bars = .error error
    | .ok _ => ∃ plan, MarketdataProvider.appendPlan state key bars = .ok plan := by
  cases accepted : validatedAppendBars bars key with
  | error error =>
      rw [appendSeries_of_refused accepted, MarketdataProvider.appendPlan, accepted]
      rfl
  | ok incoming =>
      rw [appendSeries_of_validated accepted]
      simp only [MarketdataProvider.appendPlan, accepted, ok_bind, files.named, files.format]
      by_cases csv : series.format = .csv
      · obtain ⟨manifest, current, described⟩ := files.currentManifest csv
        simp only [csv, ne_eq, not_true_eq_false, if_false, files.data_csv csv, current, ok_bind]
        cases incoming with
        | nil =>
            unfold appendIncoming
            rw [if_neg (not_not.mpr csv)]
            exact ⟨_, rfl⟩
        | cons first rest =>
            have given : bars ≠ [] := by
              rintro rfl
              obtain ⟨expected, _, returned⟩ := bind_eq_ok.mp accepted
              cases returned
            exact files.tailPlan csv current described (tail given) _ _
      · unfold appendIncoming
        simp only [csv, ne_eq, not_false_eq_true, if_true]

/-- The bars after an append, as a read gives them back. -/
theorem FilesOf.normalize_appended {after : ClosedSeries F} (returned : appendSeries (some series) bars key = .ok after) :
    after.normalize.bars = (mergeNewer written bars).map MarketBar.normalForm := by
  have ended : (written.getLast?.map fun last => last.time) = series.endTime := by
    obtain ⟨bytes, generation, -⟩ := files.generation
    exact generation.spans.endTime.symm.trans files.endTime
  have again : series.bars.map MarketBar.normalForm = series.bars := map_normalForm_of_normal files.normalBars
  unfold appendSeries at returned
  split at returned
  · cases returned
  · rename_i incoming accepted
    obtain ⟨-, -, grown, behind⟩ := appendIncoming_ok returned
    rw [ClosedSeries.bars_normalize, grown, List.map_append, again, mergeNewer, List.map_append, ← files.normalized,
      ← validatedAppendBars_eq accepted, ended, newerThan]
    congr 2
    apply List.filter_congr
    intro bar member
    obtain ⟨last, found, -⟩ := behind bar member
    rw [ClosedSeries.endTime, found]
    rfl

/-- The journaled commit leads to the files of the extended series. -/
theorem FilesOf.commitAppend_files {journal : AppendJournal} {payload : List UInt8} {after : ClosedSeries F}
    (lasting : ∀ bar ∈ bars, bar.Lasting) (returned : appendSeries (some series) bars key = .ok after)
    (planned : MarketdataProvider.appendPlan state key bars = .ok (.commit journal payload)) :
    ∃ value last raw, (MarketdataProvider.commitAppend journal payload).run state = (.ok value, last) ∧
      FilesOf store normal last raw (mergeNewer written bars) after.normalize := by
  obtain ⟨found, sound⟩ := files.sound
  obtain ⟨bytes, generation, data⟩ := files.generation
  obtain ⟨_, shown, _, _, _, named, csv, _, current, plan⟩ := appendPlan_commit planned
  obtain rfl := Option.some.inj (files.named.symm.trans named)
  obtain ⟨-, rfl⟩ := generation.csvSeries csv
  have isCsv : series.format = .csv := files.format.symm.trans csv
  obtain ⟨new, newCsv, appended⟩ := generation.appended csv named (files.data_csv isCsv) lasting planned
  have contract : journal.newManifest.runtimeContractVersion = runtimeContractVersion := by
    have old : raw.toManifest.runtimeContractVersion = runtimeContractVersion := by
      have checked := files.checked.1
      unfold validateManifestContract at checked
      split at checked
      · assumption
      · cases checked
    refine Eq.trans ?_ old
    have kept := contract_of_currentManifest current
    cases plan with
    | migration => exact kept
    | extension => exact kept
  obtain ⟨-, value, last, ran, reached⟩ :
      Prog.Guarded (fun _ => True) (fun _ last => last.data (.bars .csv) = some (csvFile (mergeNewer written bars)) ∧
        last.manifest = some journal.newManifest.asdict) (MarketdataProvider.commitAppend journal payload) state := by
    obtain ⟨commit, rfl, rfl, rfl, rfl⟩ :=
      appendPlan_appendCommit sound.quiet named generation.spans.insertable planned
    refine (commit.commitAppend.widen fun _ _ => trivial).weaken ?_
    rintro _ last ⟨-, completed⟩
    have oldBytes : commit.bytes = csvFile written := by
      have present := commit.present
      rw [files.data_csv isCsv, Option.some.injEq] at present
      exact present.symm
    have image := completed.image
    refine ⟨(congrArg CsvImage.csv image).trans ?_, congrArg CsvImage.manifest image⟩
    rw [← appended, ← oldBytes]
    rfl
  have sounder := (sound.commitAppend lasting planned).2 value last ran
  have inside : Contained state last := by
    obtain ⟨same, namedSame, old, own⟩ := appendPlan_keys planned
    obtain rfl := Option.some.inj (named.symm.trans namedSame)
    have contained := contained_of_sound sound files.place
    exact (contained.commitAppend (old ▸ contained.manifest raw named) (own ▸ contained.manifest raw named)
      payload).2 value last ran
  refine ⟨value, last, journal.newManifest.asdict, ran, ?_⟩
  exact filesOf_of_generation sounder (inside.directory.symm ▸ files.place) reached.2 newCsv contract new reached.1
    ((appendSeries_ok_format returned).trans isCsv) (files.normalize_appended returned)

end Append

section Held

/-- An append to the files is an append to the series. -/
theorem Held.appendStrictlyNewerLocked (held : Held store normal state stored)
    (keyed : normalizedKey key = .ok normal) (lasting : ∀ bar ∈ bars, bar.Lasting)
    (tail : bars ≠ [] → TailReads F state) :
    Refines store normal stored (appendSeries stored bars key)
      (MarketdataProvider.appendStrictlyNewerLocked store bars key) state := by
  rw [MarketdataProvider.appendStrictlyNewerLocked]
  refine .read ?_
  cases stored with
  | none =>
      have absent : state.manifest = none := NoFiles.unnamed held
      cases accepted : validatedAppendBars bars key with
      | error error =>
          rw [appendSeries_of_refused accepted, MarketdataProvider.appendPlan, accepted]
          exact .fail held
      | ok incoming =>
          have planned : MarketdataProvider.appendPlan state key bars = .ok (.replaceAll incoming) := by
            rw [MarketdataProvider.appendPlan, accepted, ok_bind, absent]
          rw [appendSeries_first accepted, planned]
          have given : ∀ bar ∈ incoming, bar.Lasting := by
            intro bar member
            rw [validatedAppendBars_eq accepted] at member
            exact lasting bar (mem_dropRepeats member)
          exact held.replaceAllLocked rfl keyed given
  | some series =>
      obtain ⟨raw, written, files⟩ := held
      have planned := @FilesOf.appendPlan _ F _ _ _ store normal key state series bars written raw files tail
      cases appended : appendSeries (some series) bars key with
      | error error =>
          rw [appended] at planned
          rw [show MarketdataProvider.appendPlan state key bars = _ from planned]
          exact .fail ⟨raw, written, files⟩
      | ok after =>
          rw [appended] at planned
          obtain ⟨plan, planned⟩ := planned
          rw [planned]
          cases plan with
          | keep manifest =>
              obtain ⟨incoming, found, accepted, named, -, rfl, repeated⟩ := appendPlan_keep planned
              obtain rfl := validatedAppendBars_eq accepted
              obtain rfl := Option.some.inj (files.named.symm.trans named)
              obtain ⟨bytes, generation, -⟩ := files.generation
              have same : mergeNewer written bars = written :=
                mergeNewer_repeated fun bar member => generation.spans.endTime.symm.trans (repeated bar member)
              have unchanged : after.normalize = series := by
                apply ClosedSeries.ext
                · exact (after.format_normalize).trans (appendSeries_ok_format appended)
                · rw [files.normalize_appended appended, same, files.normalized]
              refine ⟨raw.toManifest, state, rfl, ?_⟩
              change Held store normal state (some after.normalize)
              rw [unchanged]
              exact ⟨raw, written, files⟩
          | replaceAll incoming =>
              have absent := (appendPlan_replaceAll planned).2
              rw [files.named] at absent
              cases absent
          | commit journal payload =>
              obtain ⟨value, last, grown, ran, extended⟩ := files.commitAppend_files lasting appended planned
              exact ⟨value, last, ran, grown, _, extended⟩

/-- The rows of an append are old ones and new ones. -/
theorem Held.appendStrictlyNewerLocked_rows (held : Held store normal state stored)
    (keyed : normalizedKey key = .ok normal) (lasting : ∀ bar ∈ bars, bar.Lasting)
    (tail : bars ≠ [] → TailReads F state) {manifest : SegmentManifest}
    (ran : (MarketdataProvider.appendStrictlyNewerLocked store bars key).run state = (.ok manifest, after)) :
    ∃ rows, after.data (.bars .csv) = some (csvFile rows) ∧ ∀ row ∈ rows, row ∈ bars ∨
      ∃ old : List (MarketBar F), state.data (.bars .csv) = some (csvFile old) ∧ row ∈ old := by
  rw [MarketdataProvider.appendStrictlyNewerLocked, Prog.read_bind, Prog.run_step] at ran
  obtain ⟨plan, planned, -⟩ := Prog.run_ofExcept_bind_eq_ok.mp (congrArg Prod.fst ran)
  change MarketdataProvider.appendPlan state key bars = .ok plan at planned
  rw [show MarketdataProvider.appendPlan (id state) key bars = .ok plan from planned, Prog.ofExcept_ok,
    Prog.done_bind] at ran
  cases stored with
  | none =>
      have absent : state.manifest = none := NoFiles.unnamed held
      cases plan with
      | keep manifest =>
          obtain ⟨_, raw, -, named, -⟩ := appendPlan_keep planned
          cases named.symm.trans absent
      | replaceAll incoming =>
          obtain rfl := validatedAppendBars_eq (appendPlan_replaceAll planned).1
          have given : ∀ bar ∈ dropRepeats none bars, bar.Lasting :=
            fun bar member => lasting bar (mem_dropRepeats member)
          refine ⟨_, held.replaceAllLocked_rows rfl keyed given ran, ?_⟩
          intro row member
          exact .inl (mem_dropRepeats (mem_sortByTime.mp member))
      | commit journal payload =>
          obtain ⟨_, raw, _, _, -, named, -⟩ := appendPlan_commit planned
          cases named.symm.trans absent
  | some series =>
      obtain ⟨raw, written, files⟩ := held
      have made := @FilesOf.appendPlan _ F _ _ _ store normal key state series bars written raw files tail
      cases appended : appendSeries (some series) bars key with
      | error error =>
          rw [appended] at made
          cases planned.symm.trans made
      | ok extended =>
          have csv := appendSeries_ok_csv appended
          cases plan with
          | keep manifest =>
              obtain ⟨-, rfl⟩ := Prod.mk.inj ran
              exact ⟨written, files.data_csv csv, fun row member => .inr ⟨written, files.data_csv csv, member⟩⟩
          | replaceAll incoming =>
              cases (files.named.symm.trans (appendPlan_replaceAll planned).2)
          | commit journal payload =>
              obtain ⟨value, last, grown, returned, longer⟩ := files.commitAppend_files lasting appended planned
              obtain ⟨-, rfl⟩ := Prod.mk.inj (returned.symm.trans ran)
              refine ⟨_, longer.data_csv ((appendSeries_ok_format appended).trans csv), ?_⟩
              intro row member
              rcases List.mem_append.mp member with old | new
              · exact .inr ⟨written, files.data_csv csv, old⟩
              · exact .inl (mem_dropRepeats (List.mem_filter.mp new).1)

/-- The append that takes the writer lock itself. -/
theorem Held.appendStrictlyNewer (held : Held store normal state stored)
    (keyed : normalizedKey key = .ok normal) (lasting : ∀ bar ∈ bars, bar.Lasting)
    (tail : bars ≠ [] → TailReads F state) :
    Refines store normal stored (appendSeries stored bars key)
      (MarketdataProvider.appendStrictlyNewer store bars key) state :=
  .after (held.recoverSeries .seriesLock) (held.appendStrictlyNewerLocked keyed lasting tail)

/-- `_upsert_closed_locked` of a CSV store. -/
theorem Held.upsertClosedLocked (held : Held store normal state stored) (csv : store.dataFormat = .csv)
    {bar : MarketBar F} (keyed : normalizedKey bar.key = .ok normal) (lasting : bar.Lasting) :
    Refines store normal stored (upsertSeries stored bar)
      (MarketdataProvider.upsertClosedLocked store bar) state := by
  obtain ⟨last, ran, only⟩ := held.readAllLocked
  have again := held.onlyRead only
  refine .after ran ?_
  rw [upsertSeries, map_bind]
  refine .check again fun _ _ => again.replaceAllLocked csv keyed ?_
  intro other member
  rcases mem_insertByTime member with old | rfl
  · exact held.lasting other old
  · exact lasting

/-- A closed bar lies behind the tail of a CSV series. -/
def PastTail (stored : Option (ClosedSeries F)) (time : Int) : Prop :=
  ∃ series endTime, stored = some series ∧ series.format = .csv ∧ series.endTime = some endTime ∧ endTime < time

/-- `commit_closed` of a CSV store. -/
theorem Held.commitClosed (held : Held store normal state stored) (csv : store.dataFormat = .csv)
    (rounding : IntRounding F) {pending : Nat → Bool} {bar : MarketBar F}
    (keyed : normalizedKey bar.key = .ok normal) (lasting : bar.Lasting)
    (tail : PastTail stored bar.time → TailReads F state)
    (reads : ¬ PastTail stored bar.time → RangeReads F pending state (some bar.time)) :
    Prog.Realises (Held store normal) stored
      ((fun made => (made.1, some made.2.normalize)) <$> commitSeries stored bar)
      (MarketdataProvider.commitClosed pending store bar) state := by
  have single : ∀ other ∈ [bar], other.Lasting := List.forall_mem_singleton.mpr lasting
  have upserted (current : SeriesState) (again : Held store normal current stored) :
      Prog.Realises (Held store normal) stored
        ((fun made : CommitStatus × ClosedSeries F => (made.1, some made.2.normalize)) <$>
          ((CommitStatus.committed, ·) <$> upsertSeries stored bar))
        (MarketdataProvider.upsertClosedLocked store bar >>= fun _ => pure CommitStatus.committed) current := by
    have achieved := (again.upsertClosedLocked csv keyed lasting).realises CommitStatus.committed
    rwa [Functor.map_map] at achieved ⊢
  refine .after (held.recoverSeries .seriesLock) (.read ?_)
  cases stored with
  | none =>
      have absent : state.manifest = none := NoFiles.unnamed held
      obtain ⟨last, ran, only⟩ := held.getLocked rounding (reads fun past => by
        obtain ⟨series, _, same, -⟩ := past
        cases same)
      rw [absent, if_neg (by simp)]
      exact .after ran (upserted last (held.onlyRead only))
  | some series =>
      obtain ⟨raw, written, files⟩ := held
      have again : Held store normal state (some series) := ⟨raw, written, files⟩
      have takes : raw.toManifest.takesTail bar.time = true ↔
          series.format = .csv ∧ series.endTime.any (· < bar.time) = true := by
        rw [SegmentManifest.takesTail, files.format, files.endTime, Bool.and_eq_true, decide_eq_true_iff]
      have past : PastTail (some series) bar.time ↔
          series.format = .csv ∧ series.endTime.any (· < bar.time) = true := by
        rw [Option.any_eq_true]
        constructor
        · rintro ⟨_, endTime, ⟨⟩, isCsv, ends, later⟩
          exact ⟨isCsv, endTime, ends, decide_eq_true later⟩
        · rintro ⟨isCsv, endTime, ends, later⟩
          exact ⟨series, endTime, rfl, isCsv, ends, of_decide_eq_true later⟩
      rw [files.named, Option.any_some, commitSeries]
      by_cases newer : series.format = .csv ∧ series.endTime.any (· < bar.time) = true
      · rw [if_pos (takes.mpr newer), if_pos newer]
        have appended := (again.appendStrictlyNewerLocked keyed single
          (fun _ => tail (past.mpr newer))).realises CommitStatus.committed
        rwa [Functor.map_map] at appended ⊢
      · rw [if_neg (mt takes.mp newer), if_neg newer]
        obtain ⟨last, ran, only⟩ := again.getLocked rounding (reads (mt past.mp newer))
        refine .after ran ?_
        have kept := again.onlyRead only
        simp only [ClosedSeries.find, storedBars, Option.map_some, Option.getD_some]
        cases barAt series.bars bar.time with
        | none => exact upserted last kept
        | some existing =>
            dsimp only
            cases compareClosed existing bar with
            | error error => exact .fail kept
            | ok status =>
                refine .done ?_
                rwa [files.normalize]

end Held

end MarketdataProvider
