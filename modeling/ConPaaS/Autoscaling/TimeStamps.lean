import ConPaaS.Lib.Sweep
import ConPaaS.Lib.Table
import Mathlib.Data.Rat.Defs

namespace ConPaaS

open Keyed Sweeping

/-- A column of a record, under the name of its metric. -/
structure MetricColumn where
  metric : String
  values : List Rat

def MetricColumn.delete (index : Nat) (column : MetricColumn) : MetricColumn :=
  { column with values := column.values.eraseIdx index }

/-- A record of monitoring data: the column `timestamps` and the others. -/
structure MonitoringData where
  timestamps : List Int
  columns : Table MetricColumn.metric

namespace MonitoringData

variable (data : MonitoringData)

def column (metric : String) : Option (List Rat) := (data.columns.get? metric).map MetricColumn.values

/-- `del new_monitoring_data[metric][index]`. -/
def deleteValue (index : Nat) (columns : Table MetricColumn.metric) (metric : String) : Option (Table MetricColumn.metric) :=
  (columns.get? metric).bind fun column =>
    if index < column.values.length then
      some (columns.modify metric (.delete index) fun _ => rfl)
    else none

/-- What is deleted for a time stamp. -/
def deleteAt (monitoringMetrics : List String) (index : Nat) : Option MonitoringData :=
  (monitoringMetrics.foldlM (deleteValue index) data.columns).map fun columns => ⟨data.timestamps.eraseIdx index, columns⟩

/-- The loop over the time stamps from an index on. -/
def filterFrom (old : List Int) (monitoringMetrics : List String) : Nat → Nat → MonitoringData → Option MonitoringData
  | 0, _, data => some data
  | left + 1, index, data =>
    match data.timestamps[index]? with
    | none => some data
    | some timestamp =>
      if timestamp ∈ old then (data.deleteAt monitoringMetrics index).bind (filterFrom old monitoringMetrics left (index + 1))
      else filterFrom old monitoringMetrics left (index + 1) data

end MonitoringData

/-- The remembered records of the class, where there are some. -/
structure StatUtils where
  oldMonitoringDataResp : Option MonitoringData
  oldMonitoringData : Option MonitoringData

/-- `filter_monitoring_data`, with the object after the call. -/
def StatUtils.filterMonitoringData (s : StatUtils) (new : MonitoringData) (monitoringMetrics : List String) :
    Option (MonitoringData × StatUtils) :=
  match s.oldMonitoringData with
  | none => some (new, { s with oldMonitoringData := some new })
  | some old =>
    if new.columns.rows.length + 1 ≤ 1 then some (new, { s with oldMonitoringData := some new })
    else
      (MonitoringData.filterFrom old.timestamps monitoringMetrics new.timestamps.length 0 new).map fun filtered =>
        (filtered, { s with oldMonitoringDataResp := some filtered })

/-- The metrics a record is filtered by. -/
structure MetricNames where
  names : List String
  distinct : names.Nodup

/-- A record that has a column for every metric, as long as the time stamps. -/
def Rectangular (metrics : MetricNames) (data : MonitoringData) : Prop :=
  ∀ metric ∈ metrics.names, ∃ values, data.column metric = some values ∧ values.length = data.timestamps.length

/-- A record without the entries of another one's time stamps. -/
def FilteredBy (metrics : MetricNames) (old new result : MonitoringData) : Prop :=
  result.timestamps = new.timestamps.filter (fun timestamp => timestamp ∉ old.timestamps) ∧
  ∀ metric ∈ metrics.names, ∀ values, new.column metric = some values →
    result.column metric =
      some (((new.timestamps.zip values).filter fun entry => entry.1 ∉ old.timestamps).map Prod.snd)

variable {data : MonitoringData} {metrics : MetricNames} {index : Nat}

theorem zip_eraseIdx {α β : Type} (left : List α) (right : List β) (index : Nat) :
    (left.eraseIdx index).zip (right.eraseIdx index) = (left.zip right).eraseIdx index := by
  induction left generalizing right index with
  | nil => simp
  | cons a left ih =>
    cases right with
    | nil => simp
    | cons b right =>
      cases index with
      | zero => rfl
      | succ index => simp [ih]

/-- Deleting a value touches one column. -/
theorem foldlM_deleteValue {names : List String} (distinct : names.Nodup) {columns : Table MetricColumn.metric}
    (bound : ∀ metric ∈ names, ∃ column, columns.get? metric = some column ∧ index < column.values.length) :
    ∃ left, names.foldlM (MonitoringData.deleteValue index) columns = some left ∧ ∀ metric,
      (left.get? metric).map MetricColumn.values =
        ((columns.get? metric).map MetricColumn.values).map fun values => if metric ∈ names then values.eraseIdx index else values := by
  induction names generalizing columns with
  | nil => exact ⟨columns, rfl, fun metric => by simp [Function.comp_def]⟩
  | cons name names ih =>
    obtain ⟨fresh, distinct⟩ := List.nodup_cons.mp distinct
    obtain ⟨column, found, long⟩ := bound name List.mem_cons_self
    have deleted : MonitoringData.deleteValue index columns name = some (columns.modify name (.delete index) fun _ => rfl) := by
      rw [MonitoringData.deleteValue, found, Option.bind_some, if_pos long]
    have others : ∀ metric ∈ names, ∃ column,
        (columns.modify name (.delete index) fun _ => rfl).get? metric = some column ∧ index < column.values.length := by
      intro metric member
      have other : metric ≠ name := fun same => fresh (same ▸ member)
      rw [Table.get?_modify_ne columns other (.delete index) fun _ => rfl]
      exact bound metric (List.mem_cons_of_mem name member)
    obtain ⟨left, folded, values⟩ := ih distinct others
    refine ⟨left, ?_, fun metric => ?_⟩
    · rw [List.foldlM_cons, deleted]
      exact folded
    · rw [values, Table.get?_modify_map columns name metric (.delete index) fun _ => rfl, Option.map_map, Option.map_map, Option.map_map]
      congr 1
      funext column
      by_cases here : metric = name
      · simp [here, fresh, MetricColumn.delete]
      · simp [here]

theorem Rectangular.deleteAt (level : Rectangular metrics data) (bound : index < data.timestamps.length) :
    ∃ left, data.deleteAt metrics.names index = some left ∧ Rectangular metrics left ∧
      left.timestamps = data.timestamps.eraseIdx index ∧
      ∀ metric ∈ metrics.names, left.column metric = (data.column metric).map fun values => values.eraseIdx index := by
  have long : ∀ metric ∈ metrics.names, ∃ column, data.columns.get? metric = some column ∧ index < column.values.length := by
    intro metric member
    obtain ⟨values, found, same⟩ := level metric member
    obtain ⟨column, stored, rfl⟩ := Option.map_eq_some_iff.mp found
    exact ⟨column, stored, same ▸ bound⟩
  obtain ⟨left, folded, values⟩ := foldlM_deleteValue metrics.distinct long
  have column : ∀ metric ∈ metrics.names, MonitoringData.column ⟨data.timestamps.eraseIdx index, left⟩ metric =
      (data.column metric).map fun values => values.eraseIdx index := by
    intro metric member
    have erased := values metric
    simp only [member, if_true] at erased
    exact erased
  refine ⟨_, by rw [MonitoringData.deleteAt, folded, Option.map_some], fun metric member => ?_, rfl, column⟩
  obtain ⟨values, found, same⟩ := level metric member
  refine ⟨values.eraseIdx index, ?_, ?_⟩
  · rw [column metric member, found, Option.map_some]
  · rw [List.length_eraseIdx, List.length_eraseIdx, same]

theorem Rectangular.length (level : Rectangular metrics data) {metric : String} (member : metric ∈ metrics.names)
    {values : List Rat} (stored : data.column metric = some values) : values.length = data.timestamps.length := by
  obtain ⟨_, found, same⟩ := level metric member
  exact Option.some.inj (stored.symm.trans found) ▸ same

/-- The entry of a time stamp in a column. -/
theorem Rectangular.entry (level : Rectangular metrics data) {metric : String} (member : metric ∈ metrics.names)
    {values : List Rat} (stored : data.column metric = some values) {timestamp : Int}
    (found : data.timestamps[index]? = some timestamp) :
    ∃ value, (data.timestamps.zip values)[index]? = some (timestamp, value) := by
  have bound : index < values.length := level.length member stored ▸ (List.getElem?_eq_some_iff.mp found).1
  exact ⟨values[index], List.getElem?_zip_eq_some.mpr ⟨found, List.getElem?_eq_getElem bound⟩⟩

/-- Past the last time stamp nothing is left to sweep. -/
theorem Rectangular.unswept {old : List Int} (level : Rectangular metrics data) (passed : data.timestamps.length ≤ index) :
    ∀ metric ∈ metrics.names, ∀ values, data.column metric = some values →
      data.column metric = some ((sweepFrom (fun entry => entry.1 ∈ old) index (data.timestamps.zip values)).map Prod.snd) := by
  intro metric member values found
  have same := level.length member found
  have rows : (data.timestamps.zip values).length ≤ index := by
    rw [List.length_zip]
    omega
  rw [sweepFrom_end rows, List.map_snd_zip same.le, found]

/-- The loop leaves in every column what is left of the time stamps. -/
theorem Rectangular.filterFrom (old : List Int) {left : Nat} (level : Rectangular metrics data)
    (enough : data.timestamps.length ≤ left + index) :
    ∃ result, data.filterFrom old metrics.names left index = some result ∧
      result.timestamps = sweepFrom (· ∈ old) index data.timestamps ∧
      ∀ metric ∈ metrics.names, ∀ values, data.column metric = some values →
        result.column metric = some ((sweepFrom (fun entry => entry.1 ∈ old) index (data.timestamps.zip values)).map Prod.snd) := by
  induction left generalizing data index with
  | zero =>
    have passed : data.timestamps.length ≤ index := by omega
    exact ⟨data, rfl, (sweepFrom_end passed).symm, level.unswept passed⟩
  | succ left ih =>
    rw [MonitoringData.filterFrom]
    cases found : data.timestamps[index]? with
    | none =>
      have passed := List.getElem?_eq_none_iff.mp found
      exact ⟨data, rfl, (sweepFrom_end passed).symm, level.unswept passed⟩
    | some timestamp =>
      have bound := (List.getElem?_eq_some_iff.mp found).1
      by_cases seen : timestamp ∈ old
      · obtain ⟨less, deleted, level', timestamps, columns⟩ := level.deleteAt bound
        have enough' : less.timestamps.length ≤ left + (index + 1) := by
          rw [timestamps, List.length_eraseIdx_of_lt bound]
          omega
        obtain ⟨result, swept, stamps, values'⟩ := ih level' enough'
        refine ⟨result, ?_, ?_, fun metric member values stored => ?_⟩
        · simp only [if_pos seen, deleted, Option.bind_some, swept]
        · rw [stamps, timestamps, sweepFrom_delete found (by simpa using seen)]
        · have erased := columns metric member
          rw [stored, Option.map_some] at erased
          obtain ⟨value, entry⟩ := level.entry member stored found
          rw [values' metric member _ erased, timestamps, zip_eraseIdx, sweepFrom_delete entry (by simpa using seen)]
      · obtain ⟨result, swept, stamps, values'⟩ := ih level (by omega : data.timestamps.length ≤ left + (index + 1))
        refine ⟨result, ?_, ?_, fun metric member values stored => ?_⟩
        · simp only [if_neg seen, swept]
        · rw [stamps, sweepFrom_keep found (by simpa using seen)]
        · obtain ⟨value, entry⟩ := level.entry member stored found
          rw [values' metric member values stored, sweepFrom_keep entry (by simpa using seen)]

/-- No two time stamps of a record that stand together are in another one. -/
def StampsApart (old new : MonitoringData) : Prop :=
  new.timestamps.IsChain fun a b => ¬(a ∈ old.timestamps ∧ b ∈ old.timestamps)

/-- The loop filters a record exactly if no two old time stamps stand together. -/
theorem filteredBy_swept_iff {old new : MonitoringData} (level : Rectangular metrics new) :
    (∃ result, new.filterFrom old.timestamps metrics.names new.timestamps.length 0 = some result ∧ FilteredBy metrics old new result) ↔
      StampsApart old new := by
  obtain ⟨result, swept, stamps, columns⟩ := level.filterFrom old.timestamps (Nat.le_add_right new.timestamps.length 0)
  have apart : StampsApart old new ↔ sweep (· ∈ old.timestamps) new.timestamps = new.timestamps.filter fun a => !(a ∈ old.timestamps) := by
    rw [sweep_eq_filter_iff, StampsApart]
    simp only [decide_eq_true_eq]
  rw [sweepFrom_zero] at stamps
  rw [apart]
  constructor
  · rintro ⟨result', swept', filtered⟩
    obtain rfl := Option.some.inj (swept.symm.trans swept')
    rw [← stamps, filtered.1]
    exact List.filter_congr fun a _ => decide_not
  · intro same
    refine ⟨result, swept, ?_, fun metric member values stored => ?_⟩
    · rw [stamps, same]
      exact List.filter_congr fun a _ => decide_not.symm
    · have length := level.length member stored
      have rows : sweep (fun entry => entry.1 ∈ old.timestamps) (new.timestamps.zip values) =
          (new.timestamps.zip values).filter fun entry => !(entry.1 ∈ old.timestamps) := by
        have stamped : (new.timestamps.zip values).map Prod.fst = new.timestamps := List.map_fst_zip length.ge
        have chain := sweep_eq_filter_iff.mp same
        rw [← stamped, List.isChain_map] at chain
        exact sweep_eq_filter_iff.mpr chain
      rw [columns metric member values stored, sweepFrom_zero, rows]
      simp only [decide_not]

variable (metrics) in
/-- What the records returned by calls one after the other are. -/
def StatUtils.filterAll : StatUtils → List MonitoringData → Option (List MonitoringData × StatUtils)
  | s, [] => some ([], s)
  | s, new :: later =>
    (s.filterMonitoringData new metrics.names).bind fun called =>
      (filterAll called.2 later).map fun rest => (called.1 :: rest.1, rest.2)

theorem filterMonitoringData_columns {s : StatUtils} {old new : MonitoringData} (remembered : s.oldMonitoringData = some old)
    (columns : new.columns.rows ≠ []) :
    s.filterMonitoringData new metrics.names =
      (new.filterFrom old.timestamps metrics.names new.timestamps.length 0).map fun filtered =>
        (filtered, { s with oldMonitoringDataResp := some filtered }) := by
  have several : ¬ new.columns.rows.length + 1 ≤ 1 := by
    have positive := List.length_pos_iff.mpr columns
    omega
  rw [StatUtils.filterMonitoringData, remembered]
  exact if_neg several

theorem filterMonitoringData_bare {s : StatUtils} {old new : MonitoringData} (remembered : s.oldMonitoringData = some old)
    (bare : new.columns.rows = []) :
    s.filterMonitoringData new metrics.names = some (new, { s with oldMonitoringData := some new }) := by
  rw [StatUtils.filterMonitoringData, remembered]
  exact if_pos (by rw [bare]; rfl)

/-- The records for which the loop does what it is for: those with a column in
which no two old time stamps stand together, and those without one and without
an old time stamp. -/
def Filterable (old new : MonitoringData) : Prop :=
  (new.columns.rows ≠ [] → StampsApart old new) ∧ (new.columns.rows = [] → ∀ timestamp ∈ new.timestamps, timestamp ∉ old.timestamps)

theorem filteredBy_iff {s : StatUtils} {old new : MonitoringData} (remembered : s.oldMonitoringData = some old)
    (level : Rectangular metrics new) :
    (∃ result after, s.filterMonitoringData new metrics.names = some (result, after) ∧ FilteredBy metrics old new result) ↔
      Filterable old new := by
  by_cases bare : new.columns.rows = []
  · rw [filterMonitoringData_bare remembered bare, Filterable]
    simp only [bare, ne_eq, not_true_eq_false, false_implies, true_implies, true_and]
    have kept : new.timestamps = new.timestamps.filter (fun timestamp => timestamp ∉ old.timestamps) ↔
        ∀ timestamp ∈ new.timestamps, timestamp ∉ old.timestamps := by
      rw [eq_comm, List.filter_eq_self]
      simp only [decide_eq_true_eq]
    constructor
    · rintro ⟨result, after, called, filtered⟩
      cases called
      exact kept.mp filtered.1
    · intro unseen
      refine ⟨new, _, rfl, kept.mpr unseen, fun metric member => ?_⟩
      obtain ⟨values, stored, -⟩ := level metric member
      obtain ⟨column, found, -⟩ := Option.map_eq_some_iff.mp stored
      exact absurd (Table.get?_mem found) (bare ▸ List.not_mem_nil)
  · rw [filterMonitoringData_columns remembered bare, Filterable]
    simp only [bare, ne_eq, not_false_eq_true, true_implies, false_implies, and_true]
    rw [← filteredBy_swept_iff level]
    constructor
    · rintro ⟨result, after, called, filtered⟩
      obtain ⟨swept, found, same⟩ := Option.map_eq_some_iff.mp called
      cases same
      exact ⟨result, found, filtered⟩
    · rintro ⟨result, swept, filtered⟩
      exact ⟨result, _, by rw [swept, Option.map_some], filtered⟩

/-- A record with a column whose time stamps are in the first record exactly if
they are in the one before, where no two of them stand together. -/
structure StampsAgree (metrics : MetricNames) (first previous new : MonitoringData) : Prop where
  level : Rectangular metrics new
  columns : new.columns.rows ≠ []
  same : ∀ timestamp ∈ new.timestamps, timestamp ∈ first.timestamps ↔ timestamp ∈ previous.timestamps
  apart : StampsApart previous new

theorem StampsAgree.apart_first {first previous new : MonitoringData} (agrees : StampsAgree metrics first previous new) : StampsApart first new :=
  agrees.apart.imp_of_mem_imp fun a b left right none both =>
    none ⟨(agrees.same a left).mp both.1, (agrees.same b right).mp both.2⟩

theorem StampsAgree.filteredBy {first previous new result : MonitoringData} (agrees : StampsAgree metrics first previous new)
    (filtered : FilteredBy metrics first new result) : FilteredBy metrics previous new result := by
  refine ⟨filtered.1.trans (List.filter_congr fun a member => ?_), fun metric member values stored => ?_⟩
  · rw [decide_eq_decide, not_iff_not]
    exact agrees.same a member
  · rw [filtered.2 metric member values stored]
    congr 2
    refine List.filter_congr fun entry inside => ?_
    rw [decide_eq_decide, not_iff_not]
    exact agrees.same entry.1 (List.of_mem_zip inside).1

/-- The first record with a column is the one that is remembered. -/
theorem filterAll_agreeing {s : StatUtils} {first previous : MonitoringData} {later : List MonitoringData}
    (remembered : s.oldMonitoringData = some first) (agree : (previous :: later).IsChain (StampsAgree metrics first)) :
    ∃ results after, s.filterAll metrics later = some (results, after) ∧
      List.Forall₂ (fun call result => FilteredBy metrics call.1 call.2 result) ((previous :: later).zip later) results := by
  induction later generalizing s previous with
  | nil => exact ⟨[], s, rfl, .nil⟩
  | cons new later ih =>
    obtain ⟨agrees, agree⟩ := List.isChain_cons_cons.mp agree
    obtain ⟨result, swept, filtered⟩ := (filteredBy_swept_iff agrees.level).mpr agrees.apart_first
    have called : s.filterMonitoringData new metrics.names = _ := filterMonitoringData_columns remembered agrees.columns
    rw [swept, Option.map_some] at called
    obtain ⟨results, after, rest, compared⟩ := ih (s := { s with oldMonitoringDataResp := some result }) remembered agree
    refine ⟨result :: results, after, ?_, .cons (agrees.filteredBy filtered) compared⟩
    rw [StatUtils.filterAll, called, Option.bind_some, rest, Option.map_some]

/-- The object at its construction. -/
def StatUtils.fresh : StatUtils := ⟨none, none⟩

/-- A call filters a record by the remembered one exactly if no two of its time
stamps that the remembered record has stand together. In a sequence of calls
each record is filtered by the one before it while the first record answers for
the one before. -/
theorem filterMonitoringData_iff (metrics : MetricNames) :
    (∀ (s : StatUtils) (old new : MonitoringData), s.oldMonitoringData = some old → Rectangular metrics new →
      ((∃ result after, s.filterMonitoringData new metrics.names = some (result, after) ∧ FilteredBy metrics old new result) ↔
        Filterable old new)) ∧
    ∀ first later, (first :: later).IsChain (StampsAgree metrics first) →
      ∃ results after, StatUtils.fresh.filterAll metrics (first :: later) = some (first :: results, after) ∧
        List.Forall₂ (fun call result => FilteredBy metrics call.1 call.2 result) ((first :: later).zip later) results := by
  refine ⟨fun s old new remembered level => filteredBy_iff remembered level, fun first later agree => ?_⟩
  obtain ⟨results, after, rest, compared⟩ := filterAll_agreeing (s := ⟨none, some first⟩) rfl agree
  refine ⟨results, after, ?_, compared⟩
  rw [StatUtils.filterAll, StatUtils.filterMonitoringData]
  simp only [StatUtils.fresh, Option.bind_some, rest, Option.map_some]

/-- The metric of the examples. -/
def cpuOnly : MetricNames := ⟨["cpu_user"], by decide⟩

def samples (timestamps : List Int) (values : List Rat) : MonitoringData := ⟨timestamps, ⟨[⟨"cpu_user", values⟩], List.nodup_singleton _⟩⟩

theorem samples_compared : ∃ results after,
    StatUtils.fresh.filterAll cpuOnly [samples [15, 30] [1, 2], samples [30, 45] [2, 3], samples [60, 75] [4, 5]] =
      some (samples [15, 30] [1, 2] :: results, after) ∧
    List.Forall₂ (fun call result => FilteredBy cpuOnly call.1 call.2 result)
      [(samples [15, 30] [1, 2], samples [30, 45] [2, 3]), (samples [30, 45] [2, 3], samples [60, 75] [4, 5])] results := by
  refine (filterMonitoringData_iff cpuOnly).2 _ _ ?_
  have level (timestamps : List Int) (values : List Rat) (same : values.length = timestamps.length) :
      Rectangular cpuOnly (samples timestamps values) := by
    intro metric member
    obtain rfl := List.mem_singleton.mp member
    exact ⟨values, rfl, same⟩
  refine .cons_cons ⟨level _ _ rfl, by decide, by decide, ?_⟩ (.cons_cons ⟨level _ _ rfl, by decide, by decide, ?_⟩ (.singleton _))
  · unfold StampsApart
    decide
  · unfold StampsApart
    decide

/-- Of two old time stamps that stand together the second one stays, and in the
third call the time stamps of the second are kept. -/
theorem samples_left :
    ¬ (∃ result after, StatUtils.filterMonitoringData ⟨none, some (samples [15, 30] [1, 2])⟩ (samples [15, 30, 45] [1, 2, 3])
      cpuOnly.names = some (result, after) ∧ FilteredBy cpuOnly (samples [15, 30] [1, 2]) (samples [15, 30, 45] [1, 2, 3]) result) ∧
    ¬ ∃ results after,
      StatUtils.fresh.filterAll cpuOnly [samples [15, 30] [1, 2], samples [30, 45] [2, 3], samples [45, 60] [3, 4]] =
        some (samples [15, 30] [1, 2] :: results, after) ∧
      List.Forall₂ (fun call result => FilteredBy cpuOnly call.1 call.2 result)
        [(samples [15, 30] [1, 2], samples [30, 45] [2, 3]), (samples [30, 45] [2, 3], samples [45, 60] [3, 4])] results := by
  constructor
  · rintro ⟨result, after, called, filtered⟩
    cases called
    exact absurd filtered.1 (by decide)
  · rintro ⟨results, after, called, compared⟩
    cases called
    cases compared with
    | cons _ compared =>
      cases compared with
      | cons filtered _ => exact absurd filtered.1 (by decide)

end ConPaaS
