import Ert.Data.Frame
import Mathlib.Data.List.Nodup

/-! `MeasuredData` of `ert/data/_measured_data.py`. The object's only state is
`_data`. A method returns the new object or the exception it raises; `call`
says what the object holds afterwards. Building the frame from an ensemble
(`__init__`, `_get_data`) is in `Ert.Data.GetData`. -/
namespace Ert.Data

open Ert.Python

/-- The state of a `MeasuredData`: a frame with the rows `OBS` and `STD`, the
only frames `_set_data` stores. -/
@[ext] structure MeasuredData (κ α : Type) where
  data : Frame κ α
  obs_mem : Label.obs ∈ data.index
  std_mem : Label.std ∈ data.index

namespace Frame

variable {κ α : Type} {f : Frame κ α}

theorem drop_of_subset {labels : List Label} (h : ∀ l ∈ labels, l ∈ f.index) :
    f.drop labels = .ok (f.filterRows fun row => row.1 ∉ labels) := by
  have hNone : labels.filter (· ∉ f.index) = [] := by simpa using h
  unfold drop
  rw [hNone]
  rfl

/-- With distinct labels, a row's label survives `dropna(how="all")` exactly
when the row has a present cell. -/
theorem mem_dropnaRowsAll_index (hNodup : f.index.Nodup) {row : Label × List (Cell α)}
    (hRow : row ∈ f.rows) :
    row.1 ∈ f.dropnaRowsAll.index ↔ row.2.any Cell.notMissing = true := by
  constructor
  · intro h
    obtain ⟨other, hOther, hLabel⟩ := List.mem_map.mp h
    obtain ⟨hMem, hAny⟩ := List.mem_filter.mp hOther
    obtain rfl := List.inj_on_of_nodup_map hNodup hMem hRow hLabel
    exact hAny
  · intro h
    exact List.mem_map_of_mem _ (List.mem_filter.mpr ⟨hRow, h⟩)

theorem index_filterRows_nodup (hNodup : f.index.Nodup) (p : Label × List (Cell α) → Bool) :
    (f.filterRows p).index.Nodup :=
  hNodup.sublist ((List.filter_sublist _).map _)

@[simp] theorem filterRows_filterRows_self (p : Label × List (Cell α) → Bool) :
    (f.filterRows p).filterRows p = f.filterRows p :=
  Frame.ext rfl (List.filter_eq_self.mpr fun _ h => (List.mem_filter.mp h).2)

theorem mem_index_filterRows {p : Label × List (Cell α) → Bool} {l : Label}
    (hl : l ∈ f.index) (hp : ∀ row ∈ f.rows, row.1 = l → p row = true) :
    l ∈ (f.filterRows p).index := by
  obtain ⟨row, hRow, rfl⟩ := List.mem_map.mp hl
  exact List.mem_map_of_mem _ (List.mem_filter.mpr ⟨hRow, hp row hRow rfl⟩)

end Frame

namespace MeasuredData

variable {κ α : Type}

/-- The message of `_set_data`'s `ValueError`. Python prints both sets in hash
order; the model prints `OBS` before `STD`. -/
def missingKeysMessage (missing : List Label) : String :=
  "\x7b'OBS', 'STD'\x7d should be present in DataFrame index,                 missing: \x7b" ++
    ", ".intercalate (missing.map Label.repr) ++ "\x7d"

/-- `_set_data(data)`. The argument is a frame by its type, so the `TypeError`
branch is not modelled. -/
def setData (data : Frame κ α) : Except Exc (MeasuredData κ α) :=
  if h : Label.obs ∈ data.index ∧ Label.std ∈ data.index then pure ⟨data, h.1, h.2⟩
  else throw (.valueError (missingKeysMessage ([Label.obs, Label.std].filter (· ∉ data.index))))

theorem setData_of_mem {data : Frame κ α} (hObs : Label.obs ∈ data.index)
    (hStd : Label.std ∈ data.index) : setData data = .ok ⟨data, hObs, hStd⟩ :=
  dif_pos ⟨hObs, hStd⟩

/-- A method call on the object: `_data` changes only when the method returns. -/
def call (method : MeasuredData κ α → Except Exc (MeasuredData κ α)) (md : MeasuredData κ α) :
    MeasuredData κ α × Option Exc :=
  match method md with
  | .ok md' => (md', none)
  | .error e => (md, some e)

/-- `remove_failed_realizations()`. -/
def removeFailedRealizations (md : MeasuredData κ α) : Except Exc (MeasuredData κ α) := do
  let preIndex := md.data.index
  let postIndex := md.data.dropnaRowsAll.index
  let dropIndex := preIndex.filter fun l => l ∉ postIndex ++ [Label.std, Label.obs]
  setData (← md.data.drop dropIndex)

/-- `get_simulated_data()`: the rows other than `OBS` and `STD`. -/
def getSimulatedData (md : MeasuredData κ α) : Frame κ α :=
  md.data.filterRows fun row => row.1 ∉ [Label.obs, Label.std]

def emptyDatasetMessage : String :=
  "This operation results in an empty dataset (could be due to one or more failed realizations)"

/-- `remove_inactive_observations()`. -/
def removeInactiveObservations (md : MeasuredData κ α) : Except Exc (MeasuredData κ α) := do
  let filteredDataset := md.data.replaceInf.dropnaColumnsAny
  if filteredDataset.empty then throw (.valueError emptyDatasetMessage)
  setData filteredDataset

/-- `is_empty()`. -/
def isEmpty (md : MeasuredData κ α) : Bool := md.data.empty

/-- The rows the method's docstring keeps: observations, standard deviations,
and every row with simulated data. -/
def keepsRow (row : Label × List (Cell α)) : Bool :=
  decide (row.1 = Label.obs ∨ row.1 = Label.std) || row.2.any Cell.notMissing

/-- With distinct labels, a row's label is outside the dropped set exactly when
`keepsRow` keeps the row. -/
theorem not_mem_dropIndex (md : MeasuredData κ α) (hNodup : md.data.index.Nodup)
    {row : Label × List (Cell α)} (hRow : row ∈ md.data.rows) :
    decide (row.1 ∉ md.data.index.filter fun l => l ∉ md.data.dropnaRowsAll.index ++
      [Label.std, Label.obs]) = keepsRow row := by
  have hIndex : row.1 ∈ md.data.index := List.mem_map_of_mem _ hRow
  have hPost := Frame.mem_dropnaRowsAll_index hNodup hRow
  rw [Bool.eq_iff_iff]
  simp only [keepsRow, List.mem_filter, hIndex, List.mem_append, hPost, List.mem_cons,
    List.not_mem_nil, decide_eq_true_eq, Bool.or_eq_true, true_and]
  tauto

/-- The rows `remove_failed_realizations` keeps, by the code: those whose label
is outside `set(pre_index) - {*post_index, "STD", "OBS"}`. -/
def notDropped (f : Frame κ α) (row : Label × List (Cell α)) : Bool :=
  decide (row.1 ∉ f.index.filter fun l => l ∉ f.dropnaRowsAll.index ++ [Label.std, Label.obs])

/-- `remove_failed_realizations` never raises: it drops only labels of the
index, and never `OBS` or `STD`. -/
theorem removeFailedRealizations_ok (md : MeasuredData κ α) :
    ∃ md', md.removeFailedRealizations = .ok md' ∧ md'.data = md.data.filterRows (notDropped md.data) := by
  have hKeep : ∀ l, l = Label.obs ∨ l = Label.std → ∀ row ∈ md.data.rows, row.1 = l →
      notDropped md.data row = true := by
    rintro l hl row - rfl
    rcases hl with hl | hl <;> simp [notDropped, List.mem_filter, hl]
  have hObs := Frame.mem_index_filterRows md.obs_mem (hKeep _ (.inl rfl))
  have hStd := Frame.mem_index_filterRows md.std_mem (hKeep _ (.inr rfl))
  refine ⟨⟨md.data.filterRows (notDropped md.data), hObs, hStd⟩, ?_, rfl⟩
  simp only [removeFailedRealizations]
  rw [Frame.drop_of_subset fun l hl => (List.mem_filter.mp hl).1]
  exact setData_of_mem hObs hStd

theorem removeFailedRealizations_eq (md : MeasuredData κ α) (hNodup : md.data.index.Nodup) :
    ∃ md', md.removeFailedRealizations = .ok md' ∧ md'.data = md.data.filterRows keepsRow := by
  obtain ⟨md', hCall, hData⟩ := removeFailedRealizations_ok md
  exact ⟨md', hCall, hData.trans (Frame.ext rfl (List.filter_congr fun row hRow =>
    not_mem_dropIndex md hNodup hRow))⟩

/-- `remove_failed_realizations` never raises on a frame with distinct labels;
it keeps `OBS`, `STD` and every row with a present cell, as they were, and a
second call changes nothing. -/
theorem removeFailedRealizations_keeps_rows (md : MeasuredData κ α)
    (hNodup : md.data.index.Nodup) :
    ∃ md', md.removeFailedRealizations = .ok md' ∧ md'.data = md.data.filterRows keepsRow ∧
      md'.removeFailedRealizations = .ok md' := by
  obtain ⟨md', hCall, hData⟩ := removeFailedRealizations_eq md hNodup
  have hNodup' : md'.data.index.Nodup := hData ▸ Frame.index_filterRows_nodup hNodup keepsRow
  obtain ⟨md'', hCall', hData'⟩ := removeFailedRealizations_eq md' hNodup'
  have hSame : md'' = md' := MeasuredData.ext (by rw [hData', hData, Frame.filterRows_filterRows_self])
  exact ⟨md', hCall, hData, hSame ▸ hCall'⟩

/-- Two realizations: `0` failed (all `NaN`), `1` has only `+inf`; `STD` is all `NaN`. -/
def twoRealizations : MeasuredData String Int :=
  ⟨⟨["FOPR"], [(Label.obs, [.finite 1]), (Label.std, [.nan]), (.int 0, [.nan]),
    (.int 1, [.posInf])], by decide⟩, by decide, by decide⟩

theorem removeFailedRealizations_keeps_rows_twoRealizations :
    twoRealizations.data.index.Nodup ∧
      ∃ md', twoRealizations.removeFailedRealizations = .ok md' ∧
        md'.data = twoRealizations.data.filterRows keepsRow ∧
        md'.removeFailedRealizations = .ok md' :=
  ⟨by decide, removeFailedRealizations_keeps_rows twoRealizations (by decide)⟩

/-- `get_simulated_data()` after `remove_failed_realizations()`: the realization
rows as they were, less those without a present cell. -/
theorem getSimulatedData_removeFailedRealizations (md : MeasuredData κ α)
    (hNodup : md.data.index.Nodup) :
    ∃ md', md.removeFailedRealizations = .ok md' ∧
      md'.getSimulatedData.rows = md.getSimulatedData.rows.filter fun row => row.2.any Cell.notMissing := by
  obtain ⟨md', hCall, hData⟩ := removeFailedRealizations_eq md hNodup
  refine ⟨md', hCall, ?_⟩
  simp only [getSimulatedData, hData, Frame.filterRows_rows, List.filter_filter]
  refine List.filter_congr fun row _ => ?_
  by_cases hObs : row.1 = Label.obs <;> by_cases hStd : row.1 = Label.std <;>
    simp [keepsRow, hObs, hStd, Bool.and_comm]

theorem getSimulatedData_removeFailedRealizations_twoRealizations :
    twoRealizations.data.index.Nodup ∧
      ∃ md', twoRealizations.removeFailedRealizations = .ok md' ∧
        md'.getSimulatedData.rows =
          twoRealizations.getSimulatedData.rows.filter fun row => row.2.any Cell.notMissing :=
  ⟨by decide, getSimulatedData_removeFailedRealizations twoRealizations (by decide)⟩

/-- The object restricted to the flagged columns; the rows, `OBS` and `STD`
among them, stay. -/
def withColumns (md : MeasuredData κ α) (keep : List Bool) : MeasuredData κ α :=
  ⟨md.data.selectColumns keep, by simpa using md.obs_mem, by simpa using md.std_mem⟩

theorem removeInactiveObservations_eq (md : MeasuredData κ α) :
    md.removeInactiveObservations =
      if ∀ j < md.data.columns.length, ∃ row ∈ md.data.rows, (row.2.getD j .nan).isFinite = false
      then .error (.valueError emptyDatasetMessage)
      else .ok (md.withColumns (md.data.columnsWhere Cell.isFinite)) := by
  have hRows : md.data.rows ≠ [] := fun h => by simpa [Frame.index, h] using md.obs_mem
  have hFiltered : md.data.replaceInf.dropnaColumnsAny =
      md.data.selectColumns (md.data.columnsWhere Cell.isFinite) := by
    rw [Frame.dropnaColumnsAny, Frame.replaceInf_columnsWhere, Frame.replaceInf_selectColumns]
  have hEmpty := md.data.selectColumns_empty hRows (md.data.length_columnsWhere Cell.isFinite)
  simp only [Frame.columnsWhere_all_false] at hEmpty
  simp only [removeInactiveObservations, hFiltered, hEmpty, decide_eq_true_eq]
  split_ifs
  · rfl
  · exact setData_of_mem _ _

/-- `remove_inactive_observations` raises exactly when every column has a
`NaN` or `±inf` cell, and then the object keeps its data; otherwise the object
keeps exactly the columns of finite cells, every row and every kept cell. -/
theorem removeInactiveObservations_call (md : MeasuredData κ α) :
    md.call removeInactiveObservations =
      if ∀ j < md.data.columns.length, ∃ row ∈ md.data.rows, (row.2.getD j .nan).isFinite = false
      then (md, some (.valueError emptyDatasetMessage))
      else (md.withColumns (md.data.columnsWhere Cell.isFinite), none) := by
  rw [call, removeInactiveObservations_eq]
  split_ifs <;> rfl

end MeasuredData

end Ert.Data
