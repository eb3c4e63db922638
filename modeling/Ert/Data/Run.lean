import Ert.Data.GetData

/-! A `MeasuredData` object through a sequence of method calls, each on the
object the previous call left; a call that raises leaves the object as it was.
Over every run the row labels and the columns only shrink, in order, and the
only exception raised is the empty-dataset error of `remove_inactive_observations`.
No call changes a cell, and `is_empty` answers the same before and after.
Every object a program can reach from `__init__` has distinct labels and is a
sub-frame of the table `__init__` built. Once `remove_inactive_observations` has
returned, every cell is finite, and no later call changes the object or raises;
so whatever the calls, an object ends in one of four states. -/
namespace Ert.Data

open Ert.Python

/-- The methods of `MeasuredData` that set `_data`. -/
inductive Method where
  | removeFailedRealizations
  | removeInactiveObservations
  deriving Repr, DecidableEq

namespace MeasuredData

variable {κ α : Type}

/-- The method's effect on the object. -/
def apply : Method → MeasuredData κ α → Except Exc (MeasuredData κ α)
  | .removeFailedRealizations => removeFailedRealizations
  | .removeInactiveObservations => removeInactiveObservations

/-- The object after calling `methods` in order, and the exceptions raised. -/
def run (md : MeasuredData κ α) : List Method → MeasuredData κ α × List Exc
  | [] => (md, [])
  | m :: ms =>
      let (next, raised) := md.call (apply m)
      let (final, rest) := run next ms
      (final, raised.toList ++ rest)

theorem run_cons_fst (md : MeasuredData κ α) (m : Method) (ms : List Method) :
    (md.run (m :: ms)).1 = ((md.call (apply m)).1.run ms).1 := rfl

/-- Row labels and columns of the object, each a sublist of the other's. -/
def Shrinks (after before : MeasuredData κ α) : Prop :=
  after.data.index.Sublist before.data.index ∧ after.data.columns.Sublist before.data.columns

theorem Shrinks.trans {a b c : MeasuredData κ α} (hab : Shrinks a b) (hbc : Shrinks b c) :
    Shrinks a c :=
  ⟨hab.1.trans hbc.1, hab.2.trans hbc.2⟩

theorem Shrinks.refl (md : MeasuredData κ α) : Shrinks md md := ⟨.refl _, .refl _⟩

/-- One call drops rows or columns, or nothing. -/
theorem call_shrinks (md : MeasuredData κ α) (m : Method) : Shrinks (md.call (apply m)).1 md := by
  cases m with
  | removeFailedRealizations =>
      obtain ⟨md', hCall, hData⟩ := removeFailedRealizations_ok md
      simp only [apply, call, hCall, Shrinks, hData]
      exact ⟨(List.filter_sublist _).map _, .refl _⟩
  | removeInactiveObservations =>
      simp only [apply, call, removeInactiveObservations_eq]
      split_ifs
      · exact Shrinks.refl md
      · exact ⟨by simp [withColumns], by simpa [withColumns] using mask_sublist _ _⟩

/-- Over a whole run, rows and columns only shrink. -/
theorem run_shrinks (md : MeasuredData κ α) (ms : List Method) : Shrinks (md.run ms).1 md := by
  induction ms generalizing md with
  | nil => exact Shrinks.refl md
  | cons m ms ih =>
      rw [run_cons_fst]
      exact (ih _).trans (call_shrinks md m)

/-- One call leaves some of the object's rows and columns, every cell as it was. -/
theorem call_subFrame (md : MeasuredData κ α) (m : Method) :
    (md.call (apply m)).1.data.SubFrame md.data := by
  cases m with
  | removeFailedRealizations =>
      obtain ⟨md', hCall, hData⟩ := removeFailedRealizations_ok md
      simp only [apply, call, hCall, hData]
      exact md.data.subFrame_filterRows _
  | removeInactiveObservations =>
      simp only [apply, call, removeInactiveObservations_eq]
      split_ifs
      · exact .refl _
      · exact md.data.subFrame_selectColumns _

theorem run_cons_snd (md : MeasuredData κ α) (m : Method) (ms : List Method) :
    (md.run (m :: ms)).2 = (md.call (apply m)).2.toList ++ ((md.call (apply m)).1.run ms).2 := rfl

/-- `remove_failed_realizations` never raises, whatever the labels. -/
theorem call_removeFailedRealizations_none (md : MeasuredData κ α) :
    (md.call (apply .removeFailedRealizations)).2 = none := by
  obtain ⟨md', hCall, -⟩ := removeFailedRealizations_ok md
  simp [apply, call, hCall]

/-- One call raises nothing but the empty-dataset `ValueError`. -/
theorem call_raises (md : MeasuredData κ α) (m : Method) {e : Exc}
    (h : (md.call (apply m)).2 = some e) : e = .valueError emptyDatasetMessage := by
  cases m with
  | removeFailedRealizations => simp [call_removeFailedRealizations_none] at h
  | removeInactiveObservations =>
      simp only [apply, call, removeInactiveObservations_eq] at h
      split_ifs at h
      exact (Option.some.inj h).symm

/-- Over every run, the only exception raised is the `ValueError` of
`remove_inactive_observations` for an empty result, at most one per call of it:
`remove_failed_realizations` never raises, whatever the labels. -/
theorem run_raises_only_emptyDataset (md : MeasuredData κ α) (ms : List Method) :
    (∀ e ∈ (md.run ms).2, e = .valueError emptyDatasetMessage) ∧
      (md.run ms).2.length ≤ ms.count .removeInactiveObservations := by
  induction ms generalizing md with
  | nil => simp [run]
  | cons m ms ih =>
      obtain ⟨ihOnly, ihCount⟩ := ih (md.call (apply m)).1
      rw [run_cons_snd]
      refine ⟨fun e he => ?_, ?_⟩
      · rcases List.mem_append.mp he with he | he
        · exact call_raises md m (Option.mem_toList.mp he)
        · exact ihOnly e he
      · cases m with
        | removeFailedRealizations =>
            simpa [call_removeFailedRealizations_none] using ihCount
        | removeInactiveObservations =>
            have hOne : (md.call (apply .removeInactiveObservations)).2.toList.length ≤ 1 := by
              cases (md.call (apply .removeInactiveObservations)).2 <;> simp
            simp only [List.length_append, List.count_cons_self]
            omega

/-- One observation and two realizations, the first of them failed. -/
def failedRealization : MeasuredData String Int :=
  ⟨⟨["FOPR"], [(Label.obs, [.finite 1]), (Label.std, [.finite 0]), (.int 0, [.nan]),
    (.int 1, [.finite 3])], by decide⟩, by decide, by decide⟩

theorem run_raises_only_emptyDataset_failedRealization :
    Exc.valueError emptyDatasetMessage ∈
        (failedRealization.run [.removeInactiveObservations, .removeFailedRealizations]).2 ∧
      (∀ e ∈ (failedRealization.run [.removeInactiveObservations, .removeFailedRealizations]).2,
        e = .valueError emptyDatasetMessage) ∧
      (failedRealization.run [.removeInactiveObservations, .removeFailedRealizations]).2.length ≤
        [Method.removeInactiveObservations, .removeFailedRealizations].count .removeInactiveObservations :=
  ⟨by decide, run_raises_only_emptyDataset failedRealization _⟩

/-- The objects a program holds: one that `__init__` returned, then the object
after each further method call. -/
inductive Reachable {ι : Type} (ens : Ensemble ι α) : MeasuredData (String × ι) α → Prop where
  | init (keys : Option (List String)) {md : MeasuredData (String × ι) α} :
      MeasuredData.init ens keys = .ok md → Reachable ens md
  | call {md : MeasuredData (String × ι) α} (m : Method) :
      Reachable ens md → Reachable ens (md.call (apply m)).1

theorem Reachable.index_nodup {ι : Type} {ens : Ensemble ι α} {md : MeasuredData (String × ι) α}
    (h : Reachable ens md) : md.data.index.Nodup := by
  induction h with
  | init keys hInit =>
      exact init_data hInit ▸ transpose_index_nodup ens.realizations_nodup _
  | call m _ ih => exact ih.sublist (call_shrinks _ m).1

/-- Every object a program reaches from `__init__` has distinct row labels, and
on each one `remove_failed_realizations` returns, keeping exactly `OBS`, `STD`
and the realization rows with a present cell. -/
theorem reachable_removeFailedRealizations {ι : Type} {ens : Ensemble ι α}
    {md : MeasuredData (String × ι) α} (h : Reachable ens md) :
    md.data.index.Nodup ∧
      ∃ md', md.removeFailedRealizations = .ok md' ∧ md'.data = md.data.filterRows keepsRow :=
  ⟨h.index_nodup, removeFailedRealizations_eq md h.index_nodup⟩

/-- An ensemble with one observation and two realizations; the first has a
`NaN` response. -/
def oneObservationEnsemble : Ensemble Nat Int where
  observationKeys := ["FOPR"]
  responseKeyToResponseType := [("FOPR", "summary")]
  realizationListWithResponses := [0, 1]
  responsesEmpty _ _ := false
  observationsAndResponses _ _ :=
    [⟨0, "FOPR", .finite 10, .finite 1, fun k => if k = 0 then .nan else .finite 9⟩]
  realizations_nodup := by decide

theorem reachable_removeFailedRealizations_oneObservation :
    ∃ md, Reachable oneObservationEnsemble md ∧ md.data.index.Nodup ∧
      ∃ md', md.removeFailedRealizations = .ok md' ∧ md'.data = md.data.filterRows keepsRow :=
  have h : Reachable oneObservationEnsemble _ := .call .removeFailedRealizations (.init none rfl)
  ⟨_, h, reachable_removeFailedRealizations h⟩

theorem Reachable.subFrame {ι : Type} {ens : Ensemble ι α} {md : MeasuredData (String × ι) α}
    (h : Reachable ens md) :
    ∃ keys, md.data.SubFrame (transpose ens.realizationListWithResponses (ens.observationTable keys)) := by
  induction h with
  | init keys hInit => exact ⟨keys.getD ens.sortedObservationKeys, by rw [init_data hInit]; exact .refl _⟩
  | call m _ ih => exact ih.imp fun _ hSub => hSub.trans (call_subFrame _ m)

/-- Every object a program reaches from `__init__` holds some rows and columns of
the table `__init__` built for some keys, in their order and with no cell
changed; so its columns stay sorted by observation key. -/
theorem reachable_subFrame {ι : Type} {ens : Ensemble ι α} {md : MeasuredData (String × ι) α}
    (h : Reachable ens md) :
    ∃ keys, md.data.SubFrame (transpose ens.realizationListWithResponses (ens.observationTable keys)) ∧
      (md.data.columns.map Prod.fst).Sorted (· ≤ ·) := by
  obtain ⟨keys, hSub⟩ := h.subFrame
  refine ⟨keys, hSub, List.Pairwise.sublist (hSub.columns_sublist.map Prod.fst) ?_⟩
  simpa [List.map_map, Function.comp_def] using ens.observationTable_sorted keys

theorem reachable_subFrame_oneObservation :
    ∃ md, Reachable oneObservationEnsemble md ∧
      ∃ keys, md.data.SubFrame (transpose oneObservationEnsemble.realizationListWithResponses
          (oneObservationEnsemble.observationTable keys)) ∧
        (md.data.columns.map Prod.fst).Sorted (· ≤ ·) :=
  have h : Reachable oneObservationEnsemble _ :=
    .call .removeInactiveObservations (.call .removeFailedRealizations (.init none rfl))
  ⟨_, h, reachable_subFrame h⟩

/-- Every cell of the frame is finite. -/
def AllFinite (f : Frame κ α) : Prop := ∀ row ∈ f.rows, ∀ c ∈ row.2, c.isFinite = true

/-- What `remove_inactive_observations` leaves: a column, and only finite cells. -/
theorem removeInactiveObservations_allFinite {md md' : MeasuredData κ α}
    (h : md.removeInactiveObservations = .ok md') :
    AllFinite md'.data ∧ md'.data.columns ≠ [] := by
  rw [removeInactiveObservations_eq] at h
  split_ifs at h with hNone
  cases h
  refine ⟨?_, ?_⟩
  · intro row hRow c hc
    obtain ⟨r, hr, rfl⟩ := List.mem_map.mp hRow
    obtain ⟨j, hKeep, hGet⟩ := mem_mask hc
    have hCell : r.2.getD j .nan = c := by
      rw [List.getD_eq_getElem?_getD, ← List.get?_eq_getElem?, hGet, Option.getD_some]
    exact hCell ▸ md.data.columnsWhere_getD hKeep hr
  · rw [← Frame.columnsWhere_all_false] at hNone
    simpa only [withColumns, Frame.selectColumns_columns, ne_eq,
      mask_eq_nil_iff _ _ (md.data.length_columnsWhere _)] using hNone

theorem removeInactiveObservations_of_allFinite {md : MeasuredData κ α}
    (hFinite : AllFinite md.data) (hColumns : md.data.columns ≠ []) :
    md.removeInactiveObservations = .ok md := by
  have hAll := md.data.columnsWhere_all_true hFinite
  rw [removeInactiveObservations_eq, if_neg]
  · congr
    refine MeasuredData.ext (Frame.ext (mask_of_all_true _ _ (by simp) hAll) ?_)
    refine (List.map_congr_left fun row hRow => ?_).trans (List.map_id _)
    exact Prod.ext rfl (mask_of_all_true _ _ (by simp [md.data.row_width row hRow]) hAll)
  · rw [← Frame.columnsWhere_all_false]
    intro hFalse
    obtain ⟨b, hb⟩ := List.exists_mem_of_length_pos
      (by simpa [List.length_pos] using hColumns : 0 < (md.data.columnsWhere Cell.isFinite).length)
    exact absurd (hFalse b hb) (by simp [hAll b hb])

theorem removeFailedRealizations_of_allFinite {md : MeasuredData κ α}
    (hFinite : AllFinite md.data) (hColumns : md.data.columns ≠ []) :
    md.removeFailedRealizations = .ok md := by
  obtain ⟨md', hCall, hData⟩ := removeFailedRealizations_ok md
  rw [hCall]
  congr
  refine MeasuredData.ext (hData.trans (Frame.ext rfl (List.filter_eq_self.mpr fun row hRow => ?_)))
  obtain ⟨c, hc⟩ := List.exists_mem_of_length_pos
    (by simpa [md.data.row_width row hRow, List.length_pos] using hColumns : 0 < row.2.length)
  have hPresent : row.2.any Cell.notMissing = true := by
    have hFiniteCell := hFinite row hRow c hc
    refine List.any_eq_true.mpr ⟨c, hc, ?_⟩
    cases c <;> simp_all [Cell.isFinite, Cell.notMissing]
  have hPost : row.1 ∈ md.data.dropnaRowsAll.index :=
    List.mem_map_of_mem _ (List.mem_filter.mpr ⟨hRow, hPresent⟩)
  simp [notDropped, List.mem_filter, hPost]

theorem call_of_returns_self {md : MeasuredData κ α} {m : Method} (h : apply m md = .ok md) :
    md.call (apply m) = (md, none) := by
  simp [call, h]

/-- What `remove_inactive_observations` returns, no call changes. -/
theorem call_after_removeInactiveObservations {md md' : MeasuredData κ α}
    (h : md.removeInactiveObservations = .ok md') (m : Method) : md'.call (apply m) = (md', none) := by
  obtain ⟨hFinite, hColumns⟩ := removeInactiveObservations_allFinite h
  cases m
  · exact call_of_returns_self (removeFailedRealizations_of_allFinite hFinite hColumns)
  · exact call_of_returns_self (removeInactiveObservations_of_allFinite hFinite hColumns)

/-- Once `remove_inactive_observations` has returned, no later call changes the
object or raises. -/
theorem run_after_removeInactiveObservations {md md' : MeasuredData κ α}
    (h : md.removeInactiveObservations = .ok md') (ms : List Method) : md'.run ms = (md', []) := by
  induction ms with
  | nil => rfl
  | cons m ms ih => simp [run, call_after_removeInactiveObservations h m, ih]

/-- Two observations of one realization; the second has a `NaN` and a `+inf`. -/
def twoObservations : MeasuredData String Int :=
  ⟨⟨["FOPR", "WOPR"], [(Label.obs, [.finite 1, .finite 2]), (Label.std, [.finite 0, .nan]),
    (.int 0, [.finite 3, .posInf])], by decide⟩, by decide, by decide⟩

/-- `twoObservations` without its second column. -/
def firstObservation : MeasuredData String Int :=
  ⟨⟨["FOPR"], [(Label.obs, [.finite 1]), (Label.std, [.finite 0]), (.int 0, [.finite 3])],
    by decide⟩, by decide, by decide⟩

theorem run_after_removeInactiveObservations_twoObservations :
    twoObservations.removeInactiveObservations = .ok firstObservation ∧
      firstObservation.run [.removeFailedRealizations, .removeInactiveObservations] =
        (firstObservation, []) :=
  have h : twoObservations.removeInactiveObservations = .ok firstObservation := rfl
  ⟨h, run_after_removeInactiveObservations h _⟩

/-- `OBS` is a row, so `is_empty` asks only whether there is a column. -/
theorem isEmpty_eq_columns_isEmpty (md : MeasuredData κ α) : md.isEmpty = md.data.columns.isEmpty := by
  have hRows : md.data.rows ≠ [] := fun h => by simpa [Frame.index, h] using md.obs_mem
  simp [isEmpty, Frame.empty, List.isEmpty_iff, hRows]

/-- A call keeps a column if there was one: `remove_inactive_observations` keeps
one when it returns. -/
theorem call_columns_isEmpty (md : MeasuredData κ α) (m : Method) :
    (md.call (apply m)).1.data.columns.isEmpty = md.data.columns.isEmpty := by
  cases m with
  | removeFailedRealizations =>
      obtain ⟨md', hCall, hData⟩ := removeFailedRealizations_ok md
      simp only [apply, call, hCall, hData, Frame.filterRows]
  | removeInactiveObservations =>
      cases h : md.removeInactiveObservations with
      | error e => simp [apply, call, h]
      | ok md' =>
          have hColumns := (removeInactiveObservations_allFinite h).2
          have hSub := (call_shrinks md .removeInactiveObservations).2
          simp only [apply, call, h] at hSub ⊢
          have hColumns' : md.data.columns ≠ [] := fun h0 => hColumns (List.eq_nil_of_sublist_nil (h0 ▸ hSub))
          rw [List.isEmpty_eq_false.mpr hColumns, List.isEmpty_eq_false.mpr hColumns']

/-- No run turns an empty object non-empty or a non-empty one empty. -/
theorem run_isEmpty (md : MeasuredData κ α) (ms : List Method) : (md.run ms).1.isEmpty = md.isEmpty := by
  induction ms generalizing md with
  | nil => rfl
  | cons m ms ih =>
      rw [run_cons_fst, ih, isEmpty_eq_columns_isEmpty, isEmpty_eq_columns_isEmpty, call_columns_isEmpty]

/-- `remove_failed_realizations()` then `remove_inactive_observations()` on an
object with distinct labels. The rows left are `OBS`, `STD` and the realizations
with a present cell; the columns left are those finite in each of these rows.
When there is no such column the second call raises, and the first call's rows
stay with every column. -/
theorem run_cleanup (md : MeasuredData κ α) (hNodup : md.data.index.Nodup) :
    let kept := md.data.filterRows keepsRow
    let noFinite := ∀ j < kept.columns.length, ∃ row ∈ kept.rows,
      (row.2.getD j .nan).isFinite = false
    (md.run [.removeFailedRealizations, .removeInactiveObservations]).1.data =
        (if noFinite then kept else kept.selectColumns (kept.columnsWhere Cell.isFinite)) ∧
      (md.run [.removeFailedRealizations, .removeInactiveObservations]).2 =
        if noFinite then [.valueError emptyDatasetMessage] else [] := by
  obtain ⟨md1, hCall, hData⟩ := removeFailedRealizations_eq md hNodup
  simp only [run, call, apply, hCall, removeInactiveObservations_eq, ← hData]
  split_ifs <;> simp [withColumns]

theorem run_cleanup_twoObservations :
    twoObservations.data.index.Nodup ∧
      let kept := twoObservations.data.filterRows keepsRow
      let noFinite := ∀ j < kept.columns.length, ∃ row ∈ kept.rows,
        (row.2.getD j .nan).isFinite = false
      (twoObservations.run [.removeFailedRealizations, .removeInactiveObservations]).1.data =
          (if noFinite then kept else kept.selectColumns (kept.columnsWhere Cell.isFinite)) ∧
        (twoObservations.run [.removeFailedRealizations, .removeInactiveObservations]).2 =
          if noFinite then [.valueError emptyDatasetMessage] else [] :=
  ⟨by decide, run_cleanup twoObservations (by decide)⟩

/-- Dropping failed realizations first never costs a column: each column
`remove_inactive_observations` keeps on the object it keeps after
`remove_failed_realizations` too, so where it returns without the first call it
returns after it. -/
theorem removeInactiveObservations_after_removeFailedRealizations (md : MeasuredData κ α)
    {md2 : MeasuredData κ α} (h : md.removeInactiveObservations = .ok md2) :
    ∃ md1 md3, md.removeFailedRealizations = .ok md1 ∧ md1.removeInactiveObservations = .ok md3 ∧
      md2.data.columns.Sublist md3.data.columns := by
  obtain ⟨md1, hCall, hData⟩ := removeFailedRealizations_ok md
  rw [removeInactiveObservations_eq] at h
  split_ifs at h with hNone
  cases h
  have hSome : ¬∀ j < md1.data.columns.length, ∃ row ∈ md1.data.rows,
      (row.2.getD j .nan).isFinite = false := fun hAll => hNone fun j hj => by
    obtain ⟨row, hRow, hFalse⟩ := hAll j (by rwa [hData])
    exact ⟨row, List.mem_of_mem_filter (by rwa [hData] at hRow), hFalse⟩
  refine ⟨md1, _, hCall, by rw [removeInactiveObservations_eq, if_neg hSome], ?_⟩
  simp only [withColumns, Frame.selectColumns_columns, hData]
  exact mask_sublist_mask _ _ _ fun j hj => md.data.columnsWhere_filterRows hj

theorem removeInactiveObservations_after_removeFailedRealizations_twoObservations :
    twoObservations.removeInactiveObservations = .ok firstObservation ∧
      ∃ md1 md3, twoObservations.removeFailedRealizations = .ok md1 ∧
        md1.removeInactiveObservations = .ok md3 ∧ firstObservation.data.columns.Sublist md3.data.columns :=
  have h : twoObservations.removeInactiveObservations = .ok firstObservation := rfl
  ⟨h, removeInactiveObservations_after_removeFailedRealizations twoObservations h⟩

/-- The other order can lose everything: alone, `remove_inactive_observations`
raises on the failed realization's `NaN`. -/
example : (failedRealization.run [.removeInactiveObservations]).2 = [.valueError emptyDatasetMessage] ∧
    let after := failedRealization.run [.removeFailedRealizations, .removeInactiveObservations]
    after.1.data.index = [Label.obs, Label.std, .int 1] ∧ after.1.data.columns = ["FOPR"] ∧ after.2 = [] := by
  decide

/-- `remove_inactive_observations` raises and leaves the object, or leaves one
that no call changes. -/
theorem call_removeInactiveObservations_cases (md : MeasuredData κ α) :
    (md.call removeInactiveObservations).1 = md ∨
      ∀ m, ((md.call removeInactiveObservations).1.call (apply m)).1 =
        (md.call removeInactiveObservations).1 := by
  cases h : md.removeInactiveObservations with
  | error e => exact .inl (by simp [call, h])
  | ok md' =>
      have hNext : (md.call removeInactiveObservations).1 = md' := by simp [call, h]
      exact .inr fun m => by rw [hNext, call_after_removeInactiveObservations h m]

/-- On distinct labels, a second `remove_failed_realizations` drops nothing. -/
theorem call_removeFailedRealizations_twice (md : MeasuredData κ α) (hNodup : md.data.index.Nodup) :
    ((md.call removeFailedRealizations).1.call removeFailedRealizations).1 =
      (md.call removeFailedRealizations).1 := by
  obtain ⟨md', hCall, hData⟩ := removeFailedRealizations_eq md hNodup
  have hNodup' : md'.data.index.Nodup := hData ▸ Frame.index_filterRows_nodup hNodup keepsRow
  obtain ⟨md'', hCall', hData'⟩ := removeFailedRealizations_eq md' hNodup'
  simp only [call, hCall, hCall']
  exact MeasuredData.ext (by rw [hData', hData, Frame.filterRows_filterRows_self])

/-- The object, and the object after `remove_failed_realizations`, after
`remove_inactive_observations`, and after both in that order. -/
def outcomes (md : MeasuredData κ α) : List (MeasuredData κ α) :=
  let failed := (md.call removeFailedRealizations).1
  [md, failed, (md.call removeInactiveObservations).1, (failed.call removeInactiveObservations).1]

/-- A call on one of the four objects leaves one of them. -/
theorem call_mem_outcomes (md : MeasuredData κ α) (hNodup : md.data.index.Nodup)
    {x : MeasuredData κ α} (hx : x ∈ md.outcomes) (m : Method) : (x.call (apply m)).1 ∈ md.outcomes := by
  have hFirst : ∀ m, (md.call (apply m)).1 ∈ md.outcomes := by
    intro m; cases m <;> simp [outcomes, apply]
  have hFailed : ∀ m, ((md.call removeFailedRealizations).1.call (apply m)).1 ∈ md.outcomes := by
    intro m; cases m
    · rw [apply, call_removeFailedRealizations_twice md hNodup]; simp [outcomes]
    · simp [outcomes, apply]
  simp only [outcomes, List.mem_cons, List.not_mem_nil, or_false] at hx
  rcases hx with rfl | rfl | rfl | rfl
  · exact hFirst m
  · exact hFailed m
  · rcases call_removeInactiveObservations_cases md with h | h
    · rw [h]; exact hFirst m
    · rw [h m]; simp [outcomes]
  · rcases call_removeInactiveObservations_cases (md.call removeFailedRealizations).1 with h | h
    · rw [h]; exact hFailed m
    · rw [h m]; simp [outcomes]

/-- Whatever methods a program calls on an object with distinct labels, in any
order and however often, the object ends as it was, as after
`remove_failed_realizations`, as after `remove_inactive_observations`, or as
after the two in that order. -/
theorem run_mem_outcomes (md : MeasuredData κ α) (hNodup : md.data.index.Nodup) (ms : List Method) :
    (md.run ms).1 ∈ md.outcomes := by
  suffices ∀ x ∈ md.outcomes, (x.run ms).1 ∈ md.outcomes from this md (List.mem_cons_self _ _)
  induction ms with
  | nil => exact fun _ hx => hx
  | cons m ms ih => exact fun x hx => ih _ (call_mem_outcomes md hNodup hx m)

theorem run_mem_outcomes_failedRealization :
    failedRealization.data.index.Nodup ∧
      (failedRealization.run [.removeInactiveObservations, .removeFailedRealizations,
        .removeFailedRealizations, .removeInactiveObservations]).1 ∈ failedRealization.outcomes :=
  ⟨by decide, run_mem_outcomes failedRealization (by decide) _⟩

end MeasuredData

end Ert.Data
