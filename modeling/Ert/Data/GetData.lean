import Ert.Data.MeasuredData
import Mathlib.Data.List.Sort
import Mathlib.Data.String.Basic

/-! `MeasuredData.__init__` and `_get_data`: the frame built from an ensemble's
observations and responses. The ensemble is storage the module only reads, so
it is given by what those reads return. `_get_data` transposes the observation
table: the rows are `OBS`, `STD` and one per realization with responses, the
columns one per observation row, labelled by observation key and key index. -/
namespace Ert.Data

open Ert.Python

/-- A row of `get_observations_and_responses(keys, realizations)` as `_get_data`
selects it: its labels, the observation, the standard deviation, and the
response in the column `str(k)` of each realization `k`. -/
structure ObservationRow (ι α : Type) where
  keyIndex : ι
  observationKey : String
  obs : Cell α
  std : Cell α
  response : Int → Cell α

/-- What `__init__` and `_get_data` read from the ensemble and its experiment.
Storage lists each realization with responses once. -/
structure Ensemble (ι α : Type) where
  observationKeys : List String
  responseKeyToResponseType : List (String × String)
  realizationListWithResponses : List Int
  /-- `load_responses(response_type, realizations).is_empty()`. -/
  responsesEmpty : String → List Int → Bool
  observationsAndResponses : List String → List Int → List (ObservationRow ι α)
  realizations_nodup : realizationListWithResponses.Nodup

namespace Ensemble

variable {ι α : Type} (ens : Ensemble ι α)

/-- `sorted(ensemble.experiment.observation_keys)`. -/
def sortedObservationKeys : List String := ens.observationKeys.insertionSort (· ≤ ·)

/-- `df` of `_get_data`: the observations and responses of `keys` for the
realizations with responses, sorted by observation key. Polars' `sort` need not
keep the order of rows with one key; the model's sort does. -/
def observationTable (keys : List String) : List (ObservationRow ι α) :=
  (ens.observationsAndResponses keys ens.realizationListWithResponses).insertionSort
    fun a b => a.observationKey ≤ b.observationKey

/-- `selected_response_types`: the types of the response keys among `keys`,
each once. Python iterates the set in hash order; the model takes map order. -/
def selectedResponseTypes (keys : List String) : List String :=
  ((ens.responseKeyToResponseType.filter fun kt => kt.1 ∈ keys).map Prod.snd).eraseDups

end Ensemble

def noResponseMessage (responseType : String) : String :=
  s!"No response loaded for observation type: {responseType}"

def noObservationKeysMessage : String := "No observation keys provided"

variable {ι α : Type}

/-- The loop of `_get_data` over the selected response types: it raises for
the first one without responses. -/
def checkResponses (ens : Ensemble ι α) (keys : List String) : Except Exc Unit :=
  (ens.selectedResponseTypes keys).forM fun t =>
    if ens.responsesEmpty t ens.realizationListWithResponses then
      throw (.responseError (noResponseMessage t))
    else pure ()

/-- `set_index(["observation_key", "key_index"]).transpose()` of the selected
table, after its realization columns are renamed to integers. -/
def transpose (realizations : List Int) (rows : List (ObservationRow ι α)) :
    Frame (String × ι) α :=
  ⟨rows.map fun r => (r.observationKey, r.keyIndex),
    (Label.obs, rows.map ObservationRow.obs) :: (Label.std, rows.map ObservationRow.std) ::
      realizations.map fun k => (Label.int k, rows.map fun r => r.response k), by
    intro row hRow
    simp only [List.mem_cons, List.mem_map] at hRow
    rcases hRow with rfl | rfl | ⟨k, -, rfl⟩ <;> simp⟩

/-- `_get_data(ensemble, observed_response_keys)`. -/
def getData (ens : Ensemble ι α) (observedResponseKeys : List String) :
    Except Exc (Frame (String × ι) α) := do
  checkResponses ens observedResponseKeys
  pure (transpose ens.realizationListWithResponses (ens.observationTable observedResponseKeys))

namespace MeasuredData

/-- `MeasuredData(ensemble, keys)`. -/
def init (ens : Ensemble ι α) (keys : Option (List String) := none) :
    Except Exc (MeasuredData (String × ι) α) := do
  let keys := keys.getD ens.sortedObservationKeys
  if keys.isEmpty then throw (.observationError noObservationKeysMessage)
  setData (← getData ens keys)

end MeasuredData

/-- `.sort(by="observation_key")`: the table's rows are in observation-key order. -/
theorem Ensemble.observationTable_sorted (ens : Ensemble ι α) (keys : List String) :
    ((ens.observationTable keys).map ObservationRow.observationKey).Sorted (· ≤ ·) := by
  let r : ObservationRow ι α → ObservationRow ι α → Prop := fun a b => a.observationKey ≤ b.observationKey
  haveI : IsTotal _ r := ⟨fun a b => le_total a.observationKey b.observationKey⟩
  haveI : IsTrans _ r := ⟨fun _ _ _ => le_trans⟩
  exact (List.sorted_insertionSort r _).map _ fun _ _ => id

@[simp] theorem transpose_columns (realizations : List Int) (rows : List (ObservationRow ι α)) :
    (transpose realizations rows).columns = rows.map fun r => (r.observationKey, r.keyIndex) := rfl

@[simp] theorem transpose_index (realizations : List Int) (rows : List (ObservationRow ι α)) :
    (transpose realizations rows).index = Label.obs :: Label.std :: realizations.map Label.int := by
  simp [transpose, Frame.index, Function.comp_def]

theorem transpose_index_nodup {realizations : List Int} (h : realizations.Nodup)
    (rows : List (ObservationRow ι α)) : (transpose realizations rows).index.Nodup := by
  have hInj : Function.Injective Label.int := fun _ _ h => Label.int.inj h
  simp [transpose_index, h.map hInj, Label.obs, Label.std]

/-- The loop raises only `ResponseError`, for a selected type without responses. -/
theorem checkResponses_error {ens : Ensemble ι α} {keys : List String} {e : Exc}
    (h : checkResponses ens keys = .error e) :
    ∃ t ∈ ens.selectedResponseTypes keys,
      ens.responsesEmpty t ens.realizationListWithResponses = true ∧
        e = .responseError (noResponseMessage t) := by
  unfold checkResponses at h
  generalize ens.selectedResponseTypes keys = ts at h ⊢
  induction ts with
  | nil => simp [List.forM] at h
  | cons t ts ih =>
      cases hEmpty : ens.responsesEmpty t ens.realizationListWithResponses
      · obtain ⟨t', ht', hRest⟩ := ih (by simpa [List.forM, hEmpty] using h)
        exact ⟨t', .tail _ ht', hRest⟩
      · simp [List.forM, hEmpty] at h
        exact ⟨t, .head _, hEmpty, h.symm⟩

/-- `_get_data` returns the transposed table once the loop passes. -/
theorem getData_eq_ok {ens : Ensemble ι α} {keys : List String} (h : checkResponses ens keys = .ok ()) :
    getData ens keys = .ok (transpose ens.realizationListWithResponses (ens.observationTable keys)) := by
  simp [getData, h]

namespace MeasuredData

/-- `_set_data` stores every transposed table: it has the rows `OBS` and `STD`. -/
theorem setData_transpose (realizations : List Int) (rows : List (ObservationRow ι α)) :
    setData (transpose realizations rows) =
      .ok ⟨transpose realizations rows, by simp, by simp⟩ :=
  setData_of_mem _ _

/-- A returning `__init__` stores the transposed table of the observations of its keys. -/
theorem init_data {ens : Ensemble ι α} {keys : Option (List String)}
    {md : MeasuredData (String × ι) α} (h : init ens keys = .ok md) :
    md.data = transpose ens.realizationListWithResponses
      (ens.observationTable (keys.getD ens.sortedObservationKeys)) := by
  simp only [init] at h
  split_ifs at h
  · cases h
  obtain ⟨_, -, h⟩ := bind_eq_ok.mp h
  obtain ⟨f, hGet, hSet⟩ := bind_eq_ok.mp h
  obtain ⟨_, hCheck, -⟩ := bind_eq_ok.mp hGet
  rw [getData_eq_ok hCheck] at hGet
  cases hGet
  rw [setData_transpose] at hSet
  cases hSet
  rfl

/-- `MeasuredData(ensemble, keys)` returns an object whose rows are `OBS`, `STD`
and the realizations with responses, in that order and each once; or raises
`ObservationError` when there are no keys; or raises `ResponseError` for a
selected response type without responses. It never raises `_set_data`'s
`ValueError`. -/
theorem init_ok_or_raises (ens : Ensemble ι α) (keys : Option (List String)) :
    (∃ md, init ens keys = .ok md ∧
      md.data.index = Label.obs :: Label.std :: ens.realizationListWithResponses.map Label.int ∧
      md.data.index.Nodup) ∨
    (keys.getD ens.sortedObservationKeys = [] ∧
      init ens keys = .error (.observationError noObservationKeysMessage)) ∨
    ∃ t ∈ ens.selectedResponseTypes (keys.getD ens.sortedObservationKeys),
      ens.responsesEmpty t ens.realizationListWithResponses = true ∧
      init ens keys = .error (.responseError (noResponseMessage t)) := by
  by_cases hEmpty : keys.getD ens.sortedObservationKeys = []
  · exact .inr (.inl ⟨hEmpty, by simp [init, hEmpty]⟩)
  · cases hCheck : checkResponses ens (keys.getD ens.sortedObservationKeys) with
    | error e =>
        obtain ⟨t, ht, hT, rfl⟩ := checkResponses_error hCheck
        exact .inr (.inr ⟨t, ht, hT, by simp [init, hEmpty, getData, hCheck]⟩)
    | ok u =>
        refine .inl ⟨⟨transpose ens.realizationListWithResponses (ens.observationTable (keys.getD ens.sortedObservationKeys)),
          by simp, by simp⟩, ?_, transpose_index _ _, transpose_index_nodup ens.realizations_nodup _⟩
        simp only [init, List.isEmpty_eq_true, hEmpty, if_false, getData_eq_ok hCheck, ok_bind,
          pure_eq_ok]
        exact setData_transpose _ _

end MeasuredData

end Ert.Data
