import Ert.Python.Json

/-! `ExportConfig` of `everest/config/export_config.py`, validated as pydantic
validates a model with `extra="forbid"`: each field in order, then the keys no
field has; every error is collected. A field the input omits takes its default
`None` without being validated. How pydantic checks a value against the types
`str`, `bool`, `list[str]` and `list[int]`, and `check_writable_filepath`, are
not in the repository: they are parameters. -/
namespace Ert.Config

open Ert.Python

/-- One step of an error's location: a field name or a list index. -/
inductive LocItem where
  | key (name : String)
  | index (i : Nat)
  deriving Repr, DecidableEq

/-- One line of a `ValidationError`. -/
structure LineError where
  loc : List LocItem
  msg : String
  deriving Repr, DecidableEq

/-- How pydantic validates a value that is not `None` against each field type. -/
structure TypeValidators where
  str : Json → Except (List LineError) String
  bool : Json → Except (List LineError) Bool
  strList : Json → Except (List LineError) (List String)
  intList : Json → Except (List LineError) (List Int)

/-- A validated `ExportConfig`. -/
structure ExportConfig where
  csvOutputFilepath : Option String
  discardGradient : Option Bool
  discardRejected : Option Bool
  keywords : Option (List String)
  batches : Option (List Int)
  skipExport : Option Bool
  deriving Repr, DecidableEq

namespace ExportConfig

/-- The fields, in declaration order. -/
def fieldNames : List String :=
  ["csv_output_filepath", "discard_gradient", "discard_rejected", "keywords", "batches",
    "skip_export"]

/-- `validate_output_file_writable`, with `check_writable_filepath` returning the
message of the `ValueError` it raises, if it raises. -/
def validateOutputFileWritable (checkWritableFilepath : Json → Option String) (csvOutputFilepath : Json) :
    Except String Json :=
  match csvOutputFilepath with
  | .none => throw "csv_output_filepath can not be None"
  | path => match checkWritableFilepath path with
    | some msg => throw msg
    | none => pure path

/-- `X | None`: `None` is accepted as it is. -/
def nullable {β : Type} (validate : Json → Except (List LineError) β) :
    Json → Except (List LineError) (Option β)
  | .none => pure none
  | v => some <$> validate v

/-- The `csv_output_filepath` field: the `before` validator, then `str | None`;
a `ValueError` becomes a `value_error` line. -/
def csvField (tv : TypeValidators) (checkWritableFilepath : Json → Option String) (v : Json) :
    Except (List LineError) (Option String) :=
  match validateOutputFileWritable checkWritableFilepath v with
  | .error msg => throw [⟨[], "Value error, " ++ msg⟩]
  | .ok path => nullable tv.str path

/-- One field of the input: its default `None` when absent, unvalidated;
otherwise `validate`, with the field name in front of each error's location. -/
def field {β : Type} (items : List (String × Json)) (name : String)
    (validate : Json → Except (List LineError) (Option β)) : Except (List LineError) (Option β) :=
  match items.lookup name with
  | none => pure none
  | some v => (validate v).mapError fun errs => errs.map fun e => ⟨.key name :: e.loc, e.msg⟩

/-- The errors of one field, none if it validated. -/
def errorsOf {β : Type} : Except (List LineError) β → List LineError
  | .error errs => errs
  | .ok _ => []

/-- `extra="forbid"`: one error for each key no field has. -/
def extraErrors (items : List (String × Json)) : List LineError :=
  (items.filter fun kv => kv.1 ∉ fieldNames).map fun kv =>
    ⟨[.key kv.1], "Extra inputs are not permitted"⟩

/-- `ExportConfig.model_validate(input)`. -/
def modelValidate (tv : TypeValidators) (checkWritableFilepath : Json → Option String) :
    Json → Except (List LineError) ExportConfig
  | .dict items =>
      let csv := field items "csv_output_filepath" (csvField tv checkWritableFilepath)
      let discardGradient := field items "discard_gradient" (nullable tv.bool)
      let discardRejected := field items "discard_rejected" (nullable tv.bool)
      let keywords := field items "keywords" (nullable tv.strList)
      let batches := field items "batches" (nullable tv.intList)
      let skipExport := field items "skip_export" (nullable tv.bool)
      match csv, discardGradient, discardRejected, keywords, batches, skipExport, extraErrors items with
      | .ok c, .ok g, .ok r, .ok k, .ok b, .ok s, [] => pure ⟨c, g, r, k, b, s⟩
      | _, _, _, _, _, _, extra =>
          throw (errorsOf csv ++ errorsOf discardGradient ++ errorsOf discardRejected ++
            errorsOf keywords ++ errorsOf batches ++ errorsOf skipExport ++ extra)
  | _ => throw [⟨[], "Input should be a valid dictionary or instance of ExportConfig"⟩]

/-- `ExportConfig()`: every field takes its default `None`, the path included,
although `validate_output_file_writable` rejects `None`. -/
example (tv : TypeValidators) (checkWritableFilepath : Json → Option String) :
    modelValidate tv checkWritableFilepath (.dict []) = .ok ⟨none, none, none, none, none, none⟩ ∧
      validateOutputFileWritable checkWritableFilepath .none =
        .error "csv_output_filepath can not be None" :=
  ⟨rfl, rfl⟩

variable {tv : TypeValidators} {checkWritableFilepath : Json → Option String}

theorem field_of_lookup_none {β : Type} {items : List (String × Json)} {name : String}
    (validate : Json → Except (List LineError) (Option β)) (h : items.lookup name = none) :
    field items name validate = .ok none := by
  simp [field, h]

theorem field_of_lookup_some {β : Type} {items : List (String × Json)} {name : String} {v : Json}
    {validate : Json → Except (List LineError) (Option β)} {x : Option β}
    (h : items.lookup name = some v) (hField : field items name validate = .ok x) :
    validate v = .ok x := by
  simp only [field, h] at hField
  cases hv : validate v <;> simp_all [Except.mapError]

theorem validateOutputFileWritable_ok {v path : Json}
    (h : validateOutputFileWritable checkWritableFilepath v = .ok path) : path = v ∧ v ≠ .none := by
  unfold validateOutputFileWritable at h
  split at h
  · cases h
  · rename_i hNone
    split at h
    · cases h
    · cases h
      exact ⟨rfl, hNone⟩

theorem nullable_of_ne_none {β : Type} {v : Json} (validate : Json → Except (List LineError) β)
    (h : v ≠ .none) : nullable validate v = some <$> validate v := by
  cases v <;> first | rfl | exact absurd rfl h

/-- A given `csv_output_filepath` is never left `None`. -/
theorem csvField_isSome {v : Json} {x : Option String}
    (h : csvField tv checkWritableFilepath v = .ok x) : x.isSome := by
  unfold csvField at h
  split at h
  · cases h
  · rename_i path hPath
    obtain ⟨rfl, hNone⟩ := validateOutputFileWritable_ok hPath
    rw [nullable_of_ne_none _ hNone] at h
    cases hs : tv.str path <;> simp [hs] at h
    simp [← h]

/-- A validation of a dict returns exactly when each field validates and the
input has no key beyond the fields. -/
theorem modelValidate_ok {items : List (String × Json)} {cfg : ExportConfig}
    (h : modelValidate tv checkWritableFilepath (.dict items) = .ok cfg) :
    field items "csv_output_filepath" (csvField tv checkWritableFilepath) = .ok cfg.csvOutputFilepath ∧
    field items "discard_gradient" (nullable tv.bool) = .ok cfg.discardGradient ∧
    field items "discard_rejected" (nullable tv.bool) = .ok cfg.discardRejected ∧
    field items "keywords" (nullable tv.strList) = .ok cfg.keywords ∧
    field items "batches" (nullable tv.intList) = .ok cfg.batches ∧
    field items "skip_export" (nullable tv.bool) = .ok cfg.skipExport ∧
    extraErrors items = [] := by
  simp only [modelValidate] at h
  split at h
  next hCsv hGradient hRejected hKeywords hBatches hSkip hExtra =>
    cases h
    exact ⟨hCsv, hGradient, hRejected, hKeywords, hBatches, hSkip, hExtra⟩
  next => cases h

/-- A validated `ExportConfig` has no `csv_output_filepath` exactly when the
input omits it: the default `None` is never validated, and a path given is
never left `None`. -/
theorem modelValidate_csv_none_iff {items : List (String × Json)} {cfg : ExportConfig}
    (h : modelValidate tv checkWritableFilepath (.dict items) = .ok cfg) :
    cfg.csvOutputFilepath = none ↔ items.lookup "csv_output_filepath" = none := by
  have hCsv := (modelValidate_ok h).1
  cases hLookup : items.lookup "csv_output_filepath" with
  | none =>
      rw [field_of_lookup_none _ hLookup] at hCsv
      simpa using (Except.ok.inj hCsv).symm
  | some v =>
      have hSome := csvField_isSome (field_of_lookup_some hLookup hCsv)
      simpa [Option.isSome_iff_ne_none] using hSome

theorem mem_errorsOf_field {β : Type} {items : List (String × Json)} {name : String}
    {validate : Json → Except (List LineError) (Option β)} {e : LineError}
    (h : e ∈ errorsOf (field items name validate)) :
    e.loc.head? = some (.key name) ∧ (items.lookup name).isSome := by
  unfold field at h
  split at h
  · simp [errorsOf] at h
  · rename_i v hv
    cases hVal : validate v <;> simp only [hVal, Except.mapError, errorsOf, List.not_mem_nil,
      List.mem_map] at h
    obtain ⟨e', -, rfl⟩ := h
    simp [hv]

theorem mem_extraErrors {items : List (String × Json)} {e : LineError} (h : e ∈ extraErrors items) :
    ∃ k, e.loc = [.key k] ∧ k ∉ fieldNames ∧ (items.lookup k).isSome := by
  obtain ⟨kv, hKv, rfl⟩ := List.mem_map.mp h
  obtain ⟨hMem, hExtra⟩ := List.mem_filter.mp hKv
  exact ⟨kv.1, rfl, by simpa using hExtra, List.lookup_isSome_iff.mpr ⟨kv, hMem, beq_self_eq_true _⟩⟩

/-- Every error of a dict's validation is located at a key the input has: a
field that failed its check, or a key no field has. -/
theorem modelValidate_error_loc {items : List (String × Json)} {errs : List LineError}
    (h : modelValidate tv checkWritableFilepath (.dict items) = .error errs) :
    ∀ e ∈ errs, ∃ k, e.loc.head? = some (.key k) ∧ (items.lookup k).isSome := by
  simp only [modelValidate] at h
  split at h
  next => cases h
  next =>
    cases h
    intro e he
    simp only [List.mem_append] at he
    rcases he with (((((he | he) | he) | he) | he) | he) | he
    all_goals first
      | exact ⟨_, mem_errorsOf_field he⟩
      | obtain ⟨k, hLoc, -, hKey⟩ := mem_extraErrors he
        exact ⟨k, by simp [hLoc], hKey⟩

/-- A list whose items `item` accepts; each other item is an error at its index. -/
def strictList {β : Type} (item : Json → Option β) (msg : String) : Json → Except (List LineError) (List β)
  | .list xs => match xs.mapM item with
    | some ys => pure ys
    | none => throw ((xs.enum.filter fun p => (item p.2).isNone).map fun p => ⟨[.index p.1], msg⟩)
  | _ => throw [⟨[], "Input should be a valid list"⟩]

/-- A sample of `TypeValidators`: each type accepts only its own values, as in
pydantic's strict mode. `ExportConfig` is validated in lax mode, which also
converts some values, such as `"2"` to `2` for `list[int]`. -/
def strictValidators : TypeValidators where
  str
    | .str s => pure s
    | _ => throw [⟨[], "Input should be a valid string"⟩]
  bool
    | .bool b => pure b
    | _ => throw [⟨[], "Input should be a valid boolean"⟩]
  strList := strictList (fun | .str s => some s | _ => none) "Input should be a valid string"
  intList := strictList (fun | .int n => some n | _ => none) "Input should be a valid integer"

/-- In strict mode `"2"` is not an integer; lax mode would accept it, and only
`format` would fail. -/
example : modelValidate strictValidators (fun _ => none)
    (.dict [("batches", .list [.int 1, .str "2"]), ("format", .str "csv")]) =
      .error [⟨[.key "batches", .index 1], "Input should be a valid integer"⟩,
        ⟨[.key "format"], "Extra inputs are not permitted"⟩] := rfl

theorem modelValidate_csv_none_iff_given :
    modelValidate strictValidators (fun _ => none) (.dict [("csv_output_filepath", .str "out.csv")]) =
        .ok ⟨some "out.csv", none, none, none, none, none⟩ ∧
      ((⟨some "out.csv", none, none, none, none, none⟩ : ExportConfig).csvOutputFilepath = none ↔
        [("csv_output_filepath", Json.str "out.csv")].lookup "csv_output_filepath" = none) :=
  have h : modelValidate strictValidators (fun _ => none)
      (.dict [("csv_output_filepath", .str "out.csv")]) = .ok ⟨some "out.csv", none, none, none, none, none⟩ :=
    rfl
  ⟨h, modelValidate_csv_none_iff h⟩

end ExportConfig

end Ert.Config
