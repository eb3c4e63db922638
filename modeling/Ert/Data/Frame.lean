import Ert.Python.Text
import Mathlib.Data.List.GetD

/-! The part of a pandas `DataFrame` that `MeasuredData` uses: labelled rows of
cells under a list of column labels, and the row and column filters `dropna`,
`drop`, `replace([inf, -inf], nan)` and a boolean row selection. A cell is
missing (`NaN`), infinite, or a finite value of type `α`; `dropna` counts only
the missing cell as absent, as pandas does unless `use_inf_as_na` is set.
Each filter leaves a sub-frame: some of the rows and columns, in their order,
with every cell as it was. -/
namespace Ert.Data

open Ert.Python

/-- A row label: `_get_data` builds the string rows `OBS` and `STD` and one
integer row per realization. -/
inductive Label where
  | str (s : String)
  | int (n : Int)
  deriving Repr, DecidableEq

namespace Label

def obs : Label := .str "OBS"

def std : Label := .str "STD"

/-- `repr(label)`. -/
def repr : Label → String
  | .str s => strRepr s
  | .int n => toString n

end Label

/-- One cell of the frame. -/
inductive Cell (α : Type) where
  | nan
  | posInf
  | negInf
  | finite (x : α)
  deriving Repr, DecidableEq

namespace Cell

variable {α : Type}

/-- `notna(cell)`: only `NaN` is missing, `±inf` is present. -/
def notMissing : Cell α → Bool
  | .nan => false
  | _ => true

def isFinite : Cell α → Bool
  | .finite _ => true
  | _ => false

/-- `replace([np.inf, -np.inf], np.nan)` on one cell. -/
def infToNan : Cell α → Cell α
  | .posInf | .negInf => .nan
  | c => c

@[simp] theorem notMissing_infToNan (c : Cell α) : c.infToNan.notMissing = c.isFinite := by
  cases c <;> rfl

theorem infToNan_of_isFinite {c : Cell α} (h : c.isFinite = true) : c.infToNan = c := by
  cases c <;> simp_all [isFinite, infToNan]

end Cell

/-- The items of `xs` whose flag in `keep` is true. -/
def mask {β : Type} : List Bool → List β → List β
  | b :: bs, x :: xs => if b then x :: mask bs xs else mask bs xs
  | _, _ => []

theorem length_mask_congr {β γ : Type} :
    ∀ (keep : List Bool) {xs : List β} {ys : List γ}, xs.length = ys.length →
      (mask keep xs).length = (mask keep ys).length
  | [], _, _, _ => rfl
  | _ :: _, [], [], _ => rfl
  | _ :: _, [], _ :: _, h => absurd h (by simp)
  | _ :: _, _ :: _, [], h => absurd h (by simp)
  | b :: bs, _ :: _, _ :: _, h => by
      have hTail := length_mask_congr bs (Nat.succ.inj h)
      cases b <;> simp only [mask, Bool.false_eq_true, ↓reduceIte, List.length_cons, hTail]

/-- Flags that hold at every position `mask` keeps leave a map invisible there. -/
theorem mask_map_of_fixed {β : Type} (g : β → β) :
    ∀ (keep : List Bool) (xs : List β),
      (∀ j x, keep.getD j false = true → xs.get? j = some x → g x = x) →
      mask keep (xs.map g) = mask keep xs
  | [], _, _ => rfl
  | _ :: _, [], _ => rfl
  | b :: bs, x :: xs, h => by
      have hTail := mask_map_of_fixed g bs xs fun j y hb hy => h (j + 1) y hb hy
      cases b
      · simpa only [mask, List.map_cons] using hTail
      · simp only [mask, List.map_cons, if_true, h 0 x rfl rfl, hTail]

theorem mask_eq_nil_iff {β : Type} :
    ∀ (keep : List Bool) (xs : List β), keep.length = xs.length →
      (mask keep xs = [] ↔ ∀ b ∈ keep, b = false)
  | [], _, _ => by simp [mask]
  | _ :: _, [], h => by simp at h
  | b :: bs, x :: xs, h => by
      have := mask_eq_nil_iff bs xs (Nat.succ.inj h)
      cases b <;> simp only [mask, Bool.false_eq_true, ↓reduceIte, List.forall_mem_cons, this,
        true_and, reduceCtorEq, false_and]

theorem mask_sublist {β : Type} : ∀ (keep : List Bool) (xs : List β), (mask keep xs).Sublist xs
  | [], _ => by simp [mask]
  | _ :: _, [] => by simp [mask]
  | b :: bs, x :: xs => by
      cases b
      · exact (mask_sublist bs xs).cons x
      · exact (mask_sublist bs xs).cons₂ x

/-- More flags keep more: `mask` is monotone in its flags. -/
theorem mask_sublist_mask {β : Type} :
    ∀ (keep keep' : List Bool) (xs : List β),
      (∀ j, keep.getD j false = true → keep'.getD j false = true) →
      (mask keep xs).Sublist (mask keep' xs)
  | [], _, _, _ => List.nil_sublist _
  | _ :: _, _, [], _ => List.nil_sublist _
  | b :: bs, [], x :: xs, h => by
      cases b
      · exact mask_sublist_mask bs [] xs fun j hj => h (j + 1) hj
      · exact absurd (h 0 rfl) Bool.false_ne_true
  | b :: bs, b' :: bs', x :: xs, h => by
      have hTail := mask_sublist_mask bs bs' xs fun j hj => h (j + 1) hj
      cases b <;> cases b'
      · exact hTail
      · exact hTail.cons x
      · exact absurd (h 0 rfl) Bool.false_ne_true
      · exact hTail.cons₂ x

/-- A kept item sits at a flagged position. -/
theorem mem_mask {β : Type} {x : β} :
    ∀ {keep : List Bool} {xs : List β}, x ∈ mask keep xs →
      ∃ j, keep.getD j false = true ∧ xs.get? j = some x
  | [], _, h => by simp [mask] at h
  | _ :: _, [], h => by simp [mask] at h
  | b :: bs, y :: ys, h => by
      cases b
      · obtain ⟨j, hj, hy⟩ := mem_mask (by simpa only [mask, Bool.false_eq_true, ↓reduceIte] using h)
        exact ⟨j + 1, hj, hy⟩
      · simp only [mask, if_true, List.mem_cons] at h
        rcases h with rfl | h
        · exact ⟨0, rfl, rfl⟩
        · obtain ⟨j, hj, hy⟩ := mem_mask h
          exact ⟨j + 1, hj, hy⟩

theorem mask_of_all_true {β : Type} :
    ∀ (keep : List Bool) (xs : List β), keep.length = xs.length → (∀ b ∈ keep, b = true) →
      mask keep xs = xs
  | [], [], _, _ => rfl
  | [], _ :: _, h, _ => by simp at h
  | _ :: _, [], h, _ => by simp at h
  | b :: bs, x :: xs, h, hAll => by
      simp only [mask, hAll b (.head _), if_true,
        mask_of_all_true bs xs (by simpa using h) fun b' hb => hAll b' (.tail _ hb)]

/-- The flags that pick from `xs` what `outer` picks from the items `inner` kept. -/
def composeMask : List Bool → List Bool → List Bool
  | [], _ => []
  | false :: inner, outer => false :: composeMask inner outer
  | true :: inner, [] => false :: composeMask inner []
  | true :: inner, b :: outer => b :: composeMask inner outer

@[simp] theorem mask_nil_right {β : Type} (keep : List Bool) : mask keep ([] : List β) = [] := by
  cases keep <;> rfl

/-- Two selections in a row are one selection. -/
theorem mask_mask {β : Type} : ∀ (inner outer : List Bool) (xs : List β),
    mask outer (mask inner xs) = mask (composeMask inner outer) xs
  | [], _, _ => mask_nil_right _
  | _ :: _, _, [] => by simp [mask]
  | false :: inner, outer, _ :: xs => mask_mask inner outer xs
  | true :: inner, [], _ :: xs => mask_mask inner [] xs
  | true :: inner, b :: outer, x :: xs => by
      cases b <;> simp only [mask, composeMask, if_true, Bool.false_eq_true, ↓reduceIte,
        mask_mask inner outer xs]

/-- A data frame: column labels and labelled rows, each with one cell per column. -/
@[ext] structure Frame (κ α : Type) where
  columns : List κ
  rows : List (Label × List (Cell α))
  row_width : ∀ row ∈ rows, row.2.length = columns.length

namespace Frame

variable {κ α : Type} (f : Frame κ α)

/-- `frame.index`. -/
def index : List Label := f.rows.map Prod.fst

/-- The rows `p` keeps, with every column. -/
def filterRows (p : Label × List (Cell α) → Bool) : Frame κ α :=
  ⟨f.columns, f.rows.filter p, fun row h => f.row_width row (List.mem_of_mem_filter h)⟩

/-- `dropna(axis=0, how="all")`: the rows with at least one present cell. -/
def dropnaRowsAll : Frame κ α := f.filterRows fun row => row.2.any Cell.notMissing

/-- The message of pandas' `KeyError` for labels not in the index. -/
def notFoundMessage (missing : List Label) : String :=
  "[" ++ ", ".intercalate (missing.map Label.repr) ++ "] not found in axis"

/-- `drop(index=labels)`: every label must be in the index. -/
def drop (labels : List Label) : Except Exc (Frame κ α) :=
  match labels.filter (· ∉ f.index) with
  | [] => pure (f.filterRows fun row => row.1 ∉ labels)
  | missing => throw (.keyError (notFoundMessage missing))

/-- The columns flagged in `keep`, with every row. -/
def selectColumns (keep : List Bool) : Frame κ α :=
  ⟨mask keep f.columns, f.rows.map fun row => (row.1, mask keep row.2), by
    intro row h
    obtain ⟨r, hr, rfl⟩ := List.mem_map.mp h
    exact length_mask_congr keep (f.row_width r hr)⟩

/-- One flag per column: whether `p` holds of every cell in it. -/
def columnsWhere (p : Cell α → Bool) : List Bool :=
  (List.range f.columns.length).map fun j => f.rows.all fun row => p (row.2.getD j .nan)

/-- `dropna(axis="columns", how="any")`: the columns without a missing cell. -/
def dropnaColumnsAny : Frame κ α := f.selectColumns (f.columnsWhere Cell.notMissing)

/-- `replace([np.inf, -np.inf], np.nan)`. -/
def replaceInf : Frame κ α :=
  ⟨f.columns, f.rows.map fun row => (row.1, row.2.map Cell.infToNan), by
    intro row h
    obtain ⟨r, hr, rfl⟩ := List.mem_map.mp h
    simpa using f.row_width r hr⟩

/-- `frame.empty`: no rows or no columns. -/
def empty : Bool := f.rows.isEmpty || f.columns.isEmpty

@[simp] theorem filterRows_rows (p : Label × List (Cell α) → Bool) :
    (f.filterRows p).rows = f.rows.filter p := rfl

@[simp] theorem selectColumns_columns (keep : List Bool) :
    (f.selectColumns keep).columns = mask keep f.columns := rfl

@[simp] theorem selectColumns_index (keep : List Bool) : (f.selectColumns keep).index = f.index := by
  simp [selectColumns, index, Function.comp_def]

@[simp] theorem replaceInf_columns : f.replaceInf.columns = f.columns := rfl

@[simp] theorem length_columnsWhere (p : Cell α → Bool) :
    (f.columnsWhere p).length = f.columns.length := by
  simp [columnsWhere]

/-- A column is flagged exactly when it exists and `p` holds in every row. -/
theorem columnsWhere_getD_iff {p : Cell α → Bool} {j : Nat} :
    (f.columnsWhere p).getD j false = true ↔
      j < f.columns.length ∧ ∀ row ∈ f.rows, p (row.2.getD j .nan) = true := by
  by_cases hj : j < f.columns.length
  · simp [columnsWhere, List.getD_eq_getElem?_getD, List.getElem?_range hj, hj]
  · rw [List.getD_eq_default _ _ (by simpa using hj)]
    simp [hj]

theorem columnsWhere_getD {p : Cell α → Bool} {j : Nat}
    (h : (f.columnsWhere p).getD j false = true) {row : Label × List (Cell α)}
    (hRow : row ∈ f.rows) : p (row.2.getD j .nan) = true :=
  (f.columnsWhere_getD_iff.mp h).2 row hRow

/-- A column flagged on a frame is flagged on any selection of its rows. -/
theorem columnsWhere_filterRows {p : Cell α → Bool} {q : Label × List (Cell α) → Bool} {j : Nat}
    (h : (f.columnsWhere p).getD j false = true) :
    ((f.filterRows q).columnsWhere p).getD j false = true := by
  rw [columnsWhere_getD_iff] at h ⊢
  exact ⟨h.1, fun row hRow => h.2 row (List.mem_of_mem_filter hRow)⟩

/-- Every column is flagged when every cell satisfies `p`. -/
theorem columnsWhere_all_true {p : Cell α → Bool}
    (h : ∀ row ∈ f.rows, ∀ c ∈ row.2, p c = true) : ∀ b ∈ f.columnsWhere p, b = true := by
  simp only [columnsWhere, List.mem_map, List.mem_range, List.all_eq_true]
  rintro _ ⟨j, hj, rfl⟩
  simp only [List.all_eq_true, decide_eq_true_eq]
  intro row hRow
  have hLen : j < row.2.length := f.row_width row hRow ▸ hj
  simpa [List.getElem?_eq_getElem hLen] using h row hRow _ (List.getElem_mem hLen)

/-- No column is flagged exactly when every column has a cell failing `p`. -/
theorem columnsWhere_all_false (p : Cell α → Bool) :
    (∀ b ∈ f.columnsWhere p, b = false) ↔
      ∀ j < f.columns.length, ∃ row ∈ f.rows, p (row.2.getD j .nan) = false := by
  simp only [columnsWhere, List.getD_eq_getElem?_getD, List.mem_map, List.mem_range,
    forall_exists_index, and_imp, forall_apply_eq_imp_iff₂, List.all_eq_false, Bool.not_eq_true,
    Prod.exists]

/-- After `replace([inf, -inf], nan)`, a column has no missing cell exactly
when it had only finite cells. -/
theorem replaceInf_columnsWhere :
    f.replaceInf.columnsWhere Cell.notMissing = f.columnsWhere Cell.isFinite := by
  simp only [columnsWhere, replaceInf_columns]
  congr 1
  funext j
  simp only [replaceInf, List.all_map, Function.comp_def, List.getD_eq_getElem?_getD,
    List.getElem?_map]
  congr 1
  funext row
  cases row.2[j]?
  · rfl
  · exact Cell.notMissing_infToNan _

/-- In columns of finite cells, replacing infinities changes nothing. -/
theorem replaceInf_selectColumns :
    f.replaceInf.selectColumns (f.columnsWhere Cell.isFinite) =
      f.selectColumns (f.columnsWhere Cell.isFinite) := by
  refine Frame.ext rfl ?_
  simp only [selectColumns, replaceInf, List.map_map]
  refine List.map_congr_left fun row hRow => ?_
  simp only [Function.comp_apply, Prod.mk.injEq, true_and]
  refine mask_map_of_fixed _ _ _ fun j x hKeep hx => Cell.infToNan_of_isFinite ?_
  have hCell : row.2.getD j .nan = x := by simp_all
  exact hCell ▸ f.columnsWhere_getD hKeep hRow

/-- A frame with rows is empty after a column selection exactly when no column
is selected. -/
theorem selectColumns_empty (hRows : f.rows ≠ []) {keep : List Bool}
    (hLen : keep.length = f.columns.length) :
    (f.selectColumns keep).empty = decide (∀ b ∈ keep, b = false) := by
  rw [Bool.eq_iff_iff]
  simp only [empty, selectColumns, Bool.or_eq_true, List.isEmpty_eq_true, List.map_eq_nil_iff,
    hRows, false_or, mask_eq_nil_iff keep f.columns hLen, decide_eq_true_eq]

/-- `g` is `f` with some rows and some columns removed, every cell as it was:
its columns are those `keep` flags, its rows a sub-list of `f`'s rows cut to them. -/
def SubFrame (g f : Frame κ α) : Prop :=
  ∃ keep : List Bool, g.columns = mask keep f.columns ∧ g.rows.Sublist (f.selectColumns keep).rows

theorem selectColumns_selectColumns (inner outer : List Bool) :
    (f.selectColumns inner).selectColumns outer = f.selectColumns (composeMask inner outer) := by
  refine Frame.ext (mask_mask _ _ _) ?_
  simp only [selectColumns, List.map_map, Function.comp_def, mask_mask]

/-- Flagging every column selects the frame itself. -/
theorem selectColumns_all : f.selectColumns (f.columns.map fun _ => true) = f := by
  refine Frame.ext (mask_of_all_true _ _ (by simp) (by simp)) ?_
  refine (List.map_congr_left fun row hRow => ?_).trans (List.map_id _)
  exact Prod.ext rfl (mask_of_all_true _ _ (by simp [f.row_width row hRow]) (by simp))

theorem SubFrame.refl : f.SubFrame f :=
  ⟨f.columns.map fun _ => true, by rw [← selectColumns_columns, selectColumns_all],
    by rw [selectColumns_all]⟩

theorem SubFrame.trans {f g h : Frame κ α} (hgf : g.SubFrame f) (hhg : h.SubFrame g) :
    h.SubFrame f := by
  obtain ⟨inner, hColumns, hRows⟩ := hgf
  obtain ⟨outer, hColumns', hRows'⟩ := hhg
  refine ⟨composeMask inner outer, by rw [hColumns', hColumns, mask_mask], ?_⟩
  rw [← selectColumns_selectColumns]
  exact hRows'.trans (hRows.map _)

theorem subFrame_filterRows (p : Label × List (Cell α) → Bool) : (f.filterRows p).SubFrame f := by
  obtain ⟨keep, hColumns, hRows⟩ := SubFrame.refl f
  exact ⟨keep, hColumns, (List.filter_sublist _).trans hRows⟩

theorem subFrame_selectColumns (keep : List Bool) : (f.selectColumns keep).SubFrame f :=
  ⟨keep, rfl, .refl _⟩

/-- A sub-frame's columns are some of the frame's, in their order. -/
theorem SubFrame.columns_sublist {f g : Frame κ α} (h : g.SubFrame f) : g.columns.Sublist f.columns := by
  obtain ⟨keep, hColumns, -⟩ := h
  exact hColumns ▸ mask_sublist keep f.columns

end Frame

end Ert.Data
