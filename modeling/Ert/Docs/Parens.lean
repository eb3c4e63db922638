import Ert.Docs.Labels
import Mathlib.Algebra.Ring.Int.Defs

/-! Parenthesis balance of the type labels `_type_label` writes. A combinator
label is `comb(`, its options' labels and a `)`, so it is balanced when every
option's label is. The `$ref` branch adds a `)` of its own, and no label around
it can close it: its count of `(` minus `)` stays negative. -/
namespace Ert.Docs

open Ert.Python

/-- The open-parenthesis depth after reading `cs` from depth `d`, or `none`
once a `)` closes nothing. -/
def parenDepth : Nat → List Char → Option Nat
  | d, [] => some d
  | d, c :: cs =>
      if c = '(' then parenDepth (d + 1) cs
      else if c = ')' then
        match d with
        | 0 => none
        | d + 1 => parenDepth d cs
      else parenDepth d cs

/-- Every `)` closes an earlier `(`, and every `(` is closed. -/
def Balanced (s : String) : Prop := parenDepth 0 s.data = some 0

instance : DecidablePred Balanced := fun _ => inferInstanceAs (Decidable (_ = _))

/-- A `$ref` into `$defs` is labelled with the definition's name and a `)`
that closes nothing. -/
theorem typeLabel_defs_ref_unbalanced :
    typeLabel (.dict [("$ref", .str "#/$defs/X")]) = .ok "X)" ∧ ¬ Balanced "X)" :=
  ⟨by rw [typeLabel]; rfl, by decide⟩

/-- Closes what it opens, from any depth. -/
def Closed (cs : List Char) : Prop := ∀ d, parenDepth d cs = some d

/-- The count of `(` minus the count of `)`. -/
def netParens (cs : List Char) : Int := (cs.count '(' : Int) - cs.count ')'

theorem parenDepth_append (a b : List Char) :
    ∀ d, parenDepth d (a ++ b) = (parenDepth d a).bind fun e => parenDepth e b := by
  induction a with
  | nil => intro d; rfl
  | cons c a ih =>
      intro d
      by_cases hOpen : c = '('
      · simp [parenDepth, hOpen, ih]
      · by_cases hClose : c = ')'
        · cases d <;> simp [parenDepth, hClose, ih]
        · simp [parenDepth, hOpen, hClose, ih]

theorem netParens_cons (c : Char) (cs : List Char) :
    netParens (c :: cs) = netParens cs + (if c = '(' then 1 else 0) - (if c = ')' then 1 else 0) := by
  simp only [netParens, List.count_cons, beq_iff_eq]
  split_ifs <;> omega

theorem netParens_of_parenDepth {cs : List Char} {d e : Nat} (h : parenDepth d cs = some e) :
    netParens cs = e - d := by
  induction d, cs using parenDepth.induct generalizing e with
  | case1 d => cases h; simp [netParens]
  | case2 d cs ih =>
      rw [netParens_cons, ih h]
      simp
      omega
  | case3 cs => cases h
  | case4 cs d _ ih =>
      rw [netParens_cons, ih h]
      simp
      omega
  | case5 d c cs hOpen hClose ih =>
      simp only [parenDepth, hOpen, hClose, if_false] at h
      rw [netParens_cons, ih h, if_neg hOpen, if_neg hClose]
      omega

@[simp] theorem netParens_append (a b : List Char) :
    netParens (a ++ b) = netParens a + netParens b := by
  simp only [netParens, List.count_append]
  omega

theorem Closed.netParens_eq_zero {cs : List Char} (h : Closed cs) : netParens cs = 0 := by
  simpa using netParens_of_parenDepth (h 0)

theorem Closed.append {a b : List Char} (ha : Closed a) (hb : Closed b) : Closed (a ++ b) :=
  fun d => by rw [parenDepth_append, ha d]; exact hb d

theorem closed_flatten {xs : List (List Char)} (h : ∀ x ∈ xs, Closed x) : Closed xs.flatten := by
  induction xs with
  | nil => intro d; rfl
  | cons x xs ih =>
      exact (h x (.head _)).append (ih fun y hy => h y (.tail _ hy))

/-- Parentheses-free text. -/
def ParenFree (s : String) : Prop := '(' ∉ s.data ∧ ')' ∉ s.data

theorem closed_of_parenFree {cs : List Char} (hOpen : '(' ∉ cs) (hClose : ')' ∉ cs) :
    Closed cs := by
  induction cs with
  | nil => intro d; rfl
  | cons c cs ih =>
      intro d
      have hc : c ≠ '(' ∧ c ≠ ')' :=
        ⟨fun h => hOpen (h ▸ .head _), fun h => hClose (h ▸ .head _)⟩
      simp only [parenDepth, hc.1, hc.2, if_false]
      exact ih (fun h => hOpen (.tail _ h)) (fun h => hClose (.tail _ h)) d

theorem Balanced.of_closed {s : String} (h : Closed s.data) : Balanced s := h 0

theorem Balanced.netParens_eq_zero {s : String} (h : Balanced s) : netParens s.data = 0 := by
  simpa using netParens_of_parenDepth h

theorem data_intercalate_go (sep : String) :
    ∀ (acc : String) (ps : List String),
      (String.intercalate.go acc sep ps).data =
        acc.data ++ (ps.map fun p => sep.data ++ p.data).flatten
  | acc, [] => by simp [String.intercalate.go]
  | acc, p :: ps => by simp [String.intercalate.go, data_intercalate_go sep _ ps]

theorem data_intercalate (sep : String) :
    ∀ ps : List String, (sep.intercalate ps).data =
      match ps with
      | [] => []
      | p :: ps => p.data ++ (ps.map fun q => sep.data ++ q.data).flatten
  | [] => rfl
  | p :: ps => data_intercalate_go sep p ps

theorem closed_intercalate {sep : String} (hSep : Closed sep.data) {ps : List String}
    (h : ∀ p ∈ ps, Closed p.data) : Closed (sep.intercalate ps).data := by
  rw [data_intercalate]
  cases ps with
  | nil => intro d; rfl
  | cons p ps =>
      refine (h p (.head _)).append (closed_flatten ?_)
      simp only [List.mem_map]
      rintro _ ⟨q, hq, rfl⟩
      exact hSep.append (h q (.tail _ hq))

theorem netParens_intercalate {sep : String} (hSep : netParens sep.data = 0)
    (ps : List String) :
    netParens (sep.intercalate ps).data = (ps.map fun p => netParens p.data).sum := by
  have hTail : ∀ qs : List String, netParens (qs.map fun q => sep.data ++ q.data).flatten =
      (qs.map fun q => netParens q.data).sum := by
    intro qs
    induction qs with
    | nil => rfl
    | cons q qs ih => simp [ih, hSep]
  rw [data_intercalate]
  cases ps with
  | nil => rfl
  | cons p ps => simp [hTail]

/-- The type names a `type` value gives. -/
def typeNames : Json → List String
  | .list items => items.map Json.toStr
  | t => [t.toStr]

/-- The schema nodes of the balance property, by the branch `_type_label` takes
on them: a string `$ref`, an `enum`, a `type`, a combinator listing such nodes,
or an object, array or unknown node; type names and `$ref` strings have no
parentheses. In `LabelNode n`, combinators nest at most `n` deep. -/
inductive LabelNode : Nat → Json → Prop
  | ref {n : Nat} {items : List (String × Json)} {s : String}
      (hRef : items.lookup "$ref" = some (.str s)) (hFree : ParenFree s) : LabelNode n (.dict items)
  | enum {n : Nat} {items : List (String × Json)} (hRef : items.lookup "$ref" = none)
      (hEnum : (items.lookup "enum").isSome) : LabelNode n (.dict items)
  | type {n : Nat} {items : List (String × Json)} {t : Json} (hRef : items.lookup "$ref" = none)
      (hEnum : items.lookup "enum" = none) (hType : items.lookup "type" = some t)
      (hFree : ∀ name ∈ typeNames t, ParenFree name) : LabelNode n (.dict items)
  | comb {n : Nat} {items : List (String × Json)} {comb : String} {subs : List Json}
      (hRef : items.lookup "$ref" = none) (hEnum : items.lookup "enum" = none)
      (hType : items.lookup "type" = none) (hComb : firstComb items = some comb)
      (hSubs : items.lookup comb = some (.list subs)) (hNodes : ∀ sub ∈ subs, LabelNode n sub) :
      LabelNode (n + 1) (.dict items)
  | plain {n : Nat} {items : List (String × Json)} (hRef : items.lookup "$ref" = none)
      (hEnum : items.lookup "enum" = none) (hType : items.lookup "type" = none)
      (hComb : firstComb items = none) : LabelNode n (.dict items)

/-- Combinator nesting of at most 100 levels. `_type_label` calls itself once
per level, so a call made fewer than 899 frames deep stays inside CPython's
default recursion limit of 1000; deeper nesting can raise `RecursionError`,
which `typeLabel` does not model. -/
def safeNesting : Nat := 100

/-- `_type_label` meets a `$ref` into `$defs` or `definitions`: at the node, or
in an option of the combinator it lists. -/
inductive ReachesDefsRef : Json → Prop
  | here {items : List (String × Json)} {s : String} (hRef : items.lookup "$ref" = some (.str s))
      (hDefs : (searchDefRef s.data).isSome) : ReachesDefsRef (.dict items)
  | comb {items : List (String × Json)} {comb : String} {subs : List Json} {sub : Json}
      (hRef : items.lookup "$ref" = none) (hEnum : items.lookup "enum" = none)
      (hType : items.lookup "type" = none) (hComb : firstComb items = some comb)
      (hSubs : items.lookup comb = some (.list subs)) (hMem : sub ∈ subs)
      (hSub : ReachesDefsRef sub) : ReachesDefsRef (.dict items)

/-- Without a `$ref`, a reached reference lies in an option of the node's
combinator. -/
theorem ReachesDefsRef.inv_of_ref_none {items : List (String × Json)}
    (h : ReachesDefsRef (.dict items)) (hRef : items.lookup "$ref" = none) :
    items.lookup "enum" = none ∧ items.lookup "type" = none ∧ ∃ comb subs,
      firstComb items = some comb ∧ items.lookup comb = some (.list subs) ∧
        ∃ sub ∈ subs, ReachesDefsRef sub := by
  cases h with
  | here hRef' => simp [hRef] at hRef'
  | comb _ hEnum hType hComb hSubs hMem hSub => exact ⟨hEnum, hType, _, _, hComb, hSubs, _, hMem, hSub⟩

theorem refTail_subset {rest name : List Char} (h : refTail rest = some name) : name ⊆ rest := by
  have hName : name = rest.takeWhile (· ≠ '\n') := by
    unfold refTail at h
    split at h <;> simp_all
  exact hName ▸ List.takeWhile_subset _

/-- The captured name is text of the `$ref` string. -/
theorem searchDefRef_subset : ∀ {cs name : List Char}, searchDefRef cs = some name → name ⊆ cs
  | [], _, h => by cases h
  | c :: cs, name, h => by
      simp only [searchDefRef] at h
      rcases (Option.orElse_eq_some _ _ _).mp h with h | ⟨-, h⟩
      · rcases (Option.orElse_eq_some _ _ _).mp h with h | ⟨-, h⟩
        · split at h
          · exact fun _ hc => (List.drop_sublist _ _).subset (refTail_subset h hc)
          · cases h
        · split at h
          · exact fun _ hc => (List.drop_sublist _ _).subset (refTail_subset h hc)
          · cases h
      · exact fun _ hc => List.mem_cons_of_mem _ (searchDefRef_subset h hc)

theorem closed_of_parenFree_string {s : String} (h : ParenFree s) : Closed s.data :=
  closed_of_parenFree h.1 h.2

theorem closed_typeText {t : Json} (h : ∀ name ∈ typeNames t, ParenFree name) :
    Closed (typeText t).data := by
  have hTick : Closed "`".data := closed_of_parenFree (by decide) (by decide)
  have hQuoted : ∀ name, ParenFree name → Closed ("`" ++ name ++ "`").data := fun name hName =>
    (hTick.append (closed_of_parenFree_string hName)).append hTick
  cases t with
  | list items =>
      refine closed_intercalate (closed_of_parenFree (by decide) (by decide)) ?_
      simp only [List.mem_map]
      rintro _ ⟨x, hx, rfl⟩
      exact hQuoted _ (h _ (List.mem_map_of_mem _ hx))
  | _ => exact hQuoted _ (h _ (.head _))

/-- `(`, then text that closes what it opens, then `)`. -/
theorem closed_wrap {cs : List Char} (h : Closed cs) : Closed ('(' :: cs ++ [')']) := fun d => by
  show parenDepth d ('(' :: (cs ++ [')'])) = some d
  simp only [parenDepth, if_true]
  rw [parenDepth_append, h (d + 1)]
  rfl

/-- What the induction carries: a label that reaches a `$defs` reference has more
`)` than `(`, any other label closes what it opens. -/
def LabelParens (node : Json) (label : String) : Prop :=
  (ReachesDefsRef node → netParens label.data < 0) ∧ (¬ ReachesDefsRef node → Closed label.data)

theorem LabelParens.netParens_nonpos {node : Json} {label : String} (h : LabelParens node label) :
    netParens label.data ≤ 0 := by
  by_cases hReach : ReachesDefsRef node
  · have := h.1 hReach
    omega
  · have := (h.2 hReach).netParens_eq_zero
    omega

theorem sum_netParens_nonpos {subs : List Json} {parts : List String}
    (h : List.Forall₂ LabelParens subs parts) : (parts.map fun p => netParens p.data).sum ≤ 0 := by
  induction h with
  | nil => simp
  | cons hHead _ ih =>
      have := hHead.netParens_nonpos
      simp only [List.map_cons, List.sum_cons]
      omega

/-- One option that reaches a `$defs` reference makes the options' count negative. -/
theorem sum_netParens_neg {subs : List Json} {parts : List String}
    (h : List.Forall₂ LabelParens subs parts) (hReach : ∃ sub ∈ subs, ReachesDefsRef sub) :
    (parts.map fun p => netParens p.data).sum < 0 := by
  induction h with
  | nil => simp at hReach
  | @cons sub p subs parts hHead hTail ih =>
      simp only [List.map_cons, List.sum_cons]
      obtain ⟨sub', hMem, hSub'⟩ := hReach
      rcases List.mem_cons.mp hMem with rfl | hMem
      · have := hHead.1 hSub'
        have := sum_netParens_nonpos hTail
        omega
      · have := hHead.netParens_nonpos
        have := ih ⟨sub', hMem, hSub'⟩
        omega

theorem closed_of_forall₂ {subs : List Json} {parts : List String}
    (h : List.Forall₂ LabelParens subs parts) (hNo : ∀ sub ∈ subs, ¬ ReachesDefsRef sub) :
    ∀ p ∈ parts, Closed p.data := by
  induction h with
  | nil => simp
  | cons hHead _ ih =>
      intro p hp
      rcases List.mem_cons.mp hp with rfl | hp
      · exact hHead.2 (hNo _ (.head _))
      · exact ih (fun sub hSub => hNo sub (.tail _ hSub)) p hp

theorem closed_of_firstComb {items : List (String × Json)} {comb : String}
    (h : firstComb items = some comb) : Closed comb.data := by
  have hMem := List.mem_of_find?_eq_some h
  simp only [List.mem_cons, List.mem_singleton, List.not_mem_nil, or_false] at hMem
  rcases hMem with rfl | rfl | rfl <;> exact closed_of_parenFree (by decide) (by decide)

/-- A combinator label `comb(p1, p2, …)` counts what its options count. -/
theorem netParens_combLabel {comb : String} (hComb : Closed comb.data) (parts : List String) :
    netParens (comb ++ "(" ++ ", ".intercalate parts ++ ")").data =
      (parts.map fun p => netParens p.data).sum := by
  have hSep : netParens ", ".data = 0 := by decide
  have hOpen : netParens "(".data = 1 := by decide
  have hClose : netParens ")".data = -1 := by decide
  simp only [String.data_append, netParens_append, netParens_intercalate hSep, hOpen, hClose,
    hComb.netParens_eq_zero]
  omega

/-- A combinator label closes what it opens when each option's label does. -/
theorem closed_combLabel {comb : String} (hComb : Closed comb.data) {parts : List String}
    (h : ∀ p ∈ parts, Closed p.data) :
    Closed (comb ++ "(" ++ ", ".intercalate parts ++ ")").data := by
  have hSep : Closed ", ".data := closed_of_parenFree (by decide) (by decide)
  simp only [String.data_append, List.append_assoc]
  exact hComb.append (closed_wrap (closed_intercalate hSep h))

/-- Every label of such a node closes what it opens, unless it reaches a
`$defs` reference; then it has more `)` than `(`. -/
theorem typeLabel_labelParens {n : Nat} {node : Json} (hNode : LabelNode n node) :
    ∃ label, typeLabel node = .ok label ∧ LabelParens node label := by
  induction hNode with
  | @ref _ items s hRef hFree =>
      rw [typeLabel_ref hRef]
      cases hSearch : searchDefRef s.data with
      | some name =>
          have hName : Closed name := closed_of_parenFree
            (fun h => hFree.1 (searchDefRef_subset hSearch h))
            (fun h => hFree.2 (searchDefRef_subset hSearch h))
          refine ⟨String.mk name ++ ")", by simp [refLabel, Json.asStr, hSearch], fun _ => ?_,
            fun hNo => absurd (.here hRef (by simp [hSearch])) hNo⟩
          have hZero := hName.netParens_eq_zero
          have hClose : netParens ")".data = -1 := by decide
          simp only [String.data_append, netParens_append, hClose]
          simp only [String.data] at hZero ⊢
          omega
      | none =>
          refine ⟨"`$ref` to `" ++ s ++ "`", by simp [refLabel, Json.asStr, hSearch, Json.toStr],
            fun hReach => ?_, fun _ => ?_⟩
          · cases hReach with
            | here hRef' hDefs =>
                rw [hRef] at hRef'
                cases hRef'
                simp [hSearch] at hDefs
            | comb hRef' => simp [hRef] at hRef'
          · exact ((closed_of_parenFree (by decide) (by decide)).append
              (closed_of_parenFree_string hFree)).append (closed_of_parenFree (by decide) (by decide))
  | @enum _ items hRef hEnum =>
      refine ⟨"enum", typeLabel_enum hRef hEnum, fun hReach => ?_,
        fun _ => closed_of_parenFree (by decide) (by decide)⟩
      obtain ⟨hNone, -⟩ := hReach.inv_of_ref_none hRef
      simp [hNone] at hEnum
  | @type _ items t hRef hEnum hType hFree =>
      refine ⟨typeText t, typeLabel_type hRef hEnum hType, fun hReach => ?_,
        fun _ => closed_typeText hFree⟩
      obtain ⟨-, hNone, -⟩ := hReach.inv_of_ref_none hRef
      simp [hNone] at hType
  | @comb _ items comb subs hRef hEnum hType hComb hSubs _ ih =>
      obtain ⟨parts, hParts, hForall⟩ := mapM_ok_of_forall ih
      rw [typeLabel_comb hRef hEnum hType hComb hSubs, hParts]
      refine ⟨comb ++ "(" ++ ", ".intercalate parts ++ ")", rfl, fun hReach => ?_, fun hNo => ?_⟩
      · obtain ⟨-, -, comb', subs', hComb', hSubs', hSome⟩ := hReach.inv_of_ref_none hRef
        rw [hComb, Option.some.injEq] at hComb'
        subst hComb'
        rw [hSubs, Option.some.injEq, Json.list.injEq] at hSubs'
        subst hSubs'
        rw [netParens_combLabel (closed_of_firstComb hComb)]
        exact sum_netParens_neg hForall hSome
      · exact closed_combLabel (closed_of_firstComb hComb) (closed_of_forall₂ hForall
          fun sub hMem hSub => hNo (.comb hRef hEnum hType hComb hSubs hMem hSub))
  | @plain _ items hRef hEnum hType hComb =>
      refine ⟨_, typeLabel_plain hRef hEnum hType hComb, fun hReach => ?_, fun _ => ?_⟩
      · obtain ⟨-, -, comb, subs, hSome, -⟩ := hReach.inv_of_ref_none hRef
        simp [hComb] at hSome
      · split_ifs <;> exact closed_of_parenFree (by decide) (by decide)

/-- The labels of the balance property: `_type_label` labels every such node
nested within `safeNesting`; the label is balanced exactly when it reaches no
`$ref` into `$defs` or `definitions`, and when it reaches one it has more `)`
than `(`. -/
theorem typeLabel_balanced_iff {node : Json} (hNode : LabelNode safeNesting node) :
    ∃ label, typeLabel node = .ok label ∧ (Balanced label ↔ ¬ ReachesDefsRef node) ∧
      (ReachesDefsRef node → netParens label.data < 0) := by
  obtain ⟨label, hLabel, hReach, hNo⟩ := typeLabel_labelParens hNode
  refine ⟨label, hLabel, ⟨fun hBalanced hSome => ?_, fun hNot => Balanced.of_closed (hNo hNot)⟩, hReach⟩
  have := hReach hSome
  have := hBalanced.netParens_eq_zero
  omega

/-- `anyOf` an integer and a `$defs` reference. -/
def integerOrDefsRef : Json :=
  .dict [("anyOf", .list [.dict [("type", .str "integer")], .dict [("$ref", .str "#/$defs/X")]])]

theorem typeLabel_balanced_iff_anyOf :
    LabelNode safeNesting integerOrDefsRef ∧
    ∃ label, typeLabel integerOrDefsRef = .ok label ∧
      (Balanced label ↔ ¬ ReachesDefsRef integerOrDefsRef) ∧
      (ReachesDefsRef integerOrDefsRef → netParens label.data < 0) := by
  have hNode : LabelNode safeNesting integerOrDefsRef := by
    refine .comb rfl rfl rfl rfl rfl fun sub hSub => ?_
    simp only [List.mem_cons, List.mem_singleton, List.not_mem_nil, or_false] at hSub
    rcases hSub with rfl | rfl
    · exact .type rfl rfl rfl fun name hName => by
        simp only [typeNames, Json.toStr, List.mem_singleton] at hName
        subst hName
        exact ⟨by decide, by decide⟩
    · exact .ref rfl ⟨by decide, by decide⟩
  exact ⟨hNode, typeLabel_balanced_iff hNode⟩

end Ert.Docs
