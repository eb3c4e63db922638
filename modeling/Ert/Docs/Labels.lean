import Ert.Python.Text
import Mathlib.Data.List.DropRight

/-! The helpers of `generate_markdown_from_json.py` that turn one schema node
into text: `_slug`, `_fmt_default`, `_type_label`, `_render_constraints` and
`_definition_names`. The two regular expressions are written out as functions on
characters. -/
namespace Ert.Docs

open Ert.Python

/-- `re.sub(pattern, r, s)` for a pattern that is one character class with `+`:
each maximal run of matching characters becomes one `r`. `inRun` says whether
the previous character matched. -/
def subRuns (p : Char → Bool) (r : Char) : Bool → List Char → List Char
  | _, [] => []
  | inRun, c :: cs =>
      if p c then
        if inRun then subRuns p r true cs else r :: subRuns p r true cs
      else c :: subRuns p r false cs

/-- The class `[a-z0-9]`. -/
def isSlugChar (c : Char) : Bool := ('a' ≤ c ∧ c ≤ 'z') || ('0' ≤ c ∧ c ≤ '9')

/-- `str.lower` on one character, as far as `_slug` can tell: ASCII capitals
become small letters, `İ` (U+0130) becomes `i` and a combining dot above, and
the Kelvin sign (U+212A) becomes `k`. The lowercase of any other character has
no ASCII letter or digit, so `_slug` makes a `-` of it as of the character
itself, which is kept. -/
def lowerChar (c : Char) : List Char :=
  if c = '\u0130' then ['i', '\u0307'] else if c = '\u212A' then ['k'] else [c.toLower]

/-- `_slug(text)`. A run `-{2,}` and a single `-` both become `-`, so the
second `re.sub` is `subRuns` on `-`. -/
def slug (text : String) : String :=
  let s := text.data.flatMap lowerChar
  let s := subRuns (fun c => !isSlugChar c) '-' false s
  let s := subRuns (· = '-') '-' false s
  let s := (s.dropWhile (· = '-')).rdropWhile (· = '-')
  if s.isEmpty then "section" else String.mk s

example : slug "İstanbul" = "i-stanbul" ∧ slug "\u212Aelvin" = "kelvin" := by decide

/-- `_fmt_default(value)`. -/
def fmtDefault : Json → String
  | .none => "`null`"
  | v => "`" ++ v.dumps ++ "`"

/-- The name `.+` captures after a definitions prefix: the rest of the line,
which must not be empty. -/
def refTail (rest : List Char) : Option (List Char) :=
  match rest.takeWhile (· ≠ '\n') with
  | [] => none
  | name => some name

/-- `re.search(r"#/(?:\$defs|definitions)/(.+)", ref).group(1)`: the leftmost
position where either prefix starts and is followed by a non-empty line. -/
def searchDefRef : List Char → Option (List Char)
  | [] => none
  | s@(_ :: cs) =>
      let viaDefs := if "#/$defs/".data.isPrefixOf s then refTail (s.drop 8) else none
      let viaDefinitions :=
        if "#/definitions/".data.isPrefixOf s then refTail (s.drop 14) else none
      (viaDefs <|> viaDefinitions) <|> searchDefRef cs

/-- The first of `combs` that `comb in node` finds, testing them in order. -/
def firstIn (node : Json) : List String → Except Exc (Option String)
  | [] => pure none
  | comb :: rest => do
      if ← node.contains comb then pure (some comb) else firstIn node rest

theorem getItem_weight_lt {node v : Json} {key : String} (h : node.getItem key = .ok v) :
    v.weight < node.weight := by
  cases node with
  | dict items =>
      simp only [Json.getItem] at h
      split at h
      · cases h
        exact Json.weight_lookup_lt ‹_›
      · cases h
  | _ => cases h

/-- The `type` branch of `_type_label`: each listed type, or the one type, in backticks. -/
def typeText : Json → String
  | .list items => " | ".intercalate (items.map fun x => "`" ++ x.toStr ++ "`")
  | t => "`" ++ t.toStr ++ "`"

/-- The `$ref` branch of `_type_label`; `re.search` needs a string. -/
def refLabel (ref : Json) : Except Exc String := do
  match searchDefRef (← ref.asStr).data with
  | some refName => pure (String.mk refName ++ ")")
  | none => pure ("`$ref` to `" ++ ref.toStr ++ "`")

/-- `_type_label(node)`. There is no recursion limit: where CPython would raise
`RecursionError` on combinators nested about a thousand deep, the model returns
a label. -/
def typeLabel (node : Json) : Except Exc String := do
  if ← node.contains "$ref" then refLabel (← node.getItem "$ref")
  else if ← node.contains "enum" then pure "enum"
  else if ← node.contains "type" then pure (typeText (← node.getItem "type"))
  else match ← firstIn node ["anyOf", "oneOf", "allOf"] with
  | some comb =>
      match _hItem : node.getItem comb with
      | .error e => throw e
      | .ok v =>
          match _hIter : v.iter with
          | .error e => throw e
          | .ok subs => do
              let parts ← subs.attach.mapM fun ⟨sub, _⟩ => typeLabel sub
              pure (comb ++ "(" ++ ", ".intercalate parts ++ ")")
  | none =>
      if ← node.contains "properties" then pure "`object`"
      else if ← node.contains "additionalProperties" then pure "`object`"
      else if ← node.contains "items" then pure "`array`"
      else pure "`unknown`"
termination_by node.weight
decreasing_by
  exact Nat.lt_of_le_of_lt (Json.weight_iter_le ‹_› ‹_›) (getItem_weight_lt ‹_›)

/-- The combinator `_type_label` reads on a dict: the first one present. -/
def firstComb (items : List (String × Json)) : Option String :=
  ["anyOf", "oneOf", "allOf"].find? fun comb => (items.lookup comb).isSome

theorem firstIn_dict (items : List (String × Json)) :
    ∀ combs, firstIn (.dict items) combs = .ok (combs.find? fun comb => (items.lookup comb).isSome)
  | [] => rfl
  | comb :: rest => by
      cases h : (items.lookup comb).isSome <;>
        simp [firstIn, Json.contains, h, firstIn_dict items rest]

theorem mapM_subtype_val {β γ : Type} {p : β → Prop} (f : β → Except Exc γ) :
    ∀ l : List {x // p x}, l.mapM (fun x => f x.1) = (l.map Subtype.val).mapM f
  | [] => rfl
  | x :: xs => by simp only [List.map_cons, List.mapM_cons, mapM_subtype_val f xs]

theorem mapM_attach {β γ : Type} (l : List β) (f : β → Except Exc γ) :
    l.attach.mapM (fun x => f x.1) = l.mapM f := by
  rw [mapM_subtype_val, List.attach_map_subtype_val]

theorem typeLabel_ref {items : List (String × Json)} {ref : Json}
    (h : items.lookup "$ref" = some ref) : typeLabel (.dict items) = refLabel ref := by
  rw [typeLabel]
  simp only [Json.contains, Json.getItem, h, Option.isSome_some, pure_eq_ok, ok_bind, ↓reduceIte]

theorem typeLabel_enum {items : List (String × Json)} (hRef : items.lookup "$ref" = none)
    (hEnum : (items.lookup "enum").isSome) : typeLabel (.dict items) = .ok "enum" := by
  rw [typeLabel]
  simp only [Json.contains, hRef, hEnum, Option.isSome_none, pure_eq_ok, ok_bind, ↓reduceIte,
    Bool.false_eq_true]

theorem typeLabel_type {items : List (String × Json)} {t : Json}
    (hRef : items.lookup "$ref" = none) (hEnum : items.lookup "enum" = none)
    (hType : items.lookup "type" = some t) : typeLabel (.dict items) = .ok (typeText t) := by
  rw [typeLabel]
  simp only [Json.contains, Json.getItem, hRef, hEnum, hType, Option.isSome_none,
    Option.isSome_some, pure_eq_ok, ok_bind, ↓reduceIte, Bool.false_eq_true]

theorem typeLabel_comb {items : List (String × Json)} {comb : String} {subs : List Json}
    (hRef : items.lookup "$ref" = none) (hEnum : items.lookup "enum" = none)
    (hType : items.lookup "type" = none) (hComb : firstComb items = some comb)
    (hSubs : items.lookup comb = some (.list subs)) :
    typeLabel (.dict items) =
      (subs.mapM typeLabel).map fun parts => comb ++ "(" ++ ", ".intercalate parts ++ ")" := by
  rw [typeLabel]
  simp only [firstComb] at hComb
  have hGet : Json.getItem comb (.dict items) = .ok (.list subs) := by simp [Json.getItem, hSubs]
  simp only [Json.contains, hRef, hEnum, hType, firstIn_dict, hComb, Option.isSome_none,
    pure_eq_ok, ok_bind, Bool.false_eq_true, if_false]
  split
  · rename_i h
    rw [hGet] at h
    cases h
  · rename_i h
    rw [hGet] at h
    cases h
    simp only [Json.iter, pure_eq_ok, ok_bind]
    rw [mapM_attach]
    cases subs.mapM typeLabel <;> rfl

theorem typeLabel_plain {items : List (String × Json)} (hRef : items.lookup "$ref" = none)
    (hEnum : items.lookup "enum" = none) (hType : items.lookup "type" = none)
    (hComb : firstComb items = none) :
    typeLabel (.dict items) = .ok
      (if (items.lookup "properties").isSome || (items.lookup "additionalProperties").isSome
        then "`object`" else if (items.lookup "items").isSome then "`array`" else "`unknown`") := by
  rw [typeLabel]
  simp only [firstComb] at hComb
  simp only [Json.contains, hRef, hEnum, hType, firstIn_dict, hComb, Option.isSome_none,
    pure_eq_ok, ok_bind, Bool.false_eq_true, if_false]
  cases (items.lookup "properties").isSome <;> cases (items.lookup "additionalProperties").isSome <;>
    cases (items.lookup "items").isSome <;> rfl

/-- The keys `_render_constraints` looks for, in its order. -/
def constraintKeys : List String :=
  ["title", "format", "pattern", "minLength", "maxLength", "minimum", "exclusiveMinimum",
    "maximum", "exclusiveMaximum", "multipleOf", "minItems", "maxItems", "uniqueItems",
    "minProperties", "maxProperties", "const"]

/-- How `_render_constraints` prints the value of `key`; a title is plain text. -/
def constraintValue (key : String) (val : Json) : String :=
  let valStr := match val with
    | .dict _ | .list _ => "`" ++ val.dumps ++ "`"
    | .bool b => "`" ++ (if b then "true" else "false") ++ "`"
    | _ => "`" ++ val.toStr ++ "`"
  if key = "title" then val.toStr else valStr

/-- `_render_constraints(node)`. -/
def renderConstraints (node : Json) : Except Exc (List String) :=
  constraintKeys.filterMapM fun key => do
    if ← node.contains key then
      let val ← node.getItem key
      pure (some ("- **" ++ key ++ ":** " ++ constraintValue key val))
    else pure none

/-- `_definition_names(schema)`: pydantic v2's `$defs`, else v1's `definitions`. -/
def definitionNames (schema : Json) : Except Exc (String × Json) := do
  let defs ← schema.get "$defs"
  match defs with
  | .none => do
      let defs ← schema.get "definitions"
      pure ("definitions", if defs.truthy then defs else .dict [])
  | defs => pure ("$defs", if defs.truthy then defs else .dict [])

end Ert.Docs
