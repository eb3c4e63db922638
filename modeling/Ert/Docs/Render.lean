import Ert.Docs.Labels
import Ert.Python.Call

/-! `render_schema_markdown` and its nested `render_object`, and the Sphinx hook
`_generate_config_reference` of `conf.py` that calls it. `out` is the list of
lines `render_object` appends to; the model returns the lines one call appends.
Every call of `render_object` or `render_schema_markdown` first binds its
arguments as Python does (`Ert.Python.Signature.bindCall`), after the arguments
are evaluated. -/
namespace Ert.Docs

open Ert.Python

/-- What `render_object` reads from the enclosing call: the schema and
`max_heading_level`. -/
structure Context where
  schema : Json
  maxHeadingLevel : Int

/-- `def render_object(node, path, level, header_name=None)`. -/
def renderObjectSig : Signature :=
  ⟨"render_schema_markdown.<locals>.render_object",
    [⟨"node", false⟩, ⟨"path", false⟩, ⟨"level", false⟩, ⟨"header_name", true⟩]⟩

/-- `def render_schema_markdown(schema, title=None, max_heading_level=6)`. -/
def renderSchemaMarkdownSig : Signature :=
  ⟨"render_schema_markdown",
    [⟨"schema", false⟩, ⟨"title", true⟩, ⟨"max_heading_level", true⟩]⟩

/-- The section title line: `header_name`, else the last path element, else the
schema's title or `Root`, after `min(level, 6)` hashes. -/
def headingLine (ctx : Context) (path : List String) (level : Int) (headerName : Json) :
    Except Exc String := do
  let name ← if headerName.truthy then pure headerName
    else match path.getLast? with
      | some last => pure (Json.str last)
      | none => do
          let title ← ctx.schema.get "title"
          pure (if title.truthy then title else .str "Root")
  let hashes := String.mk (List.replicate (min level 6).toNat '#')
  pure (hashes ++ " " ++ name.toStr ++ "\n")

/-- The meta block: type label, default, deprecation, constraints, enum values. -/
def metaLines (node : Json) : Except Exc (List String) := do
  let typeLine := "- **type:** " ++ (← typeLabel node)
  let defaultLines ← if ← node.contains "default" then do
      pure ["- **default:** " ++ fmtDefault (← node.getItem "default")]
    else pure []
  let deprecatedLines :=
    if (← node.get "deprecated").truthy then ["- **deprecated:** `true`"] else []
  let constraintLines ← renderConstraints node
  let enumLines ← if ← node.contains "enum" then do
      let vals ← (← node.getItem "enum").iter
      pure ["- **enum:** " ++ ", ".intercalate (vals.map fun v => "`" ++ v.dumps ++ "`")]
    else pure []
  pure (typeLine :: defaultLines ++ deprecatedLines ++ constraintLines ++ enumLines)

/-- The description, verbatim but for leading newlines. -/
def descriptionLines (node : Json) : Except Exc (List String) := do
  if (← node.get "description").truthy then do
    pure [lstrip (← node.getItem "description").toStr ['\n'], ""]
  else pure []

/-- One combinator's options, each by its type label. -/
def optionLines (node : Json) (comb : String) : Except Exc (List String) := do
  if ← node.contains comb then do
    let labels ← (← (← node.getItem comb).iter).mapM typeLabel
    let options := (List.enumFrom 1 labels).map fun p => s!"- Option {p.1}: {p.2}"
    pure (s!"**{comb}:**" :: "" :: options ++ [""])
  else pure []

/-- `isinstance(value, dict) and ("properties" in value or value.get("type") == "object")`. -/
def isInlineObject (value : Json) : Except Exc Bool := do
  if !value.isDict then pure false
  else if ← value.contains "properties" then pure true
  else pure ((← value.get "type").isStr "object")

theorem get_weight_lt {node v d : Json} {key : String} (h : node.get key d = .ok v)
    (hv : v.isDict = true) (hd : d.isDict = false) : v.weight < node.weight := by
  cases node with
  | dict items =>
      cases hl : items.lookup key with
      | none =>
          obtain rfl : d = v := by simpa [Json.get, hl, pure, Except.pure] using h
          simp [hd] at hv
      | some w =>
          obtain rfl : w = v := by simpa [Json.get, hl, pure, Except.pure] using h
          exact Json.weight_lookup_lt hl
  | _ => cases h

theorem isInlineObject_isDict {v : Json} (h : isInlineObject v = .ok true) :
    v.isDict = true := by
  cases v <;> simp_all [isInlineObject, Json.isDict]

theorem weight_lt_of_mem_dict {items : List (String × Json)} {k : String} {v : Json}
    (h : (k, v) ∈ items) : v.weight < (Json.dict items).weight := by
  induction items with
  | nil => simp at h
  | cons kv rest ih =>
      have := ih
      rcases List.mem_cons.mp h with rfl | h
      · simp only [Json.weight, Json.weightDict]
        omega
      · have := ih h
        simp only [Json.weight, Json.weightDict] at this ⊢
        omega

section Blocks

variable (node : Json) (path : List String) (level : Int)
  (recurse : (sub : Json) → sub.weight < node.weight → List String → Int → Json →
    Except Exc (List String))

/-- The array block of `render_object`: the `Items:` line and, for an inline
object, the section `recurse` renders for it. -/
def itemsLines : Except Exc (List String) := do
  if ((← node.get "type").isStr "array") || (← node.contains "items") then do
    match hItems : node.get "items" with
    | .error e => throw e
    | .ok items =>
        if items.truthy then do
          let itemsLabel := "**Items:** " ++ (← typeLabel items)
          match hInline : isInlineObject items with
          | .error e => throw e
          | .ok false => pure [itemsLabel, ""]
          | .ok true => do
              let _required ← (← items.get "required" (.list [])).toSet
              renderObjectSig.bindCall ⟨3, ["required"]⟩
              let sub ← recurse items (get_weight_lt hItems (isInlineObject_isDict hInline) rfl)
                (path ++ ["items"]) (level + 1) .none
              pure ([itemsLabel, ""] ++ sub)
        else pure []
  else pure []

/-- The object block of `render_object`: one section per property, each
rendered by `recurse`. -/
def propertiesLines : Except Exc (List String) := do
  if (← node.get "properties").isDict then do
    match hProps : node.getItem "properties" with
    | .error e => throw e
    | .ok (.dict props) => do
        let requiredValue ← node.get "required" (.list [])
        let req ← (if requiredValue.truthy then requiredValue else .list []).toSet
        let lines ← props.attach.mapM fun ⟨(pname, pnode), hMem⟩ => do
          let childPath := path ++ [pname]
          let label := pname ++ " " ++
            (if req.any (Json.isStr pname) then " (required)" else " (optional)")
          renderObjectSig.bindCall ⟨3, ["required", "header_name"]⟩
          recurse pnode (Nat.lt_trans (weight_lt_of_mem_dict hMem) (getItem_weight_lt hProps))
            childPath (level + 1) (.str label)
        pure lines.flatten
    | .ok props => throw (.attributeError s!"'{props.typeName}' object has no attribute 'items'")
  else pure []

/-- The map-like block of `render_object`: a line for `additionalProperties:
true`, or the section `recurse` renders for a schema. -/
def additionalPropertiesLines : Except Exc (List String) := do
  let apValue ← node.get "additionalProperties"
  if !(apValue matches .none) && !apValue.eqFalse then do
    match hAp : node.getItem "additionalProperties" with
    | .error e => throw e
    | .ok (.bool true) => pure ["**additionalProperties:** `true`", ""]
    | .ok (.dict apItems) => do
        renderObjectSig.bindCall ⟨3, ["header_name"]⟩
        recurse (.dict apItems) (getItem_weight_lt hAp) (path ++ ["additionalProperties"])
          (level + 1) (.str "additionalProperties")
    | .ok _ => pure []
  else pure []

end Blocks

/-- `render_object(node, path, level, header_name)`: the lines it appends. -/
def renderObject (ctx : Context) (node : Json) (path : List String) (level : Int)
    (headerName : Json) : Except Exc (List String) := do
  let level := min level ctx.maxHeadingLevel
  let heading ← headingLine ctx path level headerName
  let metaBlock ← metaLines node
  let description ← descriptionLines node
  let options ← ["allOf", "anyOf", "oneOf"].mapM (optionLines node)
  let recurse := fun sub (_ : sub.weight < node.weight) => renderObject ctx sub
  let arrayLines ← itemsLines node path level recurse
  let propertyLines ← propertiesLines node path level recurse
  let mapLines ← additionalPropertiesLines node path level recurse
  pure (heading :: metaBlock ++ [""] ++ description ++ options.flatten ++ arrayLines ++
    propertyLines ++ mapLines)
termination_by node.weight
decreasing_by assumption

/-- `render_object` returns exactly when each of its blocks does, and its lines
are theirs in order. -/
theorem renderObject_eq_ok {ctx : Context} {node : Json} {path : List String} {level : Int}
    {headerName : Json} {lines : List String} :
    renderObject ctx node path level headerName = .ok lines ↔
      let level := min level ctx.maxHeadingLevel
      let recurse := fun sub (_ : sub.weight < node.weight) => renderObject ctx sub
      ∃ heading, headingLine ctx path level headerName = .ok heading ∧
      ∃ metaBlock, metaLines node = .ok metaBlock ∧
      ∃ description, descriptionLines node = .ok description ∧
      ∃ options, ["allOf", "anyOf", "oneOf"].mapM (optionLines node) = .ok options ∧
      ∃ arrayLines, itemsLines node path level recurse = .ok arrayLines ∧
      ∃ propertyLines, propertiesLines node path level recurse = .ok propertyLines ∧
      ∃ mapLines, additionalPropertiesLines node path level recurse = .ok mapLines ∧
      heading :: metaBlock ++ [""] ++ description ++ options.flatten ++ arrayLines ++
        propertyLines ++ mapLines = lines := by
  rw [renderObject]
  simp only [bind_eq_ok, pure_eq_ok, Except.ok.injEq]

/-- `render_object` has no `required` parameter: a call passing it raises. -/
theorem renderObjectSig_required {n : Nat} {ks : List String} :
    renderObjectSig.bindCall ⟨n, "required" :: ks⟩ =
      .error (renderObjectSig.unexpectedKeyword "required") :=
  Signature.bindCall_unexpected _ (by decide)

theorem isInlineObject_truthy {v : Json} (h : isInlineObject v = .ok true) : v.truthy = true := by
  cases v with
  | dict items =>
      cases items with
      | nil => simp [isInlineObject, Json.isDict, Json.contains, Json.get, Json.isStr] at h
      | cons _ _ => rfl
  | _ => simp [isInlineObject, Json.isDict] at h

section Blocks

variable {node : Json} (path : List String) (level : Int)
  (recurse : (sub : Json) → sub.weight < node.weight → List String → Int → Json →
    Except Exc (List String))

/-- A non-empty `properties` dict: the first property's call passes `required=`
and raises, whatever `recurse` does. -/
theorem propertiesLines_raises {p : String × Json} {ps : List (String × Json)}
    (hProps : node.get "properties" = .ok (.dict (p :: ps))) :
    ∃ e, propertiesLines node path level recurse = .error e := by
  have hGet := (Json.getItem_of_get hProps rfl).1
  unfold propertiesLines
  rw [hProps, ok_bind]
  simp only [Json.isDict, if_true]
  split
  next e hItem => cases hGet.symm.trans hItem
  next props hItem =>
    cases hGet.symm.trans hItem
    refine exists_error_bind fun _ _ => exists_error_bind fun _ _ => exists_error_bind fun _ h => ?_
    rw [List.attach_cons, List.mapM_cons] at h
    simp [renderObjectSig_required] at h
  next => exact ⟨_, rfl⟩

/-- Inline-object `items`: the call on them passes `required=` and raises,
whatever `recurse` does. -/
theorem itemsLines_raises {items : Json} (hItems : node.get "items" = .ok items)
    (hInline : isInlineObject items = .ok true) :
    ∃ e, itemsLines node path level recurse = .error e := by
  unfold itemsLines
  refine exists_error_bind fun _ _ => ?_
  rw [(Json.getItem_of_get hItems (isInlineObject_isDict hInline)).2, ok_bind]
  simp only [Bool.or_true, if_true]
  split
  next e hGet => exact ⟨e, rfl⟩
  next items' hGet =>
    cases hItems.symm.trans hGet
    simp only [isInlineObject_truthy hInline, if_true]
    refine exists_error_bind fun _ _ => ?_
    split
    next e _ => exact ⟨e, rfl⟩
    next hIsInline => cases hInline.symm.trans hIsInline
    next => exact exists_error_bind fun _ _ => exists_error_bind fun _ _ =>
      ⟨_, by rw [renderObjectSig_required]; rfl⟩

end Blocks

/-- A non-empty `properties` dict: the first property's call raises. -/
theorem renderObject_raises_of_properties (ctx : Context) (node : Json) (path : List String)
    (level : Int) (headerName : Json) {p : String × Json} {ps : List (String × Json)}
    (hProps : node.get "properties" = .ok (.dict (p :: ps))) :
    ∃ e, renderObject ctx node path level headerName = .error e := by
  cases h : renderObject ctx node path level headerName with
  | error e => exact ⟨e, rfl⟩
  | ok lines =>
    obtain ⟨_, -, _, -, _, -, _, -, _, -, _, hBlock, -⟩ := renderObject_eq_ok.mp h
    obtain ⟨e, he⟩ := propertiesLines_raises _ _ _ hProps
    cases he.symm.trans hBlock

/-- Inline-object `items`: the call on them raises. -/
theorem renderObject_raises_of_inlineItems (ctx : Context) (node : Json) (path : List String)
    (level : Int) (headerName : Json) {items : Json} (hItems : node.get "items" = .ok items)
    (hInline : isInlineObject items = .ok true) :
    ∃ e, renderObject ctx node path level headerName = .error e := by
  cases h : renderObject ctx node path level headerName with
  | error e => exact ⟨e, rfl⟩
  | ok lines =>
    obtain ⟨_, -, _, -, _, -, _, -, _, hBlock, -⟩ := renderObject_eq_ok.mp h
    obtain ⟨e, he⟩ := itemsLines_raises _ _ _ hItems hInline
    cases he.symm.trans hBlock

/-- `render_object` returns only on nodes it need not recurse into through
`properties` or inline-object `items`: both of those calls pass `required=`. -/
theorem renderObject_nested_raises (ctx : Context) (node : Json) (path : List String)
    (level : Int) (headerName : Json)
    (hNested : (∃ p ps, node.get "properties" = .ok (.dict (p :: ps))) ∨
      ∃ items, node.get "items" = .ok items ∧ isInlineObject items = .ok true) :
    ∃ e, renderObject ctx node path level headerName = .error e := by
  rcases hNested with ⟨_, _, hProps⟩ | ⟨_, hItems, hInline⟩
  · exact renderObject_raises_of_properties ctx node path level headerName hProps
  · exact renderObject_raises_of_inlineItems ctx node path level headerName hItems hInline

theorem renderObject_nested_raises_property :
    ∃ e, renderObject ⟨.dict [], 6⟩ (.dict [("properties", .dict [("name", .dict [])])]) [] 1
      .none = .error e :=
  renderObject_nested_raises _ _ _ _ _ (.inl ⟨_, _, rfl⟩)

/-- The page head `render_schema_markdown` starts `out` with: the label, the
title heading and the schema's own description. -/
def pageHead (schema title : Json) : Except Exc (List String) := do
  let title ← if title.truthy then pure title else do
    let schemaTitle ← schema.get "title"
    pure (if schemaTitle.truthy then schemaTitle else .str "Everest Configuration Keyword Reference")
  let head := ["(_cha_everest_keyword_reference)=\n", "# " ++ title.toStr]
  if (← schema.get "description").truthy then do
    pure (head ++ [lstrip (← schema.getItem "description").toStr ['\n'] ++ "\n"])
  else pure head

/-- The root call: `render_object` on a wrapper object holding the schema's
properties, required names and description. -/
def renderRoot (ctx : Context) : Except Exc (List String) := do
  let propsValue ← ctx.schema.get "properties" (.dict [])
  let props := if propsValue.truthy then propsValue else .dict []
  let requiredValue ← ctx.schema.get "required" (.list [])
  let requiredSet ← (if requiredValue.truthy then requiredValue else .list []).toSet
  let wrapper := Json.dict [("type", .str "object"), ("properties", props),
    ("required", .list requiredSet), ("description", ← ctx.schema.get "description")]
  let headerTitle ← ctx.schema.get "title"
  let headerName := if headerTitle.truthy then headerTitle else .str "Configuration"
  renderObjectSig.bindCall ⟨1, ["path", "level", "required", "header_name"]⟩
  renderObject ctx wrapper [] 1 headerName

/-- The `Definitions` section for `$ref` targets, one section per definition. -/
def renderDefinitions (ctx : Context) : Except Exc (List String) := do
  let (_, defs) ← definitionNames ctx.schema
  if defs.truthy then
    match defs with
    | .dict defItems => do
        let sections ← defItems.mapM fun (defName, defNode) => do
          let defAnchor := "def-" ++ slug defName
          renderObjectSig.bindCall ⟨2, ["level", "header_name"]⟩
          renderObject ctx defNode [defAnchor] 3 (.str defName)
        pure (["", "## Definitions ", ""] ++ sections.flatten)
    | v => throw (.attributeError s!"'{v.typeName}' object has no attribute 'items'")
  else pure []

/-- `render_schema_markdown(schema, title, max_heading_level)`. -/
def renderSchemaMarkdown (schema : Json) (title : Json := .none)
    (maxHeadingLevel : Int := 6) : Except Exc String := do
  let head ← pageHead schema title
  let root ← renderRoot ⟨schema, maxHeadingLevel⟩
  let definitions ← renderDefinitions ⟨schema, maxHeadingLevel⟩
  pure ("\n".intercalate (head ++ root ++ definitions))

/-- `_generate_config_reference(app)` of `conf.py`, given the schema
`EverestConfig.model_json_schema()` returns: the text it writes to `keywords.md`. -/
def generateConfigReference (schema : Json) : Except Exc String := do
  let schemaTitle ← schema.get "title"
  let title := if schemaTitle.truthy then schemaTitle else .str "Configuration Reference"
  let _rootId := if (← schema.get "title").truthy then schemaTitle else .str "config"
  renderSchemaMarkdownSig.bindCall ⟨1, ["title", "root_id", "page_caption"]⟩
  renderSchemaMarkdown schema title

/-- The empty schema, with no title: `render_schema_markdown` raises at the root
call and the hook at its call of `render_schema_markdown`. -/
theorem renderSchemaMarkdown_empty_schema :
    renderSchemaMarkdown (.dict []) = .error (renderObjectSig.unexpectedKeyword "required") ∧
    generateConfigReference (.dict []) =
      .error (renderSchemaMarkdownSig.unexpectedKeyword "root_id") :=
  ⟨rfl, rfl⟩

end Ert.Docs
