import Ert.Python.Text
import Mathlib.Data.List.Forall2
import Mathlib.Data.List.Sort
import Mathlib.Data.String.Basic

/-! The keyword page of `conf.py`: `_write_keywords_md` writes one section per
top-level property of the schema file, each with a `jsonschema` directive whose
pointer `_pointer_and_options_for_property` picks. `setup` leaves this hook
unconnected; the text is modelled as the function builds it, without the `print`
of each pointer. Read as a JSON pointer (split at `/`, with `~0` for `~` and
`~1` for `/`), the directive names the property's schema, or the entry schema
of an array, exactly when the name needs no escaping: the name is written as
it is. -/
namespace Ert.Docs

open Ert.Python

/-- `_pointer_and_options_for_property(name, spec)`: the pointer of the
section's directive and its extra option lines. Once `spec.get` has returned,
`spec` is a dict and the `in` tests cannot raise, so each is evaluated once, up
front. -/
def pointerAndOptionsForProperty (name : String) (spec : Json) :
    Except Exc (String × List String) := do
  let t ← spec.get "type"
  let hasItems ← spec.contains "items"
  let isArray := t.isStr "array" || (hasItems && t matches .none)
  if isArray && hasItems then pure (s!"/properties/{name}/items", [])
  else do
    let hasProperties ← spec.contains "properties"
    let hasAdditional ← spec.contains "additionalProperties"
    let isObject := t.isStr "object" || (hasProperties || hasAdditional)
    let isMapLike := isObject && hasAdditional && !hasProperties
    if isMapLike then pure (s!"/properties/{name}", ["   :collapse: additionalProperties"])
    else pure (s!"/properties/{name}", [])

/-- The label, title and introduction the page starts with. -/
def keywordsHead : List String :=
  ["(_cha_everest_keyword_reference)=\n", "# Keyword reference\n\n",
    "The keywords recognized by the Everest configuration system are described below. " ++
      "Each section is linkable; you can reference it from anywhere in the docs.\n\n"]

/-- The lines `_write_keywords_md` adds for one keyword: its label and heading,
the description after `rstrip()`, and the fenced `jsonschema` directive. -/
def keywordLines (name : String) (propSpec : Json) : Except Exc (List String) := do
  let description ← propSpec.get "description"
  let desc := rstrip (← (if description.truthy then description else .str "").strAttr "rstrip")
  let descLines := if desc.isEmpty then [] else [desc, "\n\n"]
  let (pointer, extraOpts) ← pointerAndOptionsForProperty name propSpec
  pure ([s!"(keywords-{name})=\n", s!"## {name}\n\n"] ++ descLines ++
    ["```\x7beval-rst\x7d\n", ".. jsonschema:: _static/everest.schema.json#/", lstrip pointer ['/'],
      "\n"] ++ extraOpts.map (· ++ "\n") ++ ["```\n\n"])

/-- The schema `_write_keywords_md` reads back: the file `_write_everest_schema`
writes from pydantic's `model_json_schema()`, a dict whose `properties`, where
present, is a dict. -/
structure SchemaFile where
  items : List (String × Json)
  properties_isDict : ∀ v, items.lookup "properties" = some v → v.isDict = true

/-- `schema.get("properties", {})`; the file's invariant leaves no other case. -/
def SchemaFile.properties (file : SchemaFile) : List (String × Json) :=
  match file.items.lookup "properties" with
  | some (.dict props) => props
  | _ => []

/-- `sorted(props)`: the keys in code-point order. -/
def sortedKeys (props : List (String × Json)) : List String :=
  (props.map Prod.fst).insertionSort (· ≤ ·)

/-- `_write_keywords_md(app)` up to the text it writes to `keywords.md`. -/
def writeKeywordsMd (file : SchemaFile) : Except Exc String := do
  let props := file.properties
  let sections ← (sortedKeys props).mapM fun name => do
    keywordLines name (← (Json.dict props).get name (.dict []))
  pure (String.join (keywordsHead ++ sections.flatten))

/-- A property whose section renders its entry schema: one with `items` whose
`type` is `array`, missing or `null`. -/
def arrayEntry (items : List (String × Json)) : Bool :=
  let t := (items.lookup "type").getD .none
  (items.lookup "items").isSome && (t.isStr "array" || t matches .none)

/-- On a dict, `_pointer_and_options_for_property` returns: the entry pointer for
an array with `items`, else the property's pointer, with the collapse option
exactly when `additionalProperties` is there and `properties` is not. The
`type == "object"` test never decides anything. -/
theorem pointerAndOptionsForProperty_dict (name : String) (items : List (String × Json)) :
    pointerAndOptionsForProperty name (.dict items) =
      .ok (if arrayEntry items then (s!"/properties/{name}/items", [])
        else if (items.lookup "additionalProperties").isSome && !(items.lookup "properties").isSome
        then (s!"/properties/{name}", ["   :collapse: additionalProperties"])
        else (s!"/properties/{name}", [])) := by
  have hArray : ∀ a i n : Bool, ((a || (i && n)) && i) = (i && (a || n)) := by decide
  have hMapLike : ∀ o p a : Bool, ((o || (p || a)) && a && !p) = (a && !p) := by decide
  simp only [pointerAndOptionsForProperty, arrayEntry, Json.get, Json.contains, pure_eq_ok, ok_bind,
    hArray, hMapLike]
  split_ifs <;> rfl

/-- A reference token as a pointer spells it: `~` as `~0`, `/` as `~1`. -/
def escapeToken : List Char → List Char
  | [] => []
  | c :: rest =>
      (if c = '~' then ['~', '0'] else if c = '/' then ['~', '1'] else [c]) ++ escapeToken rest

/-- The character `~` followed by `d` spells. -/
def escapedChar : Char → Option Char
  | '0' => some '~'
  | '1' => some '/'
  | _ => none

/-- The token a piece of a pointer spells, if its every `~` starts `~0` or `~1`. -/
def unescapeToken : List Char → Option (List Char)
  | [] => some []
  | [c] => if c = '~' then none else some [c]
  | c :: d :: rest =>
      if c = '~' then do
        let e ← escapedChar d
        (e :: ·) <$> unescapeToken rest
      else (c :: ·) <$> unescapeToken (d :: rest)

/-- The pointer of a list of reference tokens. -/
def formatPointer (tokens : List String) : String :=
  String.mk (tokens.flatMap fun t => '/' :: escapeToken t.data)

theorem formatPointer_cons_data (t : String) (ts : List String) :
    (formatPointer (t :: ts)).data = '/' :: escapeToken t.data ++ (formatPointer ts).data := rfl

/-- The reference tokens of a pointer: none for the empty pointer, else the
pieces after the leading `/`, split at each `/` and unescaped. -/
def pointerTokens (pointer : String) : Option (List String) :=
  match pointer.data with
  | [] => some []
  | c :: rest => if c = '/' then ((rest.splitOn '/').mapM unescapeToken).map (·.map String.mk) else none

/-- An array index token: `0`, or digits with no leading zero. -/
def arrayIndex (t : String) : Option Nat := t.toNat?.filter fun i => toString i = t

/-- The value reference tokens name in a document: a dict's member, or a
list's item. -/
def resolve : Json → List String → Option Json
  | v, [] => some v
  | .dict members, t :: ts => (members.lookup t).bind fun v => resolve v ts
  | .list items, t :: ts => ((arrayIndex t).bind items.get?).bind fun v => resolve v ts
  | _, _ :: _ => none

theorem length_le_length_escapeToken : ∀ cs : List Char, cs.length ≤ (escapeToken cs).length
  | [] => le_refl _
  | c :: cs => by
      have := length_le_length_escapeToken cs
      simp only [escapeToken, List.length_append, List.length_cons]
      split_ifs <;> simp only [List.length_cons, List.length_nil] <;> omega

theorem slash_not_mem_escapeToken : ∀ cs : List Char, '/' ∉ escapeToken cs
  | [] => List.not_mem_nil _
  | c :: cs => by
      have := slash_not_mem_escapeToken cs
      simp only [escapeToken, List.mem_append]
      split_ifs with h1 h2
      · simp [this]
      · simp [this]
      · simpa [this] using Ne.symm h2

theorem unescapeToken_cons_of_ne {c : Char} (hc : c ≠ '~') (xs : List Char) :
    unescapeToken (c :: xs) = (c :: ·) <$> unescapeToken xs := by
  cases xs <;> simp [unescapeToken, hc]

theorem unescapeToken_escapeToken : ∀ cs : List Char, unescapeToken (escapeToken cs) = some cs
  | [] => rfl
  | c :: cs => by
      have ih := unescapeToken_escapeToken cs
      by_cases h1 : c = '~'
      · subst h1
        simp [escapeToken, unescapeToken, escapedChar, ih]
      · by_cases h2 : c = '/'
        · subst h2
          simp [escapeToken, unescapeToken, escapedChar, ih]
        · simp [escapeToken, h1, h2, unescapeToken_cons_of_ne h1, ih]

/-- A piece with no `/` that unescapes to a token is that token's escape. -/
theorem eq_escapeToken_of_unescapeToken :
    ∀ {p cs : List Char}, unescapeToken p = some cs → '/' ∉ p → p = escapeToken cs
  | [], cs, h, _ => by cases h; rfl
  | [c], cs, h, hp => by
      have hSlash : c ≠ '/' := fun h => hp (h ▸ List.mem_singleton_self _)
      by_cases hc : c = '~'
      · simp [unescapeToken, hc] at h
      · simp only [unescapeToken, hc, if_false, Option.some.injEq] at h
        simp [← h, escapeToken, hc, hSlash]
  | c :: d :: rest, cs, h, hp => by
      by_cases hc : c = '~'
      · subst hc
        simp only [unescapeToken, if_true, Option.bind_eq_bind, Option.bind_eq_some,
          Option.map_eq_map, Option.map_eq_some'] at h
        obtain ⟨e, he, a, ha, rfl⟩ := h
        rw [eq_escapeToken_of_unescapeToken ha fun h => hp (.tail _ (.tail _ h))]
        unfold escapedChar at he
        split at he <;> cases he <;> simp [escapeToken]
      · simp only [unescapeToken, hc, if_false, Option.map_eq_map, Option.map_eq_some'] at h
        obtain ⟨a, ha, rfl⟩ := h
        have hSlash : c ≠ '/' := fun h => hp (h ▸ List.mem_cons_self _ _)
        simp [escapeToken, hc, hSlash, eq_escapeToken_of_unescapeToken ha fun h => hp (.tail _ h)]

/-- A token is spelled as it is exactly when it has no `/` and no `~`. -/
theorem escapeToken_eq_self_iff : ∀ {cs : List Char}, escapeToken cs = cs ↔ '/' ∉ cs ∧ '~' ∉ cs
  | [] => by simp [escapeToken]
  | c :: cs => by
      have hLen := length_le_length_escapeToken cs
      by_cases h1 : c = '~'
      · subst h1
        simp only [escapeToken, if_true, List.cons_append, List.nil_append, List.cons.injEq,
          true_and, List.mem_cons, true_or, not_true_eq_false, and_false, iff_false]
        intro h
        have := congrArg List.length h
        simp only [List.length_cons] at this
        omega
      · by_cases h2 : c = '/'
        · subst h2
          simp only [escapeToken, if_true, List.cons_append, List.cons.injEq,
            List.mem_cons, true_or, not_true_eq_false, false_and, iff_false]
          simp
        · have ih : escapeToken cs = cs ↔ '/' ∉ cs ∧ '~' ∉ cs := escapeToken_eq_self_iff
          simp only [escapeToken, h1, h2, if_false, List.singleton_append, List.cons.injEq, true_and,
            ih, List.mem_cons, not_or]
          exact ⟨fun h => ⟨⟨Ne.symm h2, h.1⟩, Ne.symm h1, h.2⟩, fun h => ⟨h.1.2, h.2.2⟩⟩

/-- The pieces `splitOn` cuts contain no separator. -/
theorem not_mem_of_mem_splitOn {a : Char} : ∀ {xs l : List Char}, l ∈ xs.splitOn a → a ∉ l
  | [], l, h => by simp_all [List.splitOn_nil]
  | x :: xs, l, h => by
      have ih : ∀ l ∈ xs.splitOn a, a ∉ l := fun l hl => not_mem_of_mem_splitOn hl
      simp only [List.splitOn, List.splitOnP_cons] at h ih
      split_ifs at h with hx
      · rcases List.mem_cons.mp h with rfl | h
        · exact List.not_mem_nil _
        · exact ih l h
      · obtain ⟨p, ps, hps⟩ := List.exists_cons_of_ne_nil (List.splitOnP_ne_nil (· == a) xs)
        rw [hps] at h ih
        rcases List.mem_cons.mp h with rfl | h
        · exact List.not_mem_cons_of_ne_of_not_mem (fun h => hx (by simp [h])) (ih p (.head _))
        · exact ih l (.tail _ h)

theorem flatMap_slash (f : String → List Char) : ∀ (t : String) (ts : List String),
    (t :: ts).flatMap (fun t => '/' :: f t) = '/' :: ['/'].intercalate ((t :: ts).map f)
  | t, [] => by simp [List.intercalate]
  | t, t' :: ts => by
      rw [List.flatMap_cons, flatMap_slash f t' ts]
      simp [List.intercalate, List.intersperse_cons_cons]

theorem mapM_unescapeToken_escapeToken : ∀ ts : List String,
    (ts.map fun t => escapeToken t.data).mapM unescapeToken = some (ts.map String.data)
  | [] => rfl
  | t :: ts => by
      rw [List.map_cons, List.mapM_cons, unescapeToken_escapeToken, mapM_unescapeToken_escapeToken ts]
      rfl

theorem eq_map_escapeToken_of_mapM : ∀ {ps ds : List (List Char)},
    ps.mapM unescapeToken = some ds → (∀ p ∈ ps, '/' ∉ p) → ps = ds.map escapeToken
  | [], ds, h, _ => by cases h; rfl
  | p :: ps, ds, h, hp => by
      simp only [List.mapM_cons, Option.pure_def, Option.bind_eq_bind, Option.bind_eq_some,
        Option.some.injEq] at h
      obtain ⟨d, hd, ds', hds', rfl⟩ := h
      rw [List.map_cons, eq_escapeToken_of_unescapeToken hd (hp p (.head _)),
        eq_map_escapeToken_of_mapM hds' fun q hq => hp q (.tail _ hq)]

/-- A token list's pointer reads back as that list. -/
theorem pointerTokens_formatPointer : ∀ tokens : List String,
    pointerTokens (formatPointer tokens) = some tokens
  | [] => rfl
  | t :: ts => by
      unfold pointerTokens formatPointer
      rw [flatMap_slash]
      simp only [if_true]
      rw [List.splitOn_intercalate _ _ (fun l hl => ?_) (by simp), mapM_unescapeToken_escapeToken]
      · rw [Option.map_some', List.map_map]
        exact congrArg some (List.map_id (t :: ts))
      · obtain ⟨u, -, rfl⟩ := List.mem_map.mp hl
        exact slash_not_mem_escapeToken u.data

/-- A pointer that reads as some tokens is their pointer. -/
theorem eq_formatPointer_of_pointerTokens {pointer : String} {tokens : List String}
    (h : pointerTokens pointer = some tokens) : pointer = formatPointer tokens := by
  rw [String.ext_iff]
  unfold pointerTokens at h
  split at h
  next hNil =>
    cases h
    exact hNil
  next c rest hData =>
    split_ifs at h with hc
    subst hc
    obtain ⟨ds, hds, rfl⟩ := Option.map_eq_some'.mp h
    have hPieces := eq_map_escapeToken_of_mapM hds fun p hp => not_mem_of_mem_splitOn hp
    obtain ⟨d, ds', rfl⟩ : ∃ d ds', ds = d :: ds' := List.exists_cons_of_ne_nil fun hNil =>
      List.splitOnP_ne_nil _ rest (hPieces.trans (by rw [hNil]; rfl))
    rw [hData, formatPointer, List.map_cons, flatMap_slash, ← List.intercalate_splitOn rest '/',
      hPieces]
    simp [Function.comp_def]

/-- Pointers and token lists correspond one to one: a pointer reads as the
tokens exactly when it is their format. -/
theorem pointerTokens_eq_some_iff {pointer : String} {tokens : List String} :
    pointerTokens pointer = some tokens ↔ pointer = formatPointer tokens :=
  ⟨eq_formatPointer_of_pointerTokens, fun h => h ▸ pointerTokens_formatPointer tokens⟩

/-- The tokens the directive adds after `properties/{name}`: `items` for an
array's entry schema. -/
def entryTokens (items : List (String × Json)) : List String :=
  if arrayEntry items then ["items"] else []

theorem pointerAndOptionsForProperty_pointer (name : String) (items : List (String × Json)) :
    ∃ opts, pointerAndOptionsForProperty name (.dict items) =
      .ok ("/properties/" ++ name ++ formatPointer (entryTokens items), opts) := by
  rw [pointerAndOptionsForProperty_dict, entryTokens]
  split_ifs <;> exact ⟨_, rfl⟩

/-- The page writes the pointer after `#/` with its leading `/` stripped: the
directive's pointer is the one returned. -/
theorem slash_lstrip_properties (a b : String) :
    "/" ++ lstrip ("/properties/" ++ a ++ b) ['/'] = "/properties/" ++ a ++ b := by
  simp [lstrip, String.ext_iff]

/-- `/properties/{name}` followed by the pointer of `suffix` reads as
`properties`, `name` and `suffix` exactly when `name` needs no escaping. -/
theorem pointerTokens_property_iff (name : String) (suffix : List String) :
    pointerTokens ("/properties/" ++ name ++ formatPointer suffix) =
        some ("properties" :: name :: suffix) ↔ '/' ∉ name.data ∧ '~' ∉ name.data := by
  have hPrefix : "/properties/".data = '/' :: escapeToken "properties".data ++ ['/'] := by decide
  rw [pointerTokens_eq_some_iff, String.ext_iff, formatPointer_cons_data, formatPointer_cons_data,
    String.data_append, String.data_append, hPrefix, ← escapeToken_eq_self_iff]
  generalize escapeToken "properties".data = e
  simp only [List.cons_append, List.append_assoc, List.singleton_append, List.cons.injEq, true_and,
    List.append_right_inj, List.nil_append, List.append_left_inj]
  exact eq_comm

theorem SchemaFile.lookup_properties (file : SchemaFile) (h : file.properties ≠ []) :
    file.items.lookup "properties" = some (.dict file.properties) := by
  unfold SchemaFile.properties at h ⊢
  cases hp : file.items.lookup "properties" with
  | none => simp [hp] at h
  | some v =>
      cases v with
      | dict props => rfl
      | _ => cases file.properties_isDict _ hp

/-- Read as a JSON pointer, the directive of a keyword's section spells the
path to the property's schema, through `items` to an array's entry schema,
exactly when the name has no `/` and no `~`: the name is written unescaped. -/
theorem keywordPointer_tokens_iff (name : String) (items : List (String × Json)) :
    ∃ pointer opts, pointerAndOptionsForProperty name (.dict items) = .ok (pointer, opts) ∧
      (pointerTokens ("/" ++ lstrip pointer ['/']) = some ("properties" :: name :: entryTokens items) ↔
        '/' ∉ name.data ∧ '~' ∉ name.data) := by
  obtain ⟨opts, h⟩ := pointerAndOptionsForProperty_pointer name items
  exact ⟨_, opts, h, by rw [slash_lstrip_properties, pointerTokens_property_iff]⟩

/-- For a name that needs no escaping, the pointer names, in the schema file,
the property's entry schema when it is an array with `items`, and the
property's own schema otherwise. -/
theorem pointer_resolves (file : SchemaFile) {name : String} {items : List (String × Json)}
    (hSpec : file.properties.lookup name = some (.dict items))
    (hSlash : '/' ∉ name.data) (hTilde : '~' ∉ name.data) :
    ∃ pointer opts, pointerAndOptionsForProperty name (.dict items) = .ok (pointer, opts) ∧
      (pointerTokens ("/" ++ lstrip pointer ['/'])).bind (resolve (.dict file.items)) =
        if arrayEntry items then items.lookup "items" else some (.dict items) := by
  obtain ⟨opts, h⟩ := pointerAndOptionsForProperty_pointer name items
  have hProps : file.properties ≠ [] := fun hNil => by simp [hNil] at hSpec
  refine ⟨_, opts, h, ?_⟩
  rw [slash_lstrip_properties, (pointerTokens_property_iff name _).mpr ⟨hSlash, hTilde⟩,
    Option.some_bind]
  simp only [resolve, file.lookup_properties hProps, hSpec, Option.some_bind, entryTokens]
  split_ifs
  · simp only [resolve, Option.bind_some]
  · rfl

/-- A property schema `_write_keywords_md` writes without raising: a dict whose
`description` is a string or falsy. -/
def writable : Json → Bool
  | .dict items =>
      match (items.lookup "description").getD .none with
      | .str _ => true
      | d => !d.truthy
  | _ => false

/-- `(description or "").rstrip()` returns on a writable schema, and raises
`AttributeError` on any other dict. -/
theorem rstripDescription_outcome (items : List (String × Json)) :
    (writable (.dict items) = true ∧ ∃ desc, (if ((items.lookup "description").getD .none).truthy
        then (items.lookup "description").getD .none else .str "").strAttr "rstrip" = .ok desc) ∨
      (writable (.dict items) = false ∧ ∃ msg, (if ((items.lookup "description").getD .none).truthy
        then (items.lookup "description").getD .none else .str "").strAttr "rstrip" =
          .error (.attributeError msg)) := by
  simp only [writable]
  generalize (items.lookup "description").getD .none = d
  by_cases hd : d.truthy <;> cases d <;> simp_all [Json.strAttr]

/-- A keyword's lines are written for a writable schema; for any other,
`.get` or `.rstrip` raises `AttributeError`. -/
theorem keywordLines_outcome (name : String) (spec : Json) :
    (writable spec = true ∧ ∃ lines, keywordLines name spec = .ok lines) ∨
      (writable spec = false ∧ ∃ msg, keywordLines name spec = .error (.attributeError msg)) := by
  cases spec with
  | dict items =>
      obtain ⟨opts, hPointer⟩ := pointerAndOptionsForProperty_pointer name items
      simp only [keywordLines, Json.get, pure_eq_ok, ok_bind]
      rcases rstripDescription_outcome items with ⟨hw, desc, hDesc⟩ | ⟨hw, msg, hDesc⟩
      · exact .inl ⟨hw, _, by rw [hDesc, ok_bind, hPointer]; rfl⟩
      · exact .inr ⟨hw, msg, by rw [hDesc, error_bind]⟩
  | _ => exact .inr ⟨rfl, _, rfl⟩

theorem mem_sortedKeys {props : List (String × Json)} {name : String} :
    name ∈ sortedKeys props ↔ name ∈ props.map Prod.fst :=
  (List.perm_insertionSort _ _).mem_iff

/-- `_write_keywords_md` writes its page exactly when every property's schema
is writable; otherwise it raises `AttributeError`. -/
theorem writeKeywordsMd_ok_iff (file : SchemaFile) :
    ((∃ text, writeKeywordsMd file = .ok text) ↔ ∀ name ∈ file.properties.map Prod.fst,
        writable ((file.properties.lookup name).getD (.dict [])) = true) ∧
      ∀ e, writeKeywordsMd file = .error e → ∃ msg, e = .attributeError msg := by
  simp only [writeKeywordsMd, Json.get, pure_eq_ok, ok_bind]
  refine ⟨⟨fun ⟨text, h⟩ name hName => ?_, fun h => ?_⟩, fun e h => ?_⟩
  · obtain ⟨sections, hMap, -⟩ := bind_eq_ok.mp h
    obtain ⟨lines, hLines⟩ := mapM_ok_forall hMap name (mem_sortedKeys.mpr hName)
    rcases keywordLines_outcome name ((file.properties.lookup name).getD (.dict [])) with
      ⟨hw, -⟩ | ⟨-, msg, hErr⟩
    · exact hw
    · cases hLines.symm.trans hErr
  · obtain ⟨sections, hMap, -⟩ := mapM_ok_of_forall (Q := fun _ _ => True) fun name hName => by
      rcases keywordLines_outcome name ((file.properties.lookup name).getD (.dict [])) with
        ⟨-, lines, hLines⟩ | ⟨hw, -⟩
      · exact ⟨lines, hLines, trivial⟩
      · cases (h name (mem_sortedKeys.mp hName)).symm.trans hw
    exact ⟨_, by rw [hMap]; rfl⟩
  · obtain ⟨name, -, hErr⟩ := mapM_error (error_of_bind_pure h)
    rcases keywordLines_outcome name ((file.properties.lookup name).getD (.dict [])) with
      ⟨-, lines, hLines⟩ | ⟨-, msg, hMsg⟩
    · cases hErr.symm.trans hLines
    · exact ⟨msg, Except.error.inj (hErr.symm.trans hMsg)⟩

/-- The section of a keyword holds the directive for the pointer
`_pointer_and_options_for_property` returned, after `#/` and `lstrip("/")`. -/
theorem keywordLines_directive {name : String} {spec : Json} {lines : List String}
    {pointer : String} {opts : List String} (h : keywordLines name spec = .ok lines)
    (hPointer : pointerAndOptionsForProperty name spec = .ok (pointer, opts)) :
    ∃ pre post, lines = pre ++ ".. jsonschema:: _static/everest.schema.json#/" ::
      lstrip pointer ['/'] :: post := by
  simp only [keywordLines] at h
  obtain ⟨_, -, h⟩ := bind_eq_ok.mp h
  obtain ⟨raw, -, h⟩ := bind_eq_ok.mp h
  obtain ⟨_, hpo, h⟩ := bind_eq_ok.mp h
  rw [hPointer] at hpo
  cases hpo
  cases h
  exact ⟨[s!"(keywords-{name})=\n", s!"## {name}\n\n"] ++
      (if (rstrip raw).isEmpty then [] else [rstrip raw, "\n\n"]) ++ ["```\x7beval-rst\x7d\n"],
    "\n" :: (opts.map (· ++ "\n") ++ ["```\n\n"]), by simp⟩

theorem writable_dict {spec : Json} (h : writable spec = true) : ∃ items, spec = .dict items := by
  cases spec with
  | dict items => exact ⟨items, rfl⟩
  | _ => cases h

/-- When every name needs no escaping, the page `_write_keywords_md` writes is
its head and one section per keyword in sorted order, and each section's
`jsonschema` directive names that keyword's schema in the schema file: the
entry schema of an array with `items`, else the property's own. -/
theorem writeKeywordsMd_directives (file : SchemaFile) {text : String}
    (h : writeKeywordsMd file = .ok text)
    (hNames : ∀ name ∈ file.properties.map Prod.fst, '/' ∉ name.data ∧ '~' ∉ name.data) :
    ∃ sections, text = String.join (keywordsHead ++ sections.flatten) ∧
      List.Forall₂ (fun name lines => ∃ items, file.properties.lookup name = some (.dict items) ∧
        ∃ pre p post, lines = pre ++ ".. jsonschema:: _static/everest.schema.json#/" :: p :: post ∧
          (pointerTokens ("/" ++ p)).bind (resolve (.dict file.items)) =
            if arrayEntry items then items.lookup "items" else some (.dict items))
        (sortedKeys file.properties) sections := by
  simp only [writeKeywordsMd, Json.get, pure_eq_ok, ok_bind] at h
  obtain ⟨sections, hMap, hText⟩ := bind_eq_ok.mp h
  refine ⟨sections, (Except.ok.inj hText).symm,
    ((List.forall₂_and_left _ _).mpr ⟨fun _ h => h, mapM_ok_forall₂ hMap⟩).imp ?_⟩
  rintro name lines ⟨hName, hLines⟩
  have hKey := mem_sortedKeys.mp hName
  obtain ⟨kv, hKv, hKvName⟩ := List.mem_map.mp hKey
  have hSome : (file.properties.lookup name).isSome :=
    List.lookup_isSome_iff.mpr ⟨kv, hKv, by simp [hKvName]⟩
  obtain ⟨spec, hSpec⟩ := Option.isSome_iff_exists.mp hSome
  rw [hSpec, Option.getD_some] at hLines
  rcases keywordLines_outcome name spec with ⟨hw, -⟩ | ⟨-, msg, hErr⟩
  · obtain ⟨items, rfl⟩ := writable_dict hw
    obtain ⟨pointer, opts, hPointer, hResolves⟩ := pointer_resolves file hSpec (hNames name hKey).1
      (hNames name hKey).2
    obtain ⟨pre, post, rfl⟩ := keywordLines_directive hLines hPointer
    exact ⟨items, hSpec, pre, _, post, rfl, hResolves⟩
  · cases hLines.symm.trans hErr

/-- The schema file of a configuration with one keyword, `controls`, a list. -/
def controlsSchema : SchemaFile :=
  ⟨[("properties", .dict [("controls", .dict [("type", .str "array"), ("items", .dict [])])])],
    fun _ h => by cases h; rfl⟩

theorem writeKeywordsMd_directives_controls :
    ∃ text, writeKeywordsMd controlsSchema = .ok text ∧
      (∀ name ∈ controlsSchema.properties.map Prod.fst, '/' ∉ name.data ∧ '~' ∉ name.data) ∧
      ∃ sections, text = String.join (keywordsHead ++ sections.flatten) ∧
        List.Forall₂ (fun name lines => ∃ items, controlsSchema.properties.lookup name = some (.dict items) ∧
          ∃ pre p post, lines = pre ++ ".. jsonschema:: _static/everest.schema.json#/" :: p :: post ∧
            (pointerTokens ("/" ++ p)).bind (resolve (.dict controlsSchema.items)) =
              if arrayEntry items then items.lookup "items" else some (.dict items))
          (sortedKeys controlsSchema.properties) sections :=
  have h : writeKeywordsMd controlsSchema = .ok _ := rfl
  ⟨_, h, by decide, writeKeywordsMd_directives controlsSchema h (by decide)⟩

end Ert.Docs

