import Mathlib.Data.List.Infix

/-! Python values as the schema renderer receives them: what `json.loads` and
pydantic's `model_json_schema` build. A JSON number is an integer here; floats
are not modelled. The builtins below are the ones the renderer applies to such
values, with the exceptions CPython raises when the value has the wrong kind.
The lemmas on `Except` read the model's `do` blocks. -/
namespace Ert.Python

/-- A JSON value as a Python object. A `dict` keeps its items in insertion
order; its lookups take the first binding of a key. -/
inductive Json where
  | none
  | bool (b : Bool)
  | int (n : Int)
  | str (s : String)
  | list (items : List Json)
  | dict (items : List (String × Json))
  deriving Repr, Inhabited

/-- The exceptions the modelled code raises, with the messages CPython gives them;
the last two are the classes `_measured_data.py` defines. -/
inductive Exc where
  | typeError (msg : String)
  | keyError (key : String)
  | attributeError (msg : String)
  | valueError (msg : String)
  | responseError (msg : String)
  | observationError (msg : String)
  deriving Repr, DecidableEq

@[simp] theorem pure_eq_ok {ε α : Type} (a : α) : (pure a : Except ε α) = .ok a := rfl

@[simp] theorem throw_eq_error {ε α : Type} (e : ε) : (throw e : Except ε α) = .error e := rfl

@[simp] theorem ok_bind {ε α β : Type} (a : α) (f : α → Except ε β) :
    (Except.ok a >>= f) = f a := rfl

@[simp] theorem error_bind {ε α β : Type} (e : ε) (f : α → Except ε β) :
    (Except.error e >>= f) = .error e := rfl

/-- A computation followed by `f` succeeds exactly when both steps do. -/
theorem bind_eq_ok {ε α β : Type} {x : Except ε α} {f : α → Except ε β} {b : β} :
    (x >>= f) = .ok b ↔ ∃ a, x = .ok a ∧ f a = .ok b := by
  cases x <;> simp

/-- A computation raises when each result of its first step leads to a raise. -/
theorem exists_error_bind {ε α β : Type} {x : Except ε α} {f : α → Except ε β}
    (h : ∀ a, x = .ok a → ∃ e, f a = .error e) : ∃ e, (x >>= f) = .error e := by
  cases x with
  | error e => exact ⟨e, rfl⟩
  | ok a => exact h a rfl

theorem error_of_bind_pure {ε α β : Type} {x : Except ε α} {g : α → β} {e : ε}
    (h : (x >>= fun a => pure (g a)) = .error e) : x = .error e := by
  cases x with
  | error e' =>
      rw [error_bind] at h
      exact congrArg _ (Except.error.inj h)
  | ok a => cases h

/-- `mapM` returns when each call does, with results related pointwise. -/
theorem mapM_ok_of_forall {ε β γ : Type} {f : β → Except ε γ} {Q : β → γ → Prop} :
    ∀ {l : List β}, (∀ x ∈ l, ∃ y, f x = .ok y ∧ Q x y) →
      ∃ ys, l.mapM f = .ok ys ∧ List.Forall₂ Q l ys
  | [], _ => ⟨[], rfl, .nil⟩
  | x :: xs, h => by
      obtain ⟨y, hy, hq⟩ := h x (.head _)
      obtain ⟨ys, hys, hqs⟩ := mapM_ok_of_forall fun z hz => h z (.tail _ hz)
      exact ⟨y :: ys, by rw [List.mapM_cons, hy, hys]; rfl, .cons hq hqs⟩

theorem mapM_ok_forall {ε β γ : Type} {f : β → Except ε γ} :
    ∀ {l : List β} {ys : List γ}, l.mapM f = .ok ys → ∀ x ∈ l, ∃ y, f x = .ok y
  | [], _, _ => by simp
  | x :: xs, ys, h => by
      rw [List.mapM_cons] at h
      obtain ⟨y, hy, h⟩ := bind_eq_ok.mp h
      obtain ⟨zs, hzs, -⟩ := bind_eq_ok.mp h
      exact List.forall_mem_cons.mpr ⟨⟨y, hy⟩, mapM_ok_forall hzs⟩

/-- A returning `mapM` pairs each item with what its call returned. -/
theorem mapM_ok_forall₂ {ε β γ : Type} {f : β → Except ε γ} :
    ∀ {l : List β} {ys : List γ}, l.mapM f = .ok ys → List.Forall₂ (fun x y => f x = .ok y) l ys
  | [], ys, h => by cases h; exact .nil
  | x :: xs, ys, h => by
      rw [List.mapM_cons] at h
      obtain ⟨y, hy, h⟩ := bind_eq_ok.mp h
      obtain ⟨zs, hzs, h⟩ := bind_eq_ok.mp h
      cases h
      exact .cons hy (mapM_ok_forall₂ hzs)

/-- `mapM` raises what its first raising call raises. -/
theorem mapM_error {ε β γ : Type} {f : β → Except ε γ} :
    ∀ {l : List β} {e : ε}, l.mapM f = .error e → ∃ x ∈ l, f x = .error e
  | [], _, h => by cases h
  | x :: xs, e, h => by
      rw [List.mapM_cons] at h
      cases hx : f x with
      | error e' =>
          rw [hx, error_bind] at h
          exact ⟨x, .head _, Except.error.inj h ▸ hx⟩
      | ok y =>
          rw [hx, ok_bind] at h
          cases hxs : xs.mapM f with
          | error e' =>
              obtain ⟨z, hz, hfz⟩ := mapM_error hxs
              rw [hxs, error_bind] at h
              exact ⟨z, .tail _ hz, Except.error.inj h ▸ hfz⟩
          | ok zs => rw [hxs] at h; cases h

namespace Json

/-- `type(value).__name__`. -/
def typeName : Json → String
  | .none => "NoneType"
  | .bool _ => "bool"
  | .int _ => "int"
  | .str _ => "str"
  | .list _ => "list"
  | .dict _ => "dict"

/-- `bool(value)`: empty containers, `0`, `""`, `False` and `None` are false. -/
def truthy : Json → Bool
  | .none => false
  | .bool b => b
  | .int n => n != 0
  | .str s => !s.isEmpty
  | .list items => !items.isEmpty
  | .dict items => !items.isEmpty

/-- `value == key` for a string `key`: only an equal `str` compares equal. -/
def isStr (key : String) : Json → Bool
  | .str s => s == key
  | _ => false

/-- `key in value`: a dict tests its keys, a list its items, a string its
substrings. -/
def contains (key : String) : Json → Except Exc Bool
  | .dict items => pure (items.lookup key).isSome
  | .list items => pure (items.any (isStr key))
  | .str s => pure (decide (key.data <:+: s.data))
  | v => throw (.typeError s!"argument of type '{v.typeName}' is not iterable")

/-- `value[key]` for a string `key`. -/
def getItem (key : String) : Json → Except Exc Json
  | .dict items => match items.lookup key with
    | some v => pure v
    | Option.none => throw (.keyError key)
  | .list _ => throw (.typeError "list indices must be integers or slices, not str")
  | .str _ => throw (.typeError "string indices must be integers, not 'str'")
  | v => throw (.typeError s!"'{v.typeName}' object is not subscriptable")

/-- `value.get(key, default)`; only a dict has the method. -/
def get (v : Json) (key : String) (default : Json := .none) : Except Exc Json :=
  match v with
  | .dict items => pure ((items.lookup key).getD default)
  | v => throw (.attributeError s!"'{v.typeName}' object has no attribute 'get'")

/-- The items `for x in value` visits: a dict's keys, a list's items, a
string's characters. -/
def iter : Json → Except Exc (List Json)
  | .dict items => pure (items.map fun kv => .str kv.1)
  | .list items => pure items
  | .str s => pure (s.data.map fun c => .str (String.singleton c))
  | v => throw (.typeError s!"'{v.typeName}' object is not iterable")

/-- `isinstance(value, dict)`. -/
def isDict : Json → Bool
  | .dict _ => true
  | _ => false

/-- `value == False`, as in `value not in (None, False)`: `0` equals `False`. -/
def eqFalse : Json → Bool
  | .bool b => !b
  | .int n => n == 0
  | _ => false

/-- The string `re.search` is given, or the `TypeError` it raises on another value. -/
def asStr : Json → Except Exc String
  | .str s => pure s
  | v => throw (.typeError s!"expected string or bytes-like object, got '{v.typeName}'")

/-- Lists and dicts are unhashable. -/
def unhashable : Json → Bool
  | .list _ | .dict _ => true
  | _ => false

/-- `set(value)`: the iterated items, if each is hashable. Python raises at the
first unhashable one. The order of the result is not Python's hash order; the
renderer only tests membership in it. -/
def toSet (value : Json) : Except Exc (List Json) := do
  let items ← value.iter
  match items.find? unhashable with
  | some x => throw (.typeError s!"unhashable type: '{x.typeName}'")
  | Option.none => pure items

mutual
/-- A size that bounds every value the renderer recurses into: dict values,
list items and the strings a dict or a string iterates to. -/
def weight : Json → Nat
  | .list items => weightList items + 1
  | .dict items => weightDict items + 1
  | _ => 1

def weightList : List Json → Nat
  | [] => 0
  | x :: rest => x.weight + weightList rest

def weightDict : List (String × Json) → Nat
  | [] => 0
  | (_, v) :: rest => v.weight + weightDict rest + 1
end

/-- A dict that `value.get(key)` returns was stored under `key`: `value[key]`
returns it and `key in value` holds. -/
theorem getItem_of_get {v w : Json} {key : String} (h : v.get key = .ok w) (hw : w.isDict = true) :
    v.getItem key = .ok w ∧ v.contains key = .ok true := by
  cases v with
  | dict items =>
      cases hl : items.lookup key with
      | none => simp only [get, hl, Option.getD_none, pure_eq_ok, Except.ok.injEq] at h; simp [← h, isDict] at hw
      | some u => simp_all [get, getItem, contains]
  | _ => cases h

theorem weight_pos (v : Json) : 0 < v.weight := by
  cases v <;> simp [weight]

theorem weightDict_lookup {items : List (String × Json)} {key : String} {v : Json}
    (h : items.lookup key = some v) : v.weight < weightDict items + 1 := by
  induction items with
  | nil => simp at h
  | cons kv rest ih =>
      obtain ⟨k, w⟩ := kv
      by_cases hk : key = k
      · subst hk
        simp only [List.lookup_cons_self, Option.some.injEq] at h
        subst h
        simp only [weightDict]
        omega
      · have hne : (key == k) = false := by simpa using hk
        simp only [List.lookup_cons, hne] at h
        have := ih h
        simp only [weightDict]
        omega

theorem weightList_mem {items : List Json} {x : Json} (h : x ∈ items) :
    x.weight ≤ weightList items := by
  induction items with
  | nil => simp at h
  | cons y rest ih =>
      simp only [weightList]
      rcases List.mem_cons.mp h with rfl | h
      · omega
      · have := ih h
        omega

/-- A dict value is lighter than the dict. -/
theorem weight_lookup_lt {items : List (String × Json)} {key : String} {v : Json}
    (h : items.lookup key = some v) : v.weight < (dict items).weight := by
  simpa [weight] using weightDict_lookup h

/-- What a value iterates to is never heavier than the value. -/
theorem weight_iter_le {v x : Json} {items : List Json} (h : v.iter = .ok items)
    (hx : x ∈ items) : x.weight ≤ v.weight := by
  cases v with
  | list ys =>
      cases h
      have := weightList_mem hx
      simp only [weight]
      omega
  | dict kvs =>
      cases h
      obtain ⟨_, _, rfl⟩ := List.mem_map.mp hx
      have := weight_pos (dict kvs)
      simp only [weight] at this ⊢
      omega
  | str s =>
      cases h
      obtain ⟨_, _, rfl⟩ := List.mem_map.mp hx
      simp [weight]
  | none | bool _ | int _ => cases h

end Json

end Ert.Python
