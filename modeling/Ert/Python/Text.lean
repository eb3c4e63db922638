import Ert.Python.Json
import Mathlib.Data.List.DropRight

/-! The three ways the renderer turns a value into text: `str(value)` (what an
f-string field prints), `repr` (what `str` of a container prints for its items)
and `json.dumps(value, ensure_ascii=False)`. Printability of a non-ASCII
character is approximated: the C1 controls and U+00A0 are escaped, every other
non-ASCII character is printed as it is. -/
namespace Ert.Python

/-- `n` as `width` lowercase hexadecimal digits at least. -/
def hexPad (width n : Nat) : String :=
  let digits := Nat.toDigits 16 n
  String.mk (List.replicate (width - digits.length) '0' ++ digits)

/-- One character of `repr(s)` when `quote` delimits the string. -/
def reprChar (quote c : Char) : String :=
  if c = quote ∨ c = '\\' then "\\" ++ String.singleton c
  else if c = '\t' then "\\t"
  else if c = '\n' then "\\n"
  else if c = '\r' then "\\r"
  else if c.toNat < 0x20 ∨ (0x7f ≤ c.toNat ∧ c.toNat ≤ 0xa0) then "\\x" ++ hexPad 2 c.toNat
  else String.singleton c

/-- `repr(s)`: single quotes unless the text has a single quote and no double one. -/
def strRepr (s : String) : String :=
  let quote := if '\'' ∈ s.data ∧ '"' ∉ s.data then '"' else '\''
  String.singleton quote ++ String.join (s.data.map (reprChar quote)) ++ String.singleton quote

/-- One character of a JSON string literal (`encode_basestring`). -/
def dumpsChar (c : Char) : String :=
  if c = '"' then "\\\""
  else if c = '\\' then "\\\\"
  else if c = '\n' then "\\n"
  else if c = '\r' then "\\r"
  else if c = '\t' then "\\t"
  else if c.toNat = 8 then "\\b"
  else if c.toNat = 12 then "\\f"
  else if c.toNat < 0x20 then "\\u" ++ hexPad 4 c.toNat
  else String.singleton c

/-- A JSON string literal. -/
def dumpsStr (s : String) : String :=
  "\"" ++ String.join (s.data.map dumpsChar) ++ "\""

/-- `text.lstrip(chars)`: the leading characters that are in `chars` removed. -/
def lstrip (text : String) (chars : List Char) : String := String.mk (text.data.dropWhile (· ∈ chars))

/-- `c.isspace()`: the characters `str.rstrip()` removes. -/
def isSpace (c : Char) : Bool :=
  c.toNat ∈ [9, 10, 11, 12, 13, 28, 29, 30, 31, 32, 133, 160, 5760, 8192, 8193, 8194, 8195, 8196,
    8197, 8198, 8199, 8200, 8201, 8202, 8232, 8233, 8239, 8287, 12288]

/-- `text.rstrip()`. -/
def rstrip (text : String) : String := String.mk (text.data.rdropWhile isSpace)

example : rstrip "a b\t\n\x85" = "a b" ∧ lstrip "\n\nx\n" ['\n'] = "x\n" := by decide

namespace Json

mutual
/-- `repr(value)`. -/
def repr : Json → String
  | .none => "None"
  | .bool b => if b then "True" else "False"
  | .int n => toString n
  | .str s => strRepr s
  | .list items => "[" ++ ", ".intercalate (reprList items) ++ "]"
  | .dict items => "\x7b" ++ ", ".intercalate (reprDict items) ++ "\x7d"

def reprList : List Json → List String
  | [] => []
  | x :: rest => x.repr :: reprList rest

def reprDict : List (String × Json) → List String
  | [] => []
  | (k, v) :: rest => (strRepr k ++ ": " ++ v.repr) :: reprDict rest
end

/-- `str(value)`: a string prints as itself, anything else as its `repr`. -/
def toStr : Json → String
  | .str s => s
  | v => v.repr

mutual
/-- `json.dumps(value, ensure_ascii=False)` with the default separators. -/
def dumps : Json → String
  | .none => "null"
  | .bool b => if b then "true" else "false"
  | .int n => toString n
  | .str s => dumpsStr s
  | .list items => "[" ++ ", ".intercalate (dumpsList items) ++ "]"
  | .dict items => "\x7b" ++ ", ".intercalate (dumpsDict items) ++ "\x7d"

def dumpsList : List Json → List String
  | [] => []
  | x :: rest => x.dumps :: dumpsList rest

def dumpsDict : List (String × Json) → List String
  | [] => []
  | (k, v) :: rest => (dumpsStr k ++ ": " ++ v.dumps) :: dumpsDict rest
end

/-- The `str` a method such as `rstrip` is called on; another value has no
such attribute. -/
def strAttr (method : String) : Json → Except Exc String
  | .str s => pure s
  | v => throw (.attributeError s!"'{v.typeName}' object has no attribute '{method}'")

example : (dict [("a", list [int 1, none]), ("b", str "it's")]).repr =
    "\x7b'a': [1, None], 'b': \"it's\"\x7d" := by decide

example : (dict [("a", list [int 1, none]), ("b", str "x\ny")]).dumps =
    "\x7b\"a\": [1, null], \"b\": \"x\\ny\"\x7d" := by decide

end Json

end Ert.Python
