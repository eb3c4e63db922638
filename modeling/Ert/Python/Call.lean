import Ert.Python.Text

/-! Binding a call's arguments to the parameters of a Python function whose
parameters are all positional-or-keyword, in the order CPython checks them:
each keyword in turn (unknown, then already bound), then the count of
positional arguments, then the parameters left without a value or default.
Whether a call binds depends only on how many arguments it passes by position
and on the names of its keywords, so a call is given by that shape. -/
namespace Ert.Python

/-- A parameter and whether the signature gives it a default. -/
structure Param where
  name : String
  hasDefault : Bool
  deriving Repr, DecidableEq

/-- A function's `__qualname__` and its parameters in order. -/
structure Signature where
  qualname : String
  params : List Param
  deriving Repr, DecidableEq

/-- What a call passes: a number of positional arguments, then keywords. -/
structure CallShape where
  positional : Nat
  keywords : List String
  deriving Repr, DecidableEq

namespace Signature

variable (sig : Signature)

def names : List String := sig.params.map Param.name

/-- The parameters the call fills by position. -/
def positionalNames (n : Nat) : List String := (sig.params.take n).map Param.name

def unexpectedKeyword (k : String) : Exc :=
  .typeError s!"{sig.qualname}() got an unexpected keyword argument '{k}'"

def multipleValues (k : String) : Exc :=
  .typeError s!"{sig.qualname}() got multiple values for argument '{k}'"

/-- CPython's `too_many_positional` message, for a signature without `*args`. -/
def tooManyPositional (given : Nat) : Exc :=
  let total := sig.params.length
  let required := (sig.params.filter fun p => !p.hasDefault).length
  let takes := if required < total then s!"from {required} to {total}" else s!"{total}"
  let plural := if required < total ∨ total ≠ 1 then "s" else ""
  let verb := if given = 1 then "was" else "were"
  .typeError s!"{sig.qualname}() takes {takes} positional argument{plural} but {given} {verb} given"

/-- CPython's `format_missing` list of quoted names: `'a'`, `'a' and 'b'`,
`'a', 'b', and 'c'`. -/
def formatMissing : List String → String
  | [] => ""
  | [a] => strRepr a
  | [a, b] => strRepr a ++ " and " ++ strRepr b
  | [a, b, c] => strRepr a ++ ", " ++ strRepr b ++ ", and " ++ strRepr c
  | a :: rest => strRepr a ++ ", " ++ formatMissing rest

def missingArguments (missing : List String) : Exc :=
  let plural := if missing.length = 1 then "" else "s"
  .typeError s!"{sig.qualname}() missing {missing.length} required positional argument{plural}: {formatMissing missing}"

/-- Bind the keywords in order onto the names already bound. -/
def bindKeywords : List String → List String → Except Exc (List String)
  | bound, [] => pure bound
  | bound, k :: rest =>
      if k ∉ sig.names then throw (sig.unexpectedKeyword k)
      else if k ∈ bound then throw (sig.multipleValues k)
      else bindKeywords (bound ++ [k]) rest

/-- Python's argument binding for `sig` and a call of shape `call`. -/
def bindCall (call : CallShape) : Except Exc Unit := do
  let bound ← sig.bindKeywords (sig.positionalNames call.positional) call.keywords
  if sig.params.length < call.positional then throw (sig.tooManyPositional call.positional)
  let missing := (sig.params.filter fun p => !p.hasDefault ∧ p.name ∉ bound).map Param.name
  if missing ≠ [] then throw (sig.missingArguments missing)

/-- A call whose first keyword names no parameter raises for that keyword,
whatever it passes by position. -/
theorem bindCall_unexpected {n : Nat} {k : String} {ks : List String} (hk : k ∉ sig.names) :
    sig.bindCall ⟨n, k :: ks⟩ = .error (sig.unexpectedKeyword k) := by
  simp [bindCall, bindKeywords, hk]

end Signature

end Ert.Python
