import Mathlib.Data.Rat.Defs

set_option autoImplicit false

/-! # Decoded JSON

What `json.loads` returns, with the operations of Python on it. An operation on a value of the
wrong type raises.
-/

namespace Json

/-- The numbers: Python also reads `NaN` and the infinities. -/
inductive Number
  | int (n : Int)
  | finite (q : ℚ)
  /-- `-0.0`, which equals `0.0` and is printed with its sign -/
  | negativeZero
  | infinite (negative : Bool)
  | nan

inductive Value
  | null
  | bool (b : Bool)
  | number (n : Number)
  | str (s : String)
  | list (xs : List Value)
  | dict (items : List (String × Value))

/-- The exceptions of the operations. -/
inductive Exc
  | typeError
  | attributeError
  | keyError
  | valueError
  | overflowError
  /-- a value that is nested too deeply -/
  | recursionError
  | osError
  deriving DecidableEq

def Number.truthy : Number → Bool
  | .int n => decide (n ≠ 0)
  | .finite q => decide (q ≠ 0)
  | .negativeZero => false
  | .infinite _ => true
  | .nan => true

/-- `bool(value)`. -/
def Value.truthy : Value → Bool
  | .null => false
  | .bool b => b
  | .number n => n.truthy
  | .str s => decide (s ≠ "")
  | .list xs => !xs.isEmpty
  | .dict items => !items.isEmpty

/-- `value.get(key)`; only a dictionary has the method. -/
def Value.get (key : String) : Value → Except Exc (Option Value)
  | .dict items => .ok (List.lookup key items)
  | _ => .error .attributeError

/-- `found or None`. -/
def orNone (found : Option Value) : Option Value := found.filter (·.truthy)

/-- `for x in value`. -/
def Value.iterate : Value → Except Exc (List Value)
  | .list xs => .ok xs
  | .str s => .ok (s.toList.map (fun c => .str (String.singleton c)))
  | .dict items => .ok (items.map (fun item => .str item.1))
  | _ => .error .typeError

/-- `for x in found or []`. -/
def iterateOrNil (found : Option Value) : Except Exc (List Value) :=
  match orNone found with
  | some value => value.iterate
  | none => .ok []

def Value.isStr (text : String) : Value → Bool
  | .str s => decide (s = text)
  | _ => false

/-- `text in value`. -/
def Value.contains (text : String) : Value → Except Exc Bool
  | .list xs => .ok (xs.any (Value.isStr text))
  | .str s => .ok (s.toList.tails.any (text.toList.isPrefixOf ·))
  | .dict items => .ok (items.any (fun item => decide (item.1 = text)))
  | _ => .error .typeError

/-- `int(value)`, with the reading of texts as a parameter. -/
def Value.int (read : String → Option Int) : Value → Except Exc Int
  | .number (.int n) => .ok n
  | .number (.finite q) => .ok (if 0 ≤ q then q.floor else q.ceil)
  | .number .negativeZero => .ok 0
  | .number (.infinite _) => .error .overflowError
  | .number .nan => .error .valueError
  | .bool b => .ok (if b then 1 else 0)
  | .str s =>
      match read s with
      | some n => .ok n
      | none => .error .valueError
  | _ => .error .typeError

/-- `found or {}`. -/
def orEmpty (found : Option Value) : Value := (orNone found).getD (.dict [])

/-- `value[key]` for each of the keys, if all of them are there. -/
def Value.at : List String → Value → Option Value
  | [], value => some value
  | key :: keys, .dict items => (List.lookup key items).bind (Value.at keys)
  | _ :: _, _ => none

/-- `str(value)`, with the `repr` of what is neither a text nor an atom as a parameter; it raises
where the value is nested too deeply. -/
def Value.display (repr : Value → Except Exc String) : Value → Except Exc String
  | .str s => .ok s
  | .null => .ok "None"
  | .bool true => .ok "True"
  | .bool false => .ok "False"
  | .number (.int n) => .ok (toString n)
  | value => repr value

/-- `str(value)` of a value that is not nested too deeply. -/
def Value.text (repr : Value → String) : Value → String
  | .str s => s
  | .null => "None"
  | .bool true => "True"
  | .bool false => "False"
  | .number (.int n) => toString n
  | value => repr value

end Json
