import AutoXdp.NftScript
import Mathlib.Data.Rat.Floor
import Mathlib.Tactic.Basic

/-! The values of a TOML document, and what Python's operations make of them whether they
have the type that is expected or not. -/
namespace AutoXdp.TomlConfig
open NftScript (PyFloat)

/-- What `tomllib` returns. Of a date or a time only the text counts. -/
inductive Toml where
  | bool (b : Bool)
  | int (n : ℤ)
  | float (x : PyFloat)
  | str (s : String)
  | time (text : String)
  | list (xs : List Toml)
  | dict (entries : List (String × Toml))

inductive Exc where
  | attributeError
  | keyError
  | typeError
  | valueError
  | overflowError
  deriving DecidableEq, Repr

abbrev Py := Except Exc

/-- What the interpreter computes on floats and on text: the double next to a number
(infinite beyond the range), `int` and `float` of a text, `str` of what is no text,
`str.lower`, and of `ipaddress` the text of an address and of a network with its host bits
cleared. -/
structure Library where
  round : ℚ → PyFloat
  intOfStr : String → Option ℤ
  floatOfStr : String → Option PyFloat
  reprOf : Toml → String
  lower : String → String
  ipv4Address : String → Option String
  ipv4Network : String → Option String
  ipv6Network : String → Option String

/-! Access. -/

/-- `v.get(key, default)`. -/
def get (key : String) (default : Toml) : Toml → Py Toml
  | .dict entries => .ok ((entries.lookup key).getD default)
  | _ => .error .attributeError

/-- `v.items()`. -/
def items : Toml → Py (List (String × Toml))
  | .dict entries => .ok entries
  | _ => .error .attributeError

/-- `for x in v`: a text gives its characters, a table its keys. -/
def iter : Toml → Py (List Toml)
  | .list xs => .ok xs
  | .str s => .ok (s.toList.map fun c => .str (String.singleton c))
  | .dict entries => .ok (entries.map fun e => .str e.1)
  | _ => .error .typeError

/-- `v[key]`. -/
def index (key : String) : Toml → Py Toml
  | .dict entries => match entries.lookup key with
    | some v => .ok v
    | none => .error .keyError
  | _ => .error .typeError

/-! Conversions. -/

def truthy : Toml → Bool
  | .bool b => b
  | .int n => n ≠ 0
  | .float x => x ≠ .finite 0
  | .str s => s ≠ ""
  | .time _ => true
  | .list xs => !xs.isEmpty
  | .dict entries => !entries.isEmpty

/-- `int` of a float: towards zero. -/
def truncate : PyFloat → Py ℤ
  | .finite q => .ok (q.num.tdiv q.den)
  | .inf _ => .error .overflowError
  | .nan => .error .valueError

variable (lib : Library)

def toInt : Toml → Py ℤ
  | .bool b => .ok b.toInt
  | .int n => .ok n
  | .float x => truncate x
  | .str s => match lib.intOfStr s with
    | some n => .ok n
    | none => .error .valueError
  | .time _ | .list _ | .dict _ => .error .typeError

/-- `float` of an integer; one beyond the range raises. -/
def floatOfInt (n : ℤ) : Py PyFloat :=
  match lib.round n with
  | .finite q => .ok (.finite q)
  | _ => .error .overflowError

def toFloat : Toml → Py PyFloat
  | .bool b => floatOfInt lib b.toInt
  | .int n => floatOfInt lib n
  | .float x => .ok x
  | .str s => match lib.floatOfStr s with
    | some x => .ok x
    | none => .error .valueError
  | .time _ | .list _ | .dict _ => .error .typeError

def toStr : Toml → String
  | .str s => s
  | v => lib.reprOf v

/-- A product with a positive number. -/
def scaleUp (x : PyFloat) (q : ℚ) : PyFloat :=
  match x with
  | .finite p => lib.round (p*q)
  | x => x

def isNonpositive : PyFloat → Bool
  | .finite q => q ≤ 0
  | .inf negative => negative
  | .nan => false

def isNegative : PyFloat → Bool
  | .finite q => q < 0
  | .inf negative => negative
  | .nan => false

def ofOption {α : Type} : Option α → Py α
  | some a => .ok a
  | none => .error .valueError

/-- `normalize_cidr`. The text of a list or a table starts with a bracket and is no
network; whatever else is no text has no `in`. -/
def normalizeCidr : Toml → Py String
  | .str s => ofOption (if ':' ∈ s.toList then lib.ipv6Network s else lib.ipv4Network s)
  | .list _ | .dict _ => .error .valueError
  | .bool _ | .int _ | .float _ | .time _ => .error .typeError

end AutoXdp.TomlConfig
