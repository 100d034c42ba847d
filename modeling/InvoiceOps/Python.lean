/-
What the code takes from Python: text, floats, dates, uuids, dicts and JSON.

The Unicode tables (case mapping, white space, letters and digits,
printability) and `difflib`'s similarity are parameters, collected in `Py`:
nothing proved later depends on which tables they are, what they say of
ASCII apart where that is assumed (`Py.Ascii`). What is built on them
(`strip`, `split`, `repr`) is defined here.
-/
import InvoiceOps.Lib.Table
import Mathlib.Data.Int.Log
import Mathlib.Data.Rat.Floor
import Mathlib.Data.List.Sort

namespace InvoiceOps

abbrev Bytes := List UInt8

structure Py where
  lower : String → String
  upper : String → String
  isspace : Char → Bool
  isalnum : Char → Bool
  isprintable : Char → Bool
  /-- `SequenceMatcher(None, a, b).ratio()` -/
  ratio : String → String → ℚ

/-- Case mapping and white space, of ASCII text. -/
structure Py.Ascii (py : Py) : Prop where
  lower : ∀ s : String, (∀ c ∈ s.toList, c.toNat < 0x80) → py.lower s = String.ofList (s.toList.map Char.toLower)
  isspace : ∀ c : Char, c.toNat < 0x80 → (py.isspace c = true ↔
    c = ' ' ∨ (0x09 ≤ c.toNat ∧ c.toNat ≤ 0x0d) ∨ (0x1c ≤ c.toNat ∧ c.toNat ≤ 0x1f))

namespace Py

/-! ## Text -/

/-- The truth value of a `str | None`. -/
def truthy : Option String → Bool
  | none => false
  | some s => s != ""

/-- `value or default` -/
def orElse (value : Option String) (default : String) : String := if truthy value then value.getD "" else default

def strip (py : Py) (s : String) : String :=
  String.ofList ((s.toList.dropWhile py.isspace).reverse.dropWhile py.isspace).reverse

/-- The maximal runs of characters that are no white space; `cur` is the
run being read. -/
def splitChars (py : Py) : List Char → List Char → List (List Char)
  | [], cur => if cur = [] then [] else [cur]
  | c :: cs, cur =>
    if py.isspace c then (if cur = [] then splitChars py cs [] else cur :: splitChars py cs [])
    else splitChars py cs (cur ++ [c])

/-- `s.split()` -/
def split (py : Py) (s : String) : List String := (py.splitChars s.toList []).map String.ofList

def join (sep : String) (parts : List String) : String := sep.intercalate parts

/-- `n` in hexadecimal, in `w` digits. -/
def hex (w n : Nat) : List Char :=
  let ds := Nat.toDigits 16 n
  List.replicate (w - ds.length) '0' ++ ds

def reprChar (py : Py) (quote c : Char) : List Char :=
  if c = quote ∨ c = '\\' then ['\\', c]
  else if c = '\n' then ['\\', 'n']
  else if c = '\r' then ['\\', 'r']
  else if c = '\t' then ['\\', 't']
  else if py.isprintable c then [c]
  else if c.toNat < 0x100 then '\\' :: 'x' :: hex 2 c.toNat
  else if c.toNat < 0x10000 then '\\' :: 'u' :: hex 4 c.toNat
  else '\\' :: 'U' :: hex 8 c.toNat

/-- `repr(s)`: single quotes, unless the text has those and no double ones. -/
def repr (py : Py) (s : String) : String :=
  let quote := if s.toList.contains '\'' && !s.toList.contains '"' then '"' else '\''
  String.ofList (quote :: (s.toList.flatMap (py.reprChar quote) ++ [quote]))

end Py

/-! ## Floats -/

/-- A Python `float`; the finite ones by the number they denote. -/
inductive PyFloat where
  | nan
  | inf (neg : Bool)
  | fin (q : ℚ)
  deriving DecidableEq

namespace PyFloat

/-- `a < b`, false when either is not a number. -/
def lt : PyFloat → PyFloat → Bool
  | .nan, _ | _, .nan => false
  | .inf true, .inf true => false
  | .inf true, _ => true
  | .inf false, _ => false
  | .fin _, .inf neg => !neg
  | .fin a, .fin b => decide (a < b)

/-- The nearest integer, ties to even. -/
def nearest (q : ℚ) : Int :=
  let f := ⌊q⌋
  if q - f < 1 / 2 then f
  else if 1 / 2 < q - f then f + 1
  else if f % 2 = 0 then f else f + 1

/-- The nearest double, ties to even (for a `q` of no double's overflow). -/
def double (q : ℚ) : ℚ :=
  if q = 0 then 0
  else
    let e := max (Int.log 2 |q| - 52) (-1074)
    nearest (q / 2 ^ e) * 2 ^ e

/-- `n / d if d else 1.0` -/
def quotientOr1 (n d : Nat) : ℚ := if d = 0 then 1 else double (n / d)

end PyFloat

/-! ## Hexadecimal text, uuids and dates -/

/-- `b.hex()` -/
def hexdigest (bs : Bytes) : String :=
  String.ofList (bs.flatMap fun b => [Nat.digitChar (b.toNat / 16), Nat.digitChar (b.toNat % 16)])

/-- A uuid, as its thirty-two hexadecimal digits. -/
structure Uuid where
  digits : List (Fin 16)
  length_eq : digits.length = 32
  deriving DecidableEq

/-- `u.hex` -/
def Uuid.hex (u : Uuid) : List Char := u.digits.map fun d : Fin 16 => Nat.digitChar d.val

/-- `str(u)` -/
def Uuid.str (u : Uuid) : String :=
  let cs := u.hex
  String.ofList (cs.take 8 ++ '-' :: ((cs.drop 8).take 4 ++ '-' :: ((cs.drop 12).take 4 ++
    '-' :: ((cs.drop 16).take 4 ++ '-' :: cs.drop 20))))

def daysInMonth (year month : Nat) : Nat :=
  if month = 2 then (if year % 4 = 0 ∧ (year % 100 ≠ 0 ∨ year % 400 = 0) then 29 else 28)
  else if month = 4 ∨ month = 6 ∨ month = 9 ∨ month = 11 then 30 else 31

structure PyDate where
  year : Nat
  month : Nat
  day : Nat
  valid : (1 ≤ year ∧ year ≤ 9999) ∧ (1 ≤ month ∧ month ≤ 12) ∧ 1 ≤ day ∧ day ≤ daysInMonth year month
  deriving DecidableEq

/-- `n` in decimal, in at least `w` digits. -/
def zeroPadded (w n : Nat) : String :=
  let ds := (Nat.repr n).toList
  String.ofList (List.replicate (w - ds.length) '0' ++ ds)

def PyDate.isoformat (d : PyDate) : String :=
  zeroPadded 4 d.year ++ "-" ++ zeroPadded 2 d.month ++ "-" ++ zeroPadded 2 d.day

/-! ## Dicts -/

/-- A `dict` with text keys. -/
abbrev Dict (α : Type) := Table String (String × α) Prod.fst

namespace Dict

variable {α : Type}

/-- `d.get(k)` -/
def get (d : Dict α) (k : String) : Option α := (d.get? k).map Prod.snd

end Dict

/-! ## JSON -/

inductive Json where
  | null
  | str (s : String)
  | arr (xs : List Json)
  | obj (fields : List (String × Json))

namespace Json

def ofOption : Option String → Json
  | none => .null
  | some s => .str s

/-- `\uXXXX` -/
def escape16 (n : Nat) : List Char := '\\' :: 'u' :: Py.hex 4 n

/-- One character under ASCII escaping; beyond the basic plane, a surrogate
pair. -/
def escapeChar (c : Char) : List Char :=
  if c = '"' then ['\\', '"']
  else if c = '\\' then ['\\', '\\']
  else if c = '\n' then ['\\', 'n']
  else if c = '\r' then ['\\', 'r']
  else if c = '\t' then ['\\', 't']
  else if c.toNat = 0x0c then ['\\', 'f']
  else if c.toNat = 0x08 then ['\\', 'b']
  else if 0x20 ≤ c.toNat ∧ c.toNat < 0x7f then [c]
  else if c.toNat < 0x10000 then escape16 c.toNat
  else escape16 (0xd800 + (c.toNat - 0x10000) / 0x400) ++ escape16 (0xdc00 + (c.toNat - 0x10000) % 0x400)

def encodeStr (s : String) : List Char := '"' :: (s.toList.flatMap escapeChar ++ ['"'])

mutual

/-- `json.dumps(..., separators=(",", ":"))` -/
def encode : Json → List Char
  | .null => ['n', 'u', 'l', 'l']
  | .str s => encodeStr s
  | .arr xs => '[' :: (encodeItems xs ++ [']'])
  | .obj fields => '{' :: (encodeFields fields ++ ['}'])

def encodeItems : List Json → List Char
  | [] => []
  | [x] => encode x
  | x :: y :: xs => encode x ++ ',' :: encodeItems (y :: xs)

def encodeFields : List (String × Json) → List Char
  | [] => []
  | [(k, v)] => encodeStr k ++ ':' :: encode v
  | (k, v) :: f :: fs => encodeStr k ++ ':' :: (encode v ++ ',' :: encodeFields (f :: fs))

end

mutual

/-- `sort_keys=True`, at every depth. -/
def sortKeys : Json → Json
  | .null => .null
  | .str s => .str s
  | .arr xs => .arr (sortItems xs)
  | .obj fields => .obj ((sortFields fields).insertionSort fun a b => a.1 ≤ b.1)

def sortItems : List Json → List Json
  | [] => []
  | x :: xs => sortKeys x :: sortItems xs

def sortFields : List (String × Json) → List (String × Json)
  | [] => []
  | (k, v) :: fs => (k, sortKeys v) :: sortFields fs

end

/-- `json.dumps(v, sort_keys=True, separators=(",", ":")).encode("utf-8")`:
the text is ASCII, so a byte is a character. -/
def toBytes (v : Json) : Bytes := v.sortKeys.encode.map fun c => c.toNat.toUInt8

end Json

end InvoiceOps
