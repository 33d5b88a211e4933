import Mathlib.Data.BitVec
import Mathlib.Data.List.Basic
import Mathlib.Tactic.Basic

/-! `json.loads` on a byte string: the encoding is detected, the text is decoded, and one
JSON value is read from it. Text is a list of code points, surrogates included. -/
namespace PyJson

abbrev Text := List ℕ

/-- Limits of the interpreter: the nesting that its stack allows, and the digits of an
integer, when there is a limit on them. -/
structure Limits where
  nesting : ℕ
  intDigits : Option ℕ

/-- The exceptions of `json.loads`. `UnicodeDecodeError` is no `JSONDecodeError`. -/
inductive LoadError where
  | jsonDecodeError
  | unicodeDecodeError
  | recursionError
  | valueError
  deriving DecidableEq, Repr

/-- A value; the numbers themselves are not kept. -/
inductive Json where
  | null
  | bool (b : Bool)
  | number
  | string (s : Text)
  | array (xs : List Json)
  | object (members : List (Text × Json))

/-- `dict.get`: of several members with one key the last one counts. -/
def get (members : List (Text × Json)) (key : Text) : Option Json :=
  (members.reverse.find? (·.1 = key)).map Prod.snd

/-! Decoding. -/

inductive Encoding where
  | utf8
  | utf8Sig
  | utf16 (bigEndian bom : Bool)
  | utf32 (bigEndian bom : Bool)
  deriving DecidableEq, Repr

def detectEncoding : List ℕ → Encoding
  | 0 :: 0 :: 0xFE :: 0xFF :: _ => .utf32 true true
  | 0xFF :: 0xFE :: 0 :: 0 :: _ => .utf32 false true
  | 0xFE :: 0xFF :: _ => .utf16 true true
  | 0xFF :: 0xFE :: _ => .utf16 false true
  | 0xEF :: 0xBB :: 0xBF :: _ => .utf8Sig
  | a :: b :: c :: d :: _ =>
    if a = 0 then (if b ≠ 0 then .utf16 true false else .utf32 true false)
    else if b = 0 then (if c ≠ 0 ∨ d ≠ 0 then .utf16 false false else .utf32 false false)
    else .utf8
  | [a, b] =>
    if a = 0 then .utf16 true false else if b = 0 then .utf16 false false else .utf8
  | _ => .utf8

/-- UTF-8 in which surrogates pass. After a lead byte `need` further bytes are due, the
next one between `lo` and `hi`. -/
def utf8 : ℕ → ℕ → ℕ → ℕ → List ℕ → Option Text
  | 0, _, _, _, [] => some []
  | _+1, _, _, _, [] => none
  | 0, _, _, _, b :: bs =>
    if b < 0x80 then (utf8 0 0 0 0 bs).map (b :: ·)
    else if 0xC2 ≤ b ∧ b ≤ 0xDF then utf8 1 (b%32) 0x80 0xBF bs
    else if b = 0xE0 then utf8 2 0 0xA0 0xBF bs
    else if 0xE1 ≤ b ∧ b ≤ 0xEF then utf8 2 (b%16) 0x80 0xBF bs
    else if b = 0xF0 then utf8 3 0 0x90 0xBF bs
    else if 0xF1 ≤ b ∧ b ≤ 0xF3 then utf8 3 (b%8) 0x80 0xBF bs
    else if b = 0xF4 then utf8 3 4 0x80 0x8F bs
    else none
  | need+1, acc, lo, hi, b :: bs =>
    if lo ≤ b ∧ b ≤ hi then
      (if need = 0 then (utf8 0 0 0 0 bs).map ((acc*64 + b%64) :: ·)
      else utf8 need (acc*64 + b%64) 0x80 0xBF bs)
    else none

def isHigh (c : ℕ) : Bool := 0xD800 ≤ c ∧ c ≤ 0xDBFF

def isLow (c : ℕ) : Bool := 0xDC00 ≤ c ∧ c ≤ 0xDFFF

def joinPair (hi lo : ℕ) : ℕ := 0x10000 + (hi-0xD800)*0x400 + (lo-0xDC00)

/-- UTF-16 in which unpaired surrogates pass. -/
def utf16 (bigEndian : Bool) : List ℕ → Option (List ℕ)
  | [] => some []
  | [_] => none
  | a :: b :: rest =>
    (utf16 bigEndian rest).map ((if bigEndian then a*256 + b else b*256 + a) :: ·)

def pairUnits : List ℕ → Text
  | [] => []
  | [c] => [c]
  | c :: c' :: rest =>
    if isHigh c && isLow c' then joinPair c c' :: pairUnits rest
    else c :: pairUnits (c' :: rest)

def utf32 (bigEndian : Bool) : List ℕ → Option Text
  | [] => some []
  | a :: b :: c :: d :: rest =>
    let unit := if bigEndian then ((a*256 + b)*256 + c)*256 + d
      else ((d*256 + c)*256 + b)*256 + a
    if unit ≤ 0x10FFFF then (utf32 bigEndian rest).map (unit :: ·) else none
  | _ => none

def decode (raw : List ℕ) : Option Text :=
  match detectEncoding raw with
  | .utf8 => utf8 0 0 0 0 raw
  | .utf8Sig => utf8 0 0 0 0 (raw.drop 3)
  | .utf16 be bom => (utf16 be (if bom then raw.drop 2 else raw)).map pairUnits
  | .utf32 be bom => utf32 be (if bom then raw.drop 4 else raw)

/-! Scanning. -/

abbrev Scan (α : Type) := Except LoadError (α × Text)

def isWs (c : ℕ) : Bool := c = 0x20 ∨ c = 0x09 ∨ c = 0x0A ∨ c = 0x0D

def skipWs (s : Text) : Text := s.dropWhile isWs

def isDigit (c : ℕ) : Bool := 0x30 ≤ c ∧ c ≤ 0x39

def hexVal (c : ℕ) : Option ℕ :=
  if 0x30 ≤ c ∧ c ≤ 0x39 then some (c-0x30)
  else if 0x41 ≤ c ∧ c ≤ 0x46 then some (c-0x41+10)
  else if 0x61 ≤ c ∧ c ≤ 0x66 then some (c-0x61+10)
  else none

def hex4 (a b c d : ℕ) : Option ℕ := do
  let a ← hexVal a
  let b ← hexVal b
  let c ← hexVal c
  let d ← hexVal d
  return ((a*16 + b)*16 + c)*16 + d

/-- The escapes of one character behind a backslash. -/
def simpleEscape (c : ℕ) : Option ℕ :=
  if c = 0x22 ∨ c = 0x5C ∨ c = 0x2F then some c
  else if c = 0x62 then some 0x08
  else if c = 0x66 then some 0x0C
  else if c = 0x6E then some 0x0A
  else if c = 0x72 then some 0x0D
  else if c = 0x74 then some 0x09
  else none

/-- The characters up to the closing quote, each with whether it is a `\u` escape. -/
def scanChars : Text → Scan (List (ℕ × Bool))
  | [] => .error .jsonDecodeError
  | 0x22 :: rest => .ok ([], rest)
  | 0x5C :: 0x75 :: a :: b :: c :: d :: rest =>
    match hex4 a b c d with
    | none => .error .jsonDecodeError
    | some u => (scanChars rest).map fun (cs, r) => ((u, true) :: cs, r)
  | 0x5C :: e :: rest =>
    match simpleEscape e with
    | none => .error .jsonDecodeError
    | some u => (scanChars rest).map fun (cs, r) => ((u, false) :: cs, r)
  | c :: rest =>
    if c < 0x20 ∨ c = 0x5C then .error .jsonDecodeError
    else (scanChars rest).map fun (cs, r) => ((c, false) :: cs, r)

/-- Two escapes that form a surrogate pair are one character. -/
def joinEscapes : List (ℕ × Bool) → Text
  | [] => []
  | [(c, _)] => [c]
  | (c, esc) :: (c', esc') :: rest =>
    if esc && esc' && isHigh c && isLow c' then joinPair c c' :: joinEscapes rest
    else c :: joinEscapes ((c', esc') :: rest)

def scanString (s : Text) : Scan Text :=
  (scanChars s).map fun (cs, rest) => (joinEscapes cs, rest)

/-- The fraction and the exponent of a number, when they are there: whether the number is
a float, and the rest. -/
def scanFraction (s : Text) : Bool × Text :=
  match s with
  | 0x2E :: d :: rest => if isDigit d then (true, rest.dropWhile isDigit) else (false, s)
  | _ => (false, s)

def scanExponent (s : Text) : Bool × Text :=
  match s with
  | e :: rest =>
    if e = 0x65 ∨ e = 0x45 then
      let rest := match rest with
        | sign :: rest' => if sign = 0x2B ∨ sign = 0x2D then rest' else rest
        | [] => []
      if (rest.takeWhile isDigit).length = 0 then (false, s)
      else (true, rest.dropWhile isDigit)
    else (false, s)
  | [] => (false, s)

/-- A number without its sign. Only integers have a limit on their digits. -/
def scanNumber (lim : Limits) (s : Text) : Scan Json :=
  let digits := match s with
    | 0x30 :: _ => [0x30]
    | _ => s.takeWhile isDigit
  if digits.length = 0 then .error .jsonDecodeError
  else
    let (frac, rest) := scanFraction (s.drop digits.length)
    let (exp, rest) := scanExponent rest
    if !frac && !exp && lim.intDigits.any (· < digits.length) then .error .valueError
    else .ok (.number, rest)

/-- The members of an object behind its brace or a comma; `elem` reads a value. -/
def scanMembers (elem : Text → Scan Json) :
    ℕ → Text → Except LoadError (List (Text × Json) × Text)
  | 0, _ => .error .jsonDecodeError
  | n+1, s =>
    match s with
    | 0x22 :: s => do
      let (key, s) ← scanString s
      match skipWs s with
      | 0x3A :: s => do
        let (v, s) ← elem (skipWs s)
        match skipWs s with
        | 0x7D :: s => .ok ([(key, v)], s)
        | 0x2C :: s => do
          let (ms, s) ← scanMembers elem n (skipWs s)
          .ok ((key, v) :: ms, s)
        | _ => .error .jsonDecodeError
      | _ => .error .jsonDecodeError
    | _ => .error .jsonDecodeError

/-- The elements of an array behind its bracket or a comma. -/
def scanElements (elem : Text → Scan Json) : ℕ → Text → Except LoadError (List Json × Text)
  | 0, _ => .error .jsonDecodeError
  | n+1, s => do
    let (v, s) ← elem s
    match skipWs s with
    | 0x5D :: s => .ok ([v], s)
    | 0x2C :: s => do
      let (vs, s) ← scanElements elem n (skipWs s)
      .ok (v :: vs, s)
    | _ => .error .jsonDecodeError

/-- The constants, `NaN` and the infinities among them. -/
def constants : List (Text × Json) :=
  [([0x6E, 0x75, 0x6C, 0x6C], .null), ([0x74, 0x72, 0x75, 0x65], .bool true),
    ([0x66, 0x61, 0x6C, 0x73, 0x65], .bool false), ([0x4E, 0x61, 0x4E], .number),
    ([0x49, 0x6E, 0x66, 0x69, 0x6E, 0x69, 0x74, 0x79], .number),
    ([0x2D, 0x49, 0x6E, 0x66, 0x69, 0x6E, 0x69, 0x74, 0x79], .number)]

/-- `scan_once`: one value, with containers nested at most so deep. -/
def scanOnce (lim : Limits) : ℕ → Text → Scan Json
  | _, [] => .error .jsonDecodeError
  | _, 0x22 :: s => (scanString s).map fun (t, s) => (.string t, s)
  | 0, 0x7B :: _ => .error .recursionError
  | 0, 0x5B :: _ => .error .recursionError
  | depth+1, 0x7B :: s =>
    match skipWs s with
    | 0x7D :: s => .ok (.object [], s)
    | s => (scanMembers (scanOnce lim depth) (s.length+1) s).map fun (ms, s) => (.object ms, s)
  | depth+1, 0x5B :: s =>
    match skipWs s with
    | 0x5D :: s => .ok (.array [], s)
    | s => (scanElements (scanOnce lim depth) (s.length+1) s).map fun (vs, s) => (.array vs, s)
  | _, c :: s =>
    match constants.find? (·.1.isPrefixOf (c :: s)) with
    | some (name, v) => .ok (v, (c :: s).drop name.length)
    | none => scanNumber lim (if c = 0x2D then s else c :: s)

def loads (lim : Limits) (raw : List (BitVec 8)) : Except LoadError Json :=
  match decode (raw.map BitVec.toNat) with
  | none => .error .unicodeDecodeError
  | some s =>
    match scanOnce lim lim.nesting (skipWs s) with
    | .error e => .error e
    | .ok (v, rest) => if (skipWs rest).length = 0 then .ok v else .error .jsonDecodeError

end PyJson
