import SecurityScanner.Lib.Binary64

/-!
# Strings, numbers and values of JavaScript

A string is its list of UTF-16 code units. The case mappings of Unicode are parameters, in
`CaseMap`. An object is the list of its own properties in the order of `Object.entries`.
-/

namespace JavaScript

open Binary64

abbrev Text := List UInt16

/-- What holds of all units of a text is decided along the text, not over all units. -/
instance (priority := high) decidableForallUnit {p : UInt16 → Prop} [DecidablePred p] (t : Text) :
    Decidable (∀ u ∈ t, p u) :=
  List.decidableBAll p t

/-- The case mappings of `toLowerCase` and `toUpperCase`. -/
structure CaseMap where
  lower : Text → Text
  upper : Text → Text

def encodeChar (c : Char) : Text :=
  let n := c.toNat
  if n < 0x10000 then [n.toUInt16]
  else [(0xd800 + (n - 0x10000) / 0x400).toUInt16, (0xdc00 + (n - 0x10000) % 0x400).toUInt16]

/-- A string literal. -/
def js (s : String) : Text := s.toList.flatMap encodeChar

/-- A code unit of ASCII. -/
def unit (c : Char) : UInt16 := c.toNat.toUInt16

def asciiCase : CaseMap where
  lower t := t.map fun u => if 65 ≤ u ∧ u ≤ 90 then u + 32 else u
  upper t := t.map fun u => if 97 ≤ u ∧ u ≤ 122 then u - 32 else u

section strings

def isDigit (u : UInt16) : Bool := 48 ≤ u && u ≤ 57

/-- White space and line terminators. -/
def isSpace (u : UInt16) : Bool :=
  (9 ≤ u && u ≤ 13) || u = 32 || u = 0xa0 || u = 0x1680 || (0x2000 ≤ u && u ≤ 0x200a) ||
    u = 0x2028 || u = 0x2029 || u = 0x202f || u = 0x205f || u = 0x3000 || u = 0xfeff

def trim (t : Text) : Text :=
  ((t.dropWhile isSpace).reverse.dropWhile isSpace).reverse

/-- `t.includes(sub)`. -/
def includes : Text → Text → Bool
  | [], sub => sub.isEmpty
  | u :: t, sub => sub.isPrefixOf (u :: t) || includes t sub

/-- The text before the first occurrence of `sub` and the text after it. -/
def cutFirst (sub : Text) : Text → Option (Text × Text)
  | [] => if sub.isEmpty then some ([], []) else none
  | u :: t =>
    if sub.isPrefixOf (u :: t) then some ([], (u :: t).drop sub.length)
    else (cutFirst sub t).map fun p => (u :: p.1, p.2)

/-- `GetSubstitution` for a pattern without captures. -/
def substitution (before matched after : Text) : Text → Text
  | [] => []
  | [u] => [u]
  | u :: v :: t =>
    if u = unit '$' then
      if v = unit '$' then unit '$' :: substitution before matched after t
      else if v = unit '&' then matched ++ substitution before matched after t
      else if v = 96 then before ++ substitution before matched after t
      else if v = 39 then after ++ substitution before matched after t
      else u :: substitution before matched after (v :: t)
    else u :: substitution before matched after (v :: t)

/-- `t.replace(sub, replacement)` for strings: only the first occurrence. -/
def replace (t sub replacement : Text) : Text :=
  match cutFirst sub t with
  | some (before, after) => before ++ substitution before sub after replacement ++ after
  | none => t

/-- `t.split(separator)` for one code unit. -/
def split (separator : UInt16) : Text → List Text
  | [] => [[]]
  | u :: t =>
    if u = separator then [] :: split separator t
    else match split separator t with
      | [] => [[u]]
      | s :: rest => (u :: s) :: rest

/-- `t.match(/\d+/g)`, where `run` is the digits just read. -/
def digitRuns : Text → Text → List Text
  | run, [] => if run = [] then [] else [run]
  | run, u :: t =>
    if isDigit u then digitRuns (run ++ [u]) t
    else if run = [] then digitRuns [] t else run :: digitRuns [] t

/-- `t.match(/v\d+/g)`, where `run` is the token just read, a `v` and its digits. -/
def versionTokens : Text → Text → List Text
  | run, [] => if run.length < 2 then [] else [run]
  | run, u :: t =>
    if u = unit 'v' then
      if run.length < 2 then versionTokens [u] t else run :: versionTokens [u] t
    else if isDigit u && run ≠ [] then versionTokens (run ++ [u]) t
    else if run.length < 2 then versionTokens [] t else run :: versionTokens [] t

/-- `/v\d+$/` matches. -/
def endsWithVersion (t : Text) : Bool :=
  let digits := t.reverse.takeWhile isDigit
  digits ≠ [] && (t.reverse.drop digits.length).head? = some (unit 'v')

end strings

section numbers

def digitValue (u : UInt16) : Nat := u.toNat - 48

def decimalValue (digits : Text) : Nat := digits.foldl (fun n u => 10 * n + digitValue u) 0

/-- `parseInt` of a non-empty text of digits. -/
def parseInt (digits : Text) : Float := Float.ofNat (decimalValue digits)

def natToText (n : Nat) : Text := js (toString n)

/-- `Number::toString` of a positive finite number. -/
def positiveToText (x : Float) : Text :=
  let (s, e) := shortest x
  let digits := natToText s
  let k : Int := digits.length
  let n := k + e
  let zeros (m : Int) : Text := List.replicate m.toNat (unit '0')
  if k ≤ n ∧ n ≤ 21 then digits ++ zeros (n - k)
  else if 0 < n ∧ n ≤ 21 then digits.take n.toNat ++ js "." ++ digits.drop n.toNat
  else if -6 < n ∧ n ≤ 0 then js "0." ++ zeros (-n) ++ digits
  else
    let sign := if 0 < n then js "e+" else js "e-"
    let exponent := natToText (n - 1).natAbs
    if k = 1 then digits ++ sign ++ exponent
    else digits.take 1 ++ js "." ++ digits.drop 1 ++ sign ++ exponent

/-- `String(x)`. -/
def numberToText (x : Float) : Text :=
  if x.isNaN then js "NaN"
  else if x == 0 then js "0"
  else if x < 0 then js "-" ++ (if x.isInf then js "Infinity" else positiveToText (-x))
  else if x.isInf then js "Infinity"
  else positiveToText x

/-- The digits at the start of a text and the rest. -/
def spanDigits (t : Text) : Text × Text := (t.takeWhile isDigit, t.dropWhile isDigit)

/-- The exponent part of a decimal literal, for a text that has nothing behind it. -/
def exponentPart : Text → Option Int
  | [] => some 0
  | u :: t =>
    if u = unit 'e' ∨ u = unit 'E' then
      let (negative, digits) := match t with
        | v :: t' =>
          if v = unit '-' then (true, t') else if v = unit '+' then (false, t') else (false, t)
        | [] => (false, [])
      if digits ≠ [] ∧ digits.all isDigit then
        some (if negative then -decimalValue digits else decimalValue digits)
      else none
    else none

/-- `StrUnsignedDecimalLiteral`. -/
def unsignedDecimal (t : Text) : Option Float :=
  if t = js "Infinity" then some (1 / 0)
  else
    let (whole, rest) := spanDigits t
    let (fraction, rest) := match rest with
      | u :: rest' => if u = unit '.' then spanDigits rest' else ([], rest)
      | [] => ([], [])
    if whole = [] ∧ fraction = [] then none
    else (exponentPart rest).map fun e =>
      ofDecimal (decimalValue (whole ++ fraction)) (e - fraction.length)

def radixDigit (radix : Nat) (u : UInt16) : Option Nat :=
  let n := u.toNat
  let d := if isDigit u then some (n - 48)
    else if 97 ≤ n ∧ n ≤ 122 then some (n - 87)
    else if 65 ≤ n ∧ n ≤ 90 then some (n - 55)
    else none
  d.filter (· < radix)

def radixLiteral (radix : Nat) (t : Text) : Option Float :=
  if t = [] then none
  else (t.mapM (radixDigit radix)).map fun ds =>
    Float.ofNat (ds.foldl (fun n d => radix * n + d) 0)

/-- `Number(t)` for a string, with `none` for `NaN`. -/
def textToNumber (t : Text) : Option Float :=
  match trim t with
  | [] => some 0
  | u :: v :: rest =>
    if u = unit '0' ∧ (v = unit 'x' ∨ v = unit 'X') then radixLiteral 16 rest
    else if u = unit '0' ∧ (v = unit 'o' ∨ v = unit 'O') then radixLiteral 8 rest
    else if u = unit '0' ∧ (v = unit 'b' ∨ v = unit 'B') then radixLiteral 2 rest
    else if u = unit '-' then (unsignedDecimal (v :: rest)).map (-·)
    else if u = unit '+' then unsignedDecimal (v :: rest)
    else unsignedDecimal (u :: v :: rest)
  | t => unsignedDecimal t

end numbers

section values

/-- A value that `JSON.parse` returns. -/
inductive Value where
  | null
  | bool (b : Bool)
  | num (x : Float)
  | str (t : Text)
  | arr (xs : List Value)
  | obj (fields : List (Text × Value))

abbrev Obj := List (Text × Value)

/-- An exception of the language. -/
inductive JsError where
  | typeError (message : String)
  | referenceError (message : String)
  deriving DecidableEq, Repr

def Obj.has (o : Obj) (key : Text) : Bool := o.any (·.1 = key)

/-- The number of a key that is an array index, which objects list first. -/
def indexKey? (key : Text) : Option Nat :=
  if key ≠ [] ∧ key.all isDigit ∧ natToText (decimalValue key) = key ∧
      decimalValue key < 2 ^ 32 - 1 then
    some (decimalValue key)
  else none

/-- A new key goes behind the indices that are not greater, or to the end. -/
def Obj.insert (key : Text) (v : Value) : Obj → Obj
  | [] => [(key, v)]
  | (k, w) :: rest =>
    match indexKey? key, indexKey? k with
    | some i, some j =>
      if i < j then (key, v) :: (k, w) :: rest else (k, w) :: Obj.insert key v rest
    | some _, none => (key, v) :: (k, w) :: rest
    | none, _ => (k, w) :: Obj.insert key v rest

/-- `{ ...o, [key]: v }`. -/
def Obj.set (o : Obj) (key : Text) (v : Value) : Obj :=
  if o.has key then o.map fun kv => if kv.1 = key then (key, v) else kv
  else Obj.insert key v o

/-- `delete o[key]` on a copy. -/
def Obj.delete (o : Obj) (key : Text) : Obj := o.filter (·.1 ≠ key)

def joinWith (separator : Text) : List Text → Text
  | [] => []
  | [t] => t
  | t :: ts => t ++ separator ++ joinWith separator ts

mutual

/-- `ToString`. An own property `toString` hides the inherited method, and no property of
these values is callable. -/
def toText : Value → Except JsError Text
  | .null => .ok (js "null")
  | .bool b => .ok (js (if b then "true" else "false"))
  | .num x => .ok (numberToText x)
  | .str t => .ok t
  | .arr xs => (elementTexts xs).map (joinWith (js ","))
  | .obj fields =>
    if Obj.has fields (js "toString") then
      .error (.typeError "Cannot convert object to primitive value")
    else .ok (js "[object Object]")

/-- The elements as `join` prints them. -/
def elementTexts : List Value → Except JsError (List Text)
  | [] => .ok []
  | .null :: xs => (elementTexts xs).map ([] :: ·)
  | x :: xs => do
    let t ← toText x
    let ts ← elementTexts xs
    return t :: ts

end

/-- `Number(v)`, with `none` for `NaN`. -/
def toNumber : Value → Except JsError (Option Float)
  | .null => .ok (some 0)
  | .bool b => .ok (some (if b then 1 else 0))
  | .num x => .ok (if x.isNaN then none else some x)
  | v => (toText v).map textToNumber

def hexDigit (n : Nat) : UInt16 := unit (Nat.digitChar n)

def escapeUnit (u : UInt16) : Text :=
  let n := u.toNat
  js "\\u" ++ [hexDigit (n / 4096), hexDigit (n / 256 % 16), hexDigit (n / 16 % 16),
    hexDigit (n % 16)]

/-- The body of `QuoteJSONString`; a surrogate without its partner is escaped. -/
def quoteUnits : Text → Text
  | [] => []
  | [u] => quoteUnit u
  | u :: v :: t =>
    if 0xd800 ≤ u ∧ u < 0xdc00 ∧ 0xdc00 ≤ v ∧ v < 0xe000 then u :: v :: quoteUnits t
    else quoteUnit u ++ quoteUnits (v :: t)
where
  quoteUnit (u : UInt16) : Text :=
    if u = 8 then js "\\b" else if u = 9 then js "\\t" else if u = 10 then js "\\n"
    else if u = 12 then js "\\f" else if u = 13 then js "\\r"
    else if u = 34 then js "\\\"" else if u = 92 then js "\\\\"
    else if u < 32 ∨ (0xd800 ≤ u ∧ u < 0xe000) then escapeUnit u
    else [u]

def quote (t : Text) : Text := js "\"" ++ quoteUnits t ++ js "\""

mutual

/-- `JSON.stringify`. -/
def stringify : Value → Text
  | .null => js "null"
  | .bool b => js (if b then "true" else "false")
  | .num x => if x.isNaN || x.isInf then js "null" else numberToText x
  | .str t => quote t
  | .arr xs => js "[" ++ joinWith (js ",") (stringifyItems xs) ++ js "]"
  | .obj fields => js "\x7b" ++ joinWith (js ",") (stringifyFields fields) ++ js "\x7d"

def stringifyItems : List Value → List Text
  | [] => []
  | x :: xs => stringify x :: stringifyItems xs

def stringifyFields : List (Text × Value) → List Text
  | [] => []
  | (k, v) :: rest => (quote k ++ js ":" ++ stringify v) :: stringifyFields rest

end

end values

end JavaScript
