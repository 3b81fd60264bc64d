import ScreenLocker.Json.Value
import ScreenLocker.Text.Hex

/-! Reading JSON text. Each reader takes what it needs from the front of the text and returns the rest. -/

namespace ScreenLocker.Json

abbrev Reader (α : Type) := List Char → Option (α × List Char)

def isSpace (c : Char) : Bool := c = ' ' || c = '\t' || c = '\n' || c = '\r'

def skipSpace (cs : List Char) : List Char := cs.dropWhile isSpace

def isDigit (c : Char) : Bool := '0' ≤ c && c ≤ '9'

def digits (cs : List Char) : List Char × List Char := (cs.takeWhile isDigit, cs.dropWhile isDigit)

def natOf (cs : List Char) : Nat := cs.foldl (fun n c => 10 * n + (c.toNat - 48)) 0

/-- A fraction, if one follows: whether it does, and the rest. -/
def fraction : Reader Bool
  | '.' :: rest =>
    let (ds, rest) := digits rest
    if ds.isEmpty then none else some (true, rest)
  | cs => some (false, cs)

def exponent : Reader Bool
  | c :: rest =>
    if c = 'e' || c = 'E' then
      let rest := match rest with
        | '+' :: r => r
        | '-' :: r => r
        | r => r
      let (ds, rest) := digits rest
      if ds.isEmpty then none else some (true, rest)
    else some (false, c :: rest)
  | [] => some (false, [])

/-- A number. Minus zero is no integer. -/
def number (cs : List Char) : Option (Value × List Char) := do
  let (negative, cs) := match cs with
    | '-' :: rest => (true, rest)
    | cs => (false, cs)
  let (ds, rest) := digits cs
  if ds.isEmpty || (ds.head? = some '0' && 1 < ds.length) then none
  let (fractional, rest) ← fraction rest
  let (scaled, rest) ← exponent rest
  let n := natOf ds
  if fractional || scaled || (negative && n = 0) then pure (.real, rest)
  else pure (.int (if negative then -n else n), rest)

/-- One place of a string: a character, or a code unit that was escaped by number. -/
inductive Unit16 where
  | char (c : Char)
  | unit (n : Nat)

/-- The places of a string up to its closing quote. -/
def places : Reader (List Unit16)
  | '"' :: rest => some ([], rest)
  | '\\' :: 'u' :: a :: b :: c :: d :: rest => do
    let n ← Hex.read? [a, b, c, d]
    let (more, rest) ← places rest
    pure (.unit n :: more, rest)
  | '\\' :: c :: rest => do
    let char ← [('"', '"'), ('\\', '\\'), ('/', '/'), ('b', '\x08'), ('f', '\x0c'), ('n', '\n'), ('r', '\r'),
      ('t', '\t')].lookup c
    let (more, rest) ← places rest
    pure (.char char :: more, rest)
  | c :: rest =>
    if c.toNat < 0x20 then none
    else do
      let (more, rest) ← places rest
      pure (.char c :: more, rest)
  | [] => none

def isHighSurrogate (n : Nat) : Bool := 0xD800 ≤ n && n ≤ 0xDBFF

def isLowSurrogate (n : Nat) : Bool := 0xDC00 ≤ n && n ≤ 0xDFFF

/-- The characters of a string; escaped surrogates must come in pairs. -/
def decode : List Unit16 → Option (List Char)
  | [] => some []
  | .char c :: rest => (decode rest).map (c :: ·)
  | .unit high :: .unit low :: rest =>
    if isHighSurrogate high then
      if isLowSurrogate low then
        (decode rest).map (Char.ofNat (0x10000 + 0x400 * (high - 0xD800) + (low - 0xDC00)) :: ·)
      else none
    else if isLowSurrogate high then none
    else (decode (.unit low :: rest)).map (Char.ofNat high :: ·)
  | .unit n :: rest =>
    if isHighSurrogate n || isLowSurrogate n then none else (decode rest).map (Char.ofNat n :: ·)

def string (cs : List Char) : Option (Option String × List Char) :=
  (places cs).map fun (ps, rest) => ((decode ps).map String.ofList, rest)

def literal (word : List Char) (v : Value) (cs : List Char) : Option (Value × List Char) :=
  if word.isPrefixOf cs then some (v, cs.drop word.length) else none

mutual

/-- A value. Every value that holds others opens with a character of its own, so the length of the text bounds
how deep they lie and how many there are. -/
def value : (fuel : Nat) → List Char → Option (Value × List Char)
  | 0, _ => none
  | fuel + 1, cs =>
    match skipSpace cs with
    | '\x7b' :: rest =>
      match skipSpace rest with
      | '\x7d' :: rest => some (.obj [], rest)
      | rest => (members fuel rest).map fun (ms, rest) => (.obj ms, rest)
    | '[' :: rest =>
      match skipSpace rest with
      | ']' :: rest => some (.arr [], rest)
      | rest => (elements fuel rest).map fun (vs, rest) => (.arr vs, rest)
    | '"' :: rest => (string rest).map fun (s, rest) => (.str s, rest)
    | 't' :: rest => literal ['r', 'u', 'e'] (.bool true) rest
    | 'f' :: rest => literal ['a', 'l', 's', 'e'] (.bool false) rest
    | 'n' :: rest => literal ['u', 'l', 'l'] .null rest
    | cs => number cs

def elements : (fuel : Nat) → List Char → Option (List Value × List Char)
  | 0, _ => none
  | fuel + 1, cs => do
    let (v, rest) ← value fuel cs
    match skipSpace rest with
    | ',' :: rest =>
      let (vs, rest) ← elements fuel rest
      pure (v :: vs, rest)
    | ']' :: rest => pure ([v], rest)
    | _ => none

def members : (fuel : Nat) → List Char → Option (List (Option String × Value) × List Char)
  | 0, _ => none
  | fuel + 1, cs => do
    let '"' :: rest := skipSpace cs | none
    let (key, rest) ← string rest
    let ':' :: rest := skipSpace rest | none
    let (v, rest) ← value fuel rest
    match skipSpace rest with
    | ',' :: rest =>
      let (ms, rest) ← members fuel rest
      pure ((key, v) :: ms, rest)
    | '\x7d' :: rest => pure ([(key, v)], rest)
    | _ => none

end

/-- The value that a whole text denotes. -/
def parse? (text : String) : Option Value := do
  let cs := text.toList
  let (v, rest) ← value (2 * cs.length + 2) cs
  if (skipSpace rest).isEmpty then some v else none

end ScreenLocker.Json
