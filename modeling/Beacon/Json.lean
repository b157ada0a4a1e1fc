/-!
# Reading JSON text

Readers for the parts of a JSON text that a configuration is made of.  Each
takes the characters that are left and gives its value with the characters
after it, or nothing if they do not start with such a value.

A value that nobody asks for is only checked for its form: its numbers may be
of any size, and the halves of a surrogate pair may stand alone.
-/

namespace Beacon.Json

/-- Reads a value off the front of a text. -/
abbrev Reader (α : Type) := List Char → Option (α × List Char)

def isBlank (c : Char) : Bool :=
  c = ' ' || c = '\n' || c = '\t' || c = '\r'

def skipBlanks (cs : List Char) : List Char :=
  cs.dropWhile isBlank

/-- The text after blanks and the given character. -/
def expect (c : Char) (cs : List Char) : Option (List Char) :=
  match skipBlanks cs with
  | d :: rest => if d = c then some rest else none
  | [] => none

/-- The text after the given word, which stands at the very front. -/
def expectWord (word cs : List Char) : Option (List Char) :=
  word.isPrefixOf? cs

/-! ## Strings -/

/-- A piece of a string as it is written: a character or one unit of UTF-16. -/
inductive Piece where
  | char (c : Char)
  | unit (n : Nat)
  deriving DecidableEq, Repr

def hexValue (c : Char) : Option Nat :=
  if '0' ≤ c ∧ c ≤ '9' then some (c.toNat - 48)
  else if 'a' ≤ c ∧ c ≤ 'f' then some (c.toNat - 87)
  else if 'A' ≤ c ∧ c ≤ 'F' then some (c.toNat - 55)
  else none

def hexUnit (a b c d : Char) : Option Nat := do
  return (((← hexValue a) * 16 + (← hexValue b)) * 16 + (← hexValue c)) * 16 + (← hexValue d)

def escaped : Char → Option Char
  | '"' => some '"'
  | '\\' => some '\\'
  | '/' => some '/'
  | 'b' => some '\x08'
  | 'f' => some '\x0c'
  | 'n' => some '\n'
  | 'r' => some '\r'
  | 't' => some '\t'
  | _ => none

/-- The pieces of a string up to its closing quote. -/
def pieces : Reader (List Piece)
  | [] => none
  | '"' :: rest => some ([], rest)
  | '\\' :: 'u' :: a :: b :: c :: d :: rest => do
    let n ← hexUnit a b c d
    let (ps, rest) ← pieces rest
    return (.unit n :: ps, rest)
  | '\\' :: c :: rest => do
    let c ← escaped c
    let (ps, rest) ← pieces rest
    return (.char c :: ps, rest)
  | c :: rest =>
    if c = '\\' ∨ c.toNat < 0x20 then none
    else do
      let (ps, rest) ← pieces rest
      return (.char c :: ps, rest)

def isHighHalf (n : Nat) : Bool :=
  0xD800 ≤ n && n < 0xDC00

def isLowHalf (n : Nat) : Bool :=
  0xDC00 ≤ n && n < 0xE000

/-- The characters of a string; a half of a surrogate pair needs the other half. -/
def joinPieces : List Piece → Option (List Char)
  | [] => some []
  | .char c :: rest => (c :: ·) <$> joinPieces rest
  | .unit n :: .unit m :: rest =>
    if isHighHalf n then
      if isLowHalf m then
        (Char.ofNat (0x10000 + (n - 0xD800) * 0x400 + (m - 0xDC00)) :: ·) <$> joinPieces rest
      else none
    else if isLowHalf n then none
    else (Char.ofNat n :: ·) <$> joinPieces (.unit m :: rest)
  | .unit n :: rest =>
    if isHighHalf n || isLowHalf n then none else (Char.ofNat n :: ·) <$> joinPieces rest

def text : Reader String := fun cs => do
  let (ps, rest) ← pieces (← expect '"' cs)
  return (String.ofList (← joinPieces ps), rest)

/-! ## Numbers and constants -/

def digits : Reader (List Char) := fun cs =>
  match cs.takeWhile Char.isDigit with
  | [] => none
  | d :: more =>
    if d = '0' ∧ more ≠ [] then none
    else some (d :: more, cs.dropWhile Char.isDigit)

def digitsValue (ds : List Char) : Nat :=
  ds.foldl (fun n d => 10 * n + (d.toNat - 48)) 0

/-- Whether a number goes on with a fraction or an exponent. -/
def goesOn : List Char → Bool
  | c :: _ => c = '.' || c = 'e' || c = 'E'
  | [] => false

/-- A whole number written without fraction and exponent; zero has no sign. -/
def integer : Reader Int := fun cs =>
  match skipBlanks cs with
  | '-' :: rest => do
    let (ds, rest) ← digits rest
    if goesOn rest ∨ digitsValue ds = 0 then none
    else return (-(digitsValue ds : Int), rest)
  | rest => do
    let (ds, rest) ← digits rest
    if goesOn rest then none else return (digitsValue ds, rest)

def integerBetween (low high : Int) : Reader Int := fun cs => do
  let (n, rest) ← integer cs
  if low ≤ n ∧ n ≤ high then return (n, rest) else none

def boolean : Reader Bool := fun cs =>
  match skipBlanks cs with
  | 't' :: rest => (expectWord ['r', 'u', 'e'] rest).map (true, ·)
  | 'f' :: rest => (expectWord ['a', 'l', 's', 'e'] rest).map (false, ·)
  | _ => none

/-! ## Compound values -/

/-- `count` more items, each after a comma, and the closing bracket. -/
def moreItems {α : Type} (item : Reader α) : (count : Nat) → Reader (List α)
  | 0, cs => (expect ']' cs).map ([], ·)
  | count + 1, cs => do
    let (a, rest) ← item (← expect ',' cs)
    let (as, rest) ← moreItems item count rest
    return (a :: as, rest)

def array {α : Type} (n : Nat) (item : Reader α) : Reader (Vector α (n + 1)) := fun cs => do
  let (a, rest) ← item (← expect '[' cs)
  let (as, rest) ← moreItems item n rest
  if h : (a :: as).length = n + 1 then return (⟨(a :: as).toArray, h⟩, rest) else none

/-- One of several named values: its name, or an object with the name and null. -/
def choice {α : Type} (named : String → Option α) : Reader α := fun cs =>
  match skipBlanks cs with
  | '{' :: rest => do
    let (name, rest) ← text rest
    let a ← named name
    let rest ← expect 'n' (← expect ':' rest)
    let rest ← expect '}' (← expectWord ['u', 'l', 'l'] rest)
    return (a, rest)
  | rest => do
    let (name, rest) ← text rest
    return (← named name, rest)

/-! ## Values that nobody asks for -/

def skipDigits (cs : List Char) : Option (List Char) :=
  match cs with
  | c :: rest => if c.isDigit then some (rest.dropWhile Char.isDigit) else none
  | [] => none

def skipExponent (cs : List Char) : Option (List Char) :=
  match cs with
  | c :: rest =>
    if c = 'e' ∨ c = 'E' then
      match rest with
      | '+' :: rest => skipDigits rest
      | '-' :: rest => skipDigits rest
      | rest => skipDigits rest
    else some cs
  | [] => some cs

def skipNumber (cs : List Char) : Option (List Char) := do
  let (_, rest) ← digits cs
  match rest with
  | '.' :: rest => skipExponent (← skipDigits rest)
  | rest => skipExponent rest

/-- The text after a value that is no array and no object. -/
def skipScalar : List Char → Option (List Char)
  | 'n' :: rest => expectWord ['u', 'l', 'l'] rest
  | 't' :: rest => expectWord ['r', 'u', 'e'] rest
  | 'f' :: rest => expectWord ['a', 'l', 's', 'e'] rest
  | '"' :: rest => (pieces rest).map Prod.snd
  | '-' :: rest => skipNumber rest
  | rest => skipNumber rest

inductive Bracket where
  | square
  | curly
  deriving DecidableEq, Repr

/-- The text after the name of a member, if the bracket has named members. -/
def skipName : Bracket → List Char → Option (List Char)
  | .square, cs => some cs
  | .curly, cs => do
    let (_, rest) ← pieces (← expect '"' cs)
    expect ':' rest

def closing : Bracket → Char
  | .square => ']'
  | .curly => '}'

/-- Whether a value comes next or has just ended. -/
inductive Place where
  | before
  | after
  deriving DecidableEq, Repr

/-- Goes over values until all open brackets are closed; every step takes a character. -/
def skipNested : (fuel : Nat) → Place → List Bracket → List Char → Option (List Char)
  | 0, _, _, _ => none
  | fuel + 1, .before, brackets, cs =>
    let enter (b : Bracket) (rest : List Char) : Option (List Char) :=
      match expect (closing b) rest with
      | some rest => skipNested fuel .after brackets rest
      | none => do skipNested fuel .before (b :: brackets) (← skipName b rest)
    match skipBlanks cs with
    | '[' :: rest => enter .square rest
    | '{' :: rest => enter .curly rest
    | rest => do skipNested fuel .after brackets (← skipScalar rest)
  | _ + 1, .after, [], cs => some cs
  | fuel + 1, .after, b :: brackets, cs =>
    match skipBlanks cs with
    | c :: rest =>
      if c = ',' then do skipNested fuel .before (b :: brackets) (← skipName b rest)
      else if c = closing b then skipNested fuel .after brackets rest
      else none
    | [] => none

def skipValue (cs : List Char) : Option (List Char) :=
  skipNested (cs.length + 1) .before [] cs

end Beacon.Json
