import ThermalLabel.Json.Basic
import ThermalLabel.Text.Numeral
/-!
# Reading JSON

The reader takes one value and nothing but blanks around it. Besides the standard grammar it knows
the names `NaN`, `Infinity` and `-Infinity`. A refusal reports the offset of the character that
could not be read; inside, a position is the number of characters still to come.
-/

namespace ThermalLabel.Json

/-- A reader's outcome: a value and the rest of the text, or how much text was left at the fault. -/
abbrev Step (α : Type) := Except Nat (α × List Char)

def isSpace (c : Char) : Bool := c = ' ' || c = '\t' || c = '\n' || c = '\r'

def skipSpace (cs : List Char) : List Char := cs.dropWhile isSpace

def hexDigit? (c : Char) : Option Nat :=
  if '0' ≤ c ∧ c ≤ '9' then some (c.toNat - '0'.toNat)
  else if 'a' ≤ c ∧ c ≤ 'f' then some (c.toNat - 'a'.toNat + 10)
  else if 'A' ≤ c ∧ c ≤ 'F' then some (c.toNat - 'A'.toNat + 10)
  else none

/-- Four hexadecimal digits at the front of a text, of which at least one more character remains. -/
def fourDigits? : List Char → Option (Nat × List Char)
  | a :: b :: c :: d :: e :: rest => do
    let a ← hexDigit? a
    let b ← hexDigit? b
    let c ← hexDigit? c
    let d ← hexDigit? d
    return (((a * 16 + b) * 16 + c) * 16 + d, e :: rest)
  | _ => none

def isHighSurrogate (n : Nat) : Bool := 0xD800 ≤ n && n ≤ 0xDBFF

def isLowSurrogate (n : Nat) : Bool := 0xDC00 ≤ n && n ≤ 0xDFFF

/-- The code point behind a backslash and `u`. A high surrogate takes the low one that follows. -/
def unicodeEscape (cs : List Char) : Step CodePoint :=
  match fourDigits? cs with
  | none => .error (cs.length + 1)
  | some (high, rest) =>
    match isHighSurrogate high, rest with
    | true, '\\' :: 'u' :: more =>
      if more.length ≤ 4 then .ok (.ofCode high, rest)
      else match fourDigits? more with
        | none => .error (more.length + 1)
        | some (low, rest') =>
          if isLowSurrogate low then
            .ok (.ofCode (0x10000 + (high - 0xD800) * 0x400 + (low - 0xDC00)), rest')
          else .ok (.ofCode high, rest)
    | _, _ => .ok (.ofCode high, rest)

/-- The character behind a backslash, other than `u`. -/
def simpleEscape? : Char → Option Char
  | '"' => some '"'
  | '\\' => some '\\'
  | '/' => some '/'
  | 'b' => some '\x08'
  | 'f' => some '\x0c'
  | 'n' => some '\n'
  | 'r' => some '\r'
  | 't' => some '\t'
  | _ => none

/-- The code points of a text up to its closing quote, given how much was left at the opening. -/
def stringBody (opening : Nat) : Nat → List CodePoint → List Char → Step Text
  | 0, _, _ => .error opening
  | _, _, [] => .error opening
  | _, acc, '"' :: rest => .ok (.ofPoints acc.reverse, rest)
  | _, _, ['\\'] => .error opening
  | fuel + 1, acc, '\\' :: 'u' :: rest =>
    match unicodeEscape rest with
    | .error left => .error left
    | .ok (p, rest) => stringBody opening fuel (p :: acc) rest
  | fuel + 1, acc, '\\' :: c :: rest =>
    match simpleEscape? c with
    | none => .error (rest.length + 2)
    | some c => stringBody opening fuel (c :: acc) rest
  | fuel + 1, acc, c :: rest =>
    if c.toNat ≤ 0x1F then .error (rest.length + 1)
    else stringBody opening fuel (c :: acc) rest

def stringAfterQuote (cs : List Char) : Step Text :=
  stringBody (cs.length + 1) (cs.length + 1) [] cs

/-- The fraction of a number: a point with at least one digit. -/
def fraction : List Char → List Char × List Char
  | '.' :: c :: rest =>
    if c.isDigit then ((c :: rest).takeWhile Char.isDigit, (c :: rest).dropWhile Char.isDigit)
    else ([], '.' :: c :: rest)
  | cs => ([], cs)

/-- The exponent of a number, if a complete one follows. -/
def exponent? (cs : List Char) : Option (Int × List Char) :=
  match cs with
  | c :: rest =>
    if c = 'e' ∨ c = 'E' then
      let (negative, body) := splitSign rest
      let ds := body.takeWhile Char.isDigit
      if ds = [] then none
      else some (if negative then -(digitsValue ds : Int) else digitsValue ds,
        body.dropWhile Char.isDigit)
    else none
  | [] => none

/-- The whole digits of a number: a single zero, or digits that start with another. -/
def wholeDigits : List Char → List Char × List Char
  | '0' :: rest => (['0'], rest)
  | cs => (cs.takeWhile Char.isDigit, cs.dropWhile Char.isDigit)

/-- A number: an integer unless a fraction or an exponent follows. -/
def number (cs : List Char) : Step Json :=
  let (negative, body) := match cs with
    | '-' :: rest => (true, rest)
    | _ => (false, cs)
  let (whole, rest) := wholeDigits body
  if whole = [] then .error cs.length
  else
    let (frac, rest) := fraction rest
    match frac, exponent? rest with
    | [], none =>
      let n : Int := digitsValue whole
      .ok (.int (if negative then -n else n), rest)
    | _, none =>
      .ok (.float (scientific negative (digitsValue (whole ++ frac)) (-frac.length)), rest)
    | _, some (e, rest) =>
      .ok (.float (scientific negative (digitsValue (whole ++ frac)) (e - frac.length)), rest)

def scalar (cs : List Char) : Step Json :=
  match cs with
  | 'n' :: 'u' :: 'l' :: 'l' :: rest => .ok (.null, rest)
  | 't' :: 'r' :: 'u' :: 'e' :: rest => .ok (.bool true, rest)
  | 'f' :: 'a' :: 'l' :: 's' :: 'e' :: rest => .ok (.bool false, rest)
  | 'N' :: 'a' :: 'N' :: rest => .ok (.float notANumber, rest)
  | 'I' :: 'n' :: 'f' :: 'i' :: 'n' :: 'i' :: 't' :: 'y' :: rest => .ok (.float infinity, rest)
  | '-' :: 'I' :: 'n' :: 'f' :: 'i' :: 'n' :: 'i' :: 't' :: 'y' :: rest =>
    .ok (.float (-infinity), rest)
  | _ => number cs

mutual

/-- One value. The fuel bounds the nesting and the number of parts together. -/
def value : Nat → List Char → Step Json
  | 0, cs => .error cs.length
  | fuel + 1, cs =>
    match cs with
    | '"' :: rest =>
      match stringAfterQuote rest with
      | .error left => .error left
      | .ok (s, rest) => .ok (.str s, rest)
    | '[' :: rest =>
      match skipSpace rest with
      | ']' :: rest => .ok (.arr [], rest)
      | rest => items fuel [] rest
    | '\x7b' :: rest =>
      match skipSpace rest with
      | '\x7d' :: rest => .ok (.obj [], rest)
      | rest => members fuel [] rest
    | _ => scalar cs

/-- The items of an array from one item on, given those before it in reverse. -/
def items : Nat → List Json → List Char → Step Json
  | 0, _, cs => .error cs.length
  | fuel + 1, acc, cs =>
    match value fuel cs with
    | .error left => .error left
    | .ok (v, rest) =>
      match skipSpace rest with
      | ']' :: rest => .ok (.arr (v :: acc).reverse, rest)
      | ',' :: rest => items fuel (v :: acc) (skipSpace rest)
      | rest => .error rest.length

/-- The members of an object from one key on, given those before it. A key is a name, and no name
has a half of a surrogate pair in it; one in a key is replaced. -/
def members : Nat → List (String × Json) → List Char → Step Json
  | 0, _, cs => .error cs.length
  | fuel + 1, acc, cs =>
    match cs with
    | '"' :: rest =>
      match stringAfterQuote rest with
      | .error left => .error left
      | .ok (key, rest) =>
        match skipSpace rest with
        | ':' :: rest =>
          match value fuel (skipSpace rest) with
          | .error left => .error left
          | .ok (v, rest) =>
            match skipSpace rest with
            | '\x7d' :: rest => .ok (.obj (put key.shown v acc), rest)
            | ',' :: rest => members fuel (put key.shown v acc) (skipSpace rest)
            | rest => .error rest.length
        | rest => .error rest.length
    | _ => .error cs.length

end

/-- A whole text as one value, or the offset of the character that could not be read. -/
def parse (text : String) : Except Nat Json :=
  let cs := text.toList
  match value (2 * cs.length + 2) (skipSpace cs) with
  | .error left => .error (cs.length - left)
  | .ok (v, rest) =>
    match skipSpace rest with
    | [] => .ok v
    | rest => .error (cs.length - rest.length)

end ThermalLabel.Json
