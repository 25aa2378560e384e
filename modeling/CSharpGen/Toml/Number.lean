/-!
# Numbers

The form of a number, which tells it from other words, and the whole number that a form denotes.
The two are apart: the form is looked at for every number of a document, and its value only where
one is wanted, so a word may have the form of a number and denote none.
-/

namespace CSharpGen.Toml

/-- The value of a digit in a base of at most sixteen. -/
def digit? (base : Nat) (c : Char) : Option Nat :=
  let value :=
    if c.isDigit then some (c.toNat - '0'.toNat)
    else if 'a' ≤ c && c ≤ 'f' then some (c.toNat - 'a'.toNat + 10)
    else if 'A' ≤ c && c ≤ 'F' then some (c.toNat - 'A'.toNat + 10)
    else none
  value.filter (· < base)

/-- The characters after a sign, if there is one. -/
def withoutSign : List Char → List Char
  | '+' :: rest | '-' :: rest => rest
  | cs => cs

namespace Number

/-- Whether each underscore has digits of the base on both sides. `afterDigit` tells whether a digit
stands right before the characters. -/
def separates (base : Nat) : (afterDigit : Bool) → List Char → Bool
  | _, [] => true
  | afterDigit, '_' :: rest =>
    afterDigit && rest.head?.any (fun c => (digit? base c).isSome) && separates base false rest
  | _, c :: rest => separates base (digit? base c).isSome rest

/-- What follows digits and underscores, of which at least one is a digit. -/
def afterDigits? (cs : List Char) : Option (List Char) :=
  let (digits, rest) := cs.span fun c => c.isDigit || c == '_'
  if digits.any Char.isDigit then some rest else none

/-- What follows a fraction, which may be left out. -/
def afterFraction? : List Char → Option (List Char)
  | '.' :: rest => afterDigits? rest
  | cs => some cs

/-- What follows an exponent, which may be left out. -/
def afterExponent? : List Char → Option (List Char)
  | 'e' :: rest | 'E' :: rest => afterDigits? (withoutSign rest)
  | cs => some cs

/-- A zero stands in front of a number only alone. -/
def hasLeadingZero : List Char → Bool
  | '0' :: c :: _ => c.isDigit || c == '_'
  | _ => false

/-- Whether the characters are decimal digits with an optional fraction and exponent. -/
def isDecimal (cs : List Char) : Bool :=
  !hasLeadingZero (withoutSign cs) && separates 10 false cs
    && (do afterExponent? (← afterFraction? (← afterDigits? (withoutSign cs)))) == some []

/-- Whether the characters are digits of a base after the prefix that names it. There may be none,
and such a number has no sign. -/
def isPrefixed : List Char → Bool
  | '0' :: mark :: digits =>
    match [('x', 16), ('o', 8), ('b', 2)].lookup mark with
    | some base =>
      separates base false digits && digits.all fun c => c == '_' || (digit? base c).isSome
    | none => false
  | _ => false

/-- Whether an underscore shows that the characters are meant as a whole number: it follows the
first digits, all underscores stand between digits of base sixteen, and nothing makes the characters
a date or a fraction. -/
def isSeparated (cs : List Char) : Bool :=
  let rest := (withoutSign cs).dropWhile Char.isDigit
  !hasLeadingZero (withoutSign cs) && separates 16 false cs && rest.head? == some '_'
    && !rest.any fun c => c == '.' || c == 'e' || c == 'E' || c == ' '

/-- Whether the characters have the form of a number. The infinities are numbers, and so is the
result of an undefined operation. -/
def isNumber (cs : List Char) : Bool :=
  isDecimal cs || isPrefixed cs || isSeparated cs
    || [['i', 'n', 'f'], ['n', 'a', 'n']].contains (withoutSign cs)

/-- The number that digits of a base denote, of which there is at least one. -/
def ofDigits? (base : Nat) (cs : List Char) : Option Nat :=
  if cs.isEmpty then none
  else cs.foldlM (fun value c => (digit? base c).map (value * base + ·)) 0

/-- The whole number of any size that the form of a number denotes. -/
def whole? (cs : List Char) : Option Int :=
  match cs.filter (· != '_') with
  | '0' :: 'x' :: digits => (ofDigits? 16 digits).map Int.ofNat
  | '0' :: 'o' :: digits => (ofDigits? 8 digits).map Int.ofNat
  | '0' :: 'b' :: digits => (ofDigits? 2 digits).map Int.ofNat
  | '-' :: digits => (ofDigits? 10 digits).map fun n => -(n : Int)
  | '+' :: digits => (ofDigits? 10 digits).map Int.ofNat
  | digits => (ofDigits? 10 digits).map Int.ofNat

end Number

end CSharpGen.Toml
