import ADTimePix3.Acquire.TcpPath

/-!
# Decimal numbers

The numbers that `std::stoi` reads, and the way `std::to_string` writes them.
-/

namespace ADTimePix3.Acquire

/-- A decimal number. -/
structure Decimal (digits : List Char) (n : ℕ) : Prop where
  ne_nil : digits ≠ []
  isDigit : ∀ c ∈ digits, c.isDigit = true
  value : Nat.ofDigitChars 10 digits 0 = n

/-- The sign in front of a number. -/
inductive Sign where
  | none
  | plus
  | minus

def Sign.text : Sign → List Char
  | .none => []
  | .plus => ['+']
  | .minus => ['-']

def Sign.negative : Sign → Bool
  | .minus => true
  | _ => false

def Sign.value (sign : Sign) (n : ℕ) : ℤ := if sign.negative then -n else n

/-- A decimal number with an optional sign. -/
def Numeral (z : ℤ) (numeral : List Char) : Prop :=
  ∃ (sign : Sign) (digits : List Char) (n : ℕ),
    numeral = sign.text ++ digits ∧ Decimal digits n ∧ sign.value n = z

/-- Behind spaces there is a number, up to the last of its digits. -/
def Begins (z : ℤ) (s : List Char) : Prop :=
  ∃ spaces numeral rest : List Char, s = spaces ++ (numeral ++ rest) ∧ (∀ c ∈ spaces, isSpace c = true) ∧
    Numeral z numeral ∧ ∀ c ∈ rest.head?, c.isDigit = false

/-- `std::to_string` of an `int`. -/
def printInt : ℤ → List Char
  | .ofNat n => toString n
  | .negSucc n => '-' :: toString (n + 1)

end ADTimePix3.Acquire
