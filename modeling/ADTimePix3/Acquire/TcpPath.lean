import Mathlib.Algebra.Group.Int.Defs
import Mathlib.Data.Int.Notation
import Mathlib.Data.List.Basic

/-!
# TCP paths

`ADTimePix::parseTcpPath` (`serval_stream.cpp`) and `makeListenTcpPath` (`acquire.cpp`), over strings as lists
of characters, and `std::stoi` as far as it is used.
-/

namespace ADTimePix3.Acquire

/-! ## Numbers -/

def isSpace (c : Char) : Bool := c.toNat = 32 || (9 ≤ c.toNat && c.toNat ≤ 13)

/-- The sign that a number may start with, and what follows. -/
def splitSign : List Char → Bool × List Char
  | '-' :: s => (true, s)
  | '+' :: s => (false, s)
  | s => (false, s)

/-- `std::stoi`: leading spaces, a sign, and at least one digit; what follows the digits is ignored. No result
is an exception. -/
def stoi (s : List Char) : Option ℤ :=
  let (negative, s) := splitSign (s.dropWhile isSpace)
  let digits := s.takeWhile Char.isDigit
  let n : ℕ := Nat.ofDigitChars 10 digits 0
  let z : ℤ := if negative then -n else n
  if digits ≠ [] ∧ -2 ^ 31 ≤ z ∧ z < 2 ^ 31 then some z else none

/-- `std::to_string`. -/
def toString (n : ℕ) : List Char := Nat.toDigits 10 n

/-! ## Paths -/

/-- What lies before and behind the first `c`. -/
def splitFirst (c : Char) (s : List Char) : Option (List Char × List Char) :=
  if c ∈ s then some (s.takeWhile (· ≠ c), (s.dropWhile (· ≠ c)).tail) else none

/-- A host and a port. -/
structure Endpoint where
  host : List Char
  port : ℕ
deriving DecidableEq

/-- What lies behind `listen@`. -/
def skipListen (remaining : List Char) : List Char :=
  match splitFirst '@' remaining with
  | some (_, rest) => rest
  | none => remaining

def parseHostPort (remaining : List Char) : Option Endpoint :=
  match splitFirst ':' remaining with
  | none => none
  | some (host, port_str) =>
    match stoi port_str with
    | none => none
    | some port => if port < 1 ∨ port > 65535 then none else some ⟨host, port.toNat⟩

/-- `tcp://listen@hostname:port` or `tcp://hostname:port`. -/
def parseTcpPath (filePath : List Char) : Option Endpoint :=
  if "tcp://".toList.isPrefixOf filePath then parseHostPort (skipListen (filePath.drop 6)) else none

def makeListenTcpPath (host : List Char) (port : ℕ) : List Char :=
  "tcp://listen@".toList ++ host ++ ':' :: toString port

end ADTimePix3.Acquire
