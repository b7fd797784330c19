import ADTimePix3.Acquire.Numerals
import ADTimePix3.Lib.MachineInt
import ADTimePix3.Serval.Destination

/-!
# Threshold lists

The grammar of the lists that `parseThresholdList` reads: numbers with commas between them. The parser passes over
items of blanks only, so that commas may also stand at the ends or next to each other; and `std::stoi` takes any
white space in front of a number and any text behind its digits (`Plain` says that an item has neither).
-/

namespace ADTimePix3.Serval.Thresholds

open Acquire (Numeral Begins printInt)
open MachineInt (Fits)
open ADTimePix3.Stream (Json)

def isBlank (c : Char) : Bool := c = ' ' || c.toNat = 9

def Blank (s : List Char) : Prop := ∀ c ∈ s, isBlank c = true

/-- A decimal 32-bit integer with blanks around it. -/
def Item (z : ℤ) (item : List Char) : Prop :=
  ∃ before numeral behind : List Char, item = before ++ (numeral ++ behind) ∧ Blank before ∧ Blank behind ∧
    Numeral z numeral ∧ Fits z

/-- One or more integers with commas between them. -/
def InGrammar (numbers : List ℤ) (text : String) : Prop :=
  numbers ≠ [] ∧ ∃ items, text.toList = [','].intercalate items ∧ List.Forall₂ Item numbers items

/-- An item of a list in which items may be left out. -/
def Entry : Option ℤ → List Char → Prop
  | none, item => Blank item
  | some z, item => Item z item

/-- One or more integers with commas between them, and blank items anywhere. -/
def InLooseGrammar (numbers : List ℤ) (text : String) : Prop :=
  numbers ≠ [] ∧ ∃ entries items, text.toList = [','].intercalate items ∧ List.Forall₂ Entry entries items ∧
    entries.reduceOption = numbers

/-- If the item begins with a number, there are only blanks around it. -/
def Plain (item : List Char) : Prop :=
  ∀ (z : ℤ) (spaces numeral rest : List Char), item = spaces ++ (numeral ++ rest) →
    (∀ c ∈ spaces, Acquire.isSpace c = true) → Numeral z numeral → (∀ c ∈ rest.head?, c.isDigit = false) →
    Blank spaces ∧ Blank rest

/-- There is something in the item, but it does not begin with a 32-bit integer. -/
def Malformed (item : List Char) : Prop := ¬ Blank item ∧ ∀ z, Fits z → ¬ Begins z item

/-- What is sent for a list. -/
def thsArr (numbers : List ℤ) : Json := .array (numbers.map .number_integer)

/-- A number as it is printed, with something around it. -/
structure Padded where
  before : List Char
  number : ℤ
  behind : List Char

def Padded.text (p : Padded) : List Char := p.before ++ (printInt p.number ++ p.behind)

structure Padded.Valid (p : Padded) : Prop where
  before : Blank p.before
  number : Fits p.number
  behind : Blank p.behind

def printed (padded : List Padded) : String := String.ofList ([','].intercalate (padded.map Padded.text))

/-- The image channels of a destination. -/
def imageParams (p : DestinationParams) : List ImageParams := [p.img, p.img1, p.prvImg, p.prvImg1]

end ADTimePix3.Serval.Thresholds
