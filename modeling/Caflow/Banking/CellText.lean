import Caflow.Lib.IsoDate
import Caflow.Lib.Rounding
import Caflow.Text

namespace Caflow.Banking
open Text (isSpace strip)
open IsoDate (digits)
open Rounding (halfUp)

/-- The zeros of the scripts' digits: ten code points from each are its digits. -/
def digitZeros : List ℕ :=
  [0x30, 0x660, 0x6f0, 0x7c0, 0x966, 0x9e6, 0xa66, 0xae6, 0xb66, 0xbe6, 0xc66, 0xce6, 0xd66, 0xde6,
    0xe50, 0xed0, 0xf20, 0x1040, 0x1090, 0x17e0, 0x1810, 0x1946, 0x19d0, 0x1a80, 0x1a90, 0x1b50,
    0x1bb0, 0x1c40, 0x1c50, 0xa620, 0xa8d0, 0xa900, 0xa9d0, 0xa9f0, 0xaa50, 0xabf0, 0xff10, 0x104a0,
    0x10d30, 0x11066, 0x110f0, 0x11136, 0x111d0, 0x112f0, 0x11450, 0x114d0, 0x11650, 0x116c0,
    0x11730, 0x118e0, 0x11950, 0x11c50, 0x11d50, 0x11da0, 0x16a60, 0x16ac0, 0x16b50, 0x1d7ce,
    0x1d7d8, 0x1d7e2, 0x1d7ec, 0x1d7f6, 0x1e140, 0x1e2f0, 0x1e950, 0x1fbf0]

def digitValue (c : Char) : Option ℕ :=
  (digitZeros.find? fun z => z ≤ c.toNat && c.toNat < z + 10).map (c.toNat - ·)

def isDigit (c : Char) : Bool := (digitValue c).isSome

/-- What a run of digits writes. -/
def number (cs : List Char) : ℕ := cs.foldl (fun n c => 10 * n + (digitValue c).getD 0) 0

def lower (cs : List Char) : List Char := cs.map Char.toLower

/-! ### Dates -/

def digitRun (least most : ℕ) (cs : List Char) : Bool :=
  least ≤ cs.length && cs.length ≤ most && cs.all isDigit

def isoText (year : List Char) (month day : ℕ) : List Char :=
  year ++ '-' :: (digits 2 month ++ '-' :: digits 2 day)

def monthNames : List (List Char) :=
  ["jan", "feb", "mar", "apr", "may", "jun", "jul", "aug", "sep", "oct", "nov", "dec"].map String.toList

/-- Day, month and year in figures, with a slash, a hyphen or a dot between. -/
def numericDate (cs : List Char) : Option (List Char) :=
  match cs.splitOnP fun c => c = '/' || c = '-' || c = '.' with
  | [day, month, year] =>
    if digitRun 1 2 day && digitRun 1 2 month && digitRun 4 4 year then
      if 1 ≤ number day ∧ number day ≤ 31 ∧ 1 ≤ number month ∧ number month ≤ 12 then
        some (isoText year (number month) (number day))
      else none
    else none
  | _ => none

def isoShaped (cs : List Char) : Bool :=
  match cs.splitOnP (· = '-') with
  | [year, month, day] => digitRun 4 4 year && digitRun 2 2 month && digitRun 2 2 day
  | _ => false

/-- The month by its name. -/
def namedDate (cs : List Char) : Option (List Char) :=
  match cs.splitOnP fun c => c = ' ' || c = '-' with
  | [day, month, year] =>
    if digitRun 1 2 day && month.length = 3 && month.all Char.isAlpha && digitRun 4 4 year then
      (monthNames.findIdx? (· = lower month)).map fun i => isoText year (i + 1) (number day)
    else none
  | _ => none

def toIsoDate (cell : Option String) : Option String :=
  match cell with
  | none => none
  | some s =>
    let cs := (strip s).toList
    if cs = [] then none
    else
      match numericDate cs with
      | some iso => some (String.ofList iso)
      | none =>
        if isoShaped cs then some (String.ofList cs) else (namedDate cs).map String.ofList

/-! ### Amounts -/

/-- What the decimal reader makes of a text that it reads. -/
inductive DecimalRead where
  | finite (negative : Bool) (coefficient : ℕ) (exponent : ℤ)
  | infinite
  | nan

def numDigits (n : ℕ) : ℕ := (Nat.digits 10 n).length

def splitSign (cs : List Char) : Bool × List Char :=
  match cs with
  | '+' :: rest => (false, rest)
  | '-' :: rest => (true, rest)
  | _ => (false, cs)

/-- Digits with at most one point among them, and how many follow it. -/
def readMantissa (cs : List Char) : Option (ℕ × ℕ) :=
  match cs.splitOnP (· = '.') with
  | [whole] => if whole ≠ [] ∧ whole.all isDigit then some (number whole, 0) else none
  | [whole, fraction] =>
    if whole ++ fraction ≠ [] ∧ (whole ++ fraction).all isDigit then
      some (number (whole ++ fraction), fraction.length)
    else none
  | _ => none

def readExponent (cs : List Char) : Option ℤ :=
  let (negative, figures) := splitSign cs
  if figures ≠ [] ∧ figures.all isDigit then
    some (if negative then -(number figures : ℤ) else number figures)
  else none

/-- The largest exponent a decimal may have. -/
def maxEmax : ℤ := 999999999999999999

/-- A mantissa and, after an e, its exponent. -/
def splitScale (cs : List Char) : Option (List Char × Option ℤ) :=
  match cs.splitOnP fun c => c = 'e' || c = 'E' with
  | [mantissa] => some (mantissa, some 0)
  | [mantissa, exponent] => some (mantissa, readExponent exponent)
  | _ => none

def readFinite (negative : Bool) (cs : List Char) : Option DecimalRead :=
  match splitScale cs with
  | some (mantissa, some exponent) =>
    match readMantissa mantissa with
    | some (coefficient, places) =>
      if coefficient ≠ 0 ∧ maxEmax < exponent - places + numDigits coefficient - 1 then none
      else some (.finite negative coefficient (exponent - places))
    | none => none
  | _ => none

def isNan (cs : List Char) : Bool :=
  match lower cs with
  | 's' :: 'n' :: 'a' :: 'n' :: _ => (cs.drop 4).all isDigit
  | 'n' :: 'a' :: 'n' :: _ => (cs.drop 3).all isDigit
  | _ => false

def readBody (negative : Bool) (body : List Char) : Option DecimalRead :=
  if lower body = "inf".toList ∨ lower body = "infinity".toList then some .infinite
  else if isNan body then some .nan
  else readFinite negative body

def readDecimal (cs : List Char) : Option DecimalRead :=
  let (negative, body) := splitSign (cs.filter (· ≠ '_'))
  readBody negative body

/-- Decimal arithmetic keeps 28 digits, a half to the even one. -/
def significant (coefficient : ℕ) (exponent : ℤ) : ℕ × ℤ :=
  let extra := numDigits coefficient - 28
  let quotient := coefficient / 10 ^ extra
  let rest := coefficient % 10 ^ extra
  (if 10 ^ extra < 2 * rest ∨ 10 ^ extra = 2 * rest ∧ quotient % 2 = 1 then quotient + 1 else quotient,
    exponent + extra)

def decimalValue (d : ℕ × ℤ) : ℚ := d.1 * (10 : ℚ) ^ d.2

/-- A hundred times the figure passes the largest exponent of the arithmetic. -/
def overflows (d : ℕ × ℤ) : Bool := d.1 ≠ 0 && 999999 < d.2 + numDigits d.1 - 1 + 2

/-- Whole paise, and none where they need more than 28 digits. -/
def quantized (d : ℕ × ℤ) : ℤ :=
  let paise := halfUp (100 * decimalValue d)
  if 10 ^ 28 ≤ paise then 0 else paise

/-- The errors that leave the reading of a table. -/
inductive Raised where
  | statementParseError (text : String)
  | invalidOperation
  | overflow
  deriving DecidableEq

def cleaned (s : String) : List Char :=
  (strip s).toList.filter fun c => !(c = '₹' || c = ',' || isSpace c)

inductive Marker where
  | dr
  | cr

/-- The text before a trailing Dr or Cr, and which it is. -/
def splitMarker (cs : List Char) : Option Marker × List Char :=
  let last := lower (cs.drop (cs.length - 2))
  if last = "dr".toList then (some .dr, cs.take (cs.length - 2))
  else if last = "cr".toList then (some .cr, cs.take (cs.length - 2))
  else (none, cs)

def isParen (c : Char) : Bool := c = '(' || c = ')'

def stripParens (cs : List Char) : List Char := (cs.dropWhile isParen).rdropWhile isParen

/-- Paise from a money cell. The comparison with zero stands before what is caught, so a text that
reads as not a number gets out of it, and so does a figure past the range. -/
def toPaise (cell : Option String) : Except Raised ℤ :=
  match cell with
  | none => .ok 0
  | some s =>
    if (strip s).toList = [] ∨ (strip s).toList = ['-'] then .ok 0
    else
      let (marker, cs) := splitMarker (cleaned s)
      let inParens := cs.head? = some '(' && cs.getLast? = some ')'
      match readDecimal (stripParens cs) with
      | none => .ok 0
      | some .nan => .error .invalidOperation
      | some .infinite => .ok 0
      | some (.finite negative coefficient exponent) =>
        if overflows (significant coefficient exponent) then .error .overflow
        else
          let paise := quantized (significant coefficient exponent)
          let negates := match marker with
            | some .dr => true
            | some .cr => false
            | none => inParens || (negative && coefficient ≠ 0)
          .ok (if negates then -paise else paise)

end Caflow.Banking
