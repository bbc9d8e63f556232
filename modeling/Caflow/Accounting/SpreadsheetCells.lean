import Caflow.Banking.CellText

namespace Caflow.Accounting
open Banking (digitRun number isDigit)
open IsoDate (Date monthDays)
open Text (strip squeeze)

/-- A year, a month and a day that are on the calendar. -/
def dateOf (year month day : ℕ) : Option Date :=
  if h : (1 ≤ year ∧ year ≤ 9999) ∧ (1 ≤ month ∧ month ≤ 12) ∧ 1 ≤ day ∧ day ≤ monthDays year month then
    some ⟨year, month, day, h.1.1, h.1.2, h.2.1.1, h.2.1.2, h.2.2.1, h.2.2.2⟩
  else none

def months : List (String × ℕ) :=
  [("jan", 1), ("january", 1), ("feb", 2), ("february", 2), ("mar", 3), ("march", 3), ("apr", 4),
    ("april", 4), ("may", 5), ("jun", 6), ("june", 6), ("jul", 7), ("july", 7), ("aug", 8),
    ("august", 8), ("sep", 9), ("sept", 9), ("september", 9), ("oct", 10), ("october", 10),
    ("nov", 11), ("november", 11), ("dec", 12), ("december", 12)]

/-- What may follow an ISO date: nothing, or a time of the day. -/
def timeShaped (cs : List Char) : Bool :=
  match cs with
  | [] => true
  | c :: time =>
    (c = ' ' || c = 'T') &&
      match time.splitOnP (· = ':') with
      | [hour, minute] => digitRun 1 2 hour && digitRun 2 2 minute
      | [hour, minute, second] =>
        digitRun 1 2 hour && digitRun 2 2 minute &&
          match second.splitOnP (· = '.') with
          | [whole] => digitRun 2 2 whole
          | [whole, fraction] => digitRun 2 2 whole && !fraction.isEmpty && fraction.all isDigit
          | _ => false
      | _ => false

/-- Year, month and day of the ISO shape, a time after them or not. -/
def isoParts (cs : List Char) : Option (ℕ × ℕ × ℕ) :=
  match cs.splitOnP (· = '-') with
  | [year, month, rest] =>
    let day := rest.takeWhile isDigit
    if digitRun 4 4 year && digitRun 1 2 month && digitRun 1 2 day &&
        timeShaped (rest.dropWhile isDigit) then
      some (number year, number month, number day)
    else none
  | _ => none

/-- Day, month and year in figures. -/
def dayFirstParts (cs : List Char) : Option (ℕ × ℕ × ℕ) :=
  match cs.splitOnP fun c => c = '/' || c = '-' || c = '.' with
  | [day, month, year] =>
    if digitRun 1 2 day && digitRun 1 2 month && digitRun 4 4 year then
      some (number year, number month, number day)
    else none
  | _ => none

/-- Day, a month's name in small letters, and year. -/
def dayMonthNameParts (cs : List Char) : Option (ℕ × String × ℕ) :=
  let day := cs.takeWhile isDigit
  let named := (cs.dropWhile isDigit).drop 1
  let name := named.takeWhile Char.isAlpha
  let rest := named.dropWhile Char.isAlpha
  let between := fun c => c = ' ' || c = '-' || c = '/' || c = '.' || c = ','
  let year := rest.dropWhile between
  if digitRun 1 2 day &&
      ((cs.dropWhile isDigit).head?.any fun c => c = ' ' || c = '-' || c = '/' || c = '.') &&
      (3 ≤ name.length && name.length ≤ 9) && (rest.head?.any between) && digitRun 4 4 year then
    some (number year, String.ofList (name.map Char.toLower), number day)
  else none

/-- A date a person typed, or nothing where it cannot be read with certainty. -/
def parseCellDate (text : String) : Option Date :=
  let cs := (strip text).toList
  match isoParts cs with
  | some (year, month, day) => dateOf year month day
  | none =>
    match dayFirstParts cs with
    | some (year, month, day) => dateOf year month day
    | none =>
      (dayMonthNameParts cs).bind fun parts =>
        (months.lookup parts.2.1).bind fun month => dateOf parts.1 month parts.2.2

/-- A name with only the certainly meaningless differences removed: case, runs of white space and
trailing punctuation. -/
def foldName (casefold : String → String) (name : String) : String :=
  String.ofList ((squeeze (casefold name)).toList.rdropWhile fun c =>
    c = ' ' || c = '.' || c = ',' || c = ';' || c = ':')

example : (parseCellDate " 1/4/2026 ").map Date.text = some "2026-04-01" := by decide

example : parseCellDate "31-02-2026" = none := by decide

end Caflow.Accounting
