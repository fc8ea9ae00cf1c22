import TagRank.Decimal.Format
import TagRank.Text.Blank
import TagRank.Text.Digit

namespace TagRank.Yaml

structure Clock where
  hour : Nat
  minute : Nat
  second : Nat
  micro : Nat
  /-- Seconds ahead of universal time, if a zone is given. -/
  offset : Option Int
  deriving DecidableEq

structure Moment where
  year : Nat
  month : Nat
  day : Nat
  clock : Option Clock
  deriving DecidableEq

namespace Moment

def takeDigits? (least most : Nat) (cs : List Char) : Option (Nat × List Char) := do
  let ds := (cs.take most).takeWhile Char.isDigit
  guard (least ≤ ds.length)
  return (← Text.ofDigits? 10 ds, cs.drop ds.length)

def skip? (c : Char) : List Char → Option (List Char)
  | [] => none
  | d :: cs => if d = c then some cs else none

def micros (ds : List Char) : Nat :=
  (Text.ofDigits? 10 ((ds ++ List.replicate 6 '0').take 6)).getD 0

def takeFraction : List Char → Nat × List Char
  | '.' :: cs => (micros (cs.takeWhile Char.isDigit), cs.dropWhile Char.isDigit)
  | cs => (0, cs)

def zone? (cs : List Char) : Option (Option Int) :=
  match cs.dropWhile fun c => c == ' ' || c == '\t' with
  | [] => if cs.isEmpty then some none else none
  | ['Z'] => some (some 0)
  | c :: r => do
    guard (c == '+' || c == '-')
    let (hours, r) ← takeDigits? 1 2 r
    let minutes : Nat ← match r with
      | [] => pure 0
      | _ => do
        let (m, r) ← takeDigits? 2 2 (← skip? ':' r)
        guard r.isEmpty
        pure m
    let seconds : Int := hours * 3600 + minutes * 60
    return some (if c == '-' then -seconds else seconds)

def clock? (cs : List Char) : Option Clock := do
  let r := match cs with
    | 'T' :: r | 't' :: r => r
    | _ => cs.dropWhile fun c => c == ' ' || c == '\t'
  guard (r.length < cs.length)
  let (hour, r) ← takeDigits? 1 2 r
  let (minute, r) ← takeDigits? 2 2 (← skip? ':' r)
  let (second, r) ← takeDigits? 2 2 (← skip? ':' r)
  let (micro, r) := takeFraction r
  return ⟨hour, minute, second, micro, ← zone? r⟩

def ofChars? (cs : List Char) : Option Moment := do
  let (year, r) ← takeDigits? 4 4 cs
  let (month, r) ← takeDigits? 1 2 (← skip? '-' r)
  let (day, r) ← takeDigits? 1 2 (← skip? '-' r)
  if r.isEmpty then return ⟨year, month, day, none⟩
  else return ⟨year, month, day, some (← clock? r)⟩

/-- A date without a time counts as one only with two digits for the month and for the day. -/
def looksLike (cs : List Char) : Bool :=
  match ofChars? cs with
  | some m => m.clock.isSome || cs.length == 10
  | none => false

def isLeap (year : Nat) : Bool := year % 4 == 0 && (year % 100 != 0 || year % 400 == 0)

def daysIn (year month : Nat) : Nat :=
  if month = 2 then (if isLeap year then 29 else 28)
  else if month ∈ [4, 6, 9, 11] then 30 else 31

def secondsPerDay : Nat := 86400

def spanText (seconds : Int) : String :=
  let day : Int := secondsPerDay
  let days := seconds / day
  let left := seconds % day
  let shown := (if days = 0 then [] else [s!"days={days}"]) ++
    (if left = 0 then [] else [s!"seconds={left}"])
  "datetime.timedelta(" ++ (if shown.isEmpty then "0" else Text.join ", " shown) ++ ")"

def fault? (m : Moment) : Option String :=
  let zone := m.clock.bind Clock.offset
  if zone.any fun s => secondsPerDay ≤ s.natAbs then
    some ("offset must be a timedelta strictly between -timedelta(hours=24) and " ++
      "timedelta(hours=24), not " ++ spanText (zone.getD 0) ++ ".")
  else if m.year = 0 then some "year 0 is out of range"
  else if m.month = 0 ∨ 12 < m.month then some "month must be in 1..12"
  else if m.day = 0 ∨ daysIn m.year m.month < m.day then some "day is out of range for month"
  else match m.clock with
    | none => none
    | some c =>
      if 23 < c.hour then some "hour must be in 0..23"
      else if 59 < c.minute then some "minute must be in 0..59"
      else if 59 < c.second then some "second must be in 0..59"
      else none

def two (n : Nat) : String := Decimal.padLeft 2 (toString n)

def offsetText (seconds : Int) : String :=
  let minutes := seconds.natAbs / 60
  (if seconds < 0 then "-" else "+") ++ two (minutes / 60) ++ ":" ++ two (minutes % 60)

def Clock.text (c : Clock) : String :=
  two c.hour ++ ":" ++ two c.minute ++ ":" ++ two c.second ++
    (if c.micro = 0 then "" else "." ++ Decimal.padLeft 6 (toString c.micro)) ++
    (match c.offset with
      | none => ""
      | some s => offsetText s)

def text (m : Moment) : String :=
  Decimal.padLeft 4 (toString m.year) ++ "-" ++ two m.month ++ "-" ++ two m.day ++
    (match m.clock with
      | none => ""
      | some c => " " ++ Clock.text c)

def shown (m : Moment) : String :=
  let date := [m.year, m.month, m.day]
  match m.clock with
  | none => "datetime.date(" ++ Text.join ", " (date.map toString) ++ ")"
  | some c =>
    let time :=
      if c.micro ≠ 0 then [c.hour, c.minute, c.second, c.micro]
      else if c.second ≠ 0 then [c.hour, c.minute, c.second] else [c.hour, c.minute]
    let zone := match c.offset with
      | none => []
      | some 0 => ["tzinfo=datetime.timezone.utc"]
      | some s => ["tzinfo=datetime.timezone(" ++ spanText s ++ ")"]
    "datetime.datetime(" ++ Text.join ", " ((date ++ time).map toString ++ zone) ++ ")"

end Moment

end TagRank.Yaml
