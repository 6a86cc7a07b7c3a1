import Stencil.Number.Decimal
import Stencil.Yaml.Cursor
import Stencil.Yaml.Fault

/-! # Moments

Dates and points in time: a date is a year, a month and a day joined by dashes; a time of day may
follow it, with a fraction of a second and a time zone. -/

namespace Stencil.Yaml

/-- The **zone** of a point in time. -/
inductive Zone where
  /-- No zone is given. -/
  | unknown
  /-- Universal time. -/
  | universal
  /-- So many hours and minutes before or after universal time. -/
  | offset (negative : Bool) (hours minutes : Nat)
  deriving DecidableEq, Repr

/-- A **time of day**. -/
structure TimeOfDay where
  /-- The hour. -/
  hour : Nat
  /-- The minute. -/
  minute : Nat
  /-- The second. -/
  second : Nat
  /-- The digits of the fraction of a second. -/
  fraction : List Char
  /-- The zone. -/
  zone : Zone
  deriving DecidableEq, Repr

/-- A **moment** as it is written. -/
structure Moment where
  /-- The year. -/
  year : Nat
  /-- The month. -/
  month : Nat
  /-- The day. -/
  day : Nat
  /-- Whether month and day have two digits each. -/
  full : Bool
  /-- The time of day, if there is one. -/
  time : Option TimeOfDay
  deriving DecidableEq, Repr

namespace Moment

/-! ## Reading -/

/-- The number that ASCII digits write. -/
def ofDigits (ds : List Char) : Nat := Text.ofDigitValues 10 (ds.filterMap Text.asciiDigit?)

/-- Exactly so many digits. -/
def digits? (n : Nat) (s : List Char) : Option (Nat × List Char) :=
  let ds := s.take n
  if ds.length = n && ds.all Char.isDigit then some (ofDigits ds, s.drop n) else none

/-- Two digits or one; the flag tells whether there are two. -/
def twoDigits? (s : List Char) : Option (Nat × Bool × List Char) :=
  match digits? 2 s with
  | some (n, rest) => some (n, true, rest)
  | none => (digits? 1 s).map fun (n, rest) => (n, false, rest)

/-- What follows a character. -/
def after? (c : Char) : List Char → Option (List Char)
  | d :: rest => if d = c then some rest else none
  | [] => none

/-- The zone, which ends a time of day. -/
def zone? (s : List Char) : Option Zone :=
  if s.isEmpty then some .unknown
  else
    match s.dropWhile isSpaceOrTab with
    | ['Z'] => some .universal
    | c :: rest =>
      if c == '+' || c == '-' then do
        let (hours, _, rest) ← twoDigits? rest
        match rest with
        | [] => return .offset (c == '-') hours 0
        | ':' :: rest =>
          match ← digits? 2 rest with
          | (minutes, []) => return .offset (c == '-') hours minutes
          | _ => none
        | _ => none
      else none
    | [] => none

/-- The time of day, which ends a moment. -/
def timeOfDay? (s : List Char) : Option TimeOfDay := do
  let (hour, _, s) ← twoDigits? s
  let (minute, s) ← digits? 2 (← after? ':' s)
  let (second, s) ← digits? 2 (← after? ':' s)
  let (fraction, s) := match s with
    | '.' :: rest => (rest.takeWhile Char.isDigit, rest.dropWhile Char.isDigit)
    | s => ([], s)
  return ⟨hour, minute, second, fraction, ← zone? s⟩

/-- What separates the time of day from the date is dropped: a letter or blanks. -/
def separated? : List Char → Option (List Char)
  | c :: rest =>
    if c == 'T' || c == 't' then some rest
    else if isSpaceOrTab c then some (rest.dropWhile isSpaceOrTab)
    else none
  | [] => none

/-- **Read a moment.** -/
def read? (s : List Char) : Option Moment := do
  let (year, s) ← digits? 4 s
  let (month, fullMonth, s) ← twoDigits? (← after? '-' s)
  let (day, fullDay, s) ← twoDigits? (← after? '-' s)
  let full := fullMonth && fullDay
  if s.isEmpty then return ⟨year, month, day, full, none⟩
  else return ⟨year, month, day, full, some (← timeOfDay? (← separated? s))⟩

/-- Whether a text means a moment without being marked as one: a date alone needs all its digits. -/
def isImplicit (s : List Char) : Bool := (read? s).any fun m => m.full || m.time.isSome

/-! ## Checking -/

/-- Whether a year has a leap day. -/
def isLeap (year : Nat) : Bool := year % 4 == 0 && (year % 100 != 0 || year % 400 == 0)

/-- The number of days of a month. -/
def monthDays (year month : Nat) : Nat :=
  if month == 2 then (if isLeap year then 29 else 28)
  else if [4, 6, 9, 11].contains month then 30
  else 31

/-- What is wrong with a date. -/
def dateFault? (m : Moment) : Option String :=
  if m.year = 0 then some "year 0 is out of range"
  else if m.month < 1 || 12 < m.month then some "month must be in 1..12"
  else if m.day < 1 || monthDays m.year m.month < m.day then some "day is out of range for month"
  else none

/-- What is wrong with a time of day. -/
def TimeOfDay.fault? (t : TimeOfDay) : Option String :=
  if 23 < t.hour then some "hour must be in 0..23"
  else if 59 < t.minute then some "minute must be in 0..59"
  else if 59 < t.second then some "second must be in 0..59"
  else none

/-- The minutes by which a zone is off universal time. -/
def offsetMinutes (negative : Bool) (hours minutes : Nat) : Int :=
  let n : Int := hours * 60 + minutes
  if negative then -n else n

/-- A span of minutes by its name in messages, as days and seconds. -/
def spanDisplay (minutes : Int) : String :=
  let days := minutes.fdiv 1440
  let seconds := (minutes - days * 1440) * 60
  let parts := (if days = 0 then [] else ["days=" ++ Decimal.text days]) ++
    (if seconds = 0 then [] else ["seconds=" ++ Decimal.text seconds])
  "datetime.timedelta(" ++ (if parts.isEmpty then "0" else ", ".intercalate parts) ++ ")"

/-- What is wrong with a zone: it must be less than a day off. -/
def Zone.fault? : Zone → Option String
  | .offset negative hours minutes =>
    if hours * 60 + minutes < 1440 then none
    else some ("offset must be a timedelta strictly between -timedelta(hours=24) and " ++
      "timedelta(hours=24), not " ++ spanDisplay (offsetMinutes negative hours minutes) ++ ".")
  | _ => none

/-- What is wrong with a moment: first the zone, then the date, then the time of day. -/
def fault? (m : Moment) : Option String :=
  ((m.time.bind fun t => Zone.fault? t.zone) <|> m.dateFault?) <|> m.time.bind TimeOfDay.fault?

/-! ## Names in messages -/

/-- A zone in messages. -/
def Zone.display : Zone → List String
  | .unknown => []
  | .universal => ["tzinfo=datetime.timezone.utc"]
  | .offset negative hours minutes =>
    let n := offsetMinutes negative hours minutes
    if n = 0 then ["tzinfo=datetime.timezone.utc"]
    else ["tzinfo=datetime.timezone(" ++ spanDisplay n ++ ")"]

/-- The millionths of a second of a fraction. -/
def micros (fraction : List Char) : Nat :=
  let ds := fraction.take 6
  ofDigits (ds ++ List.replicate (6 - ds.length) '0')

/-- A moment in messages: seconds that are zero are left out. -/
def display (m : Moment) : String :=
  let number (n : Nat) := Decimal.text n
  let date := [number m.year, number m.month, number m.day]
  match m.time with
  | none => "datetime.date(" ++ ", ".intercalate date ++ ")"
  | some t =>
    let us := micros t.fraction
    let seconds :=
      if us ≠ 0 then [number t.second, number us]
      else if t.second ≠ 0 then [number t.second]
      else []
    "datetime.datetime(" ++ ", ".intercalate
      (date ++ [number t.hour, number t.minute] ++ seconds ++ Zone.display t.zone) ++ ")"

/-- **A text as a moment**, by its name in messages. -/
def ofText (s : List Char) : Except ConstructionError String :=
  match read? s with
  | none => .error .noTimestamp
  | some m =>
    match m.fault? with
    | some text => .error (.value text)
    | none => .ok m.display

end Moment

end Stencil.Yaml
