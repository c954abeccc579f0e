import SiteAudit.Yaml.Error

/-!
# Dates and times

A timestamp is written as a date, which may be followed by a time of day, a fraction of a second
and a zone. Reading only looks at the form; whether the date and the time exist is decided when
they are made of it.
-/

namespace SiteAudit.Yaml

/-- A day of the calendar. -/
structure Date where
  year : Nat
  month : Nat
  day : Nat
  deriving DecidableEq, Repr

/-- A day and a time of day; the offset from universal time is in minutes, if there is one. -/
structure DateTime where
  date : Date
  hour : Nat
  minute : Nat
  second : Nat
  microsecond : Nat
  offset : Option Int
  deriving DecidableEq, Repr

namespace Date

/-- The year has a day more: every fourth one, but of the full centuries only every fourth. -/
def isLeapYear (year : Nat) : Bool :=
  year % 4 == 0 && (year % 100 != 0 || year % 400 == 0)

/-- The days of each month. -/
def monthDays (year : Nat) : List Nat :=
  [31, if isLeapYear year then 29 else 28, 31, 30, 31, 30, 31, 31, 30, 31, 30, 31]

/-- The number of days before this one. -/
def ordinal (d : Date) : Nat :=
  let y := d.year - 1
  let days := ((monthDays d.year).take (d.month - 1)).foldl Nat.add 0
  365 * y + y / 4 - y / 100 + y / 400 + days + d.day - 1

/-- The day, if it is one of the calendar. -/
def check (d : Date) : Except CalendarError Date :=
  if d.year < 1 ∨ 9999 < d.year then .error (.year d.year)
  else match d.month, (monthDays d.year)[d.month - 1]? with
    | 0, _ => .error .month
    | _, none => .error .month
    | _, some days => if d.day < 1 ∨ days < d.day then .error .day else .ok d

/-- Year, month and day with hyphens between them. -/
def text (d : Date) : Text :=
  Text.padNat 4 d.year ++ ['-'] ++ Text.padNat 2 d.month ++ ['-'] ++ Text.padNat 2 d.day

end Date

namespace DateTime

/-- The moment, if its day and its time of day exist. -/
def check (t : DateTime) : Except CalendarError DateTime := do
  let _ ← t.date.check
  if 23 < t.hour then throw .hour
  if 59 < t.minute then throw .minute
  if 59 < t.second then throw .second
  return t

/-- The microseconds of local time before this moment. -/
def ticks (t : DateTime) : Int :=
  (((t.date.ordinal * 24 + t.hour) * 60 + t.minute) * 60 + t.second) * 1000000 + t.microsecond

/-- Equality of moments: by universal time if both have an offset, by local time if none has. -/
def same (s t : DateTime) : Bool :=
  match s.offset, t.offset with
  | none, none => s.ticks == t.ticks
  | some a, some b => s.ticks - a * 60000000 == t.ticks - b * 60000000
  | _, _ => false

/-- The offset in words. -/
def offsetText (minutes : Int) : Text :=
  let size := minutes.natAbs
  (if minutes < 0 then '-' else '+') :: Text.padNat 2 (size / 60) ++ [':']
    ++ Text.padNat 2 (size % 60)

/-- Day and time with the given character between them. -/
def text (between : Char) (t : DateTime) : Text :=
  t.date.text ++ [between] ++ Text.padNat 2 t.hour ++ [':'] ++ Text.padNat 2 t.minute ++ [':']
    ++ Text.padNat 2 t.second
    ++ (if t.microsecond = 0 then [] else '.' :: Text.padNat 6 t.microsecond)
    ++ (t.offset.map offsetText).getD []

end DateTime

/-- A timestamp as it is written. -/
structure Timestamp where
  date : Date
  /-- Month and day have two digits each. -/
  isWide : Bool
  /-- The time of day, the digits of a fraction, and the offset. -/
  time : Option (Nat × Nat × Nat × Text × Option Int)
  deriving DecidableEq, Repr

namespace Timestamp

/-- Takes digits, as many as there are up to a limit. -/
def digits? (least most : Nat) (t : Text) : Option (Text × Text) :=
  let digits := (t.take most).takeWhile Char.isDigit
  if digits.length < least then none else some (digits, t.drop digits.length)

/-- The value of digits. -/
def value (digits : Text) : Nat :=
  digits.foldl (fun n c => n * 10 + (c.toNat - 48)) 0

/-- Takes the given character. -/
def char? (c : Char) (t : Text) : Option Text :=
  match t with
  | d :: rest => if d = c then some rest else none
  | [] => none

/-- What may stand between a date and a time. -/
def isSpace (c : Char) : Bool := c == ' ' || c == '\t'

/-- The zone at the end: universal time or an offset of hours and perhaps minutes. -/
def zone? (t : Text) : Option Int :=
  match t with
  | ['Z'] => some 0
  | sign :: rest => do
    if sign ≠ '+' ∧ sign ≠ '-' then failure
    let (hours, rest) ← digits? 1 2 rest
    let minutes ← match rest with
      | [] => pure []
      | _ => do
        let (minutes, rest) ← digits? 2 2 (← char? ':' rest)
        if !rest.isEmpty then failure
        pure minutes
    let size : Int := value hours * 60 + value minutes
    return if sign = '-' then -size else size
  | [] => none

/-- The time of day and what follows it. -/
def time? (t : Text) : Option (Nat × Nat × Nat × Text × Option Int) := do
  let (hour, rest) ← digits? 1 2 t
  let (minute, rest) ← digits? 2 2 (← char? ':' rest)
  let (second, rest) ← digits? 2 2 (← char? ':' rest)
  let (fraction, rest) := match rest with
    | '.' :: rest => (rest.takeWhile Char.isDigit, rest.dropWhile Char.isDigit)
    | rest => ([], rest)
  let zone ← if rest.isEmpty then pure none else (zone? (rest.dropWhile isSpace)).map some
  return (value hour, value minute, value second, fraction, zone)

/-- What stands between the date and the time. -/
def separator? : Text → Option Text
  | 'T' :: rest => some rest
  | 't' :: rest => some rest
  | c :: rest => if isSpace c then some (rest.dropWhile isSpace) else none
  | [] => none

/-- Reads a timestamp; a line feed may follow it. -/
def ofText? (t : Text) : Option Timestamp := do
  let t := if t.getLast? = some '\n' then t.dropLast else t
  let (year, rest) ← digits? 4 4 t
  let (month, rest) ← digits? 1 2 (← char? '-' rest)
  let (day, rest) ← digits? 1 2 (← char? '-' rest)
  let date : Date := ⟨value year, value month, value day⟩
  let isWide : Bool := month.length == 2 && day.length == 2
  if rest.isEmpty then return ⟨date, isWide, none⟩
  return ⟨date, isWide, some (← time? (← separator? rest))⟩

/-- A plain scalar is a timestamp if a date without a time is written in full. -/
def isPlain (t : Text) : Bool :=
  (ofText? t).any fun stamp => stamp.isWide || stamp.time.isSome

/-- The first six digits of a fraction of a second, as microseconds. -/
def microseconds (fraction : Text) : Nat :=
  let digits := fraction.take 6
  value digits * Nat.pow 10 (6 - digits.length)

/-- The date or the moment that a timestamp stands for. -/
def moment (s : Timestamp) : Except CalendarError (Date ⊕ DateTime) :=
  match s.time with
  | none => s.date.check.map .inl
  | some (hour, minute, second, fraction, offset) =>
    let offset? := offset.filter fun minutes => 1440 ≤ minutes.natAbs
    match offset? with
    | some minutes => .error (.offset minutes)
    | none =>
      (DateTime.check ⟨s.date, hour, minute, second, microseconds fraction, offset⟩).map .inr

end Timestamp

end SiteAudit.Yaml
