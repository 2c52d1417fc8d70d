import Dataspace.Number.Decimal
import Dataspace.Time.Calendar

/-!
# Points of time as text

Date and time stand with a `T` between them, the microseconds with six digits or not at all. A
message header shows every offset by sign, hours and minutes, and by seconds if there are any; a
contract document writes UTC as `Z` and all other offsets by hours and minutes.
-/

namespace Dataspace

open Decimal (padded)

def Date.text (d : Date) : List Char :=
  padded 4 d.year ++ '-' :: padded 2 d.month ++ '-' :: padded 2 d.day

def TimeOfDay.text (t : TimeOfDay) : List Char :=
  padded 2 t.hour ++ ':' :: padded 2 t.minute ++ ':' :: padded 2 t.second ++
    (if t.microsecond = 0 then [] else '.' :: padded 6 t.microsecond)

namespace Offset

def sign (o : Offset) : Char :=
  if o.seconds < 0 then '-' else '+'

/-- Sign, hours and minutes. -/
def minutesText (o : Offset) : List Char :=
  let n := o.seconds.natAbs
  o.sign :: padded 2 (n / 3600) ++ ':' :: padded 2 (n / 60 % 60)

/-- Sign, hours, minutes, and the seconds if there are any. -/
def fullText (o : Offset) : List Char :=
  o.minutesText ++
    (if o.seconds.natAbs % 60 = 0 then [] else ':' :: padded 2 (o.seconds.natAbs % 60))

/-- `Z` for UTC, and hours and minutes otherwise. -/
def shortText (o : Offset) : List Char :=
  if o.seconds = 0 then ['Z'] else o.minutesText

end Offset

namespace Timestamp

def localText (t : Timestamp) : List Char :=
  t.date.text ++ 'T' :: t.time.text

/-- As in a message header. -/
def headerText (t : Timestamp) : String :=
  String.ofList (t.localText ++ (t.offset.map Offset.fullText).getD [])

/-- As in a contract document. -/
def documentText (t : Timestamp) : String :=
  String.ofList (t.localText ++ (t.offset.map Offset.shortText).getD [])

end Timestamp

end Dataspace
