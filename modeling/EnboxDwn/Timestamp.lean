import EnboxDwn.Lib.FixedDigits
import EnboxDwn.Lib.Gregorian

/-! Timestamps with microseconds: how they are parsed, formatted and moved, and which text comes
first. -/
namespace EnboxDwn
namespace Time
open FixedDigits Gregorian

/-! ## Dates of the platform, in milliseconds since 1970 -/

def msPerDay : Int := 86400000

def makeDay (year month date : Int) : Int :=
  dayFromDate ⟨year + month / 12, (month % 12).toNat, date⟩

def makeTime (hour minute second millisecond : Int) : Int :=
  ((hour * 60 + minute) * 60 + second) * 1000 + millisecond

def setUTCFullYear (time year month date : Int) : Int :=
  makeDay year month date * msPerDay + time % msPerDay

def setUTCHours (time hour minute second millisecond : Int) : Int :=
  time / msPerDay * msPerDay + makeTime hour minute second millisecond

def getUTCFullYear (time : Int) : Int := (dateFromDay (time / msPerDay)).year

def getUTCMonth (time : Int) : Int := (dateFromDay (time / msPerDay)).month

def getUTCDate (time : Int) : Int := (dateFromDay (time / msPerDay)).day

def getUTCHours (time : Int) : Int := time / 3600000 % 24

def getUTCMinutes (time : Int) : Int := time / 60000 % 60

def getUTCSeconds (time : Int) : Int := time / 1000 % 60

def getUTCMilliseconds (time : Int) : Int := time % 1000

/-! ## The program -/

inductive TimeError where
  | timestampInvalid (message : String)
  | range (message : String)

structure ParsedTimestamp where
  epochMilliseconds : Int
  microsecond : Nat

/-- What the seven groups of the expression match. -/
structure Fields where
  year : Nat
  month : Nat
  day : Nat
  hour : Nat
  minute : Nat
  second : Nat
  fraction : Nat
  deriving DecidableEq

def matchTimestamp (timestamp : List Char) : Option Fields := do
  let (year, rest) ← digits? 4 timestamp
  let rest ← literal? '-' rest
  let (month, rest) ← digits? 2 rest
  let rest ← literal? '-' rest
  let (day, rest) ← digits? 2 rest
  let rest ← literal? 'T' rest
  let (hour, rest) ← digits? 2 rest
  let rest ← literal? ':' rest
  let (minute, rest) ← digits? 2 rest
  let rest ← literal? ':' rest
  let (second, rest) ← digits? 2 rest
  let rest ← literal? '.' rest
  let (fraction, rest) ← digits? 6 rest
  let rest ← literal? 'Z' rest
  if rest = [] then some ⟨year, month, day, hour, minute, second, fraction⟩ else none

/-- The day before the first of the next month. -/
def daysInUtcMonth (year month : Int) : Int :=
  getUTCDate (setUTCFullYear (setUTCHours 0 0 0 0 0) year month 0)

def Fields.IsLeapSecond (f : Fields) : Prop := f.hour = 23 ∧ f.minute = 59 ∧ f.second = 60

instance (f : Fields) : Decidable f.IsLeapSecond :=
  inferInstanceAs (Decidable (_ ∧ _ ∧ _))

/-- The second that is set for the fields: a leap second has none of its own. -/
def Fields.setSecond (f : Fields) : Nat := if f.IsLeapSecond then 59 else f.second

/-- The first three digits of the fraction are milliseconds, the last three microseconds. -/
def parseTimestamp (timestamp : List Char) : Option ParsedTimestamp :=
  match matchTimestamp timestamp with
  | none => none
  | some f =>
    let millisecond := f.fraction / 1000
    let microsecond := f.fraction % 1000
    if f.month < 1 ∨ f.month > 12 ∨ f.day < 1 ∨ f.day > daysInUtcMonth f.year f.month ∨
        f.hour > 23 ∨ f.minute > 59 ∨ (f.second > 59 ∧ ¬f.IsLeapSecond) then none
    else
      let date := setUTCFullYear (setUTCHours 0 0 0 0 0) f.year (f.month - 1) f.day
      let date := setUTCHours date f.hour f.minute f.setSecond millisecond
      if getUTCFullYear date ≠ f.year ∨ getUTCMonth date ≠ f.month - 1 ∨
          getUTCDate date ≠ f.day ∨ getUTCHours date ≠ f.hour ∨ getUTCMinutes date ≠ f.minute ∨
          getUTCSeconds date ≠ f.setSecond then none
      else some ⟨date, microsecond⟩

/-- The text of a time on the calendar. -/
def calendarText (epochMilliseconds : Int) (microsecond : Nat) : List Char :=
  pad 4 (getUTCFullYear epochMilliseconds).toNat ++ '-' ::
    (pad 2 (getUTCMonth epochMilliseconds + 1).toNat ++ '-' ::
    (pad 2 (getUTCDate epochMilliseconds).toNat ++ 'T' ::
    (pad 2 (getUTCHours epochMilliseconds).toNat ++ ':' ::
    (pad 2 (getUTCMinutes epochMilliseconds).toNat ++ ':' ::
    (pad 2 (getUTCSeconds epochMilliseconds).toNat ++ '.' ::
    (pad 6 ((getUTCMilliseconds epochMilliseconds * 1000).toNat + microsecond) ++ ['Z']))))))

/-- Numbers that are not whole stand as none. -/
def formatUtcTimestamp (epochMilliseconds : Option Int) (microsecond : Nat) :
    Except TimeError (List Char) :=
  match epochMilliseconds with
  | none => .error (.range "timestamp epoch milliseconds must be a finite safe integer")
  | some epochMilliseconds =>
    if epochMilliseconds.natAbs > 9007199254740991 then
      .error (.range "timestamp epoch milliseconds must be a finite safe integer")
    else if epochMilliseconds.natAbs > 8640000000000000 then
      .error (.range "timestamp is outside the supported Date range")
    else if getUTCFullYear epochMilliseconds < 0 ∨ getUTCFullYear epochMilliseconds > 9999 then
      .error (.range "timestamp year must be between 0000 and 9999")
    else .ok (calendarText epochMilliseconds microsecond)

def invalidTimestamp (timestamp : List Char) : TimeError :=
  .timestampInvalid ("Invalid timestamp: " ++ String.ofList timestamp)

def validateTimestamp (timestamp : List Char) : Except TimeError Unit :=
  match parseTimestamp timestamp with
  | none => .error (invalidTimestamp timestamp)
  | some _ => .ok ()

def requireWholeNumber (value : Option Int) (fieldName : String) : Except TimeError Int :=
  match value with
  | none => .error (.range (fieldName ++ " must be a finite integer"))
  | some value => .ok value

def createOffsetTimestamp (now : Int) (seconds : Option Int) (timestamp : Option (List Char)) :
    Except TimeError (List Char) :=
  let parsedTimestamp : Option ParsedTimestamp := match timestamp with
    | none => some ⟨now, 0⟩
    | some timestamp => parseTimestamp timestamp
  match parsedTimestamp with
  | none => .error (invalidTimestamp (timestamp.getD "undefined".toList))
  | some parsed => do
    let offsetSeconds ← requireWholeNumber seconds "seconds"
    formatUtcTimestamp (some (parsed.epochMilliseconds + offsetSeconds * 1000)) parsed.microsecond

def nextFloorTimestamp (floorTimestamp : List Char) (floor : ParsedTimestamp) :
    Except TimeError (List Char) :=
  let fraction := value ((floorTimestamp.drop 20).take 6)
  if fraction = 999999 then formatUtcTimestamp (some (floor.epochMilliseconds + 1)) 0
  else .ok (floorTimestamp.take 20 ++ pad 6 (fraction + 1) ++ ['Z'])

def createTimestampAfter (floorTimestamp : List Char) (nowMillis : Option Int) :
    Except TimeError (List Char) :=
  match parseTimestamp floorTimestamp with
  | none => .error (invalidTimestamp floorTimestamp)
  | some floor => do
    let next ← nextFloorTimestamp floorTimestamp floor
    let nowTimestamp ← formatUtcTimestamp nowMillis 0
    return if next > nowTimestamp then next else nowTimestamp

/-! ## Texts of fields -/

def text (f : Fields) : List Char :=
  fixed 4 f.year ++ '-' :: (fixed 2 f.month ++ '-' :: (fixed 2 f.day ++ 'T' :: (fixed 2 f.hour ++
    ':' :: (fixed 2 f.minute ++ ':' :: (fixed 2 f.second ++ '.' :: (fixed 6 f.fraction ++ ['Z']))))))

/-- The fields have the width of their groups. -/
structure Fields.Bounded (f : Fields) : Prop where
  year : f.year < 10 ^ 4
  month : f.month < 10 ^ 2
  day : f.day < 10 ^ 2
  hour : f.hour < 10 ^ 2
  minute : f.minute < 10 ^ 2
  second : f.second < 10 ^ 2
  fraction : f.fraction < 10 ^ 6

theorem matchTimestamp_iff {timestamp : List Char} {f : Fields} :
    matchTimestamp timestamp = some f ↔ f.Bounded ∧ timestamp = text f := by
  simp only [matchTimestamp, Option.bind_eq_bind, Option.bind_eq_some_iff, Prod.exists, digits?_iff,
    literal?_iff]
  constructor
  · rintro ⟨year, _, ⟨hyear, rfl⟩, _, rfl, month, _, ⟨hmonth, rfl⟩, _, rfl, day, _, ⟨hday, rfl⟩, _,
      rfl, hour, _, ⟨hhour, rfl⟩, _, rfl, minute, _, ⟨hminute, rfl⟩, _, rfl, second, _,
      ⟨hsecond, rfl⟩, _, rfl, fraction, _, ⟨hfraction, rfl⟩, rest, rfl, hend⟩
    split_ifs at hend with hrest
    cases hend
    exact ⟨⟨hyear, hmonth, hday, hhour, hminute, hsecond, hfraction⟩, by rw [hrest, text]⟩
  · rintro ⟨hbounded, rfl⟩
    exact ⟨_, _, ⟨hbounded.year, rfl⟩, _, rfl, _, _, ⟨hbounded.month, rfl⟩, _, rfl, _, _,
      ⟨hbounded.day, rfl⟩, _, rfl, _, _, ⟨hbounded.hour, rfl⟩, _, rfl, _, _,
      ⟨hbounded.minute, rfl⟩, _, rfl, _, _, ⟨hbounded.second, rfl⟩, _, rfl, _, _,
      ⟨hbounded.fraction, rfl⟩, _, rfl, by simp⟩

/-- Field by field, from the year on. -/
def Fields.Before (f g : Fields) : Prop :=
  f.year < g.year ∨ f.year = g.year ∧ (f.month < g.month ∨ f.month = g.month ∧
    (f.day < g.day ∨ f.day = g.day ∧ (f.hour < g.hour ∨ f.hour = g.hour ∧
      (f.minute < g.minute ∨ f.minute = g.minute ∧ (f.second < g.second ∨ f.second = g.second ∧
        f.fraction < g.fraction)))))

theorem text_lt {f g : Fields} (hg : g.Bounded) (h : f.Before g) : text f < text g := by
  apply fixed_append_lt hg.year
  refine h.imp_right fun h => ⟨h.1, cons_lt _ (fixed_append_lt hg.month ?_)⟩
  refine h.2.imp_right fun h => ⟨h.1, cons_lt _ (fixed_append_lt hg.day ?_)⟩
  refine h.2.imp_right fun h => ⟨h.1, cons_lt _ (fixed_append_lt hg.hour ?_)⟩
  refine h.2.imp_right fun h => ⟨h.1, cons_lt _ (fixed_append_lt hg.minute ?_)⟩
  refine h.2.imp_right fun h => ⟨h.1, cons_lt _ (fixed_append_lt hg.second ?_)⟩
  refine h.2.imp_right fun h => ⟨h.1, cons_lt _ (fixed_append_lt hg.fraction ?_)⟩
  exact .inl h.2

theorem before_total (f g : Fields) : f.Before g ∨ f = g ∨ g.Before f := by
  cases f
  cases g
  simp only [Fields.Before, Fields.mk.injEq]
  omega

/-- The order of the texts is the order of the fields. -/
theorem text_lt_iff {f g : Fields} (hf : f.Bounded) (hg : g.Bounded) :
    text f < text g ↔ f.Before g := by
  constructor
  · intro hlt
    rcases before_total f g with h | h | h
    · exact h
    · rw [h] at hlt
      exact absurd hlt (List.lt_irrefl _)
    · exact absurd hlt (List.lt_asymm (text_lt hf h))
  · exact text_lt hg

end Time
end EnboxDwn
