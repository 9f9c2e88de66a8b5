import BrokerClient.Json.Reader
import BrokerClient.Text.Points

/-!
# Why a YAML text is not read

Most texts that are not read break the grammar or hold something that has no meaning. A
scalar of a known tag can also spell no value of that tag, and an escape can name a code
point that does not exist; these failures say what is wrong.
-/
namespace BrokerClient.Yaml

/-- What is wrong with a point in time. -/
inductive MomentFault where
  | year (year : Nat)
  | month
  | day
  | hour
  | minute
  | second
  /-- The distance from UTC in minutes reaches a day. -/
  | offset (minutes : Int)

/-- Why a text is not read. -/
inductive Failure where
  | malformed
  /-- The code of an escape is beyond the last character. -/
  | noSuchCharacter
  /-- The code of an escape has more than 31 bits. -/
  | oversizedCode
  | notInteger (base : Nat) (text : String)
  | oversizedInteger (digits : Nat)
  | notNumber (text : String)
  /-- A place of a number is worth more than any double. -/
  | oversizedUnit
  | emptyNumber
  | notTruth (word : String)
  | notMoment
  | invalidMoment (fault : MomentFault)

/-- What has to be there in a text that does not break the grammar. -/
def wellFormed {α : Type} : Option α → Except Failure α
  | some a => .ok a
  | none => .error .malformed

/-- The text of a span of minutes, in days and seconds. -/
def spanText (minutes : Int) : String :=
  let part (name : String) (n : Int) := if n = 0 then [] else [name ++ "=" ++ toString n]
  let parts := part "days" (minutes.fdiv 1440) ++ part "seconds" (minutes.fmod 1440 * 60)
  "datetime.timedelta(" ++ (if parts.isEmpty then "0" else String.intercalate ", " parts) ++ ")"

/-- The wording of what is wrong with a point in time. -/
def MomentFault.message : MomentFault → String
  | year n => "year " ++ toString n ++ " is out of range"
  | month => "month must be in 1..12"
  | day => "day is out of range for month"
  | hour => "hour must be in 0..23"
  | minute => "minute must be in 0..59"
  | second => "second must be in 0..59"
  | offset minutes =>
    "offset must be a timedelta strictly between -timedelta(hours=24) and timedelta(hours=24), " ++
      "not " ++ spanText minutes ++ "."

/-- How much is quoted of a text that is no integer. -/
def quoteLength : Nat := 200

/-- The wording of a failure. -/
def Failure.message : Failure → String
  | malformed => "the text is not YAML"
  | noSuchCharacter => "chr() arg not in range(0x110000)"
  | oversizedCode => "Python int too large to convert to C int"
  | notInteger base text =>
    "invalid literal for int() with base " ++ toString base ++ ": " ++
      String.ofList ((Text.quoted text).toList.take quoteLength)
  | oversizedInteger digits => Decimal.oversizedText digits
  | notNumber text => "could not convert string to float: " ++ Text.quoted text
  | oversizedUnit => "int too large to convert to float"
  | emptyNumber => "string index out of range"
  | notTruth word => Text.quoted word
  | notMoment => "'NoneType' object has no attribute 'groupdict'"
  | invalidMoment fault => fault.message

end BrokerClient.Yaml
