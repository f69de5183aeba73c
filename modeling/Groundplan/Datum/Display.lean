import Groundplan.Datum
import Groundplan.Number.Reading
import Groundplan.Number.Shortest
import Groundplan.Text.Quoted

/-!
How a value is shown in a message.  A key of a generated object is written in the
plain form; messages that must tell `1` from `'1'` use the quoted form.
-/

namespace Groundplan
namespace Datum

/-- One byte of a quoted byte string. -/
def byteText (mark : Char) (b : UInt8) : List Char :=
  let n := b.toNat
  let c := Char.ofNat n
  if c = mark ∨ c = '\\' then ['\\', c]
  else if n = 9 then ['\\', 't']
  else if n = 10 then ['\\', 'n']
  else if n = 13 then ['\\', 'r']
  else if n < 32 ∨ 127 ≤ n then '\\' :: 'x' :: Text.hexDigits 2 n
  else [c]

def bytesText (bs : List UInt8) : String :=
  let mark := if bs.contains 39 && !bs.contains 34 then '"' else '\''
  String.ofList ('b' :: mark :: (bs.flatMap (byteText mark) ++ [mark]))

def offsetText (minutes : Int) : String :=
  if minutes = 0 then "datetime.timezone.utc"
  else "datetime.timezone(" ++ CalendarFault.durationText minutes ++ ")"

/-- A time as a list of its parts; trailing parts that are zero are left out down to
the minute. -/
def dateTimeText (t : DateTime) : String :=
  let clock := [t.hour, t.minute] ++
    (if t.microsecond ≠ 0 then [t.second, t.microsecond]
     else if t.second ≠ 0 then [t.second] else [])
  let parts := ([t.date.year, t.date.month, t.date.day] ++ clock).map toString ++
    (t.offset.map fun o => ["tzinfo=" ++ offsetText o]).getD []
  "datetime.datetime(" ++ ", ".intercalate parts ++ ")"

mutual
/-- The quoted form, which shows the type of every part. -/
def quotedText : Datum → String
  | .null => "None"
  | .bool b => if b then "True" else "False"
  | .int n => toString n
  | .float x => x.toText
  | .text s => Text.quoted s
  | .bytes bs => bytesText bs
  | .date d => "datetime.date(" ++ ", ".intercalate [toString d.year, toString d.month, toString d.day]
      ++ ")"
  | .dateTime t => dateTimeText t
  | .list items => "[" ++ ", ".intercalate (quotedTexts items) ++ "]"
  | .tuple items =>
    match quotedTexts items with
    | [single] => "(" ++ single ++ ",)"
    | parts => "(" ++ ", ".intercalate parts ++ ")"
  | .set items =>
    match quotedTexts items with
    | [] => "set()"
    | parts => "\x7b" ++ ", ".intercalate parts ++ "\x7d"
  | .mapping entries => "\x7b" ++ ", ".intercalate (quotedEntries entries) ++ "\x7d"
  | .expr source => "Expr(text=" ++ Text.quoted source ++ ")"
  | .template source => "Template(text=" ++ Text.quoted source ++ ")"
  | .call name args =>
    let args := match quotedTexts args with
      | [single] => single ++ ","
      | parts => ", ".intercalate parts
    "Call(name=" ++ Text.quoted name ++ ", args=(" ++ args ++ "))"
  | .foreign typeName => "<" ++ typeName ++ " object>"

def quotedTexts : List Datum → List String
  | [] => []
  | x :: xs => quotedText x :: quotedTexts xs

def quotedEntries : List (Datum × Datum) → List String
  | [] => []
  | (k, v) :: rest => (quotedText k ++ ": " ++ quotedText v) :: quotedEntries rest
end

mutual
/-- Whether every integer in a value has few enough digits for the value to be shown. -/
def isWritable : Datum → Bool
  | .int n => Number.isWritable n
  | .list items | .tuple items | .set items | .call _ items => areWritable items
  | .mapping entries => entriesAreWritable entries
  | _ => true

def areWritable : List Datum → Bool
  | [] => true
  | x :: xs => isWritable x && areWritable xs

def entriesAreWritable : List (Datum × Datum) → Bool
  | [] => true
  | (k, v) :: rest => isWritable k && isWritable v && entriesAreWritable rest
end

/-- The plain form: a text is itself and a time is written as on a calendar. -/
def plainText : Datum → String
  | .text s => s
  | .date d => d.toText
  | .dateTime t => t.toText " "
  | x => x.quotedText

end Datum
end Groundplan
