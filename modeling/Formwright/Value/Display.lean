import Formwright.Decimal.Layout
import Formwright.Text.Quoted
import Formwright.Value.Basic

/-
  The text of a value. On its own a text stands for itself and a date or moment has its ISO form;
  inside a collection, and where a message shows a value, texts are quoted and dates are written out.
-/

namespace Formwright.Value

open Calendar

/-- A distance in minutes, written out in whole days and seconds. -/
def shownSpan (minutes : Int) : String :=
  let days := Int.fdiv minutes 1440
  let seconds := (minutes - 1440 * days) * 60
  let parts := (if days = 0 then [] else ["days=" ++ Text.decimal days]) ++
    (if seconds = 0 then [] else ["seconds=" ++ Text.decimal seconds])
  "datetime.timedelta(" ++ (if parts.isEmpty then "0" else ", ".intercalate parts) ++ ")"

/-- A date written out. -/
def shownDate (d : Date) : String :=
  "datetime.date(" ++ ", ".intercalate [d.year.repr, d.month.repr, d.day.repr] ++ ")"

/-- A moment written out; seconds and microseconds that are zero are left out at the end. -/
def shownMoment (m : Moment) : String :=
  let fine := if m.micro ≠ 0 then [m.second, m.micro] else if m.second ≠ 0 then [m.second] else []
  let fields := ([m.date.year, m.date.month, m.date.day, m.hour, m.minute] ++ fine).map Nat.repr
  let zone := match m.zone with
    | none => []
    | some 0 => ["tzinfo=datetime.timezone.utc"]
    | some z => ["tzinfo=datetime.timezone(" ++ shownSpan z ++ ")"]
  "datetime.datetime(" ++ ", ".intercalate (fields ++ zone) ++ ")"

mutual
/-- A value as it is shown inside a collection or a message. -/
def shown : Value → String
  | null => "None"
  | bool b => if b then "True" else "False"
  | int n => Text.decimal n
  | float x => Decimal.floatText x
  | text s => Text.quoted s
  | bytes bs => Text.quotedBytes bs
  | date _ d => shownDate d
  | moment _ m => shownMoment m
  | list _ vs => "[" ++ ", ".intercalate (shownAll vs) ++ "]"
  | tuple _ vs =>
    match shownAll vs with
    | [s] => "(" ++ s ++ ",)"
    | ss => "(" ++ ", ".intercalate ss ++ ")"
  | set _ vs =>
    match shownAll vs with
    | [] => "set()"
    | ss => "\x7b" ++ ", ".intercalate ss ++ "\x7d"
  | map _ es => "\x7b" ++ ", ".intercalate (shownEntries es) ++ "\x7d"
termination_by structural v => v

def shownAll : List Value → List String
  | [] => []
  | v :: vs => shown v :: shownAll vs
termination_by structural vs => vs

def shownEntries : List (Value × Value) → List String
  | [] => []
  | (k, v) :: es => (shown k ++ ": " ++ shown v) :: shownEntries es
termination_by structural es => es
end

/-- A value as it stands in running text. -/
def display : Value → String
  | text s => s
  | date _ d => d.isoText
  | moment _ m => m.isoText " "
  | v => v.shown

@[simp] theorem display_text (s : String) : (text s).display = s := rfl

theorem display_count (n : Nat) : (count n).display = n.repr := by
  simp [display, count, shown, Text.decimal]

end Formwright.Value
