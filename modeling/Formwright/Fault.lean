import Formwright.Text.Numeral
import Formwright.Value.Kind

/-
  Everything that can go wrong, as causes. `Fault.message` is the only place where a cause is put
  into words, and `Fault.category` says what sort of fault it is. A domain fault belongs to one
  item of a batch and is reported with its stage; any other fault is unexpected there.
-/

namespace Formwright

/-- A use of a value that its kind does not allow. -/
inductive Misuse where
  | pathFrom (kind : Kind)
  | searchIn (kind : Kind)
  | bytesWanted
  | numberWanted
  | unhashable (kind : Kind)
  | incomparable (left right : Kind)
  | momentWithDate
  | zonedWithLocal
  | unserialisable (kind : Kind)
  | badKey (kind : Kind)
  | notIterable (kind : Kind)
  | noMembers (kind : Kind)
  | noLookup (kind : Kind)
  | notAPair (index : Nat)
  | noSum (left right : Kind)
  | notText (index : Nat) (kind : Kind)
  | notACount (kind : Kind)
  | arguments
  | levelFrom
  deriving Repr, DecidableEq

namespace Misuse

def message : Misuse → String
  | pathFrom .bytes =>
    "argument should be a str object or an os.PathLike object returning str, not <class 'bytes'>"
  | pathFrom k => "expected str, bytes or os.PathLike object, not " ++ k.name
  | searchIn .bytes => "cannot use a string pattern on a bytes-like object"
  | searchIn k => "expected string or bytes-like object, got '" ++ k.fullName ++ "'"
  | bytesWanted => "a bytes-like object is required, not 'str'"
  | numberWanted => "'str' object cannot be interpreted as an integer"
  | unhashable k => "unhashable type: '" ++ k.fullName ++ "'"
  | incomparable l r =>
    "'<' not supported between instances of '" ++ l.fullName ++ "' and '" ++ r.fullName ++ "'"
  | momentWithDate => "can't compare datetime.datetime to datetime.date"
  | zonedWithLocal => "can't compare offset-naive and offset-aware datetimes"
  | unserialisable k => "Object of type " ++ k.name ++ " is not JSON serializable"
  | badKey k => "keys must be str, int, float, bool or None, not " ++ k.name
  | notIterable k => "'" ++ k.fullName ++ "' object is not iterable"
  | noMembers .bytes => "a bytes-like object is required, not 'str'"
  | noMembers k => "argument of type '" ++ k.fullName ++ "' is not iterable"
  | noLookup .text => "string indices must be integers, not 'str'"
  | noLookup .bytes => "byte indices must be integers or slices, not str"
  | noLookup .list => "list indices must be integers or slices, not str"
  | noLookup .tuple => "tuple indices must be integers or slices, not str"
  | noLookup k => "'" ++ k.fullName ++ "' object is not subscriptable"
  | notAPair i => "cannot convert dictionary update sequence element #" ++ i.repr ++ " to a sequence"
  | noSum .text r => "can only concatenate str (not \"" ++ r.fullName ++ "\") to str"
  | noSum .list r => "can only concatenate list (not \"" ++ r.fullName ++ "\") to list"
  | noSum .tuple r => "can only concatenate tuple (not \"" ++ r.fullName ++ "\") to tuple"
  | noSum .bytes r => "can't concat " ++ r.fullName ++ " to bytes"
  | noSum l r => "unsupported operand type(s) for +: '" ++ l.fullName ++ "' and '" ++ r.fullName ++ "'"
  | notText i k => "sequence item " ++ i.repr ++ ": expected str instance, " ++ k.fullName ++ " found"
  | notACount k => "'" ++ k.fullName ++ "' object cannot be interpreted as an integer"
  | arguments => "wrong number of arguments"
  | levelFrom => "Level not an integer or a valid string"

end Misuse

/-- A value of the right kind that is no possible value of what it stands for. -/
inductive BadValue where
  | controlType (shown : String)
  | dialect (shown : String)
  | integerTooLong (digits : Nat)
  | integerUnwritable
  | integer (base : Nat) (shown : String)
  | float (shown : String)
  | pairLength (index length : Nat)
  | year (n : Nat)
  | month | day | hour | minute | second
  | zone (shown : String)
  | character
  | level (shown : String)
  | workers
  deriving Repr, DecidableEq

/-- The most digits that a decimal integer may have to be read, or to be written into a script. -/
def maxIntegerDigits : Nat := 4300

namespace BadValue

def message : BadValue → String
  | controlType s => s ++ " is not a valid ControlType"
  | dialect s => s ++ " is not a valid SqlDialect"
  | integerTooLong n =>
    "Exceeds the limit (" ++ maxIntegerDigits.repr ++ " digits) for integer string conversion: value has " ++
      n.repr ++ " digits; use sys.set_int_max_str_digits() to increase the limit"
  | integerUnwritable =>
    "Exceeds the limit (" ++ maxIntegerDigits.repr ++ " digits) for integer string conversion; " ++
      "use sys.set_int_max_str_digits() to increase the limit"
  | integer base s => "invalid literal for int() with base " ++ base.repr ++ ": " ++ s
  | float s => "could not convert string to float: " ++ s
  | pairLength i n =>
    "dictionary update sequence element #" ++ i.repr ++ " has length " ++ n.repr ++ "; 2 is required"
  | year n => "year " ++ n.repr ++ " is out of range"
  | month => "month must be in 1..12"
  | day => "day is out of range for month"
  | hour => "hour must be in 0..23"
  | minute => "minute must be in 0..59"
  | second => "second must be in 0..59"
  | zone s =>
    "offset must be a timedelta strictly between -timedelta(hours=24) and timedelta(hours=24), not " ++ s ++ "."
  | character => "chr() arg not in range(0x110000)"
  | level s => "Unknown level: " ++ s
  | workers => "max_workers must be greater than 0"

end BadValue

/-- Sorts of faults. The first eight belong to this library's domain. -/
inductive Category where
  | general | validation | mapping | generation | unexpected | batchInput | target | options
  | missingKey | badValue | missingMember | misuse | outOfRange | zeroDivision | overflow
  | runtime | json | yaml | missingFile | folder
  deriving Repr, DecidableEq

/-- The domain's own sorts of faults. -/
def Category.isDomain : Category → Bool
  | general | validation | mapping | generation | unexpected | batchInput | target | options => true
  | _ => false

/-- A cause of failure. -/
inductive Fault where
  -- an analysis that lacks what a form is made of
  | analysisMissing
  | definitionMissing
  | viewsMissing
  -- control trees that cannot be flattened
  | containsItself (control : String)
  | nestedTooDeeply
  -- generation
  | nothingToRender (form : String)
  | sectionsCollide (first second table : String)
  | noResult
  | notAResult (kind : Kind)
  | notStatistics (kind : Kind)
  | raised (category : Category) (message : String)
  | unknownTarget (shown : String) (available : List String)
  -- options
  | optionsNotMapping (kind : Kind)
  | unknownOptions (names : List String)
  | unsupportedFormat (shown : String) (available : List String)
  | unreadableOptions
  -- batches
  | formsMissing
  | formsNotMapping (kind : Kind)
  | generatorMissing
  | idNotText (shown : String)
  | emptyTotal
  -- values
  | missingKey (shown : String)
  | noMember (kind : Kind) (member : String)
  | misuse (cause : Misuse)
  | badValue (cause : BadValue)
  | indexRange
  | tooLarge
  -- texts and files
  | json
  | yaml
  | missingFile
  | folder
  deriving Repr, DecidableEq

namespace Fault

def message : Fault → String
  | analysisMissing => "Analysis result is missing"
  | definitionMissing => "Form definition is missing from analysis"
  | viewsMissing => "Form definition contains no views"
  | containsItself c => "Control '" ++ c ++ "' contains itself and cannot be flattened"
  | nestedTooDeeply => "Control tree is nested too deeply to flatten"
  | nothingToRender f => "Form " ++ f ++ " has no views to render"
  | sectionsCollide a b t =>
    "Repeating sections '" ++ a ++ "' and '" ++ b ++ "' both map to table " ++ t
  | noResult => "Generator returned no result"
  | notAResult k => "Generator returned " ++ k.name ++ ", not a RebuildResult"
  | notStatistics k => "Generator returned " ++ k.name ++ " statistics, not GenerationStatistics"
  | raised _ m => m
  | unknownTarget s available =>
    "Unknown target '" ++ s ++ "'. Available: " ++ ", ".intercalate available
  | optionsNotMapping k => "Options document must be a mapping, got " ++ k.name
  | unknownOptions names => "Unknown generation options: " ++ ", ".intercalate names
  | unsupportedFormat s available =>
    "Unsupported output format '" ++ s ++ "', expected one of " ++ ", ".intercalate available
  | unreadableOptions => "Invalid options file"
  | formsMissing => "Form collection is missing"
  | formsNotMapping k => "Form collection must be a mapping of form id to analysis, got " ++ k.name
  | generatorMissing => "Generator is missing"
  | idNotText s => "Form ids must be strings, got " ++ s
  | emptyTotal => "division by zero"
  | missingKey s => s
  | noMember k m => "'" ++ k.fullName ++ "' object has no attribute '" ++ m ++ "'"
  | misuse c => c.message
  | badValue c => c.message
  | indexRange => "tuple index out of range"
  | tooLarge => "int too large to convert to float"
  | json => "unreadable JSON"
  | yaml => "unreadable YAML"
  | missingFile => "No such file or directory"
  | folder => "Is a directory"

def category : Fault → Category
  | analysisMissing | definitionMissing | viewsMissing => .validation
  | containsItself _ | nestedTooDeeply => .mapping
  | nothingToRender _ | sectionsCollide .. | noResult | notAResult _ | notStatistics _ => .generation
  | raised c _ => c
  | unknownTarget .. => .target
  | optionsNotMapping _ | unknownOptions _ | unsupportedFormat .. | unreadableOptions => .options
  | formsMissing | formsNotMapping _ | generatorMissing | idNotText _ => .batchInput
  | emptyTotal => .zeroDivision
  | missingKey _ => .missingKey
  | noMember .. => .missingMember
  | misuse _ => .misuse
  | badValue _ => .badValue
  | indexRange => .outOfRange
  | tooLarge => .overflow
  | json => .json
  | yaml => .yaml
  | missingFile => .missingFile
  | folder => .folder

/-- A fault that a batch reports with the stage it happened in. -/
def isDomain (f : Fault) : Bool := f.category.isDomain

end Fault

end Formwright
