import RowStream.ColumnType
import RowStream.Number.Decimal
import RowStream.Text.Utf8

/-!
# Errors

Every way in which an operation can fail, by its cause. `Error.code` is the class of an error that
callers tell apart and `Error.message` its wording; nothing else in the library words an error.
-/

namespace RowStream

/-- A failure reported from outside of the library: its message, and what led to it,
outermost first. -/
structure Report where
  message : String
  causes : List String := []
deriving DecidableEq, Repr, Inhabited

namespace Report

def within (context : String) (r : Report) : Report := ⟨context, r.message :: r.causes⟩

def text (r : Report) : String := ": ".intercalate (r.message :: r.causes)

end Report

def bracketed (names : List String) : String := "[" ++ ", ".intercalate names ++ "]"

inductive EncodeFault where
  | outOfRange (value : Int) (type : String) (low high : Int)
  | decimalOverflow (value : Decimal) (precision scale : Nat)
  | tooLong (size : Nat)
  | fixedOverflow (size length : Nat)
  | mismatch (value : String) (type : ColumnType)
  | reported (message : String)
deriving DecidableEq, Repr

def EncodeFault.message : EncodeFault → String
  | outOfRange value type low high =>
    s!"value {value} out of range for {type}, expected [{low}, {high}]"
  | decimalOverflow value precision scale =>
    s!"value {value.text} does not fit Decimal({precision}, {scale})"
  | tooLong size => s!"string of {size} bytes exceeds the length prefix"
  | fixedOverflow size length => s!"{size} bytes do not fit FixedString({length})"
  | mismatch value type => s!"cannot write '{value}' as {type.name}"
  | reported message => message

inductive DecodeFault where
  | endOfBuffer (need offset available : Nat)
  | varintOverflow (value : Nat)
  | varintUnterminated (groups : Nat)
  | invalidDateTime (ticks : Nat)
  | invalidText (fault : Utf8.Fault)
  | reported (message : String)
deriving DecidableEq, Repr

def DecodeFault.message : DecodeFault → String
  | endOfBuffer need offset available =>
    s!"unexpected end of buffer: need {need} bytes at offset {offset}, {available} available"
  | varintOverflow value => s!"varint value {value} exceeds 32 bits"
  | varintUnterminated groups =>
    s!"malformed varint: continuation bit set after {groups} groups"
  | invalidDateTime ticks => s!"invalid DateTime64 value {ticks}"
  | invalidText fault => s!"invalid UTF-8 string: {fault.message}"
  | reported message => message

inductive ArgumentFault where
  | unreadable (text : String) (type : ColumnType)
  | inconvertible (json : String) (type : ColumnType)
  | unknownOption (option column : String)
  | unknownValue (value : Int32) (column : String)
  | invalidEnumNumber (number : String)
  | expectsNumber (key value : String)
  | expectsBoolean (key value : String)
  | unknownSource (id : String) (known : List String)
  | reported (message : String)
deriving DecidableEq, Repr

def ArgumentFault.message : ArgumentFault → String
  | unreadable text type => s!"cannot parse '{text}' as {type.name}"
  | inconvertible json type => s!"cannot convert {json} to {type.name}"
  | unknownOption option column => s!"unknown option '{option}' for column '{column}'"
  | unknownValue value column => s!"value {value.toInt} is not an option of column '{column}'"
  | invalidEnumNumber number => s!"invalid enum value {number}"
  | expectsNumber key value => s!"parameter '{key}' expects a number, got '{value}'"
  | expectsBoolean key value => s!"parameter '{key}' expects a boolean, got '{value}'"
  | unknownSource id known =>
    s!"unknown data source '{id}', configured: {bracketed known}"
  | reported message => message

inductive SchemaFault where
  | unterminatedName
  | missingName
  | missingType
  | unbalanced
  | unterminatedQuote
  | invalidNullable
  | invalidArguments
  | unterminatedLiteral
  | missingDefault
  | trailing (rest : String)
  | unknownZone (zone : String)
  | optionOutOfRange (value : Int32) (option : String) (type : ColumnType)
  | invalidArgument (argument : String) (type : ColumnType)
  | invalidOptionNumber (number : String)
  | invalidOptionValue (option : String)
  | columnNotObject
  | tableNotArray
  | missingColumns
  | invalidVersion
  | missingCount
  | invalidCount
  | countMismatch (expected found : Nat)
  | noColumns
  | argument (fault : ArgumentFault)
  | reported (message : String)
deriving DecidableEq, Repr

def SchemaFault.message : SchemaFault → String
  | unterminatedName => "unterminated quoted column name"
  | missingName => "missing column name"
  | missingType => "missing column type"
  | unbalanced => "unbalanced parentheses"
  | unterminatedQuote => "unterminated quote"
  | invalidNullable => "invalid Nullable type"
  | invalidArguments => "invalid type arguments"
  | unterminatedLiteral => "unterminated string literal"
  | missingDefault => "missing DEFAULT value"
  | trailing rest => s!"unexpected input '{rest}'"
  | unknownZone zone => s!"unknown timezone '{zone}'"
  | optionOutOfRange value option type =>
    s!"value {value.toInt} of option '{option}' out of range for {type.name}"
  | invalidArgument arg type => s!"invalid argument '{arg}' for {type.name}"
  | invalidOptionNumber number => s!"invalid enum value '{number}'"
  | invalidOptionValue option => s!"invalid value for option '{option}'"
  | columnNotObject => "column config must be an object"
  | tableNotArray => "table config must be an array"
  | missingColumns => "missing 'columns' array"
  | invalidVersion => "invalid format version"
  | missingCount => "missing column count"
  | invalidCount => "invalid column count"
  | countMismatch expected found => s!"expected {expected} columns but found {found}"
  | noColumns => "schema has no columns"
  | argument fault => fault.message
  | reported message => message

inductive AbortCause where
  | sinkClosed
  | deadlineExceeded
  | writeFailed (report : Report)
  | reported (message : String)
deriving DecidableEq, Repr

def AbortCause.message : AbortCause → String
  | sinkClosed => "response sink closed"
  | deadlineExceeded => "deadline exceeded"
  | writeFailed report => s!"write failed: {report.text}"
  | reported message => message

inductive ConfigFault where
  | notAnObject
  | unreadable (path reason : String)
  | noType (id : String)
  | unknownType (id type : String) (known : List String)
  | rejected (id : String) (report : Report)
  | malformedSettings
  | invalidSetting (name : String)
  | reported (message : String)
deriving DecidableEq, Repr

def ConfigFault.message : ConfigFault → String
  | notAnObject => "data source configuration must be an object"
  | unreadable path reason => s!"cannot read {path}: {reason}"
  | noType id => s!"data source '{id}' has no 'type'"
  | unknownType id type known =>
    s!"data source '{id}' has unknown type '{type}', known types: {bracketed known}"
  | rejected id report => s!"data source '{id}': {report.text}"
  | malformedSettings => "settings must be a JSON object"
  | invalidSetting name => s!"invalid value for setting '{name}'"
  | reported message => message

/-- A rule of the library broken by its caller, or a failure of the system. -/
inductive InternalFault where
  | indexTaken (column : String) (index : Nat)
  | rowLimit
  | io (message : String)
  | reported (message : String)
deriving DecidableEq, Repr

def InternalFault.message : InternalFault → String
  | indexTaken column index => s!"index of column '{column}' already set to {index}"
  | rowLimit => "too many rows"
  | io message => s!"IO error: {message}"
  | reported message => message

inductive Error where
  | encode (fault : EncodeFault)
  | decode (fault : DecodeFault)
  /-- A schema is malformed; `fragment` is the piece of it that is to blame. -/
  | schema (fault : SchemaFault) (fragment : String)
  | resolution (column : String) (available : List String)
  | dataAccess (source : String) (report : Report)
  | aborted (cause : AbortCause)
  | invalidArgument (fault : ArgumentFault)
  | config (fault : ConfigFault)
  | serialization (message : String)
  | internal (fault : InternalFault)
deriving DecidableEq, Repr

namespace Error

def code : Error → String
  | encode _ => "ENCODE_ERROR"
  | decode _ => "DECODE_ERROR"
  | schema .. => "SCHEMA_PARSE_ERROR"
  | resolution .. => "RESOLUTION_ERROR"
  | dataAccess .. => "DATA_ACCESS_ERROR"
  | aborted _ => "ABORTED"
  | invalidArgument _ => "INVALID_ARGUMENT"
  | config _ => "CONFIG_ERROR"
  | serialization _ => "SERIALIZATION_ERROR"
  | internal _ => "INTERNAL"

def message : Error → String
  | encode fault => s!"Encoding error: {fault.message}"
  | decode fault => s!"Decoding error: {fault.message}"
  | schema fault fragment => s!"Schema parse error: {fault.message} [{fragment}]"
  | resolution column available =>
    s!"Column '{column}' not found, available result columns: {bracketed available}"
  | dataAccess source report => s!"Failed to read from data source '{source}': {report.text}"
  | aborted cause => s!"Stream aborted: {cause.message}"
  | invalidArgument fault => s!"Invalid argument: {fault.message}"
  | config fault => s!"Configuration error: {fault.message}"
  | serialization message => s!"Serialization error: {message}"
  | internal fault => s!"Internal error: {fault.message}"

/-- Whether the error is part of normal operation: the receiver went away. -/
def isExpected : Error → Bool
  | aborted _ => true
  | _ => false

/-- The error as a report: a failed data source leads it by what the source reported. -/
def report : Error → Report
  | dataAccess source report =>
    ⟨(dataAccess source report).message, report.message :: report.causes⟩
  | e => ⟨e.message, []⟩

end Error

end RowStream
