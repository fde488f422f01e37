import AmLang.Log.Line
/-!
# Log records and their text

A record is what one log call hands to the sinks: a severity, a tag, a message and a time in
milliseconds. Sinks write it in one of two formats:

* text: `HH:MM:SS.mmm LEVEL [tag] message` and a line end, the level name padded to five
  columns. The clock reads `00:00:00.000`: times of day are not part of any answer.
* JSON: `{"ts":…,"level":"…","module":"…","msg":"…"}` and a line end, where only `"`, `\`,
  line feed, carriage return and tab of the message are escaped; every other byte, control
  characters included, is written as it is. The tag is written as it is.

Capturing keeps `[tag] message`.
-/

namespace AmLang.Log

/-- What one log call hands to the sinks. -/
structure Record where
  level : Severity := Level.info
  tag : String := ""
  message : String := ""
  /-- Milliseconds since the epoch. -/
  time : Int := 0
deriving Inhabited

/-- The two formats sinks write records in. -/
inductive Format where
  | text
  | json
deriving BEq, DecidableEq, Inhabited

/-- The message of a record escaped for a JSON string: `"`, `\`, line feed, carriage return
and tab. -/
def escapeMessage (s : String) : String :=
  String.join (s.toList.map fun c => match c with
    | '"' => "\\\""
    | '\\' => "\\\\"
    | '\n' => "\\n"
    | '\r' => "\\r"
    | '\t' => "\\t"
    | c => c.toString)

/-- Whether a text holds another as a contiguous part. -/
def holds (text part : String) : Bool :=
  let p := part.toList
  let t := text.toList
  (List.range (t.length + 1)).any fun i => p.isPrefixOf (t.drop i)

namespace Record

/-- A log line of a phase as a record at time zero. -/
def ofLine (l : Line) : Record := { level := l.level, tag := l.tag, message := l.message }

/-- The text line of a record. -/
def text (r : Record) : String :=
  let name := r.level.name
  "00:00:00.000 " ++ name ++ String.ofList (List.replicate (5 - name.length) ' ') ++
    " [" ++ r.tag ++ "] " ++ r.message ++ "\n"

/-- The JSON line of a record. -/
def json (r : Record) : String :=
  "\x7b\"ts\":" ++ toString r.time ++ ",\"level\":\"" ++ r.level.name ++ "\",\"module\":\"" ++
    r.tag ++ "\",\"msg\":\"" ++ escapeMessage r.message ++ "\"\x7d\n"

/-- The record in a format. -/
def render (r : Record) : Format → String
  | .text => r.text
  | .json => r.json

/-- What a capture keeps of a record. -/
def captured (r : Record) : String := "[" ++ r.tag ++ "] " ++ r.message

end Record

end AmLang.Log
