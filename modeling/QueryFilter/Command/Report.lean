import QueryFilter.Command.Action
import QueryFilter.Command.Arguments
import QueryFilter.Dashboard
import QueryFilter.Filter.Describe
import QueryFilter.Text.Terminal

/-! # Reports of commands

What a command writes: results to standard output, progress, notes and errors to standard error.
Notes are left out unless the invocation is verbose; what steers a terminal is left out of them.
-/

namespace QueryFilter.Command

/-- The pieces of both outputs, and the error that ended the command. -/
structure Report where
  out : List String := []
  err : List String := []
  failure : Option CommandError := none

namespace Report

def append (first second : Report) : Report :=
  ⟨first.out ++ second.out, first.err ++ second.err, first.failure <|> second.failure⟩

instance : Append Report := ⟨append⟩

def line (text : String) : String := text ++ "\n"

def print (lines : List String) : Report := { out := lines.map line }

def header (text : String) : Report := { err := [line text] }

def success (text : String) : Report := { err := [line ("✔ " ++ text)] }

def info (text : String) : Report := { err := [line ("ℹ " ++ text)] }

def warning (text : String) : Report := { err := [line ("⚠ " ++ text)] }

def error (text : String) : Report := { err := [line ("✖ " ++ text)] }

def indented (text : String) : String :=
  String.ofList (text.toList.flatMap fun c => if c = '\n' then "\n    ".toList else [c])

/-- A note of a part of the program, for verbose invocations. Only what a terminal shows of the
note is written, which may lose its line end. -/
def note (verbose : Bool) (part text : String) : Report :=
  let written := Text.shown (line ("[DEBUG " ++ part ++ "] " ++ indented text))
  { err := if verbose then [written] else [] }

def fail (cause : CommandError) : Report := { failure := some cause }

def succeeded (r : Report) : Bool := r.failure.isNone

def stdout (r : Report) : String := String.join r.out

def stderr (r : Report) : String :=
  String.join r.err ++ r.failure.elim "" fun cause => line ("✖ " ++ cause.message)

end Report

def noteCommand (verbose : Bool) (text : String) : Report := .note verbose "jaql_cli::ui" text

def noteGeneric (verbose : Bool) (payload : Json) (guid : String) : Report :=
  match Filter.ofPayload? payload guid with
  | .ok _ => {}
  | .error cause =>
    .note verbose "jaql_lang::convert::to_filter"
      ("Using generic filter for '" ++ guid ++ "': " ++ cause.message)

def filterLines (f : Filter) : List String :=
  [f.describe, "  guid: " ++ f.guid, "  kind: " ++ f.kind.name,
    "  datatype: " ++ f.datatype.name] ++
    (if f.settings.disabled then ["  disabled"] else []) ++
    (if f.settings.locked then ["  locked"] else [])

def collectionLines (c : Collection) : List String :=
  if c.isEmpty then ["(no filters)"]
  else c.describe :: c.toList.map fun f => "  " ++ f.guid ++ " " ++ f.describe

def reportTranslate (inv : Invocation) (guid : String) (payload : Json) : Report :=
  let result := translate payload guid
  noteCommand inv.verbose ("Translating payload as filter '" ++ guid ++ "'") ++
    match inv.format with
    | .json => .print [result.filter.payload.pretty]
    | .pretty =>
      Report.header "Translating JAQL" ++
        (match result.shape with
          | .ok shape => Report.info ("Detected " ++ shape.label ++ " filter")
          | .error cause => Report.warning ("Using generic filter: " ++ cause.message)) ++
        Report.success ("Translated to " ++ result.filter.kind.name ++ " filter") ++
        Report.print (filterLines result.filter)

def resultLine (result : Json × Bool) : String :=
  result.1.compact ++ (if result.2 then " match" else " no match")

def resultJson (result : Json × Bool) : Json :=
  .object [("value", result.1), ("matches", .bool result.2)]

def reportTest (inv : Invocation) (texts : List String) (datatype : Option DataType)
    (payload : Json) : Report :=
  noteGeneric inv.verbose payload testGuid ++
    match testValues payload texts datatype with
    | .error cause =>
      let failure := CommandError.condition cause
      Report.error ("Failed to compile condition: " ++ failure.message) ++ .fail failure
    | .ok results =>
      match inv.format with
      | .json => .print [(Json.array (results.map resultJson)).pretty]
      | .pretty =>
        let matched := (results.filter Prod.snd).length
        Report.header "Testing values" ++
          Report.success
            (toString matched ++ " of " ++ toString results.length ++ " values match") ++
          Report.print (results.map resultLine)

def noteEdits (supply : Nat → String) (verbose : Bool) (document : Json) (remove : List String) :
    Report :=
  let items := ((Dashboard.items document).toOption).getD []
  let generic := (Dashboard.withGuids supply 0 items).map fun (guid, item) =>
    noteGeneric verbose (Dashboard.payload item) guid
  let removed := match Dashboard.read supply document with
    | .ok filters => filters.removable remove
    | .error _ => []
  let removals := removed.map fun guid =>
    noteCommand verbose ("Removing filter '" ++ guid ++ "'")
  (generic ++ removals).foldl Report.append {}

def reportRelations (inv : Invocation) (supply : Nat → String) (remove : List String)
    (document : Json) : Report :=
  noteEdits supply inv.verbose document remove ++
    match editRelations supply document remove with
    | .error cause =>
      Report.error ("Failed to read relations: " ++ cause.message) ++ .fail cause
    | .ok filters =>
      match inv.format with
      | .json => .print [(Dashboard.write filters).pretty]
      | .pretty =>
        Report.header "Filter relations" ++
          (if remove.isEmpty then {}
            else Report.success ("Removed " ++ toString remove.length ++ " filters")) ++
          Report.print (collectionLines filters)

def Subcommand.file? : Subcommand → Option String
  | .translate file _ => file
  | .test file _ _ => file
  | .relations file _ => some file

/-- The report of an invocation on the text that it reads. Filters without a guid take theirs from
the supply. -/
def report (inv : Invocation) (supply : Nat → String) (input : Except ReadFailure String) :
    Report :=
  match input with
  | .error cause => .fail (.unreadable inv.command.file? cause)
  | .ok text =>
    match Json.parse text with
    | .error cause => .fail (.notJson cause)
    | .ok value =>
      match inv.command with
      | .translate _ guid => reportTranslate inv (guid.getD (supply 0)) value
      | .test _ texts datatype => reportTest inv texts datatype value
      | .relations _ remove => reportRelations inv supply remove value

end QueryFilter.Command
