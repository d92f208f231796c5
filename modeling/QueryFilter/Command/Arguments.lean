import QueryFilter.Column.Basic

/-! # Arguments of the command line

Options and one file, at the top level and behind a subcommand. An option's value stands in the same
argument or in the next one; it is judged when the next option or file is met, or at the end. The
output format may also come from the environment.
-/

namespace QueryFilter.Command

inductive Format where
  | pretty
  | json
deriving DecidableEq

def Format.ofName? (name : String) : Option Format :=
  if name = "pretty" then some .pretty else if name = "json" then some .json else none

inductive Subcommand where
  | translate (file guid : Option String)
  | test (file : Option String) (values : List String) (datatype : Option DataType)
  | relations (file : String) (remove : List String)
deriving DecidableEq

structure Invocation where
  verbose : Bool
  format : Format
  command : Subcommand
deriving DecidableEq

inductive Refusal where
  | help
  | version
  | noArguments
  | noSubcommand
  | unknownSubcommand
  | missingArgument
  | unknownArgument
  | badValue
  | surplusValue
  | repeatedOption
deriving DecidableEq

/-- Where an argument stands: before the subcommand, or behind which. -/
inductive Level where
  | top
  | translate
  | test
  | relations
deriving DecidableEq

inductive Flag where
  | verbose
  | help
  | version
deriving DecidableEq

inductive Slot where
  | format
  | guid
  | value
  | datatype
  | remove
  | file
deriving DecidableEq

inductive Named where
  | flag (flag : Flag)
  | slot (slot : Slot)
deriving DecidableEq

namespace Level

def ofName? (name : String) : Option Level :=
  if name = "translate" then some .translate
  else if name = "test" then some .test
  else if name = "relations" then some .relations
  else none

def longNames (level : Level) : List (String × Named) :=
  [("verbose", .flag .verbose), ("format", .slot .format), ("help", .flag .help)] ++
    match level with
    | .top => [("version", .flag .version)]
    | .translate => [("guid", .slot .guid)]
    | .test => [("value", .slot .value), ("datatype", .slot .datatype)]
    | .relations => [("remove", .slot .remove)]

def letters (level : Level) : List (Char × Named) :=
  [('v', .flag .verbose), ('f', .slot .format), ('h', .flag .help)] ++
    match level with
    | .top => [('V', .flag .version)]
    | _ => []

end Level

structure Given where
  verbose : Bool := false
  format : Option Format := none
  guid : Option String := none
  values : List String := []
  datatype : Option DataType := none
  remove : List String := []
  file : Option String := none

/-- Judges a value and keeps it. Only values to test and guids to remove may be given repeatedly. -/
def Given.put (given : Given) (slot : Slot) (text : String) : Except Refusal Given :=
  match slot with
  | .format =>
    if given.format.isSome then .error .repeatedOption
    else
      match Format.ofName? text with
      | some format => .ok { given with format := some format }
      | none => .error .badValue
  | .guid =>
    if given.guid.isSome then .error .repeatedOption else .ok { given with guid := some text }
  | .value => .ok { given with values := given.values ++ [text] }
  | .datatype =>
    if given.datatype.isSome then .error .repeatedOption
    else
      match DataType.ofName? text with
      | some datatype => .ok { given with datatype := some datatype }
      | none => .error .badValue
  | .remove => .ok { given with remove := given.remove ++ [text] }
  | .file => if text = "" then .error .badValue else .ok { given with file := some text }

/-- What is given so far, and the last slot with its value, which is not judged yet or still to
come. -/
structure Progress where
  given : Given := {}
  pending : Option (Slot × Option String) := none

namespace Progress

def settle (p : Progress) : Except Refusal Given :=
  match p.pending with
  | none => .ok p.given
  | some (slot, some text) => p.given.put slot text
  | some (_, none) => .error .badValue

def awaited? (p : Progress) : Option Slot :=
  match p.pending with
  | some (slot, none) => some slot
  | _ => none

def hasFile (p : Progress) : Bool :=
  p.given.file.isSome || p.pending.any fun (slot, _) => slot == .file

def raise (p : Progress) (flag : Flag) : Except Refusal Progress := do
  let given ← p.settle
  match flag with
  | .help => .error .help
  | .version => .error .version
  | .verbose =>
    if given.verbose then .error .repeatedOption
    else return { given := { given with verbose := true } }

/-- A slot whose value is in the same argument. -/
def fill (p : Progress) (slot : Slot) (text : String) : Except Refusal Progress := do
  let given ← p.settle
  return { given := ← given.put slot text }

/-- A slot whose value is in the next argument. -/
def await (p : Progress) (slot : Slot) : Except Refusal Progress := do
  let given ← p.settle
  return { given, pending := some (slot, none) }

/-- An option by its long name, with the text behind an equals sign if there is one. -/
def readLong (p : Progress) (level : Level) (text : List Char) : Except Refusal Progress :=
  let name := String.ofList (text.takeWhile fun c => c != '=')
  match level.longNames.lookup name, text.dropWhile fun c => c != '=' with
  | none, _ => .error .unknownArgument
  | some (.flag flag), [] => p.raise flag
  | some (.flag _), _ :: _ => .error .surplusValue
  | some (.slot slot), [] => p.await slot
  | some (.slot slot), _ :: value => p.fill slot (String.ofList value)

/-- Options by their letters; behind the letter of a slot stands its value, an equals sign in front
of it left out. -/
def readLetters (p : Progress) (level : Level) : List Char → Except Refusal Progress
  | [] => .ok p
  | c :: rest =>
    match level.letters.lookup c with
    | none => .error .unknownArgument
    | some (.flag flag) => do (← p.raise flag).readLetters level rest
    | some (.slot slot) =>
      match rest with
      | [] => p.await slot
      | '=' :: value => p.fill slot (String.ofList value)
      | value => p.fill slot (String.ofList value)

/-- An argument that is no option: the file, if the level has one and it is not given yet. -/
def readFile (p : Progress) (level : Level) (trailing : Bool) (text : String) :
    Except Refusal Progress :=
  match level with
  | .top =>
    let isName := text = "help" ∨ (Level.ofName? text).isSome
    .error (if trailing ∧ isName then .unknownArgument else .unknownSubcommand)
  | _ =>
    if p.hasFile then .error .unknownArgument
    else do
      let given ← p.settle
      return { given, pending := some (.file, some text) }

def readArgument (p : Progress) (level : Level) (text : String) : Except Refusal Progress :=
  match text.toList with
  | '-' :: '-' :: name => p.readLong level name
  | '-' :: c :: rest => p.readLetters level (c :: rest)
  | _ =>
    match p.awaited? with
    | some slot => .ok { p with pending := some (slot, some text) }
    | none => p.readFile level false text

end Progress

def helpOn : List String → Refusal
  | [] => .help
  | [name] => if name = "help" ∨ (Level.ofName? name).isSome then .help else .unknownSubcommand
  | _ => .unknownSubcommand

/-- Reads arguments up to the end, or at the top level up to a subcommand, which is returned with
the arguments behind it. Behind a double hyphen there are no options. -/
def readArguments (level : Level) (trailing : Bool) (p : Progress) :
    List String → Except Refusal (Progress × Option (Level × List String))
  | [] => .ok (p, none)
  | text :: rest =>
    if trailing then do readArguments level true (← p.readFile level true text) rest
    else if level = .top ∧ p.awaited?.isNone ∧ text = "help" then .error (helpOn rest)
    else
      match (if level = .top ∧ p.awaited?.isNone then Level.ofName? text else none) with
      | some subcommand => .ok (p, some (subcommand, rest))
      | none =>
        if text = "--" then readArguments level true p rest
        else do readArguments level false (← p.readArgument level text) rest

def environmentFormat (setting : Option String) (given : Given) : Except Refusal (Option Format) :=
  match given.format, setting with
  | none, some name =>
    match Format.ofName? name with
    | some format => .ok (some format)
    | none => .error .badValue
  | _, _ => .ok none

def Given.subcommand (given : Given) : Level → Except Refusal Subcommand
  | .top => .error .noSubcommand
  | .translate => .ok (.translate given.file given.guid)
  | .test =>
    if given.values.isEmpty then .error .missingArgument
    else .ok (.test given.file given.values given.datatype)
  | .relations =>
    match given.file with
    | some file => .ok (.relations file given.remove)
    | none => .error .missingArgument

/-- The invocation that arguments describe. `setting` is the format in the environment. What is
given behind the subcommand goes before what is given in front of it. -/
def Invocation.ofArguments (setting : Option String) (arguments : List String) :
    Except Refusal Invocation := do
  let (p, found) ← readArguments .top false {} arguments
  match found with
  | none =>
    let outer ← p.settle
    let _ ← environmentFormat setting outer
    if !outer.verbose && outer.format.isNone && setting.isNone then .error .noArguments
    else .error .noSubcommand
  | some (level, rest) =>
    let (q, _) ← readArguments level false {} rest
    let inner ← q.settle
    let fallback ← environmentFormat setting inner
    let command ← inner.subcommand level
    let outer ← p.settle
    let _ ← environmentFormat setting outer
    return {
      verbose := inner.verbose || outer.verbose
      format := (inner.format <|> outer.format <|> fallback).getD .pretty
      command }

end QueryFilter.Command
