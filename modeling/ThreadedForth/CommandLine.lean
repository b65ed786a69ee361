import ThreadedForth.Conversation

/-!
# The command line

The arguments are options and files.  The files are run one after the other in one session, and
then, unless only the files were wanted, a conversation follows.  A file that fails does not keep
the next ones from running; a file that says goodbye without having failed ends everything.

Nothing here reads a file or prints: the content of files is asked of a function, and what is to be
printed is returned.
-/

namespace ThreadedForth.CommandLine

/-- What the arguments say. -/
structure Options where
  files : List String := []
  /-- Run the files and nothing else. -/
  batch : Bool := false
  help : Bool := false
  version : Bool := false
  /-- Log every step. -/
  trace : Bool := false
  withoutPrelude : Bool := false
  logLevel : Option LogLevel := none
  deriving DecidableEq, Inhabited

/-- Reads the arguments from left to right; the first one that makes no sense is complained
about. -/
def Options.read (options : Options) : List String → Except String Options
  | [] => .ok options
  | "--log-level" :: [] => .error "--log-level requires a value"
  | "--log-level" :: value :: rest =>
    match LogLevel.ofText? value with
    | some level => { options with logLevel := some level }.read rest
    | none => .error ("invalid --log-level value: " ++ value)
  | argument :: rest =>
    match argument with
    | "-h" | "--help" => { options with help := true }.read rest
    | "-V" | "--version" => { options with version := true }.read rest
    | "-b" | "--batch" => { options with batch := true }.read rest
    | "--trace" => { options with trace := true }.read rest
    | "--no-prelude" => { options with withoutPrelude := true }.read rest
    | _ =>
      if argument.toList.head? = some '-' then .error ("unknown option: " ++ argument)
      else { options with files := options.files ++ [argument] }.read rest

/-- The settings of the session.  Logging every step needs the level at which steps are logged, and
there is no banner after files. -/
def Options.settings (options : Options) : Settings where
  prelude := !options.withoutPrelude
  banner := options.files.isEmpty
  logLevel := options.logLevel.getD (if options.trace then .trace else Settings.logLevel {})

/-- Text in bold. -/
def bold (text : String) : String := "\x1b[1m" ++ text ++ "\x1b[0m"

def helpText : String :=
  bold "threadcell" ++ " - Threaded-code Forth-family interpreter\n\n" ++
  bold "USAGE:" ++ "\n    threadcell [OPTIONS] [FILES...]\n\n" ++
  bold "ARGUMENTS:" ++ "
    [FILES...]    Source files to run before starting the REPL\n\n" ++
  bold "OPTIONS:" ++ "
    -h, --help           Print help information
    -V, --version        Print version information
    -b, --batch          Run files and exit (no REPL)
    --no-prelude         Skip the IF/BEGIN/HEX prelude
    --log-level LEVEL    Log to stderr at LEVEL (off, error, warn, info, debug, trace)
    --trace              Log every engine step (implies --log-level trace)\n\n" ++
  bold "EXAMPLES:" ++ "
    threadcell                     Start interactive REPL
    threadcell lib.fs              Run lib.fs, then start REPL
    threadcell -b test.fs          Run test.fs and exit
    threadcell --trace -b tiny.fs  Run with per-step tracing\n\n" ++
  bold "REPL:" ++ "
    WORDS          List visible words
    SEE name       Decompile a word
    BYE            Exit
    Ctrl+D         Exit
    Ctrl+C         Cancel the current line\n"

def versionText : String := "threadcell " ++ version ++ "\n"

/-! ## Running -/

/-- How the program ends. -/
structure Outcome where
  failed : Bool := false
  /-- What is printed. -/
  output : String := ""
  /-- The lines of complaint. -/
  errors : List String := []
  deriving DecidableEq, Inhabited

/-- A line of complaint. -/
def complaint (reason : String) : String := "\x1b[31mError: " ++ reason ++ "\x1b[0m"

/-- Failing with one complaint. -/
def Outcome.failure (reason : String) : Outcome :=
  { failed := true, errors := [complaint reason] }

/-- Why a file cannot be read. -/
inductive FileError where
  /-- There is no such file. -/
  | missing
  /-- It is a directory. -/
  | directory
  /-- A file stands where the path needs a directory. -/
  | notDirectory
  /-- A part of the path is longer than any name. -/
  | longName
  /-- It is not text. -/
  | encoding
  | other (reason : String)
  deriving DecidableEq, Repr

def FileError.message : FileError → String
  | .missing => "No such file or directory (os error 2)"
  | .directory => "Is a directory (os error 21)"
  | .notDirectory => "Not a directory (os error 20)"
  | .longName => "File name too long (os error 36)"
  | .encoding => "stream did not contain valid UTF-8"
  | .other reason => reason

/-- What the files come to. -/
structure Progress where
  session : Session
  /-- A file could not be read or has failed. -/
  failed : Bool := false
  errors : List String := []
  /-- A file has said goodbye. -/
  ended : Bool := false

/-- Runs one file.  Failures of the program were printed when they struck, so only a failure of
reading or printing is complained about. -/
def Progress.load (fuel : Nat) (readFile : String → Except FileError String) (progress : Progress)
    (file : String) : Option Progress := do
  let content := (readFile file).mapError fun reason => file ++ ": " ++ reason.message
  let (result, session) ← progress.session.load fuel content
  match result with
  | .ok .bye => return { progress with session, ended := true, failed := false }
  | .ok _ => return { progress with session }
  | .error error =>
    let errors := match error.cause with
      | .io _ => progress.errors ++ [complaint error.cause.message]
      | _ => progress.errors
    return { progress with session, failed := true, errors }

/-- Runs files in order until one says goodbye. -/
def Progress.loadAll (fuel : Nat) (readFile : String → Except FileError String)
    (progress : Progress) : List String → Option Progress
  | [] => some progress
  | file :: files => do
    let progress ← progress.load fuel readFile file
    if progress.ended then return progress else progress.loadAll fuel readFile files

/-- What comes before a conversation. -/
inductive Stage where
  /-- There is none. -/
  | finished (outcome : Outcome)
  /-- The session to be talked with, which holds what was printed so far, and the complaints. -/
  | conversation (session : Session) (errors : List String)

/-- Does everything that comes before a conversation, in a session whose dictionary has drawn an
order. -/
def begin (fuel : Nat) (readFile : String → Except FileError String) (arguments : List String)
    (order : NameOrder := default) : Option Stage :=
  match ({} : Options).read arguments with
  | .error reason => some (.finished (.failure reason))
  | .ok options =>
    if options.help then some (.finished { output := helpText })
    else if options.version then some (.finished { output := versionText })
    else do
      match ← Session.build fuel options.settings order with
      | .error error => return .finished (.failure error.cause.message)
      | .ok session =>
        let progress ← { session : Progress }.loadAll fuel readFile options.files
        if options.batch ∨ progress.ended then
          return .finished { failed := progress.failed
                             output := progress.session.machine.state.output.text
                             errors := progress.errors }
        else return .conversation progress.session progress.errors

/-- Runs the program on its arguments; the user of the conversation is given by the editor. -/
def run (fuel : Nat) (readFile : String → Except FileError String) (editor : LineEditor)
    (arguments : List String) (order : NameOrder := default) : Option Outcome := do
  match ← begin fuel readFile arguments order with
  | .finished outcome => return outcome
  | .conversation session errors =>
    let conversation : Conversation := { session, editor }
    let (result, output, _) ← conversation.run fuel session.machine.state.output
    match result with
    | .ok _ => return { output := output.text ++ "\n", errors }
    | .error cause =>
      return { failed := true
               output := output.text
               errors := errors ++ [complaint cause.message] }

end ThreadedForth.CommandLine
