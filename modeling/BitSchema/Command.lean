import BitSchema.Command.Arguments
import BitSchema.Lint
import BitSchema.Reader

/-!
# The command

`Command.run` does what the command line asks for, on given files: it reads the schema file, looks for
bad style, and writes the files of the chosen language.  The answer holds the exit code, what goes to
the two output streams, and the files to write.

A run ends with code 2 if the arguments make no sense, with code 1 if something is wrong with the schema or
a file, and with code 0 otherwise.  With the flag that only checks, bad style is an error too.
-/

namespace BitSchema.Command

def versionNumber : String := "0.4.1"

def textOf (lines : List String) : String := String.join (lines.map (· ++ "\n"))

def usage (program : String) : List String :=
  let start := "usage: " ++ program ++ " "
  [start ++ "[-h] [-c] [-q] [-O] [-F FILTER_MESSAGES] [-v]",
   String.ofList (List.replicate start.length ' ') ++ "[lang] file [out]"]

def help (program : String) : List String :=
  usage program ++ [
    "",
    "bit level data interchange format.",
    "",
    "arguments:",
    "  lang                  language to generate, one of: " ++ ", ".intercalate languages,
    "  file                  path of bitproto file to compile",
    "  out                   output directory for code generating",
    "",
    "options:",
    "  -h, --help            show this help message and exit",
    "  -c, --check           check proto syntax",
    "  -q, --disable-lint    disable linter",
    "  -O, --optimize        enable performance optimization mode, this works only",
    "                        if bitproto is traditional.",
    "  -F FILTER_MESSAGES, --filter-messages FILTER_MESSAGES",
    "                        message list seperated by comma to render encoder and",
    "                        decoder functions, this works only if optimization",
    "                        mode enabled.",
    "  -v, --version         show version",
    "",
    "example usage:",
    "",
    "  bitproto c example.bitproto                   build c language file",
    "  bitproto go example.bitproto                  build go language file",
    "  bitproto py example.bitproto                  build python language file",
    "  bitproto -c example.bitproto                  validate bitproto file syntax",
    "  bitproto c example.bitproto out               build c language file to directory out",
    "  bitproto c example.bitproto -q                option -q to disable builtin linter",
    "  bitproto c example.bitproto -O                enable performance optimization in traditional mode",
    "  bitproto c example.bitproto -O -F Foo,Bar     only generate encoder and decoder functions for",
    "                                                message Foo and Bar in optimization mode."]

/-- **What a run leaves behind.** -/
structure Result where
  /-- The exit code, or a fault for which the command has no answer. -/
  exit : Except Fault Nat
  stdout : List String := []
  stderr : List String := []
  outputs : List Output := []

namespace Result

def telling (r : Result) (line : Option String) : Result :=
  { r with stderr := r.stderr ++ line.toList }

/-- The run ends because something is wrong with a schema or a file. -/
def failing (r : Result) (line : Option String) : Result :=
  { r.telling line with exit := .ok 1 }

/-- The run ends with a fault.  Problems of the given families and failures with files are told to the
user. -/
def faulting (r : Result) (families : List Family) (f : Fault) : Result :=
  match f with
  | .report report =>
    if families.contains report.problem.family then r.failing (some report.painted)
    else { r with exit := .error f }
  | .fileMissing _ | .isDirectory _ | .notDirectory _ | .pathTooLong _ => r.failing (some f.message)
  | _ => { r with exit := .error f }

end Result

def filterNames (filter : Option String) : List String :=
  match filter with
  | none => []
  | some text => if text.isEmpty then [] else (text.splitOn ",").map Text.trim

def write (files : Files) (s : Settings) (d : Def) (r : Result) : Result :=
  let only := filterNames s.filter
  match s.language with
  | none => r.failing (some (Report.shown { problem := .noLanguage }))
  | some language =>
    if !s.optimize && !only.isEmpty then
      r.failing (some "-F not available in non-optimization mode.")
    else
      let plan : OutputPlan := { env := ⟨[d]⟩, file := d, optimized := s.optimize, only }
      let (outputs, fault) := plan.render files (s.outdir.getD "") language
      let r := { r with outputs }
      match fault with
      | some f => r.faulting [.rendering] f
      | none => r

/-- Only checks a schema: bad style is an error.  Whether there is any is not known if nobody looked. -/
def checkOnly (s : Settings) (warnings : List Report) (r : Result) : Result :=
  if s.noLint then { r with exit := .error .lintSkipped }
  else if warnings.isEmpty then r
  else r.failing none

def work (files : Files) (s : Settings) (file : String) : Result :=
  let outcome := Reader.parse files file (s.optimize && !s.check)
  let r : Result := { exit := .ok 0, stderr := outcome.notes }
  match outcome.result with
  | .error f => r.faulting [.source, .token, .grammar] f
  | .ok d =>
    match if s.noLint then .ok [] else d.lint with
    | .error f => { r with exit := .error f }
    | .ok warnings =>
      let r := { r with stderr := r.stderr ++ warnings.map Report.painted }
      if s.check then checkOnly s warnings r else write files s d r

/-- **The command.** -/
def run (files : Files) (program : String) (args : List String) : Result :=
  match Settings.ofArguments args with
  | .ok (_, none) => { exit := .error .noPath }
  | .ok (s, some file) => work files s file
  | .error .help => { exit := .ok 0, stdout := help program }
  | .error .version => { exit := .ok 0, stdout := [program ++ " v" ++ versionNumber] }
  | .error (.misuse message) =>
    { exit := .ok 2, stderr := usage program ++ [program ++ ": error: " ++ message] }

end BitSchema.Command
