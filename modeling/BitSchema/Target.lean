import BitSchema.Files
import BitSchema.Target.CSource
import BitSchema.Target.GoPackage
import BitSchema.Target.PythonModule

/-!
# Targets

The languages a schema can be written in, and the files that are written for it.  A schema becomes a
source file and a header in C, and one file in Go and Python.  Packing and unpacking can be written out as
statements in C and Go only.
-/

namespace BitSchema

/-- **Artifacts.** The kinds of files that are written. -/
inductive Artifact where
  | cSource | cHeader | goPackage | pythonModule
deriving DecidableEq, Repr

namespace Artifact

def dialect : Artifact → Dialect
  | .cSource => .c
  | .cHeader => .c
  | .goPackage => .go
  | .pythonModule => .python

def language : Artifact → String
  | .cSource => "c"
  | .cHeader => "c"
  | .goPackage => "go"
  | .pythonModule => "py"

def extension : Artifact → String
  | .cSource => ".c"
  | .cHeader => ".h"
  | .goPackage => ".go"
  | .pythonModule => ".py"

def optimizes (a : Artifact) : Bool := a != .pythonModule

def block (a : Artifact) (p : OutputPlan) : Except Fault Block :=
  match a with
  | .cSource => CSource.block p
  | .cHeader => CHeader.block p
  | .goPackage => GoPackage.block p
  | .pythonModule => PythonModule.block p

def check (a : Artifact) (optimized : Bool) : Except Fault Unit :=
  if optimized && !a.optimizes then
    .error (.report { problem := .noOptimization, language := a.language })
  else .ok ()

/-- **The text of a file.** -/
def text (a : Artifact) (p : OutputPlan) : Except Fault String := do
  (← a.block p).text a.dialect

end Artifact

def languages : List String := ["c", "go", "py"]

def artifacts? (language : String) : Option (List Artifact) :=
  if language = "c" then some [.cSource, .cHeader]
  else if language = "go" then some [.goPackage]
  else if language = "py" then some [.pythonModule]
  else none

namespace Def

def outputDirectory (file : Def) (cwd outdir : String) : String :=
  let path := file.header.origin.file
  if !outdir.isEmpty then outdir
  else if path.isEmpty then cwd
  else Path.directory (Path.absolute cwd path)

end Def

structure Output where
  path : String
  content : String
deriving DecidableEq, Repr

namespace OutputPlan

def outputPath (p : OutputPlan) (cwd outdir : String) (a : Artifact) : String :=
  Path.join (p.file.outputDirectory cwd outdir) (p.file.outputName a.extension)

/-- Writes files one after the other; those before a failure are written all the same. -/
def outputs (p : OutputPlan) (fs : Files) (outdir : String) :
    List Artifact → List Output × Option Fault
  | [] => ([], none)
  | a :: as =>
    let path := p.outputPath fs.cwd outdir a
    let content := do
      a.check p.optimized
      let text ← a.text p
      fs.checkWritable path
      return text
    match content with
    | .error f => ([], some f)
    | .ok content =>
      let (rest, fault) := p.outputs fs outdir as
      (⟨path, content⟩ :: rest, fault)

/-- **Rendering** in the language with the given name: the files that were written, and what ended the
work, if something did. -/
def render (p : OutputPlan) (fs : Files) (outdir language : String) : List Output × Option Fault :=
  match artifacts? language with
  | none => ([], some (.report { problem := .languageUnknown }))
  | some as => p.outputs fs outdir as

end OutputPlan

end BitSchema
