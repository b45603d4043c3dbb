import BitSchema.Script.Packing

/-!
# Units of the library

What scripts can bring in besides other scripts: the unit that packs records, and units of the language's own
library, of most of which only the name is known.
-/

namespace BitSchema.Script

def silentUnits : List String := [
  "abc", "argparse", "array", "ast", "asyncio", "base64", "binascii", "bisect", "builtins", "calendar",
  "codecs", "collections", "configparser", "contextlib", "copy", "csv", "ctypes", "datetime", "decimal",
  "difflib", "dis", "email", "enum", "errno", "fcntl", "filecmp", "fnmatch", "fractions", "functools", "gc",
  "getopt", "getpass", "glob", "gzip", "hashlib", "heapq", "hmac", "html", "http", "importlib", "inspect", "io",
  "ipaddress", "itertools", "keyword", "linecache", "locale", "logging", "math", "mimetypes",
  "multiprocessing", "numbers", "operator", "os", "pathlib", "pickle", "pkgutil", "platform", "pprint",
  "queue", "random", "re", "resource", "runpy", "sched", "secrets", "select", "selectors", "shelve", "shlex",
  "shutil", "signal", "site", "socket", "sqlite3", "ssl", "stat", "statistics", "string", "struct",
  "subprocess", "symtable", "sys", "sysconfig", "tarfile", "tempfile", "textwrap", "threading", "time",
  "timeit", "token", "tokenize", "tomllib", "traceback", "types", "unicodedata", "unittest", "urllib", "uuid",
  "warnings", "weakref", "xml", "zipfile", "zlib", "zoneinfo", "_thread", "__future__", "__main__", "posixpath",
  "asyncio.events", "collections.abc", "email.message", "html.parser", "http.client", "importlib.machinery",
  "importlib.util", "json.decoder", "json.encoder", "json.scanner", "json.tool", "logging.handlers",
  "unittest.mock", "urllib.parse", "urllib.request", "xml.dom", "xml.etree"]

def packages : List String := [
  "asyncio", "bitprotolib", "collections", "ctypes", "email", "html", "http", "importlib", "json", "logging",
  "multiprocessing", "re", "sqlite3", "tomllib", "unittest", "urllib", "xml", "zoneinfo"]

def smallLetters : String := "abcdefghijklmnopqrstuvwxyz"

def ownLibrary : List (String × Names) :=
  let tools := fun (unit : String) (names : List String) => names.map fun n => (n, Val.tool (unit ++ "." ++ n))
  let texts := fun (entries : List (String × String)) => entries.map fun (n, s) => (n, Val.text s)
  [("json", tools "json" ["dumps", "loads"]),
   ("dataclasses", tools "dataclasses" ["dataclass", "field", "asdict", "MISSING"]),
   ("typing", tools "typing" ["List", "Dict", "ClassVar", "Any", "Optional", "Union", "Tuple", "Set", "Callable",
      "Iterator", "Iterable", "Type", "Sequence", "Mapping", "NamedTuple", "TypeVar", "Generic"]),
   ("math", [("pi", .float 3.141592653589793), ("e", .float 2.718281828459045), ("tau", .float 6.283185307179586),
      ("inf", .float (1.0 / 0.0)), ("nan", .float (0.0 / 0.0))] ++ tools "math" ["floor", "ceil", "trunc", "sqrt"]),
   ("sys", [("maxsize", .int 9223372036854775807), ("maxunicode", .int 1114111), ("byteorder", .text "little"),
      ("platform", .text "linux")]),
   ("os", texts [("name", "posix"), ("sep", "/"), ("linesep", "\n"), ("curdir", "."), ("pardir", ".."),
      ("pathsep", ":"), ("devnull", "/dev/null")] ++ tools "os" ["getcwd"]),
   ("string", texts [("ascii_lowercase", smallLetters), ("ascii_uppercase", smallLetters.toUpper),
      ("ascii_letters", smallLetters ++ smallLetters.toUpper), ("digits", "0123456789"),
      ("hexdigits", "0123456789abcdefABCDEF"), ("octdigits", "01234567")])]

def libraryNames (bring : String → Run Val) (name : String) : Run (Option Names) := do
  match name with
  | "bitprotolib.bp" => some <$> Run.packingNames
  | "bitprotolib" => return some [("bp", ← bring "bitprotolib.bp")]
  | "os" => return some ((ownLibrary.lookup name).getD [] ++ [("path", ← bring "posixpath")])
  | name =>
    match ownLibrary.lookup name with
    | some names => return some names
    | none => return if silentUnits.contains name then some [] else none

def notInside (outer name : String) : String :=
  "No module named '" ++ name ++ "'" ++ (if packages.contains outer then "" else "; '" ++ outer ++ "' is not a package")

namespace Run

/-- **Calls a function of the language's own library.** -/
def libraryFunction (call : Caller) (name : String) (plain : List Val) : Run Val := do
  let v := (plain[0]?).getD .none
  match name with
  | "os.getcwd" => return .text "$CWD"
  | "math.sqrt" =>
    match ← toFloat call v with
    | .float x => if x < 0 then badValue "math domain error" else return .float x.sqrt
    | _ => beyond
  | "math.trunc" => toInt call v
  | "math.floor" | "math.ceil" =>
    match v with
    | .float x =>
      let n ← wholeOf x
      let (a, b) := FloatText.fraction x.abs
      let hasPart := a % b != 0
      if name == "math.floor" then return .int (if x < 0 && hasPart then n - 1 else n)
      else return .int (if x > 0 && hasPart then n + 1 else n)
    | v => toInt call v
  | _ => beyond

end Run

end BitSchema.Script
