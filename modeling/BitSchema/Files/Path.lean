/-!
# File paths

Paths are texts whose components are separated by slashes.  They are used as they are written; nothing
here looks at a file.
-/

namespace BitSchema.Path

def partsOf : List Char → List (List Char)
  | [] => [[]]
  | c :: r =>
    if c == '/' then [] :: partsOf r
    else
      match partsOf r with
      | [] => [[c]]
      | p :: ps => (c :: p) :: ps

def parts (path : String) : List String :=
  (partsOf path.toList).map String.ofList

def isAbsolute (path : String) : Bool :=
  path.toList.head? == some '/'

def headChars (cs : List Char) : List Char :=
  (cs.reverse.dropWhile (· != '/')).reverse

def tailChars (cs : List Char) : List Char :=
  (cs.reverse.takeWhile (· != '/')).reverse

/-- **The directory of a path**: what stands before the last slash, without slashes at its end unless
it has nothing else. -/
def directory (path : String) : String :=
  let head := headChars path.toList
  if head.all (· == '/') then String.ofList head
  else String.ofList (head.reverse.dropWhile (· == '/')).reverse

/-- **The name of a file**: what stands after the last slash. -/
def baseName (path : String) : String :=
  String.ofList (tailChars path.toList)

def withoutSlashes (path : String) : String :=
  String.ofList (path.toList.reverse.dropWhile (· == '/')).reverse

def maxComponent : Nat := 255

def maxLength : Nat := 4095

/-- **Joining** a directory and a path relative to it; an absolute path stays as it is. -/
def join (dir path : String) : String :=
  if isAbsolute path then path
  else if dir.isEmpty || dir.toList.getLast? == some '/' then dir ++ path
  else dir ++ "/" ++ path

/-- **The stem of a file name**: the name without its last extension.  Dots at the start of the name open
no extension. -/
def stem (name : String) : String :=
  let cs := name.toList
  let dots := cs.takeWhile (· == '.')
  let rest := cs.dropWhile (· == '.')
  if rest.contains '.' then
    String.ofList (dots ++ ((rest.reverse.dropWhile (· != '.')).drop 1).reverse)
  else name

/-! ### Shortest forms -/

/-- One component more behind the components so far, the last one first.  Two dots take back the component
before them if there is one to take back. -/
def pushPart (rooted : Bool) (done : List String) (part : String) : List String :=
  if part.isEmpty || part == "." then done
  else if part == ".." then
    match done with
    | [] => if rooted then [] else [".."]
    | ".." :: _ => part :: done
    | _ :: rest => rest
  else part :: done

def rootOf (path : String) : String :=
  match path.toList with
  | '/' :: '/' :: '/' :: _ => "/"
  | '/' :: '/' :: _ => "//"
  | '/' :: _ => "/"
  | _ => ""

/-- **The shortest form of a path**, in which no component can be left out. -/
def normalize (path : String) : String :=
  let root := rootOf path
  let kept := ((parts path).foldl (pushPart (!root.isEmpty)) []).reverse
  let short := root ++ "/".intercalate kept
  if short.isEmpty then "." else short

/-- **The absolute path** of a path seen from a directory. -/
def absolute (cwd path : String) : String := normalize (join cwd path)

end BitSchema.Path
