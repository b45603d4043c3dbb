import BitSchema.Text.Classes

/-!
# Numerals in scripts

A numeral is an integer in base ten, or in base two, eight or sixteen after `0b`, `0o` or `0x`; or it has a
fraction, an exponent, or both; and a `j` at its end makes it imaginary.  A single underscore may stand
between two digits.  A numeral must not run into a name, except into a reserved word that can follow it.

`Numeral.scan` splits off the numeral at the start of a text.
-/

namespace BitSchema.Script.Numeral

abbrev Scan := Except String (List Char × List Char)

def goesOn (c : Char) : Bool := c.isAlphanum || c = '_' || c.toNat ≥ 128

/-- Whether a reserved word that may follow a numeral directly stands at the start of a text.  It must end
there, unless it has two letters and starts with an `i`. -/
def startsFollower (rest : List Char) : Bool :=
  ["if", "in", "is"].any (fun w => w.toList.isPrefixOf rest) ||
    ["and", "else", "for", "or", "not"].any fun w =>
      w.toList.isPrefixOf rest && !(((rest.drop w.length).head?.map goesOn).getD false)

def checkEnd (kind : String) (rest : List Char) : Except String Unit :=
  match rest with
  | [] => .ok ()
  | c :: _ =>
    if goesOn c && c.toNat < 128 && !startsFollower rest then .error ("invalid " ++ kind ++ " literal")
    else .ok ()

def moreDigits (isDigit : Char → Bool) (flaw : String) : List Char → Scan
  | [] => .ok ([], [])
  | '_' :: [] => .error flaw
  | '_' :: d :: r =>
    if isDigit d then do
      let (ds, rest) ← moreDigits isDigit flaw r
      return ('_' :: d :: ds, rest)
    else .error flaw
  | c :: r =>
    if isDigit c then do
      let (ds, rest) ← moreDigits isDigit flaw r
      return (c :: ds, rest)
    else .ok ([], c :: r)

def decimalFlaw : String := "invalid decimal literal"

def decimalTail : List Char → Scan := moreDigits Char.isDigit decimalFlaw

def imaginary (rest : List Char) : Scan :=
  match rest with
  | c :: r =>
    if c = 'j' || c = 'J' then do
      checkEnd "imaginary" r
      return ([c], r)
    else do
      checkEnd "decimal" rest
      return ([], rest)
  | [] => .ok ([], [])

def exponent (rest : List Char) : Scan :=
  match rest with
  | e :: r =>
    if e = 'e' || e = 'E' then
      let (sign, r) : List Char × List Char := match r with
        | '+' :: r => (['+'], r)
        | '-' :: r => (['-'], r)
        | r => ([], r)
      match r with
      | d :: r' =>
        if d.isDigit then do
          let (ds, rest) ← decimalTail r'
          let (js, rest) ← imaginary rest
          return (e :: sign ++ d :: ds ++ js, rest)
        else if sign.isEmpty then do
          checkEnd "decimal" rest
          return ([], rest)
        else .error decimalFlaw
      | [] => .error decimalFlaw
    else imaginary rest
  | [] => .ok ([], [])

def fraction (rest : List Char) : Scan :=
  match rest with
  | d :: r =>
    if d.isDigit then do
      let (ds, rest) ← decimalTail r
      let (es, rest) ← exponent rest
      return (d :: ds ++ es, rest)
    else exponent rest
  | [] => .ok ([], [])

def afterDigits (rest : List Char) : Scan :=
  match rest with
  | '.' :: r => do
    let (fs, rest) ← fraction r
    return ('.' :: fs, rest)
  | rest => exponent rest

def basedFlaw (kind : String) (rest : List Char) : String :=
  match rest with
  | c :: _ =>
    if c.isDigit then "invalid digit '" ++ String.ofList [c] ++ "' in " ++ kind ++ " literal"
    else "invalid " ++ kind ++ " literal"
  | [] => "invalid " ++ kind ++ " literal"

def basedDigits (kind : String) (isDigit : Char → Bool) : Bool → List Char → Scan
  | wanted, [] => if wanted then .error (basedFlaw kind []) else .ok ([], [])
  | wanted, c :: r =>
    if isDigit c || (c = '_' && !wanted) then do
      let (ds, rest) ← basedDigits kind isDigit (c = '_') r
      return (c :: ds, rest)
    else if wanted || c.isDigit then .error (basedFlaw kind (c :: r))
    else .ok ([], c :: r)

/-- A numeral in another base after its first two characters; an underscore may come first. -/
def based (kind : String) (isDigit : Char → Bool) (rest : List Char) : Scan := do
  let (lead, r) : List Char × List Char := match rest with
    | '_' :: r => (['_'], r)
    | r => ([], r)
  let (ds, rest) ← basedDigits kind isDigit true r
  checkEnd kind rest
  return (lead ++ ds, rest)

def zeros : List Char → Scan
  | '0' :: r => do
    let (ds, rest) ← zeros r
    return ('0' :: ds, rest)
  | '_' :: c :: r =>
    if c = '0' then do
      let (ds, rest) ← zeros r
      return ('_' :: c :: ds, rest)
    else if c.isDigit then .ok (['_'], c :: r)
    else .error decimalFlaw
  | '_' :: [] => .error decimalFlaw
  | rest => .ok ([], rest)

def afterZero (rest : List Char) : Scan := do
  let (zs, rest) ← zeros rest
  match rest with
  | d :: r =>
    if d.isDigit then
      let (ds, rest) ← decimalTail r
      match rest with
      | c :: _ =>
        if ['.', 'e', 'E', 'j', 'J'].contains c then
          let (more, rest) ← afterDigits rest
          return (zs ++ d :: ds ++ more, rest)
      | [] => pure ()
      throw ("leading zeros in decimal integer literals are not permitted; " ++
        "use an 0o prefix for octal integers")
    else
      let (more, rest) ← afterDigits rest
      return (zs ++ more, rest)
  | [] => return (zs, [])

def isHexDigit (c : Char) : Bool := c.isDigit || ('a' ≤ c && c ≤ 'f') || ('A' ≤ c && c ≤ 'F')

/-- **The numeral at the start of a text**, which starts with a digit, or with a point and a digit. -/
def scan (cs : List Char) : Scan := do
  let joined := fun (start : List Char) (x : Scan) => do
    let (taken, rest) ← x
    return (start ++ taken, rest)
  match cs with
  | '.' :: r => joined ['.'] (fraction r)
  | '0' :: x :: r =>
    if x = 'x' || x = 'X' then joined ['0', x] (based "hexadecimal" isHexDigit r)
    else if x = 'o' || x = 'O' then joined ['0', x] (based "octal" (fun c => '0' ≤ c && c ≤ '7') r)
    else if x = 'b' || x = 'B' then joined ['0', x] (based "binary" (fun c => c = '0' || c = '1') r)
    else joined ['0'] (afterZero (x :: r))
  | c :: r => do
    let (ds, rest) ← decimalTail r
    joined (c :: ds) (afterDigits rest)
  | [] => return ([], [])

end BitSchema.Script.Numeral
