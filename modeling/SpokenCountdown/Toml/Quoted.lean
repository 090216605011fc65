import SpokenCountdown.Toml.Scalar

/-!
# Quoted text

Text in double quotes has escapes, text in single quotes has none; tripled
quotes hold several lines. Writing takes the first form in which nothing but a
tab needs an escape, and double quotes when there is no such form.
-/

namespace SpokenCountdown.Toml.Quoted

/-- Control characters other than the tab; they never stand in a document as they are. -/
def isControl (c : Char) : Bool :=
  (c.toNat < 0x20 && c != '\t') || c.toNat == 0x7F

-- ---------------------------------------------------------------------------
-- Reading
-- ---------------------------------------------------------------------------

def numbered? (width : Nat) (cs : List Char) : Option (Char × List Char) :=
  let digits := cs.take width
  if digits.length = width ∧ digits.all Scalar.isHexDigit then
    let n := Scalar.ofDigits 16 digits
    if h : n.isValidChar then some (Char.ofNatAux n h, cs.drop width) else none
  else none

def escape? : List Char → Option (Char × List Char)
  | 'b' :: rest => some ('\x08', rest)
  | 't' :: rest => some ('\t', rest)
  | 'n' :: rest => some ('\n', rest)
  | 'f' :: rest => some ('\x0c', rest)
  | 'r' :: rest => some ('\x0d', rest)
  | 'e' :: rest => some ('\x1b', rest)
  | '"' :: rest => some ('"', rest)
  | '\\' :: rest => some ('\\', rest)
  | 'x' :: rest => numbered? 2 rest
  | 'u' :: rest => numbered? 4 rest
  | 'U' :: rest => numbered? 8 rest
  | _ => none

def afterLineEnd? : List Char → Option (List Char)
  | '\n' :: rest => some rest
  | '\x0d' :: '\n' :: rest => some rest
  | _ => none

def joined? (cs : List Char) : Option (List Char) :=
  let behind := cs.dropWhile fun c => c == ' ' || c == '\t'
  match afterLineEnd? behind with
  | some rest =>
    some (skip rest.length rest)
  | none => none
where
  skip : Nat → List Char → List Char
    | 0, cs => cs
    | fuel + 1, cs =>
      match afterLineEnd? cs with
      | some rest => skip fuel rest
      | none =>
        match cs with
        | ' ' :: rest | '\t' :: rest => skip fuel rest
        | _ => cs

def line? (quote : Char) : Nat → List Char → Option (List Char × List Char)
  | 0, _ | _, [] => none
  | fuel + 1, c :: rest =>
    if c = quote then some ([], rest)
    else if c = '\\' ∧ quote = '"' then do
      let (c, rest) ← escape? rest
      let (text, rest) ← line? quote fuel rest
      some (c :: text, rest)
    else if isControl c then none
    else do
      let (text, rest) ← line? quote fuel rest
      some (c :: text, rest)

/-- Text over several lines up to the closing quotes. Up to two quotes right
before those belong to the text, and line ends stay as they are. -/
def lines? (quote : Char) : Nat → List Char → Option (List Char × List Char)
  | 0, _ | _, [] => none
  | fuel + 1, c :: rest =>
    if [quote, quote, quote].isPrefixOf (c :: rest) then
      let quotes := (c :: rest).takeWhile (· == quote)
      let inside := min 2 (quotes.length - 3)
      some (quotes.take inside, (c :: rest).drop (inside + 3))
    else if c = '\\' ∧ quote = '"' then
      match joined? rest with
      | some rest => lines? quote fuel rest
      | none => do
        let (c, rest) ← escape? rest
        let (text, rest) ← lines? quote fuel rest
        some (c :: text, rest)
    else if isControl c ∧ (afterLineEnd? (c :: rest)).isNone then none
    else do
      let (text, rest) ← lines? quote fuel rest
      some (c :: text, rest)

/-- A line end right behind tripled quotes does not count. -/
def withoutFirstLineEnd (cs : List Char) : List Char :=
  (afterLineEnd? cs).getD cs

def readLine? : List Char → Option (String × List Char)
  | c :: rest =>
    if c = '"' ∨ c = '\'' then
      (line? c (rest.length + 1) rest).map fun (text, rest) => (String.ofList text, rest)
    else none
  | [] => none

def read? (cs : List Char) : Option (String × List Char) :=
  match cs with
  | '"' :: '"' :: '"' :: rest => several '"' rest
  | '\'' :: '\'' :: '\'' :: rest => several '\'' rest
  | _ => readLine? cs
where
  several (quote : Char) (rest : List Char) : Option (String × List Char) :=
    (lines? quote (rest.length + 1) (withoutFirstLineEnd rest)).map fun (text, rest) =>
      (String.ofList text, rest)

-- ---------------------------------------------------------------------------
-- Writing
-- ---------------------------------------------------------------------------

/-- Whether `quote` stands more than twice in a row somewhere. -/
def hasTripled (quote : Char) : List Char → Bool
  | a :: b :: c :: rest =>
    (a == quote && b == quote && c == quote) || hasTripled quote (b :: c :: rest)
  | _ => false

def hexDigit (n : Nat) : Char :=
  if n < 10 then Char.ofNat ('0'.toNat + n) else Char.ofNat ('A'.toNat + n - 10)

def escaped (c : Char) : List Char :=
  match c with
  | '\x08' => ['\\', 'b']
  | '\t' => ['\\', 't']
  | '\n' => ['\\', 'n']
  | '\x0c' => ['\\', 'f']
  | '\x0d' => ['\\', 'r']
  | '"' => ['\\', '"']
  | '\\' => ['\\', '\\']
  | c =>
    if isControl c then ['\\', 'u', '0', '0', hexDigit (c.toNat / 16), hexDigit (c.toNat % 16)]
    else [c]

/-- Text in tripled double quotes: line feeds stay, and of quotes in a row only
every third is escaped. `run` counts the quotes right before. -/
def escapedLines (run : Nat) : List Char → List Char
  | [] => []
  | '\n' :: rest => '\n' :: escapedLines 0 rest
  | '"' :: rest =>
    if run = 2 then '\\' :: '"' :: escapedLines 0 rest
    else '"' :: escapedLines (run + 1) rest
  | c :: rest => escaped c ++ escapedLines 0 rest

/-- Text in double quotes on one line, every character escaped that may not stand there. -/
def inLine (cs : List Char) : List Char :=
  '"' :: cs.flatMap escaped ++ ['"']

/-- Text in tripled quotes. A line end behind the opening ones comes first where
the text has line ends of its own. -/
def tripled (quote : Char) (cs text : List Char) : List Char :=
  let quotes := [quote, quote, quote]
  quotes ++ (if cs.contains '\n' then ['\n'] else []) ++ text ++ quotes

def inLines (cs : List Char) : List Char :=
  tripled '"' cs (escapedLines 0 cs)

def writeChars (cs : List Char) : List Char :=
  let severalLines := cs.contains '\n'
  let plain := cs.all fun c => c == '\n' || !isControl c
  if plain && !severalLines && !cs.contains '\\' && !cs.contains '"' then inLine cs
  else if plain && !severalLines && !cs.contains '\'' then '\'' :: cs ++ ['\'']
  else if plain && !cs.contains '\\' && !hasTripled '"' cs then inLines cs
  else if plain && !hasTripled '\'' cs then tripled '\'' cs cs
  else if severalLines then inLines cs
  else inLine cs

def write (s : String) : String :=
  String.ofList (writeChars s.toList)

end SpokenCountdown.Toml.Quoted
