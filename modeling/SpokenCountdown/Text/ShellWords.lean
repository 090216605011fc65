/-!
# Shell words

A command line is split at blanks, tabs and line ends. Quotes keep them inside a
word: single quotes everything, double quotes everything but a few escapes. A
number sign where a word would begin starts a comment up to the end of the line.
-/

namespace SpokenCountdown.Text

inductive Quoting where
  | bare
  | single
  | double
  deriving DecidableEq, Repr

def isWordBreak (c : Char) : Bool :=
  c == ' ' || c == '\t' || c == '\n'

/-- Characters that a backslash escapes in double quotes. -/
def isQuotedEscape (c : Char) : Bool :=
  c == '$' || c == '\x60' || c == '"' || c == '\\'

def consWord (c : Char) (result : Option (List Char × List Char)) :
    Option (List Char × List Char) :=
  result.map fun (word, rest) => (c :: word, rest)

/-- The rest of a word and what follows the break behind it. There is none where
a quote is not closed or nothing follows a backslash. A line end behind a
backslash vanishes. -/
def shellWord : Quoting → List Char → Option (List Char × List Char)
  | .bare, [] => some ([], [])
  | _, [] => none
  | .bare, '"' :: rest => shellWord .double rest
  | .bare, '\'' :: rest => shellWord .single rest
  | .single, '\'' :: rest => shellWord .bare rest
  | .double, '"' :: rest => shellWord .bare rest
  | .single, c :: rest => consWord c (shellWord .single rest)
  | _, ['\\'] => none
  | quoting, '\\' :: '\n' :: rest => shellWord quoting rest
  | .bare, '\\' :: c :: rest => consWord c (shellWord .bare rest)
  | .double, '\\' :: c :: rest =>
    let word := consWord c (shellWord .double rest)
    if isQuotedEscape c then word else consWord '\\' word
  | .double, c :: rest => consWord c (shellWord .double rest)
  | .bare, c :: rest =>
    if isWordBreak c then some ([], rest) else consWord c (shellWord .bare rest)

def skipToWord : List Char → List Char
  | [] => []
  | c :: rest =>
    if isWordBreak c then skipToWord rest
    else if c = '#' then skipComment rest
    else c :: rest
where
  skipComment : List Char → List Char
    | [] => []
    | '\n' :: rest => skipToWord rest
    | _ :: rest => skipComment rest

/-- Up to `fuel` words of a text. -/
def shellWordsFrom : Nat → List Char → Option (List String)
  | 0, _ => some []
  | fuel + 1, cs =>
    match skipToWord cs with
    | [] => some []
    | cs => do
      let (word, rest) ← shellWord .bare cs
      let words ← shellWordsFrom fuel rest
      some (String.ofList word :: words)

/-- The words of a line, none if its quoting is wrong. Every word takes a character at least. -/
def shellWords (line : String) : Option (List String) :=
  shellWordsFrom line.toList.length line.toList

end SpokenCountdown.Text
