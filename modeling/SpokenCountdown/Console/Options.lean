/-!
# Options on a command line

An option has a long name and perhaps a letter. A value is attached to it or is
the next word, which must not look like an option itself. No option is given
twice, and there are no words but options and their values.
-/

namespace SpokenCountdown.Console

structure OptionRule where
  long : String
  letter : Option Char := none
  hasValue : Bool := false
  deriving DecidableEq, Repr

/-- Options by their long names; a flag has an empty value. -/
abbrev Given := List (String × String)

namespace Given

def value? (given : Given) (long : String) : Option String :=
  given.lookup long

def has (given : Given) (long : String) : Bool :=
  (given.lookup long).isSome

/-- One more option, unless it was given before. -/
def add (given : Given) (long value : String) : Option Given :=
  if given.has long then none else some (given ++ [(long, value)])

end Given

inductive Word where
  | long (name : String) (attached : Option String)
  | short (letter : Char) (attached : Option String)
  /-- Two dashes, behind which there are no options any more. -/
  | terminator
  | plain
  deriving DecidableEq, Repr

namespace Word

/-- A single dash is a plain word. The value of a letter may follow an equals sign. -/
def ofChars : List Char → Word
  | ['-', '-'] => .terminator
  | '-' :: '-' :: rest =>
    match rest.span (· != '=') with
    | (name, []) => .long (String.ofList name) none
    | (name, _ :: value) => .long (String.ofList name) (some (String.ofList value))
  | ['-', letter] => .short letter none
  | '-' :: letter :: '=' :: value => .short letter (some (String.ofList value))
  | '-' :: letter :: value => .short letter (some (String.ofList value))
  | _ => .plain

def ofString (s : String) : Word :=
  ofChars s.toList

end Word

def OptionRule.find? (rules : List OptionRule) : Word → Option (OptionRule × Option String)
  | .long name attached => (rules.find? (·.long == name)).map (·, attached)
  | .short letter attached => (rules.find? (·.letter == some letter)).map (·, attached)
  | .terminator | .plain => none

def OptionRule.read (rules : List OptionRule) (given : Given) : List String → Option Given
  | [] => some given
  | word :: rest =>
    if Word.ofString word = .terminator then
      if rest.isEmpty then some given else none
    else
      match OptionRule.find? rules (Word.ofString word) with
      | none => none
      | some (rule, attached) =>
        match rule.hasValue, attached, rest with
        | false, none, rest => (given.add rule.long "").bind fun given => read rules given rest
        | false, some _, _ => none
        | true, some value, rest =>
          (given.add rule.long value).bind fun given => read rules given rest
        | true, none, value :: rest =>
          if Word.ofString value = .plain then
            (given.add rule.long value).bind fun given => read rules given rest
          else none
        | true, none, [] => none

end SpokenCountdown.Console
