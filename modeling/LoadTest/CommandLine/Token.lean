/-!
# Tokens of a command line

The arguments of a command line are cut into options, with or without a value, and words that belong
to no option.

An option has a long name after two dashes and a letter after one.  Its value follows an equals sign
or the letter, or is the next argument.  Letters may stand together after one dash.
-/

namespace LoadTest

namespace CommandLine

/-- An option: its names, and whether it takes a text as its value. -/
structure OptionSpec where
  name : String
  letter : Char
  takesText : Bool
  deriving DecidableEq

/-- A part of a command line. -/
inductive Token
  /-- An option as it was written, which option that is, and its value; an attached value is part of
  the same argument. -/
  | option (written : String) (spec? : Option OptionSpec) (value? : Option String)
      (attached : Bool)
  | word (text : String)
  deriving DecidableEq

/-- The option of a letter. -/
def byLetter? (specs : List OptionSpec) (letter : Char) : Option OptionSpec :=
  specs.find? fun s => s.letter == letter

/-- The option of a long name. -/
def byName? (specs : List OptionSpec) (name : List Char) : Option OptionSpec :=
  specs.find? fun s => s.name.toList == name

/-- The option is known and takes a text. -/
def wantsText (spec? : Option OptionSpec) : Bool :=
  match spec? with
  | some s => s.takesText
  | none => false

/-! ## Shapes of an argument -/

/-- A letter as an option is written. -/
def dashed (letters : List Char) : String := String.ofList ('-' :: letters)

/-- What an argument looks like. -/
inductive Shape
  /-- All arguments after this one are words. -/
  | terminator
  /-- An option whose value, if it takes one, is the next argument. -/
  | bare (written : String) (spec? : Option OptionSpec)
  /-- An option with its value. -/
  | valued (written : String) (spec? : Option OptionSpec) (value : String)
  /-- Letters that stand together. -/
  | group (letters : List Char)
  | word

/-- The shape of an argument whose text after two dashes is given.  It holds a value if there is an
equals sign after its first character, and the value then follows the first one of all. -/
def longShape (specs : List OptionSpec) (text : List Char) : Shape :=
  if text.tail.contains '=' then
    let name := text.takeWhile (· != '=')
    .valued (dashed ('-' :: name)) (byName? specs name)
      (String.ofList (text.dropWhile (· != '=')).tail)
  else .bare (dashed ('-' :: text)) (byName? specs text)

/-- The shape of an argument. -/
def shape (specs : List OptionSpec) (argument : String) : Shape :=
  match argument.toList with
  | ['-', '-'] => .terminator
  | '-' :: '-' :: text => longShape specs text
  | ['-', c] => .bare (dashed [c]) (byLetter? specs c)
  | '-' :: c :: cs =>
    if wantsText (byLetter? specs c) then
      .valued (dashed [c]) (byLetter? specs c) (String.ofList cs)
    else .group (c :: cs)
  | _ => .word

/-! ## Groups of letters -/

/-- How a group of letters ends. -/
inductive GroupEnd
  /-- With the value of its last option. -/
  | closed
  /-- With a letter that stands for itself. -/
  | letter (c : Char)
  /-- With a dash, after which the letters left over and all further arguments are words. -/
  | terminated (words : List String)

/-- Letters of a group as arguments of their own.  From a letter that takes a text and is not the
last one on they stay together. -/
def spread (specs : List OptionSpec) : List Char → List String
  | [] => []
  | c :: cs =>
    if cs ≠ [] ∧ wantsText (byLetter? specs c) then [dashed (c :: cs)]
    else dashed [c] :: spread specs cs

/-- The options in a group of letters before its end. -/
def cutGroup (specs : List OptionSpec) : List Char → List Token × GroupEnd
  | [] => ([], .closed)
  | c :: cs =>
    if c = '-' then ([], .terminated (spread specs cs))
    else if cs = [] then ([], .letter c)
    else if wantsText (byLetter? specs c) then
      ([.option (dashed [c]) (byLetter? specs c) (some (String.ofList cs)) true], .closed)
    else
      let (tokens, groupEnd) := cutGroup specs cs
      (.option (dashed [c]) (byLetter? specs c) none false :: tokens, groupEnd)

/-! ## Cutting -/

/-- The tokens of arguments. -/
def cut (specs : List OptionSpec) : List String → List Token
  | [] => []
  | argument :: arguments =>
    match shape specs argument with
    | .terminator => arguments.map .word
    | .word => .word argument :: cut specs arguments
    | .valued written spec? value =>
      .option written spec? (some value) true :: cut specs arguments
    | .bare written spec? =>
      if wantsText spec? then
        match arguments with
        | [] => [.option written spec? none false]
        | value :: rest => .option written spec? (some value) false :: cut specs rest
      else .option written spec? none false :: cut specs arguments
    | .group letters =>
      let (tokens, groupEnd) := cutGroup specs letters
      match groupEnd with
      | .closed => tokens ++ cut specs arguments
      | .terminated words => tokens ++ (words ++ arguments).map .word
      | .letter c =>
        let spec? := byLetter? specs c
        if wantsText spec? then
          match arguments with
          | [] => tokens ++ [.option (dashed [c]) spec? none false]
          | value :: rest =>
            tokens ++ .option (dashed [c]) spec? (some value) false :: cut specs rest
        else tokens ++ .option (dashed [c]) spec? none false :: cut specs arguments

end CommandLine

end LoadTest
