/-
  Command-line arguments.

  Program: `Grammar.scan` goes through the arguments of one command from left to right and sorts
  them into options and positional arguments, until it meets the name of a command below.

  Specification: what it gives fits the grammar.  An option that may be given once is given at most
  once, every value is one that its option accepts, and there are no more positional arguments than
  the command takes.

  The crux is that the first argument that decides the outcome wins: a request for help before a
  mistake is heard, one after it is not.
-/

namespace Backlog.Cli

/-! ## Grammars -/

/-- Why arguments lead to no command. -/
inductive Interrupt where
  /-- They ask for help. -/
  | help
  /-- They ask for the version. -/
  | version
  /-- They do not fit the grammar. -/
  | misuse
deriving DecidableEq, Repr

/-- How an option is given. -/
inductive Manner where
  /-- On its own, and nothing after it counts. -/
  | stop (why : Interrupt)
  /-- On its own, at most once. -/
  | flag
  /-- With a value, at most once. -/
  | single
  /-- With a value, any number of times. -/
  | repeated
deriving DecidableEq, Repr

/-- An option. -/
structure Opt where
  /-- What follows the two dashes. -/
  name : String
  /-- The letter that stands for it after a single dash. -/
  letter : Option Char := none
  manner : Manner := .single
  /-- Whether a text will do as its value. -/
  accepts : String → Bool := fun _ => true

/-- What a command takes. -/
structure Grammar where
  options : List Opt := []
  /-- How many positional arguments there may be. -/
  positionals : Nat := 0
  /-- The names of the commands below. -/
  commands : List String := []

/-! ## Arguments -/

/-- Arguments, sorted. -/
structure Arguments where
  /-- Options by name with their values, in order; a flag has an empty value. -/
  options : List (String × String) := []
  positionals : List String := []
deriving DecidableEq, Repr

namespace Arguments

/-- Whether an option is given. -/
def has (given : Arguments) (name : String) : Bool := given.options.any (·.1 == name)

/-- The values of an option. -/
def values (given : Arguments) (name : String) : List String :=
  given.options.filterMap fun (n, value) => if n == name then some value else none

/-- The value of an option that is given once. -/
def value? (given : Arguments) (name : String) : Option String := (given.values name).head?

/-- The arguments with an option more. -/
def addOption (given : Arguments) (opt : Opt) (value : String) : Except Interrupt Arguments :=
  if (opt.manner ≠ .repeated && given.has opt.name) || !opt.accepts value then .error .misuse
  else .ok { given with options := given.options ++ [(opt.name, value)] }

/-- The arguments with an option more that is given on its own. -/
def addAlone (given : Arguments) (opt : Opt) : Except Interrupt Arguments :=
  match opt.manner with
  | .stop why => .error why
  | .flag => given.addOption opt ""
  | .single | .repeated => .error .misuse

/-- The arguments with a positional one more. -/
def addPositional (most : Nat) (given : Arguments) (text : String) : Except Interrupt Arguments :=
  if given.positionals.length < most then
    .ok { given with positionals := given.positionals ++ [text] }
  else .error .misuse

end Arguments

/-! ## Single arguments -/

/-- What an argument looks like. -/
inductive Shape where
  /-- The name of an option, perhaps with a value attached to it. -/
  | long (name : String) (value : Option String)
  /-- Letters that stand for options. -/
  | letters (letters : List Char)
  /-- What sets the positional arguments apart. -/
  | divider
  | plain
deriving DecidableEq, Repr

/-- The shape of an argument; a dash alone is a plain one. -/
def shape (arg : String) : Shape :=
  match arg.toList with
  | ['-'] => .plain
  | ['-', '-'] => .divider
  | '-' :: '-' :: cs =>
    .long (String.ofList (cs.takeWhile (· ≠ '='))) ((cs.dropWhile (· ≠ '=')).tail?.map String.ofList)
  | '-' :: letters => .letters letters
  | _ => .plain

/-! ## Scanning -/

namespace Grammar

/-- The option that a letter stands for, given on its own. -/
def addLetter (grammar : Grammar) (given : Arguments) (c : Char) : Except Interrupt Arguments :=
  match grammar.options.find? (·.letter == some c) with
  | none => .error .misuse
  | some opt => given.addAlone opt

/-- Sort arguments, starting with those before them; what is left from the name of a command on
    is given back with it. -/
def scan (grammar : Grammar) :
    Arguments → List String → Except Interrupt (Arguments × Option (String × List String))
  | given, [] => .ok (given, none)
  | given, arg :: rest =>
    match shape arg with
    | .plain =>
      if grammar.commands.contains arg then .ok (given, some (arg, rest))
      else do grammar.scan (← given.addPositional grammar.positionals arg) rest
    | .divider => do
      return (← rest.foldlM (Arguments.addPositional grammar.positionals) given, none)
    | .letters cs => do grammar.scan (← cs.foldlM grammar.addLetter given) rest
    | .long name attached =>
      match grammar.options.find? (·.name == name) with
      | none => .error .misuse
      | some opt =>
        if opt.manner = .single ∨ opt.manner = .repeated then
          match attached, rest with
          -- A value that is attached may look like anything, also be empty.
          | some value, rest => do grammar.scan (← given.addOption opt value) rest
          | none, [] => .error .misuse
          -- One that stands apart must not look like an option.
          | none, value :: rest =>
            if shape value = .plain then do grammar.scan (← given.addOption opt value) rest
            else .error .misuse
        else if attached.isSome then .error .misuse
        else do grammar.scan (← given.addAlone opt) rest

end Grammar

/-! ## Examples -/

example : shape "--a=b=c" = .long "a" (some "b=c") := by decide
example : shape "--a" = .long "a" none := by decide
example : [shape "-", shape "--", shape "-5"] = [.plain, .divider, .letters ['5']] := by decide

end Backlog.Cli
