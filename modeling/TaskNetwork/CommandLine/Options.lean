import TaskNetwork.Policy

/-!
# Command line options

The options of the program. Each may be given once; its value, if it takes one, follows as the
next argument or after an equals sign. A value that is an argument of its own does not look like
an option. After `--` there are no options any more, and the program takes no other arguments.
-/

namespace TaskNetwork.CommandLine

/-- The problems that come with the program. -/
inductive BuiltIn where
  | baxterSwap
  | blocksWorld
deriving DecidableEq, Repr

/-- What the command line asks for. -/
structure Options where
  /-- The problem to run, unless a file gives one. -/
  world : BuiltIn := .baxterSwap
  /-- The file that gives the problem. -/
  problem : Option String := none
  maxDepth : UInt32 := Policy.defaultMaxDepth
  /-- The directory for the report. -/
  out : Option String := none
  /-- Whether executor messages are printed as well. -/
  steps : Bool := false
deriving DecidableEq, Repr

/-- The options by name. -/
inductive OptionKind where
  | world
  | problem
  | maxDepth
  | out
  | steps
deriving DecidableEq, Repr

/-- Why a command line is refused. -/
inductive UsageError where
  | unexpectedArgument (argument : String)
  | repeatedOption (option : String)
  | missingValue (option : String)
  | unexpectedValue (option : String) (value : String)
  | invalidValue (option : String) (value : String)
deriving DecidableEq, Repr

/-- The refusal in words. -/
def UsageError.message : UsageError → String
  | .unexpectedArgument argument => "unexpected argument " ++ argument
  | .repeatedOption option => option ++ " is given twice"
  | .missingValue option => option ++ " needs a value"
  | .unexpectedValue option value => option ++ " takes no value, but is given " ++ value
  | .invalidValue option value => "invalid value for " ++ option ++ ": " ++ value

/-! ## Arguments -/

/-- What options start with. -/
def optionMark : String := "--"

/-- The option of a name with its mark. -/
def OptionKind.ofText? (s : String) : Option OptionKind :=
  [("--world", OptionKind.world), ("--problem", .problem), ("--max-depth", .maxDepth),
    ("--out", .out), ("--steps", .steps)].lookup s

/-- Whether an argument looks like an option, which a lone minus sign does not. -/
def looksLikeOption (argument : String) : Bool :=
  match argument.toList with
  | '-' :: _ :: _ => true
  | _ => false

/-- Cuts an argument at its first equals sign, if it has one. -/
def splitValue (argument : String) : String × Option String :=
  let name := String.ofList (argument.toList.takeWhile (· ≠ '='))
  match argument.toList.dropWhile (· ≠ '=') with
  | [] => (name, none)
  | _ :: value => (name, some (String.ofList value))

/-! ## Values -/

/-- The problem of a name. -/
def BuiltIn.ofText? (s : String) : Option BuiltIn :=
  if s = "baxter-swap" then some .baxterSwap
  else if s = "blocks-world" then some .blocksWorld
  else none

/-- The number of a list of decimal digits, which is not empty. -/
def naturalOfDigits? (cs : List Char) : Option Nat :=
  if cs.isEmpty || !cs.all Char.isDigit then none
  else some (cs.foldl (fun n c => 10 * n + (c.toNat - '0'.toNat)) 0)

/-- A whole number with or without a sign. -/
def integer? (s : String) : Option Int :=
  match s.toList with
  | '-' :: cs => (naturalOfDigits? cs).map fun n => -(n : Int)
  | '+' :: cs => (naturalOfDigits? cs).map Int.ofNat
  | cs => (naturalOfDigits? cs).map Int.ofNat

/-- A whole number that fits a word of 32 bits. -/
def word? (s : String) : Option UInt32 := do
  let n ← integer? s
  if 0 ≤ n && n < UInt32.size then some (UInt32.ofNat n.toNat) else none

/-- A path, which is not empty. -/
def path? (s : String) : Option String := if s = "" then none else some s

/-- Sets an option that takes a value. -/
def Options.set (o : Options) (kind : OptionKind) (value : String) : Option Options :=
  match kind with
  | .world => (BuiltIn.ofText? value).map fun world => { o with world := world }
  | .problem => (path? value).map fun path => { o with problem := some path }
  | .maxDepth => (word? value).map fun depth => { o with maxDepth := depth }
  | .out => (path? value).map fun path => { o with out := some path }
  | .steps => none

/-! ## Command lines -/

/-- Reads arguments, given the options so far and the kinds of options among them. -/
def Options.parseFrom (o : Options) (given : List OptionKind) :
    List String → Except UsageError Options
  | [] => .ok o
  | argument :: rest =>
    if argument = optionMark then
      match rest with
      | [] => .ok o
      | next :: _ => .error (.unexpectedArgument next)
    else
      let (name, attached) := splitValue argument
      match OptionKind.ofText? name with
      | none => .error (.unexpectedArgument argument)
      | some kind =>
        if given.contains kind then .error (.repeatedOption name)
        else if kind = .steps then
          match attached with
          | some value => .error (.unexpectedValue name value)
          | none => parseFrom { o with steps := true } (kind :: given) rest
        else
          match attached, rest with
          | some value, rest =>
            match o.set kind value with
            | some o => parseFrom o (kind :: given) rest
            | none => .error (.invalidValue name value)
          | none, [] => .error (.missingValue name)
          | none, value :: rest =>
            if looksLikeOption value then .error (.missingValue name)
            else
              match o.set kind value with
              | some o => parseFrom o (kind :: given) rest
              | none => .error (.invalidValue name value)

/-- Reads a command line. -/
def Options.parse (arguments : List String) : Except UsageError Options :=
  Options.parseFrom {} [] arguments

end TaskNetwork.CommandLine
