/-!
Arguments of a command line: options with long names and letters, some of which take a value, and
what is no option. Two hyphens end the options.
-/

namespace LibSurvey

/-- An option that a command knows. -/
structure OptionSpec where
  name : String
  letter : Option Char
  takesValue : Bool
deriving DecidableEq, Repr

/-- Options in order, those without a value with an empty one, and all other arguments. -/
structure Arguments where
  options : List (String × String)
  operands : List String
deriving DecidableEq, Repr

/-- Why arguments are no command. -/
inductive Misuse where
  | help
  | version
  | wrong
deriving DecidableEq, Repr

namespace Arguments

def help : OptionSpec :=
  ⟨"help", some 'h', false⟩

/-- Whether an argument can be the value of the option before it. -/
def isValue (arg : String) : Bool :=
  match arg.toList with
  | '-' :: _ :: _ => false
  | _ => true

/-- How the options in one argument end: where the argument does, with an option whose value is the
next argument, or with what is no option. -/
inductive Ending where
  | complete
  | lacking (name : String)
  | wrong
deriving DecidableEq, Repr

/-- The options in one argument. -/
structure Item where
  options : List (String × String)
  ending : Ending
deriving DecidableEq, Repr

/-- An option by its long name, perhaps with a value behind an equals sign. -/
def ofName (specs : List OptionSpec) (body : List Char) : Item :=
  let name := String.ofList (body.takeWhile (· != '='))
  match specs.find? (·.name = name), body.dropWhile (· != '=') with
  | none, _ => ⟨[], .wrong⟩
  | some spec, [] => if spec.takesValue then ⟨[], .lacking name⟩ else ⟨[(name, "")], .complete⟩
  | some spec, _ :: value =>
    if spec.takesValue then ⟨[(name, String.ofList value)], .complete⟩ else ⟨[], .wrong⟩

/-- Letters of options; the first that takes a value takes the rest as it, perhaps behind an equals
sign. -/
def ofLetters (specs : List OptionSpec) : List Char → Item
  | [] => ⟨[], .complete⟩
  | c :: rest =>
    match specs.find? (·.letter = some c) with
    | none => ⟨[], .wrong⟩
    | some spec =>
      if spec.takesValue then
        match rest with
        | [] => ⟨[], .lacking spec.name⟩
        | '=' :: value => ⟨[(spec.name, String.ofList value)], .complete⟩
        | value => ⟨[(spec.name, String.ofList value)], .complete⟩
      else
        let more := ofLetters specs rest
        { more with options := (spec.name, "") :: more.options }

/-- The options in an argument, unless it is an operand. -/
def item? (specs : List OptionSpec) (arg : String) : Option Item :=
  match arg.toList with
  | '-' :: '-' :: body => some (ofName specs body)
  | '-' :: c :: rest => some (ofLetters specs (c :: rest))
  | _ => none

/-- Arguments that make sense so far. -/
def checked (isSound : Arguments → Bool) (sofar : Arguments) : Except Misuse Arguments :=
  if isSound sofar then .ok sofar else .error .wrong

/-- Adds options one by one up to one that asks for help or leaves no sense. -/
def addOptions (isSound : Arguments → Bool) (sofar : Arguments) :
    List (String × String) → Except Misuse Arguments
  | [] => .ok sofar
  | (name, value) :: rest =>
    if name = help.name then .error .help
    else do
      let sofar ← checked isSound { sofar with options := sofar.options ++ [(name, value)] }
      addOptions isSound sofar rest

def addOperands (isSound : Arguments → Bool) (sofar : Arguments) (operands : List String) :
    Except Misuse Arguments :=
  checked isSound { sofar with operands := sofar.operands ++ operands }

/-- Adds what further arguments say, up to the first that is wrong or asks for help. -/
def read (specs : List OptionSpec) (isSound : Arguments → Bool) (sofar : Arguments) :
    List String → Except Misuse Arguments
  | [] => .ok sofar
  | arg :: rest =>
    if arg = "--" then addOperands isSound sofar rest
    else match item? specs arg with
      | none => do read specs isSound (← addOperands isSound sofar [arg]) rest
      | some item => do
        let sofar ← addOptions isSound sofar item.options
        match item.ending, rest with
        | .complete, rest => read specs isSound sofar rest
        | .lacking name, value :: rest =>
          if isValue value then
            read specs isSound (← addOptions isSound sofar [(name, value)]) rest
          else .error .wrong
        | _, _ => .error .wrong

/-- All values of an option, in order. -/
def values (args : Arguments) (name : String) : List String :=
  (args.options.filter (·.1 = name)).map (·.2)

def has (args : Arguments) (name : String) : Bool :=
  !(args.values name).isEmpty

/-- Whether an option that may be given once is given more often. -/
def repeats (args : Arguments) (name : String) : Bool :=
  1 < (args.values name).length

end Arguments
end LibSurvey
