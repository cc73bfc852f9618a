import Dialogue.Text.Piece

/-!
# Command lines

An option is written with its long name after two dashes or with its letter after one. Its value
follows as the next argument, after an equals sign, or right behind the letter. Letters of options
without a value may stand together. After two dashes alone nothing is an option any more.

The arguments are read one after the other, and the first one that is wrong or asks for help
decides: what comes after it does not matter. A value that is an argument of its own is looked at
no earlier than the option or operand behind it, and the last one of the program's own options no
earlier than the whole command behind it.

## Main definitions

* `OptionDecl`, `CommandDecl` — an option that may be given, and a command with its options
* `Arguments`, `Arguments.scan` — what is given on a command line
-/

namespace Dialogue

/-- How often an option may be given, and with what. -/
inductive OptionKind where
  /-- Once, without a value. -/
  | flag
  /-- Once, with a value that is not empty. -/
  | single
  /-- Any number of times, with a value. -/
  | repeated (mayBeEmpty : Bool)
  deriving DecidableEq

/-- An option that may be given. -/
structure OptionDecl where
  /-- The long name. -/
  long : String
  /-- The letter. -/
  short : Option Char
  /-- How often it may be given, and with what. -/
  kind : OptionKind
  /-- What its value is called, if it has one. -/
  value : String
  /-- What it is for. -/
  about : String

/-- An argument that is no option. -/
structure OperandDecl where
  /-- What it is called. -/
  name : String
  /-- What it is for. -/
  about : String

/-- A command that may be given. -/
structure CommandDecl where
  /-- The name. -/
  name : String
  /-- What it does. -/
  about : String
  /-- The argument that it has to be given, if it takes any. -/
  operand : Option OperandDecl
  /-- The options that no other command needs to have. -/
  options : List OptionDecl

/-- Why a command line is not carried out. -/
inductive Stop where
  /-- It is not understood. -/
  | misuse
  /-- It asks for help, about a command or about the whole program. -/
  | help (command : Option String)
  /-- It asks for the version. -/
  | version
  deriving DecidableEq, Repr

/-- What is given on a command line. -/
structure Arguments where
  /-- The options with their values, latest first. -/
  options : List (String × String)
  /-- The argument that is no option. -/
  operand : Option String
  /-- The latest option, if its value has not been looked at yet. -/
  pending : Option (OptionDecl × String)

namespace Arguments

/-- Nothing. -/
def none : Arguments := ⟨[], .none, .none⟩

/-- Whether an option is given. -/
def has (a : Arguments) (name : String) : Bool := a.options.any fun o => o.1 == name

/-- The values of an option, in order. -/
def values (a : Arguments) (name : String) : List String :=
  (a.options.filterMap fun o => if o.1 == name then some o.2 else .none).reverse

/-- The latest value of an option. -/
def value? (a : Arguments) (name : String) : Option String := List.lookup name a.options

/-- Adds an option, unless it is given too often or its value may not be empty. -/
def addOption (a : Arguments) (d : OptionDecl) (value : String) : Except Stop Arguments :=
  let added : Arguments := { a with options := (d.long, value) :: a.options }
  match d.kind with
  | .flag => if a.has d.long then .error .misuse else .ok added
  | .single => if a.has d.long || value.isEmpty then .error .misuse else .ok added
  | .repeated mayBeEmpty => if value.isEmpty && !mayBeEmpty then .error .misuse else .ok added

/-- Looks at the value that has not been looked at yet. -/
def settle (a : Arguments) : Except Stop Arguments :=
  match a.pending with
  | .none => .ok a
  | some (d, value) => addOption { a with pending := .none } d value

/-- Adds an option behind all that has been given so far. -/
def giveOption (a : Arguments) (d : OptionDecl) (value : String) : Except Stop Arguments := do
  (← a.settle).addOption d value

/-- Stops behind all that has been given so far. -/
def stop {α : Type} (a : Arguments) (reason : Stop) : Except Stop α := do
  let _ ← a.settle
  throw reason

/-- Adds the argument that is no option, if the command takes one. It may not be empty. -/
def giveOperand (a : Arguments) (command : Option CommandDecl) (arg : String) :
    Except Stop Arguments := do
  let a ← a.settle
  if (command.bind CommandDecl.operand).isNone || a.operand.isSome || arg.isEmpty then
    throw .misuse
  return { a with operand := some arg }

/-- Whether an argument may be the value of the option before it. -/
def isValue (arg : String) : Bool := !Text.startsWith arg "-" || arg == "-"

/-- Takes the value of an option off the arguments behind it. -/
def takeValue (a : Arguments) (d : OptionDecl) : List String → Except Stop (Arguments × List String)
  | [] => .error .misuse
  | value :: rest =>
    if isValue value then a.settle.map fun a => ({ a with pending := some (d, value) }, rest)
    else .error .misuse

/-- Takes a long option, whose value may follow. -/
def takeLong (decls : List OptionDecl) (a : Arguments) (text : List Char) (rest : List String) :
    Except Stop (Arguments × List String) :=
  let name := String.ofList (text.takeWhile (· != '='))
  let attached := text.dropWhile (· != '=')
  match decls.find? fun d => d.long == name with
  | .none => .error .misuse
  | some d =>
    match d.kind == .flag, attached with
    | true, [] => (a.giveOption d "").map fun a => (a, rest)
    | true, _ :: _ => .error .misuse
    | false, [] => a.takeValue d rest
    | false, _ :: value => (a.giveOption d (String.ofList value)).map fun a => (a, rest)

/-- Takes letters that stand together, whose value may follow. -/
def takeShort (decls : List OptionDecl) (command : Option CommandDecl) (a : Arguments)
    (rest : List String) : List Char → Except Stop (Arguments × List String)
  | [] => .ok (a, rest)
  | c :: cs =>
    match decls.find? fun d => d.short == some c with
    | .none =>
      if c == 'h' then a.stop (.help (command.map CommandDecl.name))
      else if c == 'V' && command.isNone then a.stop .version
      else .error .misuse
    | some d =>
      if d.kind == .flag then
        match a.giveOption d "" with
        | .error e => .error e
        | .ok a => takeShort decls command a rest cs
      else
        match cs with
        | [] => a.takeValue d rest
        | '=' :: value => (a.giveOption d (String.ofList value)).map fun a => (a, rest)
        | value => (a.giveOption d (String.ofList value)).map fun a => (a, rest)

/-- Takes an option, whose value may follow. The version is an option of the program only. -/
def takeOption (decls : List OptionDecl) (command : Option CommandDecl) (a : Arguments)
    (arg : List Char) (rest : List String) : Except Stop (Arguments × List String) :=
  match arg with
  | '-' :: text =>
    if text == "help".toList then a.stop (.help (command.map CommandDecl.name))
    else if text == "version".toList && command.isNone then a.stop .version
    else takeLong decls a text rest
  | letters => takeShort decls command a rest letters

/-- Reads the arguments of a command, or those of the program, which end before the first one that
is no option; gives what is left. The fuel is the number of arguments. -/
def scanWith (decls : List OptionDecl) (command : Option CommandDecl) :
    Nat → Arguments → List String → Except Stop (Arguments × List String)
  | 0, a, args => .ok (a, args)
  | _ + 1, a, [] => .ok (a, [])
  | fuel + 1, a, arg :: rest =>
    if arg == "--" then
      (rest.foldlM (fun (a : Arguments) arg => a.giveOperand command arg) a).map fun a => (a, [])
    else if isValue arg then
      if command.isNone then .ok (a, arg :: rest)
      else
        match a.giveOperand command arg with
        | .error e => .error e
        | .ok a => scanWith decls command fuel a rest
    else
      match takeOption decls command a (arg.toList.drop 1) rest with
      | .error e => .error e
      | .ok (a, rest) => scanWith decls command fuel a rest

/-- Reads the arguments of a command, or those of the program, which end before the first one that
is no option; gives what is left. -/
def scan (decls : List OptionDecl) (command : Option CommandDecl) (args : List String) :
    Except Stop (Arguments × List String) :=
  scanWith decls command args.length .none args

end Arguments

end Dialogue
