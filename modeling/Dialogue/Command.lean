import Dialogue.Chat
import Dialogue.Command.Arguments
import Dialogue.Command.FileTree
import Dialogue.Command.Help
import Dialogue.Text.Lines
import Dialogue.Text.Plain

/-!
# Commands

The program writes first settings and a sample, checks flow files, shows what is in them, plays
scripts against them, and lets a user talk to them.

## Main definitions

* `Command`, `Invocation`, `Invocation.ofArguments`
* `Command.run` — carrying out a command
* `Outcome`, `Outcome.rehearse` — a whole run of the program against surroundings that are a value
-/

namespace Dialogue

/-- What the program is asked to do. -/
inductive Command where
  /-- Write first settings and a sample. -/
  | init (directory : Option String) (isForced : Bool)
  /-- Check flow files. -/
  | validate (flows : List String)
  /-- Show what is in flow files. -/
  | inspect (flows : List String) (showsPrograms : Bool)
  /-- Let a user talk to flows. -/
  | chat (flows mainFlows : List String)
  /-- Play a script against flows. -/
  | replay (script : String) (flows mainFlows : List String) (isJson : Bool)

/-- A command and where the settings are. -/
structure Invocation where
  /-- The command. -/
  command : Command
  /-- The settings file. -/
  config : Option String

namespace Invocation

/-- The variable of the environment that names the settings file. -/
def configVariable : String := "PARLEY_CONFIG"

/-- The options that every command takes, given what the environment says about the settings
file. -/
def commonOptions (environmentConfig : Option String) : List OptionDecl :=
  [⟨"verbose", some 'v', .flag, "", "Enable verbose logging"⟩,
    ⟨"config", some 'c', .single, "CONFIG",
      "Config file (defaults to ~/.parley/config.toml) [env: " ++ configVariable ++ "="
        ++ environmentConfig.getD "" ++ "]"⟩]

/-- The option for flow files. -/
def flowsOption : OptionDecl :=
  ⟨"flows", some 'f', .repeated false, "FILE", "Flow files to load instead of `[flows].paths`"⟩

/-- The option for main flows. -/
def mainOption : OptionDecl :=
  ⟨"main", some 'm', .repeated true, "MAIN",
    "Root flows to activate (defaults to `[flows].main`)"⟩

/-- The commands. -/
def commands : List CommandDecl :=
  [⟨"init", "Write a default config.toml and a sample flows.toml", none,
      [⟨"dir", some 'd', .single, "DIR", "Target directory (defaults to ~/.parley)"⟩,
        ⟨"force", none, .flag, "", "Overwrite existing files"⟩]⟩,
    ⟨"validate", "Load and validate flow definitions", none, [flowsOption]⟩,
    ⟨"inspect", "List flows, their parameters, and the event vocabulary", none,
      [flowsOption, ⟨"program", none, .flag, "", "Also print each flow's compiled program"⟩]⟩,
    ⟨"chat", "Chat with the flows on stdin", none, [flowsOption, mainOption]⟩,
    ⟨"replay", "Replay a scripted conversation",
      some ⟨"SCRIPT",
        "Script: one user utterance, JSON event, or `\x7b\"wait\": secs\x7d` per line"⟩,
      [flowsOption, mainOption, ⟨"json", none, .flag, "", "Print emitted events as JSON lines"⟩]⟩]

/-- The command of a name. -/
def declaration? (name : String) : Option CommandDecl := commands.find? fun d => d.name == name

/-- The command of a name with its arguments. -/
def command? (name : String) (a : Arguments) : Option Command :=
  match name, a.operand with
  | "init", _ => some (.init (a.value? "dir") (a.has "force"))
  | "validate", _ => some (.validate (a.values "flows"))
  | "inspect", _ => some (.inspect (a.values "flows") (a.has "program"))
  | "chat", _ => some (.chat (a.values "flows") (a.values "main"))
  | "replay", some script =>
    some (.replay script (a.values "flows") (a.values "main") (a.has "json"))
  | _, _ => none

/-- What a request for help about commands asks for. -/
def helpRequest : List String → Stop
  | [] => .help none
  | [name] =>
    if (declaration? name).isSome || name == "help" then .help (some name) else .misuse
  | _ => .misuse

/-- Reads a command line. The settings file is that of the command, else that of the program, else
that of the environment. -/
def ofArguments (args : List String) (environmentConfig : Option String) :
    Except Stop Invocation := do
  let options := commonOptions environmentConfig
  let (common, rest) ← Arguments.scan options none args
  match rest with
  | [] => throw .misuse
  | name :: rest =>
    if name == "help" then throw (helpRequest rest)
    let some d := declaration? name | throw .misuse
    let (own, _) ← Arguments.scan (options ++ d.options) (some d) rest
    let own ← own.settle
    let some command := command? name own | throw .misuse
    let common ← common.settle
    if environmentConfig == some "" && !(common.has "config" && own.has "config") then throw .misuse
    let config := ((own.value? "config").or (common.value? "config")).or environmentConfig
    return { command, config }

end Invocation

namespace Stop

/-- The name of the program. -/
def programName : String := "parley"

/-- The code that the program ends with. -/
def code : Stop → Nat
  | misuse => 2
  | help _ | version => 0

/-- The help about the program or about a command. -/
def helpLines (environmentConfig command : Option String) : List String :=
  let common := Invocation.commonOptions environmentConfig
  match command with
  | none =>
    Help.program programName "parley: a conversational-flow runtime" Invocation.commands common
  | some name =>
    match Invocation.declaration? name with
    | some d => Help.command programName d common
    | none => Help.helpCommand programName

/-- What the program shows, given what the environment says about the settings file. -/
def output (environmentConfig : Option String) : Stop → String
  | misuse => ""
  | help command => Text.plain (Text.ofLines (helpLines environmentConfig command))
  | version => programName ++ " 0.1.0\n"

end Stop

/-- The sample of flows that is written at first: it greets, answers small talk, asks after half a
minute of silence, and repeats whatever it does not understand. -/
def sampleFlows : String := "# Sample parley flows. Try: parley chat

[[flows]]
name = \"main\"
description = \"Greet the user, then handle small talk\"
body = [
  \x7b type = \"alternative\", branches = [
      [\x7b type = \"match\", event = \"UserSaid\", params = \x7b text = \"hi\" \x7d \x7d],
      [\x7b type = \"match\", event = \"UserSaid\", params = \x7b text = \"hello\" \x7d \x7d],
  ] \x7d,
  \x7b type = \"send\", event = \"BotSay\", params = \x7b text = \"Hello World!\" \x7d \x7d,
  \x7b type = \"start\", flow = \"echo\" \x7d,
  \x7b type = \"repeat\", body = [
      \x7b type = \"wait_any\", timeout = 30.0, branches = [
          [
            \x7b type = \"match\", event = \"UserSaid\", params = \x7b text = \"how are you?\" \x7d \x7d,
            \x7b type = \"send\", event = \"BotSay\", params = \x7b text = \"Great, thanks for asking!\" \x7d \x7d,
          ],
      ], on_timeout = [
          \x7b type = \"send\", event = \"BotSay\", params = \x7b text = \"Are you still there?\" \x7d \x7d,
      ] \x7d,
  ] \x7d,
]

[[flows]]
name = \"echo\"
description = \"Repeat back whatever no other flow understood\"
body = [
  \x7b type = \"repeat\", body = [
      \x7b type = \"match\", event = \"UserSaid\", capture = \x7b text = \"utterance\" \x7d \x7d,
      \x7b type = \"execute\", action = \"render_utterance\", params = \x7b template = \"You said: \x7btext\x7d\", text = \"$utterance\" \x7d, result = \"reply\" \x7d,
      \x7b type = \"send\", event = \"BotSay\", params = \x7b text = \"$reply\" \x7d \x7d,
  ] \x7d,
]
"

namespace Command

variable {m : Type → Type} [Monad m]

/-- A command against its surroundings. -/
abbrev Act (m : Type → Type) := ExceptT CommandError m

/-- Shows lines. -/
def printAll (sys : System m) (lines : List String) : Act m Unit := lines.forM fun l => sys.print l

/-- Goes on with the result of an operation on files. -/
def orFail {α : Type} (act : m (Except FileError α)) : Act m α := do
  match ← act with
  | .ok a => return a
  | .error e => throw (.file e)

/-- The directory of the settings. -/
def settingsDirectory (sys : System m) : Act m String := do
  return Text.joinPath ((← sys.environment "HOME").getD "/tmp") ".parley"

/-- The text of a file, or the reason why it cannot be read. -/
def readFile (sys : System m) (path : String) : Act m (Except String String) := do
  return match ← sys.read path with
  | .ok text => .ok text
  | .error e => .error e.message

/-- The settings. -/
def loadConfig (sys : System m) (path : Option String) : Act m Config := do
  let path ← match path with
    | some path => pure path
    | none => do
      let directory ← settingsDirectory sys
      pure (Text.joinPath directory "config.toml")
  let content ← if ← sys.pathExists path then some <$> readFile sys path else pure none
  let overrides ← Config.Overrides.ofEnvironment fun key => sys.environment key
  match Config.ofSources path content overrides with
  | .ok c => return c
  | .error e => throw (.text ("Failed to load config: " ++ e.message))

/-- The flows of the files that are asked for, or of those in the settings. -/
def loadLibrary (sys : System m) (c : Config) (requested : List String) : Act m FlowLibrary := do
  let paths := if requested.isEmpty then c.flowPaths else requested
  if paths.isEmpty then
    throw (.text "No flow files given. Pass --flows FILE or set [flows].paths in config.toml")
  match c.vocabulary with
  | .error e => throw (.config e)
  | .ok vocabulary =>
    let files ← paths.mapM fun path => return ⟨path, ← readFile sys path⟩
    match FlowLibrary.load vocabulary files with
    | .error e => throw (.definition e)
    | .ok l => return l

/-- Refuses flows that call actions which are not there. -/
def checkActions (l : FlowLibrary) : Act m Unit :=
  match l.checkActions builtinActions.keys with
  | .ok () => pure ()
  | .error e => throw (.definition e)

/-- Writes first settings and a sample into a directory. What is there already is kept, unless it is
to be overwritten. -/
def runInit (sys : System m) (directory : Option String) (isForced : Bool) : Act m Unit := do
  let directory ← match directory with
    | some directory => pure directory
    | none => settingsDirectory sys
  let config := Text.joinPath directory "config.toml"
  let flows := Text.joinPath directory "flows.toml"
  sys.print "parley: first-time setup"
  sys.print "========================\n"
  if ← sys.pathExists directory then
    sys.print s!"  Directory exists: {directory}"
  else
    orFail (sys.createDirectories directory)
    sys.print s!"✅ Created directory: {directory}"
  if !isForced && (← sys.pathExists flows) then
    sys.print s!"⚠️  Flows already exist at: {flows}"
  else
    orFail (sys.write flows sampleFlows)
    sys.print s!"✅ Created flows.toml at: {flows}"
  if !isForced && (← sys.pathExists config) then
    sys.print s!"⚠️  Config already exists at: {config}"
    sys.print "   Edit it manually or re-run with --force.\n"
  else
    orFail (sys.write config { Config.standard with flowPaths := [flows] }.toToml)
    sys.print s!"✅ Created config.toml at: {config}"
  sys.print "\n📝 Next steps:"
  sys.print s!"   1. Edit {flows} to shape the conversation"
  sys.print "   2. Run: parley validate"
  sys.print "   3. Run: parley chat\n"

/-- Checks flow files, and whether the main flows of the settings are among the flows. -/
def runValidate (sys : System m) (c : Config) (flows : List String) : Act m Unit := do
  let l ← loadLibrary sys c flows
  checkActions l
  let missing := c.mainFlows.filter fun name => !l.contains name
  sys.print s!"✅ {l.size} flows valid"
  sys.print s!"   {l.vocabulary.size} event tags in vocabulary"
  if missing.isEmpty then sys.print ("   root flows: " ++ ", ".intercalate c.mainFlows)
  else throw (.text ("Root flows not defined: " ++ ", ".intercalate missing))

/-- A text with blanks behind it, so that it takes at least sixteen columns. -/
def column (s : String) : String :=
  s ++ String.ofList (List.replicate (16 - s.length) ' ')

/-- What is shown of a flow. -/
def flowLines (showsPrograms : Bool) (f : CompiledFlow) : List String :=
  let d := f.definition
  let parameters :=
    if d.parameters.isEmpty then "" else "(" ++ ", ".intercalate d.parameters ++ ")"
  let description := if d.description.isEmpty then [] else ["      " ++ d.description]
  let program :=
    if showsPrograms then (Text.lines f.program.listing).map ("      " ++ ·) else []
  s!"  {d.name}{parameters} ({f.program.size} instructions)" :: description ++ program

/-- What is shown of an action. -/
def actionLine (name : String) : String :=
  let description := match builtinActions.get? name with
    | some a => a.description
    | none => "(not built in; must be registered by the host)"
  s!"  {column name} {description}"

/-- Shows the flows in flow files, the events and the actions. -/
def runInspect (sys : System m) (c : Config) (flows : List String) (showsPrograms : Bool) :
    Act m Unit := do
  let l ← loadLibrary sys c flows
  sys.print s!"Flows ({l.size}):\n"
  printAll sys (l.flows.values.flatMap (flowLines showsPrograms))
  sys.print s!"\nEvents ({l.vocabulary.size}):\n"
  printAll sys (l.vocabulary.entries.map fun (name, kind) => s!"  {column name} {kind.label}")
  if !l.actions.isEmpty then
    sys.print "\nActions:\n"
    printAll sys (l.actions.map actionLine)

/-- How many turns may follow from one line. -/
def patience : Nat := 1000000

/-- Plays a script. Nothing is shown unless it can be played to its end. -/
def runReplay (sys : System m) (c : Config) (script : String) (flows mainFlows : List String)
    (isJson : Bool) : Act m Unit := do
  let content ← match ← readFile sys script with
    | .ok content => pure content
    | .error reason => throw (.text s!"Failed to read {script}: {reason}")
  let steps ← match Script.parse content with
    | .ok steps => pure steps
    | .error e => throw (.text (Script.errorText e))
  let l ← loadLibrary sys c flows
  checkActions l
  let session := Session.new "replay" l c.limits ∅
  let r := Replay.new session builtinActions (Duration.ofNat c.actionTimeout) isJson patience
  match r.play (c.startFlows mainFlows) steps with
  | (_, some e) => throw (.ofReplay e)
  | (r, none) =>
    printAll sys (r.transcript.toList.filter fun line => !isJson || !Text.startsWith line ">")
    if r.isDiscarded then throw (.text "Session discarded before the script ended")

/-- Opens a chat. -/
def runChat (sys : System m) (c : Config) (flows mainFlows : List String) :
    Act m (List String × ChatState) := do
  let l ← loadLibrary sys c flows
  checkActions l
  sys.print "parley chat (type /quit to exit)\n"
  let host := Host.new l builtinActions c.limits (Duration.ofNat c.actionTimeout) patience
  return Chat.begin host (c.startFlows mainFlows)

/-- Carries out a command, given the settings file, if one is named. What is left to do after it is
a chat, if anything is. -/
def run (sys : System m) (config : Option String) :
    Command → Act m (Option (List String × ChatState))
  | .init directory isForced => do
    runInit sys directory isForced
    return none
  | .validate flows => do
    let c ← loadConfig sys config
    runValidate sys c flows
    return none
  | .inspect flows showsPrograms => do
    let c ← loadConfig sys config
    runInspect sys c flows showsPrograms
    return none
  | .replay script flows mainFlows isJson => do
    let c ← loadConfig sys config
    runReplay sys c script flows mainFlows isJson
    return none
  | .chat flows mainFlows => do
    let c ← loadConfig sys config
    let opened ← runChat sys c flows mainFlows
    return some opened

end Command

/-- What a run of the program leaves. -/
structure Outcome where
  /-- The code that the program ends with. -/
  code : Nat
  /-- The text that it shows. -/
  output : String
  /-- Why it failed, if it did. -/
  error : Option CommandError
  /-- The files. -/
  files : FileTree

namespace Outcome

/-- A run that carries out a command. -/
def ofInvocation (files : FileTree) (environment : String → Option String) (input : String)
    (i : Invocation) : Outcome :=
  match (i.command.run (FileTree.system environment) i.config).run (files, #[]) with
  | (.error e, files, output) => ⟨1, Text.ofLines output.toList, some e, files⟩
  | (.ok none, files, output) => ⟨0, Text.ofLines output.toList, none, files⟩
  | (.ok (some chat), files, output) =>
    let (said, error) := Chat.converse chat (Text.lines input)
    ⟨if error.isSome then 1 else 0, Text.ofLines (output.toList ++ said), error, files⟩

/-- A run of the program with these arguments, files, environment and input. No time passes in it
apart from what the input of a replay asks for. -/
def rehearse (args : List String) (files : FileTree) (environment : String → Option String)
    (input : String) : Outcome :=
  let config := environment Invocation.configVariable
  match Invocation.ofArguments args config with
  | .error stop => ⟨stop.code, stop.output config, none, files⟩
  | .ok i => ofInvocation files environment input i

end Outcome

end Dialogue
