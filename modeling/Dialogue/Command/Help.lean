import Dialogue.Command.Arguments
import Dialogue.Text.Piece

/-!
# Help

The help about the program lists its commands and options, the help about a command its argument
and options: first those of the command, then those of all commands.

## Main definitions

* `Help.listing` — things and what they are for, in two columns
* `Help.program`, `Help.command`, `Help.helpCommand` — the lines of help
-/

namespace Dialogue.Help

/-- Blanks that fill columns. -/
def blanks (n : Nat) : String := String.ofList (List.replicate n ' ')

/-- Things and what they are for, in two columns. All lines of what a thing is for stand in the
second column. -/
def listing (rows : List (String × String)) : List String :=
  let width := rows.foldl (fun n row => max n row.1.length) 0
  rows.map fun (thing, about) =>
    "  " ++ thing ++ blanks (width - thing.length) ++ "  "
      ++ ("\n" ++ blanks (width + 4)).intercalate (Text.split about '\n')

/-- A headed listing, behind an empty line. -/
def headed (title : String) (rows : List (String × String)) : List String :=
  "" :: (title ++ ":") :: listing rows

/-- An option as it is written. -/
def optionText (d : OptionDecl) : String :=
  let letter := match d.short with
    | some c => "-" ++ String.ofList [c] ++ ", "
    | none => "    "
  letter ++ "--" ++ d.long ++ (if d.kind == .flag then "" else " <" ++ d.value ++ ">")

/-- The row of an option. -/
def optionRow (d : OptionDecl) : String × String := (optionText d, d.about)

/-- The row of the option that asks for help. -/
def helpRow : String × String := ("-h, --help", "Print help")

/-- The row of the option that asks for the version. -/
def versionRow : String × String := ("-V, --version", "Print version")

/-- What the command for help does. -/
def helpAbout : String := "Print this message or the help of the given subcommand(s)"

/-- The help about a program. -/
def program (name about : String) (commands : List CommandDecl) (common : List OptionDecl) :
    List String :=
  [about, "", "Usage: " ++ name ++ " [OPTIONS] <COMMAND>"]
    ++ headed "Commands" (commands.map (fun d => (d.name, d.about)) ++ [("help", helpAbout)])
    ++ headed "Options" (common.map optionRow ++ [helpRow, versionRow])

/-- The help about a command of a program. -/
def command (name : String) (d : CommandDecl) (common : List OptionDecl) : List String :=
  let usage := "Usage: " ++ name ++ " " ++ d.name ++ " [OPTIONS]"
  let operand := match d.operand with
    | some o => "<" ++ o.name ++ ">"
    | none => ""
  [d.about, "", if operand.isEmpty then usage else usage ++ " " ++ operand]
    ++ (match d.operand with
      | some o => headed "Arguments" [(operand, o.about)]
      | none => [])
    ++ headed "Options" ((d.options ++ common).map optionRow ++ [helpRow])

/-- The help about the command for help. -/
def helpCommand (name : String) : List String :=
  [helpAbout, "", "Usage: " ++ name ++ " help [COMMAND]..."]
    ++ headed "Arguments" [("[COMMAND]...", "Print help for the subcommand(s)")]

end Dialogue.Help
