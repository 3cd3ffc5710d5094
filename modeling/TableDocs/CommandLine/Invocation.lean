import TableDocs.CommandLine.Arguments
import TableDocs.Data.Value
import TableDocs.Markdown.Labels
import TableDocs.Text.Integer

/-!
# TableDocs — invocations

An invocation is what the arguments of the program ask for: one of two commands, with options that
stand before the command or behind it. Arguments may also ask for help, or misuse the program; what
comes first decides, but arguments without a place and missing ones are only noticed at the end.
-/

namespace TableDocs.CommandLine

open TableDocs.Data

inductive Command
  /-- Extracts a directory of scripts into a document. Options may override settings. -/
  | extract (input output : String) (overrides : List (String × Value))
  /-- Renders a document. -/
  | render (input output : String) (locale? : Option Markdown.Locale)
  deriving Repr

structure Invocation where
  /-- The path of a settings file, or empty. -/
  settingsFile : String
  verbose : Bool
  command : Command
  deriving Repr

/-- Why there is nothing to be done. -/
inductive Stop
  | misuse
  | help
  deriving DecidableEq, Repr

inductive OptionKey
  | help
  | config
  | verbose
  | workers
  | dialect
  | locale
  deriving DecidableEq, Repr

namespace OptionKey

def helpForm : OptionForm OptionKey := ⟨.help, ["-h", "--help"], false⟩

/-- Options before the command. -/
def globalForms : List (OptionForm OptionKey) :=
  [helpForm, ⟨.config, ["--config"], true⟩, ⟨.verbose, ["-v", "--verbose"], false⟩]

def extractForms : List (OptionForm OptionKey) :=
  [helpForm, ⟨.workers, ["--workers"], true⟩, ⟨.dialect, ["--dialect"], true⟩]

def renderForms : List (OptionForm OptionKey) :=
  [helpForm, ⟨.locale, ["--locale"], true⟩]

end OptionKey

/-- What the arguments have asked for so far. -/
structure Choices where
  settingsFile : String := ""
  verbose : Bool := false
  workers? : Option Value := none
  dialect? : Option Value := none
  locale? : Option Markdown.Locale := none
  /-- The arguments that are no options, in order. -/
  values : List String := []
  /-- Some argument has no place. -/
  misplaced : Bool := false

namespace Choices

/-- Two dashes as the value of an option are taken off, and what is left is an empty list. -/
def noValue : String := "--"

/-- The number of workers, which has to be positive. -/
def workersOf? (text : String) : Option Value :=
  if text = noValue then some (.list [])
  else ((Text.Integer.parseDecimal? text).filter (1 ≤ ·)).map .int

/-- Takes an option in. -/
def withOption (c : Choices) (key : OptionKey) (text : String) : Except Stop Choices :=
  match key with
  | .help => .error .help
  | .config => .ok { c with settingsFile := if text = noValue then "" else text }
  | .verbose => .ok { c with verbose := true }
  | .workers =>
    match workersOf? text with
    | some v => .ok { c with workers? := some v }
    | none => .error .misuse
  | .dialect => .ok { c with dialect? := some (if text = noValue then .list [] else .text text) }
  | .locale =>
    if text = noValue then .ok { c with locale? := none }
    else
      match Markdown.Locale.ofName? text with
      | some l => .ok { c with locale? := some l }
      | none => .error .misuse

/-- Takes in one thing that the arguments say. -/
def withEvent (c : Choices) : Event OptionKey → Except Stop Choices
  | .option key text => c.withOption key text
  | .value text => .ok { c with values := c.values ++ [text] }
  | .unexpected => .ok { c with misplaced := true }
  | .unreadable => .error .misuse

/-- Takes everything in, up to what stops it. -/
def withEvents (c : Choices) (events : List (Event OptionKey)) : Except Stop Choices :=
  events.foldlM withEvent c

/-- The settings that options override, for an extraction. -/
def overrides (c : Choices) : List (String × Value) :=
  (c.workers?.toList.map fun v => ("workers", v)) ++ c.dialect?.toList.map fun v => ("dialect", v)

end Choices

/-- The commands that take an input and an output. -/
inductive CommandName
  | extract
  | render
  deriving DecidableEq, Repr

namespace CommandName

def ofName? : String → Option CommandName
  | "extract" => some extract
  | "render" => some render
  | _ => none

def forms : CommandName → List (OptionForm OptionKey)
  | extract => OptionKey.extractForms
  | render => OptionKey.renderForms

/-- The command with what was asked for. -/
def command (name : CommandName) (input output : String) (c : Choices) : Command :=
  match name with
  | extract => .extract input output c.overrides
  | render => .render input output c.locale?

end CommandName

namespace Invocation

/-- Reads the arguments behind the name of a command. -/
def readCommand (c : Choices) (name : CommandName) (args : List String) :
    Except Stop Invocation := do
  let some readings := OptionForm.readAll? name.forms args | throw .misuse
  let c ← c.withEvents (Event.ofArguments name.forms false readings)
  match c.values, c.misplaced with
  | [input, output], false => return ⟨c.settingsFile, c.verbose, name.command input output c⟩
  | _, _ => throw .misuse

/-- Reads the arguments of the program. -/
def read (args : List String) : Except Stop Invocation := do
  let some readings := OptionForm.readAll? OptionKey.globalForms args | throw .misuse
  let (events, rest) := Event.leading OptionKey.globalForms readings
  let c ← ({} : Choices).withEvents events
  match rest with
  | (text, .value) :: more =>
    match CommandName.ofName? text with
    | some name => readCommand c name (more.map Prod.fst)
    | none => throw .misuse
  | _ => throw .misuse

end Invocation

end TableDocs.CommandLine
