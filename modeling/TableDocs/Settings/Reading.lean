import TableDocs.Settings.Basic
import TableDocs.Text.CaseMap
import TableDocs.Validation.Coerce

/-!
# TableDocs — reading settings

Settings are read from a value. Members that are missing keep their defaults, members that nobody
declared are passed over, and all problems are reported.
-/

namespace TableDocs.Settings

open TableDocs.Data
open TableDocs.Validation

/-! ## Single settings -/

/-- The suffix that a text asks for: without the blanks around it, in lower case and with a dot in
front. A blank text asks for none. -/
def extension? (text : String) : Option String :=
  match (Text.lower (Text.trim text)).toList with
  | [] => none
  | '.' :: rest => some (String.ofList ('.' :: rest))
  | rest => some (String.ofList ('.' :: rest))

/-- A list of suffixes, which has to name one at least. -/
def asExtensions (v : Value) : Checked (List String) :=
  (asList .program asText v).bind fun texts =>
    match texts.filterMap extension? with
    | [] => .fail (.refused "extensions must name at least one suffix")
    | extensions => .valid extensions

/-- A choice by any of its names, which is kept as it is written. -/
def asNamed {α : Type} (ofName? : String → Option α) (refusal : String → String) (v : Value) :
    Checked (Named ofName?) :=
  (asText v).bind fun name =>
    match h : ofName? name with
    | some choice => .valid ⟨name, choice, h⟩
    | none => .fail (.refused (refusal name))

/-- What is said of a name that no encoding has. No name holds a zero character. -/
def encodingRefusal (name : String) : String :=
  if name.toList.contains '\x00' then "embedded null character" else "unknown encoding: " ++ name

def dialectRefusal (name : String) : String :=
  "unknown SQL dialect: " ++ name

/-- The most sources that may be read at the same time. -/
def mostWorkers : Nat := 32

/-- The widest indentation. -/
def widestIndent : Nat := 8

/-- A natural number between bounds. -/
def asNatBetween (least most : Nat) (v : Value) : Checked Nat :=
  (asIntBetween least most v).map Int.toNat

/-- A level by its name in any letter case. -/
def asLevel (v : Value) : Checked Log.Level :=
  asChoice (fun s => Log.Level.ofName? (Text.upper s)) (Log.Level.all.map Log.Level.name) v

def asLocale : Value → Checked Markdown.Locale :=
  asChoice Markdown.Locale.ofName? Markdown.Locale.names

/-! ## Groups of settings -/

/-- The names of the groups in reports of problems. -/
def Extract.modelName : String := "ExtractConfig"
def Output.modelName : String := "OutputConfig"
def Render.modelName : String := "RenderConfig"
def Logging.modelName : String := "LoggingConfig"
def modelName : String := "SchemaDocConfig"

def Extract.ofMembers (members : List (String × Value)) : Checked Extract :=
  let usual : Extract := {}
  (((((optional members ["extensions"] usual.extensions asExtensions).map Extract.mk).andThen
    (optional members ["encoding"] usual.encoding
      (asNamed Files.Encoding.ofName? encodingRefusal))).andThen
    (optional members ["recursive"] usual.recursive asBool)).andThen
    (optional members ["workers"] usual.workers (asNatBetween 1 mostWorkers))).andThen
    (optional members ["dialect"] usual.dialect (asNamed Sql.Dialect.ofName? dialectRefusal))

def Output.ofMembers (members : List (String × Value)) : Checked Output :=
  (optional members ["indent"] ({} : Output).indent (asNatBetween 0 widestIndent)).map Output.mk

def Render.ofMembers (members : List (String × Value)) : Checked Render :=
  (optional members ["locale"] ({} : Render).locale asLocale).map Render.mk

def Logging.ofMembers (members : List (String × Value)) : Checked Logging :=
  let usual : Logging := {}
  ((optional members ["level"] usual.level asLevel).map Logging.mk).andThen
    (optional members ["format"] usual.layout asText)

def ofMembers (members : List (String × Value)) : Checked Settings :=
  ((((optional members ["extract"] {}
      (asObject .program Extract.modelName Extract.ofMembers)).map Settings.mk).andThen
    (optional members ["output"] {}
      (asObject .program Output.modelName Output.ofMembers))).andThen
    (optional members ["render"] {}
      (asObject .program Render.modelName Render.ofMembers))).andThen
    (optional members ["logging"] {}
      (asObject .program Logging.modelName Logging.ofMembers))

/-- The settings that a value denotes. -/
def ofValue : Value → Checked Settings :=
  asObject .program modelName ofMembers

end TableDocs.Settings
