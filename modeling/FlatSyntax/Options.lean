import FlatSyntax.Log
import FlatSyntax.Text.Blank

/-!
Options of the front end and the variables of the environment that set them.
-/

namespace FlatSyntax

structure Options where
  /-- Whether key and value pairs are recognized before anything else. -/
  jsonMode : Bool := false
  /-- Whether listings are styled for a terminal. -/
  color : Bool := true
  /-- The name of the encoding of source files. -/
  encoding : String := "utf-8"
deriving DecidableEq, Repr

/-- The variables of the environment that matter; one that is not set is absent. -/
structure Environment where
  jsonMode : Option String := none
  color : Option String := none
  encoding : Option String := none
deriving DecidableEq, Repr

namespace Options

def jsonModeVariable : String := "WYST_JSON_MODE"

def colorVariable : String := "WYST_COLOR"

def encodingVariable : String := "WYST_ENCODING"

def yesWords : List String := ["1", "true", "yes", "on"]

def noWords : List String := ["0", "false", "no", "off"]

/-- The meaning of a yes or no setting. White space around the word and the case of its letters do
not matter. -/
def switch? (text : String) : Option Bool :=
  let word := String.ofList ((Text.trim text.toList).map Char.toLower)
  if yesWords.contains word then some true
  else if noWords.contains word then some false
  else none

/-- What a yes or no variable sets, given the default, and the warning where its value has no
meaning. -/
def readSwitch (variableName : String) (setting : Option String) (default : Bool) :
    Bool × List LogRow :=
  match setting with
  | none => (default, [])
  | some value =>
      match switch? value with
      | some on => (on, [])
      | none => (default, [.ignoredSetting variableName value])

/-- The options that the environment sets, with warnings. An empty encoding counts as not set. -/
def ofEnvironment (environment : Environment) : Options × List LogRow :=
  let defaults : Options := {}
  let (jsonMode, jsonRows) := readSwitch jsonModeVariable environment.jsonMode defaults.jsonMode
  let (color, colorRows) := readSwitch colorVariable environment.color defaults.color
  let encoding :=
    match environment.encoding with
    | some name => if name.isEmpty then defaults.encoding else name
    | none => defaults.encoding
  ({ jsonMode, color, encoding }, jsonRows ++ colorRows)

end Options

end FlatSyntax
