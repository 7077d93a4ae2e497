import CodePanel.Error
import CodePanel.Fit.Adjustment
import CodePanel.Json.Parser
import CodePanel.Json.Record
import CodePanel.Json.Writer
import CodePanel.Text.Space

namespace CodePanel

open Json Fit

-- A length has to be finite and may not be negative.
def checkLength (field : String) (value : Float) : Except SettingsError Unit :=
  if value.isFinite && 0.0 ≤ value then .ok () else .error (.invalidLength field value)

-- The first element of a list that occurs earlier in it.
def firstRepeated? [DecidableEq α] (seen : List α) : List α → Option α
  | [] => none
  | a :: rest => if a ∈ seen then some a else firstRepeated? (a :: seen) rest

end CodePanel

namespace CodePanel.Overlay

open Json Fit Text

-- Which text field an overlay belongs to, which backdrops it fills, and how.
structure Settings where
  inputId : String := "code"
  backdropIds : List String := ["highlights", "highlights_text"]
  classStem : Option String := none
  overrides : Option Overrides := none

-- Style classes are made of ASCII letters, digits, dashes and underscores.
def isClassChar (c : Char) : Bool :=
  c.isAlphanum || c == '-' || c == '_'

-- The class stem, if there is one, may only hold such characters.
def checkStem : Option String → Except SettingsError Unit
  | some stem => if stem.toList.all isClassChar then .ok () else .error (.invalidClassStem stem)
  | none => .ok ()

def checkInset : Option Float → Except SettingsError Unit
  | some inset => checkLength "quirks.horizontalPaddingPx" inset
  | none => .ok ()

-- The inset that the settings ask for.
def Settings.inset? (settings : Settings) : Option Float :=
  settings.overrides.bind Overrides.inset

def Settings.validate (settings : Settings) : Except SettingsError Unit :=
  if isBlank settings.inputId.toList then .error .emptyInputId
  else if settings.backdropIds.isEmpty then .error .noBackdrops
  else match firstRepeated? [] (settings.inputId :: settings.backdropIds) with
    | some id => .error (.duplicateId id)
    | none =>
      match checkStem settings.classStem with
      | .error error => .error error
      | .ok () => checkInset settings.inset?

-- Detected adjustments with the settings' own values laid over them.
def Settings.adjust (settings : Settings) (detected : Adjustment) : Adjustment :=
  match settings.overrides with
  | some overrides => overrides.apply detected
  | none => detected

def Settings.options (settings : Settings) : Markup.Options where
  classStem := settings.classStem

def overridesValue (overrides : Overrides) : Value :=
  .ofFields [
    ("spaceBreakHint", .ofOption .bool overrides.spaceBreakHint),
    ("horizontalPaddingPx", .ofOption .ofFloat overrides.inset)]

def overridesOfValue? (value : Value) : Option Overrides :=
  match value.record? ["spaceBreakHint", "horizontalPaddingPx"] with
  | some [spaceBreakHint, inset] => do
    some {
      spaceBreakHint := ← optional? none (Value.nullable? Value.bool?) spaceBreakHint
      inset := ← optional? none (Value.nullable? Value.float?) inset }
  | _ => none

def Settings.toValue (settings : Settings) : Value :=
  .ofFields [
    ("inputId", .ofString settings.inputId),
    ("backdropIds", .array (settings.backdropIds.map .ofString)),
    ("classPrefix", .ofOption .ofString settings.classStem),
    ("quirks", .ofOption overridesValue settings.overrides)]

-- Every field may be left out, and then has its usual value.
def Settings.ofValue? (value : Value) : Option Settings :=
  let usual : Settings := {}
  match value.record? ["inputId", "backdropIds", "classPrefix", "quirks"] with
  | some [inputId, backdropIds, classStem, overrides] => do
    some {
      inputId := ← optional? usual.inputId Value.string? inputId
      backdropIds := ← optional? usual.backdropIds (Value.list? Value.string?) backdropIds
      classStem := ← optional? none (Value.nullable? Value.string?) classStem
      overrides := ← optional? none (Value.nullable? overridesOfValue?) overrides }
  | _ => none

def Settings.write (settings : Settings) : String :=
  settings.toValue.toText

-- Reads and checks settings.
def Settings.read (text : String) : Except SettingsError Settings :=
  match (parse? text.toList).bind ofValue? with
  | none => .error .unreadable
  | some settings =>
    match settings.validate with
    | .error error => .error error
    | .ok () => .ok settings

end CodePanel.Overlay
