import CodePanel.Decimal.Format

namespace CodePanel

open Decimal

-- Values that a call into the browser can throw.
inductive Thrown where
  | text (value : String)
  | failure (message : String)
  | number (value : Float)
  | flag (value : Bool)
  | null

-- A text stands for itself and a failure has a message. Anything else is shown as a value.
def Thrown.message : Thrown → String
  | .text value => value
  | .failure message => message
  | .number value => "JsValue(" ++ plainText value ++ ")"
  | .flag value => "JsValue(" ++ (if value then "true" else "false") ++ ")"
  | .null => "JsValue(null)"

end CodePanel
