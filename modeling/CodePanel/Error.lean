import CodePanel.Decimal.Format
import CodePanel.Text.Quoted

namespace CodePanel

open Decimal Text

inductive SettingsError where
  | emptyInputId
  | noBackdrops
  | duplicateId (id : String)
  | invalidClassStem (stem : String)
  | invalidLength (field : String) (value : Float)
  | unreadable

inductive EnvelopeError where
  | unreadable

inductive MapError where
  | raggedRows (row length expected : Nat)
  | oddLength (length : Nat)
  | dimensionMismatch (width height cells : Nat)

inductive SocketError where
  | connect (url message : String)
  | notOpen (readyState : Nat)
  | send (message : String)
  | envelope (error : EnvelopeError)

-- All errors of the mounted parts of the panel.
inductive Error where
  | settings (error : SettingsError)
  | map (error : MapError)
  | socket (error : SocketError)
  | missingElement (id : String)
  | wrongElement (id expected : String)
  | browserCall (message : String)

def SettingsError.code : SettingsError → String
  | .emptyInputId => "robasm::config::empty_input_id"
  | .noBackdrops => "robasm::config::no_backdrops"
  | .duplicateId _ => "robasm::config::duplicate_id"
  | .invalidClassStem _ => "robasm::config::class_prefix"
  | .invalidLength _ _ => "robasm::config::invalid_length"
  | .unreadable => "robasm::config::parse"

def SettingsError.message : SettingsError → String
  | .emptyInputId => "input element id must not be empty"
  | .noBackdrops => "at least one backdrop element id is required"
  | .duplicateId id => "element id " ++ quoted id ++ " is used more than once"
  | .invalidClassStem stem =>
    "class prefix " ++ quoted stem ++ " may only contain letters, digits, '-' and '_'"
  | .invalidLength field value =>
    field ++ " must be a finite, non-negative number, got " ++ plainText value
  | .unreadable => "failed to parse config"

def EnvelopeError.code : EnvelopeError → String
  | .unreadable => "robasm::envelope::decode"

def EnvelopeError.message : EnvelopeError → String
  | .unreadable => "failed to decode envelope"

def MapError.code : MapError → String
  | .raggedRows .. => "robasm::tiles::ragged_rows"
  | .oddLength _ => "robasm::tiles::odd_length"
  | .dimensionMismatch .. => "robasm::tiles::dimension_mismatch"

def MapError.message : MapError → String
  | .raggedRows row length expected =>
    "tile row " ++ toString row ++ " has " ++ toString length ++ " cells, expected " ++
      toString expected
  | .oddLength length => "tile byte stream has odd length " ++ toString length
  | .dimensionMismatch width height cells =>
    "tile byte stream holds " ++ toString cells ++ " cells, expected " ++ toString width ++ "x" ++
      toString height

def SocketError.code : SocketError → String
  | .connect .. => "robasm::socket::connect"
  | .notOpen _ => "robasm::socket::not_open"
  | .send _ => "robasm::socket::send"
  | .envelope error => error.code

def SocketError.message : SocketError → String
  | .connect url message => "failed to open socket to " ++ url ++ ": " ++ message
  | .notOpen readyState => "socket is not open (ready state " ++ toString readyState ++ ")"
  | .send message => "failed to send over socket: " ++ message
  | .envelope error => error.message

def Error.code : Error → String
  | .settings error => error.code
  | .map error => error.code
  | .socket error => error.code
  | .missingElement _ => "robasm::dom::missing_element"
  | .wrongElement _ _ => "robasm::dom::wrong_element"
  | .browserCall _ => "robasm::dom::js"

def Error.message : Error → String
  | .settings error => error.message
  | .map error => error.message
  | .socket error => error.message
  | .missingElement id => "element #" ++ id ++ " not found"
  | .wrongElement id expected => "element #" ++ id ++ " is not a " ++ expected
  | .browserCall message => "browser call failed: " ++ message

end CodePanel
