import CodePanel.Json.Parser
import CodePanel.Json.Writer
import CodePanel.Json.Record
import CodePanel.Upload.Lines

namespace CodePanel.Upload

open CodePanel.Json

-- What the data of an envelope is for.
inductive MessageKind where
  | upload
deriving DecidableEq

-- What is sent to the game server.
structure Envelope where
  kind : MessageKind
  data : String
deriving DecidableEq

-- The program text of the player's robot, ready to be sent.
def Envelope.upload (text : String) : Envelope :=
  ⟨.upload, String.ofList (collapseBlankLines text.toList)⟩

def MessageKind.name : MessageKind → String
  | .upload => "Upload"

def MessageKind.tag : MessageKind → String
  | .upload => "u"

def MessageKind.ofTag? (tag : String) : Option MessageKind :=
  if tag = "u" then some .upload else none

-- A tag stands alone, or as the only field of an object whose value is null.
def MessageKind.ofValue? : Value → Option MessageKind
  | .string (some tag) => ofTag? tag
  | .object [(some tag, .null)] => ofTag? tag
  | _ => none

def Envelope.toValue (envelope : Envelope) : Value :=
  .ofFields [("t", .ofString envelope.kind.tag), ("d", .ofString envelope.data)]

def Envelope.ofValue? (value : Value) : Option Envelope :=
  match value.record? ["t", "d"] with
  | some [kind, data] => do
    some ⟨← required? MessageKind.ofValue? kind, ← required? Value.string? data⟩
  | _ => none

def Envelope.write (envelope : Envelope) : String :=
  envelope.toValue.toText

def Envelope.read? (text : String) : Option Envelope :=
  (parse? text.toList).bind ofValue?

end CodePanel.Upload
