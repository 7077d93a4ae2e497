import CodePanel.Upload.Envelope

namespace CodePanel

open Upload

inductive Level where
  | info
  | warning
deriving DecidableEq

-- What the panel reports without being asked.
inductive LogEntry where
  | paddingRejected (property error : String)
  | drawFailed (src error : String)
  | assetFailed (id : String)
  | socketOpen (url : String)
  | socketEnvelope (envelope : Envelope)
  | socketText (text : String)
  | socketClosed (url : String) (code : Nat) (reason : String) (clean : Bool)
  | socketGone (url : String)
  | socketError (url : String)
  | uploadFailed (error : String)
  | closeFailed (url error : String)
deriving DecidableEq

def LogEntry.level : LogEntry → Level
  | .socketOpen _ | .socketEnvelope _ | .socketText _ | .socketClosed .. | .socketGone _ => .info
  | _ => .warning

def LogEntry.message : LogEntry → String
  | .paddingRejected .. => "failed to set backdrop padding"
  | .drawFailed .. => "drawImage failed"
  | .assetFailed _ => "resource failed to load"
  | .socketOpen _ => "socket open"
  | .socketEnvelope _ | .socketText _ => "socket message"
  | .socketClosed .. | .socketGone _ => "socket closed"
  | .socketError _ => "socket error"
  | .uploadFailed _ => "code upload failed"
  | .closeFailed .. => "failed to close socket"

-- The particulars of an entry, by name.
def LogEntry.fields : LogEntry → List (String × String)
  | .paddingRejected property error => [("property", property), ("error", error)]
  | .drawFailed src error => [("src", src), ("error", error)]
  | .assetFailed id => [("id", id)]
  | .socketOpen url | .socketGone url | .socketError url => [("url", url)]
  | .socketEnvelope envelope => [("kind", envelope.kind.name), ("data", envelope.data)]
  | .socketText text => [("text", text)]
  | .socketClosed url code reason clean =>
    [("url", url), ("code", toString code), ("reason", reason),
      ("clean", if clean then "true" else "false")]
  | .uploadFailed error => [("error", error)]
  | .closeFailed url error => [("url", url), ("error", error)]

end CodePanel
