import CodePanel.Page.Basic

namespace CodePanel

open Upload

-- The ready state of an open socket.
def openState : Nat := 1

-- Opens a socket and listens to it.
def Page.connect (page : Page) (url : String) : Except SocketError (Nat × Page) :=
  match page.faults.connect with
  | some thrown => .error (.connect url thrown.message)
  | none =>
    let n := page.sockets.length
    let listeners := [.opened n, .received n, .closed n, .broken n]
    .ok (n, { page with sockets := page.sockets ++ [{ url, listeners }] })

def Page.readyState (page : Page) (socket : Nat) : Nat :=
  (page.sockets[socket]?.map Socket.readyState).getD 3

def Page.urlOf (page : Page) (socket : Nat) : String :=
  (page.sockets[socket]?.map Socket.url).getD ""

-- Sends a program, if the socket is open.
def Page.upload (page : Page) (socket : Nat) (text : String) : Except SocketError Unit × Page :=
  let readyState := page.readyState socket
  if readyState ≠ openState then (.error (.notOpen readyState), page)
  else match page.faults.send with
    | some thrown => (.error (.send thrown.message), page)
    | none =>
      let message := (Envelope.upload text).write
      (.ok (), page.modifySocket socket fun s => { s with sent := s.sent ++ [message] })

-- Closing moves a socket that is opening or open on to closing.
def Socket.close (socket : Socket) : Socket :=
  { socket with
    closes := socket.closes + 1
    readyState := if socket.readyState ≤ openState then 2 else socket.readyState }

-- Closes a socket and stops listening to it. A closing that throws is counted and reported, and
-- leaves the state of the socket as it is.
def Page.hangUp (page : Page) (socket : Nat) : Page :=
  let page := match page.faults.close with
    | none => page.modifySocket socket Socket.close
    | some thrown =>
      (page.modifySocket socket fun s => { s with closes := s.closes + 1 }).report
        (.closeFailed (page.urlOf socket) thrown.message)
  page.silence (Listener.ofSocket socket)

-- Looks up a button and an input, and uploads the input at every click.
def Page.bind (page : Page) (socket : Nat) (buttonId inputId : String) : Except Error Page :=
  match page.document with
  | .error error => .error error
  | .ok () =>
    match page.lookup .htmlElement buttonId with
    | .error error => .error error
    | .ok button =>
      match page.lookup .textArea inputId with
      | .error error => .error error
      | .ok input => .ok (page.listen (.element button) (.upload socket input))

-- The upload that a click sets off. Nobody waits for its outcome, so a failure is reported.
def Page.clickUpload (page : Page) (socket input : Nat) : Page :=
  match page.upload socket (page.valueOf input) with
  | (.ok (), page) => page
  | (.error error, page) => page.report (.uploadFailed error.message)

-- A message with a text is reported, as an envelope if it is one.
def Page.receive (page : Page) : Event → Page
  | .message (.text text) =>
    match Envelope.read? text with
    | some envelope => page.report (.socketEnvelope envelope)
    | none => page.report (.socketText text)
  | _ => page

def Page.reportClosed (page : Page) (socket : Nat) : Event → Page
  | .close code reason clean => page.report (.socketClosed (page.urlOf socket) code reason clean)
  | _ => page.report (.socketGone (page.urlOf socket))

end CodePanel
