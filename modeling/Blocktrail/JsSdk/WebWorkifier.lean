import Blocktrail.Bitcoin.Script
import Blocktrail.Lib.Runs

/-! # Requests to the web worker

`workify` posts a request to a worker that all requests share. The worker answers on two channels: a reply
carries the id of its request, an error event has none.
-/

open Text Bitcoin

namespace JsSdk

namespace Workify

variable {Message Result : Type}

/-- `s.replace(pattern, '')` for a string pattern. -/
def removeFirst (pattern : Str) : Str → Str
  | [] => []
  | c :: s => if pattern.isPrefixOf (c :: s) then (c :: s).drop pattern.length else c :: removeFirst pattern s

/-- The text of the error event of an exception that the worker does not catch. -/
def errorText (e : JsError) : Str := "Uncaught " ++ (e.name ++ (": " ++ e.message))

/-- The message of the rejection that `onError` makes of an error event. -/
def rejectionText (text : Str) : Str := removeFirst "Uncaught Error: " text

/-! ## The state -/

/-- A reply of the worker. -/
structure Reply (Result : Type) where
  id : Nat
  result : Result

/-- An event on its way to the page. The request an exception comes from is not part of what the page sees. -/
inductive Event (Result : Type)
  | message (data : Reply Result)
  | error (origin : Option Nat) (text : Str)

/-- What a promise is settled with. -/
inductive Settlement (Result : Type)
  | resolved (data : Reply Result)
  | rejected (origin : Option Nat) (text : Str)
  | notPosted (text : Str)

structure Request (Message Result : Type) where
  id : Nat
  message : Message
  deferred : Option (Settlement Result)
  /-- The listeners of the request are registered. -/
  listening : Bool
  /-- The promise that `workify` returned. -/
  promise : Option (Settlement Result)

structure State (Message Result : Type) where
  /-- `self.id`. -/
  nextId : Nat
  requests : List (Request Message Result)
  toWorker : List (Nat × Message)
  toPage : List (Event Result)

def start : State Message Result := ⟨0, [], [], []⟩

/-! ## The listeners -/

/-- A deferred is settled by the first `resolve` or `reject`. -/
def Request.settle (r : Request Message Result) (s : Settlement Result) : Request Message Result :=
  { r with deferred := some (r.deferred.getD s) }

/-- `onMessage`: a reply to another request is not processed. -/
def Request.onMessage (r : Request Message Result) (data : Reply Result) : Request Message Result :=
  if data.id ≠ r.id then r else r.settle (.resolved data)

def Request.onError (r : Request Message Result) (origin : Option Nat) (text : Str) : Request Message Result :=
  r.settle (.rejected origin (rejectionText text))

def Request.dispatch (r : Request Message Result) (e : Event Result) : Request Message Result :=
  if r.listening then
    match e with
    | .message data => r.onMessage data
    | .error origin text => r.onError origin text
  else r

/-- The handler of the returned promise: `unsub`, and the outcome is passed on. -/
def Request.flush (r : Request Message Result) : Request Message Result :=
  match r.deferred, r.promise with
  | some s, none => { r with listening := false, promise := some s }
  | _, _ => r

/-! ## The steps -/

inductive Action (Message : Type)
  /-- `workify`, where `postMessage` throws when `exception` is there. -/
  | workify (message : Message) (exception : Option Str)
  /-- The worker handles the next message. -/
  | work
  /-- An error of the worker that no message caused. -/
  | workerError (text : Str)
  /-- One of the events on their way is dispatched. -/
  | deliver (n : Nat)
  /-- The handler of the promise of a request runs. -/
  | flush (n : Nat)

/-- The dispatcher of the worker: every branch posts its result under the id, and throws its exceptions again. -/
def handle (compute : Message → Except JsError Result) (data : Nat × Message) : Event Result :=
  match compute data.2 with
  | .ok result => .message ⟨data.1, result⟩
  | .error e => .error (some data.1) (errorText e)

def workify (s : State Message Result) (message : Message) (exception : Option Str) : State Message Result :=
  let id := s.nextId
  match exception with
  | none =>
    { s with
      nextId := id + 1
      requests := s.requests ++ [⟨id, message, none, true, none⟩]
      toWorker := s.toWorker ++ [(id, message)] }
  | some text =>
    -- The `catch` returns the bare promise, whose settling does not run `unsub`.
    { s with
      nextId := id + 1
      requests := s.requests ++ [⟨id, message, some (.notPosted text), true, some (.notPosted text)⟩] }

def step (compute : Message → Except JsError Result) (s : State Message Result) : Action Message → State Message Result
  | .workify message exception => workify s message exception
  | .work =>
    match s.toWorker with
    | [] => s
    | data :: rest => { s with toWorker := rest, toPage := s.toPage ++ [handle compute data] }
  | .workerError text => { s with toPage := s.toPage ++ [.error none text] }
  | .deliver n =>
    match s.toPage[n]? with
    | none => s
    | some e => { s with requests := s.requests.map (·.dispatch e), toPage := s.toPage.eraseIdx n }
  | .flush n => { s with requests := s.requests.modify n Request.flush }

end Workify

end JsSdk
