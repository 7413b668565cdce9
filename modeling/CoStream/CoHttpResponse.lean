import CoStream.AcceptConnSend
import CoStream.HttpResponse

namespace CoStream
open Foundation

-- accept_conn_ is set from the constructor to the destructor, so only is_close_
-- can turn a call away.
structure CoHttpResponse where
  isClose : Bool := false
  writtenHeader : Bool := false
  status : Bytes := ascii "OK"
  statusCode : Int := 200
  proto : Bytes := ascii "HTTP"
  version : Bytes := ascii "1.1"
  headers : Headers := ∅

namespace CoHttpResponse

inductive Stage where
  | header | body | status
deriving DecidableEq,Repr

-- A suspended Write or WriteStatus: the loop it is in, what the loop has yet to
-- send, and the arguments it was called with.
structure Activation where
  stage : Stage
  left : Bytes
  data : Bytes
  continueFlag : Bool
deriving DecidableEq,Repr

inductive Callback where
  | alive | close
deriving DecidableEq,Repr

-- What a coroutine has done when it comes to its next CoSend or to its end.
structure Progress where
  response : CoHttpResponse
  callbacks : List Callback
  next : Option Activation

-- The length goes through `int`. A negative one makes CoSend ask for more memory
-- than there is, and the exception ends the coroutine.
def narrow (bytes : Bytes) : Option Bytes :=
  if toInt bytes.length < 0 then none else some (bytes.take (toInt bytes.length).toNat)

def enter (stage : Stage) (bytes data : Bytes) (continueFlag : Bool) : Option Activation :=
  (narrow bytes).map fun left => ⟨stage,left,data,continueFlag⟩

def head (r : CoHttpResponse) (length : Nat) (continueFlag : Bool) : Bytes :=
  r.proto++ascii "/"++r.version++ascii " "++printInt r.statusCode++ascii " "++r.status++crlf++
  printHeaders r.headers++(if continueFlag then [] else ascii "Content-Length: "++decimal length++crlf)++crlf

def statusHead (r : CoHttpResponse) (code : Nat) : Bytes :=
  r.proto++ascii "/"++r.version++ascii " "++decimal (code % 2^32)++ascii " "++r.status++crlf++
  ascii "Content-Length: 0"++crlf++crlf

def write (r : CoHttpResponse) (data : Bytes) (continueFlag : Bool) : Progress :=
  if r.isClose then ⟨r,[],none⟩
  else if r.writtenHeader then ⟨r,[],enter .body data data continueFlag⟩
  else ⟨r,[],enter .header (r.head data.length continueFlag) data continueFlag⟩

def writeStatus (r : CoHttpResponse) (code : Nat) (status : Bytes) (continueFlag : Bool) : Progress :=
  if r.isClose then ⟨r,[],none⟩
  else
    let named := {r with status}
    ⟨named,[],enter .status (named.statusHead code) [] continueFlag⟩

-- The end of the body's loop and of the status loop.
def finish (r : CoHttpResponse) (continueFlag : Bool) (callbacks : List Callback) : Progress :=
  if continueFlag then ⟨r,callbacks,none⟩ else ⟨{r with isClose:=true},callbacks++[.close],none⟩

def resume (r : CoHttpResponse) (a : Activation) (result : AcceptConn.SendResult) : Progress :=
  if result.status ≠ .ok then ⟨r,[],none⟩
  else
    let left := a.left.drop result.sentLen.toNat
    match a.stage with
    | .header =>
      if left ≠ [] then ⟨r,[.alive],some {a with left}⟩
      else ⟨{r with writtenHeader:=true},[.alive],enter .body a.data a.data a.continueFlag⟩
    | .body => if left ≠ [] then ⟨r,[.alive],some {a with left}⟩ else finish r a.continueFlag [.alive]
    | .status => if left ≠ [] then ⟨r,[],some {a with left}⟩ else finish r a.continueFlag []

end CoHttpResponse

-- A response on its connection. The coroutines wait in the connection's queue.
structure CoHttpExchange where
  response : CoHttpResponse := {}
  outbox : AcceptConn.Outbox CoHttpResponse.Activation := {}

namespace CoHttpExchange
open CoHttpResponse

inductive Event where
  | setStatusCode (statusCode : Int)
  | setStatus (status : Bytes)
  | addHeader (key value : Bytes)
  | write (data : Bytes) (continueFlag : Bool) (uvWrite : Int)
  | writeStatus (code : Nat) (status : Bytes) (continueFlag : Bool) (uvWrite : Int)
  | completed (status : Int) (uvWrite : Int)
deriving DecidableEq,Repr

inductive Output where
  | handed (stage : Stage) (bytes : Bytes)
  | called (callback : Callback)
deriving DecidableEq,Repr

def callbacksOf (callbacks : List Callback) : List Output := callbacks.map .called

def callbacksIn (outputs : List Output) : List Callback :=
  outputs.filterMap fun
    | .handed _ _ => none
    | .called callback => some callback

-- A coroutine runs on to its next CoSend. A refused send is answered at once and
-- ends it.
def proceed (s : CoHttpExchange) (p : Progress) (uvWrite : Int) : CoHttpExchange × List Output :=
  match p.next with
  | none => ({s with response:=p.response},callbacksOf p.callbacks)
  | some a =>
    let submitted := s.outbox.submit a a.left uvWrite
    ({response:=p.response,outbox:=submitted.1},callbacksOf p.callbacks++[.handed a.stage a.left])

def resumed (s : CoHttpExchange) (uvWrite : Int) : List (AcceptConn.Resumed Activation) → CoHttpExchange × List Output
  | .sent a result::_ => s.proceed (s.response.resume a result) uvWrite
  | _ => (s,[])

def step (s : CoHttpExchange) : Event → Except AcceptConn.Disabled (CoHttpExchange × List Output)
  | .setStatusCode statusCode => .ok ({s with response:={s.response with statusCode}},[])
  | .setStatus status => .ok ({s with response:={s.response with status}},[])
  | .addHeader key value => .ok ({s with response:={s.response with headers:=s.response.headers.insert key value}},[])
  | .write data continueFlag uvWrite => .ok (s.proceed (s.response.write data continueFlag) uvWrite)
  | .writeStatus code status continueFlag uvWrite =>
    .ok (s.proceed (s.response.writeStatus code status continueFlag) uvWrite)
  | .completed status uvWrite => do
    let (outbox,outputs) ← s.outbox.complete status
    return resumed {s with outbox} uvWrite outputs

end CoHttpExchange
end CoStream
