import CoStream.Foundation.Undefined

namespace CoStream
open Foundation

def sslDefRecvBufferSize : Nat := 10*1024

-- What SSL_get_error answers; the callers tell only these apart.
inductive SslError where
  | none | wantRead
  | failure (code : Nat)
deriving DecidableEq,Repr

-- A positive answer of SSL_read is the length of the plaintext.
inductive SslRead where
  | data (plaintext : List UInt8)
  | failed (r0 : Int) (r1 : SslError)
deriving DecidableEq,Repr

-- The calls of SslInit that are checked, in their order.
inductive SslSetup where
  | sslNew | bioNewIn | bioNewOut | useCertificateFile | useRsaPrivateKeyFile | checkPrivateKey
deriving DecidableEq,Repr

def sslSetup : List SslSetup :=
  [.sslNew,.bioNewIn,.bioNewOut,.useCertificateFile,.useRsaPrivateKeyFile,.checkPrivateKey]

-- OpenSSL with the two memory BIOs of one connection. `δ` is the data of a
-- TCP read, which the server and the client hand on unseen.
structure OpenSsl (δ σ : Type) where
  setCipherList : σ → Int × σ
  setup : SslSetup → σ → Bool × σ
  bioWrite : δ → σ → Int × σ
  doHandshake : σ → (Int × SslError) × σ
  memData : σ → List UInt8
  resetIn : σ → Int × σ
  resetOut : σ → Int × σ
  read : Nat → σ → SslRead × σ

inductive TlsServerState where
  | zero | initDone | helloDone | keyExchangeDone | dataRecvState
deriving DecidableEq,Repr

-- The numbers of the C++ enumeration, for its order.
def TlsServerState.rank : TlsServerState → Nat
  | .zero => 0
  | .initDone => 1
  | .helloDone => 2
  | .keyExchangeDone => 3
  | .dataRecvState => 4

structure SslServer (σ : Type) where
  ssl : σ
  tlsState : TlsServerState := .zero
deriving DecidableEq,Repr

-- The two callbacks, and every answer of SSL_do_handshake.
inductive SslOutput where
  | handshake (r0 : Int) (r1 : SslError)
  | plaintextDataSend (data : List UInt8)
  | plaintextDataRecv (data : List UInt8)
deriving DecidableEq,Repr

namespace SslServer
variable {δ σ : Type} (library : OpenSsl δ σ)

def setUp : List SslSetup → σ → Int × σ
  | [],ssl => (0,ssl)
  | call::rest,ssl =>
    let (good,ssl) := library.setup call ssl
    if good then setUp rest ssl else (-1,ssl)

def sslInit (s : SslServer σ) : Except Fault (Int × SslServer σ) :=
  if s.tlsState.rank ≥ TlsServerState.initDone.rank then .ok (0,s)
  else
    let (accepted,ssl) := library.setCipherList s.ssl
    if accepted ≠ 1 then .error .assertion
    else
      let (ret,ssl) := setUp library sslSetup ssl
      if ret ≠ 0 then .ok (ret,{s with ssl}) else .ok (0,{ssl,tlsState:=.initDone})

-- The answer is handed to TCP and cleared.
def flush (s : SslServer σ) (r0 : Int) (r1 : SslError) (data : List UInt8) : Int × SslServer σ × List SslOutput :=
  let (reset,ssl) := library.resetOut s.ssl
  (if reset ≠ 1 then -1 else 0,{s with ssl},[.handshake r0 r1,.plaintextDataSend data])

-- A pending answer makes the callers drop what is left of the input.
def resetInput (ssl : σ) : Bool × σ :=
  if library.memData ssl ≠ [] then
    let (r0,ssl) := library.resetIn ssl
    (r0 = 1,ssl)
  else (true,ssl)

def handleTlsHello (s : SslServer σ) (data : δ) : Int × SslServer σ × List SslOutput :=
  let (written,ssl) := library.bioWrite data s.ssl
  if written ≤ 0 then (-1,{s with ssl},[])
  else
    let ((r0,r1),ssl) := library.doHandshake ssl
    if r0 ≠ -1 ∨ r1 ≠ .wantRead then (-1,{s with ssl},[.handshake r0 r1])
    else
      let (reset,ssl) := resetInput library ssl
      if reset = false then (-1,{s with ssl},[.handshake r0 r1])
      else if library.memData ssl = [] then (-1,{s with ssl},[.handshake r0 r1])
      else flush library {s with ssl} r0 r1 (library.memData ssl)

def handleKeyExchange (s : SslServer σ) (data : δ) : Int × SslServer σ × List SslOutput :=
  let (written,ssl) := library.bioWrite data s.ssl
  if written ≤ 0 then (-1,{s with ssl},[])
  else
    let ((r0,r1),ssl) := library.doHandshake ssl
    if r0 = 1 ∧ r1 = .none then
      if library.memData ssl = [] then (-1,{s with ssl},[.handshake r0 r1])
      else finish {s with ssl} r0 r1 (library.memData ssl)
    else if r0 ≠ -1 ∨ r1 ≠ .wantRead then (-1,{s with ssl},[.handshake r0 r1])
    else
      let data := library.memData ssl
      let (reset,ssl) := resetInput library ssl
      if reset = false then (-1,{s with ssl},[.handshake r0 r1])
      else finish {s with ssl} r0 r1 data
where
  finish (s : SslServer σ) (r0 : Int) (r1 : SslError) (data : List UInt8) : Int × SslServer σ × List SslOutput :=
    let (ret,s,outputs) := flush library s r0 r1 data
    if ret ≠ 0 then (ret,s,outputs) else (0,{s with tlsState:=.keyExchangeDone},outputs)

-- The switch of Handshake.
def handleFlight (s : SslServer σ) (data : δ) : Int × SslServer σ × List SslOutput :=
  match s.tlsState with
  | .initDone =>
    let (ret,s,outputs) := handleTlsHello library s data
    if ret ≠ 0 then (ret,s,outputs) else (0,{s with tlsState:=.helloDone},outputs)
  | .helloDone => handleKeyExchange library s data
  | _ => (0,s,[])

def handshake (s : SslServer σ) (data : δ) : Except Fault (Int × SslServer σ × List SslOutput) :=
  if s.tlsState.rank ≥ TlsServerState.keyExchangeDone.rank then .ok (0,s,[])
  else do
    let (ret,s) ← sslInit library s
    return if ret ≠ 0 then (ret,s,[]) else handleFlight library s data

def handleSslDataRecv (s : SslServer σ) (data : δ) : Int × SslServer σ × List SslOutput :=
  if s.tlsState.rank < TlsServerState.keyExchangeDone.rank then (0,s,[])
  else if s.tlsState = .keyExchangeDone then (0,{s with tlsState:=.dataRecvState},[])
  else
    let (r0,ssl) := library.bioWrite data s.ssl
    if r0 ≤ 0 then (-1,{s with ssl},[])
    else
      match library.read sslDefRecvBufferSize ssl with
      | (.data plaintext,ssl) => (0,{s with ssl},[.plaintextDataRecv plaintext])
      | (.failed _ _,ssl) => (0,{s with ssl},[])

-- The calls a server gets, in any order.
inductive Call (δ : Type) where
  | handshake (data : δ)
  | handleSslDataRecv (data : δ)
deriving DecidableEq,Repr

def step (s : SslServer σ) : Call δ → Except Fault (SslServer σ × List SslOutput)
  | .handshake data => (handshake library s data).map Prod.snd
  | .handleSslDataRecv data => .ok (handleSslDataRecv library s data).2

def machine (start : SslServer σ) : Machine (SslServer σ) (Call δ) SslOutput Fault := ⟨start,step library⟩

end SslServer

-- The server side of a TLS connection, as OnRead drives it; libuv reads at
-- least one byte.
structure TcpSession (σ : Type) where
  ssl : SslServer σ
  close : Bool := false
deriving DecidableEq,Repr

namespace TcpSession
variable {δ σ : Type} (library : OpenSsl δ σ)

def onRead (t : TcpSession σ) (data : δ) : Except Fault (TcpSession σ × List SslOutput) :=
  if t.close then .ok (t,[])
  else do
    let (ret,ssl,outputs) ← t.ssl.handshake library data
    if ret ≠ 0 then return ({ssl,close:=true},outputs)
    let (_,ssl,later) := ssl.handleSslDataRecv library data
    return ({t with ssl},outputs++later)

def machine (start : TcpSession σ) : Machine (TcpSession σ) δ SslOutput Fault := ⟨start,onRead library⟩

end TcpSession
end CoStream
