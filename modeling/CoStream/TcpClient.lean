import CoStream.SslClient
import CoStream.Foundation.Ledger

namespace CoStream
open Foundation

inductive TlsClientState where
  | zero | helloDone | keyExchange | ready
deriving DecidableEq,Repr

-- OpenSSL as the client uses it, with SSL_write.
structure OpenSslClient (σ : Type) extends OpenSsl (List UInt8) σ where
  write : List UInt8 → σ → Int × σ

structure SslClient (σ : Type) where
  ssl : σ
  state : TlsClientState := .zero
deriving DecidableEq,Repr

namespace SslClient
variable {σ : Type} (library : OpenSslClient σ)

def clientSetup : List SslSetup := [.sslNew,.bioNewIn,.bioNewOut]

-- The first flight. The state moves on only where everything went well.
def clientHello (s : SslClient σ) : Int × SslClient σ × List SslOutput :=
  let (accepted,ssl) := library.setCipherList s.ssl
  if accepted ≠ 1 then (-1,{s with ssl},[])
  else
    let (ret,ssl) := SslServer.setUp library.toOpenSsl clientSetup ssl
    if ret ≠ 0 then (-1,{s with ssl},[])
    else
      let ((r0,r1),ssl) := library.doHandshake ssl
      if r0 ≠ -1 ∨ r1 ≠ .wantRead then (-1,{s with ssl},[.handshake r0 r1])
      else if library.memData ssl = [] then (-1,{s with ssl},[.handshake r0 r1])
      else
        let data := library.memData ssl
        let (reset,ssl) := library.resetOut ssl
        if reset ≠ 1 then (-1,{s with ssl},[.handshake r0 r1,.plaintextDataSend data])
        else (0,{ssl,state:=.helloDone},[.handshake r0 r1,.plaintextDataSend data])

-- The second flight. Here the state moves before the output is cleared.
def recvServerHello (s : SslClient σ) (buf : List UInt8) : Int × SslClient σ × List SslOutput :=
  let (written,ssl) := library.bioWrite buf s.ssl
  if written ≤ 0 then (-1,{s with ssl},[])
  else
    let ((r0,r1),ssl) := library.doHandshake ssl
    if r0 ≠ -1 ∨ r1 ≠ .wantRead then (-1,{s with ssl},[.handshake r0 r1])
    else if library.memData ssl = [] then (1,{s with ssl},[.handshake r0 r1])
    else
      let data := library.memData ssl
      let (emptied,ssl) := library.resetIn ssl
      if emptied ≠ 1 then (-1,{s with ssl},[.handshake r0 r1])
      else
        let (reset,ssl) := library.resetOut ssl
        (if reset ≠ 1 then -1 else 0,{ssl,state:=.keyExchange},[.handshake r0 r1,.plaintextDataSend data])

def handleSessionTicket (s : SslClient σ) (buf : List UInt8) : Int × SslClient σ × List SslOutput :=
  let (written,ssl) := library.bioWrite buf s.ssl
  if written ≤ 0 then (-1,{s with ssl},[])
  else
    let ((r0,r1),ssl) := library.doHandshake ssl
    if r0 = 1 ∧ r1 = .none then (0,{ssl,state:=.ready},[.handshake r0 r1])
    else if r0 ≠ -1 ∨ r1 ≠ .wantRead then (-1,{s with ssl},[.handshake r0 r1])
    else (1,{s with ssl},[.handshake r0 r1])

-- The loop of SslWrite, at most once for each byte that is left.
def sslWriteLoop : Nat → σ → List UInt8 → Bool × σ × List SslOutput
  | 0,ssl,_ => (true,ssl,[])
  | _+1,ssl,[] => (true,ssl,[])
  | left+1,ssl,byte::rest =>
    let (r0,ssl) := library.write (byte::rest) ssl
    if r0 ≤ 0 then (false,ssl,[])
    else
      let sent := if library.memData ssl = [] then [] else [.plaintextDataSend (library.memData ssl)]
      let (reset,ssl) := library.resetOut ssl
      if reset ≠ 1 then (false,ssl,sent)
      else
        let (whole,ssl,later) := sslWriteLoop left ssl ((byte::rest).drop r0.toNat)
        (whole,ssl,sent++later)

def sslWrite (s : SslClient σ) (plainTextData : List UInt8) : SslClient σ × List SslOutput :=
  let (_,ssl,outputs) := sslWriteLoop library plainTextData.length s.ssl plainTextData
  ({s with ssl},outputs)

end SslClient

-- `handle` and `handleData` say whether connect_->handle and its `data`, which
-- malloc leaves unwritten, have been set. `connecting` says that uv_tcp_connect
-- was accepted and has not called back, `reading` that libuv reads. A request is
-- the length of what was submitted.
structure TcpClient (σ : Type) where
  sslEnable : Bool
  sslClient : SslClient σ
  isConnect : Bool := false
  readStart : Bool := false
  handle : Bool := false
  handleData : Bool := false
  connecting : Bool := false
  reading : Bool := false
  requests : List Nat := []
deriving DecidableEq,Repr

namespace TcpClient
variable {σ : Type} (library : OpenSslClient σ) (fuel : Nat)

inductive Callback where
  | onConnect (retCode : Int)
  | onWrite (retCode : Int) (sentSize : Nat)
  | onRead (retCode : Int) (data : List UInt8)
deriving DecidableEq,Repr

-- `freed` and `kept` tell what becomes of a request that libuv has completed.
inductive Output where
  | callback (callback : Callback)
  | submitted (data : List UInt8)
  | freed (size : Nat)
  | kept (size : Nat)
deriving DecidableEq,Repr

-- What libuv answers in the course of one event. Where one call is refused the
-- code throws, and nothing catches it on the way out of libuv.
structure Answers where
  uvWrite : Int := 0
  uvReadStart : Int := 0
deriving DecidableEq,Repr

inductive Event where
  | connect (uvTcpConnect : Int)
  | connected (status : Int) (answers : Answers)
  | uvWrite (status : Int) (answers : Answers)
  | uvRead (nread : Int) (data : List UInt8) (answers : Answers)
  | send (data : List UInt8) (answers : Answers)
  | asyncRead (answers : Answers)
  | close
deriving DecidableEq,Repr

inductive Stop where
  | disabled
  | thrown
  | wildHandle
  | fault (fault : Fault)
deriving DecidableEq,Repr

def uvEALREADY : Int := -114

def asyncRead (c : TcpClient σ) (answers : Answers) : Except Stop (TcpClient σ) :=
  if !c.isConnect then .ok c
  else if c.readStart then .ok c
  else if answers.uvReadStart ≠ 0 ∧ answers.uvReadStart ≠ uvEALREADY then .error .thrown
  else .ok {c with readStart:=true,reading:=true}

-- PlaintextDataSend, and Send without TLS.
def plaintextDataSend (c : TcpClient σ) (data : List UInt8) (answers : Answers) : Except Stop (TcpClient σ × List Output) :=
  if !c.handle then .error .wildHandle
  else if answers.uvWrite ≠ 0 then .error .thrown
  else .ok ({c with handleData:=true,requests:=c.requests++[data.length]},[.submitted data])

-- The calls that SslClient makes on its SslCallbackI, in their order.
def callBack (answers : Answers) : TcpClient σ → List SslOutput → Except Stop (TcpClient σ × List Output)
  | c,[] => .ok (c,[])
  | c,.handshake _ _::rest => callBack answers c rest
  | c,.plaintextDataSend data::rest => do
    let (c,sent) ← c.plaintextDataSend data answers
    let (c,later) ← callBack answers c rest
    .ok (c,sent++later)
  | c,.plaintextDataRecv data::rest => do
    let (c,later) ← callBack answers c rest
    .ok (c,.callback (.onRead 0 data)::later)

def onConnect (c : TcpClient σ) (status : Int) (answers : Answers) : Except Stop (TcpClient σ × List Output) :=
  let c := if status = 0 then {c with isConnect:=true} else c
  if !c.sslEnable then .ok (c,[.callback (.onConnect status)])
  else match c.sslClient.state with
    | .zero => do
      let (ret,sslClient,outputs) := c.sslClient.clientHello library
      let (c,sent) ← callBack answers {c with sslClient} outputs
      .ok (c,if ret < 0 then sent++[.callback (.onConnect ret)] else sent)
    | _ => .ok (c,[])

-- Short of the ready state the request is not freed, and reading is started.
def onWrite (c : TcpClient σ) (size : Nat) (status : Int) (answers : Answers) : Except Stop (TcpClient σ × List Output) :=
  if c.sslEnable ∧ c.sslClient.state ≠ .ready then do
    let c ← c.asyncRead answers
    .ok (c,[.kept size])
  else .ok (c,[.callback (.onWrite status size),.freed size])

-- A flight that was read: what its handler returned decides the callback.
def flight (c : TcpClient σ) (answers : Answers) (done : List Output)
    (handled : Int × SslClient σ × List SslOutput) : Except Stop (TcpClient σ × List Output) := do
  let (ret,sslClient,outputs) := handled
  let (c,sent) ← callBack answers {c with sslClient} outputs
  if ret < 0 then .ok (c,sent++[.callback (.onConnect ret)])
  else if ret > 0 then do
    let c ← c.asyncRead answers
    .ok (c,sent)
  else .ok (c,sent++done)

def onRead (c : TcpClient σ) (nread : Int) (data : List UInt8) (answers : Answers) :
    Except Stop (TcpClient σ × List Output) :=
  if nread < 0 then .ok (c,[.callback (.onRead nread [])])
  else if nread = 0 then .ok (c,[])
  else if !c.sslEnable then .ok (c,[.callback (.onRead 0 data)])
  else match c.sslClient.state with
    | .zero => .error (.fault .assertion)
    | .helloDone => c.flight answers [] (c.sslClient.recvServerHello library data)
    | .keyExchange => c.flight answers [.callback (.onConnect 0)] (c.sslClient.handleSessionTicket library data)
    | .ready => do
      let (_,ssl,outputs) ← (SslClient.handleSslDataRecv library.toOpenSsl fuel c.sslClient.ssl data).mapError .fault
      callBack answers {c with sslClient:={c.sslClient with ssl}} outputs

def send (c : TcpClient σ) (data : List UInt8) (answers : Answers) : Except Stop (TcpClient σ × List Output) :=
  if c.sslEnable then
    let (sslClient,outputs) := c.sslClient.sslWrite library data
    callBack answers {c with sslClient} outputs
  else c.plaintextDataSend data answers

def close (c : TcpClient σ) : TcpClient σ :=
  if !c.isConnect then c else {c with isConnect:=false,handleData:=true,reading:=false}

-- libuv calls back on what is under way: a connect, the oldest request, a read.
-- The data of a read is as long as it says.
def step (c : TcpClient σ) : Event → Except Stop (TcpClient σ × List Output)
  | .connect uvTcpConnect =>
    if c.connecting then .error .disabled
    else if uvTcpConnect ≠ 0 then .error .thrown
    else .ok ({c with handle:=true,connecting:=true},[])
  | .connected status answers =>
    if c.connecting then onConnect library {c with connecting:=false} status answers else .error .disabled
  | .uvWrite status answers =>
    match c.requests with
    | [] => .error .disabled
    | size::rest => onWrite {c with requests:=rest} size status answers
  | .uvRead nread data answers =>
    if ¬ (c.reading ∧ data.length = nread.toNat) then .error .disabled
    else if !c.handleData then .error .wildHandle
    else if c.isConnect then onRead library fuel c nread data answers
    else .ok (c,[])
  | .send data answers => send library c data answers
  | .asyncRead answers => do
    let c ← c.asyncRead answers
    .ok (c,[])
  | .close => .ok (c.close,[])

def machine (sslEnable : Bool) (start : σ) : Machine (TcpClient σ) Event Output Stop :=
  ⟨{sslEnable,sslClient:=⟨start,.zero⟩},step library fuel⟩

def callbacks (outputs : List Output) : List Callback :=
  outputs.flatMap fun
    | .callback callback => [callback]
    | .submitted _ => []
    | .freed _ => []
    | .kept _ => []

@[simp] theorem callbacks_append : callbacks (first++second) = callbacks first++callbacks second := by
  simp [callbacks]

@[simp] theorem callbacks_nil : callbacks [] = [] := rfl
@[simp] theorem callbacks_callback : callbacks (.callback callback::rest) = callback::callbacks rest := rfl
@[simp] theorem callbacks_freed : callbacks (.freed size::rest) = callbacks rest := rfl
@[simp] theorem callbacks_kept : callbacks (.kept size::rest) = callbacks rest := rfl

-- What the application hears before the handshake is done, and behind it.
def Callback.Early : Callback → Prop
  | .onConnect retCode => retCode = -1
  | .onWrite _ _ => False
  | .onRead retCode data => retCode < 0 ∧ data = []
def Callback.Late : Callback → Prop
  | .onConnect _ => False
  | .onWrite _ _ => True
  | .onRead _ _ => True

-- The flights of a handshake hand no plaintext on.
def Flight (outputs : List SslOutput) : Prop := ∀ data, .plaintextDataRecv data ∉ outputs

-- The callbacks of TLS leave the client as it is but for its requests.
theorem callBack_frame {c next : TcpClient σ} {outputs : List SslOutput} {emitted : List Output}
    (called : callBack answers c outputs = .ok (next,emitted)) :
    next.sslEnable = c.sslEnable ∧ next.sslClient = c.sslClient ∧ next.isConnect = c.isConnect ∧
      next.connecting = c.connecting ∧ next.reading = c.reading ∧ (∀ callback ∈ callbacks emitted, callback.Late) ∧
      (Flight outputs → callbacks emitted = []) := by
  induction outputs generalizing c emitted with
  | nil =>
    cases called
    exact ⟨rfl,rfl,rfl,rfl,rfl,by simp [callbacks],fun _ => rfl⟩
  | cons output rest ih =>
    cases output with
    | handshake r0 r1 =>
      obtain ⟨enable,ssl,connect,connecting,reading,late,silent⟩ := ih called
      exact ⟨enable,ssl,connect,connecting,reading,late,fun flight => silent (fun data among => flight data (.tail _ among))⟩
    | plaintextDataSend data =>
      simp only [callBack,bind_ok] at called
      obtain ⟨⟨middle,sent⟩,submitted,⟨last,later⟩,continued,same⟩ := called
      cases same
      simp only [plaintextDataSend] at submitted
      split at submitted
      · cases submitted
      · split at submitted
        · cases submitted
        · cases submitted
          obtain ⟨enable,ssl,connect,connecting,reading,late,silent⟩ := ih continued
          refine ⟨enable,ssl,connect,connecting,reading,late,fun flight => ?_⟩
          exact silent (fun data among => flight data (.tail _ among))
    | plaintextDataRecv data =>
      simp only [callBack,bind_ok] at called
      obtain ⟨⟨last,later⟩,continued,same⟩ := called
      cases same
      obtain ⟨enable,ssl,connect,connecting,reading,late,silent⟩ := ih continued
      refine ⟨enable,ssl,connect,connecting,reading,?_,fun flight => absurd (List.mem_cons_self) (flight data)⟩
      intro callback among
      rcases List.mem_cons.mp among with rfl | behind
      · trivial
      · exact late callback behind

theorem clientHello_flight (s : SslClient σ) : Flight (s.clientHello library).2.2 ∧
    ((s.clientHello library).1 = 0 ∧ (s.clientHello library).2.1.state = .helloDone ∨
      (s.clientHello library).1 = -1 ∧ (s.clientHello library).2.1.state = s.state) := by
  unfold SslClient.clientHello
  dsimp only
  repeat' split
  all_goals simp [Flight]

theorem recvServerHello_flight (s : SslClient σ) (buf : List UInt8) : Flight (s.recvServerHello library buf).2.2 ∧
    ((s.recvServerHello library buf).1 = -1 ∨ 0 ≤ (s.recvServerHello library buf).1) ∧
    ((s.recvServerHello library buf).2.1.state = s.state ∨ (s.recvServerHello library buf).2.1.state = .keyExchange) := by
  unfold SslClient.recvServerHello
  dsimp only
  repeat' split
  all_goals simp [Flight]

theorem handleSessionTicket_flight (s : SslClient σ) (buf : List UInt8) :
    Flight (s.handleSessionTicket library buf).2.2 ∧
      ((s.handleSessionTicket library buf).1 = 0 ∧ (s.handleSessionTicket library buf).2.1.state = .ready ∨
        ((s.handleSessionTicket library buf).1 = -1 ∨ 0 < (s.handleSessionTicket library buf).1) ∧
          (s.handleSessionTicket library buf).2.1.state = s.state) := by
  unfold SslClient.handleSessionTicket
  dsimp only
  repeat' split
  all_goals simp [Flight]

theorem sslWriteLoop_flight (left : Nat) (ssl : σ) (data : List UInt8) :
    Flight (SslClient.sslWriteLoop library left ssl data).2.2 := by
  induction left generalizing ssl data with
  | zero => simp [SslClient.sslWriteLoop,Flight]
  | succ left ih =>
    cases data with
    | nil => simp [SslClient.sslWriteLoop,Flight]
    | cons byte rest =>
      have behind := ih (library.resetOut (library.write (byte::rest) ssl).2).2
        ((byte::rest).drop (library.write (byte::rest) ssl).1.toNat)
      simp only [SslClient.sslWriteLoop]
      split
      · simp [Flight]
      · split
        · simp only [Flight]
          split <;> simp
        · intro data among
          rcases List.mem_append.mp among with now | later
          · split at now <;> simp at now
          · exact behind data later

theorem asyncRead_frame {c next : TcpClient σ} (read : c.asyncRead answers = .ok next) :
    next.sslEnable = c.sslEnable ∧ next.sslClient = c.sslClient ∧ next.isConnect = c.isConnect ∧
      next.connecting = c.connecting ∧ (c.isConnect = false → next = c) := by
  unfold asyncRead at read
  split at read
  · cases read
    exact ⟨rfl,rfl,rfl,rfl,fun _ => rfl⟩
  · split at read
    · cases read
      exact ⟨rfl,rfl,rfl,rfl,fun _ => rfl⟩
    · split at read
      · cases read
      · cases read
        exact ⟨rfl,rfl,rfl,rfl,fun down => by simp_all⟩

-- One step of a client with TLS: short of the ready state the application hears
-- of failures only, in the step that reaches it of the connection, and from
-- there on of writes and reads.
inductive Heard : TlsClientState → TlsClientState → List Callback → Prop where
  | early (unready : before ≠ .ready) (still : after ≠ .ready) (heard : List Callback)
      (early : ∀ callback ∈ heard, callback.Early) : Heard before after heard
  | connected (unready : before ≠ .ready) : Heard before .ready [.onConnect 0]
  | late (heard : List Callback) (late : ∀ callback ∈ heard, callback.Late) : Heard .ready .ready heard

theorem Heard.silent (state : TlsClientState) : Heard state state [] := by
  by_cases ready : state = .ready
  · rw [ready]
    exact .late [] (by simp)
  · exact .early ready ready [] (by simp)

theorem Heard.reached (heard : Heard before .ready told) (unready : before ≠ .ready) : told = [.onConnect 0] := by
  cases heard with
  | early _ still => exact absurd rfl still
  | connected => rfl
  | late => exact absurd rfl unready

theorem flight_heard {c next : TcpClient σ} {handled : Int × SslClient σ × List SslOutput} {emitted : List Output}
    (silent : Flight handled.2.2) (ran : c.flight answers done handled = .ok (next,emitted)) :
    next.sslEnable = c.sslEnable ∧ next.sslClient = handled.2.1 ∧
      callbacks emitted = if handled.1 < 0 then [.onConnect handled.1] else if handled.1 > 0 then [] else callbacks done := by
  obtain ⟨ret,sslClient,outputs⟩ := handled
  simp only [flight,bind_ok] at ran
  obtain ⟨⟨middle,sent⟩,called,ran⟩ := ran
  obtain ⟨enable,ssl,-,-,-,-,nothing⟩ := callBack_frame called
  have nothing := nothing silent
  split at ran
  · rename_i failed
    cases ran
    simp [enable,ssl,nothing,failed]
  · rename_i good
    split at ran
    · rename_i more
      simp only [bind_ok] at ran
      obtain ⟨last,read,same⟩ := ran
      cases same
      obtain ⟨enableLast,sslLast,-⟩ := asyncRead_frame read
      rw [enableLast,sslLast]
      simp [enable,ssl,nothing,good,more]
    · rename_i whole
      cases ran
      simp [enable,ssl,nothing,good,whole]

theorem onConnect_heard {c next : TcpClient σ} {emitted : List Output} (tls : c.sslEnable = true)
    (ran : onConnect library c status answers = .ok (next,emitted)) :
    next.sslEnable = true ∧ Heard c.sslClient.state next.sslClient.state (callbacks emitted) ∧
      next.isConnect = (c.isConnect || decide (status = 0)) ∧
      next.connecting = c.connecting ∧
      (callbacks emitted = [] ∨ callbacks emitted = [.onConnect (-1)] ∧ (c.sslClient.clientHello library).1 = -1) := by
  have opened : ∀ d : TcpClient σ, d = (if status = 0 then {c with isConnect:=true} else c) →
      d.sslEnable = c.sslEnable ∧ d.sslClient = c.sslClient ∧ d.isConnect = (c.isConnect || decide (status = 0)) ∧
        d.connecting = c.connecting := by
    rintro d rfl
    split <;> simp_all
  unfold onConnect at ran
  obtain ⟨enable,ssl,connect,connecting⟩ := opened _ rfl
  generalize (if status = 0 then {c with isConnect:=true} else c) = d at ran enable ssl connect connecting
  rw [if_neg (by simp [enable,tls])] at ran
  split at ran
  · rename_i zero
    simp only [bind_ok] at ran
    obtain ⟨⟨middle,sent⟩,called,same⟩ := ran
    obtain ⟨enableMiddle,sslMiddle,connectMiddle,connectingMiddle,-,-,nothing⟩ := callBack_frame called
    rw [ssl] at zero sslMiddle nothing same
    obtain ⟨silent,outcome⟩ := clientHello_flight library c.sslClient
    have nothing := nothing silent
    rcases outcome with ⟨good,moved⟩ | ⟨bad,stays⟩
    · rw [good,if_neg (Int.lt_irrefl 0)] at same
      cases same
      refine ⟨enableMiddle.trans (enable.trans tls),?_,connectMiddle.trans connect,connectingMiddle.trans connecting,.inl nothing⟩
      rw [nothing]
      exact .early (by simp [zero]) (by simp [sslMiddle,moved]) [] (by simp)
    · rw [bad,if_pos (by decide)] at same
      cases same
      have told : callbacks (sent++[.callback (.onConnect (-1))]) = [.onConnect (-1)] := by simp [nothing]
      refine ⟨enableMiddle.trans (enable.trans tls),?_,connectMiddle.trans connect,connectingMiddle.trans connecting,
        .inr ⟨told,bad⟩⟩
      rw [told]
      exact .early (by simp [zero]) (by simp [sslMiddle,stays,zero]) _ (by simp [Callback.Early])
  · cases ran
    rw [ssl]
    exact ⟨enable.trans tls,.silent _,connect,connecting,.inl rfl⟩

theorem onRead_heard {c next : TcpClient σ} {emitted : List Output} (tls : c.sslEnable = true)
    (ran : onRead library fuel c nread data answers = .ok (next,emitted)) :
    next.sslEnable = true ∧ Heard c.sslClient.state next.sslClient.state (callbacks emitted) := by
  unfold onRead at ran
  split at ran
  · rename_i failed
    cases ran
    refine ⟨tls,?_⟩
    by_cases ready : c.sslClient.state = .ready
    · rw [ready]
      exact .late _ (by simp [Callback.Late])
    · exact .early ready ready _ (by simp [Callback.Early,failed])
  split at ran
  · cases ran
    exact ⟨tls,.silent _⟩
  rw [if_neg (by simp [tls])] at ran
  split at ran
  · cases ran
  · rename_i helloDone
    obtain ⟨silent,codes,states⟩ := recvServerHello_flight library c.sslClient data
    obtain ⟨enable,ssl,heard⟩ := flight_heard silent ran
    refine ⟨enable.trans tls,?_⟩
    rw [heard,ssl,helloDone]
    have still : (c.sslClient.recvServerHello library data).2.1.state ≠ .ready := by
      rcases states with same | moved
      · simp [same,helloDone]
      · simp [moved]
    apply Heard.early (by simp) still
    rcases codes with bad | good
    · simp [bad,Callback.Early]
    · rw [if_neg (by omega)]
      split <;> simp
  · rename_i keyExchange
    obtain ⟨silent,outcome⟩ := handleSessionTicket_flight library c.sslClient data
    obtain ⟨enable,ssl,heard⟩ := flight_heard silent ran
    refine ⟨enable.trans tls,?_⟩
    rw [heard,ssl,keyExchange]
    rcases outcome with ⟨done,moved⟩ | ⟨codes,same⟩
    · rw [done,moved]
      exact .connected (by simp)
    · apply Heard.early (by simp) (by simp [same,keyExchange])
      rcases codes with bad | more
      · simp [bad,Callback.Early]
      · rw [if_neg (by omega),if_pos more]
        simp
  · rename_i ready
    simp only [bind_ok] at ran
    obtain ⟨⟨ret,left,outputs⟩,-,called⟩ := ran
    obtain ⟨enable,ssl,-,-,-,late,-⟩ := callBack_frame called
    refine ⟨Eq.trans enable tls,?_⟩
    rw [ssl,ready]
    exact .late _ late

theorem onWrite_heard {c next : TcpClient σ} {emitted : List Output} (tls : c.sslEnable = true)
    (ran : c.onWrite size status answers = .ok (next,emitted)) :
    next.sslEnable = true ∧ Heard c.sslClient.state next.sslClient.state (callbacks emitted) := by
  unfold onWrite at ran
  split at ran
  · simp only [bind_ok] at ran
    obtain ⟨middle,read,same⟩ := ran
    cases same
    obtain ⟨enable,ssl,-⟩ := asyncRead_frame read
    rw [ssl]
    exact ⟨enable.trans tls,.silent _⟩
  · rename_i done
    cases ran
    have ready : c.sslClient.state = .ready := by simpa [tls] using done
    rw [ready]
    exact ⟨tls,.late _ (by simp [Callback.Late])⟩

theorem send_heard {c next : TcpClient σ} {emitted : List Output} (tls : c.sslEnable = true)
    (ran : send library c data answers = .ok (next,emitted)) :
    next.sslEnable = true ∧ next.sslClient.state = c.sslClient.state ∧ next.isConnect = c.isConnect ∧
      next.connecting = c.connecting ∧ callbacks emitted = [] := by
  rw [send,if_pos tls] at ran
  obtain ⟨enable,ssl,connect,connecting,-,-,nothing⟩ := callBack_frame ran
  exact ⟨Eq.trans enable tls,by rw [ssl],connect,connecting,nothing (sslWriteLoop_flight library _ _ _)⟩

theorem step_heard {c next : TcpClient σ} {emitted : List Output} (tls : c.sslEnable = true)
    (stepped : step library fuel c event = .ok (next,emitted)) :
    next.sslEnable = true ∧ Heard c.sslClient.state next.sslClient.state (callbacks emitted) := by
  cases event with
  | connect uvTcpConnect =>
    simp only [step] at stepped
    split at stepped
    · cases stepped
    · split at stepped
      · cases stepped
      · cases stepped
        exact ⟨tls,.silent _⟩
  | connected status answers =>
    simp only [step] at stepped
    split at stepped
    · obtain ⟨enable,heard,-⟩ := onConnect_heard library (c:={c with connecting:=false}) tls stepped
      exact ⟨enable,heard⟩
    · cases stepped
  | uvWrite status answers =>
    simp only [step] at stepped
    split at stepped
    · cases stepped
    · rename_i size rest pending
      exact onWrite_heard (c:={c with requests:=rest}) tls stepped
  | uvRead nread data answers =>
    simp only [step] at stepped
    split at stepped
    · cases stepped
    split at stepped
    · cases stepped
    split at stepped
    · exact onRead_heard library fuel tls stepped
    · cases stepped
      exact ⟨tls,.silent _⟩
  | send data answers =>
    obtain ⟨enable,state,-,-,nothing⟩ := send_heard library tls stepped
    rw [nothing,state]
    exact ⟨enable,.silent _⟩
  | asyncRead answers =>
    simp only [step,bind_ok] at stepped
    obtain ⟨middle,read,same⟩ := stepped
    cases same
    obtain ⟨enable,ssl,-⟩ := asyncRead_frame read
    rw [ssl]
    exact ⟨enable.trans tls,.silent _⟩
  | close =>
    cases stepped
    unfold close
    split
    · exact ⟨tls,.silent _⟩
    · exact ⟨tls,.silent _⟩

-- The conversation so far: failures, and once the handshake is done OnConnect(0)
-- and behind it writes and reads.
def Conversation (state : TlsClientState) (heard : List Callback) : Prop :=
  state ≠ .ready ∧ (∀ callback ∈ heard, callback.Early) ∨
    state = .ready ∧ ∃ before after, heard = before++.onConnect 0::after ∧ (∀ callback ∈ before, callback.Early) ∧
      ∀ callback ∈ after, callback.Late

theorem Conversation.goes_on (so : Conversation state earlier) (heard : Heard state next later) :
    Conversation next (earlier++later) := by
  cases heard with
  | early unready still _ early =>
    rcases so with ⟨-,before⟩ | ⟨ready,-⟩
    · refine .inl ⟨still,fun callback among => ?_⟩
      rcases List.mem_append.mp among with old | new
      · exact before callback old
      · exact early callback new
    · exact absurd ready unready
  | connected unready =>
    rcases so with ⟨-,before⟩ | ⟨ready,-⟩
    · exact .inr ⟨rfl,earlier,[],rfl,before,by simp⟩
    · exact absurd ready unready
  | late _ late =>
    rcases so with ⟨unready,-⟩ | ⟨-,before,after,rfl,front,back⟩
    · exact absurd rfl unready
    · refine .inr ⟨rfl,before,after++later,by simp,front,fun callback among => ?_⟩
      rcases List.mem_append.mp among with old | new
      · exact back callback old
      · exact late callback new

-- Whatever OpenSSL answers and in whatever order libuv and the application
-- come, a client with TLS hears of its connection at most once, of no write and
-- no data before that, and of no failed connect behind it.
theorem tls_conversation (start : σ) (ran : (machine library fuel true start).run events = .ok (c,outputs)) :
    Conversation c.sslClient.state (callbacks outputs) := by
  refine ((machine library fuel true start).history
    (fun _ outputs c => c.sslEnable = true ∧ Conversation c.sslClient.state (callbacks outputs)) ?_ ?_ ran).2
  · exact ⟨rfl,.inl ⟨by simp [machine],by simp⟩⟩
  · rintro events outputs c event next emitted ⟨tls,so⟩ stepped
    obtain ⟨enable,heard⟩ := step_heard library fuel tls stepped
    rw [callbacks_append]
    exact ⟨enable,so.goes_on heard⟩

-- A client whose connect has failed, or that was closed in the handshake.
structure Deaf (c : TcpClient σ) : Prop where
  tls : c.sslEnable = true
  down : c.isConnect = false
  idle : c.connecting = false
  unready : c.sslClient.state ≠ .ready

theorem deaf_step {c next : TcpClient σ} {emitted : List Output} (deaf : Deaf c)
    (other : ∀ uvTcpConnect, event ≠ .connect uvTcpConnect) (stepped : step library fuel c event = .ok (next,emitted)) :
    Deaf next ∧ callbacks emitted = [] := by
  cases event with
  | connect uvTcpConnect => exact absurd rfl (other uvTcpConnect)
  | connected status answers => simp [step,deaf.idle] at stepped
  | uvWrite status answers =>
    simp only [step] at stepped
    split at stepped
    · cases stepped
    · rename_i size rest pending
      rw [onWrite,if_pos ⟨deaf.tls,deaf.unready⟩] at stepped
      obtain ⟨middle,read,same⟩ := bind_ok.mp stepped
      cases same
      rw [(asyncRead_frame read).2.2.2.2 deaf.down]
      exact ⟨⟨deaf.tls,deaf.down,deaf.idle,deaf.unready⟩,rfl⟩
  | uvRead nread data answers =>
    simp only [step,deaf.down] at stepped
    split at stepped
    · cases stepped
    split at stepped
    · cases stepped
    · cases stepped
      exact ⟨deaf,rfl⟩
  | send data answers =>
    obtain ⟨enable,state,connect,connecting,nothing⟩ := send_heard library deaf.tls stepped
    exact ⟨⟨enable,connect.trans deaf.down,connecting.trans deaf.idle,by rw [state]; exact deaf.unready⟩,nothing⟩
  | asyncRead answers =>
    simp only [step,bind_ok] at stepped
    obtain ⟨middle,read,same⟩ := stepped
    cases same
    rw [(asyncRead_frame read).2.2.2.2 deaf.down]
    exact ⟨deaf,rfl⟩
  | close =>
    simp only [step,close,deaf.down] at stepped
    cases stepped
    exact ⟨deaf,rfl⟩

theorem deaf_run {c final : TcpClient σ} {later : List Output} (deaf : Deaf c) (start : σ)
    (other : ∀ event ∈ events, ∀ uvTcpConnect, event ≠ .connect uvTcpConnect)
    (ran : (machine library fuel true start).runFrom c events = .ok (final,later)) : callbacks later = [] := by
  induction events generalizing c later with
  | nil =>
    cases ran
    rfl
  | cons event rest ih =>
    obtain ⟨middle,emitted,behind,stepped,continued,rfl⟩ := (machine library fuel true start).runFrom_cons.mp ran
    obtain ⟨stays,nothing⟩ := deaf_step library fuel deaf (other event (.head _)) stepped
    rw [callbacks_append,nothing,ih stays (fun event among => other event (.tail _ among)) continued]
    rfl

def submissions (outputs : List Output) : List (List UInt8) :=
  outputs.flatMap fun
    | .submitted data => [data]
    | _ => []

def plaintexts (outputs : List SslOutput) : List (List UInt8) :=
  outputs.flatMap fun
    | .plaintextDataSend data => [data]
    | _ => []

@[simp] theorem submissions_append : submissions (first++second) = submissions first++submissions second := by
  simp [submissions]

theorem callBack_submissions {c next : TcpClient σ} {outputs : List SslOutput} {emitted : List Output}
    (called : callBack answers c outputs = .ok (next,emitted)) : submissions emitted = plaintexts outputs := by
  induction outputs generalizing c emitted with
  | nil =>
    cases called
    rfl
  | cons output rest ih =>
    cases output with
    | handshake r0 r1 => exact ih called
    | plaintextDataSend data =>
      simp only [callBack,bind_ok] at called
      obtain ⟨⟨middle,sent⟩,submitted,⟨last,later⟩,continued,same⟩ := called
      cases same
      have first : submissions sent = [data] := by
        unfold plaintextDataSend at submitted
        split at submitted
        · cases submitted
        · split at submitted
          · cases submitted
          · cases submitted
            rfl
      rw [submissions_append,first,ih continued]
      rfl
    | plaintextDataRecv data =>
      simp only [callBack,bind_ok] at called
      obtain ⟨⟨last,later⟩,continued,same⟩ := called
      cases same
      exact (show submissions (.callback (.onRead 0 data)::later) = submissions later from rfl).trans (ih continued)

-- OnConnect with an error: a client that has not said its ClientHello says it,
-- any other one does nothing.
theorem onConnect_refused {c next : TcpClient σ} {emitted : List Output} (tls : c.sslEnable = true) (refused : status ≠ 0)
    (ran : onConnect library c status answers = .ok (next,emitted)) :
    next.sslEnable = c.sslEnable ∧ next.isConnect = c.isConnect ∧ next.connecting = c.connecting ∧
      (c.sslClient.state = .zero → next.sslClient = (c.sslClient.clientHello library).2.1 ∧
        submissions emitted = plaintexts (c.sslClient.clientHello library).2.2 ∧
        callbacks emitted = if (c.sslClient.clientHello library).1 < 0 then
          [.onConnect (c.sslClient.clientHello library).1] else []) ∧
      (c.sslClient.state ≠ .zero → next.sslClient = c.sslClient ∧ emitted = []) := by
  simp only [onConnect,if_neg refused,tls,Bool.not_true,Bool.false_eq_true,if_false] at ran
  split at ran
  · rename_i zero
    obtain ⟨⟨middle,sent⟩,called,same⟩ := bind_ok.mp ran
    obtain ⟨enable,ssl,connect,connecting,-,-,silent⟩ := callBack_frame called
    have submitted := callBack_submissions called
    have nothing := silent (clientHello_flight library c.sslClient).1
    cases same
    refine ⟨enable.trans tls.symm,connect,connecting,fun _ => ⟨ssl,?_,?_⟩,fun other => absurd zero other⟩
    · split
      · rw [submissions_append,submitted]
        exact List.append_nil _
      · exact submitted
    · split
      · rw [callbacks_append,nothing]
        rfl
      · exact nothing
  · rename_i started
    cases ran
    exact ⟨rfl,rfl,rfl,fun zero => absurd zero started,fun _ => ⟨rfl,rfl⟩⟩

-- A refused TCP connection is not reported to a client with TLS that has none:
-- where its handshake has not begun it begins all the same, and only a
-- ClientHello that fails is told; short of another Connect the application hears
-- nothing any more.
theorem refused_connect_untold (start : σ)
    (ran : (machine library fuel true start).run before = .ok (c,outputs)) (down : c.isConnect = false)
    (unready : c.sslClient.state ≠ .ready) (refused : status ≠ 0)
    (stepped : step library fuel c (.connected status answers) = .ok (next,emitted))
    (other : ∀ event ∈ after, ∀ uvTcpConnect, event ≠ .connect uvTcpConnect)
    (continued : (machine library fuel true start).runFrom next after = .ok (final,later)) :
    (c.sslClient.state = .zero → next.sslClient = (c.sslClient.clientHello library).2.1 ∧
      submissions emitted = plaintexts (c.sslClient.clientHello library).2.2 ∧
      callbacks emitted = if (c.sslClient.clientHello library).1 < 0 then
        [.onConnect (c.sslClient.clientHello library).1] else []) ∧
    (c.sslClient.state ≠ .zero → next.sslClient = c.sslClient ∧ emitted = []) ∧ callbacks later = [] := by
  have tls : c.sslEnable = true := by
    refine (machine library fuel true start).history (fun _ _ c => c.sslEnable = true) rfl ?_ ran
    exact fun _ _ _ _ _ _ tls stepped => (step_heard library fuel tls stepped).1
  simp only [step] at stepped
  split at stepped
  · obtain ⟨enable,connect,connecting,begun,otherwise⟩ :=
      onConnect_refused library (c:={c with connecting:=false}) tls refused stepped
    have waits : next.sslClient.state ≠ .ready := by
      by_cases zero : c.sslClient.state = .zero
      · rw [(begun zero).1]
        rcases (clientHello_flight library c.sslClient).2 with ⟨-,done⟩ | ⟨-,stays⟩
        · simp [done]
        · rw [stays]
          exact unready
      · rw [(otherwise zero).1]
        exact unready
    exact ⟨begun,otherwise,deaf_run library fuel ⟨enable.trans tls,connect.trans down,connecting,waits⟩ start other continued⟩
  · cases stepped

-- A library whose client needs one flight and one answer for each step.
def threeSteps : OpenSslClient Nat where
  setCipherList ssl := (1,ssl)
  setup _ ssl := (true,ssl)
  bioWrite data ssl := (data.length,ssl)
  doHandshake ssl := (if ssl < 2 then (-1,.wantRead) else (1,.none),ssl+1)
  memData _ := [22]
  resetIn ssl := (1,ssl)
  resetOut ssl := (1,ssl)
  read _ ssl := (.failed (-1) .wantRead,ssl)
  write data ssl := (data.length,ssl)

def handshaken : List Event :=
  [.connect 0,.connected 0 {},.uvWrite 0 {},.uvRead 1 [2] {},.uvWrite 0 {},.uvRead 1 [14] {},.send [7] {},.uvWrite 0 {}]

theorem handshaken_conversation : ∃ c outputs, (machine threeSteps 9 true 0).run handshaken = .ok (c,outputs) ∧
    c.sslClient.state = .ready ∧ Conversation c.sslClient.state (callbacks outputs) := by
  obtain ⟨⟨c,outputs⟩,ran,ready⟩ : ∃ result, (machine threeSteps 9 true 0).run handshaken = .ok result ∧
    result.1.sslClient.state = .ready := ⟨_,rfl,rfl⟩
  exact ⟨c,outputs,ran,ready,tls_conversation threeSteps 9 0 ran⟩

def behindRefusal : List Event := [.uvWrite (-32) {},.asyncRead {},.send [7] {}]

theorem refused_untold : ∃ c next final emitted later, (machine threeSteps 9 true 0).run [.connect 0] = .ok (c,[]) ∧
    step threeSteps 9 c (.connected (-111) {}) = .ok (next,emitted) ∧
    (machine threeSteps 9 true 0).runFrom next behindRefusal = .ok (final,later) ∧
    submissions emitted = [[22]] ∧ callbacks emitted = [] ∧ callbacks later = [] := by
  obtain ⟨⟨c,outputs⟩,ran,known⟩ : ∃ result, (machine threeSteps 9 true 0).run [.connect 0] = .ok result ∧
    result = ({sslEnable:=true,sslClient:=⟨0,.zero⟩,handle:=true,connecting:=true},[]) := ⟨_,rfl,rfl⟩
  cases known
  obtain ⟨⟨next,emitted⟩,stepped⟩ : ∃ result, step threeSteps 9
    {sslEnable:=true,sslClient:=⟨0,.zero⟩,handle:=true,connecting:=true} (.connected (-111) {}) = .ok result := ⟨_,rfl⟩
  obtain ⟨⟨final,later⟩,continued⟩ : ∃ result, (machine threeSteps 9 true 0).runFrom next behindRefusal = .ok result := by
    cases stepped
    exact ⟨_,rfl⟩
  have other : ∀ event ∈ behindRefusal, ∀ uvTcpConnect, event ≠ .connect uvTcpConnect := by simp [behindRefusal]
  obtain ⟨begun,-,deaf⟩ := refused_connect_untold threeSteps 9 0 ran rfl (by decide) (by decide) stepped other continued
  obtain ⟨-,sent,told⟩ := begun rfl
  exact ⟨_,next,final,emitted,later,ran,stepped,continued,sent,told,deaf⟩

end TcpClient
end CoStream
