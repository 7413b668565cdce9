import CoStream.WebSocketBoundary

namespace CoStream.WebSocketSession
open Foundation

variable {s next : WebSocketSession} {server : WebSocketServer} {handle : HandleWebSocket} {headers : Headers}
  {lines : List Bytes} {content : Bytes} {events : List Event} {event : Event} {outputs emitted : List Output}

theorem requireField_iff : s.requireField key value missing wrong = .ok next ↔
    (s.headers[key]?).map string2Lower = some value ∧ next = {s with headers:=s.headers.insert key value} := by
  unfold requireField raise
  cases held : s.headers[key]? with
  | none => simp
  | some field =>
    dsimp only
    by_cases same : string2Lower field = value
    · rw [if_neg (by simp [same]),same]
      simp [same,eq_comm]
    · rw [if_pos same]
      simp [same]

theorem readKey_iff : s.readKey = .ok next ↔
    ∃ value, s.headers[ascii "sec-websocket-key"]? = some value ∧ next = {s with secWsKey:=value} := by
  unfold readKey raise
  cases held : s.headers[ascii "sec-websocket-key"]? with
  | none => simp
  | some value => simp [eq_comm]

-- What the fields of a request must say for it to be an opening handshake.
structure Upgrades (headers : Headers) (key : Bytes) : Prop where
  connection : (headers[ascii "connection"]?).map string2Lower = some (ascii "upgrade")
  upgrade : (headers[ascii "upgrade"]?).map string2Lower = some (ascii "websocket")
  key : headers[ascii "sec-websocket-key"]? = some key

-- The version is an int in the session.
def version (headers : Headers) : Int :=
  match headers[ascii "sec-websocket-version"]? with
  | some value => atoi value
  | none => 13

theorem readVersion_version (s : WebSocketSession) : s.readVersion = {s with secWsVer:=version s.headers} := by
  unfold readVersion version
  cases s.headers[ascii "sec-websocket-version"]? with
  | none => rfl
  | some value => rfl

theorem readProtocol_absent (absent : s.headers[ascii "sec-webSocket-protocol"]? = none) : s.readProtocol = s := by
  unfold readProtocol
  rw [absent]

-- Names are kept in small letters, so one with a capital is never among them.
def Lowered (headers : Headers) : Prop := ∀ name value, headers[name]? = some value → string2Lower name = name

theorem tolower_twice (letter : UInt8) : tolower (tolower letter) = tolower letter := by
  exact forall_byte (fun letter => tolower (tolower letter) = tolower letter) (by decide +kernel) letter

theorem string2Lower_twice (text : Bytes) : string2Lower (string2Lower text) = string2Lower text := by
  unfold string2Lower
  rw [List.map_map]
  exact List.map_congr_left fun letter _ => tolower_twice letter

theorem Lowered.insert (lowered : Lowered headers) (name value : Bytes) (small : string2Lower name = name) :
    Lowered (headers.insert name value) := by
  intro other held found
  rw [insert_lookup] at found
  split at found
  · rename_i same
    rw [same,small]
  · exact lowered other held found

theorem readLine_lowered (lowered : Lowered headers) (line : Bytes) : Lowered (readLine headers line) := by
  unfold readLine
  split
  · exact lowered
  · exact lowered.insert _ _ (string2Lower_twice _)

theorem lines_lowered (lowered : Lowered headers) : Lowered (lines.foldl readLine headers) := by
  induction lines generalizing headers with
  | nil => exact lowered
  | cons line rest ih => exact ih (readLine_lowered lowered line)

theorem Lowered.protocol (lowered : Lowered headers) : headers[ascii "sec-webSocket-protocol"]? = none := by
  cases found : headers[ascii "sec-webSocket-protocol"]? with
  | none => rfl
  | some value => exact absurd (lowered _ _ found) (by decide)

-- The two fields that were put into small letters.
def settled (headers : Headers) : Headers :=
  (headers.insert (ascii "connection") (ascii "upgrade")).insert (ascii "upgrade") (ascii "websocket")

theorem connection_lookup (headers : Headers) (value : Bytes) (apart : name ≠ ascii "connection") :
    (headers.insert (ascii "connection") value)[name]? = headers[name]? := by
  rw [insert_lookup,if_neg apart]

theorem settled_lookup (headers : Headers) (connection : name ≠ ascii "connection") (upgrade : name ≠ ascii "upgrade") :
    (settled headers)[name]? = headers[name]? := by
  rw [settled,insert_lookup,if_neg upgrade,connection_lookup headers _ connection]

theorem settled_version (headers : Headers) : version (settled headers) = version headers := by
  unfold version
  rw [settled_lookup headers (by decide) (by decide)]

-- What the fields leave behind in a session that takes them.
def opened (s : WebSocketSession) (headers : Headers) (key : Bytes) : WebSocketSession :=
  {s with
    method:=string2Lower s.method
    headers:=settled headers
    secWsVer:=version headers
    secWsKey:=key}

theorem readKey_opened (s : WebSocketSession) (headers : Headers) :
    WebSocketSession.readKey (readVersion {s with method:=string2Lower s.method,headers:=settled headers}) = .ok next ↔
      ∃ key, headers[ascii "sec-websocket-key"]? = some key ∧ next = s.opened headers key := by
  have third : (settled headers)[ascii "sec-websocket-key"]? = headers[ascii "sec-websocket-key"]? :=
    settled_lookup headers (by decide) (by decide)
  rw [readVersion_version,readKey_iff]
  simp only [settled_version,third]
  rfl

theorem readFields_iff (lowered : Lowered s.headers) : s.readFields lines = .ok next ↔
    ∃ key, Upgrades (lines.foldl readLine s.headers) key ∧ next = s.opened (lines.foldl readLine s.headers) key := by
  have small : Lowered (lines.foldl readLine s.headers) := lines_lowered lowered
  generalize shape : lines.foldl readLine s.headers = headers at small ⊢
  have last : (settled headers)[ascii "sec-webSocket-protocol"]? = none := by
    rw [settled_lookup headers (by decide) (by decide)]
    exact small.protocol
  let named : WebSocketSession := {s with method:=string2Lower s.method,headers}
  let connected : WebSocketSession := {named with headers:=headers.insert (ascii "connection") (ascii "upgrade")}
  let upgraded : WebSocketSession := {named with headers:=settled headers}
  unfold readFields requireConnection requireUpgrade
  rw [shape]
  constructor
  · intro read
    obtain ⟨first,firstRead,afterFirst⟩ := bind_ok.mp read
    obtain ⟨second,secondRead,afterSecond⟩ := bind_ok.mp afterFirst
    obtain ⟨keyed,keyRead,afterKey⟩ := bind_ok.mp afterSecond
    obtain ⟨connection,rfl⟩ := requireField_iff.mp firstRead
    obtain ⟨upgrade,rfl⟩ := requireField_iff.mp secondRead
    rw [connection_lookup headers _ (by decide)] at upgrade
    obtain ⟨key,found,rfl⟩ := (readKey_opened s headers).mp keyRead
    refine ⟨key,⟨connection,upgrade,found⟩,?_⟩
    rw [← Except.ok.inj afterKey]
    exact readProtocol_absent last
  · rintro ⟨key,upgrades,rfl⟩
    have upgrade : (connected.headers[ascii "upgrade"]?).map string2Lower = some (ascii "websocket") := by
      rw [connection_lookup headers _ (by decide)]
      exact upgrades.upgrade
    have keyed := (readKey_opened s headers).mpr ⟨key,upgrades.key,rfl⟩
    exact bind_ok.mpr ⟨connected,requireField_iff.mpr ⟨upgrades.connection,rfl⟩,
      bind_ok.mpr ⟨upgraded,requireField_iff.mpr ⟨upgrade,rfl⟩,
        bind_ok.mpr ⟨_,keyed,congrArg Except.ok (readProtocol_absent last)⟩⟩⟩

-- The key of a request that opens a connection: three items in its first line,
-- a registered path, and fields that upgrade.
def upgradeKey (headers : Headers) : Option Bytes :=
  if (headers[ascii "connection"]?).map string2Lower = some (ascii "upgrade") ∧
    (headers[ascii "upgrade"]?).map string2Lower = some (ascii "websocket") then headers[ascii "sec-websocket-key"]?
  else none

def openingKey (server : WebSocketServer) (block : Bytes) : Option Bytes :=
  match split crlf block with
  | [] => none
  | line::lines =>
    match split (ascii " ") line with
    | [_,path,_] => if (server.getHandle path).isSome then upgradeKey (lines.foldl readLine ∅) else none
    | _ => none

theorem upgradeKey_iff : upgradeKey headers = some key ↔ Upgrades headers key := by
  unfold upgradeKey
  split
  · rename_i both
    exact ⟨fun found => ⟨both.1,both.2,found⟩,Upgrades.key⟩
  · rename_i neither
    constructor
    · intro never
      cases never
    · exact fun upgrades => absurd ⟨upgrades.connection,upgrades.upgrade⟩ neither

theorem empty_lowered (unread : headers = ∅) : Lowered headers := by
  intro name value found
  rw [unread,Std.ExtTreeMap.getElem?_empty] at found
  cases found

-- A request that is taken, and what it was read from.
theorem readRequest_taken (unread : s.headers = ∅) (read : readRequest server s content = .ok (next,handle)) :
    ∃ line lines method path third key, split crlf content = line::lines ∧ split (ascii " ") line = [method,path,third] ∧
      server.getHandle path = some handle ∧ Upgrades (lines.foldl readLine ∅) key ∧
      next = opened {s with method,path} (lines.foldl readLine ∅) key := by
  unfold readRequest raise at read
  split at read
  · cases read
  · rename_i line lines shape
    split at read
    · rename_i method path third items
      dsimp only at read
      split at read
      · cases read
      · rename_i handler registered
        obtain ⟨filled,fields,same⟩ := bind_ok.mp read
        cases same
        obtain ⟨key,upgrades,rfl⟩ := (readFields_iff (s := {s with method,path}) (empty_lowered unread)).mp fields
        dsimp only at upgrades ⊢
        rw [unread] at upgrades ⊢
        exact ⟨line,lines,method,path,third,key,shape,items,registered,upgrades,rfl⟩
    · cases read

theorem readRequest_opens (unread : s.headers = ∅) (read : readRequest server s content = .ok (next,handle)) :
    openingKey server content = some next.secWsKey := by
  obtain ⟨line,lines,method,path,third,key,shape,items,registered,upgrades,rfl⟩ := readRequest_taken unread read
  unfold openingKey
  rw [shape]
  dsimp only
  rw [items]
  dsimp only
  rw [registered,Option.isSome_some,if_pos rfl]
  exact upgradeKey_iff.mpr upgrades

theorem opens_readRequest (unread : s.headers = ∅) (opens : openingKey server content = some key) :
    ∃ next handle, readRequest server s content = .ok (next,handle) ∧ next.secWsKey = key := by
  have read : ∃ result, readRequest server s content = .ok result := by
    unfold openingKey at opens
    unfold readRequest
    cases shape : split crlf content with
    | nil =>
      rw [shape] at opens
      cases opens
    | cons line lines =>
      rw [shape] at opens
      dsimp only at opens ⊢
      by_cases three : ∃ method path third, split (ascii " ") line = [method,path,third]
      · obtain ⟨method,path,third,items⟩ := three
        rw [items] at opens ⊢
        dsimp only at opens ⊢
        split at opens
        · rename_i known
          obtain ⟨handle,registered⟩ := Option.isSome_iff_exists.mp known
          rw [registered]
          have upgrades := upgradeKey_iff.mp opens
          rw [← unread] at upgrades
          exact ⟨_,bind_ok.mpr ⟨_,(readFields_iff (s := {s with method,path}) (empty_lowered unread)).mpr
            ⟨key,upgrades,rfl⟩,rfl⟩⟩
        · cases opens
      · split at opens
        · rename_i method path third items
          exact absurd ⟨method,path,third,items⟩ three
        · cases opens
  obtain ⟨⟨next,handle⟩,read⟩ := read
  exact ⟨next,handle,read,Option.some.inj ((readRequest_opens unread read).symm.trans opens)⟩

def answers (outputs : List Output) : List Output :=
  outputs.filter fun
    | .httpResponse _ => true
    | .errorResponse _ => true
    | _ => false

def welcome (sha1 : Bytes → Bytes) (key : Bytes) : Output :=
  .httpResponse (switchingProtocols (genHashcode sha1 {secWsKey:=key}))

-- What a complete request is to be answered with, and what it is.
def due (sha1 : Bytes → Bytes) (server : WebSocketServer) (block : Bytes) : List Output :=
  match openingKey server block with
  | some key => [welcome sha1 key]
  | none => sendErrorResponse

def given (sha1 : Bytes → Bytes) (server : WebSocketServer) (block : Bytes) : List Output :=
  match openingKey server block with
  | some key => [welcome sha1 key]
  | none => []

-- The bytes that the reads have brought, cut in any way.
def received (events : List Event) : Bytes :=
  events.flatMap fun
    | .read retCode data _ => if retCode < 0 then [] else data
    | _ => []

structure Collecting (s : WebSocketSession) (bytes : Bytes) : Prop where
  waiting : s.httpRequestReady = false
  buffer : s.httpRecvBuffer = bytes
  unread : s.headers = ∅
  protocol : s.secWsProtocol = []
  isOpen : s.base.close = false

structure Progress (sha1 : Bytes → Bytes) (server : WebSocketServer) (events : List Event) (outputs : List Output)
    (s : WebSocketSession) : Prop where
  before : find? blankLine (received events) = none → Collecting s (received events) ∧ answers outputs = []
  behind : ∀ pos, find? blankLine (received events) = some pos →
    s.httpRequestReady = true ∧ answers outputs = given sha1 server ((received events).take pos)

theorem answers_append (first second : List Output) : answers (first++second) = answers first++answers second := by
  simp [answers]

theorem applyAll_answers (calls : List SessionCall) (s : WebSocketSession) : answers (s.applyAll calls).2 = [] ∧
    (s.applyAll calls).1.httpRequestReady = s.httpRequestReady ∧ (s.applyAll calls).1.secWsKey = s.secWsKey := by
  induction calls generalizing s with
  | nil => exact ⟨rfl,rfl,rfl⟩
  | cons call rest ih =>
    obtain ⟨silent,ready,key⟩ := ih (s.apply call).1
    rw [applyAll]
    dsimp only
    rw [answers_append,silent,ready,key]
    cases call <;> exact ⟨rfl,rfl,rfl⟩

theorem performAll_answers (actions : List Action) (s : WebSocketSession) : answers (s.performAll actions).2 = [] ∧
    (s.performAll actions).1.httpRequestReady = s.httpRequestReady := by
  induction actions generalizing s with
  | nil => exact ⟨rfl,rfl⟩
  | cons action rest ih =>
    obtain ⟨silent,ready⟩ := ih (s.perform action).1
    have first : answers (s.perform action).2 = [] ∧ (s.perform action).1.httpRequestReady = s.httpRequestReady := by
      cases action with
      | handleWsData data opCode =>
        unfold perform
        dsimp only
        split
        · split
          · exact ⟨rfl,rfl⟩
          · split <;> exact ⟨rfl,rfl⟩
        · exact ⟨rfl,rfl⟩
      | handleWsClose data =>
        unfold perform
        dsimp only
        split <;> exact ⟨rfl,rfl⟩
      | _ => exact ⟨rfl,rfl⟩
    rw [performAll]
    dsimp only
    rw [answers_append,first.1,silent,ready,first.2]
    exact ⟨rfl,rfl⟩

-- The read that completes a request, and the two ways it ends.
theorem readHttp_complete_answers (sha1 : Bytes → Bytes) (server : WebSocketServer) (unread : s.headers = ∅) (data : Bytes)
    (found : find? blankLine (s.httpRecvBuffer++data) = some pos) :
    (s.readHttp sha1 server data).1.httpRequestReady = true ∧
      answers (s.readHttp sha1 server data).2 = given sha1 server ((s.httpRecvBuffer++data).take pos) := by
  unfold readHttp onHandleHttpRequest
  dsimp only
  rw [found]
  dsimp only
  unfold given
  cases opens : openingKey server ((s.httpRecvBuffer++data).take pos) with
  | some key =>
    obtain ⟨filled,handle,read,rfl⟩ := opens_readRequest
      (s := {s with httpRecvBuffer:=s.httpRecvBuffer++data,httpRequestReady:=true}) unread opens
    obtain ⟨silent,ready,kept⟩ := applyAll_answers (handle filled.path) filled
    have marked := (readRequest_handle read).2.2
    have sent : answers [.httpResponse (switchingProtocols ((filled.applyAll (handle filled.path)).1.genHashcode sha1))] =
        [welcome sha1 filled.secWsKey] := by
      unfold genHashcode
      rw [kept]
      rfl
    rw [read,ok_bind]
    refine ⟨ready.trans marked,?_⟩
    change answers ((filled.applyAll (handle filled.path)).2++
      [.httpResponse (switchingProtocols ((filled.applyAll (handle filled.path)).1.genHashcode sha1))]++[.asyncRead]) = _
    rw [answers_append,answers_append,silent,sent]
    rfl
  | none =>
    cases read : readRequest server {s with httpRecvBuffer:=s.httpRecvBuffer++data,httpRequestReady:=true}
        ((s.httpRecvBuffer++data).take pos) with
    | error thrown =>
      have left := readRequest_thrown (show readRequest server _ _ = .error (thrown.1,thrown.2) from read)
      exact ⟨left.2,rfl⟩
    | ok result =>
      have other := readRequest_opens
        (s := {s with httpRecvBuffer:=s.httpRecvBuffer++data,httpRequestReady:=true}) unread read
      rw [opens] at other
      cases other

theorem readHttp_waits (sha1 : Bytes → Bytes) (data : Bytes) (missing : find? blankLine (s.httpRecvBuffer++data) = none) :
    s.readHttp sha1 server data = ({s with httpRecvBuffer:=s.httpRecvBuffer++data},[.asyncRead]) := by
  unfold readHttp onHandleHttpRequest
  dsimp only
  rw [missing]
  rfl

theorem received_snoc (events : List Event) (event : Event) :
    received (events++[event]) = received events++received [event] := by
  simp [received]

-- Behind the first blank line the answer is given, and more bytes neither change
-- what it answers nor what it is.
theorem progress_done (answered : s.httpRequestReady = true ∧ answers outputs = given sha1 server (bytes.take pos))
    (found : find? blankLine bytes = some pos) (whole : received (events++[event]) = bytes++more)
    (ready : next.httpRequestReady = true) (silent : answers emitted = []) :
    Progress sha1 server (events++[event]) (outputs++emitted) next := by
  have same := find?_append found more
  have inside := (find?_inside found).1
  constructor
  · intro missing
    rw [whole,same] at missing
    cases missing
  · intro other again
    rw [whole,same] at again
    cases again
    rw [whole,List.take_append_of_le_length (by omega),answers_append,answered.2,silent,List.append_nil]
    exact ⟨ready,rfl⟩

-- An event that brings no bytes and gives no answer changes nothing of this.
theorem progress_idle (progress : Progress sha1 server events outputs s) (nothing : received [event] = [])
    (ready : next.httpRequestReady = s.httpRequestReady) (silent : answers emitted = [])
    (kept : Collecting s (received events) → Collecting next (received events)) :
    Progress sha1 server (events++[event]) (outputs++emitted) next := by
  have same : received (events++[event]) = received events := by rw [received_snoc,nothing,List.append_nil]
  constructor
  · intro missing
    rw [same] at missing ⊢
    obtain ⟨collecting,none⟩ := progress.before missing
    exact ⟨kept collecting,by rw [answers_append,none,silent]; rfl⟩
  · intro pos found
    rw [same] at found ⊢
    obtain ⟨done,answered⟩ := progress.behind pos found
    exact ⟨ready.trans done,by rw [answers_append,answered,silent,List.append_nil]⟩

theorem onRead_progress (sha1 : Bytes → Bytes) (progress : Progress sha1 server events outputs s) (good : ¬ retCode < 0)
    (read : s.onRead sha1 server retCode data nowMs = .ok (next,emitted)) :
    Progress sha1 server (events++[.read retCode data nowMs]) (outputs++emitted) next := by
  have brought : received [.read retCode data nowMs] = data := by simp [received,good]
  have whole : received (events++[.read retCode data nowMs]) = received events++data := by
    rw [received_snoc,brought]
  unfold onRead at read
  rw [if_neg good] at read
  cases found : find? blankLine (received events) with
  | some pos =>
    have answered := progress.behind pos found
    rw [if_pos answered.1] at read
    obtain ⟨⟨base,actions,ret⟩,-,same⟩ := bind_ok.mp read
    cases same
    obtain ⟨silent,ready⟩ := performAll_answers actions {s with base}
    refine progress_done answered found whole (ready.trans answered.1) ?_
    rw [answers_append,silent]
    rfl
  | none =>
    obtain ⟨collecting,silent⟩ := progress.before found
    rw [if_neg (by simp [collecting.waiting])] at read
    have buffered : s.httpRecvBuffer++data = received events++data := by rw [collecting.buffer]
    cases complete : find? blankLine (received events++data) with
    | none =>
      rw [readHttp_waits sha1 data (by rw [buffered]; exact complete)] at read
      cases read
      constructor
      · intro _
        rw [whole]
        exact ⟨⟨collecting.waiting,buffered,collecting.unread,collecting.protocol,collecting.isOpen⟩,
          by rw [answers_append,silent]; rfl⟩
      · intro pos other
        rw [whole,complete] at other
        cases other
    | some pos =>
      obtain ⟨ready,answered⟩ := readHttp_complete_answers sha1 server collecting.unread data
        (by rw [buffered]; exact complete)
      rw [Except.ok.inj read] at ready answered
      constructor
      · intro missing
        rw [whole,complete] at missing
        cases missing
      · intro other again
        rw [whole,complete] at again
        cases again
        rw [whole,answers_append,silent,answered,buffered]
        exact ⟨ready,rfl⟩

theorem step_progress (sha1 : Bytes → Bytes) (progress : Progress sha1 server events outputs s)
    (stepped : step sha1 server s event = .ok (next,emitted)) :
    Progress sha1 server (events++[event]) (outputs++emitted) next := by
  cases event with
  | read retCode data nowMs =>
    by_cases closed : s.base.close = true
    · have same := (if_pos closed).symm.trans stepped
      cases same
      have brought := received_snoc events (.read retCode data nowMs)
      cases found : find? blankLine (received events) with
      | none =>
        have isOpen := (progress.before found).1.isOpen
        rw [closed] at isOpen
        cases isOpen
      | some pos =>
        have answered := progress.behind pos found
        exact progress_done answered found brought answered.1 rfl
    · have read : s.onRead sha1 server retCode data nowMs = .ok (next,emitted) := (if_neg closed).symm.trans stepped
      by_cases bad : retCode < 0
      · rw [onRead,if_pos bad] at read
        cases read
        exact progress_idle progress (by simp [received,bad]) rfl rfl fun collecting =>
          ⟨collecting.waiting,collecting.buffer,collecting.unread,collecting.protocol,collecting.isOpen⟩
      · exact onRead_progress sha1 progress bad read
  | written retCode =>
    have same := Except.ok.inj stepped
    by_cases closed : s.base.close = true
    · rw [if_pos closed] at same
      cases same
      exact progress_idle progress rfl rfl rfl id
    · rw [if_neg closed] at same
      cases same
      unfold onWrite
      split
      · exact progress_idle progress rfl rfl rfl fun collecting =>
          ⟨collecting.waiting,collecting.buffer,collecting.unread,collecting.protocol,collecting.isOpen⟩
      · exact progress_idle progress rfl rfl rfl id
  | timer nowMs =>
    have same := Except.ok.inj stepped
    unfold onTimer at same
    split at same
    · cases same
      exact progress_idle progress rfl rfl rfl id
    split at same
    · cases same
      exact progress_idle progress rfl rfl rfl fun collecting =>
        ⟨collecting.waiting,collecting.buffer,collecting.unread,collecting.protocol,collecting.isOpen⟩
    · cases same
      exact progress_idle progress rfl rfl rfl id
  | call call =>
    have same := Except.ok.inj stepped
    cases call with
    | asyncWriteText text =>
      cases same
      exact progress_idle progress rfl rfl rfl id
    | asyncWriteData data =>
      cases same
      exact progress_idle progress rfl rfl rfl id
    | setSessionCallback =>
      cases same
      exact progress_idle progress rfl rfl rfl fun collecting =>
        ⟨collecting.waiting,collecting.buffer,collecting.unread,collecting.protocol,collecting.isOpen⟩

theorem run_progress (sha1 : Bytes → Bytes) (server : WebSocketServer) (startMs : Int)
    (ran : (machine sha1 server startMs).run events = .ok (s,outputs)) : Progress sha1 server events outputs s := by
  refine (machine sha1 server startMs).history (Progress sha1 server) ?_ ?_ ran
  · exact ⟨fun _ => ⟨⟨rfl,rfl,rfl,rfl,rfl⟩,rfl⟩,fun pos found => by cases found⟩
  · intro events outputs s event next emitted progress stepped
    exact step_progress sha1 progress stepped

-- A complete request is answered as it is due exactly when it opens a connection:
-- nothing that is refused gets its 400.
theorem opening_answered_iff (sha1 : Bytes → Bytes) (server : WebSocketServer) (startMs : Int) (events : List Event)
    (s : WebSocketSession) (outputs : List Output) (ran : (machine sha1 server startMs).run events = .ok (s,outputs))
    (pos : Nat) (complete : find? blankLine (received events) = some pos) :
    answers outputs = due sha1 server ((received events).take pos) ↔
      ∃ key, openingKey server ((received events).take pos) = some key := by
  rw [((run_progress sha1 server startMs ran).behind pos complete).2]
  unfold given due
  cases openingKey server ((received events).take pos) with
  | none => simp [sendErrorResponse]
  | some key => simp

theorem chat_answered : ∃ s outputs,
    (machine (fun _ => openingDigest) chatServer 0).run [.read 0 (openingBlock++blankLine) 0] = .ok (s,outputs) ∧
      (answers outputs = due (fun _ => openingDigest) chatServer openingBlock ↔
        ∃ key, openingKey chatServer openingBlock = some key) := by
  have opens : ((machine (fun _ => openingDigest) chatServer 0).run [.read 0 (openingBlock++blankLine) 0]).map
      (·.1.base.isConnected) = .ok true := by decide +kernel
  obtain ⟨⟨s,outputs⟩,ran,-⟩ := map_ok.mp opens
  have brought : received [.read 0 (openingBlock++blankLine) 0] = openingBlock++blankLine := rfl
  have found : find? blankLine (openingBlock++blankLine) = some openingBlock.length := by decide +kernel
  have exactly := opening_answered_iff _ _ _ _ s outputs ran openingBlock.length (by rw [brought]; exact found)
  rw [brought,List.take_left' rfl] at exactly
  exact ⟨s,outputs,ran,exactly⟩

-- A path that nobody registered: the connection is marked down, and the client
-- hears nothing.
theorem unknown_path_silent : ∃ s outputs,
    (machine (fun _ => []) {} 0).run [.read 0 (ascii "GET /none HTTP/1.1"++blankLine) 0] = .ok (s,outputs) ∧
      answers outputs = [] ∧ due (fun _ => []) {} (ascii "GET /none HTTP/1.1") = sendErrorResponse ∧
      answers outputs ≠ due (fun _ => []) {} (ascii "GET /none HTTP/1.1") := by
  have refused : due (fun _ => []) {} (ascii "GET /none HTTP/1.1") = sendErrorResponse := rfl
  refine ⟨_,_,rfl,rfl,refused,?_⟩
  rw [refused]
  decide

end CoStream.WebSocketSession
