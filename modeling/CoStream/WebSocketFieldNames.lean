import CoStream.WebSocketAnswer
import CoStream.WebSocketHandshake

namespace CoStream.WebSocketSession
open Foundation

variable {s next : WebSocketSession} {server : WebSocketServer} {headers : Headers} {fields : List (Bytes × Bytes)}
  {field : Bytes × Bytes} {events : List Event} {outputs sent : List Output}

-- A complete request in the buffer whose lines are all 'Name: value', no two
-- with the same name up to case.
structure Spelled (buffer line : Bytes) (fields : List (Bytes × Bytes)) : Prop where
  lines : ∃ pos, find? blankLine buffer = some pos ∧ split crlf (buffer.take pos) = line::fields.map HttpClient.fieldLine
  blankless : ∀ field ∈ fields, 32 ∉ field.1
  distinct : (fields.map fun field => string2Lower field.1).Nodup

-- The three members are set from the lines that carry their names.
structure FieldsFound (fields : List (Bytes × Bytes)) (s : WebSocketSession) : Prop where
  key : ∀ field ∈ fields, string2Lower field.1 = string2Lower (ascii "Sec-WebSocket-Key") → s.secWsKey = field.2
  version : ∀ field ∈ fields, string2Lower field.1 = string2Lower (ascii "Sec-WebSocket-Version") →
    s.secWsVer = atoi field.2
  protocol : ∀ field ∈ fields, string2Lower field.1 = string2Lower (ascii "Sec-WebSocket-Protocol") →
    s.secWsProtocol = field.2

def NoProtocol (fields : List (Bytes × Bytes)) : Prop :=
  ∀ field ∈ fields, string2Lower field.1 = string2Lower (ascii "Sec-WebSocket-Protocol") → field.2 = []

theorem storeLower_absent (headers : Headers) (absent : ∀ field ∈ fields, string2Lower field.1 ≠ name) :
    (storeLower headers fields)[name]? = headers[name]? := by
  induction fields generalizing headers with
  | nil => rfl
  | cons field rest ih =>
    have later := ih (headers.insert (string2Lower field.1) field.2)
      fun other member => absent other (List.mem_cons_of_mem _ member)
    have apart : name ≠ string2Lower field.1 := fun same => absent field List.mem_cons_self same.symm
    rw [insert_lookup,if_neg apart] at later
    exact later

theorem storeLower_field (headers : Headers) (distinct : (fields.map fun field => string2Lower field.1).Nodup) (member : field ∈ fields) :
    (storeLower headers fields)[string2Lower field.1]? = some field.2 := by
  induction fields generalizing headers with
  | nil => cases member
  | cons first rest ih =>
    obtain ⟨apart,others⟩ := List.nodup_cons.mp distinct
    rcases List.mem_cons.mp member with rfl | later
    · have absent : ∀ other ∈ rest, string2Lower other.1 ≠ string2Lower field.1 :=
        fun other listed same => apart (List.mem_map.mpr ⟨other,listed,same⟩)
      have kept := storeLower_absent (headers.insert (string2Lower field.1) field.2) absent
      rw [insert_lookup,if_pos rfl] at kept
      exact kept
    · exact ih _ others later

-- The handler is called last; it leaves the three members alone.
theorem applyAll_members (calls : List SessionCall) (s : WebSocketSession) :
    (s.applyAll calls).1.secWsKey = s.secWsKey ∧ (s.applyAll calls).1.secWsVer = s.secWsVer ∧
      (s.applyAll calls).1.secWsProtocol = s.secWsProtocol := by
  induction calls generalizing s with
  | nil => exact ⟨rfl,rfl,rfl⟩
  | cons call rest ih =>
    obtain ⟨key,version,protocol⟩ := ih (s.apply call).1
    rw [applyAll]
    dsimp only
    rw [key,version,protocol]
    cases call <;> exact ⟨rfl,rfl,rfl⟩

theorem accepted_members (unread : s.headers = ∅) (spelled : Spelled s.httpRecvBuffer line fields)
    (accepted : onHandleHttpRequest server s = .ok (next,sent,0)) :
    Upgrades (storeLower ∅ fields) next.secWsKey ∧ next.secWsVer = version (storeLower ∅ fields) ∧
      next.secWsProtocol = s.secWsProtocol := by
  obtain ⟨pos,found,shape⟩ := spelled.lines
  unfold onHandleHttpRequest at accepted
  rw [found] at accepted
  obtain ⟨⟨filled,handle⟩,read,called⟩ := bind_ok.mp accepted
  cases called
  obtain ⟨_,lines,method,path,third,key,cut,-,-,upgrades,rfl⟩ :=
    readRequest_taken (s := {s with httpRequestReady:=true}) unread read
  cases shape.symm.trans cut
  rw [foldl_readLine fields ∅ spelled.blankless] at upgrades ⊢
  obtain ⟨sameKey,sameVersion,sameProtocol⟩ := applyAll_members (handle path)
    (opened {s with httpRequestReady:=true,method,path} (storeLower ∅ fields) key)
  have keyed : Upgrades (storeLower ∅ fields)
      ((opened {s with httpRequestReady:=true,method,path} (storeLower ∅ fields) key).applyAll (handle path)).1.secWsKey := by
    rw [sameKey]
    exact upgrades
  exact ⟨keyed,sameVersion,sameProtocol⟩

-- Every field is found but one: the protocol is looked up under a name with a
-- capital letter, among names without.
theorem fields_found_iff (sha1 : Bytes → Bytes) (server : WebSocketServer) (startMs : Int) (events : List Event)
    (s : WebSocketSession) (outputs : List Output) (ran : (machine sha1 server startMs).run events = .ok (s,outputs))
    (waiting : s.httpRequestReady = false) (data line : Bytes) (fields : List (Bytes × Bytes))
    (spelled : Spelled (s.httpRecvBuffer++data) line fields) (next : WebSocketSession) (sent : List Output)
    (accepted : onHandleHttpRequest server {s with httpRecvBuffer:=s.httpRecvBuffer++data} = .ok (next,sent,0)) :
    FieldsFound fields next ↔ NoProtocol fields := by
  have progress := run_progress sha1 server startMs ran
  have collecting : Collecting s (received events) := by
    cases found : find? blankLine (received events) with
    | none => exact (progress.before found).1
    | some pos =>
      have ready := (progress.behind pos found).1
      rw [waiting] at ready
      cases ready
  obtain ⟨upgrades,version,protocol⟩ := accepted_members (s := {s with httpRecvBuffer:=s.httpRecvBuffer++data})
    collecting.unread spelled accepted
  have unset : next.secWsProtocol = [] := protocol.trans collecting.protocol
  constructor
  · intro found field member named
    rw [← found.protocol field member named,unset]
  · intro nothing
    refine ⟨?_,?_,?_⟩
    · intro field member named
      have stored := storeLower_field ∅ spelled.distinct member
      rw [named] at stored
      exact Option.some.inj (upgrades.key.symm.trans stored)
    · intro field member named
      have stored := storeLower_field ∅ spelled.distinct member
      rw [named] at stored
      rw [version,WebSocketSession.version,show (storeLower ∅ fields)[ascii "sec-websocket-version"]? = _ from stored]
    · intro field member named
      rw [unset,nothing field member named]

-- Names in any case, and a protocol asked for or not.
def chatLine : Bytes := ascii "GET /chat HTTP/1.1"
def chatFields : List (Bytes × Bytes) := [
  (ascii "SEC-WEBSOCKET-KEY",ascii "dGhlIHNhbXBsZSBub25jZQ=="),
  (ascii "upgrade",ascii "WebSocket"),
  (ascii "Sec-websocket-Version",ascii "8"),
  (ascii "cONNECTION",ascii "upgrade")]
def protocolFields : List (Bytes × Bytes) := chatFields++[(ascii "Sec-WebSocket-Protocol",ascii "chat")]

def spelling (fields : List (Bytes × Bytes)) : Bytes :=
  crlf.intercalate (chatLine::fields.map HttpClient.fieldLine)++blankLine

def handled (fields : List (Bytes × Bytes)) : Except Thrown (WebSocketSession × List Output × Int) :=
  onHandleHttpRequest chatServer {fresh 0 with httpRecvBuffer:=spelling fields}

theorem handled_taken (fields : List (Bytes × Bytes)) (taken : (handled fields).toOption.map (fun result => (result.1.secWsProtocol,result.2)) =
    some (protocol,sent,0)) : ∃ next, handled fields = .ok (next,sent,0) ∧ next.secWsProtocol = protocol := by
  cases accepted : handled fields with
  | error thrown =>
    rw [accepted] at taken
    cases taken
  | ok result =>
    rw [accepted] at taken
    obtain ⟨held,rest⟩ := Prod.mk.inj (Option.some.inj taken)
    exact ⟨result.1,congrArg (fun rest => Except.ok (result.1,rest)) rest,held⟩

theorem chat_fields_found : ∃ next, handled chatFields = .ok (next,[],0) ∧
    (FieldsFound chatFields next ↔ NoProtocol chatFields) := by
  obtain ⟨next,accepted,-⟩ := handled_taken chatFields (show _ = some ([],[],0) by decide +kernel)
  have spelled : Spelled (spelling chatFields) chatLine chatFields :=
    ⟨⟨(crlf.intercalate (chatLine::chatFields.map HttpClient.fieldLine)).length,by decide +kernel,by decide +kernel⟩,
      by decide,by decide⟩
  exact ⟨next,accepted,fields_found_iff (fun _ => []) chatServer 0 [] (fresh 0) [] rfl rfl (spelling chatFields) chatLine
    chatFields spelled next [] accepted⟩

theorem protocol_not_found : Spelled (spelling protocolFields) chatLine protocolFields ∧
    ∃ next, handled protocolFields = .ok (next,[],0) ∧ next.secWsProtocol = [] ∧ ¬ FieldsFound protocolFields next := by
  obtain ⟨next,accepted,unset⟩ := handled_taken protocolFields (show _ = some ([],[],0) by decide +kernel)
  refine ⟨⟨⟨(crlf.intercalate (chatLine::protocolFields.map HttpClient.fieldLine)).length,by decide +kernel,
    by decide +kernel⟩,by decide,by decide⟩,next,accepted,unset,?_⟩
  intro found
  have held := found.protocol (ascii "Sec-WebSocket-Protocol",ascii "chat") (by simp [protocolFields]) rfl
  rw [unset] at held
  cases held

end CoStream.WebSocketSession
