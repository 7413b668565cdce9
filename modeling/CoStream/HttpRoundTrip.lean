import CoStream.HttpClientRequest
import CoStream.HttpSlices

namespace CoStream
open Foundation
namespace CoHttpSession
variable {η : Type} (server : Handlers η)

theorem runFrom_waiting (front : List Bytes) (s : CoHttpSession) (working : s.finished = false)
    (waiting : s.headerIsReady = false) (missing : find? blankLine (s.headerData++front.flatten) = none) :
    (machine server).runFrom s (front.map .ok) = .ok ({s with headerData:=s.headerData++front.flatten},[]) := by
  induction front generalizing s with
  | nil => simp
  | cons data front ih =>
    rw [List.flatten_cons,← List.append_assoc] at missing
    have stepped := handleRequest_waiting server s data working waiting (find?_none_of_append missing)
    have continued := ih {s with headerData:=s.headerData++data} working waiting missing
    rw [List.append_assoc,← List.flatten_cons] at continued
    exact (machine server).runFrom_cons.mpr ⟨_,_,_,stepped,continued,rfl⟩

theorem runFrom_finished (s : CoHttpSession) (finished : s.finished = true) (events : List Received) :
    (machine server).runFrom s events = .ok (s,[]) := by
  induction events with
  | nil => rfl
  | cons event rest ih => exact (machine server).runFrom_cons.mpr ⟨s,[],[],if_pos finished,ih,rfl⟩

theorem dispatch_whole (s : CoHttpSession) (method : s.request.method ≠ ascii "GET")
    (length : s.request.contentLength = s.contentData.length) (filled : s.contentData ≠ [])
    (small : s.contentData.length < 2^31) (registered : CoHttpServer.getHandle server s.request = some handler) :
    dispatch server s = ({s with request:={s.request with content:=s.contentData},finished:=true},
      [⟨handler,{s.request with content:=s.contentData}⟩]) := by
  have positive := List.length_pos_iff.mpr filled
  have same : toInt (s.contentData.length : Int) = s.contentData.length := toInt_fits (by constructor <;> omega)
  unfold dispatch
  rw [if_neg method,if_pos (by omega),registered]

theorem dispatch_part (s : CoHttpSession) (method : s.request.method ≠ ascii "GET")
    (part : (s.contentData.length : Int) < s.request.contentLength) (small : s.contentData.length < 2^31) :
    dispatch server s = (s,[]) := by
  have same : toInt (s.contentData.length : Int) = s.contentData.length := toInt_fits (by constructor <;> omega)
  unfold dispatch
  rw [if_neg method,if_neg (by rw [same]; omega)]

theorem handleRequest_body (s : CoHttpSession) (data : Bytes) (working : s.finished = false)
    (ready : s.headerIsReady = true) :
    handleRequest server s (.ok data) = .ok (dispatch server {s with contentData:=s.contentData++data}) := by
  unfold handleRequest
  rw [if_neg (by simp [working])]
  dsimp only
  rw [if_pos ready]

-- From the header on: the handler is called by the receive that brings the last
-- byte of the body, and the coroutine is over.
theorem runFrom_body (body : Bytes) (filled : body ≠ []) (small : body.length < 2^31) (rest : List Bytes)
    (s : CoHttpSession) (working : s.finished = false) (ready : s.headerIsReady = true)
    (method : s.request.method ≠ ascii "GET") (length : s.request.contentLength = body.length)
    (whole : s.contentData++rest.flatten = body)
    (registered : CoHttpServer.getHandle server s.request = some handler) :
    ∃ final later, (machine server).runFrom (dispatch server s).1 (rest.map .ok) = .ok (final,later) ∧
      (dispatch server s).2++later = [⟨handler,{s.request with content:=body}⟩] := by
  induction rest generalizing s with
  | nil =>
    rw [List.flatten_nil,List.append_nil] at whole
    subst whole
    rw [dispatch_whole server s method length filled small registered]
    exact ⟨_,[],rfl,rfl⟩
  | cons data rest ih =>
    have total := congrArg List.length whole
    rw [List.length_append] at total
    by_cases complete : body.length ≤ s.contentData.length
    · have nothing : (data::rest).flatten = [] := List.length_eq_zero_iff.mp (by omega)
      rw [nothing,List.append_nil] at whole
      subst whole
      rw [dispatch_whole server s method length filled small registered]
      exact ⟨_,[],runFrom_finished server _ rfl _,rfl⟩
    · rw [dispatch_part server s method (by omega) (by omega)]
      have stepped := handleRequest_body server s data working ready
      rw [List.flatten_cons,← List.append_assoc] at whole
      obtain ⟨final,later,continued,once⟩ := ih {s with contentData:=s.contentData++data} working ready method length
        whole registered
      refine ⟨final,_,(machine server).runFrom_cons.mpr ⟨_,_,later,stepped,continued,rfl⟩,?_⟩
      rw [List.nil_append]
      exact once

variable {client : HttpClient} {path : Bytes} {pairs : List (Bytes × Bytes)}

theorem runFrom_get (rest : List Bytes) (s : CoHttpSession) (method : s.request.method = ascii "GET")
    (registered : CoHttpServer.getHandle server s.request = some handler) :
    ∃ final later, (machine server).runFrom (dispatch server s).1 (rest.map .ok) = .ok (final,later) ∧
      (dispatch server s).2++later = [⟨handler,s.request⟩] := by
  have dispatched : dispatch server s = ({s with finished:=true},[⟨handler,s.request⟩]) := by
    unfold dispatch
    rw [if_pos method,registered]
  rw [dispatched]
  exact ⟨_,[],runFrom_finished server _ rfl _,rfl⟩

theorem run_sent (good : client.Wellformed path pairs)
    (registered : CoHttpServer.getHandle server (client.sent path pairs) = some handler)
    (chunks : List Bytes) (cut : chunks.flatten = client.onConnect) :
    ∃ final, (machine server).run (chunks.map .ok) =
      .ok (final,[⟨handler,{client.sent path pairs with headerData:=client.headerBlock}⟩]) := by
  obtain ⟨front,chunk,rest,rfl,absent,complete,block,content⟩ := HttpClient.reads_cut good chunks cut
  have waited := runFrom_waiting server front {} rfl rfl absent
  have stepped := handleRequest_found server {headerData:=front.flatten} chunk rfl rfl complete
  dsimp only at stepped
  rw [block,HttpClient.readHeader_sent good,ok_bind] at stepped
  have behind : ∃ final later, (machine server).runFrom (completeHeader server {headerData:=front.flatten} chunk
      client.headerBlock.length ({client.sent path pairs with headerData:=client.headerBlock,content:=[]},true)).1
        (rest.map .ok) = .ok (final,later) ∧
      (completeHeader server {headerData:=front.flatten} chunk client.headerBlock.length
        ({client.sent path pairs with headerData:=client.headerBlock,content:=[]},true)).2++later =
        [⟨handler,{client.sent path pairs with headerData:=client.headerBlock}⟩] := by
    have small := HttpClient.body_short good
    cases method : client.method with
    | get =>
      have bodiless : client.body = [] := by simp [HttpClient.body,method]
      have same : (⟨handler,{client.sent path pairs with headerData:=client.headerBlock}⟩ : Handled η) =
          ⟨handler,{client.sent path pairs with headerData:=client.headerBlock,content:=[]}⟩ := by
        simp [HttpClient.sent,bodiless]
      rw [same]
      exact runFrom_get server rest _ (by simp [HttpClient.sent,method,HttpClient.methodName]) registered
    | post =>
      have filled : client.body ≠ [] := by simpa [HttpClient.body,method] using good.content method
      refine runFrom_body server client.body filled (by omega) rest _ rfl rfl ?_ rfl content registered
      simp only [HttpClient.sent,method,HttpClient.methodName]
      decide
  obtain ⟨final,later,continued,once⟩ := behind
  rw [← once,List.map_append,List.map_cons]
  exact ⟨final,(machine server).runFrom_append.mpr ⟨_,_,_,waited,
    (machine server).runFrom_cons.mpr ⟨_,_,later,stepped,continued,rfl⟩,rfl⟩⟩

end CoHttpSession

namespace HttpSession
variable (server : Handlers HttpHandle)

def calls (outputs : List Output) : List (HttpHandle × HttpRequest) :=
  outputs.filterMap fun
    | .handled handler request => some (handler,request)
    | _ => none

@[simp] theorem calls_append (first second : List Output) : calls (first++second) = calls first++calls second :=
  List.filterMap_append

theorem close_silent (s : HttpSession) : calls s.close.2 = [] := by
  unfold close
  split <;> rfl

theorem respond_silent (s : HttpSession) (call : ResponseCall) : calls (s.respond call).2 = [] := by
  unfold respond
  split
  · rfl
  · rfl
  · rfl
  · rfl
  · simp [calls,List.filterMap_map]
  · split
    · rfl
    · exact close_silent _

theorem respondAll_silent (given : List ResponseCall) (s : HttpSession) : calls (s.respondAll given).2 = [] := by
  induction given generalizing s with
  | nil => rfl
  | cons call rest ih =>
    unfold respondAll
    rw [calls_append,respond_silent,ih]
    rfl

theorem callHandle_once (s : HttpSession) (handler : HttpHandle) :
    calls (settle (s.callHandle handler)).2 = [(handler,s.request)] := by
  have quiet := respondAll_silent (handler s.request) s
  unfold settle callHandle
  dsimp only
  rw [if_neg (by decide),calls_append]
  split <;> simpa [calls] using quiet

theorem step_waiting (s : HttpSession) (data : Bytes) (isOpen : s.isClosed = false)
    (waiting : s.headerIsReady = false) (missing : find? blankLine (s.headerData++data) = none) :
    step server s (.read 0 data) = .ok ({s with headerData:=s.headerData++data,continueFlag:=true},[.tryRead]) := by
  have analyzed : analyzeHeader {s with headerData:=s.headerData++data,continueFlag:=true} =
      .ok ({s with headerData:=s.headerData++data,continueFlag:=true},0) := by
    unfold analyzeHeader
    dsimp only
    rw [missing,waiting]
  unfold step onRead handleRequest
  rw [if_neg (by simp [isOpen])]
  dsimp only
  rw [if_neg (by decide),if_neg (by simp [waiting]),analyzed,ok_bind]
  dsimp only
  rw [if_neg (by decide),if_pos (by simp [waiting])]
  rfl

theorem runFrom_waiting (front : List Bytes) (s : HttpSession) (isOpen : s.isClosed = false)
    (waiting : s.headerIsReady = false) (missing : find? blankLine (s.headerData++front.flatten) = none) :
    ∃ continueFlag outputs, (machine server).runFrom s (front.map (.read 0)) =
      .ok ({s with headerData:=s.headerData++front.flatten,continueFlag},outputs) ∧ calls outputs = [] := by
  induction front generalizing s with
  | nil => exact ⟨s.continueFlag,[],by simp,rfl⟩
  | cons data front ih =>
    rw [List.flatten_cons,← List.append_assoc] at missing
    have stepped := step_waiting server s data isOpen waiting (find?_none_of_append missing)
    obtain ⟨flag,later,continued,quiet⟩ := ih {s with headerData:=s.headerData++data,continueFlag:=true} isOpen waiting
      missing
    rw [List.append_assoc,← List.flatten_cons] at continued
    exact ⟨flag,_,(machine server).runFrom_cons.mpr ⟨_,_,later,stepped,continued,rfl⟩,by rw [calls_append,quiet]; rfl⟩

-- The state in which the rest of HandleRequest finds a header that is ready.
def readied (s : HttpSession) (data : Bytes) (pos : Nat) (request : HttpRequest) : HttpSession :=
  let headerData := s.headerData++data
  {s with headerData,request,contentStart:=pos+4,headerIsReady:=true,continueFlag:=true}

theorem analyzeHeader_found (s : HttpSession) (data : Bytes) (filled : HttpRequest)
    (found : find? blankLine (s.headerData++data) = some pos)
    (read : s.request.readHeader ((s.headerData++data).take pos) = .ok (filled,true)) :
    analyzeHeader {s with headerData:=s.headerData++data,continueFlag:=true} = .ok (s.readied data pos filled,0) := by
  unfold analyzeHeader
  dsimp only
  rw [found]
  dsimp only
  rw [read,ok_bind]
  rfl

theorem step_found (s : HttpSession) (data : Bytes) (filled : HttpRequest) (isOpen : s.isClosed = false)
    (waiting : s.headerIsReady = false)
    (found : find? blankLine (s.headerData++data) = some pos)
    (read : s.request.readHeader ((s.headerData++data).take pos) = .ok (filled,true)) :
    step server s (.read 0 data) = .ok (settle (dispatch server
      {s.readied data pos filled with contentData:=s.contentData++(s.headerData++data).drop (pos+4)})) := by
  unfold step onRead handleRequest
  rw [if_neg (by simp [isOpen])]
  dsimp only
  rw [if_neg (by decide),if_neg (by simp [waiting]),analyzeHeader_found s data filled found read,ok_bind]
  rfl

theorem dispatch_get (s : HttpSession) (method : s.request.method = ascii "GET")
    (registered : (HttpServer.getHandle server s.request).2 = some handler) :
    dispatch server s = callHandle {s with request:=HttpServer.route s.request,response:=some {}} handler := by
  have other : ascii "GET" ≠ ascii "OPTIONS" := by decide
  unfold dispatch
  rw [if_neg (by rw [method]; exact other)]
  dsimp only
  rw [if_pos method,registered]
  rfl

theorem dispatch_whole (s : HttpSession) (method : s.request.method = ascii "POST")
    (length : s.request.contentLength = s.contentData.length) (small : s.contentData.length < 2^31)
    (registered : (HttpServer.getHandle server s.request).2 = some handler) :
    dispatch server s = callHandle {s with
      request:={HttpServer.route s.request with content:=s.contentData},response:=some (s.response.getD {})} handler := by
  have same : toInt (s.contentData.length : Int) = s.contentData.length := toInt_fits (by constructor <;> omega)
  unfold dispatch
  rw [if_neg (by rw [method]; decide)]
  dsimp only
  rw [if_neg (by rw [method]; decide),if_pos (by omega),registered]
  rfl

theorem dispatch_part (s : HttpSession) (method : s.request.method = ascii "POST")
    (part : (s.contentData.length : Int) < s.request.contentLength) (small : s.contentData.length < 2^31) :
    dispatch server s = (s,[],0) := by
  have same : toInt (s.contentData.length : Int) = s.contentData.length := toInt_fits (by constructor <;> omega)
  unfold dispatch
  rw [if_neg (by rw [method]; decide)]
  dsimp only
  rw [if_neg (by rw [method]; decide),if_neg (by rw [same]; omega)]

theorem step_body (s : HttpSession) (data : Bytes) (isOpen : s.isClosed = false) (ready : s.headerIsReady = true) :
    step server s (.read 0 data) =
      .ok (settle (dispatch server {s with contentData:=s.contentData++data,continueFlag:=true})) := by
  unfold step onRead handleRequest
  rw [if_neg (by simp [isOpen])]
  dsimp only
  rw [if_neg (by decide),if_pos ready,ok_bind]

-- The session goes on reading after the call. No read is empty, so the one that
-- brings the last byte of the body is the last one there is.
theorem runFrom_body (body : Bytes) (small : body.length < 2^31) (rest : List Bytes)
    (filled : ∀ chunk ∈ rest, chunk ≠ []) (s : HttpSession) (isOpen : s.isClosed = false)
    (ready : s.headerIsReady = true) (method : s.request.method = ascii "POST")
    (length : s.request.contentLength = body.length) (whole : s.contentData++rest.flatten = body)
    (registered : (HttpServer.getHandle server s.request).2 = some handler) :
    ∃ final later, (machine server).runFrom (settle (dispatch server s)).1 (rest.map (.read 0)) = .ok (final,later) ∧
      calls ((settle (dispatch server s)).2++later) =
        [(handler,{HttpServer.route s.request with content:=body})] := by
  induction rest generalizing s with
  | nil =>
    rw [List.flatten_nil,List.append_nil] at whole
    subst whole
    rw [dispatch_whole server s method length small registered]
    exact ⟨_,[],rfl,by rw [List.append_nil,callHandle_once]⟩
  | cons data rest ih =>
    have longer := List.length_pos_iff.mpr (filled data List.mem_cons_self)
    rw [List.flatten_cons,← List.append_assoc] at whole
    have total := congrArg List.length whole
    rw [List.length_append,List.length_append] at total
    have waits : settle (dispatch server s) = (s,if s.continueFlag then [.tryRead] else []) := by
      rw [dispatch_part server s method (by omega) (by omega)]
      rfl
    rw [waits]
    have stepped := step_body server s data isOpen ready
    obtain ⟨final,later,continued,once⟩ := ih (fun chunk member => filled chunk (List.mem_cons_of_mem _ member))
      {s with contentData:=s.contentData++data,continueFlag:=true} isOpen ready method length whole registered
    refine ⟨final,_,(machine server).runFrom_cons.mpr ⟨(settle _).1,(settle _).2,later,stepped,continued,rfl⟩,?_⟩
    rw [calls_append,once]
    dsimp only
    split <;> rfl

-- The request as AnalyzeHeader leaves it in a run over some reads, before it is
-- routed: the read in question completes the header.
def Analyzes (chunks : List Bytes) (request : HttpRequest) : Prop :=
  ∃ front chunk rest s outputs analyzed, chunks = front++chunk::rest ∧
    (machine server).run (front.map (.read 0)) = .ok (s,outputs) ∧ s.headerIsReady = false ∧
    analyzeHeader {s with headerData:=s.headerData++chunk,continueFlag:=true} = .ok (analyzed,0) ∧
    analyzed.headerIsReady = true ∧ analyzed.request = request

variable {client : HttpClient} {path : Bytes} {pairs : List (Bytes × Bytes)}

theorem run_sent (good : client.Wellformed path pairs)
    (registered : (HttpServer.getHandle server (client.sent path pairs)).2 = some handler)
    (chunks : List Bytes) (filled : ∀ chunk ∈ chunks, chunk ≠ []) (cut : chunks.flatten = client.onConnect) :
    Analyzes server chunks {client.sent path pairs with content:=[]} ∧
    ∃ final outputs, (machine server).run (chunks.map (.read 0)) = .ok (final,outputs) ∧
      calls outputs = [(handler,HttpServer.route (client.sent path pairs))] := by
  obtain ⟨front,chunk,rest,rfl,absent,complete,block,content⟩ := HttpClient.reads_cut good chunks cut
  obtain ⟨flag,earlier,waited,quiet⟩ := runFrom_waiting server front {} rfl rfl absent
  have read : HttpRequest.readHeader {} ((front.flatten++chunk).take client.headerBlock.length) =
      .ok ({client.sent path pairs with content:=[]},true) := by
    rw [block]
    exact HttpClient.readHeader_sent good []
  have analyzed := analyzeHeader_found {headerData:=front.flatten,continueFlag:=flag} chunk _ complete read
  have stepped := step_found server {headerData:=front.flatten,continueFlag:=flag} chunk _ rfl rfl complete read
  refine ⟨⟨front,chunk,rest,_,earlier,_,rfl,waited,rfl,analyzed,rfl,rfl⟩,?_⟩
  dsimp only at stepped
  rw [List.nil_append] at stepped
  have behind : ∃ final later, (machine server).runFrom (settle (dispatch server
        {readied {headerData:=front.flatten,continueFlag:=flag} chunk client.headerBlock.length
          {client.sent path pairs with content:=[]} with
          contentData:=(front.flatten++chunk).drop (client.headerBlock.length+4)})).1 (rest.map (.read 0)) =
          .ok (final,later) ∧
      calls ((settle (dispatch server
        {readied {headerData:=front.flatten,continueFlag:=flag} chunk client.headerBlock.length
          {client.sent path pairs with content:=[]} with
          contentData:=(front.flatten++chunk).drop (client.headerBlock.length+4)})).2++later) =
          [(handler,HttpServer.route (client.sent path pairs))] := by
    cases method : client.method with
    | get =>
      have bodiless : client.body = [] := by simp [HttpClient.body,method]
      have ended : rest = [] := by
        rw [bodiless] at content
        exact flatten_filled (fun chunk member => filled chunk (by simp [member])) (List.append_eq_nil_iff.mp content).2
      subst ended
      rw [dispatch_get server _ (by simp [readied,HttpClient.sent,method,HttpClient.methodName]) registered]
      refine ⟨_,[],rfl,?_⟩
      rw [List.append_nil,callHandle_once]
      simp [readied,HttpServer.route,HttpClient.sent,bodiless]
    | post =>
      have small := HttpClient.body_short good
      refine runFrom_body server client.body (by omega) rest (fun chunk member => filled chunk (by simp [member])) _
        rfl rfl ?_ rfl content registered
      simp [readied,HttpClient.sent,method,HttpClient.methodName]
  obtain ⟨final,later,continued,once⟩ := behind
  rw [List.map_append,List.map_cons]
  exact ⟨final,_,(machine server).runFrom_append.mpr ⟨_,_,_,waited,
    (machine server).runFrom_cons.mpr ⟨(settle _).1,(settle _).2,later,stepped,continued,rfl⟩,rfl⟩,
    by rw [calls_append,quiet]; exact once⟩

end HttpSession

namespace HttpClient

-- Whatever a client asks for, and however its bytes are cut into reads, both
-- kinds of session call the handler once, with the request that was asked for.
-- The connection of an HttpSession does not hand on empty reads.
theorem request_roundTrip {η : Type} (client : HttpClient) (path : Bytes) (pairs : List (Bytes × Bytes))
    (good : client.Wellformed path pairs) (coServer : Handlers η) (coHandler : η)
    (coRegistered : CoHttpServer.getHandle coServer (client.sent path pairs) = some coHandler)
    (server : Handlers HttpHandle) (handler : HttpHandle)
    (registered : (HttpServer.getHandle server (client.sent path pairs)).2 = some handler)
    (chunks : List Bytes) (cut : chunks.flatten = client.onConnect) :
    (∃ final, (CoHttpSession.machine coServer).run (chunks.map .ok) =
      .ok (final,[⟨coHandler,{client.sent path pairs with headerData:=client.headerBlock}⟩])) ∧
    ((∀ chunk ∈ chunks, chunk ≠ []) →
      HttpSession.Analyzes server chunks {client.sent path pairs with content:=[]} ∧
      ∃ final outputs, (HttpSession.machine server).run (chunks.map (.read 0)) = .ok (final,outputs) ∧
        HttpSession.calls outputs = [(handler,HttpServer.route (client.sent path pairs))]) :=
  ⟨CoHttpSession.run_sent coServer good coRegistered chunks cut,
    fun filled => HttpSession.run_sent server good registered chunks filled cut⟩

-- A POST whose body looks like the end of a header, cut inside the header.
def upload : HttpClient :=
  HttpClient.post {host:=ascii "h"} (ascii "/up?k=v") ((∅ : Headers).insert (ascii "X") (ascii "1")) (blankLine++ascii "a")

theorem upload_wellformed : upload.Wellformed (ascii "/up") [(ascii "k",ascii "v")] := by
  have only : ∀ field ∈ upload.headers.toList, field = (ascii "X",ascii "1") := by
    rintro ⟨key,value⟩ member
    have held := Std.ExtTreeMap.mem_toList_iff_getElem?_eq_some.mp member
    rw [upload,post,insert_lookup] at held
    split at held
    · rename_i same
      cases held
      rw [same]
    · simp at held
  refine ⟨by decide +kernel,by decide +kernel,by decide +kernel,.inr (by decide +kernel),by decide +kernel,?_,?_,?_,
    by decide +kernel,?_⟩
  · intro field member
    rw [only field member]
    decide +kernel
  · intro field member
    rw [only field member]
    decide +kernel
  · intro field member
    rw [only field member]
    decide +kernel
  · decide +kernel

def uploadServer : Handlers HttpHandle := HttpServer.addPostHandle {} (ascii "/up/") fun _ => [.write [] false]

theorem upload_roundTrip :
    upload.Wellformed (ascii "/up") [(ascii "k",ascii "v")] ∧
    (∃ final, (CoHttpSession.machine (CoHttpServer.addPostHandle {} (ascii "up") ())).run
      ([upload.onConnect.take 20,upload.onConnect.drop 20].map .ok) =
      .ok (final,[⟨(),{upload.sent (ascii "/up") [(ascii "k",ascii "v")] with headerData:=upload.headerBlock}⟩])) ∧
    ∃ final outputs, (HttpSession.machine uploadServer).run
        ([upload.onConnect.take 20,upload.onConnect.drop 20].map (.read 0)) = .ok (final,outputs) ∧
      HttpSession.calls outputs = [(fun _ => [.write [] false],
        HttpServer.route (upload.sent (ascii "/up") [(ascii "k",ascii "v")]))] := by
  have both := request_roundTrip upload _ _ upload_wellformed (CoHttpServer.addPostHandle {} (ascii "up") ()) ()
    (by decide +kernel) uploadServer (fun _ => [.write [] false]) rfl
    [upload.onConnect.take 20,upload.onConnect.drop 20] (by simp)
  exact ⟨upload_wellformed,both.1,(both.2 (by decide +kernel)).2⟩

end HttpClient
end CoStream
