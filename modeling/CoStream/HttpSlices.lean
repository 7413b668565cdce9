import CoStream.HttpSession

namespace CoStream
open Foundation
namespace HttpRequest

-- The cuts that are made at computed positions: behind the ':' of a line there
-- must be one more byte, and one behind the "HTTP" of the version. Lines are
-- read up to the first one without a ':'.
def LinesSliceable : List Bytes → Prop
  | [] => True
  | infoLine::rest => ∀ pos, find? (ascii ":") infoLine = some pos → pos+2 ≤ infoLine.length ∧ LinesSliceable rest

-- The targets that GetUriAndParams accepts.
def GoodTarget (target : Bytes) : Prop := ∀ pos, find? (ascii "?") target = some pos →
  ∀ item ∈ split (ascii "&") (target.drop (pos+1)), (split (ascii "=") item).length = 2

-- A header block that is refused before one of the cuts is reached cannot fail
-- there.
def Sliceable (headerStr : Bytes) : Prop :=
  match split crlf headerStr with
  | [] => True
  | firstLine::lines =>
    match split (ascii " ") firstLine with
    | [_,target,versionInfo] => GoodTarget target → ∀ pos, find? (ascii "HTTP") versionInfo = some pos →
        pos+5 ≤ versionInfo.length ∧ LinesSliceable lines
    | _ => True

variable {request : HttpRequest}

def HeaderSliceable (text : Bytes) : Prop := ∀ pos, find? blankLine text = some pos → Sliceable (text.take pos)

theorem substr_defined (text : Bytes) (pos : Nat) : (∃ rest, substr text pos = .ok rest) ↔ pos ≤ text.length := by
  constructor
  · rintro ⟨rest,cut⟩
    unfold substr at cut
    split at cut
    · cases cut
    · omega
  · exact fun inside => ⟨_,substr_ok inside⟩

theorem storeParams_defined (items : List Bytes) (params : Headers) :
    ∃ stored ret, storeParams params items = .ok (stored,ret) ∧
      (ret < 0 ↔ ¬∀ item ∈ items, (split (ascii "=") item).length = 2) := by
  induction items generalizing params with
  | nil => exact ⟨params,0,rfl,by simp⟩
  | cons item rest ih =>
    unfold storeParams
    rw [stringSplit_exact,ok_bind]
    split
    · rename_i key value shape
      obtain ⟨stored,ret,ran,refused⟩ := ih (params.insert key value)
      exact ⟨stored,ret,ran,by simpa [shape] using refused⟩
    · rename_i other
      refine ⟨params,-1,rfl,⟨fun _ pairs => ?_,fun _ => by decide⟩⟩
      match shape : split (ascii "=") item,pairs item List.mem_cons_self with
      | [key,value],_ => exact other key value shape

theorem getUriAndParams_defined (input : Bytes) (params : Headers) :
    ∃ uri stored ret, getUriAndParams input params = .ok (uri,stored,ret) ∧ (ret < 0 ↔ ¬GoodTarget input) := by
  unfold getUriAndParams GoodTarget
  cases found : find? (ascii "?") input with
  | none => exact ⟨input,params,0,rfl,by simp⟩
  | some pos =>
    dsimp only
    obtain ⟨stored,ret,ran,refused⟩ := storeParams_defined (split (ascii "&") (input.drop (pos+1))) params
    rw [substr_ok (by simpa [ascii] using (find?_inside found).1),ok_bind,stringSplit_exact,ok_bind,ran,ok_bind]
    exact ⟨_,_,_,rfl,by simpa using refused⟩

theorem readLines_defined (lines : List Bytes) (request : HttpRequest) :
    (∃ result, request.readLines lines = .ok result) ↔ LinesSliceable lines := by
  induction lines generalizing request with
  | nil => exact ⟨fun _ => trivial,fun _ => ⟨_,rfl⟩⟩
  | cons infoLine rest ih =>
    unfold readLines LinesSliceable
    cases found : find? (ascii ":") infoLine with
    | none => simp
    | some pos =>
      simp only [Option.some.injEq,forall_eq',bind_ok]
      constructor
      · rintro ⟨result,value,cut,continued⟩
        exact ⟨(substr_defined _ _).mp ⟨_,cut⟩,(ih _).mp ⟨_,continued⟩⟩
      · rintro ⟨inside,sliceable⟩
        obtain ⟨result,continued⟩ := (ih (request.addHeader (infoLine.take pos) _)).mpr sliceable
        exact ⟨result,_,substr_ok inside,continued⟩

theorem readVersion_defined (versionInfo : Bytes) (lines : List Bytes) (request : HttpRequest) :
    (∃ result, request.readVersion versionInfo lines = .ok result) ↔
      ∀ pos, find? (ascii "HTTP") versionInfo = some pos → pos+5 ≤ versionInfo.length ∧ LinesSliceable lines := by
  unfold readVersion
  cases found : find? (ascii "HTTP") versionInfo with
  | none => simp
  | some pos =>
    simp only [Option.some.injEq,forall_eq',bind_ok]
    constructor
    · rintro ⟨result,version,cut,continued⟩
      exact ⟨(substr_defined _ _).mp ⟨_,cut⟩,(readLines_defined _ _).mp ⟨_,continued⟩⟩
    · rintro ⟨inside,sliceable⟩
      obtain ⟨result,continued⟩ := (readLines_defined lines {request with version:=versionInfo.drop (pos+5)}).mpr sliceable
      exact ⟨result,_,substr_ok inside,continued⟩

theorem readTarget_defined (target versionInfo : Bytes) (lines : List Bytes) (request : HttpRequest) :
    (∃ result, request.readTarget target versionInfo lines = .ok result) ↔
      (GoodTarget target → ∀ pos, find? (ascii "HTTP") versionInfo = some pos →
        pos+5 ≤ versionInfo.length ∧ LinesSliceable lines) := by
  unfold readTarget
  obtain ⟨uri,params,ret,ran,refused⟩ := getUriAndParams_defined target request.params
  rw [ran,ok_bind]
  dsimp only
  split
  · rename_i negative
    exact ⟨fun _ good => absurd good (refused.mp negative),fun _ => ⟨_,rfl⟩⟩
  · rename_i accepted
    have good : GoodTarget target := by
      by_contra bad
      exact accepted (refused.mpr bad)
    rw [readVersion_defined]
    exact ⟨fun sliceable _ => sliceable,fun sliceable => sliceable good⟩

theorem readHeader_defined (headerStr : Bytes) (request : HttpRequest) :
    (∃ result, request.readHeader headerStr = .ok result) ↔ Sliceable headerStr := by
  unfold readHeader Sliceable
  rw [stringSplit_exact,ok_bind]
  cases split crlf headerStr with
  | nil => simp
  | cons firstLine lines =>
    dsimp only
    unfold readFirstLine
    rw [stringSplit_exact,ok_bind]
    generalize split (ascii " ") firstLine = versionVec
    split
    · exact readTarget_defined _ _ _ _
    · simp

theorem headerSliceable_append (found : find? blankLine text = some pos) (more : Bytes) :
    HeaderSliceable (text++more) ↔ Sliceable (text.take pos) := by
  have inside := (find?_inside found).1
  unfold HeaderSliceable
  rw [find?_append found]
  simp only [Option.some.injEq,forall_eq']
  rw [List.take_append_of_le_length (by omega)]

theorem headerSliceable_found (found : find? blankLine text = some pos) :
    HeaderSliceable text ↔ Sliceable (text.take pos) := by
  simpa using headerSliceable_append found []

theorem headerSliceable_none (missing : find? blankLine text = none) : HeaderSliceable text := by
  intro pos found
  rw [missing] at found
  cases found

end HttpRequest

namespace CoHttpSession
variable {η : Type} (server : Handlers η)

-- The bytes of the receives before the first one that failed.
def delivered : List Received → Bytes
  | [] => []
  | .failed::_ => []
  | .ok data::rest => data++delivered rest

theorem dispatch_ready (s : CoHttpSession) (ready : s.headerIsReady = true) :
    (dispatch server s).1.headerIsReady = true := by
  unfold dispatch
  split
  · split <;> exact ready
  · split
    · split <;> exact ready
    · exact ready

-- Behind the header, and after the coroutine has returned, nothing is cut.
theorem runFrom_ready (s : CoHttpSession) (past : s.headerIsReady = true ∨ s.finished = true) (events : List Received) :
    ∃ result, (machine server).runFrom s events = .ok result := by
  induction events generalizing s with
  | nil => exact ⟨_,rfl⟩
  | cons event rest ih =>
    have stepped : ∃ next emitted, handleRequest server s event = .ok (next,emitted) ∧
        (next.headerIsReady = true ∨ next.finished = true) := by
      unfold handleRequest
      split
      · rename_i finished
        exact ⟨s,[],rfl,.inr finished⟩
      · rename_i working
        have ready : s.headerIsReady = true := past.resolve_right working
        cases event with
        | failed => exact ⟨_,_,rfl,.inr rfl⟩
        | ok data => exact ⟨_,_,if_pos ready,.inl (dispatch_ready _ _ ready)⟩
    obtain ⟨next,emitted,stepped,again⟩ := stepped
    obtain ⟨⟨final,later⟩,continued⟩ := ih next again
    exact ⟨_,(machine server).runFrom_cons.mpr ⟨next,emitted,later,stepped,continued,rfl⟩⟩

-- What one receive does while the blank line has not come.
theorem handleRequest_waiting (s : CoHttpSession) (data : Bytes) (working : s.finished = false)
    (waiting : s.headerIsReady = false) (missing : find? blankLine (s.headerData++data) = none) :
    handleRequest server s (.ok data) = .ok ({s with headerData:=s.headerData++data},[]) := by
  have analyzed : s.analyzeHeader data = .ok ({s with headerData:=s.headerData++data},0) := by
    unfold analyzeHeader
    rw [if_neg (by simp [waiting])]
    dsimp only
    rw [missing]
    simp [waiting]
  unfold handleRequest
  rw [if_neg (by simp [working])]
  dsimp only
  rw [if_neg (by simp [waiting]),analyzed]
  rfl

def completeHeader (s : CoHttpSession) (data : Bytes) (pos : Nat) (read : HttpRequest × Bool) :
    CoHttpSession × List (Handled η) :=
  let headerData := s.headerData++data
  let contentData := s.contentData++headerData.drop (pos+4)
  let analyzed := {s with headerData,contentData,headerIsReady:=true,contentStart:=pos+4,request:=read.1}
  if read.2 then dispatch server analyzed else ({analyzed with finished:=true},[])

theorem handleRequest_found (s : CoHttpSession) (data : Bytes) (working : s.finished = false)
    (waiting : s.headerIsReady = false) (found : find? blankLine (s.headerData++data) = some pos) :
    handleRequest server s (.ok data) =
      (HttpRequest.readHeader {headerData:=(s.headerData++data).take pos} ((s.headerData++data).take pos) >>=
        fun read => .ok (completeHeader server s data pos read)) := by
  unfold handleRequest analyzeHeader completeHeader
  rw [if_neg (by simp [working])]
  dsimp only
  rw [if_neg (by simp [waiting]),if_neg (by simp [waiting]),found]
  dsimp only
  cases HttpRequest.readHeader {headerData:=(s.headerData++data).take pos} ((s.headerData++data).take pos) with
  | error exn => rfl
  | ok read =>
    obtain ⟨request,accepted⟩ := read
    cases accepted <;> rfl

theorem completeHeader_ready (s : CoHttpSession) (data : Bytes) (pos : Nat) (read : HttpRequest × Bool) :
    (completeHeader server s data pos read).1.headerIsReady = true := by
  unfold completeHeader
  dsimp only
  split
  · exact dispatch_ready _ _ rfl
  · rfl

-- From a state in which the header is still coming in, the run is defined
-- exactly when the block that its bytes complete can be cut.
theorem runFrom_defined (s : CoHttpSession) (working : s.finished = false) (waiting : s.headerIsReady = false)
    (missing : find? blankLine s.headerData = none) (events : List Received) :
    (∃ result, (machine server).runFrom s events = .ok result) ↔
      HttpRequest.HeaderSliceable (s.headerData++delivered events) := by
  induction events generalizing s with
  | nil =>
    refine ⟨fun _ => ?_,fun _ => ⟨_,rfl⟩⟩
    simpa [delivered] using HttpRequest.headerSliceable_none missing
  | cons event rest ih =>
    cases event with
    | failed =>
      have stepped : handleRequest server s .failed = .ok ({s with finished:=true},[]) := if_neg (by simp [working])
      obtain ⟨⟨final,later⟩,continued⟩ := runFrom_ready server {s with finished:=true} (.inr rfl) rest
      refine ⟨fun _ => ?_,fun _ => ⟨_,(machine server).runFrom_cons.mpr ⟨_,_,later,stepped,continued,rfl⟩⟩⟩
      simpa [delivered] using HttpRequest.headerSliceable_none missing
    | ok data =>
      rw [delivered,← List.append_assoc]
      cases found : find? blankLine (s.headerData++data) with
      | none =>
        have stepped := handleRequest_waiting server s data working waiting found
        rw [← ih {s with headerData:=s.headerData++data} working waiting found]
        constructor
        · rintro ⟨⟨final,outputs⟩,ran⟩
          obtain ⟨middle,emitted,later,first,continued,-⟩ := (machine server).runFrom_cons.mp ran
          cases first.symm.trans stepped
          exact ⟨_,continued⟩
        · rintro ⟨⟨final,later⟩,continued⟩
          exact ⟨_,(machine server).runFrom_cons.mpr ⟨_,_,later,stepped,continued,rfl⟩⟩
      | some pos =>
        rw [HttpRequest.headerSliceable_append found,
          ← HttpRequest.readHeader_defined _ {headerData:=(s.headerData++data).take pos}]
        have stepped := handleRequest_found server s data working waiting found
        constructor
        · rintro ⟨⟨final,outputs⟩,ran⟩
          obtain ⟨middle,emitted,later,first,-,-⟩ := (machine server).runFrom_cons.mp ran
          obtain ⟨read,header,-⟩ := bind_ok.mp (stepped.symm.trans first)
          exact ⟨read,header⟩
        · rintro ⟨read,header⟩
          rw [header,ok_bind] at stepped
          obtain ⟨⟨final,later⟩,continued⟩ := runFrom_ready server _ (.inl (completeHeader_ready server s data pos read)) rest
          exact ⟨_,(machine server).runFrom_cons.mpr ⟨_,_,later,stepped,continued,rfl⟩⟩

end CoHttpSession

namespace HttpSession
variable (server : Handlers HttpHandle)

-- The state before a read says which header block the read may complete.
def ReadSliceable (s : HttpSession) : Event → Prop
  | .read retCode data => s.isClosed = false → retCode = 0 → s.headerIsReady = false →
      HttpRequest.HeaderSliceable (s.headerData++data)
  | _ => True

theorem analyzeHeader_defined (s : HttpSession) :
    (∃ result, s.analyzeHeader = .ok result) ↔ HttpRequest.HeaderSliceable s.headerData := by
  unfold analyzeHeader
  cases found : find? blankLine s.headerData with
  | none => exact ⟨fun _ => HttpRequest.headerSliceable_none found,fun _ => ⟨_,rfl⟩⟩
  | some pos =>
    rw [HttpRequest.headerSliceable_found found,← HttpRequest.readHeader_defined _ s.request]
    exact bind_defined fun _ => ⟨_,rfl⟩

theorem handleRequest_defined (s : HttpSession) (data : Bytes) :
    (∃ result, handleRequest server s data = .ok result) ↔
      (s.headerIsReady = false → HttpRequest.HeaderSliceable (s.headerData++data)) := by
  unfold handleRequest
  by_cases ready : s.headerIsReady = true
  · rw [if_pos ready]
    exact ⟨fun _ waiting => absurd ready (by simp [waiting]),fun _ => ⟨_,rfl⟩⟩
  · have waiting : s.headerIsReady = false := by simpa using ready
    rw [if_neg ready,forall_prop_of_true waiting]
    refine (bind_defined fun analyzed => ?_).trans (analyzeHeader_defined _)
    split
    · exact ⟨_,rfl⟩
    · split <;> exact ⟨_,rfl⟩

theorem step_defined (s : HttpSession) (event : Event) :
    (∃ result, step server s event = .ok result) ↔ ReadSliceable s event := by
  unfold step ReadSliceable
  by_cases closed : s.isClosed = true
  · rw [if_pos closed]
    cases event <;> simp [closed]
  · have isOpen : s.isClosed = false := by simpa using closed
    rw [if_neg closed]
    cases event with
    | written retCode sentSize => simp
    | respond call => simp
    | read retCode data =>
      dsimp only
      unfold onRead
      rw [forall_prop_of_true isOpen]
      split
      · rename_i failed
        exact ⟨fun _ good => absurd good failed,fun _ => ⟨_,rfl⟩⟩
      · rename_i good
        rw [forall_prop_of_true (not_not.mp good)]
        exact (bind_defined fun _ => ⟨_,rfl⟩).trans (handleRequest_defined server s data)

end HttpSession

-- Both sessions over whole runs. The coroutine reads one header block, the first
-- in what it received. The other session may read several, since an OPTIONS
-- request starts it over; each is completed by some read.
theorem analyzeHeader_returns_iff {η : Type} (coServer : Handlers η) (server : Handlers HttpHandle) :
    (∀ received, (∃ result, (CoHttpSession.machine coServer).run received = .ok result) ↔
      HttpRequest.HeaderSliceable (CoHttpSession.delivered received)) ∧
    (∀ events, (∃ result, (HttpSession.machine server).run events = .ok result) ↔
      (HttpSession.machine server).Guarded (fun _ => HttpSession.ReadSliceable) events) :=
  ⟨CoHttpSession.runFrom_defined coServer {} rfl rfl rfl,
    (HttpSession.machine server).run_defined _ (HttpSession.step_defined server)⟩

def bareVersion : Bytes := ascii "GET / HTTP"++blankLine

-- "HTTP" may end the request line, and then the cut behind it throws.
theorem bareVersion_throws :
    ¬(∀ (server : Handlers Unit) received, ∃ result, (CoHttpSession.machine server).run received = .ok result) ∧
    ¬(∀ server events, ∃ result, (HttpSession.machine server).run events = .ok result) := by
  have unsliceable : ¬HttpRequest.HeaderSliceable bareVersion := by
    intro sliceable
    have block := sliceable 10 (by decide)
    have shape : split crlf (bareVersion.take 10) = [ascii "GET / HTTP"] := by decide
    have items : split (ascii " ") (ascii "GET / HTTP") = [ascii "GET",ascii "/",ascii "HTTP"] := by decide
    simp only [HttpRequest.Sliceable,shape,items] at block
    have good : HttpRequest.GoodTarget (ascii "/") := by
      intro pos found
      have missing : find? (ascii "?") (ascii "/") = none := by decide
      rw [missing] at found
      cases found
    have cut := (block good 0 (by decide)).1
    revert cut
    decide
  constructor
  · intro returns
    have sliceable := (CoHttpSession.runFrom_defined {} {} rfl rfl rfl [.ok bareVersion]).mp (returns {} _)
    exact unsliceable (by simpa [CoHttpSession.delivered] using sliceable)
  · intro returns
    have sliceable := ((HttpSession.machine {}).run_defined _ (HttpSession.step_defined {}) _).mp
      (returns {} [.read 0 bareVersion]) [] _ [] rfl {} [] rfl
    exact unsliceable (sliceable rfl rfl rfl)

end CoStream
