import CoStream.HttpCompletions
import CoStream.HttpReadHeader

namespace CoStream
open Foundation
namespace HttpSession

-- The reads of a session, and the calls on its response that a handler has kept
-- for later.
def arrivals (chunks : List Bytes) (calls : List ResponseCall) : List Event := chunks.map (.read 0)++calls.map .respond

-- The reads behind the first so many bytes.
def remaining : Nat → List Bytes → List Bytes
  | _,[] => []
  | size,chunk::rest => if size < chunk.length then chunk.drop size::rest else remaining (size-chunk.length) rest

-- A request with the body that it declares.
structure Complete (block body : Bytes) (request : HttpRequest) : Prop where
  ends : find? blankLine (block++blankLine) = some block.length
  accepted : HttpRequest.readHeader {} block = .ok (request,true)
  length : request.contentLength = body.length

-- Behind the first request the session says what a new one says that gets only
-- the bytes behind it. The completion of the answer to the first request, of so
-- many bytes, comes behind all reads and before the completions of the other
-- answer; a new session does not get it.
def LikeFresh (server : Handlers HttpHandle) (first : Bytes) (chunks : List Bytes) (calls : List ResponseCall) (size : Nat)
    (later : List Later) : Prop :=
  ∃ answer alone early s t, (heard server).run [.read 0 first] = .ok (alone,answer) ∧
    (heard server).run (arrivals chunks calls) = .ok (s,answer++early) ∧
    (heard server).run (arrivals (remaining first.length chunks) calls) = .ok (t,early) ∧ Agree server size later s t

-- The read that completes the header block of the first request ends where that
-- request ends.
def CutBehind (first : Bytes) (chunks : List Bytes) : Prop :=
  ∃ front chunk behind, chunks = front++chunk::behind ∧ front.flatten++chunk = first ∧ find? blankLine front.flatten = none

-- The handler, if there is one, closes the response before it writes anything.
def Unanswered (server : Handlers HttpHandle) (request : HttpRequest) (body : Bytes) (calls : List ResponseCall) : Prop :=
  ∀ handler, (HttpServer.getHandle server request).2 = some handler →
    closesFirst (handler {HttpServer.route request with content:=body}++calls) = true

-- The answer of a new session to these reads outlasts what is completed besides.
def Lasting (server : Handlers HttpHandle) (chunks : List Bytes) (calls : List ResponseCall) (size : Nat) (later : List Later) : Prop :=
  ∀ t early, (heard server).run (arrivals chunks calls) = .ok (t,early) → Lasts server size later t

variable {server : Handlers HttpHandle} {s t : HttpSession}

theorem heard_ready (ready : s.headerIsReady = true) (stepped : step server s event = .ok (next,outputs)) :
    (heard server).step s event = .ok (next,shown outputs) := by
  refine (machine server).observe_step.mpr ⟨outputs,stepped,?_⟩
  unfold notes
  rw [parsing_skips (.inr ready)]
  rfl

theorem step_failed (server : Handlers HttpHandle) (isOpen : s.isClosed = false) (failed : retCode ≠ 0) (data : Bytes) :
    step server s (.read retCode data) = .ok s.close := by
  unfold step onRead
  rw [if_neg (by simp [isOpen])]
  exact if_pos failed

theorem step_written (server : Handlers HttpHandle) (isOpen : s.isClosed = false) (retCode : Int) (sentSize : Nat) :
    step server s (.written retCode sentSize) = .ok (s.onWrite retCode sentSize) := if_neg (by simp [isOpen])

theorem heard_step (stepped : step server s event = .ok result) :
    (heard server).step s event = .ok (result.1,notes s event result.2) := map_ok.mpr ⟨result,stepped,rfl⟩

theorem heard_waiting (server : Handlers HttpHandle) (s : HttpSession) (front : List Bytes)
    (isOpen : s.isClosed = false) (waiting : s.headerIsReady = false)
    (missing : find? blankLine (s.headerData++front.flatten) = none) : ∃ continueFlag,
    (heard server).runFrom s (front.map (.read 0)) = .ok ({s with headerData:=s.headerData++front.flatten,continueFlag},[]) := by
  induction front generalizing s with
  | nil => exact ⟨s.continueFlag,by simp⟩
  | cons data front ih =>
    rw [List.flatten_cons,← List.append_assoc] at missing
    have stepped := step_waiting server s data isOpen waiting (find?_none_of_append missing)
    obtain ⟨flag,continued⟩ := ih {s with headerData:=s.headerData++data,continueFlag:=true} isOpen waiting missing
    rw [List.append_assoc,← List.flatten_cons] at continued
    refine ⟨flag,(heard server).runFrom_cons.mpr ⟨_,_,[],heard_step stepped,continued,?_⟩⟩
    have unparsed : s.parsing (.read 0 data) = none := by
      unfold parsing analyzeHeader
      dsimp only
      rw [if_neg (by simp [isOpen,waiting]),find?_none_of_append missing]
      dsimp only
      rw [if_neg (by simp)]
    unfold notes
    rw [unparsed]
    rfl

-- The session at the end of HandleRequest's first part, when a header block has
-- come in from these bytes.
def taken (s : HttpSession) (received : Bytes) (pos : Nat) (request : HttpRequest) : HttpSession :=
  {s with
    headerData:=received
    request
    contentStart:=pos+4
    headerIsReady:=true
    continueFlag:=true
    contentData:=s.contentData++received.drop (pos+4)}

theorem heard_block (server : Handlers HttpHandle) (s : HttpSession) (front : List Bytes) (chunk : Bytes)
    (isOpen : s.isClosed = false) (waiting : s.headerIsReady = false)
    (empty : s.headerData = []) (absent : find? blankLine front.flatten = none)
    (complete : find? blankLine (front.flatten++chunk) = some pos)
    (read : s.request.readHeader ((front.flatten++chunk).take pos) = .ok (filled,true)) :
    (heard server).runFrom s ((front++[chunk]).map (.read 0)) =
      .ok ((settle (dispatch server (s.taken (front.flatten++chunk) pos filled))).1,
        .parsed filled::shown (settle (dispatch server (s.taken (front.flatten++chunk) pos filled))).2) := by
  obtain ⟨flag,waited⟩ := heard_waiting server s front isOpen waiting (by rw [empty]; exact absent)
  rw [empty,List.nil_append] at waited
  have stepped := step_found server {s with headerData:=front.flatten,continueFlag:=flag} chunk filled isOpen waiting complete read
  have analyzed := analyzeHeader_found {s with headerData:=front.flatten,continueFlag:=flag} chunk filled complete read
  rw [List.map_append,List.map_singleton]
  refine (heard server).runFrom_snoc.mpr ⟨_,[],_,waited,heard_step stepped,?_⟩
  have parsed : parsing {s with headerData:=front.flatten,continueFlag:=flag} (.read 0 chunk) = some filled := by
    unfold parsing
    dsimp only
    rw [if_neg (by simp [isOpen,waiting]),analyzed]
    rfl
  unfold notes
  rw [parsed]
  rfl

-- The response to a preflight, written, and what was written.
def preflighted : HttpResponse × List Bytes :=
  (({response:=some {}} : HttpSession).respondAll (optionsCalls.take 5)).1.response.getD {} |>.write [] false

theorem answered (s : HttpSession) (unanswered : s.response = none) : settle s.answerOptions =
    ({s with response:=some preflighted.1,headerIsReady:=false,continueFlag:=true,headerData:=[]},
      preflighted.2.map .wrote++[.tryRead]) := by
  unfold answerOptions settle preflighted
  rw [unanswered]
  simp only [Option.getD_none,Option.getD_some,optionsCalls,respondAll,respond,List.take,List.nil_append,List.append_nil]
  rw [if_neg (by decide)]
  rfl

-- The bytes of that answer, which the response counts.
def preflightSize : Nat := preflighted.2.flatten.length

theorem preflighted_remain : preflighted.1.remainBytes = preflightSize ∧ preflighted.1.continueFlag = false := by decide +kernel

-- A response that has been written once answers no second preflight.
def preflightedTwice : HttpResponse :=
  (({response:=some preflighted.1} : HttpSession).respondAll optionsCalls).1.response.getD {}

theorem answered_again (s : HttpSession) (written : s.response = some preflighted.1) : settle s.answerOptions =
    ({s with response:=some preflightedTwice,headerIsReady:=false,continueFlag:=true,headerData:=[]},[.tryRead]) := by
  unfold answerOptions settle preflightedTwice
  rw [written]
  simp only [Option.getD_some,optionsCalls,respondAll,respond,List.nil_append,List.append_nil]
  rw [if_neg (by decide)]
  rfl

-- The session behind a preflight: it waits for a header, and of the old request
-- its maps, its length and its body are still there, and the response.
structure Behind (s : HttpSession) (left : Bytes) (options : HttpRequest) : Prop where
  isOpen : s.isClosed = false
  waiting : s.headerIsReady = false
  empty : s.headerData = []
  left : s.contentData = left
  request : s.request = options
  response : s.response = some preflighted.1

theorem heard_options (server : Handlers HttpHandle) (front : List Bytes) (chunk : Bytes) (first : Complete block body options)
    (method : options.method = ascii "OPTIONS") (whole : front.flatten++chunk = block++blankLine++body)
    (absent : find? blankLine front.flatten = none) : ∃ s,
    (heard server).run ((front++[chunk]).map (.read 0)) = .ok (s,.parsed options::preflighted.2.map .wrote) ∧
      Behind s body options := by
  have complete : find? blankLine (front.flatten++chunk) = some block.length := by
    rw [whole]
    exact find?_append first.ends body
  have taken : (front.flatten++chunk).take block.length = block := by rw [whole]; simp
  have heardBlock := heard_block server {} front chunk rfl rfl rfl absent complete
    (by rw [taken]; exact first.accepted)
  have dispatched : dispatch server (HttpSession.taken {} (front.flatten++chunk) block.length options) = answerOptions _ := if_pos method
  have quiet : shown [Output.tryRead] = [] := rfl
  rw [dispatched,answered _ rfl,shown_append,shown_wrote,quiet,List.append_nil] at heardBlock
  refine ⟨_,heardBlock,⟨rfl,rfl,rfl,?_,rfl,rfl⟩⟩
  unfold HttpSession.taken
  dsimp only
  rw [whole,List.nil_append]
  exact List.drop_left' (by rw [List.length_append]; rfl)

theorem finishWrite_dressed (s : HttpSession) (content : Bytes) (flag : Bool) (sentSize : Nat) : ∃ after,
    (s.dressed content flag).finishWrite sentSize = ((s.finishWrite sentSize).1.dressed content after,(s.finishWrite sentSize).2) := by
  cases held : s.response with
  | none =>
    have bare : (s.dressed content flag).response = none := held
    unfold finishWrite
    rw [held,bare]
    exact ⟨flag,rfl⟩
  | some r =>
    have same : (s.dressed content flag).response = some r := held
    unfold finishWrite
    rw [held,same]
    dsimp only
    split
    · exact ⟨r.continueFlag,rfl⟩
    · refine ⟨r.continueFlag,?_⟩
      exact close_dressed {s with response:=some {r with remainBytes:=r.remainBytes-sentSize},continueFlag:=r.continueFlag} content
        r.continueFlag

theorem onWrite_dressed (s : HttpSession) (content : Bytes) (flag : Bool) (retCode : Int) (sentSize : Nat) : ∃ after,
    (s.dressed content flag).onWrite retCode sentSize =
      ((s.onWrite retCode sentSize).1.dressed content after,(s.onWrite retCode sentSize).2) := by
  unfold onWrite
  dsimp only
  split
  · rw [close_dressed]
    obtain ⟨after,same⟩ := finishWrite_dressed s.close.1 content flag sentSize
    dsimp only
    rw [same]
    exact ⟨after,rfl⟩
  · obtain ⟨after,same⟩ := finishWrite_dressed s content flag sentSize
    dsimp only
    rw [same]
    exact ⟨after,rfl⟩

theorem settle_dressed (s : HttpSession) (content : Bytes) (flag : Bool) (outputs : List Output) (ret : Int) :
    (settle (s.dressed content flag,outputs,ret)).1 = (settle (s,outputs,ret)).1.dressed content flag ∧
      shown (settle (s.dressed content flag,outputs,ret)).2 = shown (settle (s,outputs,ret)).2 := by
  unfold settle
  dsimp only
  split
  · rw [close_dressed]
    exact ⟨rfl,rfl⟩
  · refine ⟨rfl,?_⟩
    rw [shown_append,shown_append]
    split <;> split <;> rfl

-- Of a GET the content does not matter, neither before nor behind the call.
def Alike (s t : HttpSession) : Prop :=
  (s.isClosed = true ∧ t.isClosed = true) ∨
  (t.headerIsReady = true ∧ t.request.method = ascii "GET" ∧ ∃ content flag, s = t.dressed content flag)

theorem Alike.kept {next : HttpSession} (same : SameBlock next t) (ready : t.headerIsReady = true)
    (method : t.request.method = ascii "GET") (content : Bytes) (flag : Bool) : Alike (next.dressed content flag) next :=
  .inr ⟨same.1.trans ready,same.2.trans method,content,flag,rfl⟩

theorem settle_refused (isOpen : s.isClosed = false) :
    (settle (s,[],-1)).1.isClosed = true ∧ shown (settle (s,[],-1)).2 = [.closed] := by
  unfold settle close
  dsimp only
  rw [if_pos (by decide),if_neg (by simp [isOpen])]
  exact ⟨rfl,rfl⟩

-- The session in which the handler of a GET is called.
def asked (s : HttpSession) : HttpSession := {s with request:=HttpServer.route s.request,response:=some {}}

theorem callHandle_dressed (s : HttpSession) (content : Bytes) (flag : Bool) (handler : HttpHandle) :
    callHandle (s.dressed content flag) handler =
      ((callHandle s handler).1.dressed content (callHandle s handler).1.continueFlag,(callHandle s handler).2) := by
  unfold callHandle
  dsimp only
  rw [respondAll_dressed]
  rfl

theorem dispatch_alike (server : Handlers HttpHandle) (t : HttpSession) (content : Bytes) (flag : Bool)
    (response : Option HttpResponse) (isOpen : t.isClosed = false) (ready : t.headerIsReady = true)
    (method : t.request.method = ascii "GET") :
    shown (settle (dispatch server {t.dressed content flag with response})).2 = shown (settle (dispatch server t)).2 ∧
      Alike (settle (dispatch server {t.dressed content flag with response})).1 (settle (dispatch server t)).1 := by
  cases found : (HttpServer.getHandle server t.request).2 with
  | none =>
    have notOptions : t.request.method ≠ ascii "OPTIONS" := by rw [method]; decide
    have first : dispatch server {t.dressed content flag with response} = _ := dispatch_refused notOptions (.inl method) found
    rw [first,dispatch_refused notOptions (.inl method) found]
    obtain ⟨shutFirst,saidFirst⟩ := settle_refused
      (s:={{t.dressed content flag with response} with request:=HttpServer.route t.request}) isOpen
    obtain ⟨shutSecond,saidSecond⟩ := settle_refused (s:={t with request:=HttpServer.route t.request}) isOpen
    exact ⟨saidFirst.trans saidSecond.symm,.inl ⟨shutFirst,shutSecond⟩⟩
  | some handler =>
    have first : dispatch server {t.dressed content flag with response} = callHandle (t.asked.dressed content flag) handler :=
      dispatch_get server _ method found
    have second : dispatch server t = callHandle t.asked handler := dispatch_get server t method found
    obtain ⟨same,sameShown⟩ := settle_dressed (callHandle t.asked handler).1 content (callHandle t.asked handler).1.continueFlag
      (callHandle t.asked handler).2.1 (callHandle t.asked handler).2.2
    rw [first,second,callHandle_dressed]
    refine ⟨sameShown,?_⟩
    rw [same]
    exact Alike.kept (callHandle_untouched t.asked handler).block ready method _ _

theorem Alike.step (ready : t.headerIsReady = true) (method : t.request.method = ascii "GET")
    (stepped : HttpSession.step server t event = .ok result) (kept : SameBlock result.1 t) (content : Bytes) (flag after : Bool)
    (follows : HttpSession.step server (t.dressed content flag) event = .ok (result.1.dressed content after,result.2)) :
    ∃ next following emitted, (heard server).step (t.dressed content flag) event = .ok (next,emitted) ∧
      (heard server).step t event = .ok (following,emitted) ∧ Alike next following :=
  ⟨_,_,_,heard_ready ready follows,heard_ready ready stepped,Alike.kept kept ready method content after⟩

theorem alike_step (server : Handlers HttpHandle) (s t : HttpSession) (event : Event) (alike : Alike s t) :
    ∃ next following emitted, (heard server).step s event = .ok (next,emitted) ∧
      (heard server).step t event = .ok (following,emitted) ∧ Alike next following := by
  rcases alike with ⟨first,second⟩ | ⟨ready,method,content,flag,rfl⟩
  · exact ⟨s,t,[],closed_step server first event,closed_step server second event,.inl ⟨first,second⟩⟩
  · cases isOpen : t.isClosed with
    | true =>
      have first : (t.dressed content flag).isClosed = true := isOpen
      exact ⟨_,t,[],closed_step server first event,closed_step server isOpen event,.inl ⟨first,isOpen⟩⟩
    | false =>
      have first : (t.dressed content flag).isClosed = false := isOpen
      cases event with
      | read retCode data =>
        by_cases good : retCode = 0
        · subst good
          obtain ⟨sameShown,alike⟩ := dispatch_alike server {t with contentData:=t.contentData++data,continueFlag:=true}
            (content++data) true t.response isOpen ready method
          refine ⟨_,_,_,heard_ready ready (step_body server _ data first ready),?_,alike⟩
          rw [heard_ready ready (step_body server t data isOpen ready)]
          exact congrArg Except.ok (Prod.ext rfl sameShown.symm)
        · refine Alike.step ready method (step_failed server isOpen good data) (close_untouched t).block content flag flag ?_
          rw [step_failed server first good data,close_dressed]
      | written retCode sentSize =>
        obtain ⟨after,same⟩ := onWrite_dressed t content flag retCode sentSize
        refine Alike.step ready method (step_written server isOpen retCode sentSize) (onWrite_untouched t retCode sentSize).2.block content
          flag after ?_
        rw [step_written server first,same]
      | respond call =>
        refine Alike.step ready method (step_respond server isOpen call) (respond_untouched t call).block content flag flag ?_
        rw [step_respond server first,respond_dressed]

-- The calls of the handler and those it keeps for later are one list.
theorem heard_called (server : Handlers HttpHandle) (handler : HttpHandle) (later : List ResponseCall) (tidy : Tidy s) :
    ∃ final notes, (heard server).runFrom (settle (callHandle s handler)).1 (later.map .respond) = .ok (final,notes) ∧
      shown (settle (callHandle s handler)).2++notes =
        .called handler s.request::shown (s.respondAll (handler s.request++later)).2 ∧
      (final.isClosed = true ∧ (s.respondAll (handler s.request++later)).1.isClosed = true ∨
        ∃ content flag, final = (s.respondAll (handler s.request++later)).1.dressed content flag) := by
  have behind : ∃ flag, (settle (callHandle s handler)).1 =
      (s.respondAll (handler s.request)).1.dressed (s.respondAll (handler s.request)).1.contentData flag ∧
      shown (settle (callHandle s handler)).2 = .called handler s.request::shown (s.respondAll (handler s.request)).2 := by
    refine ⟨_,rfl,?_⟩
    unfold settle callHandle
    dsimp only
    rw [if_neg (by decide),shown_append]
    split
    · exact List.append_nil _
    · exact List.append_nil _
  obtain ⟨flag,state,told⟩ := behind
  obtain ⟨r,held,shut⟩ := respondAll_tidy (handler s.request) tidy
  obtain ⟨final,continued,reached⟩ := heard_later server later
    (s:=(s.respondAll (handler s.request)).1.dressed (s.respondAll (handler s.request)).1.contentData flag) ⟨r,held,shut⟩
  rw [state,told]
  refine ⟨final,_,continued,?_,?_⟩
  · rw [respondAll_dressed,respondAll_append,shown_append,List.cons_append]
  · rw [respondAll_dressed] at reached
    rw [respondAll_append]
    rcases reached with closed | same
    · exact .inl closed
    · exact .inr ⟨_,_,same⟩

theorem settle_waits (s : HttpSession) : (settle (s,[],0)).1 = s ∧ shown (settle (s,[],0)).2 = [] := by
  unfold settle
  refine ⟨rfl,?_⟩
  dsimp only
  rw [if_neg (by decide)]
  dsimp only
  split <;> rfl

theorem tidy_open (isOpen : s.isClosed = false) (held : s.response = some r) : Tidy s :=
  ⟨r,held,fun closed => by simp [isOpen] at closed⟩

theorem agree_closed (server : Handlers HttpHandle) (first : s.isClosed = true) (second : t.isClosed = true) (size : Nat)
    (later : List Later) : Agree server size later s t :=
  (agree_iff server size later (.inl ⟨first,second⟩)).mpr
    ⟨fun opened => by simp [second] at opened,outlasts_closed server second size later⟩

variable {size : Nat} {later : List Later}

-- The completion of a preflight's answer closes the session where its response
-- has got nothing else to write.
theorem disagree_written (opened : s.isClosed = false) (held : s.response = some r) (finished : r.continueFlag = false)
    (none : r.remainBytes ≤ size) : ¬ Agree server size later s t := by
  rintro ⟨next,stepped,-⟩
  have closes := heard_written server opened 0 size
  rw [onWrite_success opened held,if_neg (by simp only [finished,Bool.false_or,decide_eq_true_eq]; omega)] at closes
  cases stepped.symm.trans closes

-- What two sessions say, behind what they have said, and that they agree on what
-- comes later.
def Matches (server : Handlers HttpHandle) (size : Nat) (later : List Later) (events : List Event) (s t : HttpSession)
    (one two : List Note) : Prop :=
  ∃ x y first second, (heard server).runFrom s events = .ok (x,first) ∧ (heard server).runFrom t events = .ok (y,second) ∧
    one++first = two++second ∧ Agree server size later x y

theorem matches_of_run {x y : HttpSession} (first : (heard server).runFrom s events = .ok (x,ends))
    (second : (heard server).runFrom t events = .ok (y,others)) :
    Matches server size later events s t one two ↔ one++ends = two++others ∧ Agree server size later x y := by
  constructor
  · rintro ⟨_,_,_,_,ranFirst,ranSecond,both⟩
    cases first.symm.trans ranFirst
    cases second.symm.trans ranSecond
    exact both
  · exact fun both => ⟨x,y,ends,others,first,second,both⟩

theorem matches_behind {x y : HttpSession} (first : (heard server).runFrom s front = .ok (x,ends))
    (second : (heard server).runFrom t front = .ok (y,others)) :
    Matches server size later (front++events) s t one two ↔ Matches server size later events x y (one++ends) (two++others) := by
  constructor
  · rintro ⟨u,v,_,_,ranFirst,ranSecond,same,agree⟩
    obtain ⟨_,_,restFirst,frontFirst,behindFirst,rfl⟩ := (heard server).runFrom_append.mp ranFirst
    obtain ⟨_,_,restSecond,frontSecond,behindSecond,rfl⟩ := (heard server).runFrom_append.mp ranSecond
    cases first.symm.trans frontFirst
    cases second.symm.trans frontSecond
    exact ⟨u,v,_,_,behindFirst,behindSecond,by rw [List.append_assoc,List.append_assoc]; exact same,agree⟩
  · rintro ⟨u,v,_,_,ranFirst,ranSecond,same,agree⟩
    rw [List.append_assoc,List.append_assoc] at same
    exact ⟨u,v,_,_,(heard server).runFrom_append.mpr ⟨x,_,_,first,ranFirst,rfl⟩,
      (heard server).runFrom_append.mpr ⟨y,_,_,second,ranSecond,rfl⟩,same,agree⟩

-- A handler that writes nothing and does not close leaves its response to the
-- completion of the preflight's answer.
theorem disagree_stays {final last : HttpSession} (isOpen : s.isClosed = false) (held : s.response = some preflighted.1)
    (quiet : writesNothing given = true) (stays : closesFirst given = false)
    (ends : final.isClosed = true ∧ (s.respondAll given).1.isClosed = true ∨
      ∃ content flag, final = (s.respondAll given).1.dressed content flag)
    (whole : preflightSize ≤ size) : ¬ Agree server size later final last := by
  obtain ⟨changed,same,flag,remain⟩ := respondAll_fields _ quiet stays held
  rw [same] at ends
  obtain ⟨content,dress,rfl⟩ := ends.resolve_left fun both => absurd (isOpen.symm.trans both.2) (by decide)
  obtain ⟨counts,finished⟩ := preflighted_remain
  refine disagree_written isOpen rfl (flag.trans finished) ?_
  rw [remain,counts]
  exact Int.ofNat_le.mpr whole

-- The read that completes the body, with the response of the preflight and
-- without one.
theorem matches_complete (server : Handlers HttpHandle) (calls : List ResponseCall) (s : HttpSession) (isOpen : s.isClosed = false)
    (notOptions : s.request.method ≠ ascii "OPTIONS") (notGet : s.request.method ≠ ascii "GET") (fresh : s.response = none)
    (enough : toInt s.contentData.length ≥ s.request.contentLength) (whole : preflightSize ≤ size) :
    Matches server size later (calls.map .respond) (settle (dispatch server {s with response:=some preflighted.1})).1
        (settle (dispatch server s)).1 (shown (settle (dispatch server {s with response:=some preflighted.1})).2)
        (shown (settle (dispatch server s)).2) ↔ Unanswered server s.request s.contentData calls := by
  cases found : (HttpServer.getHandle server s.request).2 with
  | none =>
    have first : dispatch server {s with response:=some preflighted.1} = _ := dispatch_refused notOptions (.inr enough) found
    rw [first,dispatch_refused notOptions (.inr enough) found]
    obtain ⟨shutFirst,saidFirst⟩ := settle_refused
      (s:={{s with response:=some preflighted.1} with request:=HttpServer.route s.request}) isOpen
    obtain ⟨shutSecond,saidSecond⟩ := settle_refused (s:={s with request:=HttpServer.route s.request}) isOpen
    rw [matches_of_run (heard_closed server shutFirst _) (heard_closed server shutSecond _),saidFirst,saidSecond]
    constructor
    · intro _ handler registered
      rw [found] at registered
      cases registered
    · exact fun _ => ⟨rfl,agree_closed server shutFirst shutSecond size later⟩
  | some handler =>
    have first : dispatch server {s with response:=some preflighted.1} = callHandle _ handler :=
      dispatch_posted notOptions notGet enough found
    rw [first,dispatch_posted notOptions notGet enough found]
    have created : s.posted.response = some {} := by
      unfold posted
      rw [fresh]
      rfl
    have twin : Twin (posted {s with response:=some preflighted.1}) s.posted preflighted.1 {} :=
      ⟨⟨rfl,created⟩,⟨isOpen,isOpen⟩,⟨rfl,rfl⟩,⟨rfl,rfl⟩,rfl⟩
    obtain ⟨final,one,continued,toldFirst,endFirst⟩ := heard_called server handler calls
      (s:=posted {s with response:=some preflighted.1}) (tidy_open isOpen rfl)
    obtain ⟨last,two,behind,toldSecond,endSecond⟩ := heard_called server handler calls (s:=s.posted) (tidy_open isOpen created)
    rw [matches_of_run continued behind,toldFirst,toldSecond]
    obtain ⟨silent,spoken⟩ := respondAll_unwritten (handler s.posted.request++calls) twin rfl
    constructor
    · rintro ⟨equal,agree⟩ other registered
      obtain rfl := Option.some.inj (found.symm.trans registered)
      have quiet : writesNothing (handler s.posted.request++calls) = true := by
        by_contra loud
        have longer := spoken (Bool.eq_false_iff.mpr loud)
        have lengths := congrArg List.length equal
        simp only [List.length_cons] at lengths
        exact Nat.succ_ne_self _ (longer.symm.trans (Nat.succ.inj lengths).symm)
      by_contra stays
      exact disagree_stays (s:=posted {s with response:=some preflighted.1}) isOpen rfl quiet (Bool.eq_false_iff.mpr stays)
        endFirst whole agree
    · intro unanswered
      have closes := unanswered handler found
      have shutFirst : final.isClosed = true := by
        rcases endFirst with ⟨closed,-⟩ | ⟨content,flag,rfl⟩
        · exact closed
        · exact respondAll_closes _ closes (s:=posted {s with response:=some preflighted.1}) rfl rfl
      have shutSecond : last.isClosed = true := by
        rcases endSecond with ⟨closed,-⟩ | ⟨content,flag,rfl⟩
        · exact closed
        · exact respondAll_closes _ closes (s:=s.posted) created rfl
      refine ⟨?_,agree_closed server shutFirst shutSecond size later⟩
      exact congrArg (fun outputs => Note.called handler s.posted.request::shown outputs) (silent (closesFirst_quiet _ closes))

-- From the header on, read by read.
theorem matches_body (server : Handlers HttpHandle) (calls : List ResponseCall) (body : Bytes) (small : body.length < 2^31)
    (rest : List Bytes) (filled : ∀ chunk ∈ rest, chunk ≠ []) (s : HttpSession) (isOpen : s.isClosed = false)
    (ready : s.headerIsReady = true) (notOptions : s.request.method ≠ ascii "OPTIONS")
    (notGet : s.request.method ≠ ascii "GET") (fresh : s.response = none) (length : s.request.contentLength = body.length)
    (cut : s.contentData++rest.flatten = body) (whole : preflightSize ≤ size) :
    Matches server size later (arrivals rest calls) (settle (dispatch server {s with response:=some preflighted.1})).1
        (settle (dispatch server s)).1 (shown (settle (dispatch server {s with response:=some preflighted.1})).2)
        (shown (settle (dispatch server s)).2) ↔ Unanswered server s.request body calls := by
  induction rest generalizing s with
  | nil =>
    rw [List.flatten_nil,List.append_nil] at cut
    have same : toInt (s.contentData.length : Int) = s.contentData.length := toInt_fits (by rw [cut]; constructor <;> omega)
    have enough : toInt s.contentData.length ≥ s.request.contentLength := Int.le_of_eq (by rw [same,length,cut])
    rw [← cut]
    exact matches_complete server calls s isOpen notOptions notGet fresh enough whole
  | cons data rest ih =>
    have longer := List.length_pos_iff.mpr (filled data List.mem_cons_self)
    rw [List.flatten_cons,← List.append_assoc] at cut
    have total := congrArg List.length cut
    rw [List.length_append,List.length_append] at total
    have same : toInt (s.contentData.length : Int) = s.contentData.length := toInt_fits (by constructor <;> omega)
    have waits : ¬ (s.request.method = ascii "GET" ∨ toInt s.contentData.length ≥ s.request.contentLength) := by
      rintro (get | enough)
      · exact notGet get
      · omega
    have first : dispatch server {s with response:=some preflighted.1} = ({s with response:=some preflighted.1},[],0) :=
      dispatch_waits notOptions waits
    rw [first,dispatch_waits notOptions waits,(settle_waits _).1,(settle_waits _).2,(settle_waits s).1,(settle_waits s).2]
    have steppedFirst := heard_ready (s:={s with response:=some preflighted.1}) ready (step_body server _ data isOpen ready)
    have steppedSecond := heard_ready ready (step_body server s data isOpen ready)
    have continued := ih (fun chunk member => filled chunk (List.mem_cons_of_mem _ member))
      {s with contentData:=s.contentData++data,continueFlag:=true} isOpen ready notOptions notGet fresh length cut
    have shape : arrivals (data::rest) calls = [.read 0 data]++arrivals rest calls := rfl
    rw [shape,matches_behind ((heard server).runFrom_cons.mpr ⟨_,_,[],steppedFirst,rfl,rfl⟩)
      ((heard server).runFrom_cons.mpr ⟨_,_,[],steppedSecond,rfl,rfl⟩)]
    rw [List.nil_append,List.nil_append,List.append_nil,List.append_nil]
    exact continued

theorem remaining_front (front behind : List Bytes) (filled : ∀ chunk ∈ behind, chunk ≠ []) :
    remaining front.flatten.length (front++behind) = behind := by
  induction front with
  | nil =>
    cases behind with
    | nil => rfl
    | cons chunk rest =>
      have longer := List.length_pos_iff.mpr (filled chunk List.mem_cons_self)
      exact if_pos longer
  | cons chunk front ih =>
    rw [List.flatten_cons,List.length_append,List.cons_append,remaining,if_neg (by omega),Nat.add_sub_cancel_left]
    exact ih

-- With the cut where it should be, all that matters is what the session behind
-- the preflight says compared to a new one.
theorem likeFresh_cut (server : Handlers HttpHandle) (first : Complete block body options) (method : options.method = ascii "OPTIONS")
    (front : List Bytes) (chunk : Bytes) (behind : List Bytes) (filled : ∀ chunk ∈ behind, chunk ≠ [])
    (whole : front.flatten++chunk = block++blankLine++body) (absent : find? blankLine front.flatten = none)
    (calls : List ResponseCall) (size : Nat) (later : List Later) : ∃ s, Behind s body options ∧
    (LikeFresh server (block++blankLine++body) (front++chunk::behind) calls size later ↔
      Matches server size later (arrivals behind calls) s {} [] []) := by
  obtain ⟨s,ran,state⟩ := heard_options server front chunk first method whole absent
  obtain ⟨solo,alone,-⟩ := heard_options server [] (block++blankLine++body) first method rfl rfl
  refine ⟨s,state,?_⟩
  have shape : arrivals (front++chunk::behind) calls = (front++[chunk]).map (.read 0)++arrivals behind calls := by
    simp [arrivals]
  have rest : remaining (block++blankLine++body).length (front++chunk::behind) = behind := by
    have split := remaining_front (front++[chunk]) behind filled
    rw [List.flatten_append,List.flatten_singleton,whole,← List.append_cons] at split
    exact split
  unfold LikeFresh
  rw [rest,shape]
  constructor
  · rintro ⟨answer,_,early,u,t,aloneAgain,ranFirst,ranSecond,agree⟩
    cases alone.symm.trans aloneAgain
    obtain ⟨_,_,late,frontRan,behindRan,same⟩ := (heard server).runFrom_append.mp ranFirst
    cases ran.symm.trans frontRan
    obtain rfl := List.append_cancel_left same
    exact ⟨u,t,_,_,behindRan,ranSecond,rfl,agree⟩
  · rintro ⟨u,t,early,_,ranFirst,ranSecond,same,agree⟩
    rw [List.nil_append,List.nil_append] at same
    rw [← same] at ranSecond
    exact ⟨_,solo,early,u,t,alone,(heard server).runFrom_append.mpr ⟨s,_,_,ran,ranFirst,rfl⟩,ranSecond,agree⟩

theorem matches_block (server : Handlers HttpHandle) (s t : HttpSession) (front : List Bytes) (chunk : Bytes) (rest : List Bytes)
    (isOpen : s.isClosed = false ∧ t.isClosed = false) (waiting : s.headerIsReady = false ∧ t.headerIsReady = false)
    (empty : s.headerData = [] ∧ t.headerData = []) (absent : find? blankLine front.flatten = none)
    (complete : find? blankLine (front.flatten++chunk) = some pos)
    (readFirst : s.request.readHeader ((front.flatten++chunk).take pos) = .ok (filled,true))
    (readSecond : t.request.readHeader ((front.flatten++chunk).take pos) = .ok (other,true)) (calls : List ResponseCall) :
    Matches server size later (arrivals (front++chunk::rest) calls) s t [] [] ↔
      Matches server size later (arrivals rest calls) (settle (dispatch server (s.taken (front.flatten++chunk) pos filled))).1
        (settle (dispatch server (t.taken (front.flatten++chunk) pos other))).1
        (.parsed filled::shown (settle (dispatch server (s.taken (front.flatten++chunk) pos filled))).2)
        (.parsed other::shown (settle (dispatch server (t.taken (front.flatten++chunk) pos other))).2) := by
  have shape : arrivals (front++chunk::rest) calls = (front++[chunk]).map (.read 0)++arrivals rest calls := by simp [arrivals]
  rw [shape]
  exact matches_behind (heard_block server s front chunk isOpen.1 waiting.1 empty.1 absent complete readFirst)
    (heard_block server t front chunk isOpen.2 waiting.2 empty.2 absent complete readSecond)

theorem matches_cons (note : Note) : Matches server size later events s t (note::one) (note::two) ↔
    Matches server size later events s t one two := by
  constructor
  · rintro ⟨x,y,first,second,ranFirst,ranSecond,same,agree⟩
    exact ⟨x,y,first,second,ranFirst,ranSecond,(List.cons.inj same).2,agree⟩
  · rintro ⟨x,y,first,second,ranFirst,ranSecond,same,agree⟩
    exact ⟨x,y,first,second,ranFirst,ranSecond,congrArg (note::·) same,agree⟩

variable {block body left : Bytes} {options request : HttpRequest}

-- A GET gets a response of its own, and the old content does not matter to it.
-- What is left is the completion that is charged to it.
theorem matches_get (server : Handlers HttpHandle) (state : Behind s left options) (following : Complete block body request)
    (method : request.method = ascii "GET") (read : options.readHeader block = .ok (request,true)) (behind : List Bytes)
    (cut : behind.flatten = block++blankLine++body) (calls : List ResponseCall) :
    Matches server size later (arrivals behind calls) s {} [] [] ↔ Lasting server behind calls size later := by
  obtain ⟨front,chunk,rest,rfl,absent,complete,taken,-⟩ := find?_cut behind (by decide) following.ends cut
  rw [matches_block server s {} front chunk rest ⟨state.isOpen,rfl⟩ ⟨state.waiting,rfl⟩ ⟨state.empty,rfl⟩ absent complete
    (by rw [taken,state.request]; exact read) (by rw [taken]; exact following.accepted),matches_cons]
  have dressedUp : s.taken (front.flatten++chunk) block.length request =
      {(HttpSession.taken {} (front.flatten++chunk) block.length request).dressed
        (s.contentData++(front.flatten++chunk).drop (block.length+4)) true with response:=s.response} := by
    unfold HttpSession.taken dressed
    rw [state.isOpen]
  obtain ⟨sameShown,alike⟩ := dispatch_alike server (HttpSession.taken {} (front.flatten++chunk) block.length request)
    (s.contentData++(front.flatten++chunk).drop (block.length+4)) true s.response rfl rfl method
  obtain ⟨final,last,outputs,first,second,related⟩ := (heard server).lockstep Alike (alike_step server) (arrivals rest calls) alike
  rw [dressedUp,matches_of_run first second,sameShown]
  have agrees := agree_iff server size later (s:=final) (t:=last) (related.imp id fun both => both.2.2)
  have fresh := heard_block server {} front chunk rfl rfl rfl absent complete (by rw [taken]; exact following.accepted)
  have shape : arrivals (front++chunk::rest) calls = (front++[chunk]).map (.read 0)++arrivals rest calls := by simp [arrivals]
  have ran := (heard server).runFrom_append.mpr ⟨_,_,_,fresh,second,rfl⟩
  rw [← shape] at ran
  constructor
  · rintro ⟨-,agree⟩ t early again
    cases ran.symm.trans again
    exact agrees.mp agree
  · intro lasting
    exact ⟨rfl,agrees.mpr (lasting last _ ran)⟩

-- Any other request is answered by the response that has been written already.
theorem matches_posted (server : Handlers HttpHandle) (state : Behind s [] options) (following : Complete block body request)
    (notOptions : request.method ≠ ascii "OPTIONS") (notGet : request.method ≠ ascii "GET")
    (read : options.readHeader block = .ok (request,true)) (behind : List Bytes) (filled : ∀ chunk ∈ behind, chunk ≠ [])
    (cut : behind.flatten = block++blankLine++body) (calls : List ResponseCall) (whole : preflightSize ≤ size) :
    Matches server size later (arrivals behind calls) s {} [] [] ↔ Unanswered server request body calls := by
  have small := HttpRequest.body_small rfl following.accepted body following.length
  obtain ⟨front,chunk,rest,rfl,absent,complete,taken,content⟩ := find?_cut behind (by decide) following.ends cut
  have written : s.taken (front.flatten++chunk) block.length request =
      {HttpSession.taken {} (front.flatten++chunk) block.length request with response:=some preflighted.1} := by
    unfold HttpSession.taken
    rw [state.isOpen,state.left,state.response]
  rw [matches_block server s {} front chunk rest ⟨state.isOpen,rfl⟩ ⟨state.waiting,rfl⟩ ⟨state.empty,rfl⟩ absent complete
    (by rw [taken,state.request]; exact read) (by rw [taken]; exact following.accepted),matches_cons,written]
  exact matches_body server calls body small rest (fun chunk member => filled chunk (by simp [member]))
    (HttpSession.taken {} (front.flatten++chunk) block.length request) rfl rfl notOptions notGet rfl following.length content whole

-- What is heard first is the request that was parsed.
theorem matches_covers (server : Handlers HttpHandle) (state : Behind s left options) (following : Complete block body request)
    (behind : List Bytes) (cut : behind.flatten = block++blankLine++body) (calls : List ResponseCall)
    (same : Matches server size later (arrivals behind calls) s {} [] []) : options.readHeader block = .ok (request,true) := by
  obtain ⟨merged,read,-⟩ := HttpRequest.readHeader_merged options following.accepted
  obtain ⟨front,chunk,rest,rfl,absent,complete,taken,-⟩ := find?_cut behind (by decide) following.ends cut
  rw [matches_block server s {} front chunk rest ⟨state.isOpen,rfl⟩ ⟨state.waiting,rfl⟩ ⟨state.empty,rfl⟩ absent complete
    (by rw [taken,state.request]; exact read) (by rw [taken]; exact following.accepted)] at same
  obtain ⟨_,_,_,_,-,-,equal,-⟩ := same
  obtain rfl := Note.parsed.inj (List.cons.inj equal).1
  exact read

-- A second preflight is not answered.
theorem matches_options (server : Handlers HttpHandle) (state : Behind s [] options) (following : Complete block [] request)
    (method : request.method = ascii "OPTIONS") (behind : List Bytes) (filled : ∀ chunk ∈ behind, chunk ≠ [])
    (cut : behind.flatten = block++blankLine++[]) (calls : List ResponseCall) :
    ¬ Matches server size later (arrivals behind calls) s {} [] [] := by
  obtain ⟨merged,read,merges⟩ := HttpRequest.readHeader_merged options following.accepted
  obtain ⟨front,chunk,rest,rfl,absent,complete,taken,content⟩ := find?_cut behind (by decide) following.ends cut
  have ended : rest = [] :=
    flatten_filled (fun chunk member => filled chunk (by simp [member])) (List.append_eq_nil_iff.mp content).2
  subst ended
  rw [matches_block server s {} front chunk [] ⟨state.isOpen,rfl⟩ ⟨state.waiting,rfl⟩ ⟨state.empty,rfl⟩ absent complete
    (by rw [taken,state.request]; exact read) (by rw [taken]; exact following.accepted)]
  have dispatchedFirst : dispatch server (s.taken (front.flatten++chunk) block.length merged) = answerOptions _ :=
    if_pos (merges.method.trans method)
  have dispatchedSecond : dispatch server (HttpSession.taken {} (front.flatten++chunk) block.length request) = answerOptions _ :=
    if_pos method
  have answeredFirst := answered_again (s.taken (front.flatten++chunk) block.length merged) state.response
  have answeredSecond := answered (HttpSession.taken {} (front.flatten++chunk) block.length request) rfl
  have twin : Twin (settle (s.taken (front.flatten++chunk) block.length merged).answerOptions).1
      (settle (HttpSession.taken {} (front.flatten++chunk) block.length request).answerOptions).1 preflightedTwice preflighted.1 := by
    rw [answeredFirst,answeredSecond]
    exact ⟨⟨rfl,rfl⟩,⟨state.isOpen,rfl⟩,⟨rfl,rfl⟩,⟨rfl,rfl⟩,rfl⟩
  obtain ⟨final,firstRan,-⟩ := heard_later server calls
    (s:=(settle (s.taken (front.flatten++chunk) block.length merged).answerOptions).1)
    ⟨_,twin.held.1,fun closed => by simp [twin.opened.1] at closed⟩
  obtain ⟨last,secondRan,-⟩ := heard_later server calls
    (s:=(settle (HttpSession.taken {} (front.flatten++chunk) block.length request).answerOptions).1)
    ⟨_,twin.held.2,fun closed => by simp [twin.opened.2] at closed⟩
  rw [dispatchedFirst,dispatchedSecond]
  rintro ⟨_,_,_,_,ranFirst,ranSecond,same,-⟩
  cases firstRan.symm.trans ranFirst
  cases secondRan.symm.trans ranSecond
  rw [respondAll_written calls twin rfl,answeredFirst,answeredSecond] at same
  have lengths := congrArg List.length same
  have wroteOne : preflighted.2.length = 1 := rfl
  have quiet : (shown [Output.tryRead]).length = 0 := rfl
  dsimp only at lengths
  rw [shown_append,shown_wrote] at lengths
  simp only [List.length_append,List.length_cons,List.length_map] at lengths
  omega

-- What it takes for a preflight to be forgotten.
structure Separate (server : Handlers HttpHandle) (options request : HttpRequest) (left body first : Bytes) (chunks : List Bytes)
    (calls : List ResponseCall) (size : Nat) (later : List Later) : Prop where
  cut : CutBehind first chunks
  covers : HttpRequest.Covers options request
  answer : (request.method = ascii "GET" ∧ Lasting server (remaining first.length chunks) calls size later) ∨
    (left = [] ∧ request.method ≠ ascii "OPTIONS" ∧ request.method ≠ ascii "GET" ∧ Unanswered server request body calls)

-- A preflight leaves a fresh session if the next request begins with a read of
-- its own, has the headers and parameters of the preflight itself, and is a GET
-- whose answer outlasts that of the preflight, or needs no response at all. Of a
-- preflight without a body that is cut off so, this is also necessary.
theorem preflight_leaves_fresh (server : Handlers HttpHandle) (optionsBlock left : Bytes) (options : HttpRequest)
    (first : Complete optionsBlock left options) (preflight : options.method = ascii "OPTIONS") (block body : Bytes)
    (request : HttpRequest) (following : Complete block body request) (chunks : List Bytes) (filled : ∀ chunk ∈ chunks, chunk ≠ [])
    (cut : chunks.flatten = (optionsBlock++blankLine++left)++(block++blankLine++body)) (calls : List ResponseCall) (size : Nat)
    (whole : preflightSize ≤ size) (later : List Later) :
    (Separate server options request left body (optionsBlock++blankLine++left) chunks calls size later →
      LikeFresh server (optionsBlock++blankLine++left) chunks calls size later) ∧
    (left = [] → (request.method = ascii "OPTIONS" → body = []) → CutBehind (optionsBlock++blankLine++left) chunks →
      LikeFresh server (optionsBlock++blankLine++left) chunks calls size later →
      Separate server options request left body (optionsBlock++blankLine++left) chunks calls size later) := by
  have behindCut : ∀ front chunk behind, chunks = front++chunk::behind → front.flatten++chunk = optionsBlock++blankLine++left →
      (∀ chunk ∈ behind, chunk ≠ []) ∧ behind.flatten = block++blankLine++body ∧
        remaining (optionsBlock++blankLine++left).length chunks = behind := by
    rintro front chunk behind rfl whole
    have filledBehind : ∀ chunk ∈ behind, chunk ≠ [] := fun chunk member => filled chunk (by simp [member])
    have split := remaining_front (front++[chunk]) behind filledBehind
    rw [List.flatten_append,List.flatten_singleton,whole,← List.append_cons] at split
    rw [List.flatten_append,List.flatten_cons,← List.append_assoc,whole] at cut
    exact ⟨filledBehind,List.append_cancel_left cut,split⟩
  constructor
  · rintro ⟨⟨front,chunk,behind,shape,ends,absent⟩,covers,answer⟩
    obtain ⟨filledBehind,rest,remains⟩ := behindCut front chunk behind shape ends
    rw [remains] at answer
    subst shape
    obtain ⟨s,state,same⟩ := likeFresh_cut server first preflight front chunk behind filledBehind ends absent calls size later
    have read := (HttpRequest.merged_iff first.accepted following.accepted).mpr covers
    apply same.mpr
    rcases answer with ⟨get,lasting⟩ | ⟨rfl,notOptions,notGet,unanswered⟩
    · exact (matches_get server state following get read behind rest calls).mpr lasting
    · exact (matches_posted server state following notOptions notGet read behind filledBehind rest calls whole).mpr unanswered
  · rintro rfl single ⟨front,chunk,behind,shape,ends,absent⟩ fresh
    obtain ⟨filledBehind,rest,remains⟩ := behindCut front chunk behind shape ends
    subst shape
    obtain ⟨s,state,same⟩ := likeFresh_cut server first preflight front chunk behind filledBehind ends absent calls size later
    have equal := same.mp fresh
    by_cases method : request.method = ascii "OPTIONS"
    · obtain rfl := single method
      exact absurd equal (matches_options server state following method behind filledBehind rest calls)
    · have read := matches_covers server state following behind rest calls equal
      refine ⟨⟨front,chunk,behind,rfl,ends,absent⟩,(HttpRequest.merged_iff first.accepted following.accepted).mp read,?_⟩
      rw [remains]
      by_cases get : request.method = ascii "GET"
      · exact .inl ⟨get,(matches_get server state following get read behind rest calls).mp equal⟩
      · exact .inr ⟨rfl,method,get,
          (matches_posted server state following method get read behind filledBehind rest calls whole).mp equal⟩

-- Two requests without headers.
def bareBlock (method : Bytes) : Bytes := method++ascii " / HTTP/1.1"

theorem bare_complete (method : Bytes) (ends : find? blankLine (bareBlock method++blankLine) = some (bareBlock method).length)
    (lines : split crlf (bareBlock method) = [bareBlock method])
    (items : split (ascii " ") (bareBlock method) = [method,ascii "/",ascii "HTTP/1.1"]) :
    Complete (bareBlock method) [] {method,uri:=ascii "/",version:=ascii "1.1"} := by
  have found : find? (ascii "HTTP") (ascii "HTTP/1.1") = some 0 := by decide
  have version : substr (ascii "HTTP/1.1") (0+5) = .ok (ascii "1.1") := by decide
  have target : HttpRequest.getUriAndParams (ascii "/") ∅ = .ok (ascii "/",∅,0) := rfl
  exact ⟨ends,HttpRequest.readHeader_accepts.mpr ⟨_,_,_,_,_,_,_,_,_,_,lines,items,target,by decide,found,version,rfl⟩,rfl⟩

theorem options_complete : Complete (bareBlock (ascii "OPTIONS")) []
    {method:=ascii "OPTIONS",uri:=ascii "/",version:=ascii "1.1"} :=
  bare_complete _ (by decide) (by decide) (by decide)

theorem get_complete : Complete (bareBlock (ascii "GET")) [] {method:=ascii "GET",uri:=ascii "/",version:=ascii "1.1"} :=
  bare_complete _ (by decide) (by decide) (by decide)

-- A body of 400 bytes behind a header of 40: it outlasts the 253 bytes of the
-- preflight's answer.
def longGreeter : Handlers HttpHandle :=
  HttpServer.addGetHandle {} (ascii "/") fun _ => [.write (List.replicate 400 97) false]

theorem long_lasting : Lasting longGreeter [bareBlock (ascii "GET")++blankLine] [] 253 [.written 0 40,.written 0 400] := by
  intro t early ran
  have reached : ((heard longGreeter).run (arrivals [bareBlock (ascii "GET")++blankLine] [])).toOption.map
      (fun result => (result.1.isClosed,result.1.response.map fun r => (r.continueFlag,r.remainBytes))) =
      some (false,some (false,440)) := by decide +kernel
  rw [ran] at reached
  simp only [Except.toOption,Option.map_some,Option.some.injEq,Prod.mk.injEq,Option.map_eq_some_iff] at reached
  obtain ⟨opened,r,held,announced,counts⟩ := reached
  exact (lasts_answer longGreeter opened held announced 40 400 counts (by decide)).mpr (by decide)

theorem get_leaves_fresh : LikeFresh longGreeter (bareBlock (ascii "OPTIONS")++blankLine++[])
    [bareBlock (ascii "OPTIONS")++blankLine,bareBlock (ascii "GET")++blankLine] [] 253 [.written 0 40,.written 0 400] :=
  (preflight_leaves_fresh longGreeter (bareBlock (ascii "OPTIONS")) [] _ options_complete rfl (bareBlock (ascii "GET")) [] _
    get_complete _ (by decide) (by decide) [] 253 (by decide +kernel) _).1 ⟨⟨[],_,[_],rfl,by decide,by decide⟩,
      ⟨fun key held => absurd (by simp) held,fun key value held => by simp at held⟩,.inl ⟨rfl,long_lasting⟩⟩

theorem heard_length (size : Nat) (ran : (heard server).run events = .ok (s,emitted))
    (count : ((heard server).run events).toOption.map (fun result => result.2.length) = some size) : emitted.length = size := by
  rw [ran] at count
  exact Option.some.inj count

-- Both requests in one read, and a short answer to the second one when that to
-- the preflight is completed.
theorem get_swallowed :
    ¬ LikeFresh greeter (bareBlock (ascii "OPTIONS")++blankLine++[])
      [bareBlock (ascii "OPTIONS")++blankLine++(bareBlock (ascii "GET")++blankLine)] [] 253 [] ∧
    ¬ LikeFresh greeter (bareBlock (ascii "OPTIONS")++blankLine++[])
      [bareBlock (ascii "OPTIONS")++blankLine,bareBlock (ascii "GET")++blankLine] [] 253 [] := by
  constructor
  · rintro ⟨answer,_,early,_,_,-,ranFirst,ranSecond,-⟩
    have first := heard_length 2 ranFirst (by decide +kernel)
    have second := heard_length 4 ranSecond (by decide +kernel)
    rw [List.length_append] at first
    omega
  · rintro ⟨answer,_,early,_,_,-,ran,-,⟨next,stepped,-⟩⟩
    have longer := (heard greeter).runFrom_snoc.mpr ⟨_,_,_,ran,stepped,rfl⟩
    have first := heard_length 6 ran (by decide +kernel)
    have second := heard_length 7 longer (by decide +kernel)
    rw [List.append_nil] at second
    omega

end HttpSession
end CoStream
