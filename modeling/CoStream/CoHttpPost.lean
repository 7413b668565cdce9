import CoStream.HttpReadHeader
import CoStream.HttpRoundTrip

namespace CoStream
open Foundation

namespace CoHttpSession
variable {η : Type}

-- A POST for a registered handler: a header block that AnalyzeHeader accepts,
-- and the body whose length it declares (none, if it declares none).
structure Post (server : Handlers η) (handler : η) (block body : Bytes) (request : HttpRequest) : Prop where
  ends : find? blankLine (block++blankLine) = some block.length
  accepted : HttpRequest.readHeader {headerData:=block} block = .ok (request,true)
  method : request.method = ascii "POST"
  length : request.contentLength = body.length
  registered : CoHttpServer.getHandle server request = some handler

-- The handler is called while these bytes are received, with this content.
def Calls (server : Handlers η) (handler : η) (content : Bytes) (chunks : List Bytes) : Prop :=
  ∃ final call, (machine server).run (chunks.map .ok) = .ok (final,[call]) ∧ call.handler = handler ∧ call.request.content = content

-- The session behind the header block, with the content it has got so far.
structure Taking (server : Handlers η) (handler : η) (body : Bytes) (s : CoHttpSession) : Prop where
  working : s.finished = false
  ready : s.headerIsReady = true
  method : s.request.method = ascii "POST"
  length : s.request.contentLength = body.length
  small : body.length < 2^31
  registered : CoHttpServer.getHandle server s.request = some handler

variable {server : Handlers η} {handler : η} {block body extra : Bytes} {request : HttpRequest} {s : CoHttpSession}

theorem Post.small (post : Post server handler block body request) : body.length < 2^31 :=
  HttpRequest.body_small rfl post.accepted body post.length

-- The condition under which HandleRequest looks for the handler of a POST.
def Enough (body content : Bytes) : Prop := 0 < body.length ∧ (body.length : Int) ≤ toInt content.length

def passed (s : CoHttpSession) (handler : η) : Handled η := ⟨handler,{s.request with content:=s.contentData}⟩

theorem dispatch_enough (taking : Taking server handler body s) (enough : Enough body s.contentData) :
    dispatch server s = ({s with request:={s.request with content:=s.contentData},finished:=true},[s.passed handler]) := by
  have other : ascii "POST" ≠ ascii "GET" := by decide
  have positive := enough.1
  unfold dispatch
  rw [if_neg (by rw [taking.method]; exact other),taking.length,taking.registered,if_pos ⟨by omega,enough.2⟩]
  rfl

theorem dispatch_short (taking : Taking server handler body s) (short : ¬ Enough body s.contentData) :
    dispatch server s = (s,[]) := by
  have other : ascii "POST" ≠ ascii "GET" := by decide
  unfold dispatch
  rw [if_neg (by rw [taking.method]; exact other),taking.length,if_neg (fun both => short ⟨by omega,both.2⟩)]

theorem Taking.more (taking : Taking server handler body s) (data : Bytes) :
    Taking server handler body {s with contentData:=s.contentData++data} :=
  ⟨taking.working,taking.ready,taking.method,taking.length,taking.small,taking.registered⟩

theorem runFrom_enough (taking : Taking server handler body s) (enough : Enough body s.contentData) (rest : List Bytes) :
    (machine server).runFrom (dispatch server s).1 (rest.map .ok) = .ok ((dispatch server s).1,[]) := by
  rw [dispatch_enough taking enough]
  exact runFrom_finished server _ rfl _

theorem runFrom_short (taking : Taking server handler body s) (short : ¬ Enough body s.contentData) (data : Bytes)
    (rest : List Bytes) (ran : (machine server).runFrom (dispatch server s).1 ((data::rest).map .ok) = .ok (final,later)) :
    ∃ after, (machine server).runFrom (dispatch server {s with contentData:=s.contentData++data}).1 (rest.map .ok) =
        .ok (final,after) ∧
      (dispatch server s).2++later = (dispatch server {s with contentData:=s.contentData++data}).2++after := by
  rw [dispatch_short taking short] at ran ⊢
  obtain ⟨middle,emitted,after,stepped,continued,rfl⟩ := (machine server).runFrom_cons.mp ran
  obtain ⟨rfl,rfl⟩ := Prod.mk.inj (Except.ok.inj ((handleRequest_body server s data taking.working taking.ready).symm.trans stepped))
  exact ⟨after,continued,rfl⟩

theorem calls_enough (taking : Taking server handler body s) (enough : Enough body s.contentData) (rest : List Bytes)
    (ran : (machine server).runFrom (dispatch server s).1 (rest.map .ok) = .ok (final,later)) :
    (dispatch server s).2++later = [s.passed handler] := by
  cases (runFrom_enough taking enough rest).symm.trans ran
  rw [dispatch_enough taking enough]
  rfl

theorem calls_short (taking : Taking server handler body s) (short : ¬ Enough body s.contentData)
    (ran : (machine server).runFrom (dispatch server s).1 [] = .ok (final,later)) : (dispatch server s).2++later = [] := by
  cases ran
  rw [dispatch_short taking short]
  rfl

-- A handler that is called too late gets too much.
theorem overfull_calls (taking : Taking server handler body s) (overfull : body.length < s.contentData.length)
    (rest : List Bytes) (ran : (machine server).runFrom (dispatch server s).1 (rest.map .ok) = .ok (final,later)) :
    ∀ call ∈ (dispatch server s).2++later, call.request.content ≠ body := by
  by_cases enough : Enough body s.contentData
  · rw [calls_enough taking enough rest ran]
    rintro call member rfl
    cases List.mem_singleton.mp member
    exact absurd overfull (Nat.lt_irrefl _)
  · induction rest generalizing s later with
    | nil =>
      rw [calls_short taking enough ran]
      exact fun call member => absurd member List.not_mem_nil
    | cons data rest ih =>
      obtain ⟨after,continued,same⟩ := runFrom_short taking enough data rest ran
      rw [same]
      have longer : body.length < (s.contentData++data).length := by rw [List.length_append]; omega
      by_cases enoughNow : Enough body (s.contentData++data)
      · rw [calls_enough (taking.more data) enoughNow rest continued]
        rintro call member rfl
        cases List.mem_singleton.mp member
        exact absurd longer (Nat.lt_irrefl _)
      · exact ih (taking.more data) longer continued enoughNow

theorem short_content (taking : Taking server handler body s) (fewer : s.contentData.length < body.length) :
    ¬ Enough body s.contentData := by
  intro enough
  have small := taking.small
  have fits : toInt (s.contentData.length : Int) = s.contentData.length := toInt_fits (by constructor <;> omega)
  have reached := enough.2
  omega

theorem full_content (filled : body ≠ []) (taking : Taking server handler body s) (same : s.contentData.length = body.length) :
    Enough body s.contentData := by
  have positive := List.length_pos_iff.mpr filled
  have small := taking.small
  have fits : toInt (s.contentData.length : Int) = s.contentData.length := toInt_fits (by constructor <;> omega)
  exact ⟨positive,by omega⟩

theorem reached_calls (filled : body ≠ []) (rest : List Bytes) (taking : Taking server handler body s)
    (whole : s.contentData++rest.flatten = body++extra) (reached : body.length ≤ s.contentData.length)
    (ran : (machine server).runFrom (dispatch server s).1 (rest.map .ok) = .ok (final,later)) :
    (∃ call, (dispatch server s).2++later = [call] ∧ call.handler = handler ∧ call.request.content = body) ↔
      ∃ front behind, rest = front++behind ∧ s.contentData++front.flatten = body := by
  rcases Nat.lt_or_eq_of_le reached with more | same
  · constructor
    · rintro ⟨call,outputs,-,content⟩
      exact absurd content (overfull_calls taking more rest ran call (by rw [outputs]; exact List.mem_singleton_self _))
    · rintro ⟨front,behind,-,content⟩
      have total := congrArg List.length content
      rw [List.length_append] at total
      omega
  · obtain ⟨content,-⟩ := List.append_inj whole same.symm
    rw [calls_enough taking (full_content filled taking same.symm) rest ran]
    exact ⟨fun _ => ⟨[],rest,rfl,by simp [content]⟩,fun _ => ⟨_,rfl,rfl,content⟩⟩

-- The body is passed on as it is exactly when some receive ends where it ends.
theorem taking_calls (filled : body ≠ []) (rest : List Bytes) (taking : Taking server handler body s)
    (whole : s.contentData++rest.flatten = body++extra)
    (ran : (machine server).runFrom (dispatch server s).1 (rest.map .ok) = .ok (final,later)) :
    (∃ call, (dispatch server s).2++later = [call] ∧ call.handler = handler ∧ call.request.content = body) ↔
      ∃ front behind, rest = front++behind ∧ s.contentData++front.flatten = body := by
  induction rest generalizing s later with
  | nil =>
    have lengths := congrArg List.length whole
    simp only [List.length_append,List.flatten_nil,List.length_nil] at lengths
    exact reached_calls filled [] taking whole (by omega) ran
  | cons data rest ih =>
    rcases Nat.lt_or_ge s.contentData.length body.length with fewer | reached
    · obtain ⟨after,continued,outputs⟩ := runFrom_short taking (short_content taking fewer) data rest ran
      rw [outputs,ih (taking.more data) (by simpa using whole) continued]
      constructor
      · rintro ⟨front,behind,rfl,content⟩
        exact ⟨data::front,behind,rfl,by simpa using content⟩
      · rintro ⟨front,behind,shape,content⟩
        cases front with
        | nil =>
          have total := congrArg List.length content
          rw [List.flatten_nil,List.append_nil] at total
          omega
        | cons first front =>
          cases shape
          exact ⟨front,behind,rfl,by simpa using content⟩
    · exact reached_calls filled (data::rest) taking whole reached ran

-- Without a body there is never enough.
theorem bodiless_calls (rest : List Bytes) (taking : Taking server handler [] s)
    (ran : (machine server).runFrom (dispatch server s).1 (rest.map .ok) = .ok (final,later)) :
    (dispatch server s).2++later = [] := by
  have never : ∀ content, ¬ Enough [] content := fun content enough => absurd enough.1 (Nat.lt_irrefl 0)
  induction rest generalizing s later with
  | nil => exact calls_short taking (never _) ran
  | cons data rest ih =>
    obtain ⟨after,continued,outputs⟩ := runFrom_short taking (never _) data rest ran
    rw [outputs]
    exact ih (taking.more data) continued

-- The session behind the read that completes the header block.
def entered (received : Bytes) (pos : Nat) (request : HttpRequest) : CoHttpSession :=
  {headerData:=received,contentData:=received.drop (pos+4),headerIsReady:=true,contentStart:=pos+4,request}

-- The read that completes the header block finds the session waiting, and the
-- body begins behind the block.
theorem run_post (post : Post server handler block body request) (chunks : List Bytes)
    (cut : chunks.flatten = block++blankLine++(body++extra)) : ∃ front chunk rest s, chunks = front++chunk::rest ∧
    find? blankLine front.flatten = none ∧ front.flatten++chunk = block++blankLine++s.contentData ∧
    s.contentData++rest.flatten = body++extra ∧ Taking server handler body s ∧
    ∃ final later, (machine server).runFrom (dispatch server s).1 (rest.map .ok) = .ok (final,later) ∧
      (machine server).run (chunks.map .ok) = .ok (final,(dispatch server s).2++later) := by
  obtain ⟨front,chunk,rest,rfl,absent,complete,taken,content⟩ := find?_cut chunks (by decide) post.ends cut
  have waited := runFrom_waiting server front {} rfl rfl absent
  have stepped := handleRequest_found server {headerData:=front.flatten} chunk rfl rfl complete
  dsimp only at stepped
  rw [taken,post.accepted,ok_bind,completeHeader,if_pos rfl] at stepped
  rw [List.nil_append] at stepped
  have taking : Taking server handler body (entered (front.flatten++chunk) block.length request) :=
    ⟨rfl,rfl,post.method,post.length,post.small,post.registered⟩
  have begun : front.flatten++chunk = block++blankLine++(front.flatten++chunk).drop (block.length+4) := by
    have parts := cut
    rw [List.flatten_append,List.flatten_cons,← List.append_assoc,← List.take_append_drop (block.length+4) (front.flatten++chunk),
      List.append_assoc] at parts
    have inside : block.length+4 ≤ (front.flatten++chunk).length := (find?_inside complete).1
    have same : ((front.flatten++chunk).take (block.length+4)).length = (block++blankLine).length := by
      rw [List.length_take,Nat.min_eq_left inside,List.length_append]
      rfl
    rw [← (List.append_inj parts same).1,List.take_append_drop]
  refine ⟨front,chunk,rest,entered (front.flatten++chunk) block.length request,rfl,absent,begun,content,taking,?_⟩
  obtain ⟨⟨final,later⟩,continued⟩ := runFrom_ready server _ (.inl (dispatch_ready _ _ taking.ready)) (rest.map .ok)
  refine ⟨final,later,continued,?_⟩
  rw [List.map_append,List.map_cons]
  exact (machine server).runFrom_append.mpr ⟨_,_,_,waited,
    (machine server).runFrom_cons.mpr ⟨_,_,later,stepped,continued,rfl⟩,rfl⟩

-- The handler of a POST that has come in as a whole, with nothing behind it, is
-- called exactly when there is a body: HandleRequest waits for more of an empty
-- one.
theorem post_handled_exactly (server : Handlers η) (handler : η) (block body : Bytes) (request : HttpRequest)
    (post : Post server handler block body request) (chunks : List Bytes) (cut : chunks.flatten = block++blankLine++body) :
    (∃ final outputs, (machine server).run (chunks.map .ok) = .ok (final,outputs) ∧
      ∃ call ∈ outputs, call.handler = handler) ↔ body ≠ [] := by
  have uncut : chunks.flatten = block++blankLine++(body++[]) := by rw [List.append_nil]; exact cut
  obtain ⟨front,chunk,rest,s,-,-,-,whole,taking,final,later,continued,ran⟩ := run_post post chunks uncut
  constructor
  · rintro ⟨last,outputs,again,call,member,-⟩ rfl
    cases ran.symm.trans again
    rw [bodiless_calls rest taking continued] at member
    exact List.not_mem_nil member
  · intro filled
    have received : s.contentData++rest.flatten = body := by rw [whole,List.append_nil]
    obtain ⟨call,once,called,-⟩ := (taking_calls filled rest taking whole continued).mpr
      ⟨rest,[],(List.append_nil rest).symm,received⟩
    exact ⟨final,_,ran,call,by rw [once]; exact List.mem_singleton_self call,called⟩

-- Whatever follows a POST on its connection, its handler sees the body that was
-- declared exactly when one of the reads ends where the body ends.
theorem post_body_exactly (server : Handlers η) (handler : η) (block body extra : Bytes) (request : HttpRequest)
    (post : Post server handler block body request) (filled : body ≠ []) (chunks : List Bytes)
    (cut : chunks.flatten = block++blankLine++(body++extra)) :
    Calls server handler body chunks ↔
      ∃ front behind, chunks = front++behind ∧ front.flatten = block++blankLine++body := by
  obtain ⟨front,chunk,rest,s,rfl,absent,begun,whole,taking,final,later,continued,ran⟩ := run_post post chunks cut
  have called : Calls server handler body (front++chunk::rest) ↔
      ∃ call, (dispatch server s).2++later = [call] ∧ call.handler = handler ∧ call.request.content = body := by
    constructor
    · rintro ⟨last,call,again,seen⟩
      obtain ⟨-,outputs⟩ := Prod.mk.inj (Except.ok.inj (ran.symm.trans again))
      exact ⟨call,outputs,seen⟩
    · rintro ⟨call,outputs,seen⟩
      exact ⟨final,call,by rw [ran,outputs],seen⟩
  rw [called,taking_calls filled rest taking whole continued]
  constructor
  · rintro ⟨middle,behind,rfl,content⟩
    refine ⟨front++chunk::middle,behind,by simp,?_⟩
    rw [List.flatten_append,List.flatten_cons,← List.append_assoc,begun,List.append_assoc,content]
  · rintro ⟨upTo,behind,shape,ending⟩
    have notYet : find? blankLine upTo.flatten ≠ none := by
      intro none
      rw [ending] at none
      exact absurd (post.ends.symm.trans (find?_none_of_append none)) nofun
    rcases List.append_eq_append_iff.mp shape with ⟨middle,rfl,rejoined⟩ | ⟨middle,earlier,-⟩
    · cases middle with
      | nil =>
        rw [List.append_nil] at notYet
        exact absurd absent notYet
      | cons first middle =>
        obtain ⟨rfl,rfl⟩ := List.cons.inj rejoined
        refine ⟨middle,behind,rfl,?_⟩
        rw [List.flatten_append,List.flatten_cons,← List.append_assoc,begun,List.append_assoc] at ending
        exact List.append_cancel_left ending
    · rw [earlier,List.flatten_append] at absent
      exact absurd (find?_none_of_append absent) notYet

-- A concrete form, and the body that comes with it.
def formServer : Handlers Unit := CoHttpServer.addPostHandle {} (ascii "/f") ()
def formBlock (length : Bytes) : Bytes := ascii "POST /f HTTP/1.1\r\nContent-Length: "++length
def formRequest (length : Bytes) : HttpRequest :=
  ((HttpRequest.readHeader {headerData:=formBlock length} (formBlock length)).toOption.map Prod.fst).getD {}

theorem form_post (length body : Bytes) (ends : find? blankLine (formBlock length++blankLine) = some (formBlock length).length)
    (accepted : (HttpRequest.readHeader {headerData:=formBlock length} (formBlock length)).toOption.map Prod.snd = some true)
    (posted : (formRequest length).method = ascii "POST" ∧ (formRequest length).contentLength = body.length ∧
      CoHttpServer.getHandle formServer (formRequest length) = some ()) :
    Post formServer () (formBlock length) body (formRequest length) := by
  refine ⟨ends,?_,posted.1,posted.2.1,posted.2.2⟩
  unfold formRequest
  cases read : HttpRequest.readHeader {headerData:=formBlock length} (formBlock length) with
  | error exn =>
    rw [read] at accepted
    cases accepted
  | ok result =>
    rw [read] at accepted
    obtain ⟨request,flag⟩ := result
    cases accepted
    rfl

theorem form_handled : ∃ final outputs, (machine formServer).run
    ([(formBlock (ascii "2")++blankLine++ascii "ab").take 30,(formBlock (ascii "2")++blankLine++ascii "ab").drop 30].map .ok) =
      .ok (final,outputs) ∧ ∃ call ∈ outputs, call.handler = () :=
  (post_handled_exactly formServer () (formBlock (ascii "2")) (ascii "ab") (formRequest (ascii "2"))
    (form_post _ _ (by decide +kernel) (by decide +kernel) (by decide +kernel)) _ (by decide +kernel)).mpr (by decide)

theorem empty_form_waits :
    Post formServer () (formBlock (ascii "0")) [] (formRequest (ascii "0")) ∧
    ¬ ∃ final outputs, (machine formServer).run [.ok (formBlock (ascii "0")++blankLine)] = .ok (final,outputs) ∧
      ∃ call ∈ outputs, call.handler = () := by
  refine ⟨form_post _ _ (by decide +kernel) (by decide +kernel) (by decide +kernel),?_⟩
  have silent : ((machine formServer).run [.ok (formBlock (ascii "0")++blankLine)]).toOption.map (fun result => result.2.length) =
      some 0 := by decide +kernel
  rintro ⟨final,outputs,ran,call,member,-⟩
  rw [ran] at silent
  cases outputs with
  | nil => exact List.not_mem_nil member
  | cons first rest => cases silent

theorem form_body : Calls formServer () (ascii "ab") [formBlock (ascii "2")++blankLine++ascii "a",ascii "b",ascii "GET"] :=
  (post_body_exactly formServer () (formBlock (ascii "2")) (ascii "ab") (ascii "GET") (formRequest (ascii "2"))
    (form_post _ _ (by decide +kernel) (by decide +kernel) (by decide +kernel)) (by decide) _ (by decide +kernel)).mpr
    ⟨[formBlock (ascii "2")++blankLine++ascii "a",ascii "b"],[ascii "GET"],rfl,by decide +kernel⟩

-- One byte more in the last read.
theorem form_overfull :
    Post formServer () (formBlock (ascii "2")) (ascii "ab") (formRequest (ascii "2")) ∧
    ¬ Calls formServer () (ascii "ab") [formBlock (ascii "2")++blankLine++ascii "abG"] := by
  refine ⟨form_post _ _ (by decide +kernel) (by decide +kernel) (by decide +kernel),?_⟩
  have contents : ((machine formServer).run [.ok (formBlock (ascii "2")++blankLine++ascii "abG")]).toOption.map
      (fun result => result.2.map (·.request.content)) = some [ascii "abG"] := by decide +kernel
  rintro ⟨final,call,ran,-,content⟩
  rw [List.map_singleton] at ran
  rw [ran] at contents
  dsimp only [Except.toOption,Option.map,List.map] at contents
  rw [content] at contents
  exact absurd contents (by decide)

end CoHttpSession
end CoStream
