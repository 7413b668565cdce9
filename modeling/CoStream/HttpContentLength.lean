import Mathlib.Data.List.DropRight
import CoStream.HttpDelivery
import CoStream.HttpPreflight
import CoStream.HttpSlices

namespace CoStream
open Foundation

-- A number may stand between blanks.
def isBlank (letter : UInt8) : Bool := letter = 32 ∨ letter = 9
def stripped (text : Bytes) : Bytes := (text.dropWhile isBlank).rdropWhile isBlank

theorem atoi_stripped (numeral : Numeral (stripped text) n) (small : n < 2^31) : atoi text = n := by
  have cut : text = text.takeWhile isBlank++stripped text++(text.dropWhile isBlank).rtakeWhile isBlank := by
    rw [List.append_assoc,stripped,List.rdropWhile_append_rtakeWhile,List.takeWhile_append_dropWhile]
  have space : ∀ letter, isBlank letter = true → isSpace letter = true ∧ isDigit letter = false :=
    forall_byte (fun letter => isBlank letter = true → isSpace letter = true ∧ isDigit letter = false) (by decide +kernel)
  rw [cut]
  apply atoi_surrounded _ _ numeral small
  · intro letter member
    exact (space letter (List.mem_takeWhile_imp member)).1
  · intro letter first
    exact (space letter (List.mem_rtakeWhile_imp (List.mem_of_head? first))).2

namespace HttpRequest

-- content_length_ is the decimal number that headers_ stores, or zero.
def LengthConsistent (request : HttpRequest) : Prop :=
  0 ≤ request.contentLength ∧
    match request.headers[ascii "Content-Length"]? with
    | none => request.contentLength = 0
    | some text => ∃ n : Nat, Numeral (stripped text) n ∧ request.contentLength = n

-- The values of the lines with this name, in their order, in the header block
-- that ends in the text.
def contentLengths (lines : List Bytes) : List Bytes :=
  (lines.filter (ascii "Content-Length:").isPrefixOf).map (·.drop 16)
def blockLengths (text : Bytes) : List Bytes :=
  match find? blankLine text with
  | none => []
  | some pos => contentLengths (split crlf (text.take pos)).tail

-- The first value is a decimal number that an `int` can hold. Where others follow,
-- the last of them is read as the same number.
def LengthsAgree : List Bytes → Prop
  | [] => True
  | first::rest => ∃ n : Nat, n < 2^31 ∧ Numeral (stripped first) n ∧ ∀ last, rest.getLast? = some last → atoi last = n

-- The request has been told these lengths so far.
def Told (request : HttpRequest) (values : List Bytes) : Prop :=
  request.headers[ascii "Content-Length"]? = values.head? ∧
    request.contentLength = (values.getLast?.map atoi).getD 0

variable {request filled : HttpRequest} {values : List Bytes}

theorem told_fresh (headerData : Bytes) : Told {headerData} [] := ⟨by simp,rfl⟩

theorem told_consistent (told : Told request values) : request.LengthConsistent ↔ LengthsAgree values := by
  obtain ⟨stored,length⟩ := told
  unfold LengthConsistent
  rw [stored,length]
  cases values with
  | nil => simp [LengthsAgree]
  | cons first rest =>
    unfold LengthsAgree
    have bound : ∀ (text : Bytes) (n : Nat), atoi text = n → n < 2^31 := by
      intro text n read
      have high := (atoi_fits text).2
      rw [read] at high
      omega
    cases final : rest.getLast? with
    | none =>
      rw [List.getLast?_eq_none_iff.mp final]
      simp only [List.head?_cons,List.getLast?_singleton,Option.map_some,Option.getD_some]
      constructor
      · rintro ⟨-,n,numeral,read⟩
        refine ⟨n,bound first n read,numeral,?_⟩
        intro last never
        cases never
      · rintro ⟨n,small,numeral,-⟩
        have read := atoi_stripped numeral small
        exact ⟨by rw [read]; exact Int.natCast_nonneg n,n,numeral,read⟩
    | some last =>
      have ends : (first::rest).getLast? = some last := by
        rw [List.getLast?_cons,final]
        rfl
      rw [ends]
      simp only [List.head?_cons,Option.map_some,Option.getD_some]
      constructor
      · rintro ⟨-,n,numeral,read⟩
        refine ⟨n,bound last n read,numeral,?_⟩
        intro other same
        rw [final] at same
        cases same
        exact read
      · rintro ⟨n,-,numeral,reads⟩
        have read := reads last final
        exact ⟨by rw [read]; exact Int.natCast_nonneg n,n,numeral,read⟩

-- A line is named so when it begins so: there is no colon in the name.
theorem named_iff (found : find? (ascii ":") line = some pos) :
    (ascii "Content-Length:").isPrefixOf line = true ↔ line.take pos = ascii "Content-Length" := by
  constructor
  · intro front
    obtain ⟨rest,rfl⟩ := isFront_iff.mp front
    have first : find? (ascii ":") (ascii "Content-Length"++[58]++rest) = some 14 :=
      find?_first (by decide +kernel) rest
    have same : ascii "Content-Length:" = ascii "Content-Length"++[58] := by decide +kernel
    rw [same] at found ⊢
    rw [first] at found
    cases found
    rfl
  · intro named
    have shape := (find?_inside found).2
    rw [named] at shape
    exact isFront_iff.mpr ⟨_,shape.symm⟩

theorem contentLengths_line (found : find? (ascii ":") line = some pos) :
    contentLengths [line] = if line.take pos = ascii "Content-Length" then [line.drop (pos+2)] else [] := by
  unfold contentLengths
  by_cases key : line.take pos = ascii "Content-Length"
  · have inside := (find?_inside found).1
    have size := congrArg List.length key
    rw [List.length_take,Nat.min_eq_left (by omega)] at size
    have place : pos = 14 := size
    rw [List.filter_cons_of_pos ((named_iff found).mpr key),if_pos key,place]
    rfl
  · rw [List.filter_cons_of_neg fun front => key ((named_iff found).mp front),if_neg key]
    rfl

theorem Told.addHeader (told : Told request values) (found : find? (ascii ":") line = some pos) :
    Told (request.addHeader (line.take pos) (line.drop (pos+2))) (values++contentLengths [line]) := by
  rw [contentLengths_line found]
  unfold HttpRequest.addHeader
  constructor
  · dsimp only
    rw [insertIfNew_lookup,told.1]
    by_cases key : line.take pos = ascii "Content-Length"
    · rw [if_pos key,if_pos key.symm]
      cases values <;> rfl
    · rw [if_neg key,if_neg fun same => key same.symm,Option.or_none,List.append_nil]
  · dsimp only
    by_cases key : line.take pos = ascii "Content-Length"
    · rw [if_pos key,if_pos key,List.getLast?_concat]
      rfl
    · rw [if_neg key,if_neg key,List.append_nil]
      exact told.2

theorem readLines_told (lines : List Bytes) (told : Told request values)
    (read : request.readLines lines = .ok (filled,true)) : Told filled (values++contentLengths lines) := by
  induction lines generalizing request values with
  | nil =>
    cases read
    rw [contentLengths,List.filter_nil,List.map_nil,List.append_nil]
    exact told
  | cons line rest ih =>
    unfold readLines at read
    cases found : find? (ascii ":") line with
    | none =>
      rw [found] at read
      cases read
    | some pos =>
      rw [found] at read
      dsimp only at read
      obtain ⟨value,cut,read⟩ := bind_ok.mp read
      have inside := (substr_defined line (pos+2)).mp ⟨value,cut⟩
      rw [substr_ok inside] at cut
      cases cut
      have later := ih (told.addHeader found) read
      have joined : contentLengths (line::rest) = contentLengths [line]++contentLengths rest := by
        rw [contentLengths,contentLengths,contentLengths,← List.map_append,← List.filter_append,List.singleton_append]
      rwa [joined,← List.append_assoc]

theorem readHeader_told (told : Told request values) (found : find? blankLine text = some pos)
    (read : request.readHeader (text.take pos) = .ok (filled,true)) : Told filled (values++blockLengths text) := by
  obtain ⟨firstLine,lines,_,_,_,_,_,_,_,_,block,-,-,-,-,-,read⟩ := readHeader_accepts.mp read
  unfold blockLengths
  rw [found]
  dsimp only
  rw [block,List.tail_cons]
  exact readLines_told lines (by exact told) read

end HttpRequest

theorem CoHttpSession.analyzeHeader_told {s after : CoHttpSession} (waiting : s.headerIsReady = false)
    (accepted : s.analyzeHeader data = .ok (after,1)) : after.request.Told (HttpRequest.blockLengths (s.headerData++data)) := by
  unfold CoHttpSession.analyzeHeader at accepted
  rw [if_neg (by simp [waiting])] at accepted
  dsimp only at accepted
  cases found : find? blankLine (s.headerData++data) with
  | none =>
    rw [found] at accepted
    cases accepted
  | some pos =>
    rw [found] at accepted
    dsimp only at accepted
    obtain ⟨⟨request,good⟩,read,accepted⟩ := bind_ok.mp accepted
    cases good with
    | false => cases accepted
    | true =>
      cases accepted
      exact HttpRequest.readHeader_told (HttpRequest.told_fresh _) found read

namespace HttpSession
open HttpRequest

-- The lengths in the header block that the event completes.
def lengthsTold (s : HttpSession) (event : Event) (_ : List Output) : List Bytes :=
  match event with
  | .read retCode data => if s.isClosed || s.headerIsReady || retCode ≠ 0 then [] else blockLengths (s.headerData++data)
  | _ => []

def telling (server : Handlers HttpHandle) : Machine HttpSession Event Bytes Exn := (machine server).observe lengthsTold

variable {server : Handlers HttpHandle} {s : HttpSession} {values : List Bytes}

-- A handler is called with another uri or content, but with the same headers.
theorem dispatch_told (server : Handlers HttpHandle) (told : Told s.request values) :
    Told (settle (dispatch server s)).1.request values := by
  by_cases method : s.request.method = ascii "OPTIONS"
  · have answered : dispatch server s = s.answerOptions := if_pos method
    have same : s.answerOptions.1.request = s.request := (respondAll_untouched optionsCalls _).2
    rw [answered,(settle_untouched _).2,same]
    exact told
  · by_cases asks : s.request.method = ascii "GET" ∨ toInt s.contentData.length ≥ s.request.contentLength
    · cases registered : (HttpServer.getHandle server s.request).2 with
      | none =>
        rw [dispatch_refused method asks registered,(settle_untouched _).2]
        exact told
      | some handler =>
        by_cases get : s.request.method = ascii "GET"
        · rw [dispatch_get server s get registered,(callHandle_untouched _ handler).2]
          exact told
        · rw [dispatch_posted method get (asks.resolve_left get) registered,(callHandle_untouched _ handler).2]
          exact told
    · rw [dispatch_waits method asks,(settle_untouched _).2]
      exact told

-- A session that is still open has refused no block, so its request has been told
-- the lengths of all of them.
def Informed (values : List Bytes) (s : HttpSession) : Prop := s.isClosed = true ∨ s.request.Told values

theorem block_told (informed : s.request.Told values) (isOpen : s.isClosed = false) (waiting : s.headerIsReady = false)
    (stepped : step server s (.read 0 data) = .ok (next,outputs)) :
    Informed (values++blockLengths (s.headerData++data)) next := by
  cases found : find? blankLine (s.headerData++data) with
  | none =>
    rw [step_waiting server s data isOpen waiting found] at stepped
    cases stepped
    unfold blockLengths
    rw [found,List.append_nil]
    exact .inr informed
  | some pos =>
    unfold step onRead handleRequest analyzeHeader at stepped
    rw [if_neg (by simp [isOpen])] at stepped
    dsimp only at stepped
    rw [if_neg (by decide),if_neg (by simp [waiting]),found] at stepped
    obtain ⟨handled,first,settled⟩ := bind_ok.mp stepped
    obtain ⟨analyzed,second,first⟩ := bind_ok.mp first
    obtain ⟨⟨filled,good⟩,read,second⟩ := bind_ok.mp second
    cases second
    obtain ⟨rfl,-⟩ := ok_pair settled
    cases good with
    | false =>
      cases first
      exact .inl (HttpSession.close_closed _)
    | true =>
      cases first
      exact .inr (dispatch_told server (readHeader_told informed found read))

theorem informed_step (informed : Informed values s) (stepped : step server s event = .ok (next,outputs)) :
    Informed (values++s.lengthsTold event outputs) next := by
  unfold lengthsTold
  by_cases closed : s.isClosed = true
  · unfold step at stepped
    rw [if_pos closed] at stepped
    cases stepped
    exact .inl closed
  · have isOpen : s.isClosed = false := by simpa using closed
    have told := informed.resolve_left closed
    cases event with
    | written retCode sentSize =>
      rw [step_written server isOpen] at stepped
      obtain ⟨rfl,-⟩ := ok_pair stepped
      rw [List.append_nil]
      exact .inr ((onWrite_untouched s retCode sentSize).2.2 ▸ told)
    | respond call =>
      rw [step_respond server isOpen] at stepped
      obtain ⟨rfl,-⟩ := ok_pair stepped
      rw [List.append_nil]
      exact .inr ((respond_untouched s call).2 ▸ told)
    | read retCode data =>
      dsimp only
      by_cases failed : retCode ≠ 0
      · rw [step_failed server isOpen failed] at stepped
        obtain ⟨rfl,-⟩ := ok_pair stepped
        exact .inl (HttpSession.close_closed s)
      · have good : retCode = 0 := not_not.mp failed
        subst good
        by_cases ready : s.headerIsReady = true
        · rw [if_pos (by simp [ready]),List.append_nil,(step_ready isOpen ready stepped).2]
          exact .inr (dispatch_told server told)
        · have waiting : s.headerIsReady = false := by simpa using ready
          rw [if_neg (by simp [isOpen,waiting])]
          exact block_told told isOpen waiting stepped

theorem informed_run (ran : (telling server).run events = .ok (s,values)) : Informed values s := by
  refine (telling server).history (fun _ told s => Informed told s) (.inr (told_fresh [])) ?_ ran
  intro _ told s event next emitted informed noted
  obtain ⟨outputs,stepped,rfl⟩ := (machine server).observe_step.mp noted
  exact informed_step informed stepped

theorem analyzeHeader_told {after : HttpSession} (told : s.request.Told values) (accepted : s.analyzeHeader = .ok (after,0))
    (ready : after.headerIsReady = true) : after.request.Told (values++blockLengths s.headerData) := by
  unfold analyzeHeader at accepted
  cases found : find? blankLine s.headerData with
  | none =>
    rw [found] at accepted
    cases accepted
    cases ready
  | some pos =>
    rw [found] at accepted
    obtain ⟨⟨filled,good⟩,read,accepted⟩ := bind_ok.mp accepted
    cases good with
    | false => cases accepted
    | true =>
      cases accepted
      exact readHeader_told told found read

end HttpSession

-- Both sessions, at every header block that one of them accepts. The coroutine
-- reads one block into a new request. The other session reads a block behind an
-- OPTIONS request into the old one, so all the blocks of its run count.
theorem content_length_iff (server : Handlers HttpHandle) :
    (∀ (s after : CoHttpSession) (data : Bytes), s.headerIsReady = false → s.analyzeHeader data = .ok (after,1) →
      (after.request.LengthConsistent ↔ HttpRequest.LengthsAgree (HttpRequest.blockLengths (s.headerData++data)))) ∧
    ∀ events (s after : HttpSession) (told : List Bytes) (data : Bytes),
      (HttpSession.telling server).run events = .ok (s,told) → s.isClosed = false → s.headerIsReady = false →
      HttpSession.analyzeHeader {s with headerData:=s.headerData++data,continueFlag:=true} = .ok (after,0) →
      after.headerIsReady = true →
      (after.request.LengthConsistent ↔
        HttpRequest.LengthsAgree (told++HttpRequest.blockLengths (s.headerData++data))) := by
  constructor
  · intro s after data waiting accepted
    exact HttpRequest.told_consistent (CoHttpSession.analyzeHeader_told waiting accepted)
  · intro events s after told data ran isOpen waiting accepted ready
    have informed := (HttpSession.informed_run ran).resolve_left (by simp [isOpen])
    have block := HttpSession.analyzeHeader_told (s := {s with headerData:=s.headerData++data,continueFlag:=true}) informed
      accepted ready
    exact HttpRequest.told_consistent block

def lengthBlock (lengths : List Bytes) : Bytes :=
  ascii "POST /a HTTP/1.1"++crlf++lengths.flatMap (fun length => ascii "Content-Length: "++length++crlf)++crlf

theorem five_consistent :
    (∃ after, ({} : CoHttpSession).analyzeHeader (lengthBlock [ascii "5"]) = .ok (after,1) ∧ after.request.LengthConsistent) ∧
    ∃ after, HttpSession.analyzeHeader {headerData:=lengthBlock [ascii "05",ascii "+5"],continueFlag:=true} = .ok (after,0) ∧
      after.headerIsReady = true ∧ after.request.LengthConsistent := by
  constructor
  · refine ⟨_,rfl,?_⟩
    apply ((content_length_iff {}).1 {} _ (lengthBlock [ascii "5"]) rfl rfl).mpr
    exact ⟨5,by decide,⟨by decide +kernel,by decide +kernel,by rfl⟩,fun last never => by cases never⟩
  · refine ⟨_,rfl,rfl,?_⟩
    apply ((content_length_iff {}).2 [] {} _ [] (lengthBlock [ascii "05",ascii "+5"]) rfl rfl rfl rfl rfl).mpr
    refine ⟨5,by decide,⟨by decide +kernel,by decide +kernel,by rfl⟩,?_⟩
    intro last ends
    cases ends
    rfl

-- The last line gives the length, the first one what is stored.
theorem two_lengths_differ :
    (∃ after, ({} : CoHttpSession).analyzeHeader (lengthBlock [ascii "5",ascii "6"]) = .ok (after,1) ∧
      after.request.contentLength = 6 ∧ after.request.headers[ascii "Content-Length"]? = some (ascii "5") ∧
      ¬ after.request.LengthConsistent) ∧
    ∃ after, HttpSession.analyzeHeader {headerData:=lengthBlock [ascii "5",ascii "6"]} = .ok (after,0) ∧
      after.headerIsReady = true ∧ ¬ after.request.LengthConsistent := by
  have apart : ∀ request : HttpRequest, request.contentLength = 6 →
      request.headers[ascii "Content-Length"]? = some (ascii "5") → ¬ request.LengthConsistent := by
    intro request length stored consistent
    obtain ⟨-,same⟩ := consistent
    rw [stored,length] at same
    obtain ⟨n,numeral,six⟩ := same
    have five : 5 = n := numeral.value
    omega
  constructor
  · exact ⟨_,rfl,rfl,rfl,apart _ rfl rfl⟩
  · exact ⟨_,rfl,rfl,apart _ rfl rfl⟩

end CoStream
