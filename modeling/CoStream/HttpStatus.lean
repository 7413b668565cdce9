import CoStream.CoHttpResponseOrder
import CoStream.HttpReassembly

namespace CoStream.HttpClient
open Foundation

-- The client has called back for the whole response, and found in it what was
-- to be sent.
def ReadAs (client : HttpClient) (reads : List (Int × Bytes)) (statusCode : Int) (status : Bytes) (headers : Headers)
    (data : Bytes) : Prop :=
  ∃ final r notices, (reading client).run reads = .ok (final,notices) ∧ ⟨some 0,false⟩ ∈ notices ∧
    final.response = some r ∧ r.bodyReady = true ∧ r.statusCode = statusCode ∧ r.status = status ∧
    r.headers = headers.insert (ascii "Content-Length") (decimal data.length) ∧ r.data = data

-- The responses that both encoders are given.
structure Sendable (statusCode : Int) (status : Bytes) (headers : Headers) (data : Bytes) : Prop where
  code : 100 ≤ statusCode ∧ statusCode ≤ 999
  phrase : status ≠ [] ∧ ∀ letter ∈ status, letter ≠ 13 ∧ letter ≠ 10
  keys : ∀ field ∈ headers.toList, field.1 ≠ ascii "Content-Length" ∧
    ∀ letter ∈ field.1, letter ≠ 58 ∧ letter ≠ 13 ∧ letter ≠ 10
  values : ∀ field ∈ headers.toList, ∀ letter ∈ field.2, letter ≠ 13 ∧ letter ≠ 10
  filled : data ≠ []

def answered (statusCode : Int) (status : Bytes) (fields : List (Bytes × Bytes)) (body : Bytes) : Reply where
  statusLine := ascii "HTTP/1.1 "++printInt statusCode++ascii " "++status
  fields
  body

def lengthOf (data : Bytes) : Bytes × Bytes := (ascii "Content-Length",decimal data.length)

variable {statusCode : Int} {status data : Bytes} {headers : Headers} {fields : List (Bytes × Bytes)}

theorem decimal_plain (n : Nat) : ∀ letter ∈ decimal n, letter ≠ 32 ∧ letter ≠ 13 ∧ letter ≠ 10 := by
  intro letter member
  have digit := decimal_digits n letter member
  revert digit
  exact forall_byte (fun letter => isDigit letter = true → letter ≠ 32 ∧ letter ≠ 13 ∧ letter ≠ 10) (by decide +kernel) letter

theorem answered_bytes (statusCode : Int) (status : Bytes) (fields : List (Bytes × Bytes)) (body : Bytes) :
    (answered statusCode status fields body).bytes = ascii "HTTP/1.1 "++printInt statusCode++ascii " "++status++crlf++
      (fields.flatMap fun field => fieldLine field++crlf)++crlf++body := by
  have ended := intercalate_ends (answered statusCode status fields body).statusLine (fields.map fieldLine)
  have block : (answered statusCode status fields body).block++crlf =
      (answered statusCode status fields body).lines.flatMap (·++crlf) := ended.symm
  rw [Reply.bytes,blankLine,← List.append_assoc,block]
  simp [Reply.lines,answered,List.flatMap_map]

theorem printHeaders_lines (headers : Headers) :
    printHeaders headers = headers.toList.flatMap fun field => fieldLine field++crlf := by
  simp [printHeaders,fieldLine]

theorem head_answered (statusCode : Int) (status : Bytes) (headers : Headers) (data : Bytes) :
    ({statusCode,status,headers} : HttpResponse).head data.length false++data =
      (answered statusCode status (lengthOf data::headers.toList) data).bytes := by
  rw [answered_bytes,HttpResponse.head,printHeaders_lines]
  simp [lengthOf,fieldLine,ascii]

theorem coHead_answered (statusCode : Int) (status : Bytes) (headers : Headers) (data : Bytes) :
    (CoHttpExchange.prepared statusCode status headers).head data.length false++data =
      (answered statusCode status (headers.toList++[lengthOf data]) data).bytes := by
  rw [answered_bytes,CoHttpResponse.head,CoHttpExchange.prepared,printHeaders_lines]
  simp [lengthOf,fieldLine,ascii]

theorem printInt_code (code : 100 ≤ statusCode ∧ statusCode ≤ 999) :
    printInt statusCode = decimal statusCode.toNat ∧ (statusCode.toNat : Int) = statusCode ∧ statusCode.toNat < 2^31 := by
  have same : statusCode.natAbs = statusCode.toNat := by omega
  refine ⟨?_,by omega,by omega⟩
  rw [printInt,if_neg (by omega),same,List.nil_append]

-- The client cuts the status line at every blank.
theorem statusLine_items (good : Sendable statusCode status headers data) :
    split (ascii " ") (answered statusCode status fields data).statusLine =
      ascii "HTTP/1.1"::decimal statusCode.toNat::split [32] status := by
  have first : split (ascii " ") (ascii "HTTP/1.1"++ascii " "++(decimal statusCode.toNat++ascii " "++status)) =
      ascii "HTTP/1.1"::split (ascii " ") (decimal statusCode.toNat++ascii " "++status) := split_first (by decide) _
  have second : split (ascii " ") (decimal statusCode.toNat++ascii " "++status) =
      decimal statusCode.toNat::split (ascii " ") status :=
    split_first (fun member => (decimal_plain _ 32 member).1 rfl) status
  rw [second] at first
  rw [answered,(printInt_code good.code).1,← show ascii " " = [32] from rfl,← first]
  simp [ascii]

theorem answered_named (fields : List (Bytes × Bytes)) (good : Sendable statusCode status headers data) : ∃ named,
    readStatusLine {headerReady:=true} (answered statusCode status fields data).statusLine = .ok named ∧
      named.statusCode = statusCode ∧ named.status = status.filter (· != 32) := by
  obtain ⟨-,same,below⟩ := printInt_code good.code
  obtain ⟨named,read,coded,phrased⟩ := readStatusLine_items {headerReady:=true} (statusLine_items good)
    (split_filled good.phrase.1) (by decide) (decimal_numeral _) below
  exact ⟨named,read,coded.trans same,phrased.trans (split_flatten status)⟩

theorem answered_framed (good : Sendable statusCode status headers data) (listed : ∀ field ∈ fields, field ∈ headers.toList ∨
    field = lengthOf data) (present : lengthOf data ∈ fields) (distinct : (fields.map Prod.fst).Nodup)
    (short : (answered statusCode status fields data).bytes.length < 2^31-65536) :
    (answered statusCode status fields data).Framed where
  status := by
    refine ⟨by simp [answered,ascii],?_⟩
    intro letter member
    have fixed : ∀ letter ∈ ascii "HTTP/1.1 "++ascii " ", letter ≠ 13 ∧ letter ≠ 10 := by decide +kernel
    simp only [answered,List.mem_append] at member fixed
    rcases member with ((proto | code) | blank) | phrase
    · exact fixed letter (.inl proto)
    · rw [(printInt_code good.code).1] at code
      exact (decimal_plain _ letter code).2
    · exact fixed letter (.inr blank)
    · exact good.phrase.2 letter phrase
  keys := by
    intro field member
    rcases listed field member with given | rfl
    · exact (good.keys field given).2
    · change ∀ letter ∈ ascii "Content-Length", _
      decide +kernel
  values := by
    intro field member
    rcases listed field member with given | rfl
    · exact good.values field given
    · exact fun letter member => (decimal_plain _ letter member).2
  distinct := distinct
  length := ⟨_,present,decimal_numeral _⟩
  filled := good.filled
  short := short

theorem insert_isNew (good : Sendable statusCode status headers data) : headers[ascii "Content-Length"]? = none := by
  cases held : headers[ascii "Content-Length"]? with
  | none => rfl
  | some value => exact absurd rfl (good.keys _ (Std.ExtTreeMap.mem_toList_iff_getElem?_eq_some.mpr held)).1

-- Nothing but the phrase can get lost.
theorem readAs_iff (client : HttpClient) (good : Sendable statusCode status headers data)
    (framed : (answered statusCode status fields data).Framed)
    (stored : ∀ key, fields.lookup key = (headers.insert (ascii "Content-Length") (decimal data.length))[key]?)
    (reads : List (Int × Bytes)) (filled : ∀ read ∈ reads, 0 ≤ read.1 ∧ read.2 ≠ [])
    (cut : stream reads = (answered statusCode status fields data).bytes) :
    ReadAs client reads statusCode status headers data ↔ 32 ∉ status := by
  obtain ⟨named,read,coded,phrased⟩ := answered_named fields good
  obtain ⟨final,r,ran,held,rfl⟩ := run_received client framed read reads filled cut
  have whole : status.filter (· != 32) = status ↔ 32 ∉ status := by
    rw [List.filter_eq_self]
    constructor
    · intro every present
      exact absurd (every 32 present) (by decide)
    · intro absent letter member
      rw [bne_iff_ne]
      rintro rfl
      exact absent member
  rw [← whole,← phrased]
  constructor
  · rintro ⟨final',r,notices,again,-,same,-,-,kept,-⟩
    cases ran.symm.trans again
    cases held.symm.trans same
    exact kept
  · intro kept
    refine ⟨final,_,_,ran,by simp,held,rfl,coded,kept,?_,rfl⟩
    apply Std.ExtTreeMap.ext_getElem?
    intro key
    exact (Reply.store_lookup framed key).trans (stored key)

theorem fields_stored (good : Sendable statusCode status headers data) (key : Bytes) :
    (lengthOf data::headers.toList).lookup key =
        (headers.insert (ascii "Content-Length") (decimal data.length))[key]? ∧
      (headers.toList++[lengthOf data]).lookup key =
        (headers.insert (ascii "Content-Length") (decimal data.length))[key]? := by
  have isNew := insert_isNew good
  constructor
  · rw [lengthOf,lookup_first,toList_lookup,insert_lookup]
  · rw [List.lookup_append,toList_lookup,lengthOf,lookup_first,insert_lookup,List.lookup_nil]
    by_cases same : key = ascii "Content-Length"
    · rw [same,isNew,if_pos rfl,Option.none_or]
    · rw [if_neg same,if_neg same,Option.or_none]

theorem fields_distinct (good : Sendable statusCode status headers data) :
    ((lengthOf data::headers.toList).map Prod.fst).Nodup ∧ ((headers.toList++[lengthOf data]).map Prod.fst).Nodup := by
  have given : (headers.toList.map Prod.fst).Nodup := by
    rw [List.Nodup,List.pairwise_map]
    refine headers.distinct_keys_toList.imp ?_
    intro one two apart same
    exact apart (Std.LawfulEqOrd.compare_eq_iff_eq.mpr same)
  have isNew : ascii "Content-Length" ∉ headers.toList.map Prod.fst := by
    intro member
    obtain ⟨field,listed,same⟩ := List.mem_map.mp member
    exact (good.keys field listed).1 same
  constructor
  · rw [List.map_cons]
    exact List.nodup_cons.mpr ⟨isNew,given⟩
  · rw [List.map_append,List.nodup_append]
    refine ⟨given,by simp,?_⟩
    intro one member two last same
    rw [List.map_singleton,List.mem_singleton] at last
    exact isNew (by rw [← show (lengthOf data).1 = ascii "Content-Length" from rfl,← last,← same]; exact member)

-- A single Write gets its header and its data through.
theorem write_whole (statusCode : Int) (status : Bytes) (headers : Headers) (data : Bytes)
    (short : ((CoHttpExchange.prepared statusCode status headers).head data.length false++data).length < 2^31) :
    ∃ final outputs, (CoHttpExchange.overlapping (CoHttpExchange.prepared statusCode status headers)).run
        [.write data false 0,.completed 0 0,.completed 0 0] = .ok (final,outputs) ∧ final.response.isClose = true ∧
      (CoHttpExchange.handed outputs).flatMap Prod.snd =
        (CoHttpExchange.prepared statusCode status headers).head data.length false++data := by
  let r := CoHttpExchange.prepared statusCode status headers
  let call : CoHttpExchange.WriteCall := ⟨data,false⟩
  have parts : (r.head data.length false).length+data.length < 2^31 := by rw [← List.length_append]; exact short
  have header : (call.header r).left.length < 2^31 := by
    change (r.head data.length false).length < 2^31
    omega
  have body : data.length < 2^31 := by omega
  have waits : ({response:=r} : CoHttpExchange).outbox.Holds [] := ⟨rfl,rfl⟩
  obtain ⟨one,first,ran,head,sent⟩ := CoHttpExchange.step_header (s := {response:=r}) ⟨rfl,rfl⟩ rfl waits header 0
  obtain ⟨two,second,ran',rest,left⟩ := CoHttpExchange.step_headerDone (s := ⟨r,one⟩) sent ⟨body,header⟩ 0
  obtain ⟨three,third,ended,nothing,-⟩ :=
    CoHttpExchange.step_bodyDone (s := ⟨{r with writtenHeader:=true},two⟩) left body 0
  refine ⟨_,_,(CoHttpExchange.overlapping r).runFrom_cons.mpr ⟨_,first,_,ran,
    (CoHttpExchange.overlapping r).runFrom_cons.mpr ⟨_,second,_,ran',
      (CoHttpExchange.overlapping r).runFrom_cons.mpr ⟨_,third,[],ended,rfl,rfl⟩,rfl⟩,rfl⟩,rfl,?_⟩
  rw [List.append_nil,CoHttpExchange.handed_append,CoHttpExchange.handed_append,head,rest,nothing]
  simp [CoHttpExchange.WriteCall.header,call,r]

theorem write_readAs (client : HttpClient) (good : Sendable statusCode status headers data)
    (short : (({statusCode,status,headers} : HttpResponse).head data.length false++data).length < 2^31-65536)
    (reads : List (Int × Bytes)) (filled : ∀ read ∈ reads, 0 ≤ read.1 ∧ read.2 ≠ [])
    (cut : stream reads = (({statusCode,status,headers} : HttpResponse).write data false).2.flatten) :
    ReadAs client reads statusCode status headers data ↔ 32 ∉ status := by
  have whole : (({statusCode,status,headers} : HttpResponse).write data false).2.flatten =
      ({statusCode,status,headers} : HttpResponse).head data.length false++data := by
    simp [HttpResponse.write,List.length_pos_iff.mpr good.filled]
  rw [whole,head_answered] at cut
  rw [head_answered] at short
  have framed := answered_framed good (fun field member => (List.mem_cons.mp member).symm) List.mem_cons_self
    (fields_distinct good).1 short
  exact readAs_iff client good framed (fun key => (fields_stored good key).1) reads filled cut

-- The phrase comes back exactly when it is a single word: the client drops the
-- blanks between the words of a longer one.
theorem status_roundTrip_iff (client : HttpClient) (statusCode : Int) (status : Bytes) (headers : Headers) (data : Bytes)
    (good : Sendable statusCode status headers data)
    (short : (({statusCode,status,headers} : HttpResponse).head data.length false++data).length < 2^31-65536) :
    (∀ reads : List (Int × Bytes), (∀ read ∈ reads, 0 ≤ read.1 ∧ read.2 ≠ []) →
      stream reads = (({statusCode,status,headers} : HttpResponse).write data false).2.flatten →
        (ReadAs client reads statusCode status headers data ↔ 32 ∉ status)) ∧
    ∃ final outputs, (CoHttpExchange.overlapping (CoHttpExchange.prepared statusCode status headers)).run
        [.write data false 0,.completed 0 0,.completed 0 0] = .ok (final,outputs) ∧ final.response.isClose = true ∧
      ∀ reads : List (Int × Bytes), (∀ read ∈ reads, 0 ≤ read.1 ∧ read.2 ≠ []) →
        stream reads = (CoHttpExchange.handed outputs).flatMap Prod.snd →
          (ReadAs client reads statusCode status headers data ↔ 32 ∉ status) := by
  have size : ((CoHttpExchange.prepared statusCode status headers).head data.length false++data).length =
      (({statusCode,status,headers} : HttpResponse).head data.length false++data).length := by
    simp [CoHttpResponse.head,HttpResponse.head,CoHttpExchange.prepared]
    omega
  refine ⟨fun reads filled cut => write_readAs client good short reads filled cut,?_⟩
  obtain ⟨final,outputs,ran,closed,sent⟩ := write_whole statusCode status headers data (by omega)
  refine ⟨final,outputs,ran,closed,?_⟩
  intro reads filled cut
  rw [sent,coHead_answered] at cut
  rw [← size,coHead_answered] at short
  have framed := answered_framed good (fun field member => by simpa using member) (by simp) (fields_distinct good).2 short
  exact readAs_iff client good framed (fun key => (fields_stored good key).2) reads filled cut

theorem plain_sendable (code : 100 ≤ statusCode ∧ statusCode ≤ 999)
    (phrase : status ≠ [] ∧ ∀ letter ∈ status, letter ≠ 13 ∧ letter ≠ 10) (filled : data ≠ []) :
    Sendable statusCode status ∅ data where
  code := code
  phrase := phrase
  keys := by simp
  values := by simp
  filled := filled

theorem singleWord_roundTrip : Sendable 200 (ascii "OK") ∅ [97] ∧
    ReadAs {host:=[]} [(0,(({statusCode:=200,status:=ascii "OK",headers:=∅} : HttpResponse).write [97] false).2.flatten)]
      200 (ascii "OK") ∅ [97] := by
  have good : Sendable 200 (ascii "OK") ∅ [97] := plain_sendable (by decide) (by decide +kernel) (by decide)
  have both := status_roundTrip_iff {host:=[]} 200 (ascii "OK") ∅ [97] good (by decide +kernel)
  exact ⟨good,(both.1 _ (by decide +kernel) (by simp [stream])).mpr (by decide)⟩

theorem notFound_joined : Sendable 404 (ascii "Not Found") ∅ [97] ∧
    ¬ ReadAs {host:=[]}
      [(0,(({statusCode:=404,status:=ascii "Not Found",headers:=∅} : HttpResponse).write [97] false).2.flatten)]
      404 (ascii "Not Found") ∅ [97] := by
  have good : Sendable 404 (ascii "Not Found") ∅ [97] := plain_sendable (by decide) (by decide +kernel) (by decide)
  refine ⟨good,?_⟩
  intro read
  have single := (write_readAs {host:=[]} good (by decide +kernel) _ (by decide +kernel) (by simp [stream])).mp read
  exact single (by decide)

end CoStream.HttpClient
