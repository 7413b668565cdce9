import CoStream.DataBufferFifo
import CoStream.HttpClientSafety

namespace CoStream.HttpClient
open Foundation

-- A response as it goes over the wire: lines, a blank line and the body.
structure Reply where
  statusLine : Bytes
  fields : List (Bytes × Bytes)
  body : Bytes

namespace Reply

def lines (reply : Reply) : List Bytes := reply.statusLine::reply.fields.map fieldLine
def block (reply : Reply) : Bytes := crlf.intercalate reply.lines
def bytes (reply : Reply) : Bytes := reply.block++blankLine++reply.body

-- The lines can be told apart, the keys are distinct, and Content-Length is the
-- length of the body, which is not empty.
structure Framed (reply : Reply) : Prop where
  status : reply.statusLine ≠ [] ∧ ∀ letter ∈ reply.statusLine, letter ≠ 13 ∧ letter ≠ 10
  keys : ∀ field ∈ reply.fields, ∀ letter ∈ field.1, letter ≠ 58 ∧ letter ≠ 13 ∧ letter ≠ 10
  values : ∀ field ∈ reply.fields, ∀ letter ∈ field.2, letter ≠ 13 ∧ letter ≠ 10
  distinct : (reply.fields.map Prod.fst).Nodup
  length : ∃ length, (ascii "Content-Length",length) ∈ reply.fields ∧ Numeral length reply.body.length
  filled : reply.body ≠ []
  short : reply.bytes.length < 2^31-65536

def store (fields : List (Bytes × Bytes)) : Headers := fields.foldl (fun held field => held.insert field.1 field.2) ∅

-- What the client makes of the header, when it has read the status line.
def parsed (reply : Reply) (named : HttpClientResponse) : HttpClientResponse :=
  {named with contentLength:=reply.body.length,headers:=store reply.fields}

-- Where the client is behind a part of the bytes.
def heldAt (reply : Reply) (named : HttpClientResponse) (received : Bytes) : HttpClientResponse :=
  if received.length < reply.block.length+4 then {data:=received}
  else {reply.parsed named with
    data:=received.drop (reply.block.length+4)
    bodyReady:=decide (reply.bytes.length ≤ received.length)}

def noticeAt (reply : Reply) (received : Bytes) : Notice :=
  if reply.bytes.length ≤ received.length then ⟨some 0,false⟩ else ⟨none,true⟩

variable {reply : Reply} {named : HttpClientResponse} {received data : Bytes}

theorem lines_clear (framed : reply.Framed) : ∀ line ∈ reply.lines, 13 ∉ line ∧ line ≠ [] := by
  intro line member
  rcases List.mem_cons.mp member with rfl | listed
  · exact ⟨fun present => (framed.status.2 13 present).1 rfl,framed.status.1⟩
  · obtain ⟨field,given,rfl⟩ := List.mem_map.mp listed
    constructor
    · intro present
      simp only [fieldLine,List.mem_append] at present
      rcases present with (inKey | between) | inValue
      · exact (framed.keys field given 13 inKey).2.1 rfl
      · revert between
        decide
      · exact (framed.values field given 13 inValue).1 rfl
    · simp [fieldLine,ascii]

theorem split_block (framed : reply.Framed) : split crlf reply.block = reply.lines :=
  split_intercalate _ (fun line member => (lines_clear framed line member).1) fun last ends =>
    (lines_clear framed last (List.mem_of_getLast? ends)).2

-- The blank line is found in a part that has it, and only there.
theorem find?_received (framed : reply.Framed) (front : received <+: reply.bytes) :
    find? blankLine received = if received.length < reply.block.length+4 then none else some reply.block.length := by
  have first : ∀ behind, find? blankLine (reply.block++blankLine++behind) = some reply.block.length :=
    find?_blank_line (by decide) reply.lines (by simp [lines]) (lines_clear framed)
  obtain ⟨rest,whole⟩ := front
  split
  · rename_i early
    cases found : find? blankLine received with
    | none => rfl
    | some pos =>
      have inside := (find?_inside found).1
      have later := find?_append found rest
      rw [whole,bytes,first] at later
      cases later
      change reply.block.length+4 ≤ received.length at inside
      omega
  · rename_i late
    have taken : received = reply.block++blankLine++received.drop (reply.block.length+4) := by
      have same := congrArg (List.take (reply.block.length+4)) whole
      have length : (reply.block++blankLine).length = reply.block.length+4 := by simp [blankLine,crlf]
      rw [List.take_append_of_le_length (by omega),bytes,← length,List.take_left' rfl,length] at same
      conv_lhs => rw [← List.take_append_drop (reply.block.length+4) received]
      rw [same]
    rw [taken]
    exact first _

theorem foldl_contentLength (framed : reply.Framed) (length : Int) :
    reply.fields.foldl (fun length field => if field.1 = ascii "Content-Length" then atoi field.2 else length) length =
      reply.body.length := by
  obtain ⟨text,member,numeral⟩ := framed.length
  have small := framed.short
  have distinct := framed.distinct
  have size : reply.body.length ≤ reply.bytes.length := by
    rw [bytes,List.length_append]
    omega
  obtain ⟨before,after,shape⟩ := List.append_of_mem member
  rw [shape,List.map_append,List.map_cons,List.nodup_append] at distinct
  have apart := (List.nodup_cons.mp distinct.2.1).1
  rw [shape,List.foldl_append,List.foldl_cons,if_pos rfl,foldl_length after _ ?_]
  · exact atoi_numeral numeral (by omega)
  · intro field later same
    exact apart (List.mem_map.mpr ⟨field,later,same⟩)

theorem foldl_lookup (fields : List (Bytes × Bytes)) (distinct : (fields.map Prod.fst).Nodup) (headers : Headers)
    (key : Bytes) : (fields.foldl (fun held field => held.insert field.1 field.2) headers)[key]? =
      (fields.lookup key).or headers[key]? := by
  induction fields generalizing headers with
  | nil => rfl
  | cons field rest ih =>
    obtain ⟨name,value⟩ := field
    obtain ⟨apart,others⟩ := List.nodup_cons.mp distinct
    rw [List.foldl_cons,ih others,lookup_first,insert_lookup]
    by_cases same : key = name
    · have absent : rest.lookup key = none := by
        rw [List.lookup_eq_none_iff]
        intro row listed
        simp only [bne_iff_ne,ne_eq]
        rintro rfl
        exact apart (List.mem_map.mpr ⟨row,listed,same⟩)
      rw [if_pos same,if_pos same,absent,Option.none_or,Option.some_or]
    · rw [if_neg same,if_neg same]

theorem store_lookup (framed : reply.Framed) (key : Bytes) : (store reply.fields)[key]? = reply.fields.lookup key := by
  rw [store,foldl_lookup _ framed.distinct,Std.ExtTreeMap.getElem?_empty,Option.or_none]

theorem readStatusLine_keeps {r : HttpClientResponse} (read : readStatusLine r line = .ok named) :
    named.headers = r.headers ∧ named.headerReady = r.headerReady ∧ named.bodyReady = r.bodyReady ∧
      named.contentLength = r.contentLength := by
  unfold readStatusLine at read
  split at read
  · split at read
    · cases read
    · cases read
      exact ⟨rfl,rfl,rfl,rfl⟩
  · cases read

theorem readResponse_block (framed : reply.Framed) (status : readStatusLine {headerReady:=true} reply.statusLine = .ok named)
    (data : Bytes) : readResponse {headerReady:=true,data} reply.block = .ok {reply.parsed named with data} := by
  have colonless : ∀ field ∈ reply.fields, 58 ∉ field.1 :=
    fun field member present => (framed.keys field member 58 present).1 rfl
  have fields := readHeaderLines_fields reply.fields named colonless
  rw [foldl_contentLength framed,(readStatusLine_keeps status).1] at fields
  have read : readResponse {headerReady:=true} reply.block = .ok (reply.parsed named) := by
    unfold readResponse
    rw [split_block framed]
    exact bind_ok.mpr ⟨named,status,fields⟩
  exact (readResponse_data _ _ data read).1

-- With the header behind it, the client waits for the rest of the body.
theorem deliver_received (named : HttpClientResponse) (framed : reply.Framed) (front : received <+: reply.bytes)
    (late : ¬ received.length < reply.block.length+4) :
    deliver {reply.parsed named with data:=received.drop (reply.block.length+4),bodyReady:=false} =
      (reply.heldAt named received,reply.noticeAt received) := by
  have size : reply.bytes.length = reply.block.length+4+reply.body.length := by
    simp [bytes,blankLine,crlf]
    omega
  have small := framed.short
  have inside := front.length_le
  have filled := List.length_pos_iff.mpr framed.filled
  have fits : toInt (received.drop (reply.block.length+4)).length = (received.length-(reply.block.length+4) : Nat) := by
    rw [List.length_drop]
    exact toInt_fits (by constructor <;> omega)
  unfold deliver heldAt noticeAt
  rw [if_neg late,if_pos (by change (reply.body.length : Int) > 0; omega)]
  dsimp only
  rw [fits]
  by_cases whole : reply.bytes.length ≤ received.length
  · rw [if_pos (by change (reply.body.length : Int) ≤ _; omega),if_pos whole,decide_eq_true whole]
  · rw [if_neg (by change ¬ (reply.body.length : Int) ≤ _; omega),if_neg whole,decide_eq_false whole]

-- One read: it completes the header, or the body, or neither.
theorem collect_received (framed : reply.Framed) (status : readStatusLine {headerReady:=true} reply.statusLine = .ok named)
    (front : received++data <+: reply.bytes) (filled : data ≠ []) :
    collect (reply.heldAt named received) data = .ok (reply.heldAt named (received++data),reply.noticeAt (received++data)) := by
  have longer := List.length_pos_iff.mpr filled
  have inside := front.length_le
  have found := find?_received framed front
  obtain ⟨-,ready,unready,-⟩ := readStatusLine_keeps status
  have size : reply.bytes.length = reply.block.length+4+reply.body.length := by
    simp [bytes,blankLine,crlf]
    omega
  have bodied := List.length_pos_iff.mpr framed.filled
  rw [List.length_append] at inside
  by_cases early : received.length < reply.block.length+4
  · have before : reply.heldAt named received = {data:=received} := if_pos early
    rw [before]
    unfold collect
    dsimp only
    rw [if_neg (by decide),found]
    by_cases still : (received++data).length < reply.block.length+4
    · have waiting : ¬ reply.bytes.length ≤ (received++data).length := by omega
      rw [if_pos still,heldAt,if_pos still,noticeAt,if_neg waiting]
    · have front' := front
      obtain ⟨rest,whole⟩ := front
      have block : (received++data).take reply.block.length = reply.block := by
        have same := congrArg (List.take reply.block.length) whole
        rw [List.take_append_of_le_length (by omega),bytes,List.append_assoc,List.take_left' rfl] at same
        exact same
      have delivered := deliver_received named framed front' still
      have read := readResponse_block framed status ((received++data).drop (reply.block.length+4))
      rw [if_neg still]
      dsimp only
      rw [block,read,ok_bind]
      rw [← delivered]
      have same : named.bodyReady = false := unready
      simp only [parsed,same]
  · have late : ¬ (received++data).length < reply.block.length+4 := by
      rw [List.length_append]
      omega
    have unfinished : decide (reply.bytes.length ≤ received.length) = false := decide_eq_false (by omega)
    have isReady : (reply.heldAt named received).headerReady = true := by
      rw [heldAt,if_neg early]
      exact ready
    unfold collect
    rw [if_pos isReady,← deliver_received named framed front late,heldAt,if_neg early,unfinished,
      List.drop_append_of_le_length (by omega)]

end Reply

variable {reply : Reply} {named : HttpClientResponse}

theorem onRead_received (framed : reply.Framed) (status : readStatusLine {headerReady:=true} reply.statusLine = .ok named)
    (s : HttpClient) (held : s.held = reply.heldAt named received) (read : Int × Bytes) (success : 0 ≤ read.1)
    (filled : read.2 ≠ []) (front : received++read.2 <+: reply.bytes) : ∃ next,
      s.onRead read.1 read.2 = .ok (next,reply.noticeAt (received++read.2)) ∧
        next.response = some (reply.heldAt named (received++read.2)) := by
  have busy : ¬ (read.1 < 0 ∨ read.2 = []) := not_or.mpr ⟨by omega,filled⟩
  rw [(onRead_collect busy).1,held,Reply.collect_received framed status front filled]
  exact ⟨_,rfl,rfl⟩

-- The reads of a response: only the last one is answered by a callback.
theorem runFrom_received (client : HttpClient) (framed : reply.Framed)
    (status : readStatusLine {headerReady:=true} reply.statusLine = .ok named) (reads : List (Int × Bytes))
    (s : HttpClient) (held : s.held = reply.heldAt named received) (present : reads ≠ [])
    (good : ∀ read ∈ reads, 0 ≤ read.1 ∧ read.2 ≠ []) (whole : received++stream reads = reply.bytes) : ∃ final,
      (reading client).runFrom s reads = .ok (final,List.replicate (reads.length-1) ⟨none,true⟩++[⟨some 0,false⟩]) ∧
        final.response = some (reply.heldAt named reply.bytes) := by
  induction reads generalizing s received with
  | nil => exact absurd rfl present
  | cons read rest ih =>
    obtain ⟨success,filled⟩ := good read List.mem_cons_self
    have cut : stream (read::rest) = read.2++stream rest := by simp [stream,Int.not_lt.mpr success]
    rw [cut,← List.append_assoc] at whole
    obtain ⟨next,ran,after⟩ := onRead_received framed status s held read success filled ⟨stream rest,whole⟩
    have stepped : (reading client).step s read = .ok (next,[reply.noticeAt (received++read.2)]) :=
      reading_step.mpr ⟨_,ran,rfl⟩
    cases rest with
    | nil =>
      have last : received++read.2 = reply.bytes := by simpa [stream] using whole
      rw [last] at stepped after
      have ended : reply.noticeAt reply.bytes = ⟨some 0,false⟩ := if_pos (Nat.le_refl _)
      rw [ended] at stepped
      exact ⟨next,(reading client).runFrom_cons.mpr ⟨next,_,[],stepped,rfl,rfl⟩,after⟩
    | cons other rest =>
      have others := fun read member => good read (List.mem_cons_of_mem _ member)
      obtain ⟨nonneg,more⟩ := others other List.mem_cons_self
      have total := congrArg List.length whole
      have longer := List.length_pos_iff.mpr more
      have behind : stream (other::rest) = other.2++stream rest := by simp [stream,Int.not_lt.mpr nonneg]
      rw [List.length_append,List.length_append,behind,List.length_append] at total
      have waiting : reply.noticeAt (received++read.2) = ⟨none,true⟩ := if_neg (by rw [List.length_append]; omega)
      rw [waiting] at stepped
      have now : next.held = reply.heldAt named (received++read.2) := by
        rw [HttpClient.held,after]
        rfl
      obtain ⟨final,continued,stored⟩ := ih next now (by simp) others whole
      exact ⟨final,(reading client).runFrom_cons.mpr ⟨next,_,_,stepped,continued,rfl⟩,stored⟩

-- What a read does to data_.
def touches (s : HttpClient) (read : Int × Bytes) : List DataBuffer.Operation :=
  if read.1 < 0 ∨ read.2 = [] then []
  else .appendData read.2::((s.completes read).map fun block => .consumeData (block.length+4)).toList

-- The client with all that it has done to data_.
def buffering (client : HttpClient) : Machine (HttpClient × List DataBuffer.Operation) (Int × Bytes) Notice Stop :=
  (reading client).recording (fun s operations read => operations++touches s read) []

variable {s next : HttpClient} {operations : List DataBuffer.Operation} {read : Int × Bytes} {notice : Notice}

theorem deliver_data (r : HttpClientResponse) : (deliver r).1.data = r.data := by
  unfold deliver
  split
  · split <;> rfl
  · rfl

theorem collect_data (busy : ¬ (read.1 < 0 ∨ read.2 = [])) (collected : collect s.held read.2 = .ok done) :
    s.completes read = none ∧ done.1.data = s.held.data++read.2 ∨ ∃ block, s.completes read = some block ∧
      block.length+4 ≤ (s.held.data++read.2).length ∧ done.1.data = (s.held.data++read.2).drop (block.length+4) := by
  obtain ⟨success,filled⟩ := not_or.mp busy
  unfold collect at collected
  cases ready : s.held.headerReady with
  | true =>
    rw [if_pos ready] at collected
    cases collected
    exact .inl ⟨by simp [completes,ready],deliver_data _⟩
  | false =>
    rw [if_neg (by simp [ready])] at collected
    dsimp only at collected
    have asked : s.completes read = (find? blankLine (s.held.data++read.2)).map (s.held.data++read.2).take := by
      simp [completes,success,filled,ready]
    cases found : find? blankLine (s.held.data++read.2) with
    | none =>
      rw [found] at asked collected
      cases collected
      exact .inl ⟨asked,rfl⟩
    | some pos =>
      rw [found] at asked collected
      obtain ⟨parsed,read',same⟩ := bind_ok.mp collected
      cases same
      have inside : pos+4 ≤ (s.held.data++read.2).length := (find?_inside found).1
      have length : ((s.held.data++read.2).take pos).length = pos := by
        rw [List.length_take]
        omega
      have again := (readResponse_data _ _ ((s.held.data++read.2).drop (pos+4)) read').1
      have kept := congrArg HttpClientResponse.data (Except.ok.inj (read'.symm.trans again))
      refine .inr ⟨_,asked,by rw [length]; exact inside,?_⟩
      rw [deliver_data,length]
      exact kept

theorem touches_operate (ran : s.onRead read.1 read.2 = .ok (next,notice))
    (room : s.held.data.length+(stream [read]).length+20480 < 2^31) :
    Machine.AdmittedFrom DataBufferFifo.enqueue DataBufferFifo.Admits s.held.data (touches s read) ∧
      (touches s read).foldl DataBufferFifo.enqueue s.held.data = next.held.data ∧
      next.held.data.length ≤ s.held.data.length+(stream [read]).length := by
  by_cases idle : read.1 < 0 ∨ read.2 = []
  · obtain ⟨⟨other,same⟩,-⟩ := onRead_idle (s := s) idle
    cases ran.symm.trans same
    rw [touches,if_pos idle]
    exact ⟨trivial,rfl,by omega⟩
  · obtain ⟨runs,brings⟩ := onRead_collect (s := s) idle
    rw [runs] at ran
    obtain ⟨done,collected,same⟩ := map_ok.mp ran
    cases same
    change _ ∧ _ = done.1.data ∧ done.1.data.length ≤ _
    rw [brings] at room ⊢
    have appended : DataBufferFifo.Admits s.held.data (.appendData read.2) :=
      ⟨by simp,by simpa [DataBufferFifo.enqueue] using room⟩
    rw [touches,if_neg idle]
    rcases collect_data idle collected with ⟨nothing,data⟩ | ⟨block,completed,inside,data⟩
    · rw [nothing,data,List.length_append]
      exact ⟨⟨appended,trivial⟩,rfl,Nat.le_refl _⟩
    · have taken : DataBufferFifo.enqueue (s.held.data++read.2) (.consumeData (block.length+4)) =
          (s.held.data++read.2).drop (block.length+4) := by
        rw [DataBufferFifo.enqueue,if_neg (by omega)]
        rfl
      rw [completed,data]
      refine ⟨⟨appended,⟨?_,?_⟩,trivial⟩,taken,?_⟩
      · rintro _ ⟨⟩
        omega
      · change (DataBufferFifo.enqueue (s.held.data++read.2) (.consumeData (block.length+4))).length+20480 < _
        rw [taken,List.length_drop,List.length_append]
        omega
      · rw [List.length_drop,List.length_append]
        omega

-- The operations stay within what a DataBuffer can show, and lead to the bytes
-- that the model holds.
structure Buffers (bytes : Bytes) (s : HttpClient) (operations : List DataBuffer.Operation) : Prop where
  admitted : Machine.AdmittedFrom DataBufferFifo.enqueue DataBufferFifo.Admits [] operations
  content : DataBufferFifo.contentOf operations = s.held.data
  bounded : s.held.data.length ≤ bytes.length

theorem buffering_run (ran : (buffering client).run reads = .ok ((s,operations),notices))
    (room : (stream reads).length+20480 < 2^31) : Buffers (stream reads) s operations := by
  refine (buffering client).admissible_history (fun reads => (stream reads).length+20480 < 2^31) (fun _ _ _ => True)
    (fun reads _ kept => Buffers (stream reads) kept.1 kept.2) ?_ ⟨trivial,rfl,Nat.zero_le _⟩ ?_ reads room
    (fun _ _ _ _ _ _ _ => trivial) ran
  · intro before after room
    rw [stream_append,List.length_append] at room
    omega
  · rintro reads notices ⟨s,operations⟩ read ⟨next,later⟩ emitted room ⟨admitted,content,bounded⟩ - stepped
    obtain ⟨plain,rfl⟩ := (reading client).recording_step.mp stepped
    obtain ⟨notice,ran,-⟩ := reading_step.mp plain
    rw [stream_append,List.length_append] at room
    dsimp only at content bounded
    obtain ⟨operates,left,shorter⟩ := touches_operate ran (by omega)
    refine ⟨Machine.admittedFrom_append.mpr ⟨admitted,?_⟩,?_,?_⟩
    · change Machine.AdmittedFrom _ _ (DataBufferFifo.contentOf operations) _
      rw [content]
      exact operates
    · rw [DataBufferFifo.contentOf,List.foldl_append]
      change (touches s read).foldl _ (DataBufferFifo.contentOf operations) = _
      rw [content]
      exact left
    · rw [stream_append,List.length_append]
      change next.held.data.length ≤ _
      omega

-- A DataBuffer of the default size goes through the same operations, and shows
-- the same bytes.
theorem data_refined (ran : (buffering client).run reads = .ok ((s,operations),notices))
    (room : (stream reads).length+20480 < 2^31) : ∃ fresh final answers, DataBuffer.create extraLen.toNat = .ok fresh ∧
      (DataBuffer.machine fresh).run operations = .ok (final,answers) ∧ final.data = s.held.data.map some := by
  obtain ⟨admitted,content,-⟩ := buffering_run ran room
  obtain ⟨fresh,final,answers,created,performed,-,-,shown,-⟩ :=
    DataBufferFifo.refinesFifo_below (show 200 ≤ extraLen.toNat by decide) (by decide) operations admitted
  rw [content] at shown
  exact ⟨fresh,final,answers,created,performed,shown⟩

theorem run_received (client : HttpClient) (framed : reply.Framed)
    (status : readStatusLine {headerReady:=true} reply.statusLine = .ok named) (reads : List (Int × Bytes))
    (good : ∀ read ∈ reads, 0 ≤ read.1 ∧ read.2 ≠ []) (cut : stream reads = reply.bytes) : ∃ final r,
      (reading client).run reads = .ok (final,List.replicate (reads.length-1) ⟨none,true⟩++[⟨some 0,false⟩]) ∧
        final.response = some r ∧ r = {reply.parsed named with data:=reply.body,bodyReady:=true} := by
  have present : reads ≠ [] := by
    rintro rfl
    have empty : reply.body = [] := (List.append_eq_nil_iff.mp cut.symm).2
    exact framed.filled empty
  have fresh : ({client with response:=none} : HttpClient).held = reply.heldAt named [] := (if_pos (by simp)).symm
  obtain ⟨final,ran,stored⟩ := runFrom_received client framed status reads {client with response:=none} fresh present good cut
  refine ⟨final,_,ran,stored,?_⟩
  have length : (reply.block++blankLine).length = reply.block.length+4 := by simp [blankLine,crlf]
  have whole : reply.bytes.drop (reply.block.length+4) = reply.body := List.drop_left' length
  rw [Reply.heldAt,if_neg (by rw [Reply.bytes,List.length_append]; omega),whole,decide_eq_true (Nat.le_refl _)]

-- The status line as the client needs it.
structure Reply.Wellformed (reply : Reply) (statusCode : Nat) : Prop extends reply.Framed where
  items : ∃ first code words, split (ascii " ") reply.statusLine = first::code::words ∧ words ≠ [] ∧ 47 ∈ first ∧
    Numeral code statusCode
  below : statusCode < 2^31

theorem readStatusLine_items (r : HttpClientResponse) (items : split (ascii " ") line = first::code::words)
    (worded : words ≠ []) (marked : 47 ∈ first) (numeral : Numeral code statusCode) (below : statusCode < 2^31) :
    ∃ named, readStatusLine r line = .ok named ∧ named.statusCode = statusCode ∧ named.status = words.flatten := by
  obtain ⟨pos,found⟩ := find?_single marked
  obtain ⟨word,words,rfl⟩ := List.exists_cons_of_ne_nil worded
  unfold readStatusLine
  rw [items]
  dsimp only
  rw [show ascii "/" = [47] from rfl,found]
  exact ⟨_,rfl,atoi_numeral numeral below,rfl⟩

-- However the response is cut into reads, OnHttpRead is called once, for the last
-- of them, with the whole response.
theorem response_reassembled (client : HttpClient) (reply : Reply) (statusCode : Nat) (good : reply.Wellformed statusCode)
    (reads : List (Int × Bytes)) (filled : ∀ read ∈ reads, 0 ≤ read.1 ∧ read.2 ≠ []) (cut : stream reads = reply.bytes) :
    ∃ final r operations, (buffering client).run reads =
        .ok ((final,operations),List.replicate (reads.length-1) ⟨none,true⟩++[⟨some 0,false⟩]) ∧
      final.response = some r ∧ r.statusCode = statusCode ∧ (∀ key, r.headers[key]? = reply.fields.lookup key) ∧
      r.contentLength = reply.body.length ∧ r.bodyReady = true ∧ r.data = reply.body ∧
      ∃ fresh buffer answers, DataBuffer.create extraLen.toNat = .ok fresh ∧
        (DataBuffer.machine fresh).run operations = .ok (buffer,answers) ∧ buffer.data = reply.body.map some := by
  obtain ⟨first,code,words,items,worded,marked,numeral⟩ := good.items
  obtain ⟨named,status,coded,-⟩ := readStatusLine_items {headerReady:=true} items worded marked numeral good.below
  obtain ⟨final,r,ran,stored,rfl⟩ := run_received client good.toFramed status reads filled cut
  obtain ⟨operations,recorded⟩ := (reading client).recording_run.mp ran
  have short := good.short
  obtain ⟨fresh,buffer,answers,created,performed,shown⟩ := data_refined recorded (by rw [cut]; omega)
  rw [HttpClient.held,stored] at shown
  exact ⟨final,_,operations,recorded,stored,coded,Reply.store_lookup good.toFramed,rfl,rfl,rfl,
    fresh,buffer,answers,created,performed,shown⟩

-- A body that looks like the end of a header, cut inside the real one.
def notFound : Reply where
  statusLine := ascii "HTTP/1.1 404 Not Found"
  fields := [(ascii "Content-Length",ascii "04"),(ascii "X",[])]
  body := blankLine

theorem notFound_wellformed : notFound.Wellformed 404 where
  status := by decide +kernel
  keys := by decide +kernel
  values := by decide +kernel
  distinct := by decide +kernel
  length := ⟨ascii "04",by decide +kernel,by decide +kernel,by decide +kernel,by decide +kernel⟩
  filled := by decide +kernel
  short := by decide +kernel
  items := ⟨ascii "HTTP/1.1",ascii "404",[ascii "Not",ascii "Found"],by decide +kernel,by decide +kernel,by decide +kernel,
    by decide +kernel,by decide +kernel,by decide +kernel⟩
  below := by decide +kernel

theorem notFound_reassembled : let reads := [(0,notFound.bytes.take 48),(0,notFound.bytes.drop 48)]
    notFound.Wellformed 404 ∧ (∀ read ∈ reads, (0 : Int) ≤ read.1 ∧ read.2 ≠ []) ∧ stream reads = notFound.bytes ∧
    ∃ final r operations, (buffering {host:=[]}).run reads =
        .ok ((final,operations),List.replicate (reads.length-1) ⟨none,true⟩++[⟨some 0,false⟩]) ∧
      final.response = some r ∧ r.statusCode = 404 ∧ (∀ key, r.headers[key]? = notFound.fields.lookup key) ∧
      r.contentLength = notFound.body.length ∧ r.bodyReady = true ∧ r.data = notFound.body ∧
      ∃ fresh buffer answers, DataBuffer.create extraLen.toNat = .ok fresh ∧
        (DataBuffer.machine fresh).run operations = .ok (buffer,answers) ∧ buffer.data = notFound.body.map some := by
  have filled : ∀ read ∈ [(0,notFound.bytes.take 48),(0,notFound.bytes.drop 48)], (0 : Int) ≤ read.1 ∧ read.2 ≠ [] := by
    decide +kernel
  exact ⟨notFound_wellformed,filled,by decide +kernel,
    response_reassembled {host:=[]} notFound 404 notFound_wellformed _ filled (by decide +kernel)⟩

end CoStream.HttpClient
