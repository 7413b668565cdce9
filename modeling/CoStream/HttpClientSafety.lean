import CoStream.HttpClientRequest

namespace CoStream.HttpClient
open Foundation

variable {next : HttpClientResponse}

-- Reading a header block neither looks at the data nor at the flag.
theorem readHeaderLines_data (lines : List Bytes) (r : HttpClientResponse) (data : Bytes)
    (read : readHeaderLines r lines = .ok next) : readHeaderLines {r with data} lines = .ok {next with data} ∧
      next.headerReady = r.headerReady := by
  induction lines generalizing r with
  | nil =>
    cases read
    exact ⟨rfl,rfl⟩
  | cons line rest ih =>
    unfold readHeaderLines at read ⊢
    cases found : find? (ascii ":") line with
    | none =>
      rw [found] at read
      cases read
    | some pos =>
      rw [found] at read
      dsimp only at read ⊢
      obtain ⟨value,cut,continued⟩ := bind_ok.mp read
      obtain ⟨again,kept⟩ := ih _ continued
      exact ⟨bind_ok.mpr ⟨value,cut,again⟩,kept⟩

theorem readStatusLine_data (r : HttpClientResponse) (line data : Bytes) (read : readStatusLine r line = .ok next) :
    readStatusLine {r with data} line = .ok {next with data} ∧ next.headerReady = r.headerReady := by
  unfold readStatusLine at read ⊢
  split at read
  · dsimp only at read ⊢
    split at read
    · cases read
    · cases read
      exact ⟨rfl,rfl⟩
  · cases read

theorem readResponse_data (r : HttpClientResponse) (block data : Bytes) (read : readResponse r block = .ok next) :
    readResponse {r with data} block = .ok {next with data} ∧ next.headerReady = r.headerReady := by
  unfold readResponse at read ⊢
  split at read
  · cases read
    exact ⟨rfl,rfl⟩
  · obtain ⟨middle,first,second⟩ := bind_ok.mp read
    obtain ⟨status,kept⟩ := readStatusLine_data r _ data first
    obtain ⟨fields,still⟩ := readHeaderLines_data _ middle data second
    exact ⟨bind_ok.mpr ⟨_,status,fields⟩,still.trans kept⟩

-- A line for each field is read back, and of several with one key the last counts.
theorem readHeaderLines_fields (fields : List (Bytes × Bytes)) (r : HttpClientResponse)
    (clear : ∀ field ∈ fields, 58 ∉ field.1) :
    readHeaderLines r (fields.map fieldLine) = .ok {r with
      contentLength:=fields.foldl
        (fun length field => if field.1 = ascii "Content-Length" then atoi field.2 else length) r.contentLength
      headers:=fields.foldl (fun held field => held.insert field.1 field.2) r.headers} := by
  induction fields generalizing r with
  | nil => rfl
  | cons field rest ih =>
    obtain ⟨found,key,value⟩ := fieldLine_cut field (clear field List.mem_cons_self)
    rw [List.map_cons,readHeaderLines,found]
    dsimp only
    have read : (substr (fieldLine field) (field.1.length+2)).mapError Stop.thrown = .ok field.2 := by
      rw [value]
      rfl
    rw [read,ok_bind,key]
    exact ih _ fun other member => clear other (List.mem_cons_of_mem _ member)

-- What the asserts and the substr calls of OnRead ask of the lines of a header
-- block: three items in the first one, with a '/' in the first item, and in
-- every other one a ':' with at least one byte behind it.
def StatusLineOk (line : Bytes) : Prop :=
  ∃ first rest, split (ascii " ") line = first::rest ∧ 2 ≤ rest.length ∧ find? (ascii "/") first ≠ none

def HeaderLineOk (line : Bytes) : Prop := ∃ pos, find? (ascii ":") line = some pos ∧ pos+2 ≤ line.length

def BlockOk (block : Bytes) : Prop :=
  ∀ line lines, split crlf block = line::lines → StatusLineOk line ∧ ∀ other ∈ lines, HeaderLineOk other

theorem readStatusLine_defined (r : HttpClientResponse) (line : Bytes) :
    (∃ next, readStatusLine r line = .ok next) ↔ StatusLineOk line := by
  unfold readStatusLine StatusLineOk
  constructor
  · rintro ⟨next,read⟩
    split at read
    · rename_i first code word words items
      refine ⟨first,_,items,by simp,?_⟩
      intro missing
      rw [missing] at read
      cases read
    · cases read
  · rintro ⟨first,rest,items,long,marked⟩
    obtain ⟨pos,found⟩ := Option.ne_none_iff_exists'.mp marked
    rw [items]
    cases rest with
    | nil => simp at long
    | cons code rest =>
      cases rest with
      | nil => simp at long
      | cons word words =>
        dsimp only
        rw [found]
        exact ⟨_,rfl⟩

theorem readHeaderLines_defined (lines : List Bytes) (r : HttpClientResponse) :
    (∃ next, readHeaderLines r lines = .ok next) ↔ ∀ other ∈ lines, HeaderLineOk other := by
  induction lines generalizing r with
  | nil => exact ⟨fun _ other never => absurd never List.not_mem_nil,fun _ => ⟨r,rfl⟩⟩
  | cons line rest ih =>
    rw [List.forall_mem_cons]
    constructor
    · rintro ⟨next,read⟩
      unfold readHeaderLines at read
      cases found : find? (ascii ":") line with
      | none =>
        rw [found] at read
        cases read
      | some pos =>
        rw [found] at read
        obtain ⟨value,cut,later⟩ := bind_ok.mp read
        refine ⟨⟨pos,found,?_⟩,(ih _).mp ⟨next,later⟩⟩
        by_contra short
        rw [substr,if_pos (by omega)] at cut
        cases cut
    · rintro ⟨⟨pos,found,inside⟩,others⟩
      obtain ⟨next,later⟩ := (ih {r with
        contentLength:=if line.take pos = ascii "Content-Length" then atoi (line.drop (pos+2)) else r.contentLength
        headers:=r.headers.insert (line.take pos) (line.drop (pos+2))}).mpr others
      refine ⟨next,?_⟩
      unfold readHeaderLines
      rw [found]
      exact bind_ok.mpr ⟨_,by rw [substr_ok inside]; rfl,later⟩

theorem readResponse_defined (r : HttpClientResponse) (block : Bytes) :
    (∃ next, readResponse r block = .ok next) ↔ BlockOk block := by
  unfold readResponse BlockOk
  constructor
  · rintro ⟨next,read⟩ line lines cut
    rw [cut] at read
    obtain ⟨middle,first,second⟩ := bind_ok.mp read
    exact ⟨(readStatusLine_defined r line).mp ⟨middle,first⟩,(readHeaderLines_defined lines middle).mp ⟨next,second⟩⟩
  · intro good
    cases cut : split crlf block with
    | nil => exact ⟨r,rfl⟩
    | cons line lines =>
      obtain ⟨status,others⟩ := good line lines cut
      obtain ⟨middle,first⟩ := (readStatusLine_defined r line).mpr status
      obtain ⟨next,second⟩ := (readHeaderLines_defined lines middle).mpr others
      exact ⟨next,bind_ok.mpr ⟨middle,first,second⟩⟩

-- The reads of one response, each with its code and its bytes.
def reading (client : HttpClient) : Machine HttpClient (Int × Bytes) Notice Stop :=
  ⟨{client with response:=none},fun s read => (s.onRead read.1 read.2).map fun done => (done.1,[done.2])⟩

def stream (reads : List (Int × Bytes)) : Bytes :=
  reads.flatMap fun read => if read.1 < 0 then [] else read.2

def held (s : HttpClient) : HttpClientResponse := s.response.getD {}

-- The header block that a read completes.
def completes (s : HttpClient) (read : Int × Bytes) : Option Bytes :=
  if read.1 < 0 ∨ read.2 = [] ∨ s.held.headerReady then none
  else (find? blankLine (s.held.data++read.2)).map (s.held.data++read.2).take

def WaitsOrRefuses (notice : Notice) : Prop := notice = ⟨none,true⟩ ∨ ∃ code, notice.httpRead = some code ∧ code < 0

-- OnRead comes back, and a malformed block has been answered as one.
def Survives (s : HttpClient) (read : Int × Bytes) : Prop :=
  ∃ next notice, s.onRead read.1 read.2 = .ok (next,notice) ∧
    ∀ block, s.completes read = some block → ¬ BlockOk block → WaitsOrRefuses notice

variable {client s next : HttpClient} {read : Int × Bytes} {reads : List (Int × Bytes)} {notices : List Notice}

@[simp] theorem stream_append : stream (first++second) = stream first++stream second := by simp [stream]

theorem onRead_idle (idle : read.1 < 0 ∨ read.2 = []) :
    (∃ notice, s.onRead read.1 read.2 = .ok (s,notice)) ∧ stream [read] = [] := by
  unfold onRead stream
  rcases idle with failed | empty
  · rw [if_pos failed]
    exact ⟨⟨_,rfl⟩,by simp [failed]⟩
  · constructor
    · split
      · exact ⟨_,rfl⟩
      · rw [if_pos (by simp [empty])]
        exact ⟨_,rfl⟩
    · simp [empty]

theorem onRead_collect (busy : ¬ (read.1 < 0 ∨ read.2 = [])) :
    s.onRead read.1 read.2 = (collect s.held read.2).map (fun done => ({s with response:=some done.1},done.2)) ∧
      stream [read] = read.2 := by
  obtain ⟨success,filled⟩ := not_or.mp busy
  constructor
  · unfold onRead
    rw [if_neg success,if_neg (by simpa using filled)]
    cases ran : collect s.held read.2 with
    | ok done => exact bind_ok.mpr ⟨done,ran,rfl⟩
    | error stop => exact bind_error.mpr (.inl ran)
  · simp [stream,success]

-- The header block is complete once the blank line has come in, and was well
-- formed then; the bytes up to it are kept.
inductive Reached (bytes : Bytes) (r : HttpClientResponse) : Prop where
  | waiting (unready : r.headerReady = false) (kept : r.data = bytes) (open_ : find? blankLine bytes = none)
  | ready (ready : r.headerReady = true) (pos : Nat) (found : find? blankLine bytes = some pos)
      (good : BlockOk (bytes.take pos))

theorem deliver_ready (r : HttpClientResponse) : (deliver r).1.headerReady = r.headerReady := by
  unfold deliver
  split
  · split <;> rfl
  · rfl

-- One read with bytes: it comes back unless it completes a malformed block.
theorem collect_reached (reached : Reached bytes s.held) (busy : ¬ (read.1 < 0 ∨ read.2 = [])) :
    (∀ block, s.completes read = some block → BlockOk block) ↔
      ∃ done, collect s.held read.2 = .ok done ∧ Reached (bytes++read.2) done.1 := by
  obtain ⟨success,filled⟩ := not_or.mp busy
  cases reached with
  | ready ready pos found good =>
    have nothing : s.completes read = none := by simp [completes,ready]
    have inside := (find?_inside found).1
    constructor
    · intro _
      refine ⟨_,by rw [collect,if_pos ready],.ready ?_ pos (find?_append found _) ?_⟩
      · rw [deliver_ready]
        exact ready
      · rw [List.take_append_of_le_length (by omega)]
        exact good
    · intro _ block same
      rw [nothing] at same
      cases same
  | waiting unready kept open_ =>
    have asked : s.completes read = (find? blankLine (bytes++read.2)).map (bytes++read.2).take := by
      simp [completes,success,filled,unready,kept]
    rw [asked]
    unfold collect
    rw [if_neg (by simp [unready]),kept]
    cases found : find? blankLine (bytes++read.2) with
    | none =>
      constructor
      · intro _
        exact ⟨_,rfl,.waiting unready rfl found⟩
      · intro _ block never
        cases never
    | some pos =>
      dsimp only
      constructor
      · intro good
        have block := good _ rfl
        obtain ⟨read',ran⟩ := (readResponse_defined {({s.held with data:=bytes++read.2} : HttpClientResponse) with
          headerReady:=true,data:=(bytes++read.2).drop (pos+4)} _).mpr block
        refine ⟨deliver read',bind_ok.mpr ⟨read',ran,rfl⟩,.ready ?_ pos found block⟩
        rw [deliver_ready,(readResponse_data _ _ [] ran).2]
      · rintro ⟨done,ran,-⟩ block same
        cases same
        obtain ⟨read',parsed,-⟩ := bind_ok.mp ran
        exact (readResponse_defined _ _).mp ⟨read',parsed⟩

theorem completes_some (completed : s.completes read = some block) :
    ¬ (read.1 < 0 ∨ read.2 = []) ∧ ¬ s.held.headerReady ∧
      ∃ pos, find? blankLine (s.held.data++read.2) = some pos ∧ block = (s.held.data++read.2).take pos := by
  by_cases busy : read.1 < 0 ∨ read.2 = [] ∨ s.held.headerReady
  · rw [completes,if_pos busy] at completed
    cases completed
  · rw [completes,if_neg busy] at completed
    obtain ⟨success,filled,unready⟩ := by simpa only [not_or] using busy
    obtain ⟨pos,found,same⟩ := Option.map_eq_some_iff.mp completed
    exact ⟨not_or.mpr ⟨success,filled⟩,unready,pos,found,same.symm⟩

-- A read that completes a malformed block does not come back.
theorem completes_good (ran : s.onRead read.1 read.2 = .ok (next,notice)) :
    ∀ block, s.completes read = some block → BlockOk block := by
  intro block completed
  obtain ⟨idle,unready,pos,found,rfl⟩ := completes_some completed
  rw [(onRead_collect idle).1] at ran
  obtain ⟨done,collected,-⟩ := map_ok.mp ran
  unfold collect at collected
  rw [if_neg unready] at collected
  dsimp only at collected
  rw [found] at collected
  obtain ⟨parsed,block,-⟩ := bind_ok.mp collected
  exact (readResponse_defined _ _).mp ⟨parsed,block⟩

theorem survives_iff (s : HttpClient) (read : Int × Bytes) :
    Survives s read ↔ ∃ next notice, s.onRead read.1 read.2 = .ok (next,notice) := by
  constructor
  · rintro ⟨next,notice,ran,-⟩
    exact ⟨next,notice,ran⟩
  · rintro ⟨next,notice,ran⟩
    exact ⟨next,notice,ran,fun block completed malformed => absurd (completes_good ran block completed) malformed⟩

theorem onRead_reached (reached : Reached bytes s.held) (read : Int × Bytes) :
    (∀ block, s.completes read = some block → BlockOk block) ↔
      ∃ next notice, s.onRead read.1 read.2 = .ok (next,notice) ∧ Reached (bytes++stream [read]) next.held := by
  by_cases idle : read.1 < 0 ∨ read.2 = []
  · obtain ⟨⟨notice,ran⟩,none⟩ := onRead_idle (s := s) idle
    constructor
    · intro _
      exact ⟨s,notice,ran,by rw [none,List.append_nil]; exact reached⟩
    · intro _ block completed
      rw [completes,if_pos (by tauto)] at completed
      cases completed
  · obtain ⟨ran,some⟩ := onRead_collect (s := s) idle
    rw [collect_reached reached idle,ran,some]
    constructor
    · rintro ⟨done,collected,after⟩
      exact ⟨_,_,map_ok.mpr ⟨done,collected,rfl⟩,after⟩
    · rintro ⟨next,notice,mapped,after⟩
      obtain ⟨done,collected,same⟩ := map_ok.mp mapped
      cases same
      exact ⟨done,collected,after⟩

theorem reading_step : (reading client).step s read = .ok (next,notices) ↔
    ∃ notice, s.onRead read.1 read.2 = .ok (next,notice) ∧ notices = [notice] := by
  unfold reading
  constructor
  · intro stepped
    obtain ⟨⟨reached,notice⟩,ran,same⟩ := map_ok.mp stepped
    cases same
    exact ⟨notice,ran,rfl⟩
  · rintro ⟨notice,ran,rfl⟩
    exact map_ok.mpr ⟨_,ran,rfl⟩

def Malformed (bytes : Bytes) : Prop := ∃ pos, find? blankLine bytes = some pos ∧ ¬ BlockOk (bytes.take pos)

theorem reached_good (reached : Reached bytes r) : ¬ Malformed bytes := by
  rintro ⟨pos,found,malformed⟩
  cases reached with
  | waiting unready kept open_ =>
    rw [open_] at found
    cases found
  | ready ready other same good =>
    cases found.symm.trans same
    exact malformed good

theorem malformed_append (malformed : Malformed bytes) (more : Bytes) : Malformed (bytes++more) := by
  obtain ⟨pos,found,bad⟩ := malformed
  have inside := (find?_inside found).1
  refine ⟨pos,find?_append found more,?_⟩
  rw [List.take_append_of_le_length (by omega)]
  exact bad

theorem initial_reached (client : HttpClient) : Reached [] ({client with response:=none} : HttpClient).held :=
  .waiting rfl rfl rfl

theorem run_reached (ran : (reading client).run reads = .ok (s,notices)) : Reached (stream reads) s.held := by
  refine (reading client).history (fun reads _ s => Reached (stream reads) s.held) (initial_reached client) ?_ ran
  intro reads notices s read next emitted reached stepped
  obtain ⟨notice,ran,-⟩ := reading_step.mp stepped
  obtain ⟨other,again,same,after⟩ := (onRead_reached reached read).mp (completes_good ran)
  cases ran.symm.trans same
  rw [stream_append]
  exact after

theorem completes_malformed (reached : Reached bytes s.held) (completed : s.completes read = some block)
    (bad : ¬ BlockOk block) : Malformed (bytes++stream [read]) := by
  obtain ⟨idle,unready,pos,found,rfl⟩ := completes_some completed
  rw [(onRead_collect (s := s) idle).2]
  cases reached with
  | waiting still kept open_ =>
    rw [kept] at found bad
    exact ⟨pos,found,bad⟩
  | ready ready => exact absurd ready unready

theorem run_survives (reads : List (Int × Bytes)) (good : ¬ Malformed (stream reads)) :
    ∃ result, (reading client).run reads = .ok result := by
  induction reads using List.reverseRecOn with
  | nil => exact ⟨_,rfl⟩
  | append_singleton before read ih =>
    rw [stream_append] at good
    obtain ⟨⟨s,notices⟩,front⟩ := ih fun malformed => good (malformed_append malformed _)
    have reached := run_reached front
    have completed : ∀ block, s.completes read = some block → BlockOk block := by
      intro block completed
      by_contra bad
      exact good (completes_malformed reached completed bad)
    obtain ⟨next,notice,ran,-⟩ := (onRead_reached reached read).mp completed
    exact ⟨_,(reading client).runFrom_snoc.mpr ⟨s,notices,[notice],front,reading_step.mpr ⟨notice,ran,rfl⟩,rfl⟩⟩

-- Whatever the server sends, in whatever pieces, the client survives it as long
-- as no malformed header block is completed.
theorem client_survives_iff (client : HttpClient) (reads : List (Int × Bytes)) :
    (reading client).Guarded (fun _ => Survives) reads ↔ ¬ Malformed (stream reads) := by
  have exactly : (∃ result, (reading client).run reads = .ok result) ↔
      (reading client).Guarded (fun _ => Survives) reads := by
    apply (reading client).run_defined
    intro s read
    rw [survives_iff]
    constructor
    · rintro ⟨⟨next,notices⟩,stepped⟩
      obtain ⟨notice,ran,-⟩ := reading_step.mp stepped
      exact ⟨next,notice,ran⟩
    · rintro ⟨next,notice,ran⟩
      exact ⟨_,reading_step.mpr ⟨notice,ran,rfl⟩⟩
  rw [← exactly]
  constructor
  · rintro ⟨⟨s,notices⟩,ran⟩
    exact reached_good (run_reached ran)
  · exact run_survives reads

-- A status line without a reason phrase has two items only: the assert fails.
theorem bareStatus_asserts :
    ({host:=[]} : HttpClient).onRead 0 (ascii "HTTP/1.1 200\r\n\r\n") = .error .assertion ∧
      ¬ (reading {host:=[]}).Guarded (fun _ => Survives) [(0,ascii "HTTP/1.1 200\r\n\r\n")] := by
  have stuck : ({host:=[]} : HttpClient).onRead 0 (ascii "HTTP/1.1 200\r\n\r\n") = .error .assertion := by rfl
  refine ⟨stuck,?_⟩
  intro guarded
  obtain ⟨next,notice,ran,-⟩ := guarded [] _ [] rfl _ [] rfl
  exact absurd (stuck.symm.trans ran) (by simp)

end CoStream.HttpClient
