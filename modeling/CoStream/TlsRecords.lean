import CoStream.SslClient

namespace CoStream.TlsRecords
open Foundation

-- A complete record of the wire and the plaintext OpenSSL gets out of it.
structure Record where
  wire : List UInt8
  plaintext : List UInt8
  framed : wire ≠ []

-- A record without plaintext gives SSL_read nothing to return.
def contents (read : List Record) : List (List UInt8) := (read.map Record.plaintext).filter (· ≠ [])

def plaintext (reads : List (List Record)) : List UInt8 := (reads.flatten.map Record.plaintext).flatten

def sslRead (size : Nat) : List (List UInt8) → SslRead × List (List UInt8)
  | [] => (.failed (-1) .wantRead,[])
  | front::rest =>
    if front.length ≤ size then (.data front,rest) else (.data (front.take size),front.drop size::rest)

-- OpenSSL behind a finished handshake: the plaintexts that were not read yet.
def queue : OpenSsl (List Record) (List (List UInt8)) where
  setCipherList pending := (1,pending)
  setup _ pending := (true,pending)
  bioWrite read pending := ((read.flatMap Record.wire).length,pending++contents read)
  doHandshake pending := ((1,.none),pending)
  memData _ := []
  resetIn _ := (1,[])
  resetOut pending := (1,pending)
  read := sslRead

@[simp] theorem queue_bioWrite (read : List Record) (pending : List (List UInt8)) :
    queue.bioWrite read pending = (((read.flatMap Record.wire).length : Int),pending++contents read) := rfl
@[simp] theorem queue_read (size : Nat) (pending : List (List UInt8)) :
    queue.read size pending = sslRead size pending := rfl

def received : SslOutput → List UInt8
  | .plaintextDataRecv data => data
  | _ => []

def delivered (outputs : List SslOutput) : List UInt8 := outputs.flatMap received

def ready (pending : List (List UInt8)) : TcpSession (List (List UInt8)) := ⟨⟨pending,.dataRecvState⟩,false⟩

def server : Machine (TcpSession (List (List UInt8))) (List Record) SslOutput Fault := TcpSession.machine queue (ready [])

def client (fuel : Nat) : Machine (List (List UInt8)) (List Record) SslOutput Fault := SslClient.machine queue fuel []

-- After each read everything that came so far has been handed on.
def Delivers (m : Machine σ (List Record) SslOutput Fault) (reads : List (List Record)) : Prop :=
  ∀ front rest, reads = front++rest → ∃ s outputs, m.run front = .ok (s,outputs) ∧ delivered outputs = plaintext front

-- What one SSL_read can take.
def Single (read : List Record) : Prop :=
  (contents read).length ≤ 1 ∧ ∀ data ∈ contents read, data.length ≤ sslDefRecvBufferSize

@[simp] theorem plaintext_append (one two : List (List Record)) :
    plaintext (one++two) = plaintext one++plaintext two := by
  simp [plaintext]

@[simp] theorem plaintext_one (read : List Record) : plaintext [read] = (contents read).flatten := by
  rw [contents,List.flatten_filter_ne_nil]
  simp [plaintext]

@[simp] theorem delivered_append (one two : List SslOutput) : delivered (one++two) = delivered one++delivered two := by
  simp [delivered]

theorem wire_empty {read : List Record} (none : (read.flatMap Record.wire).length ≤ 0) : read = [] := by
  cases read with
  | nil => rfl
  | cons first rest =>
    have framed := List.length_pos_iff.mpr first.framed
    rw [List.flatMap_cons,List.length_append] at none
    omega

-- SSL_read hands out a front part and keeps the rest.
theorem sslRead_data (pending : List (List UInt8)) (some : pending ≠ []) (full : [] ∉ pending) :
    ∃ data left, sslRead sslDefRecvBufferSize pending = (.data data,left) ∧ data ≠ [] ∧ [] ∉ left ∧
      data++left.flatten = pending.flatten := by
  cases pending with
  | nil => exact absurd rfl some
  | cons front rest =>
    have frontFull : front ≠ [] := fun empty => full (by simp [empty])
    have restFull : [] ∉ rest := fun present => full (List.mem_cons_of_mem _ present)
    by_cases short : front.length ≤ sslDefRecvBufferSize
    · exact ⟨front,rest,by simp [sslRead,short],frontFull,restFull,rfl⟩
    · refine ⟨front.take sslDefRecvBufferSize,front.drop sslDefRecvBufferSize::rest,by simp [sslRead,short],?_,?_,?_⟩
      · simp [frontFull,sslDefRecvBufferSize]
      · simp [restFull]
        omega
      · rw [List.flatten_cons,← List.append_assoc,List.take_append_drop]
        rfl

variable {read : List Record} {pending left : List (List UInt8)}

def handed : SslRead → List SslOutput
  | .data data => [.plaintextDataRecv data]
  | .failed _ _ => []

-- One read of the server: the new records go behind the pending ones, and one
-- SSL_read follows.
theorem onRead_served (some : read ≠ []) (answer : SslRead)
    (front : sslRead sslDefRecvBufferSize (pending++contents read) = (answer,left)) :
    TcpSession.onRead queue (ready pending) read = .ok (ready left,handed answer) := by
  have long : ¬ ((read.flatMap Record.wire).length : Int) ≤ 0 := fun short => some (wire_empty (by omega))
  have served : SslServer.handleSslDataRecv queue ⟨pending,.dataRecvState⟩ read = (0,⟨left,.dataRecvState⟩,handed answer) := by
    simp only [SslServer.handleSslDataRecv,TlsServerState.rank,queue_bioWrite,queue_read,long,front]
    cases answer <;> simp [handed]
  simp [TcpSession.onRead,ready,SslServer.handshake,TlsServerState.rank,served]

theorem onRead_nothing : TcpSession.onRead queue (ready pending) [] = .ok (ready pending,[]) := by
  simp [TcpSession.onRead,ready,SslServer.handshake,SslServer.handleSslDataRecv,TlsServerState.rank,contents]

theorem single_exact (fresh : List Record) (front : sslRead sslDefRecvBufferSize (contents fresh) = (answer,left)) :
    left = [] ↔ Single fresh := by
  unfold Single
  cases shape : contents fresh with
  | nil =>
    rw [shape] at front
    cases front
    simp
  | cons first rest =>
    rw [shape,sslRead] at front
    by_cases short : first.length ≤ sslDefRecvBufferSize
    · rw [if_pos short] at front
      cases front
      constructor
      · rintro rfl
        simp [short]
      · rintro ⟨one,-⟩
        simpa using one
    · rw [if_neg short] at front
      cases front
      simp [short]

theorem onRead_conserved (full : [] ∉ pending) (read : List Record) : ∃ left outputs,
    TcpSession.onRead queue (ready pending) read = .ok (ready left,outputs) ∧ [] ∉ left ∧
      delivered outputs++left.flatten = pending.flatten++(contents read).flatten ∧
      (pending = [] → (left = [] ↔ Single read)) := by
  by_cases some : read = []
  · cases some
    refine ⟨pending,[],onRead_nothing,full,by simp [delivered,contents],?_⟩
    rintro rfl
    simp [Single,contents]
  cases front : sslRead sslDefRecvBufferSize (pending++contents read) with
  | mk answer left =>
  have alone : pending = [] → (left = [] ↔ Single read) := by
    rintro rfl
    exact single_exact read front
  rw [← List.flatten_append]
  by_cases none : pending++contents read = []
  · rw [none] at front
    cases front
    exact ⟨[],[],onRead_served some (.failed (-1) .wantRead) (by rw [none]; rfl),by simp,by rw [none]; rfl,alone⟩
  · obtain ⟨data,rest,read,-,restFull,joined⟩ := sslRead_data _ none (by simp [full,contents])
    cases front.symm.trans read
    refine ⟨left,_,onRead_served some _ front,restFull,?_,alone⟩
    rw [← joined]
    simp [handed,delivered,received]

-- Nothing is lost or made up: what was not handed on is still pending.
theorem server_conserves (reads : List (List Record)) : ∃ pending outputs,
    server.run reads = .ok (ready pending,outputs) ∧ [] ∉ pending ∧ delivered outputs++pending.flatten = plaintext reads := by
  induction reads using List.reverseRecOn with
  | nil => exact ⟨[],[],rfl,by simp,rfl⟩
  | append_singleton reads read ih =>
    obtain ⟨pending,outputs,ran,full,conserved⟩ := ih
    obtain ⟨left,emitted,served,leftFull,moved,-⟩ := onRead_conserved full read
    refine ⟨left,outputs++emitted,server.runFrom_snoc.mpr ⟨_,_,_,ran,served,rfl⟩,leftFull,?_⟩
    rw [delivered_append,List.append_assoc,moved,← List.append_assoc,conserved,plaintext_append,plaintext_one]

theorem nothing_pending (full : [] ∉ pending) (conserved : delivered outputs++pending.flatten = sent) :
    delivered outputs = sent ↔ pending = [] := by
  rw [← conserved]
  constructor
  · intro whole
    have empty : pending.flatten = [] := by simpa using whole
    cases pending with
    | nil => rfl
    | cons first rest =>
      rw [List.flatten_cons,List.append_eq_nil_iff] at empty
      exact absurd (by simp [empty.1]) full
  · rintro rfl
    simp

theorem Delivers.front (delivers : Delivers m (before++after)) : Delivers m before :=
  fun start later shape => delivers start (later++after) (by rw [shape,List.append_assoc])

theorem Delivers.snoc (delivers : Delivers m reads) (ran : m.run (reads++[read]) = .ok (s,outputs))
    (whole : delivered outputs = plaintext (reads++[read])) : Delivers m (reads++[read]) := by
  intro front rest shape
  rcases List.eq_nil_or_concat rest with rfl | ⟨rest,last,rfl⟩
  · rw [List.append_nil] at shape
    rw [← shape]
    exact ⟨s,outputs,ran,whole⟩
  · rw [List.concat_eq_append,← List.append_assoc] at shape
    exact delivers front rest (List.append_inj' shape rfl).1

theorem server_delivers (reads : List (List Record)) : Delivers server reads ↔ ∀ read ∈ reads, Single read := by
  induction reads using List.reverseRecOn with
  | nil =>
    refine ⟨fun _ _ absent => absurd absent List.not_mem_nil,fun _ front rest shape => ?_⟩
    obtain ⟨rfl,rfl⟩ := List.append_eq_nil_iff.mp shape.symm
    exact ⟨_,_,rfl,rfl⟩
  | append_singleton reads read ih =>
    obtain ⟨pending,outputs,ran,full,conserved⟩ := server_conserves reads
    obtain ⟨left,emitted,served,leftFull,moved,alone⟩ := onRead_conserved full read
    have later := server.runFrom_snoc.mpr ⟨_,_,_,ran,served,rfl⟩
    have conservedLater : delivered (outputs++emitted)++left.flatten = plaintext (reads++[read]) := by
      rw [delivered_append,List.append_assoc,moved,← List.append_assoc,conserved,plaintext_append,plaintext_one]
    have emptied (delivers : Delivers server reads) : pending = [] := by
      obtain ⟨s,whole,again,same⟩ := delivers reads [] (List.append_nil _).symm
      cases ran.symm.trans again
      exact (nothing_pending full conserved).mp same
    constructor
    · intro delivers other present
      rcases List.mem_append.mp present with earlier | last
      · exact ih.mp delivers.front other earlier
      · cases List.mem_singleton.mp last
        obtain ⟨s,whole,again,same⟩ := delivers (reads++[read]) [] (List.append_nil _).symm
        cases later.symm.trans again
        exact (alone (emptied delivers.front)).mp ((nothing_pending leftFull conservedLater).mp same)
    · intro single
      have delivers := ih.mpr fun other earlier => single other (List.mem_append_left _ earlier)
      have none := (alone (emptied delivers)).mpr (single read (by simp))
      exact delivers.snoc later ((nothing_pending leftFull conservedLater).mpr none)

-- The client's loop empties the queue: every turn takes at least one byte.
theorem readAll_drains (full : [] ∉ pending) (enough : pending.flatten.length < fuel) : ∃ outputs,
    SslClient.readAll queue fuel pending = .ok (0,[],outputs) ∧ delivered outputs = pending.flatten := by
  induction fuel generalizing pending with
  | zero => exact absurd enough (Nat.not_lt_zero _)
  | succ fuel ih =>
    unfold SslClient.readAll
    by_cases none : pending = []
    · cases none
      exact ⟨[],rfl,rfl⟩
    · obtain ⟨data,left,front,some,leftFull,joined⟩ := sslRead_data pending none full
      have shorter : left.flatten.length < fuel := by
        have positive := List.length_pos_iff.mpr some
        rw [← joined,List.length_append] at enough
        omega
      obtain ⟨outputs,drained,whole⟩ := ih leftFull shorter
      refine ⟨.plaintextDataRecv data::outputs,?_,?_⟩
      · simp [front,drained]
      · rw [← joined,← whole]
        rfl

theorem client_read (fuel : Nat) (read : List Record) (enough : (contents read).flatten.length < fuel) : ∃ outputs,
    (client fuel).step [] read = .ok ([],outputs) ∧ delivered outputs = (contents read).flatten := by
  by_cases some : read = []
  · cases some
    exact ⟨[],rfl,rfl⟩
  · have long : ¬ ((read.flatMap Record.wire).length : Int) ≤ 0 := fun short => some (wire_empty (by omega))
    obtain ⟨outputs,drained,whole⟩ := readAll_drains (by simp [contents]) enough
    refine ⟨outputs,?_,whole⟩
    simp only [client,SslClient.machine,SslClient.handleSslDataRecv,queue_bioWrite,queue_read,sslRead,long,if_false,
      List.nil_append,drained]
    rfl

theorem client_run (reads : List (List Record)) (enough : (plaintext reads).length < fuel) : ∃ outputs,
    (client fuel).run reads = .ok ([],outputs) ∧ delivered outputs = plaintext reads := by
  induction reads using List.reverseRecOn with
  | nil => exact ⟨[],rfl,rfl⟩
  | append_singleton reads read ih =>
    rw [plaintext_append,plaintext_one,List.length_append] at enough
    obtain ⟨outputs,ran,whole⟩ := ih (by omega)
    obtain ⟨emitted,took,wholeRead⟩ := client_read fuel read (by omega)
    refine ⟨outputs++emitted,(client fuel).runFrom_snoc.mpr ⟨_,_,_,ran,took,rfl⟩,?_⟩
    rw [delivered_append,whole,wholeRead,plaintext_append,plaintext_one]

theorem client_delivers (reads : List (List Record)) (enough : (plaintext reads).length < fuel) :
    Delivers (client fuel) reads := by
  rintro front rest rfl
  rw [plaintext_append,List.length_append] at enough
  have shorter : (plaintext front).length < fuel := by omega
  obtain ⟨outputs,ran,whole⟩ := client_run front shorter
  exact ⟨_,outputs,ran,whole⟩

-- The loop of the client always hands on everything. The server does so only
-- while no read carries more than one SSL_read can take.
theorem plaintext_delivered_exactly (reads : List (List Record)) :
    Delivers server reads ∧ (∀ fuel, (plaintext reads).length < fuel → Delivers (client fuel) reads) ↔
      ∀ read ∈ reads, Single read :=
  ⟨fun delivers => (server_delivers reads).mp delivers.1,
    fun single => ⟨(server_delivers reads).mpr single,fun _ enough => client_delivers reads enough⟩⟩

def oneByte (byte : UInt8) : Record := ⟨[23,3,3,0,1,byte],[byte],List.cons_ne_nil _ _⟩

-- Two records of one byte in one read: the second stays behind.
theorem plaintext_left_behind : ¬ ∀ reads : List (List Record), Delivers server reads := by
  intro always
  obtain ⟨s,outputs,ran,whole⟩ := always [[oneByte 1,oneByte 2]] _ [] (List.append_nil _).symm
  have served : server.run [[oneByte 1,oneByte 2]] = .ok (ready [[2]],[.plaintextDataRecv [1]]) := by decide +kernel
  cases served.symm.trans ran
  exact absurd whole (by decide)

end CoStream.TlsRecords
