import CoStream.DataBufferFifo
import CoStream.RtmpSession

namespace CoStream.CoRtmpSession
open Foundation DataBufferFifo

variable {hs : RtmpServerHandshake} {s next : CoRtmpSession} {events : List Event} {outputs emitted : List Output}

def chunks : List Event → List Chunk
  | [] => []
  | .received chunk _ _::rest => chunk::chunks rest
  | _::rest => chunks rest

def received (events : List Event) : Bytes := (chunks events).flatMap Chunk.bytes

def operations : List Output → List DataBuffer.Operation
  | [] => []
  | .recvBuffer operation::rest => operation::operations rest
  | _::rest => operations rest

def added : DataBuffer.Operation → Bytes
  | .appendData inputData => inputData
  | _ => []

def appended (outputs : List Output) : Bytes := (operations outputs).flatMap added

theorem chunks_append : chunks (first++second) = chunks first++chunks second := by
  induction first with
  | nil => rfl
  | cons event rest ih => cases event <;> simp [chunks,ih]

theorem operations_append : operations (first++second) = operations first++operations second := by
  induction first with
  | nil => rfl
  | cons output rest ih => cases output <;> simp [operations,ih]

@[simp] theorem appended_append : appended (first++second) = appended first++appended second := by
  simp [appended,operations_append]

theorem appended_cons : appended (.recvBuffer operation::outputs) = added operation++appended outputs := by
  simp [appended,operations]

namespace Handled

theorem nothing_added (handled : Handled uvWrite s next outputs) : appended outputs = [] := by
  cases handled <;> rfl

theorem adds_array (handled : Handled uvWrite s next outputs) (earlier : List Output) (inputData : Bytes) :
    appended (earlier++.recvBuffer (.appendData inputData)::outputs) = appended earlier++inputData := by
  rw [appended_append,appended_cons,handled.nothing_added,List.append_nil,added]

theorem keeps_suffix (handled : Handled uvWrite s next outputs) : next.recvBuffer <:+ s.recvBuffer := by
  cases handled with
  | waitsC0C1 => exact List.suffix_rfl
  | refused => exact List.nil_suffix
  | answered => exact List.nil_suffix
  | waitsC2 => exact List.suffix_rfl
  | tookC2 => exact List.drop_suffix _ _
  | idle => exact List.suffix_rfl

theorem parses_held (handled : Handled uvWrite s next outputs) (member : .handleC0C1 held ret ∈ outputs) :
    held = s.recvBuffer ∧ (held.length < 1537 → ret = rtmpNeedReadMore) := by
  cases handled with
  | waitsC0C1 =>
    obtain ⟨rfl,rfl⟩ : held = s.recvBuffer ∧ ret = rtmpNeedReadMore := by simpa using member
    exact ⟨rfl,fun _ => rfl⟩
  | refused _ long =>
    obtain ⟨rfl,rfl⟩ : held = s.recvBuffer ∧ ret = _ := by simpa using member
    exact ⟨rfl,fun short => by omega⟩
  | answered _ long =>
    obtain ⟨rfl,rfl⟩ : held = s.recvBuffer ∧ ret = _ := by simpa using member
    exact ⟨rfl,fun short => by omega⟩
  | waitsC2 => simp at member
  | tookC2 => simp at member
  | idle => simp at member

theorem sends_held (handled : Handled uvWrite s next outputs) (member : .coSend c0c1 s0s1s2 ∈ outputs) :
    c0c1 = s.recvBuffer.take 1537 ∧ 1537 ≤ s.recvBuffer.length := by
  cases handled with
  | answered _ long =>
    obtain ⟨rfl,-⟩ : c0c1 = s.recvBuffer.take 1537 ∧ s0s1s2 = _ := by simpa using member
    exact ⟨rfl,long⟩
  | waitsC0C1 => simp at member
  | refused => simp at member
  | waitsC2 => simp at member
  | tookC2 => simp at member
  | idle => simp at member

theorem operates (handled : Handled uvWrite s next outputs) (room : s.recvBuffer.length+20480 < 2^31) :
    Machine.AdmittedFrom enqueue Admits s.recvBuffer (operations outputs) ∧
      (operations outputs).foldl enqueue s.recvBuffer = next.recvBuffer := by
  cases handled with
  | waitsC0C1 => exact ⟨trivial,rfl⟩
  | refused => exact ⟨⟨⟨by simp,by simp [enqueue]⟩,trivial⟩,rfl⟩
  | answered => exact ⟨⟨⟨by simp,by simp [enqueue]⟩,trivial⟩,rfl⟩
  | waitsC2 => exact ⟨trivial,rfl⟩
  | tookC2 _ long =>
    have within : ¬ (1536 : Int) > s.recvBuffer.length := by omega
    have taken : enqueue s.recvBuffer (.consumeData 1536) = s.recvBuffer.drop 1536 := by
      rw [enqueue,if_neg within]
      rfl
    simp only [operations,Machine.AdmittedFrom,List.foldl_cons,List.foldl_nil,Admits,taken,List.length_drop]
    refine ⟨⟨⟨?_,by omega⟩,trivial⟩,trivial⟩
    rintro _ ⟨⟩
    decide
  | idle => exact ⟨trivial,rfl⟩

end Handled

-- The queue of the model is what the operations on recv_buffer_ leave in it.
def Queued (outputs : List Output) (s : CoRtmpSession) : Prop :=
  Machine.AdmittedFrom enqueue Admits [] (operations outputs) ∧ contentOf (operations outputs) = s.recvBuffer

theorem queued_step (queued : Queued outputs s) (stepped : Stepped s event next emitted) :
    Queued (outputs++emitted) next := by
  obtain ⟨admitted,content⟩ := queued
  cases stepped with
  | received _ _ _ room handled =>
    obtain ⟨later,left⟩ := handled.operates room
    rw [Queued,operations_append,operations,Machine.admittedFrom_append,contentOf,List.foldl_append]
    rw [contentOf] at content
    rw [content]
    exact ⟨⟨admitted,⟨by simp,room⟩,later⟩,left⟩
  | failed => simpa [Queued,operations] using ⟨admitted,content⟩
  | sent => simpa [Queued,operations] using ⟨admitted,content⟩

theorem queued_run (ran : (machine hs).run events = .ok (s,outputs)) : Queued outputs s :=
  (machine hs).history (fun _ outputs s => Queued outputs s) ⟨trivial,rfl⟩
    (fun _ _ _ _ _ _ queued stepped => queued_step queued (step_exact stepped)) ran

-- A DataBuffer of the size the session gives it goes through the same
-- operations, and shows the same bytes.
theorem recvBuffer_refined (ran : (machine hs).run events = .ok (s,outputs)) : ∃ fresh final answers,
    DataBuffer.create (64*1024) = .ok fresh ∧
      (DataBuffer.machine fresh).run (operations outputs) = .ok (final,answers) ∧
      final.data = s.recvBuffer.map some := by
  obtain ⟨admitted,content⟩ := queued_run ran
  obtain ⟨fresh,final,answers,created,performed,-,-,shown,-⟩ :=
    refinesFifo_below (show 200 ≤ 64*1024 by decide) (by decide) (operations outputs) admitted
  rw [content] at shown
  exact ⟨fresh,final,answers,created,performed,shown⟩

-- What a connection hands to a CoReceive of 10240 bytes is such a chunk, or an
-- error.
theorem handleReceive_chunk {π : Type} (c : AcceptConn.Conn π) (promise : π) (nread : Int)
    (size : c.recvSize = 10240) (held : nread ≤ c.recvBuffer.length) : ∃ result bytes,
    (AcceptConn.handleReceive c promise nread).2 = [.received promise result c.recvData bytes] ∧
      (result.status = .error ∨ ∃ chunk : Chunk, bytes = chunk.bytes ∧ result = ⟨.ok,chunk.bytes.length⟩) := by
  unfold AcceptConn.handleReceive
  split
  · exact ⟨⟨.error,0⟩,[],rfl,.inl rfl⟩
  have some : c.recvBuffer ≠ [] := by
    rintro empty
    rw [empty,List.length_nil] at held
    omega
  split
  · have count : (c.recvBuffer.take c.recvSize).length = c.recvSize := by
      rw [List.length_take]
      omega
    refine ⟨_,_,rfl,.inr ⟨⟨c.recvBuffer.take c.recvSize,?_,by omega⟩,rfl,by rw [count]⟩⟩
    rw [Ne,List.take_eq_nil_iff,not_or]
    exact ⟨by omega,some⟩
  · have count : (c.recvBuffer.take nread.toNat).length = nread.toNat := by
      rw [List.length_take]
      omega
    have back : (nread.toNat : Int) = nread := by omega
    refine ⟨_,_,rfl,.inr ⟨⟨c.recvBuffer.take nread.toNat,?_,by omega⟩,rfl,by rw [count,back]⟩⟩
    rw [Ne,List.take_eq_nil_iff,not_or]
    exact ⟨by omega,some⟩

-- Every look at the buffer is a look at bytes that were appended to it.
structure Genuine (outputs : List Output) (s : CoRtmpSession) : Prop where
  held : s.recvBuffer <:+ appended outputs
  parsed : ∀ held ret, .handleC0C1 held ret ∈ outputs →
    held <:+: appended outputs ∧ (held.length < 1537 → ret = rtmpNeedReadMore)
  sent : ∀ c0c1 s0s1s2, .coSend c0c1 s0s1s2 ∈ outputs → c0c1.length = 1537 ∧ c0c1 <:+: appended outputs

theorem genuine_step (genuine : Genuine outputs s) (stepped : Stepped s event next emitted) :
    Genuine (outputs++emitted) next := by
  cases stepped with
  | failed => simpa using ⟨genuine.held,genuine.parsed,genuine.sent⟩
  | sent => simpa using ⟨genuine.held,genuine.parsed,genuine.sent⟩
  | received chunk crypto uvWrite room handled =>
    have whole := handled.adds_array outputs (chunk.copyTo s.recvData).toList
    have longer : appended outputs <+: appended outputs++(chunk.copyTo s.recvData).toList := List.prefix_append _ _
    have buffer : s.recvBuffer++(chunk.copyTo s.recvData).toList <:+
        appended outputs++(chunk.copyTo s.recvData).toList := by
      obtain ⟨earlier,shape⟩ := genuine.held
      exact ⟨earlier,by rw [← List.append_assoc,shape]⟩
    constructor
    · rw [whole]
      exact handled.keeps_suffix.trans buffer
    · intro held ret member
      rw [whole]
      rcases List.mem_append.mp member with old | new
      · obtain ⟨inside,waits⟩ := genuine.parsed held ret old
        exact ⟨inside.trans longer.isInfix,waits⟩
      · obtain ⟨same,waits⟩ := handled.parses_held (by simpa using new)
        exact ⟨same ▸ buffer.isInfix,waits⟩
    · intro c0c1 s0s1s2 member
      rw [whole]
      rcases List.mem_append.mp member with old | new
      · obtain ⟨size,inside⟩ := genuine.sent c0c1 s0s1s2 old
        exact ⟨size,inside.trans longer.isInfix⟩
      · obtain ⟨same,long⟩ := handled.sends_held (by simpa using new)
        refine ⟨by rw [same,List.length_take,Nat.min_eq_left long],?_⟩
        rw [same]
        exact (List.take_prefix _ _).isInfix.trans buffer.isInfix

theorem genuine_run (ran : (machine hs).run events = .ok (s,outputs)) : Genuine outputs s :=
  (machine hs).history (fun _ outputs s => Genuine outputs s)
    ⟨List.suffix_rfl,by simp,by simp⟩ (fun _ _ _ _ _ _ genuine stepped => genuine_step genuine (step_exact stepped)) ran

def Full (events : List Event) : Prop := ∀ chunk ∈ chunks events, chunk.bytes.length = 10240

-- Every turn appends the whole array, which is the chunk only when the chunk
-- fills it.
structure Accounted (events : List Event) (outputs : List Output) : Prop where
  arrays : (appended outputs).length = 10240*(chunks events).length
  exact : Full events → appended outputs = received events

theorem Accounted.quiet (accounted : Accounted events outputs) (same : chunks longer = chunks events) :
    Accounted longer outputs := by
  refine ⟨by rw [same]; exact accounted.arrays,?_⟩
  rw [Full,received,same]
  exact accounted.exact

theorem copyTo_full (chunk : Chunk) (recvData : List.Vector UInt8 10240) (full : chunk.bytes.length = 10240) :
    (chunk.copyTo recvData).toList = chunk.bytes := by
  have rest : recvData.toList.drop chunk.bytes.length = [] := List.drop_eq_nil_of_le (by simp [full])
  change chunk.bytes++recvData.toList.drop chunk.bytes.length = chunk.bytes
  rw [rest,List.append_nil]

theorem accounted_step (accounted : Accounted events outputs) (stepped : Stepped s event next emitted) :
    Accounted (events++[event]) (outputs++emitted) := by
  cases stepped with
  | failed =>
    rw [List.append_nil]
    exact accounted.quiet (by simp [chunks_append,chunks])
  | sent =>
    rw [List.append_nil]
    exact accounted.quiet (by simp [chunks_append,chunks])
  | received chunk crypto uvWrite room handled =>
    have whole := handled.adds_array outputs (chunk.copyTo s.recvData).toList
    have one : chunks (events++[.received chunk crypto uvWrite]) = chunks events++[chunk] := by
      rw [chunks_append,chunks,chunks]
    constructor
    · rw [whole,one,List.length_append,List.length_append,accounted.arrays,List.Vector.toList_length,
        List.length_singleton,Nat.mul_add]
    · intro full
      rw [Full,one] at full
      have before : Full events := fun earlier member => full earlier (List.mem_append_left _ member)
      have now := copyTo_full chunk s.recvData (full chunk (by simp))
      rw [whole,now,accounted.exact before,received,received,one,List.flatMap_append,List.flatMap_singleton]

theorem accounted_run (ran : (machine hs).run events = .ok (s,outputs)) : Accounted events outputs :=
  (machine hs).history (fun events outputs _ => Accounted events outputs)
    ⟨rfl,fun _ => rfl⟩ (fun _ _ _ _ _ _ accounted stepped => accounted_step accounted (step_exact stepped)) ran

theorem full_of_lengths (all : List Chunk) (whole : (all.flatMap Chunk.bytes).length = 10240*all.length) :
    ∀ chunk ∈ all, chunk.bytes.length = 10240 := by
  have bound : ∀ some : List Chunk, (some.flatMap Chunk.bytes).length ≤ 10240*some.length := by
    intro some
    induction some with
    | nil => simp
    | cons chunk rest ih =>
      have fits := chunk.fits
      rw [List.flatMap_cons,List.length_append,List.length_cons]
      omega
  induction all with
  | nil => simp
  | cons chunk rest ih =>
    have fits := chunk.fits
    have others := bound rest
    rw [List.flatMap_cons,List.length_append,List.length_cons] at whole
    intro member present
    rcases List.mem_cons.mp present with rfl | later
    · omega
    · exact ih (by omega) member later

-- After every result, the buffer has been given what the client sent and
-- nothing else; C0C1 is waited for until it is there, and S0S1S2 answers it.
def SeesReceived (hs : RtmpServerHandshake) (events : List Event) : Prop :=
  ∀ before after s outputs, events = before++after → (machine hs).run before = .ok (s,outputs) →
    appended outputs = received before ∧
    (∀ held ret, .handleC0C1 held ret ∈ outputs → (received before).length < 1537 → ret = rtmpNeedReadMore) ∧
    ∀ c0c1 s0s1s2, .coSend c0c1 s0s1s2 ∈ outputs → c0c1.length = 1537 ∧ c0c1 <:+: received before

-- Only a client that always sends the array full is seen as it is.
theorem seesReceived_iff (ran : (machine hs).run events = .ok (s,outputs)) : SeesReceived hs events ↔ Full events := by
  constructor
  · intro sees
    obtain ⟨same,-,-⟩ := sees events [] s outputs (by simp) ran
    apply full_of_lengths
    rw [← (accounted_run ran).arrays,same,received]
  · rintro full before after s outputs rfl front
    have early : Full before := fun chunk member => full chunk (by rw [chunks_append]; exact List.mem_append_left _ member)
    have same := (accounted_run front).exact early
    have genuine := genuine_run front
    refine ⟨same,?_,?_⟩
    · intro held ret member short
      obtain ⟨inside,waits⟩ := genuine.parsed held ret member
      have within := inside.length_le
      rw [same] at within
      exact waits (by omega)
    · intro c0c1 s0s1s2 member
      rw [← same]
      exact genuine.sent c0c1 s0s1s2 member

-- A client whose first segment ends one byte before the end of C1, and the
-- same bytes with zeros up to the size of the array. The answers are OpenSSL's
-- for this C1 and one private key.
def hello : Bytes := 3::List.replicate 1535 4

theorem hello_length : hello.length = 1536 := by rw [hello,List.length_cons,List.length_replicate]
theorem padded_length : (hello++List.replicate 8704 0).length = 10240 := by
  rw [List.length_append,hello_length,List.length_replicate]

def shortChunk : Chunk := ⟨hello,List.cons_ne_nil _ _,by rw [hello_length]; decide⟩
def fullChunk : Chunk := ⟨hello++List.replicate 8704 0,List.cons_ne_nil _ _,by rw [padded_length]⟩

def helloDigest : HmacUse → List.Vector UInt8 32
  | .s1Digest => ⟨[222,37,142,205,166,124,189,40,24,203,23,78,149,26,248,153,159,223,109,4,177,93,156,43,72,248,11,107,
    144,25,11,172],rfl⟩
  | .s2Key | .validKey => ⟨[64,111,174,243,148,236,178,207,165,148,223,92,176,87,2,150,33,71,30,89,176,118,189,168,71,57,181,26,
    184,73,143,12],rfl⟩
  | .s2Digest | .validDigest => ⟨[146,15,142,230,28,131,44,138,44,79,235,26,118,39,107,228,58,236,234,93,0,182,11,139,196,175,242,188,
    65,47,177,45],rfl⟩
  | _ => ⟨[73,187,155,218,186,153,147,210,82,133,78,67,88,40,104,173,244,38,19,116,142,189,234,215,97,242,220,
    227,39,9,221,170],rfl⟩

def helloCrypto : Crypto where
  hmac := fun _ => {}
  digest := fun use _ _ => helloDigest use
  dhInit := 0
  sharedKey := fun _ => some [
    183,26,194,197,7,131,254,205,26,41,22,150,253,150,176,16,134,158,79,220,118,5,221,9,51,153,200,131,
    12,20,21,15,78,205,211,234,150,235,131,90,252,112,146,229,139,100,64,177,31,211,38,218,92,45,138,9,
    144,214,212,156,64,163,195,85,196,38,27,210,87,143,239,149,154,237,236,182,25,161,143,10,179,223,
    184,252,209,42,20,183,20,219,79,62,82,57,43,232,18,35,176,206,246,168,1,217,5,181,249,106,164,2,167,
    117,128,189,211,200,45,118,243,166,76,153,85,68,56,255,25,33]
  behindKey := List.Vector.replicate 6 0

def freshHandshake : RtmpServerHandshake where
  c1s1 := {
    c1Data := List.Vector.replicate 1536 0
    c1Time := 0
    c1Version := 0
    c1KeyOffset := 0
    c1KeyData := List.Vector.replicate 128 0
    c1DigestOffset := 0
    digestData := List.Vector.replicate 32 0
    s1TimeSec := 0
    s1Version := 0
    s1KeyData := List.Vector.replicate 128 0
    s1DigestData := List.Vector.replicate 32 0}
  c2s2 := ⟨List.Vector.replicate 1504 0x0f,List.Vector.replicate 32 0x0f⟩

inductive Call where
  | recvBuffer | handleC0C1 | handleC2 | coSend
deriving DecidableEq,Repr

def outline : Output → Call × Nat
  | .recvBuffer operation => (.recvBuffer,(added operation).length)
  | .handleC0C1 held _ => (.handleC0C1,held.length)
  | .handleC2 held _ => (.handleC2,held.length)
  | .coSend _ s0s1s2 => (.coSend,s0s1s2.length)

theorem hello_answered (chunk : Chunk) (same : chunk = shortChunk ∨ chunk = fullChunk) :
    ((machine freshHandshake).run [.received chunk helloCrypto 0]).map (fun result => result.2.map outline) =
      .ok [(.recvBuffer,10240),(.handleC0C1,10240),(.recvBuffer,0),(.coSend,3073)] := by
  rcases same with rfl | rfl <;> decide +kernel

theorem fullHello_seen : (∃ s outputs, (machine freshHandshake).run [.received fullChunk helloCrypto 0] = .ok (s,outputs)) ∧
    SeesReceived freshHandshake [.received fullChunk helloCrypto 0] := by
  obtain ⟨⟨s,outputs⟩,ran,-⟩ := map_ok.mp (hello_answered fullChunk (.inr rfl))
  refine ⟨⟨s,outputs,ran⟩,(seesReceived_iff ran).mpr ?_⟩
  intro chunk member
  obtain rfl : chunk = fullChunk := by simpa [chunks] using member
  exact padded_length

-- C1 is not complete, and S0S1S2 goes out: its last byte is one of the array.
theorem shortHello_answered : ¬ SeesReceived freshHandshake [.received shortChunk helloCrypto 0] := by
  intro sees
  obtain ⟨⟨s,outputs⟩,ran,calls⟩ := map_ok.mp (hello_answered shortChunk (.inl rfl))
  obtain ⟨-,-,genuine⟩ := sees _ [] s outputs (List.append_nil _).symm ran
  have sent : (Call.coSend,3073) ∈ outputs.map outline := by
    rw [show outputs.map outline = _ from calls]
    decide
  obtain ⟨output,member,shape⟩ := List.mem_map.mp sent
  cases output with
  | coSend c0c1 s0s1s2 =>
    obtain ⟨size,inside⟩ := genuine c0c1 s0s1s2 member
    have few : (received [.received shortChunk helloCrypto 0]).length = 1536 := by
      rw [received,chunks,chunks,List.flatMap_singleton]
      exact hello_length
    have within := inside.length_le
    omega
  | recvBuffer operation => simp [outline] at shape
  | handleC0C1 held ret => simp [outline] at shape
  | handleC2 held ret => simp [outline] at shape

end CoStream.CoRtmpSession
