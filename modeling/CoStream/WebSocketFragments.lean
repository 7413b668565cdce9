import CoStream.WebSocketControl

namespace CoStream
open Foundation

theorem header_plain {first second : UInt8} (packet : wsPacketHeader first second = ⟨opcode,fin,code,false⟩)
    (sized : Header.length? code rest = some (start,len)) :
    Header.read? (first::second::rest) = some ⟨fin,opcode,none,start,len⟩ := by
  simp [Header.read?,packet,sized]

theorem header_masked {first second : UInt8} (key : MaskingKey)
    (packet : wsPacketHeader first second = ⟨opcode,fin,code,true⟩)
    (sized : Header.length? code rest = some (start,len))
    (keyed : (first::second::rest).drop start = key.bytes++tail) :
    Header.read? (first::second::rest) = some ⟨fin,opcode,some key,start+4,len⟩ := by
  simp [Header.read?,packet,sized,keyed,MaskingKey.bytes]

-- A frame as any peer may put it on the wire, masked or not, with the shortest
-- of the three length fields.
structure WireFrame where
  fin : Bool
  opcode : UInt8
  maskingKey : Option MaskingKey
  payload : List UInt8
deriving DecidableEq,Repr

namespace WireFrame

def frame (f : WireFrame) : Frame := ⟨f.fin,f.opcode,f.payload⟩

def second (f : WireFrame) (code : UInt8) : UInt8 := (if f.maskingKey.isSome then 0x80 else 0) ||| code

def lengthField (f : WireFrame) : List UInt8 :=
  let len := f.payload.length
  if len > 65535 then
    [f.second 127,byteAt len 56,byteAt len 48,byteAt len 40,byteAt len 32,byteAt len 24,byteAt len 16,byteAt len 8,byteAt len 0]
  else if len ≥ 126 then [f.second 126,byteAt len 8,byteAt len 0]
  else [f.second len.toUInt8]

def head (f : WireFrame) : List UInt8 := ((if f.fin then 0x80 else 0) ||| f.opcode)::f.lengthField

def body (f : WireFrame) : List UInt8 :=
  match f.maskingKey with
  | none => f.payload
  | some key => key.bytes++xorStream key.byte f.payload

def bytes (f : WireFrame) : List UInt8 := f.head++f.body

def header (f : WireFrame) : Header :=
  ⟨f.fin,f.opcode,f.maskingKey,f.head.length+(if f.maskingKey.isSome then 4 else 0),f.payload.length⟩

theorem payload_le (f : WireFrame) : f.payload.length ≤ f.bytes.length := by
  simp only [bytes,body,List.length_append]
  split
  · omega
  · simp only [List.length_append,length_xorStream]
    omega

theorem packet_flag (flag : Bool) (low : UInt8) : low < 0x80 →
    ((if flag then 0x80 else 0) ||| low) &&& 0x7f = low ∧ decide (((if flag then 0x80 else 0) ||| low) >>> 7 ≠ 0) = flag := by
  cases flag with
  | false => exact forall_byte (fun low => low < 0x80 → ((0 : UInt8) ||| low) &&& 0x7f = low ∧
      decide (((0 : UInt8) ||| low) >>> 7 ≠ 0) = false) (by decide +kernel) low
  | true => exact forall_byte (fun low => low < 0x80 → ((0x80 : UInt8) ||| low) &&& 0x7f = low ∧
      decide (((0x80 : UInt8) ||| low) >>> 7 ≠ 0) = true) (by decide +kernel) low

theorem packet_opcode (flag : Bool) (low : UInt8) : low < 0x10 → ((if flag then 0x80 else 0) ||| low) &&& 0x0f = low := by
  cases flag with
  | false => exact forall_byte (fun low => low < 0x10 → ((0 : UInt8) ||| low) &&& 0x0f = low) (by decide +kernel) low
  | true => exact forall_byte (fun low => low < 0x10 → ((0x80 : UInt8) ||| low) &&& 0x0f = low) (by decide +kernel) low

theorem short_code : ∀ len : Fin 126, len.val.toUInt8 < 0x80 ∧ len.val.toUInt8 ≠ 127 ∧ len.val.toUInt8 ≠ 126 ∧
    len.val.toUInt8.toNat = len.val := by
  decide +kernel

variable {f : WireFrame}

theorem length?_field (fits : f.payload.length < 2^64) : ∃ code rest, f.lengthField = f.second code::rest ∧ code < 0x80 ∧
    ∀ more, Header.length? code (rest++more) = some (f.head.length,f.payload.length) := by
  unfold head lengthField
  dsimp only
  split
  · refine ⟨127,_,rfl,by decide,fun more => ?_⟩
    simp [Header.length?,bigEndian_byteAt_eight _ fits]
  split
  · refine ⟨126,_,rfl,by decide,fun more => ?_⟩
    simp [Header.length?,bigEndian_byteAt_two f.payload.length (by omega)]
  · rename_i short
    obtain ⟨low,wide,extended,len⟩ := short_code ⟨f.payload.length,by omega⟩
    refine ⟨_,[],rfl,low,fun more => ?_⟩
    simp [Header.length?,wide,extended,len]

theorem opcode_low (kind : f.opcode < 0x10) : f.opcode < 0x80 := by
  have small : f.opcode.toNat < 0x10 := UInt8.lt_iff_toNat_lt.mp kind
  exact UInt8.lt_iff_toNat_lt.mpr (Nat.lt_trans small (by decide))

theorem packet_exact (kind : f.opcode < 0x10) (low : code < 0x80) :
    wsPacketHeader ((if f.fin then 0x80 else 0) ||| f.opcode) (f.second code) =
      ⟨f.opcode,f.fin,code,f.maskingKey.isSome⟩ := by
  obtain ⟨shape,masked⟩ := packet_flag f.maskingKey.isSome code low
  have fin := (packet_flag f.fin f.opcode (opcode_low kind)).2
  have opcode := packet_opcode f.fin f.opcode kind
  rw [wsPacketHeader,opcode,fin,second,shape,masked]

theorem read?_bytes (kind : f.opcode < 0x10) (fits : f.payload.length < 2^64) (more : List UInt8) :
    Header.read? (f.bytes++more) = some f.header := by
  obtain ⟨code,rest,field,low,length⟩ := length?_field fits
  have packet := packet_exact kind low
  have whole : f.bytes++more = ((if f.fin then 0x80 else 0) ||| f.opcode)::f.second code::(rest++(f.body++more)) := by
    simp [bytes,head,field]
  have behind : (f.bytes++more).drop f.head.length = f.body++more := by
    rw [bytes,List.append_assoc,List.drop_left]
  rw [whole] at behind ⊢
  rw [header]
  cases masked : f.maskingKey with
  | none =>
    rw [masked] at packet
    exact header_plain packet (length _)
  | some key =>
    rw [masked] at packet
    have keyed : f.body++more = key.bytes++(xorStream key.byte f.payload++more) := by
      rw [body,masked,List.append_assoc]
    exact header_masked key packet (length _) (behind.trans keyed)

theorem length_body (f : WireFrame) : f.body.length = (if f.maskingKey.isSome then 4 else 0)+f.payload.length := by
  unfold body
  cases f.maskingKey with
  | none => simp
  | some key => simp [MaskingKey.bytes]; omega

theorem payload_behind (f : WireFrame) (more : List UInt8) :
    f.header.unmask (((f.bytes++more).drop f.header.start).take f.header.len) = f.payload := by
  have behind : (f.bytes++more).drop f.head.length = f.body++more := by
    rw [bytes,List.append_assoc,List.drop_left]
  rw [header,Header.unmask,← List.drop_drop,behind]
  unfold body
  cases f.maskingKey with
  | none => simp
  | some key =>
    have shift : (key.bytes++xorStream key.byte f.payload++more).drop 4 = xorStream key.byte f.payload++more := rfl
    simp only [Option.isSome_some,if_true,shift]
    rw [List.take_left' (length_xorStream _),xorStream_twice]

theorem nextFrame_bytes (kind : f.opcode < 0x10) (fits : f.payload.length < 2^64) (more : List UInt8) :
    nextFrame (f.bytes++more) = some (f.frame,more) := by
  have whole : f.header.start+f.header.len = f.bytes.length := by
    rw [bytes,List.length_append,length_body]
    simp only [header]
    omega
  refine nextFrame_some.mpr ⟨f.header,read?_bytes kind fits more,?_,?_,?_⟩
  · rw [Header.Whole,whole,List.length_append]
    omega
  · rw [Header.frame,payload_behind]
    rfl
  · rw [whole,List.drop_left]

end WireFrame

structure Fragment where
  maskingKey : Option MaskingKey
  payload : List UInt8
deriving DecidableEq,Repr

-- The opcode stands on the first fragment, fin on the last.
def wireFrames (opCode : UInt8) : List Fragment → List WireFrame
  | [] => []
  | [last] => [⟨true,opCode,last.maskingKey,last.payload⟩]
  | fragment::rest => ⟨false,opCode,fragment.maskingKey,fragment.payload⟩::wireFrames wsOpContinueType rest

structure WireMessage where
  kind : MessageType
  first : Fragment
  rest : List Fragment
deriving DecidableEq,Repr

namespace WireMessage

def fragments (message : WireMessage) : List Fragment := message.first::message.rest
def wire (message : WireMessage) : List WireFrame := wireFrames message.kind.opCode message.fragments
def bytes (message : WireMessage) : List UInt8 := message.wire.flatMap WireFrame.bytes
def message (message : WireMessage) : List UInt8 := message.fragments.flatMap Fragment.payload

-- One call for each fragment, with the opcode of the message.
def deliveries (message : WireMessage) : List Action :=
  message.fragments.map fun fragment => .handleWsData fragment.payload message.kind.opCode

end WireMessage

namespace WebSocketSessionBase

def Small (frames : List WireFrame) : Prop := ∀ f ∈ frames, f.opcode < 0x10 ∧ f.payload.length < 2^64

theorem wireFrames_small (opCode : UInt8) (fragments : List Fragment) (kind : opCode < 0x10)
    (fits : ((wireFrames opCode fragments).flatMap WireFrame.bytes).length < 2^64) : Small (wireFrames opCode fragments) := by
  fun_induction wireFrames opCode fragments with
  | case1 => exact fun f member => absurd member (by simp)
  | case2 opCode last =>
    intro f member
    have same := List.mem_singleton.mp member
    subst same
    have inside := WireFrame.payload_le ⟨true,opCode,last.maskingKey,last.payload⟩
    simp only [List.flatMap_cons,List.flatMap_nil,List.append_nil] at fits
    exact ⟨kind,by omega⟩
  | case3 opCode fragment rest _ ih =>
    have inside := WireFrame.payload_le ⟨false,opCode,fragment.maskingKey,fragment.payload⟩
    simp only [List.flatMap_cons,List.length_append] at fits
    intro f member
    rcases List.mem_cons.mp member with rfl | later
    · exact ⟨kind,by omega⟩
    · exact ih (by decide) (by omega) f later

theorem accept_more (pending : List (List UInt8)) (last opCode : UInt8) (payload : List UInt8) :
    Assembly.accept ⟨pending,last⟩ ⟨false,opCode,payload⟩ = (⟨pending++[payload],Assembly.remember opCode last⟩,[]) := rfl

theorem absorb_continued (fragments : List Fragment) (some : fragments ≠ []) (pending : List (List UInt8)) (last : UInt8) :
    Assembly.absorb ⟨pending,last⟩ ((wireFrames wsOpContinueType fragments).map WireFrame.frame) =
      (⟨[],last⟩,(pending++fragments.map Fragment.payload).map (.handleWsData · last)) := by
  induction fragments generalizing pending with
  | nil => exact absurd rfl some
  | cons fragment rest ih =>
    cases rest with
    | nil => simp [wireFrames,Assembly.absorb,Assembly.accept,WireFrame.frame,Assembly.answers,Assembly.remember,
        wsOpContinueType,wsOpPingType,wsOpPongType,wsOpCloseType,wsOpTextType,wsOpBinType]
    | cons next rest =>
      have later := ih (by simp) (pending++[fragment.payload])
      have kept : Assembly.remember wsOpContinueType last = last := rfl
      simp only [wireFrames,List.map_cons,WireFrame.frame,Assembly.absorb,accept_more,kept,List.nil_append] at later ⊢
      rw [later]
      simp

theorem absorb_message (message : WireMessage) (a : Assembly) (settled : a.pending = []) :
    a.absorb (message.wire.map WireFrame.frame) = (⟨[],message.kind.opCode⟩,message.deliveries) := by
  obtain ⟨kind,first,rest⟩ := message
  obtain ⟨pending,last⟩ := a
  cases settled
  have remembered : Assembly.remember kind.opCode last = kind.opCode := by cases kind <;> rfl
  cases rest with
  | nil =>
    cases kind <;> rfl
  | cons second rest =>
    have later := absorb_continued (second::rest) (by simp) [first.payload] kind.opCode
    simp only [WireMessage.wire,WireMessage.fragments,wireFrames,List.map_cons,WireFrame.frame,Assembly.absorb,accept_more,
      remembered,List.nil_append] at later ⊢
    rw [later]
    simp [WireMessage.deliveries,WireMessage.fragments]

theorem front_splits {front more first second : List UInt8} (split : front++more = first++second) :
    (∃ left, left ≠ [] ∧ front++left = first) ∨ ∃ later, front = first++later ∧ later++more = second := by
  rcases List.append_eq_append_iff.mp split with ⟨left,inside,-⟩ | ⟨later,covered,rest⟩
  · by_cases all : left = []
    · subst all
      rw [List.append_nil] at inside
      subst inside
      exact Or.inr ⟨[],by simp,List.append_cancel_left split⟩
    · exact Or.inl ⟨left,all,inside.symm⟩
  · exact Or.inr ⟨later,covered,rest.symm⟩

theorem drain_open {f : WireFrame} (small : f.opcode < 0x10 ∧ f.payload.length < 2^64) (inside : front++left = f.bytes)
    (missing : left ≠ []) : frameDecoder.drain front = ([],front) := by
  apply frameDecoder.drain_none
  have whole := WireFrame.nextFrame_bytes small.1 small.2 []
  rw [List.append_nil,← inside] at whole
  exact frameDecoder.next_front whole missing

theorem drain_frame {f : WireFrame} (small : f.opcode < 0x10 ∧ f.payload.length < 2^64) (later : List UInt8) :
    frameDecoder.drain (f.bytes++later) = (f.frame::(frameDecoder.drain later).1,(frameDecoder.drain later).2) :=
  frameDecoder.drain_some (WireFrame.nextFrame_bytes small.1 small.2 later)

theorem absorb_open (opCode : UInt8) (fragments : List Fragment) (small : Small (wireFrames opCode fragments)) (a : Assembly)
    (split : front++more = (wireFrames opCode fragments).flatMap WireFrame.bytes) (missing : more ≠ []) :
    (a.absorb (frameDecoder.drain front).1).2 = [] := by
  fun_induction wireFrames opCode fragments generalizing a front with
  | case1 =>
    simp only [List.flatMap_nil,List.append_eq_nil_iff] at split
    exact absurd split.2 missing
  | case2 opCode last =>
    rw [List.flatMap_cons,List.flatMap_nil,List.append_nil] at split
    rw [drain_open (small _ List.mem_cons_self) split missing]
    rfl
  | case3 opCode fragment rest _ ih =>
    have first := small _ List.mem_cons_self
    rw [List.flatMap_cons] at split
    rcases front_splits split with ⟨left,missing,inside⟩ | ⟨later,rfl,behind⟩
    · rw [drain_open first inside missing]
      rfl
    · rw [drain_frame first,Assembly.absorb]
      exact ih (fun f member => small f (List.mem_cons_of_mem _ member)) _ behind

theorem drain_message (message : WireMessage) (small : Small message.wire) (later : List UInt8) :
    frameDecoder.drain (message.bytes++later) =
      (message.wire.map WireFrame.frame++(frameDecoder.drain later).1,(frameDecoder.drain later).2) := by
  have whole : frameDecoder.drain message.bytes = (message.wire.map WireFrame.frame,[]) :=
    frameDecoder.drain_flatMap _ _ _ fun f member more => WireFrame.nextFrame_bytes (small f member).1 (small f member).2 more
  rw [frameDecoder.drain_append,whole,List.nil_append]

-- What a front of the stream is answered with: the calls of the messages that
-- are complete in it, and no others.
theorem absorb_front (messages : List WireMessage) (a : Assembly) (settled : a.pending = [])
    (small : ∀ message ∈ messages, Small message.wire) (split : front++more = messages.flatMap WireMessage.bytes) :
    ∃ count ≤ messages.length, (a.absorb (frameDecoder.drain front).1).2 = (messages.take count).flatMap WireMessage.deliveries ∧
      ((messages.take count).flatMap WireMessage.bytes).length ≤ front.length ∧
      (count < messages.length → front.length < ((messages.take (count+1)).flatMap WireMessage.bytes).length) := by
  induction messages generalizing a front with
  | nil =>
    simp only [List.flatMap_nil,List.append_eq_nil_iff] at split
    obtain ⟨rfl,-⟩ := split
    exact ⟨0,Nat.le_refl _,by simp [Assembly.absorb],by simp,by simp⟩
  | cons message rest ih =>
    have first := small message List.mem_cons_self
    rw [List.flatMap_cons] at split
    rcases front_splits split with ⟨left,missing,inside⟩ | ⟨later,rfl,behind⟩
    · refine ⟨0,Nat.zero_le _,?_,by simp,fun _ => ?_⟩
      · rw [absorb_open _ _ first a inside missing]
        rfl
      · have longer := congrArg List.length inside
        have some := List.length_pos_iff.mpr missing
        simp only [List.length_append] at longer
        simp
        omega
    · obtain ⟨count,within,answered,long,short⟩ :=
        ih ⟨[],message.kind.opCode⟩ rfl (fun other member => small other (List.mem_cons_of_mem _ member)) behind
      refine ⟨count+1,by simpa using within,?_,?_,?_⟩
      · rw [drain_message message first,Assembly.absorb_append,absorb_message message a settled,answered]
        simp
      · simp only [List.take_succ_cons,List.flatMap_cons,List.length_append]
        omega
      · intro more
        simp only [List.take_succ_cons,List.flatMap_cons,List.length_append]
        have inner := short (by simpa using more)
        omega

-- The bytes of the messages are whole frames, so the runs over any front of them
-- are defined and stay in `int`.
theorem drain_messages (messages : List WireMessage) (small : ∀ message ∈ messages, Small message.wire) :
    (frameDecoder.drain (messages.flatMap WireMessage.bytes)).2 = [] := by
  induction messages with
  | nil => rw [List.flatMap_nil,frameDecoder.drain_nil]
  | cons message rest ih =>
    rw [List.flatMap_cons,drain_message message (small message List.mem_cons_self)]
    exact ih fun other member => small other (List.mem_cons_of_mem _ member)

theorem messages_small (messages : List WireMessage) (short : (messages.flatMap WireMessage.bytes).length < 2^64) :
    ∀ message ∈ messages, Small message.wire := by
  intro message member
  obtain ⟨before,after,rfl⟩ := List.append_of_mem member
  simp only [List.flatMap_append,List.flatMap_cons,List.length_append] at short
  have kind : message.kind.opCode < 0x10 := by cases message.kind <;> decide
  apply wireFrames_small _ _ kind
  change message.bytes.length < 2^64
  omega

def handedData : List Action → List UInt8
  | [] => []
  | .handleWsData data _::rest => data++handedData rest
  | _::rest => handedData rest

theorem handedData_deliveries (message : WireMessage) : handedData message.deliveries = message.message := by
  unfold WireMessage.deliveries WireMessage.message
  induction message.fragments with
  | nil => rfl
  | cons fragment rest ih => simp [handedData,ih]

-- The calls so far are those of the messages that have arrived as a whole:
-- `count` of them, and not all of the next one.
def Delivered (messages : List WireMessage) (received : List UInt8) (actions : List Action) : Prop :=
  ∃ count ≤ messages.length, calls actions = (messages.take count).flatMap WireMessage.deliveries ∧
    ((messages.take count).flatMap WireMessage.bytes).length ≤ received.length ∧
    (count < messages.length → received.length < ((messages.take (count+1)).flatMap WireMessage.bytes).length)

theorem Delivered.all (delivered : Delivered messages (messages.flatMap WireMessage.bytes) actions) :
    calls actions = messages.flatMap WireMessage.deliveries := by
  obtain ⟨count,within,answers,-,next⟩ := delivered
  have all : count = messages.length := by
    by_contra fewer
    have cut := next (by omega)
    have whole : messages.flatMap WireMessage.bytes = (messages.take (count+1)).flatMap WireMessage.bytes++
        (messages.drop (count+1)).flatMap WireMessage.bytes := by
      rw [← List.flatMap_append,List.take_append_drop]
    rw [whole,List.length_append] at cut
    omega
  rw [answers,all,List.take_length]

theorem fragments_delivered (messages : List WireMessage) (reads : List Read)
    (carried : stream reads = messages.flatMap WireMessage.bytes) (short : (stream reads).length < 2^31-65536) :
    (∀ before after, reads = before++after →
      ∃ s actions, machine.run before = .ok (s,actions) ∧ Delivered messages (stream before) actions) ∧
    (∃ s actions, machine.run reads = .ok (s,actions) ∧ calls actions = messages.flatMap WireMessage.deliveries) ∧
    ∀ message ∈ messages, handedData message.deliveries = message.message := by
  have small := messages_small messages (by rw [← carried]; omega)
  have below : FramesBelow (stream reads) := by
    apply framesBelow_complete ?_ (by omega)
    rw [carried]
    exact drain_messages messages small
  have fronts : ∀ before after, reads = before++after →
      ∃ s actions, machine.run before = .ok (s,actions) ∧ Delivered messages (stream before) actions := by
    rintro before after rfl
    rw [stream_append] at carried below short
    rw [List.length_append] at short
    have front := framesBelow_front _ below
    obtain ⟨s,actions,ran,-,-,-,drained⟩ := run_good before front
    obtain ⟨-,answered⟩ := drained (liveBelow_short front (by omega))
    obtain ⟨count,within,answers,long,next⟩ := absorb_front messages ⟨[],1⟩ rfl small carried
    rw [answered] at answers
    exact ⟨s,actions,ran,count,within,answers,long,next⟩
  refine ⟨fronts,?_,fun message _ => handedData_deliveries message⟩
  obtain ⟨s,actions,ran,delivered⟩ := fronts reads [] (List.append_nil _).symm
  rw [carried] at delivered
  exact ⟨s,actions,ran,delivered.all⟩

-- A text in two fragments, the second one masked, one byte at a time.
def cut : List WireMessage := [⟨.text,⟨none,[104]⟩,[⟨some ⟨1,2,3,4⟩,[105]⟩]⟩]
def cutReads : List Read := (cut.flatMap WireMessage.bytes).map fun byte => ⟨0,[byte]⟩

theorem cut_delivered : stream cutReads = cut.flatMap WireMessage.bytes ∧ ∃ s actions, machine.run cutReads = .ok (s,actions) ∧
    calls actions = [.handleWsData [104] wsOpTextType,.handleWsData [105] wsOpTextType] := by
  have carried : stream cutReads = cut.flatMap WireMessage.bytes := by decide
  exact ⟨carried,(fragments_delivered cut cutReads carried (by decide)).2.1⟩

-- The 64-bit lengths the parser reads keep below 2^31 with room for the copies.
def LengthsBelow (input : List UInt8) : Prop :=
  ∀ first second rest h, frameDecoder.Reaches input (first::second::rest) →
    (wsPacketHeader first second).payloadLen = 127 → Header.read? (first::second::rest) = some h → h.len < 2^31-65536

theorem length?_short (plain : code ≠ 127) (found : Header.length? code rest = some (start,len)) : len < 65536 := by
  unfold Header.length? at found
  rw [if_neg plain] at found
  split at found
  · split at found
    · cases found
      exact Nat.lt_of_lt_of_le (bigEndian_lt _) (by simp)
    · cases found
  · cases found
    have small := code.toNat_lt
    omega

theorem read?_length {first second : UInt8} (found : Header.read? (first::second::rest) = some h) :
    ∃ start, Header.length? (wsPacketHeader first second).payloadLen rest = some (start,h.len) := by
  simp only [Header.read?] at found
  split at found
  · cases found
  · rename_i start len sized
    refine ⟨start,sized.trans ?_⟩
    split at found
    · split at found
      · cases found
        rfl
      · cases found
    · cases found
      rfl

theorem framesBelow_lengths (lengths : LengthsBelow input) : FramesBelow input := by
  intro place h reached found
  have bounds := Header.read?_bounds found
  match place with
  | [] => cases found
  | [_] => cases found
  | first::second::rest =>
    have small : h.len < 2^31 := by
      by_cases extended : (wsPacketHeader first second).payloadLen = 127
      · have announced := lengths first second rest h reached extended found
        omega
      · obtain ⟨start,sized⟩ := read?_length found
        have announced := length?_short extended sized
        omega
    omega

theorem segmentation_free (one two : List Read) (same : stream one = stream two)
    (short : (stream one).length < 2^31-65536) (lengths : LengthsBelow (stream one)) :
    ∃ s t first second, machine.run one = .ok (s,first) ∧ machine.run two = .ok (t,second) ∧
      calls first = calls second ∧ s.frame.buffer = t.frame.buffer ∧ s.recvBufferVec = t.recvBufferVec ∧
      s.lastOpCode = t.lastOpCode := by
  have below := framesBelow_lengths lengths
  have belowTwo := same ▸ below
  obtain ⟨s,first,ranOne,-,-,-,drainedOne⟩ := run_good one below
  obtain ⟨t,second,ranTwo,-,-,-,drainedTwo⟩ := run_good two belowTwo
  obtain ⟨bufferOne,answeredOne⟩ := drainedOne (liveBelow_short below (by omega))
  obtain ⟨bufferTwo,answeredTwo⟩ := drainedTwo (liveBelow_short belowTwo (by rw [← same]; omega))
  rw [same] at bufferOne answeredOne
  have assembled := answeredOne.symm.trans answeredTwo
  simp only [Prod.mk.injEq,assembly,Assembly.mk.injEq] at assembled
  exact ⟨s,t,first,second,ranOne,ranTwo,assembled.2,bufferOne.trans bufferTwo.symm,assembled.1.1,assembled.1.2⟩

theorem lengthsBelow_complete (complete : (frameDecoder.drain input).2 = []) (short : input.length < 2^31-65536) :
    LengthsBelow input := by
  intro first second rest h reached _ found
  have inside := complete_inside complete reached found
  omega

theorem cut_free : ∃ s t first second, machine.run cutReads = .ok (s,first) ∧
    machine.run [⟨5,[]⟩,⟨7,cut.flatMap WireMessage.bytes⟩] = .ok (t,second) ∧ calls first = calls second ∧
      s.frame.buffer = t.frame.buffer ∧ s.recvBufferVec = t.recvBufferVec ∧ s.lastOpCode = t.lastOpCode :=
  segmentation_free cutReads [⟨5,[]⟩,⟨7,cut.flatMap WireMessage.bytes⟩] (by decide) (by decide)
    (lengthsBelow_complete (by decide) (by decide))

end WebSocketSessionBase
end CoStream
