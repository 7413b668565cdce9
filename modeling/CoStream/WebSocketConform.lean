import CoStream.WebSocketEnds

namespace CoStream
open Foundation

def IsControl (opCode : UInt8) : Prop := opCode = wsOpPingType ∨ opCode = wsOpPongType ∨ opCode = wsOpCloseType
instance {opCode : UInt8} : Decidable (IsControl opCode) := inferInstanceAs (Decidable (_ ∨ _ ∨ _))

-- The bytes in front of a masking key when the length is written in the shortest way.
def shortestStart (len : Nat) : Nat := if len ≤ 125 then 2 else if len ≤ 65535 then 4 else 10

-- One frame as the protocol has it.
structure Conforms (sender : Sender) (bytes : List UInt8) : Prop where
  reserved : ∃ first rest, bytes = first::rest ∧ first &&& 0x70 = 0
  header : ∃ h, Header.read? bytes = some h ∧ bytes.length = h.start+h.len ∧
    h.start = shortestStart h.len+(if h.maskingKey.isSome then 4 else 0) ∧
    (h.maskingKey.isSome = true ↔ sender = .client) ∧ (IsControl h.opcode → h.len ≤ 125)

-- Every frame that is sent conforms, whatever key the random source gives.
def Conforming (sender : Sender) (sends : List Action) : Prop :=
  ∀ data opCode, .sendWsFrame data opCode ∈ sends → ∀ maskingKey writes,
    sendWsFrame sender maskingKey data opCode = .ok writes → Conforms sender writes.flatten

namespace Header

theorem read?_packet {first second : UInt8} (found : read? (first::second::rest) = some h) :
    h.opcode = (wsPacketHeader first second).opcode ∧ h.maskingKey.isSome = (wsPacketHeader first second).mask := by
  unfold read? at found
  dsimp only at found
  split at found
  · cases found
  · split at found
    · rename_i masked
      split at found
      · cases found
        exact ⟨rfl,masked.symm⟩
      · cases found
    · rename_i plain
      cases found
      exact ⟨rfl,(Bool.not_eq_true _ ▸ plain).symm⟩

end Header

section encode
variable {sender : Sender} {maskingKey : MaskingKey} {data : List UInt8} {opCode : UInt8}

theorem sendHeader_length (len : Nat) (opCode : UInt8) : (sendHeader len opCode).length = shortestStart len := by
  unfold sendHeader shortestStart
  dsimp only
  split
  · split
    · rw [if_neg (by omega),if_neg (by omega)]
      rfl
    · rw [if_neg (by omega),if_pos (by omega)]
      rfl
  · rw [if_pos (by omega)]
    rfl

theorem encode_length (maskingKey : MaskingKey) (data : List UInt8) (opCode : UInt8) :
    (encode maskingKey data opCode).length = shortestStart data.length+4+data.length := by
  simp only [encode,List.length_append,sendHeader_length,length_xorStream]
  rfl

-- Both senders set the mask bit.
theorem encode_packet (maskingKey : MaskingKey) (data : List UInt8) (kind : opCode < 0x10) :
    ∃ first second rest, encode maskingKey data opCode = first::second::rest ∧ first &&& 0x70 = 0 ∧
    (wsPacketHeader first second).opcode = opCode ∧ (wsPacketHeader first second).mask = true := by
  have low : (0x80 ||| (opCode &&& 0x0f)) &&& 0x70 = 0 := by
    revert kind
    exact forall_byte (fun opCode => opCode < 0x10 → (0x80 ||| (opCode &&& 0x0f)) &&& 0x70 = 0) (by decide +kernel) opCode
  have named := (packet_first opCode kind).1
  have masked : ∀ len : UInt8, (0x80 ||| (len &&& 0x7f)) >>> 7 ≠ 0 :=
    forall_byte (fun len => (0x80 ||| (len &&& 0x7f)) >>> 7 ≠ 0) (by decide +kernel)
  unfold encode sendHeader
  dsimp only
  split
  · split
    · exact ⟨_,_,_,rfl,low,named,rfl⟩
    · exact ⟨_,_,_,rfl,low,named,rfl⟩
  · exact ⟨_,_,_,rfl,low,named,decide_eq_true (masked _)⟩

theorem encode_fails (kind : opCode < 0x10) (conforms : Conforms sender (encode maskingKey data opCode)) :
    sender = .client ∧ (IsControl opCode → data.length ≤ 125) := by
  obtain ⟨first,second,rest,shape,-,named,masked⟩ := encode_packet maskingKey data kind
  obtain ⟨h,found,whole,start,sends,short⟩ := conforms.header
  have size := encode_length maskingKey data opCode
  rw [shape] at found
  obtain ⟨same,key⟩ := Header.read?_packet found
  rw [masked] at key
  refine ⟨sends.mp key,fun control => ?_⟩
  have small := short (by rw [same,named]; exact control)
  rw [key,if_pos rfl] at start
  unfold shortestStart at start size
  rw [if_pos small] at start
  split at size
  · assumption
  · split at size <;> omega

theorem encode_conforms (kind : opCode < 0x10) (fits : data.length < 2^64) (short : IsControl opCode → data.length ≤ 125) :
    Conforms .client (encode maskingKey data opCode) := by
  obtain ⟨first,second,rest,shape,reserved,-,-⟩ := encode_packet maskingKey data kind
  have found := read?_encode maskingKey data [] opCode kind fits
  rw [List.append_nil] at found
  refine ⟨⟨first,second::rest,shape,reserved⟩,_,found,?_,?_,⟨fun _ => rfl,fun _ => rfl⟩,short⟩
  · rw [encode_length,sendHeader_length]
  · rw [sendHeader_length]
    rfl

end encode

-- The op codes that are sent at all.
def SentOpCode (opCode : UInt8) : Prop := opCode = wsOpTextType ∨ opCode = wsOpBinType ∨ IsControl opCode

theorem sent_kind (sent : SentOpCode opCode) : opCode < 0x10 := by
  rcases sent with rfl | rfl | rfl | rfl | rfl <;> decide

variable {sends : List Action}

section everySend
variable {Good : List UInt8 → UInt8 → Prop} {first second : List Action}

theorem everySend_append : (∀ data opCode, .sendWsFrame data opCode ∈ first++second → Good data opCode) ↔
    (∀ data opCode, .sendWsFrame data opCode ∈ first → Good data opCode) ∧
      ∀ data opCode, .sendWsFrame data opCode ∈ second → Good data opCode := by
  constructor
  · intro both
    exact ⟨fun data opCode member => both data opCode (List.mem_append_left _ member),
      fun data opCode member => both data opCode (List.mem_append_right _ member)⟩
  · rintro ⟨one,two⟩ data opCode member
    rcases List.mem_append.mp member with early | late
    · exact one data opCode early
    · exact two data opCode late

theorem everySend_nothing (nothing : sends = []) (data : List UInt8) (opCode : UInt8)
    (member : .sendWsFrame data opCode ∈ sends) : Good data opCode := by
  rw [nothing] at member
  cases member

end everySend

theorem conforming_append {first second : List Action} {sender : Sender} :
    Conforming sender (first++second) ↔ Conforming sender first ∧ Conforming sender second := everySend_append

-- What a server sends never conforms.
theorem server_conforming (known : ∀ data opCode, .sendWsFrame data opCode ∈ sends → SentOpCode opCode) :
    Conforming .server sends ↔ ∀ data opCode, .sendWsFrame data opCode ∉ sends := by
  constructor
  · intro conforming data opCode member
    obtain ⟨writes,sent,bytes⟩ := sendWsFrame_exact .server ⟨1,1,1,1⟩ data opCode
    have conforms := conforming data opCode member _ writes sent
    rw [bytes] at conforms
    cases (encode_fails (sent_kind (known data opCode member)) conforms).1
  · exact fun silent data opCode member => absurd member (silent data opCode)

theorem client_conforming (known : ∀ data opCode, .sendWsFrame data opCode ∈ sends → SentOpCode opCode)
    (fits : ∀ data opCode, .sendWsFrame data opCode ∈ sends → ¬ IsControl opCode → data.length < 2^64) :
    Conforming .client sends ↔
      ∀ data opCode, .sendWsFrame data opCode ∈ sends → IsControl opCode → data.length ≤ 125 := by
  constructor
  · intro conforming data opCode member
    obtain ⟨writes,sent,bytes⟩ := sendWsFrame_exact .client ⟨1,1,1,1⟩ data opCode
    have conforms := conforming data opCode member _ writes sent
    rw [bytes] at conforms
    exact (encode_fails (sent_kind (known data opCode member)) conforms).2
  · intro short data opCode member maskingKey writes sent
    obtain ⟨other,again,bytes⟩ := sendWsFrame_exact .client maskingKey data opCode
    cases sent.symm.trans again
    have small := short data opCode member
    rw [bytes]
    refine encode_conforms (sent_kind (known data opCode member)) ?_ small
    by_cases control : IsControl opCode
    · have bound := small control
      omega
    · exact fits data opCode member control

namespace Frame

-- The frames that are answered with frames of their own.
def echoed (frame : Frame) : Bool := frame.fin && (frame.opcode == wsOpPingType || frame.opcode == wsOpCloseType)

end Frame

namespace WebSocketSessionBase
open WebSocketFrame (Pending)

-- A close payload that HandleWsClose sends back as it is.
def ValidClose (data : List UInt8) : Prop :=
  1 < data.length ∧ ¬ (bigEndian (data.take 2) < 1000 ∨ bigEndian (data.take 2) ≥ 5000 ∨ bigEndian (data.take 2) = 1004 ∨
    bigEndian (data.take 2) = 1005 ∨ bigEndian (data.take 2) = 1006 ∨ bigEndian (data.take 2) = 1015)

-- What a ping finds collected is at most 125 bytes long, piece by piece, and so is
-- the first piece that a close finds, if it is sent back.
def EchoesShort : Bool → List (List UInt8) → List Frame → Prop
  | _,_,[] => True
  | close,pending,frame::rest =>
    if frame.fin then
      (frame.opcode = wsOpPingType → ∀ payload ∈ pending++[frame.payload], payload.length ≤ 125) ∧
      (frame.opcode = wsOpCloseType → close = false → ∀ first, (pending++[frame.payload]).head? = some first →
        ValidClose first → first.length ≤ 125) ∧
      EchoesShort (close || frame.opcode == wsOpCloseType) [] rest
    else EchoesShort close (pending++[frame.payload]) rest

def ShortSends (sends : List Action) : Prop :=
  ∀ data opCode, .sendWsFrame data opCode ∈ sends → IsControl opCode → data.length ≤ 125

variable {s next : WebSocketSessionBase} {a : Assembly} {frame : Frame} {actions : List Action}

theorem shortSends_append (first second : List Action) :
    ShortSends (first++second) ↔ ShortSends first ∧ ShortSends second := everySend_append

theorem closeReply_short (data : List UInt8) :
    ShortSends [WebSocketSession.closeReply data] ↔ (ValidClose data → data.length ≤ 125) := by
  have fixed : (ascii "Incomplete close code").length ≤ 125 ∧ (ascii "Invalid close code").length ≤ 125 := by decide
  unfold WebSocketSession.closeReply
  split
  · rename_i incomplete
    constructor
    · intro _ valid
      have long := valid.1
      omega
    · intro _ reply opCode member control
      cases List.mem_singleton.mp member
      exact fixed.1
  · rename_i long
    dsimp only
    split
    · rename_i invalid
      constructor
      · intro _ valid
        exact absurd invalid valid.2
      · intro _ reply opCode member control
        cases List.mem_singleton.mp member
        exact fixed.2
    · rename_i valid
      constructor
      · intro short _
        exact short data wsOpCloseType List.mem_cons_self (.inr (.inr rfl))
      · intro short reply opCode member control
        cases List.mem_singleton.mp member
        exact short ⟨by omega,valid⟩

theorem pongs_short (payloads : List (List UInt8)) :
    ShortSends (payloads.map (.sendWsFrame · wsOpPongType)) ↔ ∀ payload ∈ payloads, payload.length ≤ 125 := by
  constructor
  · intro short payload member
    exact short payload wsOpPongType (List.mem_map_of_mem member) (.inr (.inl rfl))
  · intro short data opCode member control
    obtain ⟨payload,listed,same⟩ := List.mem_map.mp member
    cases same
    exact short data listed

theorem handed_short (payloads : List (List UInt8)) (opCode : UInt8) :
    ShortSends (payloads.map (.handleWsData · opCode)) := by
  intro data op member
  obtain ⟨payload,-,same⟩ := List.mem_map.mp member
  cases same

theorem answers_short (plain : opcode ≠ wsOpCloseType) (pending : List (List UInt8)) :
    ShortSends (Assembly.answers opcode last pending) ↔
      (opcode = wsOpPingType → ∀ payload ∈ pending, payload.length ≤ 125) := by
  unfold Assembly.answers
  by_cases ping : opcode = wsOpPingType
  · rw [if_pos ping,pongs_short]
    simp [ping]
  · rw [if_neg ping]
    have nothing : ShortSends [] := everySend_nothing rfl
    have short : ∀ (sends : List Action), ShortSends sends →
        (ShortSends sends ↔ (opcode = wsOpPingType → ∀ payload ∈ pending, payload.length ≤ 125)) :=
      fun sends short => ⟨fun _ same => absurd same ping,fun _ => short⟩
    apply short
    rw [if_neg plain]
    split
    · exact nothing
    split
    · exact handed_short pending last
    split
    · exact handed_short pending opcode
    · exact nothing

-- What is sent for some frames is short exactly when what they find is.
theorem effects_short (frames : List Frame) (close : Bool) (a : Assembly) :
    ShortSends (effects close (a.absorb frames).2) ↔ EchoesShort close a.pending frames := by
  induction frames generalizing close a with
  | nil =>
    refine ⟨fun _ => trivial,fun _ data opCode member => ?_⟩
    cases close <;> cases member
  | cons frame rest ih =>
    rw [Assembly.absorb,EchoesShort]
    cases fin : frame.fin with
    | false =>
      have plain : frame.closes = false := by simp [Frame.closes,fin]
      obtain ⟨lastOpCode,accepted⟩ := accept_open a fin
      rw [accepted,List.nil_append,ih,if_neg (by simp)]
    | true =>
      rw [if_pos rfl]
      have emptied : (a.accept frame).1.pending = [] := by simp [Assembly.accept,fin]
      by_cases closing : frame.opcode = wsOpCloseType
      · have closes : frame.closes = true := by simp [Frame.closes,fin,closing]
        have apart : wsOpCloseType ≠ wsOpPingType := by decide
        obtain ⟨first,others,shape⟩ := List.exists_cons_of_ne_nil (l := a.pending++[frame.payload]) (by simp)
        have ends : (close || frame.opcode == wsOpCloseType) = true := by simp [closing]
        rw [accept_closes a closes,shape,ends]
        cases close with
        | true =>
          rw [effects_closed,ih,emptied]
          simp [closing,apart]
        | false =>
          have only : ShortSends [.handleWsClose first] := fun data opCode member => by simp at member
          have one : ∀ sends, ShortSends (.handleWsClose first::WebSocketSession.closeReply first::sends) ↔
              (ValidClose first → first.length ≤ 125) ∧ ShortSends sends := by
            intro sends
            rw [← closeReply_short,← shortSends_append]
            exact (shortSends_append [.handleWsClose first] _).trans (and_iff_right only)
          rw [List.map_cons,List.cons_append,effects,effects_closed,one,ih,emptied]
          simp [closing,apart]
      · have plain : frame.closes = false := by simp [Frame.closes,closing]
        have stays : (close || frame.opcode == wsOpCloseType) = close := by simp [closing]
        have answered : (a.accept frame).2 = Assembly.answers frame.opcode (Assembly.remember frame.opcode a.lastOpCode)
            (a.pending++[frame.payload]) := by simp [Assembly.accept,fin]
        rw [effects_others close (accept_others a plain),shortSends_append,answered,answers_short closing,ih,emptied,stays]
        simp [closing]

-- Only pongs and close frames are sent for frames.
def OnlyEchoes (sends : List Action) : Prop :=
  ∀ data opCode, .sendWsFrame data opCode ∈ sends → opCode = wsOpPongType ∨ opCode = wsOpCloseType

theorem closeReply_echo (data : List UInt8) : ∃ reply, WebSocketSession.closeReply data = .sendWsFrame reply wsOpCloseType := by
  unfold WebSocketSession.closeReply
  split
  · exact ⟨_,rfl⟩
  · dsimp only
    split
    · exact ⟨_,rfl⟩
    · exact ⟨_,rfl⟩

theorem answers_sends (member : .sendWsFrame data opCode ∈ Assembly.answers opcode last pending) :
    opcode = wsOpPingType ∧ opCode = wsOpPongType := by
  unfold Assembly.answers at member
  split at member
  · rename_i ping
    obtain ⟨payload,-,same⟩ := List.mem_map.mp member
    cases same
    exact ⟨ping,rfl⟩
  split at member
  · cases member
  split at member
  · obtain ⟨payload,-,same⟩ := List.mem_map.mp member
    cases same
  split at member
  · obtain ⟨payload,-,same⟩ := List.mem_map.mp member
    cases same
  split at member
  · obtain ⟨payload,-,same⟩ := List.mem_map.mp member
    cases same
  · cases member

theorem accept_sends (member : .sendWsFrame data opCode ∈ (a.accept frame).2) :
    frame.fin = true ∧ frame.opcode = wsOpPingType ∧ opCode = wsOpPongType := by
  unfold Assembly.accept at member
  dsimp only at member
  split at member
  · rename_i fin
    exact ⟨fin,answers_sends member⟩
  · cases member

theorem accept_silent (a : Assembly) (plain : frame.closes = false) :
    (∀ data opCode, .sendWsFrame data opCode ∉ (a.accept frame).2) ↔ frame.echoed = false := by
  constructor
  · intro silent
    by_contra echoed
    have ping : frame.fin = true ∧ frame.opcode = wsOpPingType := by
      simp only [Frame.echoed,Frame.closes] at echoed plain
      cases fin : frame.fin <;> simp_all
    obtain ⟨first,others,shape⟩ := List.exists_cons_of_ne_nil (l := a.pending++[frame.payload]) (by simp)
    rw [accept_ping a ping.1 ping.2,shape] at silent
    exact silent first wsOpPongType List.mem_cons_self
  · intro quiet data opCode member
    obtain ⟨fin,ping,-⟩ := accept_sends member
    simp [Frame.echoed,fin,ping] at quiet

theorem effects_echoes (frames : List Frame) (close : Bool) (a : Assembly) :
    OnlyEchoes (effects close (a.absorb frames).2) := by
  induction frames generalizing close a with
  | nil =>
    intro data opCode member
    cases close <;> cases member
  | cons frame rest ih =>
    rw [Assembly.absorb]
    cases closes : frame.closes with
    | false =>
      rw [effects_others close (accept_others a closes)]
      exact everySend_append.mpr ⟨fun data opCode member => .inl (accept_sends member).2.2,ih close _⟩
    | true =>
      obtain ⟨first,others,shape⟩ := List.exists_cons_of_ne_nil (l := a.pending++[frame.payload]) (by simp)
      rw [accept_closes a closes,shape]
      cases close with
      | true =>
        rw [effects_closed]
        exact ih true _
      | false =>
        obtain ⟨reply,echo⟩ := closeReply_echo first
        rw [List.map_cons,List.cons_append,effects,effects_closed,echo]
        intro data opCode member
        rcases List.mem_cons.mp member with never | member
        · cases never
        rcases List.mem_cons.mp member with same | later
        · cases same
          exact .inr rfl
        · exact ih true _ data opCode later

-- A session that is open sends nothing for frames exactly if none is a ping or a close.
theorem effects_silent (frames : List Frame) (a : Assembly) :
    (∀ data opCode, .sendWsFrame data opCode ∉ effects false (a.absorb frames).2) ↔
      ∀ frame ∈ frames, frame.echoed = false := by
  induction frames generalizing a with
  | nil => simp [Assembly.absorb,effects]
  | cons frame rest ih =>
    rw [Assembly.absorb,List.forall_mem_cons]
    obtain ⟨first,others,shape⟩ := List.exists_cons_of_ne_nil (l := a.pending++[frame.payload]) (by simp)
    cases closes : frame.closes with
    | true =>
      have echoed : frame.echoed = true := by
        simp only [Frame.closes,Bool.and_eq_true,beq_iff_eq] at closes
        simp [Frame.echoed,closes.1,closes.2]
      obtain ⟨reply,echo⟩ := closeReply_echo first
      rw [accept_closes a closes,shape,List.map_cons,List.cons_append,effects,echo]
      constructor
      · intro silent
        exact absurd (List.mem_cons_of_mem _ List.mem_cons_self) (silent reply wsOpCloseType)
      · rintro ⟨never,-⟩
        rw [echoed] at never
        cases never
    | false =>
      rw [effects_others false (accept_others a closes),← ih,← accept_silent a closes]
      exact everySend_append

theorem echoesShort_front (front more : List Frame) (close : Bool) (pending : List (List UInt8))
    (short : EchoesShort close pending (front++more)) : EchoesShort close pending front := by
  induction front generalizing close pending with
  | nil => trivial
  | cons frame rest ih =>
    rw [List.cons_append,EchoesShort] at short
    rw [EchoesShort]
    split
    · rename_i fin
      rw [if_pos fin] at short
      exact ⟨short.1,short.2.1,ih _ _ short.2.2⟩
    · rename_i fin
      rw [if_neg fin] at short
      exact ih _ _ short

theorem mem_sentFrames : .sendWsFrame data opCode ∈ sentFrames actions ↔ .sendWsFrame data opCode ∈ actions := by
  simp [sentFrames]

theorem effects_calls (actions : List Action) (close : Bool) :
    sentFrames (effects close (calls actions)) = sentFrames (effects close actions) := by
  induction actions generalizing close with
  | nil => rfl
  | cons action rest ih =>
    have kept : ∀ action, calls [action] = [action] →
        sentFrames (effects close (calls (action::rest))) = sentFrames (effects close (action::rest)) := by
      intro action same
      have shape : calls (action::rest) = action::calls rest := by
        rw [← List.singleton_append,calls_append,same]
        rfl
      rw [shape,effects_cons,effects_cons close action rest,sentFrames_append,sentFrames_append,ih]
    cases action with
    | parsed frame =>
      rw [calls_parsed,ih,effects_other close rfl]
      rfl
    | consumed before after =>
      rw [calls_consumed,ih,effects_other close rfl]
      rfl
    | handleWsData data opCode => exact kept _ rfl
    | sendWsFrame data opCode => exact kept _ rfl
    | handleWsClose data => exact kept _ rfl

-- What HandleFrame sends, whichever way it ends, is what the frames in front of
-- the buffered bytes make it send.
theorem handleFrame_sends (pending : Pending s.frame) (room : (s.frame.buffer++data).length < 2^63)
    (handled : s.handleFrame nowMs data = .ok (next,actions,ret)) : Pending next.frame ∧ next.close = s.close ∧
    ∃ front more, (frameDecoder.drain (s.frame.buffer++data)).1 = front++more ∧
      sentFrames (effects s.close actions) = sentFrames (effects s.close (s.assembly.absorb front).2) ∧
      (FramesBelow (s.frame.buffer++data) → (s.frame.buffer++data).length < 2^31 → more = []) := by
  obtain ⟨still,-,front,more,split,called,whole⟩ := loop_front _ pending room handled
  refine ⟨still,(loop_flags _ handled).2,front,more,split,?_,whole⟩
  rw [← called,effects_calls]

end WebSocketSessionBase
end CoStream
