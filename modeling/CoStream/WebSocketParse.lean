import CoStream.WebSocketDecoder

namespace CoStream.WebSocketFrame
open Foundation

variable {f next : WebSocketFrame} {h : Header} {data : List UInt8}

-- The fields of a frame whose header is ready, against the header on the wire.
-- The length went through `int64_t` on its way.
structure Agrees (f : WebSocketFrame) (h : Header) : Prop where
  ready : f.headerReady = true
  start : f.payloadStart = h.start
  len : f.payloadLen = toInt64 h.len
  fin : f.fin = h.fin
  opcode : f.opcode = h.opcode
  masked : f.maskEnable = h.maskingKey.isSome
  key : ∀ key, h.maskingKey = some key → f.maskingKey = key

-- Between two calls of Parse: either nothing is known about the front of the
-- buffer, or its header was read.
def Pending (f : WebSocketFrame) : Prop :=
  f.headerReady = true → ∃ h, Header.read? f.buffer = some h ∧ Agrees f h

theorem extendLength_exact (short : UInt8) (buffer : f.buffer = first::second::rest) (start : f.payloadStart = 2)
    (len : f.payloadLen = short.toNat) : f.extendLength short =
      (Header.length? short rest).map fun pair => {f with payloadStart:=pair.1,payloadLen:=toInt64 pair.2} := by
  unfold extendLength Header.length?
  rw [buffer]
  split
  · match rest with
    | [] | [_] | [_,_] | [_,_,_] | [_,_,_,_] | [_,_,_,_,_] | [_,_,_,_,_,_] | [_,_,_,_,_,_,_] => rfl
    | a::b::c::d::e::g::h::i::rest => simp [bigEndian_eight,start]
  split
  · match rest with
    | [] | [_] => rfl
    | a::b::rest =>
      have small := bigEndian_lt [a,b]
      have fits : FitsInt64 (bigEndian [a,b]) := by
        simp only [List.length_cons,List.length_nil] at small
        constructor <;> omega
      simp [bigEndian_two,start,toInt64_fits fits]
  · have small := short.toNat_lt
    have fits : toInt64 short.toNat = short.toNat := toInt64_fits (by constructor <;> omega)
    cases f
    simp_all

theorem readKey_some (start : Nat) (masked : f.maskEnable = true) (begins : f.payloadStart = start)
    (read : f.readKey = some next) : ∃ a b c d tail, f.buffer.drop start = a::b::c::d::tail ∧
      next = {f with payloadStart:=(start+4 : Nat),maskingKey:=⟨a,b,c,d⟩} := by
  simp only [readKey,masked,if_true,begins,Int.toNat_natCast] at read
  split at read
  · cases read
  split at read
  · rename_i shape
    cases read
    exact ⟨_,_,_,_,_,shape,by simp [masked]⟩
  · cases read

theorem readKey_none {start : Nat} (short : f.buffer.length < 2^31) (masked : f.maskEnable = true)
    (begins : f.payloadStart = start) (read : f.readKey = none) :
    f.buffer.drop start ≠ a::b::c::d::tail := by
  intro shape
  have enough := congrArg List.length shape
  simp only [List.length_drop,List.length_cons] at enough
  simp only [readKey,masked,if_true,begins,Int.toNat_natCast] at read
  rw [toInt_fits (by constructor <;> omega),if_neg (by omega),shape] at read
  cases read

def sized (f : WebSocketFrame) (header : WsPacketHeader) (start len : Nat) : WebSocketFrame :=
  {f.readPacket header with payloadStart:=start,payloadLen:=toInt64 len,maskEnable:=header.mask}

theorem parseHeader_exact (buffer : f.buffer = first::second::rest) : f.parseHeader first second =
    match Header.length? (wsPacketHeader first second).payloadLen rest with
    | none => (f.readPacket (wsPacketHeader first second),false)
    | some (start,len) =>
      match (f.sized (wsPacketHeader first second) start len).readKey with
      | none => (f.sized (wsPacketHeader first second) start len,false)
      | some keyed => ({keyed with headerReady:=true},true) := by
  have extended := extendLength_exact (f := f.readPacket (wsPacketHeader first second))
    (wsPacketHeader first second).payloadLen buffer rfl rfl
  simp only [parseHeader,extended]
  cases Header.length? (wsPacketHeader first second).payloadLen rest with
  | none => simp
  | some pair =>
    obtain ⟨start,len⟩ := pair
    rw [Option.map_some]
    cases keyed : (f.sized (wsPacketHeader first second) start len).readKey with
    | none => simp_all [sized]
    | some next => simp_all [sized]

theorem sized_agrees (plain : header.mask = false) :
    Agrees {f.sized header start len with headerReady:=true} ⟨header.fin,header.opcode,none,start,len⟩ := by
  constructor <;> simp [sized,readPacket,plain]

theorem keyed_agrees (masked : header.mask = true) :
    Agrees {f.sized header start len with headerReady:=true,payloadStart:=(start+4 : Nat),maskingKey:=key}
      ⟨header.fin,header.opcode,some key,start+4,len⟩ := by
  constructor <;> simp [sized,readPacket,masked]

theorem parseHeader_ready (buffer : f.buffer = first::second::rest)
    (ready : f.parseHeader first second = (next,true)) :
    next.buffer = f.buffer ∧ ∃ h, Header.read? f.buffer = some h ∧ Agrees next h := by
  rw [parseHeader_exact buffer] at ready
  split at ready
  · cases ready
  rename_i start len length
  split at ready
  · cases ready
  rename_i keyed read
  simp only [Prod.mk.injEq,and_true] at ready
  subst ready
  simp only [Header.read?,buffer,length]
  cases masked : (wsPacketHeader first second).mask with
  | false =>
    have unkeyed : (f.sized (wsPacketHeader first second) start len).maskEnable = false := masked
    simp only [readKey,unkeyed,Bool.false_eq_true,if_false,Option.some.injEq] at read
    subst read
    exact ⟨buffer,_,rfl,sized_agrees masked⟩
  | true =>
    obtain ⟨a,b,c,d,tail,shape,rfl⟩ :=
      readKey_some (f := f.sized (wsPacketHeader first second) start len) start masked rfl read
    rw [show (f.sized (wsPacketHeader first second) start len).buffer = f.buffer from rfl,buffer] at shape
    simp only [shape,if_true]
    exact ⟨buffer,_,rfl,keyed_agrees masked⟩

theorem parseHeader_waits (buffer : f.buffer = first::second::rest)
    (waits : f.parseHeader first second = (next,false)) :
    next.buffer = f.buffer ∧ next.headerReady = f.headerReady := by
  rw [parseHeader_exact buffer] at waits
  split at waits
  · cases waits
    exact ⟨rfl,rfl⟩
  split at waits
  · cases waits
    exact ⟨rfl,rfl⟩
  · cases waits

theorem parseHeader_reads (short : f.buffer.length < 2^31) (buffer : f.buffer = first::second::rest)
    (waits : f.parseHeader first second = (next,false)) : Header.read? f.buffer = none := by
  rw [parseHeader_exact buffer] at waits
  simp only [Header.read?,buffer]
  cases length : Header.length? (wsPacketHeader first second).payloadLen rest with
  | none => rfl
  | some field =>
    obtain ⟨start,len⟩ := field
    rw [length] at waits
    dsimp only at waits ⊢
    split at waits
    · rename_i read
      cases masked : (wsPacketHeader first second).mask with
      | false => simp [readKey,sized,masked] at read
      | true =>
        rw [if_pos rfl]
        split
        · rename_i shape
          rw [← buffer] at shape
          exact absurd shape (readKey_none (f := f.sized (wsPacketHeader first second) start len) short masked rfl read)
        · rfl
    · cases waits

-- A length that stays below 2^63 together with its header is compared, copied
-- and indexed as the number it is.
theorem parsePayload_good (found : Header.read? f.buffer = some h) (agrees : Agrees f h)
    (small : h.start+h.len < 2^63) : f.parsePayload = .ok
      (if toInt f.buffer.length < h.start+h.len then (f,1) else ({f with buffer:=h.opened f.buffer},0)) := by
  have bounds := Header.read?_bounds found
  have len : f.payloadLen = h.len := by rw [agrees.len,toInt64_fits (by constructor <;> omega)]
  have total : int64 ((h.start : Int)+h.len) = .ok (h.start+h.len) := int64_ok (by constructor <;> omega)
  have size : toSize h.len = h.len := by rw [toSize_fits (by omega) (by omega)]; omega
  simp only [parsePayload,agrees.start,len,total,ok_bind,Int.toNat_natCast,size,agrees.masked]
  split
  · rfl
  rename_i arrived
  have narrow := toInt_le f.buffer.length
  have inside : h.len ≤ (f.buffer.drop h.start).length := by rw [List.length_drop]; omega
  cases keyed : h.maskingKey with
  | none =>
    have same : h.opened f.buffer = f.buffer := by
      rw [Header.opened,Header.unmask,keyed,List.append_assoc,← List.drop_drop,List.take_append_drop,
        List.take_append_drop]
    have plain := agrees.masked
    have begins := agrees.start
    cases f
    simp_all
  | some key =>
    rw [agrees.key key keyed,maskPayload_exact,if_pos inside]
    simp [Header.opened,Header.unmask,keyed,List.drop_drop]

-- A larger one turns negative, and turns back where it is a size.
theorem length_wraps (found : Header.read? input = some h) (large : 2^63 ≤ h.len) :
    toInt64 h.len = h.len-2^64 ∧ int64 ((h.start : Int)+(h.len-2^64)) = .ok (h.start+(h.len-2^64)) ∧
      toSize ((h.len : Int)-2^64) = h.len := by
  have bounds := Header.read?_bounds found
  refine ⟨?_,int64_ok (by constructor <;> omega),?_⟩
  · unfold toInt64 Int.bmod
    dsimp only
    split <;> omega
  · unfold toSize
    omega

-- Parse then overflows, runs past the buffer or returns 0 with a negative
-- length.
theorem parsePayload_bad (short : f.buffer.length < 2^31) (found : Header.read? f.buffer = some h)
    (agrees : Agrees f h) (large : 2^63 ≤ h.start+h.len) :
    (∃ fault, f.parsePayload = .error fault) ∨ ∃ next, f.parsePayload = .ok (next,0) ∧ next.payloadLen < 0 := by
  have bounds := Header.read?_bounds found
  have narrow : toInt f.buffer.length = f.buffer.length := toInt_fits (by constructor <;> omega)
  simp only [parsePayload,agrees.start,agrees.len]
  by_cases positive : h.len < 2^63
  · rw [toInt64_fits (by constructor <;> omega)]
    exact .inl ⟨_,by rw [int64,if_neg (by simp only [FitsInt64]; omega),error_bind]⟩
  · obtain ⟨negative,total,size⟩ := length_wraps found (Nat.le_of_not_lt positive)
    rw [negative,total,ok_bind,if_neg (by omega)]
    split
    · left
      rw [maskPayload_exact,size,if_neg (by rw [List.length_drop]; omega),error_bind]
      exact ⟨_,rfl⟩
    · right
      exact ⟨_,rfl,by rw [agrees.len,negative]; omega⟩

-- In no buffer below 2^63 bytes is such a payload ever there.
theorem parsePayload_large (found : Header.read? f.buffer = some h) (agrees : Agrees f h) (large : 2^63 ≤ h.start+h.len)
    (room : f.buffer.length < 2^63) (parsed : f.parsePayload = .ok (next,ret)) : next = f ∧ 2^63 ≤ toSize f.payloadLen := by
  have bounds := Header.read?_bounds found
  simp only [parsePayload,agrees.start,agrees.len] at parsed
  by_cases positive : h.len < 2^63
  · rw [toInt64_fits (by constructor <;> omega),int64,if_neg (by simp only [FitsInt64]; omega),error_bind] at parsed
    cases parsed
  · obtain ⟨negative,total,size⟩ := length_wraps found (Nat.le_of_not_lt positive)
    have huge : 2^63 ≤ toSize f.payloadLen := by
      rw [agrees.len,negative,size]
      omega
    rw [negative,total,ok_bind] at parsed
    split at parsed
    · cases parsed
      exact ⟨rfl,huge⟩
    split at parsed
    · rw [maskPayload_exact,size,if_neg (by rw [List.length_drop]; omega),error_bind] at parsed
      cases parsed
    · cases parsed
      exact ⟨rfl,huge⟩

theorem pending_append (pending : Pending f) (data : List UInt8) : Pending {f with buffer:=f.buffer++data} := by
  intro ready
  obtain ⟨h,found,agrees⟩ := pending ready
  exact ⟨h,Header.read?_append found data,⟨agrees.ready,agrees.start,agrees.len,agrees.fin,agrees.opcode,
    agrees.masked,agrees.key⟩⟩

theorem parse_cases (pending : Pending f) (data : List UInt8) :
    (∃ next, f.parse data = .ok (next,1) ∧ next.buffer = f.buffer++data ∧ next.headerReady = false ∧
      ((f.buffer++data).length < 2^31 → Header.read? (f.buffer++data) = none)) ∨
    ∃ ready h, f.parse data = ready.parsePayload ∧ ready.buffer = f.buffer++data ∧
      Header.read? (f.buffer++data) = some h ∧ Agrees ready h := by
  have filled := pending_append pending data
  unfold parse
  dsimp only
  split
  · rename_i first second rest buffer
    split
    · rename_i ready
      obtain ⟨h,found,agrees⟩ := filled ready
      exact .inr ⟨_,h,rfl,rfl,found,agrees⟩
    · rename_i unread
      split
      · rename_i waiting waits
        obtain ⟨kept,still⟩ := parseHeader_waits buffer waits
        refine .inl ⟨waiting,rfl,kept,?_,fun short => parseHeader_reads short buffer waits⟩
        simpa [still] using unread
      · rename_i ready headed
        obtain ⟨kept,h,found,agrees⟩ := parseHeader_ready buffer headed
        exact .inr ⟨ready,h,rfl,kept,found,agrees⟩
  · rename_i tiny
    have unread : Header.read? (f.buffer++data) = none := by
      unfold Header.read?
      split
      · rename_i shape
        exact absurd shape (tiny _ _ _)
      · rfl
    refine .inl ⟨_,rfl,rfl,?_,fun _ => unread⟩
    by_contra ready
    obtain ⟨h,found,-⟩ := filled (by simpa using ready)
    rw [unread] at found
    cases found

-- Parse on a front whose header is not there yet, or is and keeps below 2^63.
theorem parse_good (pending : Pending f) (data : List UInt8)
    (good : ∀ h, Header.read? (f.buffer++data) = some h → h.start+h.len < 2^63) :
    (∃ next, f.parse data = .ok (next,1) ∧ next.buffer = f.buffer++data ∧ Pending next ∧
      ((f.buffer++data).length < 2^31 → nextFrame (f.buffer++data) = none)) ∨
    ∃ next h, f.parse data = .ok (next,0) ∧ Header.read? (f.buffer++data) = some h ∧
      (h.start : Int)+h.len ≤ toInt (f.buffer++data).length ∧ Agrees next h ∧
      next.buffer = h.opened (f.buffer++data) := by
  rcases parse_cases pending data with ⟨next,waits,kept,unready,unread⟩ | ⟨ready,h,goes,kept,found,agrees⟩
  · refine .inl ⟨next,waits,kept,fun ready => absurd ready (by simp [unready]),fun short => ?_⟩
    rw [nextFrame_none]
    intro h found
    rw [unread short] at found
    cases found
  · have small := good h found
    rw [← kept] at found ⊢
    rw [goes,parsePayload_good found agrees small]
    split
    · rename_i missing
      refine .inl ⟨ready,rfl,rfl,fun _ => ⟨h,found,agrees⟩,fun short => ?_⟩
      rw [nextFrame_none]
      intro other again whole
      rw [found] at again
      cases again
      simp only [Header.Whole] at whole
      rw [toInt_fits (by constructor <;> omega)] at missing
      omega
    · rename_i arrived
      exact .inr ⟨_,h,rfl,found,by omega,⟨agrees.ready,agrees.start,agrees.len,agrees.fin,agrees.opcode,
        agrees.masked,agrees.key⟩,rfl⟩

theorem parse_bad (pending : Pending f) (short : (f.buffer++data).length < 2^31)
    (found : Header.read? (f.buffer++data) = some h) (large : 2^63 ≤ h.start+h.len) :
    (∃ fault, f.parse data = .error fault) ∨ ∃ next, f.parse data = .ok (next,0) ∧ next.payloadLen < 0 := by
  rcases parse_cases pending data with ⟨next,waits,kept,unready,unread⟩ | ⟨ready,other,goes,kept,again,agrees⟩
  · rw [unread short] at found
    cases found
  · rw [found] at again
    cases again
    rw [goes]
    exact parsePayload_bad (by rw [kept]; exact short) (by rw [kept]; exact found) agrees large

end CoStream.WebSocketFrame
