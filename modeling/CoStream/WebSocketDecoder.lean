import CoStream.Foundation.Incremental
import CoStream.WebSocketFrame

namespace CoStream
open Foundation

-- Masking, in its own terms: the key repeats along the payload.
theorem MaskingKey.byte_period (key : MaskingKey) (i : Nat) : key.byte (i+4) = key.byte i := by
  simp only [MaskingKey.byte,Nat.add_mod_right]

theorem maskWords_exact (key : MaskingKey) (words : Nat) (p : List UInt8) : maskWords key words p =
    if 4*words ≤ p.length then .ok (xorStream key.byte (p.take (4*words))++p.drop (4*words))
    else .error .outOfBounds := by
  induction words generalizing p with
  | zero => simp [maskWords]
  | succ words ih =>
    match p with
    | [] | [_] | [_,_] | [_,_,_] =>
      simp only [maskWords,List.length_cons,List.length_nil]
      rw [if_neg (by omega)]
    | a::b::c::d::p =>
      have count : 4*(words+1) = 4*words+4 := by omega
      have period : (fun i => key.byte (i+1+1+1+1)) = key.byte := funext key.byte_period
      simp only [maskWords,ih,List.length_cons,count,Nat.add_le_add_iff_right]
      split
      · have bytes : key.byte 0 = key.byte0 ∧ key.byte 1 = key.byte1 ∧ key.byte 2 = key.byte2 ∧
            key.byte 3 = key.byte3 := ⟨rfl,rfl,rfl,rfl⟩
        simp [xorStream_cons,period,bytes]
      · simp

theorem maskTail_exact (key : MaskingKey) (i count : Nat) (p : List UInt8) : maskTail key i count p =
    if count ≤ p.length then .ok (xorStream (fun j => key.byte (j+i)) (p.take count)++p.drop count)
    else .error .outOfBounds := by
  induction count generalizing i p with
  | zero => simp [maskTail]
  | succ count ih =>
    cases p with
    | nil => simp [maskTail]
    | cons a p =>
      have shift : (fun j => key.byte (j+(i+1))) = fun j => key.byte (j+1+i) :=
        funext fun j => congrArg key.byte (by omega)
      simp only [maskTail,ih,List.length_cons,Nat.add_le_add_iff_right]
      split
      · simp [xorStream_cons,shift]
      · simp

theorem maskPayload_exact (key : MaskingKey) (frameLength : Nat) (p : List UInt8) : maskPayload key frameLength p =
    if frameLength ≤ p.length then .ok (xorStream key.byte (p.take frameLength)++p.drop frameLength)
    else .error .outOfBounds := by
  obtain ⟨words,tail,short,rfl⟩ : ∃ words tail, tail < 4 ∧ frameLength = 4*words+tail :=
    ⟨frameLength/4,frameLength%4,by omega,by omega⟩
  have temp : 4*words+tail-(4*words+tail)%4 = 4*words := by omega
  have left : 4*words+tail-4*words = tail := by omega
  have half : 4*words/4 = words := by omega
  simp only [maskPayload,temp,left,half,maskWords_exact]
  split
  · rename_i whole
    have front : (xorStream key.byte (p.take (4*words))).length = 4*words := by simp [whole]
    rw [ok_bind,List.drop_left' front,List.take_left' front,maskTail_exact,List.length_drop]
    by_cases all : 4*words+tail ≤ p.length
    · have joined : p.take (4*words+tail) = p.take (4*words)++(p.drop (4*words)).take tail := List.take_add
      rw [if_pos (by omega),if_pos all,ok_bind,joined,xorStream_append,List.length_take,Nat.min_eq_left whole]
      simp
    · rw [if_neg (by omega),if_neg all,error_bind]
  · rw [error_bind,if_neg (by omega)]

-- A frame as the sender means it, and the header in front of it. The length is
-- the unsigned number on the wire.
structure Frame where
  fin : Bool
  opcode : UInt8
  payload : List UInt8
deriving DecidableEq,Repr

structure Header where
  fin : Bool
  opcode : UInt8
  maskingKey : Option MaskingKey
  start : Nat
  len : Nat
deriving DecidableEq,Repr

namespace Header

def unmask (h : Header) (bytes : List UInt8) : List UInt8 :=
  match h.maskingKey with
  | none => bytes
  | some key => xorStream key.byte bytes

def length? (payloadLen : UInt8) (rest : List UInt8) : Option (Nat × Nat) :=
  if payloadLen = 127 then
    match rest with
    | a::b::c::d::e::g::h::i::_ => some (10,bigEndian [a,b,c,d,e,g,h,i])
    | _ => none
  else if payloadLen = 126 then
    match rest with
    | a::b::_ => some (4,bigEndian [a,b])
    | _ => none
  else some (2,payloadLen.toNat)

def read? : List UInt8 → Option Header
  | first::second::rest =>
    let packet := wsPacketHeader first second
    match length? packet.payloadLen rest with
    | none => none
    | some (start,len) =>
      if packet.mask then
        match (first::second::rest).drop start with
        | a::b::c::d::_ => some ⟨packet.fin,packet.opcode,some ⟨a,b,c,d⟩,start+4,len⟩
        | _ => none
      else some ⟨packet.fin,packet.opcode,none,start,len⟩
  | _ => none

theorem length?_append (found : length? payloadLen rest = some pair) (more : List UInt8) :
    length? payloadLen (rest++more) = some pair := by
  unfold length? at found ⊢
  split at found
  · split at found
    · cases found
      simp [*]
    · cases found
  split at found
  · split at found
    · cases found
      simp [*]
    · cases found
  · cases found
    simp [*]

theorem length?_bounds {rest : List UInt8} {start len : Nat} (found : length? payloadLen rest = some (start,len)) :
    2 ≤ start ∧ start ≤ 10 ∧ start ≤ rest.length+2 ∧ len < 2^64 := by
  unfold length? at found
  split at found
  · split at found
    · cases found
      simp only [List.length_cons]
      exact ⟨by omega,by omega,by omega,Nat.lt_of_lt_of_le (bigEndian_lt _) (by simp)⟩
    · cases found
  split at found
  · split at found
    · cases found
      simp only [List.length_cons]
      exact ⟨by omega,by omega,by omega,Nat.lt_of_lt_of_le (bigEndian_lt _) (by simp)⟩
    · cases found
  · cases found
    have small := payloadLen.toNat_lt
    omega

theorem read?_append (found : read? input = some h) (more : List UInt8) : read? (input++more) = some h := by
  unfold read? at found
  split at found
  · rename_i first second rest
    dsimp only at found
    simp only [List.cons_append,read?]
    split at found
    · cases found
    · rename_i start len sized
      have bounds := length?_bounds sized
      simp only [length?_append sized more]
      split at found
      · rename_i masked
        split at found
        · rename_i a b c d tail keyed
          have longer : (first::second::(rest++more)).drop start = a::b::c::d::(tail++more) := by
            rw [show first::second::(rest++more) = first::second::rest++more from rfl,
              List.drop_append_of_le_length (by simp; omega),keyed]
            rfl
          simpa [masked,longer] using found
        · cases found
      · rename_i plain
        simpa [plain] using found
  · cases found

theorem read?_bounds {input : List UInt8} (found : read? input = some h) :
    2 ≤ h.start ∧ h.start ≤ 14 ∧ h.start ≤ input.length ∧ h.len < 2^64 := by
  unfold read? at found
  split at found
  · dsimp only at found
    split at found
    · cases found
    · rename_i start len sized
      have bounds := length?_bounds sized
      split at found
      · split at found
        · rename_i keyed
          cases found
          have enough := congrArg List.length keyed
          simp only [List.length_drop,List.length_cons] at enough ⊢
          omega
        · cases found
      · cases found
        simp only [List.length_cons]
        omega
  · cases found

def Whole (h : Header) (input : List UInt8) : Prop := h.start+h.len ≤ input.length
instance {h : Header} {input : List UInt8} : Decidable (h.Whole input) := inferInstanceAs (Decidable (_ ≤ _))

def frame (h : Header) (input : List UInt8) : Frame :=
  ⟨h.fin,h.opcode,h.unmask ((input.drop h.start).take h.len)⟩

def opened (h : Header) (input : List UInt8) : List UInt8 :=
  input.take h.start++h.unmask ((input.drop h.start).take h.len)++input.drop (h.start+h.len)

@[simp] theorem length_unmask (h : Header) (bytes : List UInt8) : (h.unmask bytes).length = bytes.length := by
  unfold unmask
  split
  · rfl
  · simp

end Header

def nextFrame (input : List UInt8) : Option (Frame × List UInt8) :=
  match Header.read? input with
  | none => none
  | some h => if h.Whole input then some (h.frame input,input.drop (h.start+h.len)) else none

theorem nextFrame_some : nextFrame input = some (frame,rest) ↔
    ∃ h, Header.read? input = some h ∧ h.Whole input ∧ frame = h.frame input ∧ rest = input.drop (h.start+h.len) := by
  unfold nextFrame
  split
  · simp [*]
  · rename_i h found
    by_cases whole : h.Whole input
    · simp [found,whole,eq_comm]
    · simp [found,whole]

theorem nextFrame_none : nextFrame input = none ↔ ∀ h, Header.read? input = some h → ¬ h.Whole input := by
  unfold nextFrame
  split
  · simp [*]
  · rename_i h found
    by_cases whole : h.Whole input
    · simp [found,whole]
    · simp [found,whole]

-- The stream of frames as a decoder, with no thought for how it arrives.
def frameDecoder : Decoder UInt8 Frame where
  next := nextFrame
  consumes := by
    intro input frame rest found
    obtain ⟨h,header,whole,rfl,rfl⟩ := nextFrame_some.mp found
    have bounds := Header.read?_bounds header
    simp only [Header.Whole] at whole
    rw [List.length_drop]
    omega
  stable := by
    intro input frame rest found more
    obtain ⟨h,header,whole,rfl,rfl⟩ := nextFrame_some.mp found
    have bounds := Header.read?_bounds header
    simp only [Header.Whole] at whole
    refine nextFrame_some.mpr ⟨h,Header.read?_append header more,?_,?_,?_⟩
    · simp only [Header.Whole,List.length_append]
      omega
    · simp only [Header.frame]
      rw [List.drop_append_of_le_length (by omega),List.take_append_of_le_length (by rw [List.length_drop]; omega)]
    · rw [List.drop_append_of_le_length whole]

end CoStream
