import CoStream.WebSocketSend

namespace CoStream

def Frame.isPing (frame : Frame) : Bool := frame.opcode = wsOpPingType
def Frame.isControl (frame : Frame) : Bool := frame.opcode = wsOpPingType ∨ frame.opcode = wsOpPongType

-- The frames of one message: the message's opcode on the first, continuation on
-- the others, fin on the last.
def fragmentFrames (opCode : UInt8) : List (List UInt8) → List Frame
  | [] => []
  | [last] => [⟨true,opCode,last⟩]
  | payload::rest => ⟨false,opCode,payload⟩::fragmentFrames wsOpContinueType rest

structure FragmentedMessage where
  kind : MessageType
  first : List UInt8
  rest : List (List UInt8)
deriving DecidableEq,Repr

def FragmentedMessage.frames (message : FragmentedMessage) : List Frame :=
  fragmentFrames message.kind.opCode (message.first::message.rest)

namespace WebSocketSessionBase
open Foundation

-- Complete messages, with pings and pongs put in anywhere.
structure Interleaved (messages : List FragmentedMessage) (frames : List Frame) : Prop where
  data : frames.filter (!·.isControl) = messages.flatMap FragmentedMessage.frames
  fin : ∀ frame ∈ frames, frame.isControl = true → frame.fin = true

-- No ping or pong stands between a fragment and the next one. The flag tells
-- whether the last fragment so far left its message open.
def Uninterrupted : Bool → List Frame → Prop
  | _,[] => True
  | opened,frame::rest =>
    if frame.isControl then opened = false ∧ Uninterrupted opened rest else Uninterrupted (!frame.fin) rest

def dataCalls (actions : List Action) : List Action :=
  actions.filter fun
    | .handleWsData _ _ => true
    | _ => false

def sentFrames (actions : List Action) : List Action :=
  actions.filter fun
    | .sendWsFrame _ _ => true
    | _ => false

def pongs (frames : List Frame) : List Action :=
  (frames.filter Frame.isPing).map fun frame => .sendWsFrame frame.payload wsOpPongType

-- Some reads that bring exactly these frames, with a buffer that stays in `int`.
structure Carries (reads : List Read) (frames : List Frame) : Prop where
  whole : frameDecoder.drain (stream reads) = (frames,[])
  short : (stream reads).length < 2^63
  live : LiveBelow reads

-- Two runs, one with the pings and pongs and one without.
def Transparent (reads plain : List Read) (frames : List Frame) : Prop :=
  ∃ final actions plainFinal plainActions, machine.run reads = .ok (final,actions) ∧
    machine.run plain = .ok (plainFinal,plainActions) ∧
    dataCalls actions = dataCalls plainActions ∧ sentFrames actions = pongs frames

section lists
@[simp] theorem dataCalls_append : dataCalls (first++second) = dataCalls first++dataCalls second := by
  simp [dataCalls]
@[simp] theorem sentFrames_append : sentFrames (first++second) = sentFrames first++sentFrames second := by
  simp [sentFrames]
theorem dataCalls_handed (pending : List (List UInt8)) (opCode : UInt8) :
    dataCalls (pending.map (.handleWsData · opCode)) = pending.map (.handleWsData · opCode) := by
  simp [dataCalls]
theorem dataCalls_calls (actions : List Action) : dataCalls (calls actions) = dataCalls actions := by
  simp only [dataCalls,calls,List.filter_filter]
  congr 1
  funext action
  cases action <;> rfl
theorem sentFrames_calls (actions : List Action) : sentFrames (calls actions) = sentFrames actions := by
  simp only [sentFrames,calls,List.filter_filter]
  congr 1
  funext action
  cases action <;> rfl
end lists

variable {frame : Frame}

def IsData (frame : Frame) : Prop :=
  frame.opcode = wsOpContinueType ∨ frame.opcode = wsOpTextType ∨ frame.opcode = wsOpBinType

theorem isControl_iff (frame : Frame) : frame.isControl = true ↔
    frame.opcode = wsOpPingType ∨ frame.opcode = wsOpPongType := by simp [Frame.isControl]

-- How each kind of frame is answered. A ping answers for everything collected,
-- a pong drops it, and a data frame with fin hands it on.
theorem accept_ping (a : Assembly) (fin : frame.fin = true) (ping : frame.opcode = wsOpPingType) :
    a.accept frame = (⟨[],a.lastOpCode⟩,(a.pending++[frame.payload]).map (.sendWsFrame · wsOpPongType)) := by
  simp [Assembly.accept,Assembly.answers,Assembly.remember,fin,ping,wsOpPingType,wsOpTextType,wsOpBinType]

theorem accept_pong (a : Assembly) (fin : frame.fin = true) (pong : frame.opcode = wsOpPongType) :
    a.accept frame = (⟨[],a.lastOpCode⟩,[]) := by
  simp [Assembly.accept,Assembly.answers,Assembly.remember,fin,pong,wsOpPingType,wsOpPongType,wsOpTextType,wsOpBinType]

theorem accept_open (a : Assembly) (open_ : frame.fin = false) : ∃ lastOpCode,
    a.accept frame = (⟨a.pending++[frame.payload],lastOpCode⟩,[]) := by
  simp [Assembly.accept,open_]

theorem accept_data (a : Assembly) (fin : frame.fin = true) (data : IsData frame) : ∃ lastOpCode opCode,
    a.accept frame = (⟨[],lastOpCode⟩,(a.pending++[frame.payload]).map (.handleWsData · opCode)) := by
  rcases data with kind | kind | kind
  all_goals
    simp [Assembly.accept,Assembly.answers,Assembly.remember,fin,kind,wsOpPingType,wsOpPongType,wsOpCloseType,
      wsOpContinueType,wsOpTextType,wsOpBinType]

theorem accept_count (a : Assembly) (data : IsData frame) :
    (dataCalls (a.accept frame).2).length+(a.accept frame).1.pending.length = a.pending.length+1 := by
  cases fin : frame.fin with
  | true =>
    obtain ⟨lastOpCode,opCode,accepted⟩ := accept_data a fin data
    rw [accepted,dataCalls_handed]
    simp
  | false =>
    obtain ⟨lastOpCode,accepted⟩ := accept_open a fin
    rw [accepted]
    simp [dataCalls]

theorem accept_control (a : Assembly) (fin : frame.fin = true) (control : frame.isControl = true) :
    (a.accept frame).1 = ⟨[],a.lastOpCode⟩ ∧ dataCalls (a.accept frame).2 = [] ∧
      (a.pending = [] → sentFrames (a.accept frame).2 = pongs [frame]) := by
  rcases (isControl_iff frame).mp control with ping | pong
  · rw [accept_ping a fin ping]
    refine ⟨rfl,by simp [dataCalls],fun settled => ?_⟩
    simp [settled,sentFrames,pongs,Frame.isPing,ping]
  · rw [accept_pong a fin pong]
    refine ⟨rfl,rfl,fun _ => ?_⟩
    simp [sentFrames,pongs,Frame.isPing,pong,wsOpPingType,wsOpPongType]

theorem accept_plain (a : Assembly) (plain : frame.isControl = false) : sentFrames (a.accept frame).2 = [] := by
  have other : frame.opcode ≠ wsOpPingType := by
    intro ping
    simp [Frame.isControl,ping] at plain
  unfold Assembly.accept Assembly.answers
  dsimp only
  rw [if_neg other]
  split
  · split
    · rfl
    split
    · simp [sentFrames]
    split
    · simp [sentFrames]
    split
    · simp [sentFrames]
    · rfl
  · rfl

theorem pongs_cons (frame : Frame) (rest : List Frame) : pongs (frame::rest) = pongs [frame]++pongs rest := by
  simp only [pongs,List.filter_cons,List.filter_nil]
  split <;> simp

theorem pongs_plain (plain : frame.isControl = false) : pongs [frame] = [] := by
  have other : frame.isPing = false := by
    simp only [Frame.isControl,decide_eq_false_iff_not,not_or] at plain
    simp [Frame.isPing,plain]
  simp [pongs,other]

-- Along an uninterrupted sequence the pings and pongs find nothing collected, so
-- taking them away changes neither what is collected nor what is handed on.
theorem absorb_uninterrupted (opened : Bool) (frames : List Frame) (a : Assembly)
    (fins : ∀ frame ∈ frames, frame.isControl = true → frame.fin = true)
    (closed : opened = false → a.pending = []) (calm : Uninterrupted opened frames) :
    dataCalls (a.absorb frames).2 = dataCalls (a.absorb (frames.filter (!·.isControl))).2 ∧
      sentFrames (a.absorb frames).2 = pongs frames := by
  induction frames generalizing opened a with
  | nil => exact ⟨rfl,rfl⟩
  | cons frame rest ih =>
    have later : ∀ frame ∈ rest, frame.isControl = true → frame.fin = true :=
      fun frame member => fins frame (List.mem_cons_of_mem _ member)
    cases control : frame.isControl with
    | true =>
      simp only [Uninterrupted,control,if_true] at calm
      obtain ⟨shut,calm⟩ := calm
      obtain ⟨same,silent,sent⟩ := accept_control a (fins frame List.mem_cons_self control) control
      have unchanged : (a.accept frame).1 = a := by rw [same,← closed shut]
      obtain ⟨handed,answered⟩ := ih opened a later closed calm
      rw [List.filter_cons_of_neg (by simp [control]),Assembly.absorb,unchanged]
      simp only [dataCalls_append,sentFrames_append,silent,sent (closed shut),handed,answered,List.nil_append]
      exact ⟨trivial,(pongs_cons frame rest).symm⟩
    | false =>
      simp only [Uninterrupted,control,Bool.false_eq_true,if_false] at calm
      have shut : (!frame.fin) = false → (a.accept frame).1.pending = [] := by
        intro ended
        simp only [Bool.not_eq_false'] at ended
        simp [Assembly.accept,ended]
      obtain ⟨handed,answered⟩ := ih _ (a.accept frame).1 later shut calm
      rw [List.filter_cons_of_pos (by simp [control]),Assembly.absorb,Assembly.absorb]
      simp only [dataCalls_append,sentFrames_append,handed,answered,accept_plain a control,List.nil_append]
      rw [pongs_cons,pongs_plain control]
      exact ⟨trivial,rfl⟩

-- Every data frame is handed on, still collected, or lost to a ping or pong.
theorem absorb_count (opened : Bool) (frames : List Frame) (a : Assembly)
    (fins : ∀ frame ∈ frames, frame.isControl = true → frame.fin = true)
    (kinds : ∀ frame ∈ frames, frame.isControl = false → IsData frame)
    (unsettled : opened = true → a.pending ≠ []) :
    (dataCalls (a.absorb frames).2).length+(a.absorb frames).1.pending.length ≤
        a.pending.length+(frames.filter (!·.isControl)).length ∧
      (¬ Uninterrupted opened frames → (dataCalls (a.absorb frames).2).length+(a.absorb frames).1.pending.length <
        a.pending.length+(frames.filter (!·.isControl)).length) := by
  induction frames generalizing opened a with
  | nil => simp [Assembly.absorb,dataCalls,Uninterrupted]
  | cons frame rest ih =>
    have laterFins : ∀ frame ∈ rest, frame.isControl = true → frame.fin = true :=
      fun frame member => fins frame (List.mem_cons_of_mem _ member)
    have laterKinds : ∀ frame ∈ rest, frame.isControl = false → IsData frame :=
      fun frame member => kinds frame (List.mem_cons_of_mem _ member)
    cases control : frame.isControl with
    | true =>
      obtain ⟨same,silent,-⟩ := accept_control a (fins frame List.mem_cons_self control) control
      rw [List.filter_cons_of_neg (by simp [control])]
      simp only [Assembly.absorb,dataCalls_append,silent,same,List.nil_append,Uninterrupted,control,if_true]
      obtain ⟨most,fewer⟩ := ih false ⟨[],a.lastOpCode⟩ laterFins laterKinds (by simp)
      simp only [List.length_nil,Nat.zero_add] at most fewer
      refine ⟨by omega,fun interrupted => ?_⟩
      cases opened with
      | true =>
        have some := List.length_pos_iff.mpr (unsettled rfl)
        omega
      | false =>
        have strictly := fewer (by simpa using interrupted)
        omega
    | false =>
      have kind := kinds frame List.mem_cons_self control
      rw [List.filter_cons_of_pos (by simp [control]),List.length_cons]
      simp only [Assembly.absorb,dataCalls_append,List.length_append,Uninterrupted,control,Bool.false_eq_true,if_false]
      have counted := accept_count a kind
      have collecting : (!frame.fin) = true → (a.accept frame).1.pending ≠ [] := by
        intro goes
        obtain ⟨lastOpCode,accepted⟩ := accept_open a (by simpa using goes)
        simp [accepted]
      obtain ⟨most,fewer⟩ := ih (!frame.fin) (a.accept frame).1 laterFins laterKinds collecting
      refine ⟨by omega,fun interrupted => ?_⟩
      have strictly := fewer interrupted
      omega

theorem absorb_data_count (frames : List Frame) (a : Assembly) (kinds : ∀ frame ∈ frames, IsData frame) :
    (dataCalls (a.absorb frames).2).length+(a.absorb frames).1.pending.length = a.pending.length+frames.length := by
  induction frames generalizing a with
  | nil => simp [Assembly.absorb,dataCalls]
  | cons frame rest ih =>
    have later := ih (a.accept frame).1 fun frame member => kinds frame (List.mem_cons_of_mem _ member)
    simp only [Assembly.absorb,dataCalls_append,List.length_append,List.length_cons]
    have counted := accept_count a (kinds frame List.mem_cons_self)
    omega

theorem fragmentFrames_data (opCode : UInt8) (fragments : List (List UInt8))
    (kind : opCode = wsOpContinueType ∨ opCode = wsOpTextType ∨ opCode = wsOpBinType) :
    ∀ frame ∈ fragmentFrames opCode fragments, IsData frame := by
  fun_induction fragmentFrames opCode fragments with
  | case1 => simp
  | case2 opCode last => simpa [IsData] using kind
  | case3 opCode payload rest _ ih =>
    simp only [List.mem_cons,forall_eq_or_imp]
    exact ⟨kind,ih (.inl rfl)⟩

theorem absorb_fragments (opCode : UInt8) (fragments : List (List UInt8)) (a : Assembly) (some : fragments ≠ []) :
    (a.absorb (fragmentFrames opCode fragments)).1.pending = [] := by
  fun_induction fragmentFrames opCode fragments generalizing a with
  | case1 => exact absurd rfl some
  | case2 opCode last => simp [Assembly.absorb,Assembly.accept]
  | case3 opCode payload rest more ih => exact ih _ (by rintro rfl; exact more rfl)

theorem absorb_fragmented (messages : List FragmentedMessage) (a : Assembly) (settled : a.pending = []) :
    (a.absorb (messages.flatMap FragmentedMessage.frames)).1.pending = [] := by
  induction messages generalizing a with
  | nil => exact settled
  | cons message rest ih =>
    rw [List.flatMap_cons,Assembly.absorb_append]
    exact ih _ (absorb_fragments _ _ a (by simp))

theorem interleaved_kinds (interleaved : Interleaved messages frames) :
    ∀ frame ∈ frames, frame.isControl = false → IsData frame := by
  intro frame member plain
  have kept : frame ∈ messages.flatMap FragmentedMessage.frames := by
    rw [← interleaved.data]
    exact List.mem_filter.mpr ⟨member,by simp [plain]⟩
  obtain ⟨message,-,part⟩ := List.mem_flatMap.mp kept
  refine fragmentFrames_data _ _ ?_ frame part
  cases message.kind with
  | text => exact .inr (.inl rfl)
  | binary => exact .inr (.inr rfl)

-- Pings and pongs are transparent exactly where they stay out of messages.
theorem transparent_iff (interleaved : Interleaved messages frames) (carried : Carries reads frames)
    (plainCarried : Carries plain (frames.filter (!·.isControl))) :
    Transparent reads plain frames ↔ Uninterrupted false frames := by
  obtain ⟨final,actions,ran,-,answered⟩ := run_complete carried.whole carried.short carried.live
  obtain ⟨plainFinal,plainActions,plainRan,-,plainAnswered⟩ :=
    run_complete plainCarried.whole plainCarried.short plainCarried.live
  constructor
  · rintro ⟨_,_,_,_,again,plainAgain,handed,-⟩
    cases ran.symm.trans again
    cases plainRan.symm.trans plainAgain
    by_contra interrupted
    obtain ⟨-,fewer⟩ := absorb_count false frames ⟨[],1⟩ interleaved.fin (interleaved_kinds interleaved) (by simp)
    have every := absorb_data_count (frames.filter (!·.isControl)) ⟨[],1⟩ fun frame member => by
      obtain ⟨present,plain⟩ := List.mem_filter.mp member
      exact interleaved_kinds interleaved frame present (by simpa using plain)
    have settled : (Assembly.absorb ⟨[],1⟩ (frames.filter (!·.isControl))).1.pending = [] := by
      rw [interleaved.data]
      exact absorb_fragmented messages _ rfl
    have strictly := fewer interrupted
    rw [settled,plainAnswered,dataCalls_calls,← handed] at every
    rw [answered,dataCalls_calls] at strictly
    simp only [List.length_nil] at every strictly
    omega
  · intro calm
    obtain ⟨handed,sent⟩ := absorb_uninterrupted false frames ⟨[],1⟩ interleaved.fin (fun _ => rfl) calm
    rw [answered,plainAnswered,dataCalls_calls,dataCalls_calls] at handed
    rw [answered,sentFrames_calls] at sent
    exact ⟨final,actions,plainFinal,plainActions,ran,plainRan,handed,sent⟩

-- A ping before a message in two fragments, and the same ping between them.
-- The frames are not masked.
def announced : List Frame :=
  [⟨true,wsOpPingType,[1]⟩,⟨false,wsOpTextType,[104]⟩,⟨true,wsOpContinueType,[105]⟩]
def interrupted : List Frame :=
  [⟨false,wsOpTextType,[104]⟩,⟨true,wsOpPingType,[1]⟩,⟨true,wsOpContinueType,[105]⟩]

def announcedReads : List Read := [⟨0,[0x89,1,1,0x01]⟩,⟨0,[1,104,0x80,1,105]⟩]
def interruptedReads : List Read := [⟨0,[0x01,1,104,0x89]⟩,⟨0,[1,1,0x80,1,105]⟩]
def plainReads : List Read := [⟨0,[0x01,1,104]⟩,⟨0,[0x80,1,105]⟩]

theorem carries_short (whole : frameDecoder.drain (stream reads) = (frames,[]))
    (short : (stream reads).length < 2^31) : Carries reads frames :=
  ⟨whole,by omega,liveBelow_short (framesBelow_complete (by rw [whole]) (by omega)) short⟩

theorem announced_transparent :
    Interleaved [⟨.text,[104],[[105]]⟩] announced ∧ Carries announcedReads announced ∧
      Carries plainReads (announced.filter (!·.isControl)) ∧ Transparent announcedReads plainReads announced := by
  have interleaved : Interleaved [⟨.text,[104],[[105]]⟩] announced := ⟨by decide,by decide⟩
  have carried : Carries announcedReads announced := carries_short (by decide) (by decide)
  have plain : Carries plainReads (announced.filter (!·.isControl)) := carries_short (by decide) (by decide)
  exact ⟨interleaved,carried,plain,(transparent_iff interleaved carried plain).mpr ⟨rfl,trivial⟩⟩

-- The ping answers for the fragment and takes it away with it.
theorem interrupted_not_transparent :
    Interleaved [⟨.text,[104],[[105]]⟩] interrupted ∧ Carries interruptedReads interrupted ∧
      Carries plainReads (interrupted.filter (!·.isControl)) ∧
      ¬ Transparent interruptedReads plainReads interrupted := by
  refine ⟨⟨by decide,by decide⟩,carries_short (by decide) (by decide),carries_short (by decide) (by decide),?_⟩
  rintro ⟨final,actions,plainFinal,plainActions,ran,plainRan,handed,sent⟩
  have both : (machine.run interruptedReads).toOption.map (fun result => sentFrames result.2) =
      some [.sendWsFrame [104] wsOpPongType,.sendWsFrame [1] wsOpPongType] := by decide
  simp only [ran,Except.toOption,Option.map_some,sent,Option.some.injEq] at both
  exact absurd both (by decide)

end WebSocketSessionBase
end CoStream
