import CoStream.WebSocketDelivery

namespace CoStream

namespace Frame

-- The frames that hand the collected payloads over.
def delivers (frame : Frame) : Bool :=
  frame.fin && (frame.opcode == wsOpContinueType || frame.opcode == wsOpTextType || frame.opcode == wsOpBinType)

theorem closes_undelivered {frame : Frame} (closes : frame.closes = true) : frame.delivers = false := by
  simp only [Frame.closes,Bool.and_eq_true,beq_iff_eq] at closes
  simp [delivers,closes.2,wsOpCloseType,wsOpContinueType,wsOpTextType,wsOpBinType]

end Frame

def NothingDeliveredBehind (frames : List Frame) : Prop :=
  frames.Pairwise fun earlier later => earlier.closes = true → later.delivers = false
instance {frames : List Frame} : Decidable (NothingDeliveredBehind frames) := inferInstanceAs (Decidable (List.Pairwise _ _))

namespace WebSocketClient
open Foundation
open WebSocketSessionBase (Assembly Known calls isClose accept_closes accept_others accept_known remember_known)

variable {a : Assembly} {frame : Frame} {client next : WebSocketClient} {actions : List Action}
  {outputs emitted : List Output}

-- What the connection callback hears.
def heard (outputs : List Output) : List Output := outputs.filter Output.reports
def Ended (outputs : List Output) : Prop := ∃ output ∈ outputs, output.ends = true

section ends

theorem ends_reports (output : Output) (ends : output.ends = true) : output.reports = true := by
  cases output <;> first | rfl | cases ends

theorem heard_nothing : heard outputs = [] ↔ ∀ output ∈ outputs, output.reports = false := by
  simp [heard,List.filter_eq_nil_iff]

theorem endsOnce_append : EndsOnce (outputs++emitted) ↔
    EndsOnce outputs ∧ EndsOnce emitted ∧ (Ended outputs → heard emitted = []) := by
  rw [EndsOnce,List.pairwise_append,heard_nothing]
  apply and_congr_right'
  apply and_congr_right'
  constructor
  · rintro behind ⟨output,member,ends⟩ later after
    exact behind output member later after ends
  · exact fun behind output member later after ends => behind ⟨output,member,ends⟩ later after

theorem endsOnce_heard : EndsOnce (heard outputs) ↔ EndsOnce outputs := by
  rw [heard,EndsOnce,List.pairwise_filter]
  apply List.Pairwise.iff
  intro earlier later
  constructor
  · intro apart ends
    cases reported : later.reports with
    | false => rfl
    | true => exact absurd (apart (ends_reports _ ends) reported ends) (by simp [reported])
  · exact fun apart _ _ ends => apart ends

theorem quiet_unended (quiet : ∀ output ∈ outputs, output.ends = false) : ¬ Ended outputs := by
  rintro ⟨output,member,ends⟩
  rw [quiet output member] at ends
  cases ends

theorem unended_endsOnce (unended : ¬ Ended outputs) : EndsOnce outputs := by
  apply List.pairwise_of_forall_mem_list
  intro earlier member later _ ends
  exact absurd ⟨earlier,member,ends⟩ unended

-- Nothing is heard of what stands behind OnClose.
theorem endsOnce_close (code : Int) (desc : Bytes) (rest : List Output) :
    EndsOnce (.onClose code desc::rest) ↔ heard rest = [] := by
  rw [EndsOnce,List.pairwise_cons,heard_nothing]
  constructor
  · exact fun behind later member => behind.1 later member rfl
  · intro silent
    refine ⟨fun later member _ => silent later member,?_⟩
    exact List.pairwise_of_forall_mem_list fun _ _ later member _ => silent later member

end ends

section told

theorem told_append (close : Bool) (first second : List Action) :
    told close (first++second) = told close first++told (close || first.any isClose) second := by
  induction first generalizing close with
  | nil => cases close <;> rfl
  | cons action first ih =>
    rw [List.cons_append,told_cons,ih,told_cons close action first,List.append_assoc,List.any_cons,Bool.or_assoc]

theorem told_others (close : Bool) (others : ∀ action ∈ actions, isClose action = false) (rest : List Action) :
    told close (actions++rest) = told close actions++told close rest := by
  have still : actions.any isClose = false := by simpa using others
  rw [told_append,still,Bool.or_false]

theorem told_closed (payloads : List Bytes) : told true (payloads.map .handleWsClose) = [] := by
  induction payloads with
  | nil => rfl
  | cons payload payloads ih => exact ih

theorem told_pongs (close : Bool) (payloads : List Bytes) : told close (payloads.map (.sendWsFrame · wsOpPongType)) = [] := by
  induction payloads with
  | nil => cases close <;> rfl
  | cons payload payloads ih =>
    have other : isClose (.sendWsFrame payload wsOpPongType) = false := rfl
    rw [List.map_cons,told_cons,other,Bool.or_false,ih]
    cases close <;> rfl

theorem told_data (close : Bool) (known : Known opCode) (some : payloads ≠ []) :
    told close (payloads.map (.handleWsData · opCode)) ≠ [] := by
  obtain ⟨payload,rest,rfl⟩ := List.exists_cons_of_ne_nil some
  rw [List.map_cons,told_cons]
  rcases known with rfl | rfl
  · simp [told]
  · simp [told,wsOpBinType,wsOpTextType]

theorem told_quiet (close : Bool) (others : ∀ action ∈ actions, isClose action = false) :
    ∀ output ∈ told close actions, output.ends = false := by
  induction actions with
  | nil => simp [told]
  | cons action actions ih =>
    have other := others action List.mem_cons_self
    have later := ih fun action member => others action (List.mem_cons_of_mem _ member)
    rw [told_cons,other,Bool.or_false]
    intro output member
    rcases List.mem_append.mp member with now | behind
    · cases action with
      | handleWsClose data => cases other
      | handleWsData data opCode =>
        simp only [told,List.append_nil] at now
        split at now
        · cases List.mem_singleton.mp now
          rfl
        split at now
        · cases List.mem_singleton.mp now
          rfl
        · cases now
      | _ =>
        exfalso
        cases close <;> cases now
    · exact later output behind

theorem told_answers (close : Bool) (plain : opcode ≠ wsOpCloseType) (known : Known last) (some : pending ≠ []) :
    told close (Assembly.answers opcode last pending) = [] ↔
      (opcode == wsOpContinueType || opcode == wsOpTextType || opcode == wsOpBinType) = false := by
  unfold Assembly.answers
  by_cases ping : opcode = wsOpPingType
  · simp [ping,told_pongs,wsOpPingType,wsOpContinueType,wsOpTextType,wsOpBinType]
  by_cases pong : opcode = wsOpPongType
  · cases close <;> simp [pong,told,wsOpPongType,wsOpPingType,wsOpContinueType,wsOpTextType,wsOpBinType]
  by_cases continued : opcode = wsOpContinueType
  · have heard := told_data close known some
    simp [continued,heard,wsOpPongType,wsOpPingType,wsOpCloseType,wsOpContinueType]
  by_cases data : Known opcode
  · have heard := told_data close data some
    have handed : (opcode == wsOpContinueType || opcode == wsOpTextType || opcode == wsOpBinType) = true := by
      rcases data with rfl | rfl
      · rfl
      · rfl
    unfold Known at data
    rw [if_neg ping,if_neg pong,if_neg plain,if_neg continued,if_pos data,handed]
    exact ⟨fun nothing => absurd nothing heard,fun never => Bool.noConfusion never⟩
  · have apart := not_or.mp data
    unfold Known at data
    rw [if_neg ping,if_neg pong,if_neg plain,if_neg continued,if_neg data]
    cases close <;> simp [told,continued,apart.1,apart.2]

theorem told_accept (close : Bool) (known : Known a.lastOpCode) (plain : frame.closes = false) :
    told close (a.accept frame).2 = [] ↔ frame.delivers = false := by
  unfold Assembly.accept Frame.delivers
  dsimp only
  split
  · rename_i fin
    have other : frame.opcode ≠ wsOpCloseType := by simpa [Frame.closes,fin] using plain
    rw [told_answers close other (remember_known _ known) (by simp),fin,Bool.true_and]
  · rename_i fin
    cases close <;> simp [fin,told]

theorem told_ending (a : Assembly) (closes : frame.closes = true) (rest : List Action) :
    told true ((a.accept frame).2++rest) = told true rest ∧
      told false ((a.accept frame).2++rest) = .onClose 0 (ascii "close")::told true rest := by
  rw [accept_closes a closes]
  obtain ⟨payload,others,shape⟩ := List.exists_cons_of_ne_nil (l := a.pending++[frame.payload]) (by simp)
  rw [shape,List.map_cons]
  constructor
  · rw [← List.map_cons,told_append,told_closed]
    rfl
  · rw [List.cons_append,told,told_append,told_closed]
    rfl

-- Frames of which the callback hears nothing.
theorem absorb_unheard (close : Bool) (frames : List Frame) (known : Known a.lastOpCode) :
    told close (a.absorb frames).2 = [] ↔ ∀ frame ∈ frames, frame.delivers = false ∧ (frame.closes = true → close = true) := by
  induction frames generalizing a with
  | nil => cases close <;> simp [Assembly.absorb,told]
  | cons frame rest ih =>
    rw [Assembly.absorb,List.forall_mem_cons]
    have later := ih (accept_known frame known)
    cases closes : frame.closes with
    | true =>
      obtain ⟨silent,ends⟩ := told_ending a closes ((a.accept frame).1.absorb rest).2
      cases close with
      | true =>
        rw [silent,later]
        simp [Frame.closes_undelivered closes]
      | false =>
        rw [ends]
        simp
    | false => 
      rw [told_others close (accept_others a closes),List.append_eq_nil_iff,told_accept close known closes,later]
      simp

theorem heard_told (close : Bool) (actions : List Action) : heard (told close actions) = told close actions := by
  induction actions generalizing close with
  | nil => cases close <;> rfl
  | cons action actions ih =>
    have later := ih (close || isClose action)
    rw [heard] at later
    rw [told_cons,heard,List.filter_append,later]
    cases action with
    | handleWsClose data => cases close <;> rfl
    | handleWsData data opCode =>
      simp only [told,List.append_nil]
      split
      · rfl
      · split <;> rfl
    | _ => cases close <;> rfl

end told

-- Behind OnClose the callback hears nothing exactly if nothing is heard of the
-- frames behind the first close frame.
theorem absorb_endsOnce (frames : List Frame) (known : Known a.lastOpCode) :
    EndsOnce (told false (a.absorb frames).2) ↔ NothingDeliveredBehind frames := by
  induction frames generalizing a with
  | nil => exact ⟨fun _ => List.Pairwise.nil,fun _ => List.Pairwise.nil⟩
  | cons frame rest ih =>
    rw [Assembly.absorb,NothingDeliveredBehind,List.pairwise_cons]
    have later := accept_known frame known
    cases closes : frame.closes with
    | true =>
      obtain ⟨-,ends⟩ := told_ending a closes ((a.accept frame).1.absorb rest).2
      have unheard := absorb_unheard true rest later
      rw [ends,endsOnce_close,heard_told,unheard]
      constructor
      · intro silent
        refine ⟨fun later member _ => (silent later member).1,?_⟩
        exact List.pairwise_of_forall_mem_list fun _ _ later member _ => (silent later member).1
      · exact fun behind later member => ⟨behind.1 later member rfl,fun _ => rfl⟩
    | false =>
      have unended := quiet_unended (told_quiet false (accept_others a closes))
      rw [told_others false (accept_others a closes),endsOnce_append,ih later]
      constructor
      · rintro ⟨-,behind,-⟩
        exact ⟨fun later member never => Bool.noConfusion never,behind⟩
      · rintro ⟨-,behind⟩
        exact ⟨unended_endsOnce unended,behind,fun ended => absurd ended unended⟩

-- Whether HandleHttpRespone gets as far as OnConnection.
def Accepts (sha1 : Bytes → Bytes) (client : WebSocketClient) (resp : HttpClientResponse) : Prop :=
  resp.statusCode = 101 ∧ resp.headers.getD (ascii "Connection") [] = ascii "Upgrade" ∧
    resp.headers.getD (ascii "Upgrade") [] = ascii "websocket" ∧
    genWebSocketHashcode sha1 (base64Encode client.key) = resp.headers.getD (ascii "Sec-WebSocket-Accept") []

-- The frames that a delivery completes.
def completes (client : WebSocketClient) : Delivery → List Frame
  | .httpRead _ resp _ _ => (frameDecoder.drain (client.base.frame.buffer++resp.data)).1
  | .timer _ => []

-- When a delivery of these frames keeps to one end: behind an OnClose only
-- frames come that say nothing, behind a close frame too, and a refusal is not
-- answered with an exception.
def Spares (sha1 : Bytes → Bytes) (outputs : List Output) (client : WebSocketClient) (taken : List Frame) : Delivery → Prop
  | .httpRead ret resp thrown _ => client.connected = true →
      (Ended outputs → 0 ≤ ret ∧ client.httpReady = true ∧
        ∀ frame ∈ taken, frame.delivers = false ∧ frame.closes = false) ∧
      (0 ≤ ret → if client.httpReady then NothingDeliveredBehind taken else thrown = none ∨ client.Accepts sha1 resp)
  | .timer _ => True

def Spared (sha1 : Bytes → Bytes) (outputs : List Output) (client : WebSocketClient) (event : Delivery) : Prop :=
  client.Spares sha1 outputs (client.completes event) event

-- What is buffered fits into memory; and the reads of frames keep to the ranges
-- of HandleFrame.
def Small (client : WebSocketClient) : Delivery → Prop
  | .httpRead ret resp _ _ => client.connected = true → 0 ≤ ret → client.httpReady = true →
      (client.base.frame.buffer++resp.data).length < 2^63
  | .timer _ => True
def Framed (client : WebSocketClient) : Delivery → Prop
  | .httpRead ret resp _ _ => client.connected = true → 0 ≤ ret → client.httpReady = true →
      WebSocketSessionBase.FramesBelow (client.base.frame.buffer++resp.data) ∧
        (client.base.frame.buffer++resp.data).length < 2^31
  | .timer _ => True

structure Steady (client : WebSocketClient) : Prop where
  pending : WebSocketFrame.Pending client.base.frame
  known : Known client.base.lastOpCode
  closed : client.base.close = true → client.connected = false

-- After the end the timer is silent.
structure Tracked (outputs : List Output) (client : WebSocketClient) : Prop where
  steady : Steady client
  ended : Ended outputs → client.base.isConnected = false
  once : EndsOnce outputs

theorem handshake_exact (sha1 : Bytes → Bytes) (client : WebSocketClient) (resp : HttpClientResponse) :
    ∃ output, (client.handleHttpRespone sha1 resp).2 = [output] ∧ output.reports = true ∧
      (output.ends = false ↔ client.Accepts sha1 resp) ∧
      (client.handleHttpRespone sha1 resp).1.base = {client.base with isConnected:=!output.ends} ∧
      (client.handleHttpRespone sha1 resp).1.connected = client.connected := by
  unfold handleHttpRespone
  dsimp only
  split
  · rename_i code
    exact ⟨_,rfl,rfl,⟨nofun,fun accepts => absurd accepts.1 code⟩,rfl,rfl⟩
  split
  · rename_i connection
    exact ⟨_,rfl,rfl,⟨nofun,fun accepts => absurd accepts.2.1 connection⟩,rfl,rfl⟩
  split
  · rename_i upgrade
    exact ⟨_,rfl,rfl,⟨nofun,fun accepts => absurd accepts.2.2.1 upgrade⟩,rfl,rfl⟩
  split
  · rename_i hash
    exact ⟨_,rfl,rfl,⟨nofun,fun accepts => absurd accepts.2.2.2 hash⟩,rfl,rfl⟩
  · rename_i code connection upgrade hash
    have accepts : client.Accepts sha1 resp :=
      ⟨not_not.mp code,not_not.mp connection,not_not.mp upgrade,not_not.mp hash⟩
    exact ⟨_,rfl,rfl,⟨fun _ => accepts,fun _ => rfl⟩,rfl,rfl⟩

-- What each delivery keeps, whether it is spared or not.
structure Follows (client next : WebSocketClient) (emitted : List Output) : Prop where
  steady : Steady next
  ends : Ended emitted → next.base.isConnected = false
  stays : heard emitted = [] → client.base.isConnected = false → next.base.isConnected = false

theorem Steady.keep (steady : Steady client) (frame : next.base.frame = client.base.frame)
    (last : next.base.lastOpCode = client.base.lastOpCode) (close : next.base.close = client.base.close)
    (connected : next.connected = client.connected) : Steady next := by
  refine ⟨?_,?_,?_⟩
  · rw [frame]
    exact steady.pending
  · rw [last]
    exact steady.known
  · rw [close,connected]
    exact steady.closed

theorem Tracked.follow (tracked : Tracked outputs client) (follows : Follows client next emitted)
    (once : EndsOnce (outputs++emitted)) : Tracked (outputs++emitted) next := by
  refine ⟨follows.steady,?_,once⟩
  rintro ⟨output,member,ends⟩
  rcases List.mem_append.mp member with early | late
  · have ended : Ended outputs := ⟨output,early,ends⟩
    exact follows.stays ((endsOnce_append.mp once).2.2 ended) (tracked.ended ended)
  · exact follows.ends ⟨output,late,ends⟩

theorem refuse_follows (steady : Steady client) (desc : Bytes) :
    Follows client (client.refuse desc).1 (client.refuse desc).2 :=
  ⟨⟨steady.pending,steady.known,steady.closed⟩,fun _ => rfl,fun _ _ => rfl⟩

-- The handshake is always heard, and it ends the session twice when a refusal
-- is answered with an exception.
theorem caught_follows (steady : Steady client) (handled : WebSocketClient × List Output) (said : handled.2 = [output])
    (reported : output.reports = true) (base : handled.1.base = {client.base with isConnected:=!output.ends})
    (connected : handled.1.connected = client.connected) (resp : HttpClientResponse) (thrown : Option Bytes) :
    Follows client (client.caught resp thrown handled).1 (client.caught resp thrown handled).2 ∧
      heard (client.caught resp thrown handled).2 ≠ [] ∧
      (EndsOnce (client.caught resp thrown handled).2 ↔ thrown = none ∨ output.ends = false) := by
  have kept : Steady handled.1 := steady.keep (by rw [base]) (by rw [base]) (by rw [base]) connected
  cases thrown with
  | none =>
    have told : (client.caught resp none handled).2 = [output] := said
    rw [told]
    refine ⟨⟨kept,?_,?_⟩,?_,?_⟩
    · rintro ⟨other,member,ends⟩
      cases List.mem_singleton.mp member
      have down : handled.1.base.isConnected = !output.ends := by rw [base]
      rw [ends] at down
      exact down
    · intro silent
      simp [heard,reported] at silent
    · simp [heard,reported]
    · simp [EndsOnce]
  | some what =>
    have told : (client.caught resp (some what) handled).2 =
        [output,.onClose (-1) (ascii "websocket http handshake exception:"++what)] := by
      rw [caught,said]
      rfl
    rw [told]
    refine ⟨⟨⟨kept.pending,kept.known,kept.closed⟩,fun _ => rfl,fun _ _ => rfl⟩,?_,?_⟩
    · simp [heard,reported]
    · simp [EndsOnce,Output.reports]

theorem readFrames_exact (steady : Steady client) (connected : client.connected = true)
    (room : (client.base.frame.buffer++resp.data).length < 2^63) (read : client.readFrames resp nowMs = .ok (next,emitted)) :
    Follows client next emitted ∧ ∃ front more,
      (frameDecoder.drain (client.base.frame.buffer++resp.data)).1 = front++more ∧
      (WebSocketSessionBase.FramesBelow (client.base.frame.buffer++resp.data) →
        (client.base.frame.buffer++resp.data).length < 2^31 → more = []) ∧
      (heard emitted = [] ↔ ∀ frame ∈ front, frame.delivers = false ∧ frame.closes = false) ∧
      (EndsOnce emitted ↔ NothingDeliveredBehind front) := by
  obtain ⟨⟨base,actions,ret⟩,handled,read⟩ := bind_ok.mp read
  have handled := mapError_ok.mp handled
  obtain ⟨rfl,rfl⟩ := ok_pair read
  obtain ⟨pending,known,front,more,split,called,whole⟩ := WebSocketSessionBase.loop_front _ steady.pending room handled
  have flags := WebSocketSessionBase.loop_flags _ handled
  have isOpen : client.base.close = false := by
    cases closed : client.base.close with
    | false => rfl
    | true => exact absurd (steady.closed closed) (by simp [connected])
  let held : WebSocketClient := {client.respond {resp with data:=[]} with base}
  have spoken : heard (held.performAll actions).2 = told false (client.base.assembly.absorb front).2 := by
    rw [heard,performAll_told,← told_calls,called]
    exact congrArg (told · (client.base.assembly.absorb front).2) (flags.2.trans isOpen)
  have unheard := absorb_unheard false front (a := client.base.assembly) steady.known
  have ordered := absorb_endsOnce front (a := client.base.assembly) steady.known
  refine ⟨?_,front,more,split,whole,?_,?_⟩
  · rcases performAll_cases actions held with ⟨same,quiet⟩ | shut
    · have kept : Steady held := ⟨pending,known steady.known,fun closed => steady.closed (flags.2.symm.trans closed)⟩
      refine ⟨by rw [same]; exact kept,fun ended => absurd ended (quiet_unended quiet),fun _ down => ?_⟩
      rw [same]
      exact flags.1.trans down
    · rw [shut]
      exact ⟨⟨pending,known steady.known,fun _ => rfl⟩,fun _ => rfl,fun _ _ => rfl⟩
  · rw [spoken,unheard]
    simp
  · rw [← endsOnce_heard,spoken,ordered]

theorem ping_kept (client : WebSocketClient) (nowMs : Int) :
    (client.ping nowMs).1.base = {client.base with lastSendPingMs:=(client.ping nowMs).1.base.lastSendPingMs} ∧
      (client.ping nowMs).1.connected = client.connected ∧ ∀ output ∈ (client.ping nowMs).2, output.ends = false := by
  unfold ping
  split
  · exact ⟨rfl,rfl,by simp [Output.ends]⟩
  · exact ⟨rfl,rfl,fun _ member => absurd member List.not_mem_nil⟩

theorem checkPong_follows (steady : Steady client) (nowMs : Int) :
    Follows client (client.checkPong nowMs).1 (client.checkPong nowMs).2 ∧ EndsOnce (client.checkPong nowMs).2 := by
  have nothing : ¬ Ended [] := quiet_unended nofun
  unfold checkPong
  split
  · exact ⟨⟨⟨steady.pending,steady.known,steady.closed⟩,fun ended => absurd ended nothing,fun _ down => down⟩,
      unended_endsOnce nothing⟩
  split
  · exact ⟨⟨⟨steady.pending,steady.known,fun _ => rfl⟩,fun _ => rfl,fun _ _ => rfl⟩,by simp [EndsOnce,Output.ends]⟩
  · exact ⟨⟨steady,fun ended => absurd ended nothing,fun _ down => down⟩,unended_endsOnce nothing⟩

-- The timer ends a session once, and no session that has ended.
theorem onTimer_exact (steady : Steady client) (nowMs : Int) :
    Follows client (client.onTimer nowMs).1 (client.onTimer nowMs).2 ∧ EndsOnce (client.onTimer nowMs).2 ∧
      (client.base.isConnected = false → heard (client.onTimer nowMs).2 = []) := by
  unfold onTimer
  split
  · have nothing : ¬ Ended [] := quiet_unended nofun
    exact ⟨⟨steady,fun ended => absurd ended nothing,fun _ down => down⟩,unended_endsOnce nothing,fun _ => rfl⟩
  · rename_i up
    obtain ⟨base,connected,quiet⟩ := ping_kept client nowMs
    have kept : Steady (client.ping nowMs).1 := steady.keep (by rw [base]) (by rw [base]) (by rw [base]) connected
    obtain ⟨follows,once⟩ := checkPong_follows kept nowMs
    have unended := quiet_unended quiet
    refine ⟨⟨follows.steady,?_,fun _ down => absurd down (by simpa using up)⟩,?_,fun down => absurd down (by simpa using up)⟩
    · rintro ⟨output,member,ends⟩
      rcases List.mem_append.mp member with early | late
      · exact absurd ⟨output,early,ends⟩ unended
      · exact follows.ends ⟨output,late,ends⟩
    · exact endsOnce_append.mpr ⟨unended_endsOnce unended,once,fun ended => absurd ended unended⟩

theorem Spares.front (spares : client.Spares sha1 outputs (first++more) event) : client.Spares sha1 outputs first event := by
  cases event with
  | timer nowMs => trivial
  | httpRead ret resp thrown nowMs =>
    intro connected
    obtain ⟨behind,alone⟩ := spares connected
    refine ⟨fun ended => ?_,fun good => ?_⟩
    · obtain ⟨good,ready,silent⟩ := behind ended
      exact ⟨good,ready,fun frame member => silent frame (List.mem_append_left _ member)⟩
    · have once := alone good
      split at once
      · rename_i ready
        rw [if_pos ready]
        exact (List.pairwise_append.mp once).1
      · rename_i unready
        rw [if_neg unready]
        exact once

-- A delivery takes frames in front of those it completes, all of them in the
-- ranges of HandleFrame, and with those it keeps to one end or does not.
theorem deliver_exact (tracked : Tracked outputs client) (small : client.Small event)
    (delivered : client.deliver sha1 event = .ok (next,emitted)) : Follows client next emitted ∧
    ∃ front more, client.completes event = front++more ∧ (client.Framed event → client.Spares sha1 outputs front event →
      client.Spared sha1 outputs event) ∧ (EndsOnce (outputs++emitted) ↔ client.Spares sha1 outputs front event) := by
  have steady := tracked.steady
  have split : EndsOnce (outputs++emitted) ↔ EndsOnce emitted ∧ (Ended outputs → heard emitted = []) :=
    endsOnce_append.trans (and_iff_right tracked.once)
  rw [split]
  cases event with
  | timer nowMs =>
    obtain ⟨rfl,rfl⟩ := ok_pair delivered
    obtain ⟨follows,once,silent⟩ := onTimer_exact steady nowMs
    refine ⟨follows,[],[],rfl,fun _ _ => trivial,?_⟩
    exact ⟨fun _ => trivial,fun _ => ⟨once,fun ended => silent (tracked.ended ended)⟩⟩
  | httpRead ret resp thrown nowMs =>
    unfold deliver at delivered
    dsimp only at delivered
    cases connected : client.connected with
    | false =>
      rw [if_pos (by simp [connected])] at delivered
      cases delivered
      have nothing : ¬ Ended [] := quiet_unended nofun
      refine ⟨⟨steady,fun ended => absurd ended nothing,fun _ down => down⟩,_,[],(List.append_nil _).symm,fun _ => id,?_⟩
      exact ⟨fun _ up => absurd (connected.symm.trans up) Bool.false_ne_true,fun _ => ⟨unended_endsOnce nothing,fun _ => rfl⟩⟩
    | true =>
      rw [if_neg (by simp [connected])] at delivered
      by_cases failed : ret < 0
      · rw [if_pos failed] at delivered
        obtain ⟨rfl,rfl⟩ := ok_pair delivered
        refine ⟨refuse_follows steady _,_,[],(List.append_nil _).symm,fun _ => id,?_⟩
        have apart : ¬ 0 ≤ ret := by omega
        simp [Spares,connected,apart,refuse,EndsOnce,heard,Output.reports]
      rw [if_neg failed] at delivered
      have good : 0 ≤ ret := by omega
      cases ready : client.httpReady with
      | true =>
        rw [if_pos ready] at delivered
        obtain ⟨follows,front,more,shape,whole,unheard,once⟩ := readFrames_exact steady connected (small connected good ready) delivered
        refine ⟨follows,front,more,shape,?_,?_⟩
        · intro framed spares
          obtain ⟨below,short⟩ := framed connected good ready
          obtain rfl := whole below short
          rw [List.append_nil] at shape
          unfold Spared completes
          dsimp only
          rw [shape]
          exact spares
        · rw [unheard,once]
          simp only [Spares,connected,good,ready,true_and,true_implies,if_true]
          exact and_comm
      | false =>
        rw [if_neg (by simp [ready])] at delivered
        obtain ⟨rfl,rfl⟩ := ok_pair delivered
        obtain ⟨output,said,reported,accepts,base,kept⟩ := handshake_exact sha1 client resp
        obtain ⟨follows,spoken,once⟩ := caught_follows steady _ said reported base kept resp thrown
        refine ⟨follows,_,[],(List.append_nil _).symm,fun _ => id,?_⟩
        rw [once,accepts]
        simp only [Spares,connected,good,ready,spoken,Bool.false_eq_true,false_and,and_false,true_implies,if_false]
        exact and_comm

theorem steady_initial (http : HttpClient) (key : Bytes) : Steady {http,key} :=
  ⟨WebSocketSessionBase.pending_unready rfl,.inl rfl,nofun⟩

theorem deliver_defined (sha1 : Bytes → Bytes) (steady : Steady client) (framed : client.Framed event) :
    ∃ result, client.deliver sha1 event = .ok result := by
  cases event with
  | timer nowMs => exact ⟨_,rfl⟩
  | httpRead ret resp thrown nowMs =>
    unfold deliver
    dsimp only
    cases connected : client.connected with
    | false => exact ⟨_,if_pos rfl⟩
    | true =>
      rw [if_neg (by simp)]
      by_cases failed : ret < 0
      · exact ⟨_,if_pos failed⟩
      rw [if_neg failed]
      cases ready : client.httpReady with
      | false => exact ⟨_,if_neg (by simp)⟩
      | true =>
        obtain ⟨below,-⟩ := framed connected (by omega) ready
        obtain ⟨base,actions,stepped,-⟩ := WebSocketSessionBase.step_good steady.pending ⟨nowMs,resp.data⟩ below
        obtain ⟨⟨reached,called,ret⟩,handled,-⟩ := bind_ok.mp stepped
        have read : client.readFrames resp nowMs = .ok _ := bind_ok.mpr ⟨_,mapError_ok.mpr handled,rfl⟩
        exact ⟨_,by rw [if_pos rfl]; exact read⟩

variable {sha1 : Bytes → Bytes} {http : HttpClient} {key : Bytes}

-- A run and what it has kept.
def Kept (sha1 : Bytes → Bytes) (http : HttpClient) (key : Bytes) (events : List Delivery) (outputs : List Output)
    (client : WebSocketClient) : Prop :=
  (deliveries sha1 http key).run events = .ok (client,outputs) ∧ Tracked outputs client

theorem kept_initial (sha1 : Bytes → Bytes) (http : HttpClient) (key : Bytes) : Kept sha1 http key [] [] {http,key} :=
  ⟨rfl,steady_initial http key,fun _ => rfl,List.Pairwise.nil⟩

theorem kept_step (small : (deliveries sha1 http key).Guarded (fun _ => Small) (events++[event]))
    (kept : Kept sha1 http key events outputs client) (spared : client.Spared sha1 outputs event)
    (delivered : client.deliver sha1 event = .ok (next,emitted)) :
    Kept sha1 http key (events++[event]) (outputs++emitted) next := by
  obtain ⟨ran,tracked⟩ := kept
  have room := small events event [] rfl client outputs ran
  obtain ⟨follows,front,more,shape,-,exactly⟩ := deliver_exact tracked room delivered
  unfold Spared at spared
  rw [shape] at spared
  refine ⟨?_,tracked.follow follows (exactly.mpr spared.front)⟩
  exact (Machine.runFrom_snoc _).mpr ⟨client,outputs,emitted,ran,delivered,rfl⟩

theorem kept_forced (small : (deliveries sha1 http key).Guarded (fun _ => Small) (events++[event]))
    (framed : (deliveries sha1 http key).Guarded (fun _ => Framed) (events++[event]))
    (kept : Kept sha1 http key events outputs client) (delivered : client.deliver sha1 event = .ok (next,emitted))
    (once : EndsOnce (outputs++emitted)) : client.Spared sha1 outputs event := by
  obtain ⟨ran,tracked⟩ := kept
  have room := small events event [] rfl client outputs ran
  obtain ⟨-,front,more,-,whole,exactly⟩ := deliver_exact tracked room delivered
  exact whole (framed events event [] rfl client outputs ran) (exactly.mp once)

-- The end is reported once, and nothing behind it, in every run in which no
-- delivery comes behind it that is heard; and in the ranges of HandleFrame in no
-- other run.
theorem ends_once_exactly (sha1 : Bytes → Bytes) (http : HttpClient) (key : Bytes) (events : List Delivery)
    (small : (deliveries sha1 http key).Guarded (fun _ => Small) events) :
    ((deliveries sha1 http key).Guarded (Spared sha1) events →
      (deliveries sha1 http key).Throughout (fun _ outputs _ => EndsOnce outputs) events) ∧
    ((deliveries sha1 http key).Guarded (fun _ => Framed) events →
      (deliveries sha1 http key).Throughout (fun _ outputs _ => EndsOnce outputs) events →
      (deliveries sha1 http key).Guarded (Spared sha1) events) := by
  constructor
  · rintro guarded before after client outputs rfl ran
    have kept := Machine.admissible_history _ (fun events => (deliveries sha1 http key).Guarded (fun _ => Small) events)
      (Spared sha1) (Kept sha1 http key) (fun _ _ => Machine.Guarded.front _) (kept_initial sha1 http key)
      (fun _ _ _ _ _ _ => kept_step) before (Machine.Guarded.front _ small) (Machine.Guarded.front _ guarded) ran
    exact kept.2.once
  · intro framed
    apply Iff.mp
    apply Machine.throughout_iff _ (fun events => (deliveries sha1 http key).Guarded (fun _ => Small) events ∧
      (deliveries sha1 http key).Guarded (fun _ => Framed) events) (Spared sha1) (Kept sha1 http key)
      (fun _ outputs _ => EndsOnce outputs)
    · exact fun _ _ both => ⟨Machine.Guarded.front _ both.1,Machine.Guarded.front _ both.2⟩
    · exact kept_initial sha1 http key
    · exact fun _ _ _ _ _ _ both => kept_step both.1
    · exact fun _ _ _ kept => kept.2.once
    · exact fun _ _ _ _ _ _ both => kept_forced both.1 both.2
    · intro events outputs client event fault both kept failed
      obtain ⟨result,delivered⟩ := deliver_defined sha1 kept.2.steady (both.2 events event [] rfl client outputs kept.1)
      cases failed.symm.trans delivered
    · exact ⟨small,framed⟩

def welcome : HttpClientResponse :=
  {statusCode:=101
   headers:=((∅ : Headers).insert (ascii "Connection") (ascii "Upgrade")).insert (ascii "Upgrade") (ascii "websocket")}

-- A hash that is empty everywhere stands in for SHA-1: the header of the answer
-- may then be missing.
def plain : Machine WebSocketClient Delivery Output Failure := deliveries (fun _ => []) {host:=ascii "a"} []
def greeting : Delivery := .httpRead 0 welcome none 0
def farewell : Delivery := .httpRead 0 {welcome with data:=[0x81,1,104,0x88,0]} none 0
def lost : Delivery := .httpRead (-4095) welcome none 0

theorem greeted (ran : plain.run [greeting] = .ok (client,outputs)) :
    client.base.frame.buffer = [] ∧ outputs = [.onConnection] := by
  have made : (plain.run [greeting]).map (fun result => (result.1.base.frame.buffer,result.2)) = .ok ([],[.onConnection]) := by
    decide +kernel
  rw [ran] at made
  exact Prod.mk.inj (Except.ok.inj made)

theorem parted (ran : plain.run [greeting,farewell] = .ok (client,outputs)) : client.connected = false := by
  have made : (plain.run [greeting,farewell]).map (fun result => result.1.connected) = .ok false := by decide +kernel
  rw [ran] at made
  exact Except.ok.inj made

theorem farewell_guarded (Guard : List Output → WebSocketClient → Delivery → Prop) (first : Guard [] plain.initial greeting)
    (second : ∀ client, client.base.frame.buffer = [] → Guard [.onConnection] client farewell)
    (third : ∀ client outputs, client.connected = false → Guard outputs client lost) :
    plain.Guarded Guard [greeting,farewell,lost] := by
  have one : plain.Guarded Guard [greeting] := by
    refine Machine.Guarded.snoc _ (Machine.Guarded.nil _) fun client outputs ran => ?_
    cases ran
    exact first
  have two : plain.Guarded Guard [greeting,farewell] := by
    refine Machine.Guarded.snoc _ one fun client outputs ran => ?_
    obtain ⟨buffer,rfl⟩ := greeted ran
    exact second client buffer
  exact Machine.Guarded.snoc _ two fun client outputs ran => third client outputs (parted ran)

theorem farewell_endsOnce : plain.Throughout (fun _ outputs _ => EndsOnce outputs) [greeting,farewell,lost] := by
  have small : plain.Guarded (fun _ => Small) [greeting,farewell,lost] := by
    apply farewell_guarded
    · exact fun _ _ => nofun
    · intro client buffer _ _ _
      rw [buffer]
      decide
    · exact fun client _ down connected => absurd connected (by simp [down])
  refine (ends_once_exactly _ _ _ _ small).1 ?_
  apply farewell_guarded
  · exact fun _ => ⟨fun ended => absurd ended (quiet_unended nofun),fun _ => .inl rfl⟩
  · intro client buffer _
    refine ⟨fun ended => absurd ended (quiet_unended (by simp [Output.ends])),fun _ => ?_⟩
    unfold completes farewell
    dsimp only
    rw [buffer]
    split
    · decide
    · exact .inl rfl
  · exact fun client _ down connected => absurd connected (by simp [down])

-- A response that is refused, and then the end of the connection.
theorem close_told_twice : ¬ ∀ (sha1 : Bytes → Bytes) (http : HttpClient) (key : Bytes) (events : List Delivery),
    (deliveries sha1 http key).Throughout (fun _ outputs _ => EndsOnce outputs) events := by
  intro always
  have made : ((deliveries (fun _ => []) {host:=ascii "a"} []).run
      [.httpRead 0 {statusCode:=404} none 0,.httpRead (-4095) {statusCode:=404} none 0]).map (fun result => result.2) =
        .ok [.onClose (-1) (ascii "\x7b\x7dwebsocket http response code error:404"),.onClose (-1) (ascii "http read error")] := by
    decide +kernel
  obtain ⟨⟨client,outputs⟩,ran,called⟩ := map_ok.mp made
  have once := always _ _ _ _ _ [] client outputs (List.append_nil _).symm ran
  rw [show outputs = _ from called] at once
  simp [EndsOnce,Output.ends,Output.reports] at once

end WebSocketClient
end CoStream
