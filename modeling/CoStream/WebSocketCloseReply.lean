import CoStream.WebSocketConform

namespace CoStream
open Foundation

namespace WebSocketSessionBase

instance {data : Bytes} : Decidable (ValidClose data) := inferInstanceAs (Decidable (_ ∧ _))

-- The code has no part in the frame that is sent.
def sendClose (_code : Nat) (reason : String) : Action := .sendWsFrame (ascii reason) wsOpCloseType

def closeCode (payload : Bytes) : Nat := bigEndian (payload.take 2)

theorem closeReply_cases (data : Bytes) : WebSocketSession.closeReply data =
    if data.length ≤ 1 then sendClose 1002 "Incomplete close code"
    else if ValidClose data then .sendWsFrame data wsOpCloseType
    else sendClose 1002 "Invalid close code" := by
  unfold WebSocketSession.closeReply
  by_cases short : data.length ≤ 1
  · rw [if_pos short,if_pos short]
    rfl
  · rw [if_neg short,if_neg short]
    dsimp only
    by_cases valid : ValidClose data
    · rw [if_neg valid.2,if_pos valid]
    · have invalid := Classical.not_not.mp fun fine => valid ⟨by omega,fine⟩
      rw [if_pos invalid,if_neg valid]
      rfl

-- The peer finds these bytes as the payload of a close frame, whatever end sent
-- it and under whatever key.
def OnTheWire (reply : Bytes) : Prop := reply.length < 2^64 → ∀ sender maskingKey, ∃ writes,
  sendWsFrame sender maskingKey reply wsOpCloseType = .ok writes ∧
    nextFrame writes.flatten = some (⟨true,wsOpCloseType,reply⟩,[])

theorem onTheWire (reply : Bytes) : OnTheWire reply := by
  intro fits sender maskingKey
  obtain ⟨writes,sent,bytes⟩ := sendWsFrame_exact sender maskingKey reply wsOpCloseType
  have found := nextFrame_encode maskingKey reply [] wsOpCloseType (by decide) fits
  rw [List.append_nil] at found
  exact ⟨writes,sent,by rw [bytes,found]⟩

-- Every frame in these sends is a close frame that the receiver of the payload
-- would itself have taken for valid, with 1002 in return for an invalid one.
def RepliesWell (received : Bytes) (sends : List Action) : Prop :=
  ∀ reply opCode, .sendWsFrame reply opCode ∈ sends → opCode = wsOpCloseType ∧ OnTheWire reply ∧ ValidClose reply ∧
    (¬ ValidClose received → closeCode reply = 1002)

-- Both texts begin with "In", which is code 18798.
theorem texts_invalid : ¬ ValidClose (ascii "Incomplete close code") ∧ ¬ ValidClose (ascii "Invalid close code") := by
  constructor
  · intro valid
    exact valid.2 (by decide)
  · intro valid
    exact valid.2 (by decide)

theorem closeReply_well (data : Bytes) : RepliesWell data [WebSocketSession.closeReply data] ↔ ValidClose data := by
  rw [closeReply_cases]
  constructor
  · intro well
    by_contra invalid
    rw [if_neg invalid] at well
    split at well
    · exact texts_invalid.1 (well _ _ List.mem_cons_self).2.2.1
    · exact texts_invalid.2 (well _ _ List.mem_cons_self).2.2.1
  · intro valid reply opCode member
    have long := valid.1
    rw [if_neg (by omega),if_pos valid] at member
    cases List.mem_singleton.mp member
    exact ⟨rfl,onTheWire data,valid,fun invalid => absurd valid invalid⟩

-- An end that has closed sends nothing more.
theorem close_replies_iff (s : WebSocketSession) (client : WebSocketClient) (data : Bytes) :
    (RepliesWell data (serverSends (s.perform (.handleWsClose data)).2) ↔ s.base.close = true ∨ ValidClose data) ∧
      (RepliesWell data (clientSends (client.perform (.handleWsClose data)).2) ↔
        client.base.close = true ∨ ValidClose data) := by
  have silent : RepliesWell data [] := fun reply opCode member => by cases member
  obtain ⟨text,opCode,sends⟩ := closeReply_sends data
  have spoken : ∀ close : Bool, RepliesWell data (sentFrames (effects close [.handleWsClose data])) ↔
      close = true ∨ ValidClose data := by
    intro close
    cases close with
    | true => exact ⟨fun _ => .inl rfl,fun _ => silent⟩
    | false =>
      have only : sentFrames (effects false [.handleWsClose data]) = [WebSocketSession.closeReply data] := by
        simp [effects,sentFrames,sends]
      rw [only,closeReply_well]
      simp
  rw [(server_perform s (.handleWsClose data)).1,(client_perform client (.handleWsClose data)).1]
  exact ⟨spoken s.base.close,spoken client.base.close⟩

-- A close frame without a code: the reply is the text alone.
theorem empty_close_reply : serverSends (WebSocketSession.perform {} (.handleWsClose [])).2 =
      [.sendWsFrame (ascii "Incomplete close code") wsOpCloseType] ∧
    closeCode (ascii "Incomplete close code") = 18798 ∧
    ¬ RepliesWell [] (serverSends (WebSocketSession.perform {} (.handleWsClose [])).2) ∧
    ∀ client : WebSocketClient, client.base.close = false →
      ¬ RepliesWell [] (clientSends (client.perform (.handleWsClose [])).2) := by
  refine ⟨by decide,by decide,?_,?_⟩
  · intro well
    exact texts_invalid.1 (well (ascii "Incomplete close code") wsOpCloseType (by decide)).2.2.1
  · intro client closed well
    have sent : clientSends (client.perform (.handleWsClose [])).2 =
        [.sendWsFrame (ascii "Incomplete close code") wsOpCloseType] := by
      simp [WebSocketClient.perform,closed,clientSends,WebSocketSession.closeReply]
    rw [sent] at well
    exact texts_invalid.1 (well _ _ List.mem_cons_self).2.2.1

end WebSocketSessionBase
end CoStream
