import CoStream.IpAddress
import CoStream.Foundation.Machine

namespace CoStream.TcpConnect
open Foundation IpAddress

-- What can end StartConnect other than its return: IsIPv4, the address list that
-- is read behind `freeaddrinfo`, and an address that nobody has written.
inductive Stop where
  | ipv4 (stop : IpAddress.Stop)
  | useAfterFree
  | indeterminate
deriving DecidableEq,Repr

-- The four bytes of an in_addr, and a sockaddr_in of the family AF_INET.
structure InAddr where
  a : UInt8
  b : UInt8
  c : UInt8
  d : UInt8
deriving DecidableEq,Repr

structure SockaddrIn where
  sinAddr : Option InAddr
  sinPort : UInt16
deriving DecidableEq,Repr

structure Libc where
  inetPton : Bytes → Option InAddr
  inetNtop : InAddr → Option Bytes
  getaddrinfo : Bytes → Bytes → Int

-- On IPv4 literals the two conversions undo each other.
def Inverse (libc : Libc) : Prop :=
  ∀ host, DottedQuad host → ∃ addr, libc.inetPton host = some addr ∧ libc.inetNtop addr = some host

def htons (port : UInt16) : UInt16 := .ofBitVec (port.toBitVec.extractLsb' 0 8++port.toBitVec.extractLsb' 8 8)

def getIpv4Sockaddr (libc : Libc) (ip : Bytes) (port : UInt16) : SockaddrIn := ⟨libc.inetPton ip,port⟩

-- The port is a reference: the caller's variable gets `sin_port` as it stands.
def getIpStr (libc : Libc) (sa : SockaddrIn) (port : UInt16) : Except Stop (Bytes × UInt16) :=
  match sa.sinAddr with
  | none => .error .indeterminate
  | some addr =>
    match libc.inetNtop addr with
    | none => .ok ([],port)
    | some s => .ok (s,sa.sinPort)

structure Conn where
  host : Bytes
  port : UInt16
  connect : Bool := false
deriving DecidableEq,Repr

-- `uvTcpConnect` is what `uv_tcp_connect` answers; the result has the return
-- value and the address it was given.
def startConnect (libc : Libc) (c : Conn) (uvTcpConnect : Int) : Except Stop (Conn × Int × List SockaddrIn) := do
  let ipv4 ← (isIPv4 c.host).mapError .ipv4
  if ipv4 then do
    let dstAddr := getIpv4Sockaddr libc c.host (htons c.port)
    let (_,port) ← getIpStr libc dstAddr c.port
    if uvTcpConnect ≠ 0 then .ok ({c with port,connect:=false},-2,[dstAddr])
    else .ok ({c with port,connect:=true},0,[dstAddr])
  else if libc.getaddrinfo c.host (decimal c.port.toNat) ≠ 0 then .ok ({c with connect:=false},-1,[])
  else .error .useAfterFree

-- One connection on which CoConnect is awaited any number of times.
def machine (libc : Libc) (host : Bytes) (port : UInt16) : Machine Conn Int SockaddrIn Stop :=
  ⟨{host,port},fun c uvTcpConnect => (startConnect libc c uvTcpConnect).map fun result => (result.1,result.2.2)⟩

section literal
variable {libc : Libc} {host : Bytes} {port : UInt16}

-- A call passes the port in network order, and leaves it so in port_.
theorem startConnect_literal (inverse : Inverse libc) (c : Conn) (literal : DottedQuad c.host) (uvTcpConnect : Int) :
    ∃ ret, startConnect libc c uvTcpConnect =
      .ok ({c with port:=htons c.port,connect:=decide (uvTcpConnect = 0)},ret,[⟨libc.inetPton c.host,htons c.port⟩]) := by
  obtain ⟨addr,parsed,printed⟩ := inverse c.host literal
  have known : getIpStr libc (getIpv4Sockaddr libc c.host (htons c.port)) c.port = .ok (c.host,htons c.port) := by
    unfold getIpStr getIpv4Sockaddr
    dsimp only
    rw [parsed]
    dsimp only
    rw [printed]
  have accepted : (isIPv4 c.host).mapError Stop.ipv4 = .ok true := mapError_ok.mpr (isIPv4_quad literal)
  unfold startConnect
  rw [accepted,ok_bind,if_pos rfl]
  dsimp only
  rw [known,ok_bind]
  by_cases answer : uvTcpConnect = 0
  · exact ⟨0,by simp [answer,getIpv4Sockaddr]⟩
  · exact ⟨-2,by simp [answer,getIpv4Sockaddr]⟩

theorem step_literal (inverse : Inverse libc) (host : Bytes) (port : UInt16) (c : Conn) (literal : DottedQuad c.host)
    (uvTcpConnect : Int) : (machine libc host port).step c uvTcpConnect =
      .ok ({c with port:=htons c.port,connect:=decide (uvTcpConnect = 0)},[⟨libc.inetPton c.host,htons c.port⟩]) := by
  obtain ⟨ret,called⟩ := startConnect_literal inverse c literal uvTcpConnect
  change (startConnect libc c uvTcpConnect).map _ = _
  rw [called]
  rfl

-- Any number of calls swaps the bytes of the port as often.
theorem run_literal (inverse : Inverse libc) (literal : DottedQuad host) (port : UInt16) (calls : List Int) :
    ∃ connect, (machine libc host port).run calls = .ok (⟨host,htons^[calls.length] port,connect⟩,
      (List.range calls.length).map fun earlier => ⟨libc.inetPton host,htons^[earlier+1] port⟩) := by
  induction calls using List.reverseRecOn with
  | nil => exact ⟨false,rfl⟩
  | append_singleton front uvTcpConnect ih =>
    obtain ⟨connect,ran⟩ := ih
    have stepped := step_literal inverse host port ⟨host,htons^[front.length] port,connect⟩ literal uvTcpConnect
    have whole := (machine libc host port).runFrom_snoc.mpr ⟨_,_,_,ran,stepped,rfl⟩
    refine ⟨decide (uvTcpConnect = 0),whole.trans ?_⟩
    rw [List.length_append,List.length_singleton,List.range_succ,List.map_append,List.map_singleton,Function.iterate_succ_apply']

-- No call changes the target, and each passes it as it was given.
def KeepsTarget (libc : Libc) (host : Bytes) (port : UInt16) (calls : List Int) : Prop :=
  (∃ result, (machine libc host port).run calls = .ok result) ∧
    (machine libc host port).Throughout (fun _ passed c => c.host = host ∧ c.port = port ∧
      ∀ addr ∈ passed, addr = ⟨libc.inetPton host,htons port⟩) calls

theorem keepsTarget_iff (inverse : Inverse libc) (literal : DottedQuad host) (port : UInt16) (calls : List Int) :
    KeepsTarget libc host port calls ↔ calls = [] ∨ htons port = port := by
  constructor
  · rintro ⟨-,throughout⟩
    cases calls with
    | nil => exact .inl rfl
    | cons first rest =>
      obtain ⟨connect,ran⟩ := run_literal inverse literal port [first]
      exact .inr (throughout [first] rest _ _ rfl ran).2.1
  · intro same
    obtain ⟨connect,ran⟩ := run_literal inverse literal port calls
    refine ⟨⟨_,ran⟩,?_⟩
    rintro before after c passed shape reached
    rcases same with rfl | fixed
    · obtain ⟨rfl,-⟩ := List.append_eq_nil_iff.mp shape.symm
      obtain ⟨rfl,rfl⟩ := ok_pair reached.symm
      exact ⟨rfl,rfl,by simp⟩
    · obtain ⟨connect,front⟩ := run_literal inverse literal port before
      obtain ⟨rfl,rfl⟩ := ok_pair (front.symm.trans reached).symm
      refine ⟨rfl,Function.iterate_fixed fixed _,?_⟩
      intro addr member
      obtain ⟨earlier,-,rfl⟩ := List.mem_map.mp member
      rw [Function.iterate_fixed fixed,fixed]

end literal

-- The two conversions for literals, as a test of the assumption.
def parseQuad (text : Bytes) : Option InAddr :=
  match (split [46] text).map readDigits with
  | [a,b,c,d] => some ⟨a.toUInt8,b.toUInt8,c.toUInt8,d.toUInt8⟩
  | _ => none
def printQuad (addr : InAddr) : Bytes :=
  Dotted (decimal addr.a.toNat) (decimal addr.b.toNat) (decimal addr.c.toNat) (decimal addr.d.toNat)
def quads : Libc := ⟨parseQuad,fun addr => some (printQuad addr),fun _ _ => -2⟩

theorem split_dotted (octetA : Octet a) (octetB : Octet b) (octetC : Octet c) (octetD : Octet d) :
    split [46] (Dotted a b c d) = [a,b,c,d] := by
  have joined : Dotted a b c d = [46].intercalate [a,b,c,d] := by simp [Dotted,List.intercalate]
  rw [joined]
  apply split_intercalate
  · intro segment member
    simp only [List.mem_cons,List.not_mem_nil,or_false] at member
    rcases member with rfl | rfl | rfl | rfl
    · exact octet_clear octetA
    · exact octet_clear octetB
    · exact octet_clear octetC
    · exact octet_clear octetD
  · intro last ends
    cases ends
    exact (octet_bounds octetD).1

theorem quads_inverse : Inverse quads := by
  rintro host ⟨a,b,c,d,⟨smallA,smallB,smallC,smallD⟩,rfl⟩
  have byte : ∀ n, n ≤ 255 → n.toUInt8.toNat = n := by
    intro n small
    simp
    omega
  refine ⟨⟨a.toUInt8,b.toUInt8,c.toUInt8,d.toUInt8⟩,?_,?_⟩
  · unfold quads parseQuad
    dsimp only
    rw [split_dotted ⟨a,smallA,rfl⟩ ⟨b,smallB,rfl⟩ ⟨c,smallC,rfl⟩ ⟨d,smallD,rfl⟩]
    simp only [List.map_cons,List.map_nil,readDigits_decimal]
  · unfold quads printQuad
    dsimp only
    rw [byte a smallA,byte b smallB,byte c smallC,byte d smallD]

theorem loopback_quad : DottedQuad (ascii "127.0.0.1") :=
  ⟨127,0,0,1,by decide,by decide +kernel⟩

theorem equalBytes_kept : KeepsTarget quads (ascii "127.0.0.1") 0x1f1f [0,-111,0] :=
  (keepsTarget_iff quads_inverse loopback_quad 0x1f1f [0,-111,0]).mpr (.inr (by decide))

-- 8080 is 0x1f90: a retry asks for port 0x901f.
theorem retry_moves : ¬ KeepsTarget quads (ascii "127.0.0.1") 8080 [-111,0] ∧
    ((machine quads (ascii "127.0.0.1") 8080).run [-111,0]).toOption.map (fun result => result.2.map SockaddrIn.sinPort) =
      some [htons 8080,8080] := by
  refine ⟨?_,by decide +kernel⟩
  rintro ⟨-,throughout⟩
  obtain ⟨connect,ran⟩ := run_literal quads_inverse loopback_quad 8080 [-111]
  have port := (throughout [-111] [0] _ _ rfl ran).2.1
  exact absurd port (by decide : htons 8080 ≠ 8080)

end CoStream.TcpConnect
