import CoStream.SslServer

namespace CoStream
open Foundation

-- The client of a connection whose handshake is done; it keeps nothing but
-- OpenSSL's own state.
namespace SslClient
variable {δ σ : Type} (library : OpenSsl δ σ)

-- The do loop reads until OpenSSL has nothing left.
def readAll : Nat → σ → Except Fault (Int × σ × List SslOutput)
  | 0,_ => .error .endless
  | fuel+1,ssl =>
    match library.read sslDefRecvBufferSize ssl with
    | (.data plaintext,ssl) => do
      let (ret,ssl,later) ← readAll fuel ssl
      return (ret,ssl,.plaintextDataRecv plaintext::later)
    | (.failed r0 r1,ssl) => .ok (if r0 = -1 ∧ r1 = .wantRead then 0 else -1,ssl,[])

def handleSslDataRecv (fuel : Nat) (ssl : σ) (data : δ) : Except Fault (Int × σ × List SslOutput) :=
  let (ssl,earlier) :=
    match library.read sslDefRecvBufferSize ssl with
    | (.data plaintext,ssl) => (ssl,[.plaintextDataRecv plaintext])
    | (.failed _ _,ssl) => (ssl,[])
  let (r0,ssl) := library.bioWrite data ssl
  if r0 ≤ 0 then .ok (-1,ssl,earlier)
  else do
    let (ret,ssl,later) ← readAll library fuel ssl
    return (ret,ssl,earlier++later)

def machine (fuel : Nat) (start : σ) : Machine σ δ SslOutput Fault :=
  ⟨start,fun ssl data => (handleSslDataRecv library fuel ssl data).map Prod.snd⟩

end SslClient
end CoStream
