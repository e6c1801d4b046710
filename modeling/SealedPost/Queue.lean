import SealedPost.ClientId
import SealedPost.Wire.Code

/-! Messages that wait at the relay, and the bytes that carry a queue of them. -/
namespace SealedPost

structure QueuedMessage where
  messageId : UInt32
  sender : ClientId
  kind : MessageKind
  content : Bytes
deriving DecidableEq

namespace QueuedMessage

def headerSize : Nat := 25

/-- Sender (16), message id (4), kind (1), content size (4) and content. -/
def encode (m : QueuedMessage) : Bytes :=
  m.sender.toBytes ++ Bytes.ofNatLE 4 m.messageId.toNat ++ m.kind.byte ::
    Bytes.ofNatLE 4 m.content.length ++ m.content

/-- The first message of a queue and what follows it. There is none when the header or the content that it
announces does not fit. -/
def next? (bs : Bytes) : Option (QueuedMessage × Bytes) :=
  let size := Bytes.natLE ((bs.drop 21).take 4)
  if bs.length < headerSize + size then none
  else some ({
    messageId := UInt32.ofNat (Bytes.natLE ((bs.drop 16).take 4))
    sender := ⟨Block.fit 16 bs⟩
    kind := MessageKind.ofByte ((bs.drop 20).headD 0)
    content := (bs.drop headerSize).take size }, bs.drop (headerSize + size))

theorem next?_shorter {bs rest : Bytes} {m : QueuedMessage} (h : next? bs = some (m, rest)) :
    rest.length < bs.length := by
  simp only [next?] at h
  split at h
  · exact nomatch h
  · simp only [Option.some.injEq, Prod.mk.injEq] at h
    rw [← h.2, List.length_drop]
    simp only [headerSize] at *
    omega

end QueuedMessage

/-- The messages of a queue in order. A message that does not fit ends the list and drops all after it. -/
def parseQueue (payload : Bytes) : List QueuedMessage :=
  match _h : QueuedMessage.next? payload with
  | none => []
  | some (m, rest) => m :: parseQueue rest
termination_by payload.length
decreasing_by exact QueuedMessage.next?_shorter _h

end SealedPost
