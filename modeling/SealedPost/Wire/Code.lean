/-! The codes on the wire: what a request asks, what a response answers, and what a message holds. -/
namespace SealedPost

def protocolVersion : UInt8 := 2

inductive RequestCode where
  | register
  | clientList
  | publicKey
  | sendMessage
  | waitingMessages
deriving DecidableEq

namespace RequestCode

def number : RequestCode → UInt16
  | register => 600
  | clientList => 601
  | publicKey => 602
  | sendMessage => 603
  | waitingMessages => 604

def ofNumber? (n : UInt16) : Option RequestCode :=
  if n = 600 then some register
  else if n = 601 then some clientList
  else if n = 602 then some publicKey
  else if n = 603 then some sendMessage
  else if n = 604 then some waitingMessages
  else none

@[simp] theorem ofNumber?_number (c : RequestCode) : ofNumber? c.number = some c := by
  cases c <;> rfl

end RequestCode

inductive ResponseCode where
  | registerOk
  | clientList
  | publicKey
  | messageSent
  | waitingMessages
  | generalError
deriving DecidableEq

namespace ResponseCode

def number : ResponseCode → UInt16
  | registerOk => 2100
  | clientList => 2101
  | publicKey => 2102
  | messageSent => 2103
  | waitingMessages => 2104
  | generalError => 9000

def ofNumber? (n : UInt16) : Option ResponseCode :=
  if n = 2100 then some registerOk
  else if n = 2101 then some clientList
  else if n = 2102 then some publicKey
  else if n = 2103 then some messageSent
  else if n = 2104 then some waitingMessages
  else if n = 9000 then some generalError
  else none

@[simp] theorem ofNumber?_number (c : ResponseCode) : ofNumber? c.number = some c := by
  cases c <;> rfl

end ResponseCode

/-- What a relayed message holds. A byte outside the known kinds is kept, so that the message is not lost. -/
inductive MessageKind where
  | keyRequest
  | keySend
  | text
  | file
  | unknown (byte : UInt8)
deriving DecidableEq

namespace MessageKind

def byte : MessageKind → UInt8
  | keyRequest => 1
  | keySend => 2
  | text => 3
  | file => 4
  | unknown b => b

def ofByte (b : UInt8) : MessageKind :=
  if b = 1 then keyRequest
  else if b = 2 then keySend
  else if b = 3 then text
  else if b = 4 then file
  else unknown b

@[simp] theorem byte_ofByte (b : UInt8) : (ofByte b).byte = b := by
  unfold ofByte
  split
  · simp [byte, *]
  · split
    · simp [byte, *]
    · split
      · simp [byte, *]
      · split <;> simp [byte, *]

end MessageKind

end SealedPost
