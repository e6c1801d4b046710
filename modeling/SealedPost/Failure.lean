import SealedPost.ClientId
import SealedPost.Text.Base64
import SealedPost.FileFault

/-! What can go wrong between a client, its relay, its keys and its files, and how it is worded. -/
namespace SealedPost

inductive FramingFault where
  | requestHeader (got : Nat)
  | responseHeader (got : Nat)
  | closedEarly
  | stated (reason : String)
deriving DecidableEq

/-- Why a cryptographic operation other than decryption failed. -/
inductive CryptoFault where
  | publicKeyNotDer
  | publicKeyMalformed
  | privateKeyUnreadable
  | symmetricKeySize (got : Nat)
  | messageTooLong
  | stated (reason : String)
deriving DecidableEq

inductive DecryptionFault where
  | rsa
  | rsaArithmetic
  | aes
  | keySize (got : Nat)
  | stated (reason : String)
deriving DecidableEq

inductive IdentityField where
  | username
  | clientId
  | privateKey
deriving DecidableEq

inductive ConfigFault where
  | clientId (text : String) (fault : Hex.Fault)
  | base64 (fault : Base64.Fault)
  | missingHost (line : String)
  | port (line : String) (fault : Decimal.Fault)
  | serverFile (path : String) (fault : FileFault)
  | emptyServerFile (path : String)
  | identityFile (path : String) (fault : FileFault)
  | missingField (path : String) (field : IdentityField)
  | attachment (path : String) (fault : FileFault)
  | stated (reason : String)
deriving DecidableEq

/-- Something that ends a request, an action or the reading of one message. -/
inductive Failure where
  | framing (fault : FramingFault)
  | truncatedPayload (expected : Nat)
  | serverRejected
  | unexpectedResponse (expected actual : UInt16)
  | transport (reason : String)
  | decryption (fault : DecryptionFault)
  | channelNotEstablished (peer : ClientId)
  | peerNotFound (name : String)
  | notRegistered
  | alreadyRegistered (name : String)
  | invalidPublicKey (expected actual : Nat)
  | payloadTooLarge (size : Nat)
  | crypto (fault : CryptoFault)
  | config (fault : ConfigFault)
  | missingInput (what : String)
  | random
deriving DecidableEq

def FramingFault.message : FramingFault → String
  | .requestHeader got => "request header needs 23 bytes, got " ++ Decimal.text got
  | .responseHeader got => "response header needs 7 bytes, got " ++ Decimal.text got
  | .closedEarly => "connection closed before the response header was complete"
  | .stated reason => reason

def CryptoFault.message : CryptoFault → String
  | .publicKeyNotDer => "Public key is not a DER structure"
  | .publicKeyMalformed => "Public key is malformed"
  | .privateKeyUnreadable => "RSA key loading failed"
  | .symmetricKeySize got => "Invalid AES key size: expected 16 bytes, got " ++ Decimal.text got
  | .messageTooLong => "message too long"
  | .stated reason => reason

def CryptoFault.sentence (fault : CryptoFault) : String :=
  "Cryptographic operation failed: " ++ fault.message

def DecryptionFault.message : DecryptionFault → String
  | .rsa => "RSA decryption failed: decryption error"
  | .rsaArithmetic => "RSA decryption failed: internal error"
  | .aes => "AES decryption failed"
  | .keySize got => (CryptoFault.symmetricKeySize got).sentence
  | .stated reason => reason

def IdentityField.name : IdentityField → String
  | .username => "username"
  | .clientId => "client id"
  | .privateKey => "private key"

def ConfigFault.message : ConfigFault → String
  | .clientId text fault => "Invalid client id " ++ Text.quoted text ++ ": " ++ fault.message
  | .base64 fault => "Invalid Base64: " ++ fault.message
  | .missingHost line => "Missing host in " ++ Text.quoted line
  | .port line fault => "Invalid port in " ++ Text.quoted line ++ ": " ++ fault.message
  | .serverFile path fault => "Could not open " ++ path ++ ": " ++ fault.message
  | .emptyServerFile path => path ++ " is empty"
  | .identityFile path fault => path ++ ": " ++ fault.message
  | .missingField path field => path ++ ": missing " ++ field.name
  | .attachment path fault => "file not found: " ++ path ++ ": " ++ fault.message
  | .stated reason => reason

namespace Failure

def message : Failure → String
  | .framing fault => "Invalid response header: " ++ fault.message
  | .truncatedPayload expected => "Response payload truncated: expected " ++ Decimal.text expected ++ " bytes"
  | .serverRejected => "Server responded with an error"
  | .unexpectedResponse expected actual =>
    "Unexpected response code " ++ Decimal.text actual.toNat ++
      " (expected " ++ Decimal.text expected.toNat ++ ")"
  | .transport reason => "Transport error: " ++ reason
  | .decryption fault => "Decryption failed: " ++ fault.message
  | .channelNotEstablished peer => "No symmetric key established with " ++ peer.hex
  | .peerNotFound name => "Client not found: " ++ name
  | .notRegistered => "Client is not registered"
  | .alreadyRegistered name => "Already registered as " ++ name
  | .invalidPublicKey expected actual =>
    "Invalid public key size: expected " ++ Decimal.text expected ++
      " bytes, got " ++ Decimal.text actual
  | .payloadTooLarge size => "Payload of " ++ Decimal.text size ++ " bytes exceeds the protocol limit"
  | .crypto fault => fault.sentence
  | .config fault => "Configuration error: " ++ fault.message
  | .missingInput what => "No " ++ what ++ " given"
  | .random => "Random number generation failed"

/-- Whether the connection is of no further use. The other failures are local to one message or one
action. -/
def isConnectionFatal : Failure → Bool
  | .framing _ | .truncatedPayload _ | .serverRejected | .unexpectedResponse _ _ | .transport _ => true
  | _ => false

end Failure

end SealedPost
