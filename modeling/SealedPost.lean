import SealedPost.Cipher.KeyGeneration
import SealedPost.Cipher.Supply
import SealedPost.Cipher.Transparent
import SealedPost.Desktop
import SealedPost.Link.Scripted
import SealedPost.Main
import SealedPost.Options
import SealedPost.Relay
import SealedPost.Proofs.Absorption
import SealedPost.Proofs.Framing
import SealedPost.Proofs.Requests
import SealedPost.Proofs.Records
import SealedPost.Proofs.Utf8
import SealedPost.Proofs.Lines
import SealedPost.Proofs.Hex
import SealedPost.Proofs.Base64
import SealedPost.Proofs.Listings
import SealedPost.Proofs.Batches
import SealedPost.Proofs.History
import SealedPost.Proofs.FailedOperations
import SealedPost.Proofs.Scripts
import SealedPost.Proofs.Discipline
import SealedPost.Proofs.KeyHistory
import SealedPost.Proofs.Sealing
import SealedPost.Proofs.Network
import SealedPost.Proofs.Consistency
import SealedPost.Proofs.Lanes
import SealedPost.Proofs.Delivery
import SealedPost.Proofs.Agreement
import SealedPost.Proofs.IdentityFile
import SealedPost.Proofs.Files
import SealedPost.Proofs.Registration
import SealedPost.Proofs.LifeCycle
import SealedPost.Proofs.Responses
import SealedPost.Proofs.KeyWrapping
import SealedPost.Proofs.Aes
import SealedPost.Proofs.Cbc
import SealedPost.Proofs.Der
import SealedPost.Proofs.KeyForm
import SealedPost.Proofs.Oaep
import SealedPost.Proofs.Rsa
import SealedPost.Proofs.Unwrapping
import SealedPost.Proofs.SavedIdentity
import SealedPost.Proofs.Names
import SealedPost.Proofs.Finding
import SealedPost.Proofs.Endpoints
import SealedPost.Proofs.Showing
import SealedPost.Proofs.Turns
import SealedPost.Proofs.Bounds
import SealedPost.Proofs.Headers
import SealedPost.Proofs.KeyRing
