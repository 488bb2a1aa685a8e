import Mathlib.Data.List.Basic

/-! User-facing errors, and the classification of an error text by the words in it. -/

namespace DistributedOs.Transfer

inductive ErrorKind where
  | peerUnreachable
  | networkUnstable
  | timeout
  | cancelled
  | fileNotFound
  | storageError
  | incompatiblePeer
  | resourceExhausted
  | featureNotSupported
  | checksumMismatch
  | internal
  deriving DecidableEq, Repr

structure TransferError where
  kind : ErrorKind
  message : String
  cause : Option String
  deriving DecidableEq

namespace TransferError

def peerUnreachable (detail : String) : TransferError :=
  { kind := .peerUnreachable
    message := "Peer is not reachable. Make sure both devices are on the same network and the app is running. ("
      ++ detail ++ ")"
    cause := some detail }

def networkUnstable (detail : String) : TransferError :=
  { kind := .networkUnstable
    message := "Network connection is unstable. Try switching to a different network or moving closer to the hotspot."
    cause := some detail }

def timeout (detail : String) : TransferError :=
  { kind := .timeout
    message := "Connection timed out. The peer took too long to respond."
    cause := some detail }

def cancelled (detail : String) : TransferError :=
  { kind := .cancelled, message := "Transfer cancelled: " ++ detail, cause := none }

def fileNotFound (detail : String) : TransferError :=
  { kind := .fileNotFound, message := "File not found: " ++ detail, cause := none }

def storageError (detail : String) : TransferError :=
  { kind := .storageError, message := "Storage error: " ++ detail, cause := some detail }

def incompatible (detail : String) : TransferError :=
  { kind := .incompatiblePeer, message := "Peer is incompatible: " ++ detail, cause := some detail }

def checksumMismatch (detail : String) : TransferError :=
  { kind := .checksumMismatch
    message := "File integrity check failed. The file may be corrupted."
    cause := some detail }

def internal (detail : String) : TransferError :=
  { kind := .internal
    message := "An unexpected error occurred. Please try again."
    cause := some detail }

/-- `to_lowercase`, as far as an ASCII pattern can see it: besides A to Z only the Kelvin
sign and the dotted capital I have a lower case with an ASCII letter in it. -/
def lowercaseChar (letter : Char) : List Char :=
  if 'A' ≤ letter ∧ letter ≤ 'Z' then [Char.ofNat (letter.toNat + 32)]
  else if letter = Char.ofNat 0x212A then ['k']
  else if letter = Char.ofNat 0x130 then ['i', Char.ofNat 0x307]
  else [letter]

def toLowercase (text : String) : List Char := text.toList.flatMap lowercaseChar

def contains (text : List Char) (pattern : String) : Bool :=
  text.tails.any pattern.toList.isPrefixOf

/-- Classify an `anyhow::Error`, given by its text. -/
def fromAnyhow (msg : String) : TransferError :=
  let lower := toLowercase msg
  if contains lower "connection refused" || contains lower "unreachable" ||
      contains lower "no route to host" then
    peerUnreachable msg
  else if contains lower "timeout" || contains lower "timed out" then timeout msg
  else if contains lower "cancelled" || contains lower "cancel" then cancelled msg
  else if contains lower "not found" || contains lower "no such file" then fileNotFound msg
  else if contains lower "permission denied" || contains lower "disk full" ||
      contains lower "storage" then
    storageError msg
  else if contains lower "checksum" || contains lower "integrity" || contains lower "hash mismatch" then
    checksumMismatch msg
  else if contains lower "network" || contains lower "connection" || contains lower "reset" ||
      contains lower "broken pipe" then
    networkUnstable msg
  else if contains lower "incompatible" || contains lower "version" then incompatible msg
  else internal msg

end TransferError

end DistributedOs.Transfer
