import PrivmxEndpoint.StoreTypes

/-!
# Data integrity objects and the user verifier

Every signed record carries a data integrity object: who signed it, when, for
which resource, and with checksums of the record's fields.  Whether the signer
was a member with that key at that time is decided by the application's user
verifier, which is asked about a list of requests and answers with a list of
verdicts.
-/

namespace PrivmxEndpoint

open Word

/-- The code of an exception, never zero: zero is the status of success. -/
abbrev ErrorCode := { code : Nat // code ≠ 0 }

/-- `ENDPOINT_CORE_EXCEPTION_CODE`. -/
def ENDPOINT_CORE_EXCEPTION_CODE : ErrorCode := ⟨0x00010000, by decide⟩

/-- The code of an exception of the core module. -/
def coreCode (code : Nat) : ErrorCode := ⟨0x00010000 + code, by omega⟩

/-- Exceptions as the handlers tell them apart. -/
inductive EndpointException
  /-- `core::Exception`. -/
  | core (code : ErrorCode)
  /-- `utils::PrivmxException`, with the code that `ExceptionConverter` gives it. -/
  | privmx (code : ErrorCode)
  | other
  deriving DecidableEq

/-- The status that the usual three handlers turn an exception into. -/
def EndpointException.statusCode : EndpointException → ErrorCode
  | .core code => code
  | .privmx code => code
  | .other => ENDPOINT_CORE_EXCEPTION_CODE

/-- `std::string::substr` among the endpoint's exceptions. -/
def stringSubstr (s : Bytes) (pos n : Nat) : Except EndpointException Bytes :=
  if pos ≤ s.length then .ok ((s.drop pos).take n) else .error .other

/-- `DataIntegrityObjectDuplicatedException` and others of `CoreException.hpp`. -/
def dataIntegrityObjectDuplicated : ErrorCode := coreCode 0x0013

@[inherit_doc dataIntegrityObjectDuplicated]
def userVerificationFailure : ErrorCode := coreCode 0x000E

@[inherit_doc dataIntegrityObjectDuplicated]
def userVerificationMethodUnhandled : ErrorCode := coreCode 0x000F

@[inherit_doc dataIntegrityObjectDuplicated]
def malformedVerifierResponse : ErrorCode := coreCode 0x0019

@[inherit_doc dataIntegrityObjectDuplicated]
def invalidDataIntegrityObjectChecksum : ErrorCode := coreCode 0x0015

/-- `BridgeIdentity`. -/
structure BridgeIdentity where
  url : Bytes
  pubKey : Option Bytes
  instanceId : Option Bytes
  deriving Repr, DecidableEq

/-- `DataIntegrityObject`. -/
structure DataIntegrityObject where
  creatorUserId : Bytes
  creatorPubKey : Bytes
  contextId : Bytes
  resourceId : Bytes
  timestamp : Int
  randomId : Bytes
  containerId : Option Bytes
  containerResourceId : Option Bytes
  bridgeIdentity : Option BridgeIdentity
  deriving Repr, DecidableEq

/-- The object that the default constructor makes.  Its timestamp is not
initialized; no caller reads it next to a status of zero. -/
def DataIntegrityObject.empty : DataIntegrityObject where
  creatorUserId := []
  creatorPubKey := []
  contextId := []
  resourceId := []
  timestamp := 0
  randomId := []
  containerId := none
  containerResourceId := none
  bridgeIdentity := none

/-- `ExpandedDataIntegrityObject`. -/
structure ExpandedDataIntegrityObject extends DataIntegrityObject where
  structureVersion : Int
  fieldChecksums : List (String × Bytes)
  deriving Repr, DecidableEq

/-- `fieldChecksums.at(field)`; `std::out_of_range` is none of the library's own
exceptions. -/
def checksumAt (checksums : List (String × Bytes)) (field : String) :
    Except EndpointException Bytes :=
  match checksums.lookup field with
  | none => .error .other
  | some checksum => .ok checksum

/-- `VerificationRequest`. -/
structure VerificationRequest where
  contextId : Bytes
  senderId : Bytes
  senderPubKey : Bytes
  date : Int
  bridgeIdentity : Option BridgeIdentity
  deriving Repr, DecidableEq

/-- The application's `UserVerifierInterface`; `none` is an exception. -/
abbrev UserVerifierInterface := List VerificationRequest → Option (List Bool)

/-- `UserVerifier::verify`. -/
def UserVerifier.verify (userVerifier : UserVerifierInterface)
    (request : List VerificationRequest) : Except EndpointException (List Bool) :=
  match userVerifier request with
  | none => .error (.core userVerificationMethodUnhandled)
  | some result =>
      if result.length ≠ request.length then
        .error (.core malformedVerifierResponse)
      else
        .ok result

/-- Verdicts come one for each request. -/
theorem UserVerifier.length_verify {userVerifier : UserVerifierInterface}
    {request : List VerificationRequest} {verified : List Bool}
    (h : UserVerifier.verify userVerifier request = .ok verified) :
    verified.length = request.length := by
  unfold UserVerifier.verify at h
  split at h
  · cases h
  · split at h
    · cases h
    · cases h
      omega

/-- `TimestampValidator::TIMESTAMP_ALLOWED_DELTA`, in milliseconds. -/
def TIMESTAMP_ALLOWED_DELTA : Int := 5 * 60 * 1000

/-- A number as a 64-bit signed one. -/
def wrapInt64 (z : Int) : Int := toInt64 (ofInt64 z)

/-- `TimestampValidator::validate`. -/
def TimestampValidator.validate (clientTimestamp serverTimestamp : Int) : Bool :=
  decide (wrapInt64 |wrapInt64 (serverTimestamp - clientTimestamp)| < TIMESTAMP_ALLOWED_DELTA)

end PrivmxEndpoint
