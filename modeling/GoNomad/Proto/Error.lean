import GoNomad.Proto.Capability
import GoNomad.Proto.Ids

/-!
# Protocol errors

The closed set of failures that can cross the wire, and an error with the
request it belongs to.
-/

namespace Proto

/-- What went wrong, in a form the client can act on. -/
inductive ErrorKind
  | denied (capability : Capability)
  | notFound
  | conflict (currentHash : Digest)
  | rateLimited (retryAfterMs : UInt32)
  | resourceExhausted (resource : String) (limit : UInt32)
  | unsupported (feature : String) (sinceVersion : Option UInt32)
  | presenceRequired (challenge : Digest)
  | cancelled
  | badRequest (detail : String)
  | internal (traceId : String)
  deriving DecidableEq

/-- A protocol error, optionally naming the request it belongs to. -/
structure ProtoError where
  kind : ErrorKind
  correlationId : Option UInt64
  deriving DecidableEq

namespace ProtoError

/-- Wraps a kind with no correlation id. -/
def new (kind : ErrorKind) : ProtoError := ⟨kind, none⟩

def denied (capability : Capability) : ProtoError := new (.denied capability)

def notFound : ProtoError := new .notFound

def rateLimited (retryAfterMs : UInt32) : ProtoError := new (.rateLimited retryAfterMs)

def presenceRequired (challenge : Digest) : ProtoError := new (.presenceRequired challenge)

def badRequest (detail : String) : ProtoError := new (.badRequest detail)

def internal (traceId : String) : ProtoError := new (.internal traceId)

end ProtoError

end Proto
