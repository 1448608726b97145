import GoNomad.Client.Session
import GoNomad.Proto.MethodCall
import GoNomad.Transport.Mux

/-!
# One call, as the app makes it

A request in one frame that crosses every transport, and what the app reads from
the body of the response.
-/

namespace Client

open Proto Mux

inductive EncodeError
  | frame (error : FrameError)
  | tooLarge (len max : Nat)
  deriving DecidableEq

/-- Encodes one request, refusing anything that cannot cross this transport. -/
def encodeRequest (id : UInt64) (method : String) (params : List UInt8) :
    Except EncodeError Frame :=
  match Frame.new .last (MethodCbor.controlMessage (.request ⟨id, method, params⟩)) with
  | .error error => .error (.frame error)
  | .ok frame =>
      if MuxConfig.default.maxFrameLen < frame.payload.length then
        .error (.tooLarge frame.payload.length MuxConfig.default.maxFrameLen)
      else .ok frame

inductive CallError
  | remote (error : ProtoError)
  /-- The result is not what this app expects. -/
  | malformed
  deriving DecidableEq

/-- Decodes a method result. -/
def decodeResult (call : MethodCall) (bytes : List UInt8) : Except CallError MethodResult :=
  match Decode.fromReader call.readResult bytes with
  | some result => .ok result
  | none => .error .malformed

/-- What the caller has once its response is there; a progress is not one. -/
def received (call : MethodCall) (body : ResponseBody) : Option (Except CallError MethodResult) :=
  match replyOf body with
  | some (.ok bytes) => some (decodeResult call bytes)
  | some (.error error) => some (.error (.remote error))
  | none => none

end Client
