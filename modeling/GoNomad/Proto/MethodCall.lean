import GoNomad.Proto.RoundTrip

/-!
# Calls of methods

A method with the parameters it is called with, and the type its result has.

* `MethodCall.readResult_of_answers` — every result that a method can have is read
  back by its caller.
-/

namespace Proto

open Cbor

/-- A method and what it is called with. -/
inductive MethodCall
  | sysInfo
  | sysRegister (params : SysRegisterParams)
  | fsList (params : FsPathParams)
  | fsRead (params : FsPathParams)
  | ptySpawn (params : PtySpawnParams)
  | ptyInput (params : PtyInputParams)
  | ptyResize (params : PtyResizeParams)
  | ptyScreen (params : PtyIdParams)
  | ptyKill (params : PtyIdParams)
  | ptyList
  deriving DecidableEq

namespace MethodCall

def method : MethodCall → String
  | sysInfo => Method.sysInfo
  | sysRegister _ => Method.sysRegister
  | fsList _ => Method.fsList
  | fsRead _ => Method.fsRead
  | ptySpawn _ => Method.ptySpawn
  | ptyInput _ => Method.ptyInput
  | ptyResize _ => Method.ptyResize
  | ptyScreen _ => Method.ptyScreen
  | ptyKill _ => Method.ptyKill
  | ptyList => Method.ptyList

/-- The parameters as they are written; no parameters are a structure without fields. -/
def params : MethodCall → List UInt8
  | sysInfo | ptyList => MethodCbor.struct []
  | sysRegister params => MethodCbor.registerParams params
  | fsList params | fsRead params => MethodCbor.fsPathParams params
  | ptySpawn params => MethodCbor.ptySpawnParams params
  | ptyInput params => MethodCbor.ptyInputParams params
  | ptyResize params => MethodCbor.ptyResizeParams params
  | ptyScreen params | ptyKill params => MethodCbor.ptyIdParams params

/-- How the caller reads the result. -/
def readResult : MethodCall → Tree → Option MethodResult
  | sysInfo => fun t => (Decode.sysInfoResult t).map .sysInfo
  | sysRegister _ => fun t => (Decode.registerResult t).map .sysRegister
  | fsList _ => fun t => (Decode.fsListResult t).map .fsList
  | fsRead _ => fun t => (Decode.fsReadResult t).map .fsRead
  | ptySpawn _ => fun t => (Decode.ptySpawnResult t).map .ptySpawn
  | ptyScreen _ => fun t => (Decode.screenFrame t).map .ptyScreen
  | ptyList => fun t => (Decode.ptyListResult t).map .ptyList
  | ptyInput _ | ptyResize _ | ptyKill _ => fun t => (Decode.empty t).map fun _ => .empty

/-- A result is one that the method has. -/
def Answers : MethodCall → MethodResult → Prop
  | sysInfo, .sysInfo _ | sysRegister _, .sysRegister _ | fsList _, .fsList _
  | fsRead _, .fsRead _ | ptySpawn _, .ptySpawn _ | ptyScreen _, .ptyScreen _
  | ptyList, .ptyList _ | ptyInput _, .empty | ptyResize _, .empty | ptyKill _, .empty => True
  | _, _ => False

/-- A value that is read back is, also after it was wrapped. -/
theorem codes_map {α β : Type} {depth : Nat} {read : Tree → Option α} {bytes : List UInt8} {a : α}
    (f : α → β) (h : Codes depth read bytes a) :
    Codes depth (fun t => (read t).map f) bytes (f a) := by
  obtain ⟨t, hreads, ht⟩ := h
  exact ⟨t, hreads, by simp [ht]⟩

/-- **Every result of a method is read back.** -/
theorem readResult_of_answers (depth : Nat) {call : MethodCall} {result : MethodResult}
    (h : call.Answers result) :
    Codes (depth + 3) call.readResult (MethodCbor.result result) result := by
  have hempty : Codes (depth + 3) Decode.empty (MethodCbor.result .empty) () := by
    refine codes_record .nil fun t ht => ?_
    simp [Decode.empty, record, ht]
  have hlist : ∀ ids : List UInt64,
      Codes (depth + 3) Decode.ptyListResult (MethodCbor.result (.ptyList ids)) ids := by
    intro ids
    obtain ⟨t₁, hr₁, ht₁⟩ := Decode.codes_list (codes_u64 (depth + 1)) ids
    refine codes_record (.cons (hr₁.field _) .nil) fun t ht => ?_
    simp [Decode.ptyListResult, record, ht, field, one, ht₁]
  cases call <;> cases result <;> first | exact h.elim | skip
  · exact codes_map MethodResult.sysInfo (Decode.codes_sysInfoResult (depth + 1) _)
  · exact codes_map MethodResult.sysRegister (Decode.codes_registerResult (depth + 2) _)
  · exact codes_map MethodResult.fsList (Decode.codes_fsListResult depth _)
  · exact codes_map MethodResult.fsRead (Decode.codes_fsReadResult (depth + 2) _)
  · exact codes_map MethodResult.ptySpawn (Decode.codes_ptySpawnResult depth _)
  · exact codes_map (fun _ => MethodResult.empty) hempty
  · exact codes_map (fun _ => MethodResult.empty) hempty
  · exact codes_map MethodResult.ptyScreen (Decode.codes_screenFrame (depth + 1) _)
  · exact codes_map (fun _ => MethodResult.empty) hempty
  · exact codes_map MethodResult.ptyList (hlist _)

end MethodCall

end Proto
