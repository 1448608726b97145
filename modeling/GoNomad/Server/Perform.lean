import GoNomad.Proto.MethodCall
import GoNomad.Server.Router

/-!
# What the methods do

The router as it would be without bytes in between: from a call with its parameters
to a result, with the same calls of services.

* `Faithful.bind` — a handler is as faithful as its parts;
* `serve_answer` — every handler does what the call asks and answers in bytes that
  the caller reads as the result;
* `dispatch_perform` — so does the router, whatever state it is in.
-/

namespace Server

open Proto Policy Store Cbor

/-- Parameters are read and results written as both ends agree. -/
def Codec.cbor : Codec where
  register := Decode.fromReader Decode.registerParams
  fsPath := Decode.fromReader Decode.fsPathParams
  ptySpawn := Decode.fromReader Decode.ptySpawnParams
  ptyInput := Decode.fromReader Decode.ptyInputParams
  ptyResize := Decode.fromReader Decode.ptyResizeParams
  ptyId := Decode.fromReader Decode.ptyIdParams
  result := fun result => some (MethodCbor.result result)

namespace Router

variable {σ : Type} (services : Services σ)

/-! ### Without bytes -/

/-- What a method other than registration answers. -/
def answer (r : Router) : MethodCall → Handler σ MethodResult
  | .sysInfo => do
      let shells ← Handler.ask .detectShells services.detect
      pure (.sysInfo
        { hostName := r.daemon.hostName, daemonVersion := r.daemon.daemonVersion,
          os := r.daemon.os, capabilities := r.capabilities,
          workspaceRoots := r.daemon.workspaceRoots, shells })
  | .fsList params => do
      let entries ← Handler.ask (.fsList r.grant params.path) (services.list r.grant params.path)
      let entries ← entries
      pure (.fsList ⟨params.path, entries⟩)
  | .fsRead params => do
      let content ← Handler.ask (.fsRead r.grant params.path) (services.read r.grant params.path)
      let content ← content
      pure (.fsRead content)
  | .ptySpawn params => do
      r.require .ptySpawn
      let cwd ← r.spawnDir services params.cwd
      let shell ← spawnShell services params.shell
      let id ← Handler.call (.ptySpawn shell cwd params.cols params.rows)
        (services.spawn shell cwd params.cols params.rows)
      let id ← Handler.ofPty id
      let screen ← Handler.ask (.ptyScreen id) (services.screen id)
      let screen ← Handler.ofPty screen
      let shellId ← Handler.ask (.ptyShellOf id) (services.shellOf id)
      pure (.ptySpawn ⟨id, screen, shellId.getD "unknown"⟩)
  | .ptyInput params => do
      r.require .ptySpawn
      let data := utf8 params.data
      let done ← Handler.call (.ptyWrite params.ptyId data) (services.write params.ptyId data)
      Handler.ofPty done
      pure .empty
  | .ptyResize params => do
      r.require .ptySpawn
      let done ← Handler.call (.ptyResize params.ptyId params.cols params.rows)
        (services.resize params.ptyId params.cols params.rows)
      Handler.ofPty done
      pure .empty
  | .ptyScreen params => do
      r.require .ptySpawn
      let screen ← Handler.ask (.ptyScreen params.ptyId) (services.screen params.ptyId)
      let screen ← Handler.ofPty screen
      pure (.ptyScreen screen)
  | .ptyKill params => do
      r.require .ptySpawn
      let done ← Handler.call (.ptyKill params.ptyId) (services.kill params.ptyId)
      Handler.ofPty done
      pure .empty
  | .ptyList => do
      r.require .ptySpawn
      let ids ← Handler.ask .ptyList services.ptys
      pure (.ptyList ids)
  | .sysRegister _ => throw (.new (.unsupported Method.sysRegister none))

/-- What a call does on a connection. -/
def perform (r : Router) (call : MethodCall) (w : World σ) :
    Except ProtoError (MethodResult × Effect) × Router × World σ :=
  match r.state, call with
  | .pairing expectedSas, .sysRegister params =>
      if asciiDigits params.sas ≠ expectedSas then
        (.error (.badRequest "pairing code mismatch"), r, w)
      else
        let deviceId := fromPublicKey r.peerKey
        (.ok (.sysRegister ⟨deviceId.toHex, .defaultGrant⟩,
            .registered r.peerKey params.deviceName params.deviceModel),
          { r with grant := some (newlyPaired deviceId), state := .established }, w)
  | .pairing _, _ => (.error (.denied .fsRead), r, w)
  | .established, .sysRegister _ =>
      (.error (.new (.unsupported "sys.register outside a pairing window" none)), r, w)
  | .established, call =>
      match r.answer services call w with
      | (result, w') => (result.map fun result => (result, .none), r, w')

/-! ### With bytes -/

/-- Bytes that the caller reads as a result, or the error itself. -/
inductive ReadAs (call : MethodCall) : Except ProtoError (List UInt8) →
    Except ProtoError MethodResult → Prop
  | ok {bytes : List UInt8} {result : MethodResult}
      (codes : Codes Decode.recursionLimit call.readResult bytes result) :
      ReadAs call (.ok bytes) (.ok result)
  | error (error : ProtoError) : ReadAs call (.error error) (.error error)

/-- A handler of bytes does what another does, and its answer is read as the other's. -/
def Faithful (call : MethodCall) (x : Handler σ (List UInt8)) (y : Handler σ MethodResult) : Prop :=
  ∀ w, ReadAs call (x w).1 (y w).1 ∧ (x w).2 = (y w).2

variable {services} {call : MethodCall}

/-- **Handlers that begin alike** are as faithful as what follows. -/
theorem Faithful.bind {α : Type} (m : Handler σ α) {f : α → Handler σ (List UInt8)}
    {g : α → Handler σ MethodResult} (h : ∀ a, Faithful call (f a) (g a)) :
    Faithful call (m >>= f) (m >>= g) := by
  intro w
  have hbind : ∀ {β : Type} (k : α → Handler σ β), (m >>= k) w =
      match m w with
      | (.ok a, w') => k a w'
      | (.error e, w') => (.error e, w') := by
    intro β k
    simp only [Bind.bind, ExceptT.bind, ExceptT.mk, StateT.bind, ExceptT.bindCont]
    rcases m w with ⟨a | a, w'⟩ <;> rfl
  rw [hbind f, hbind g]
  rcases m w with ⟨e | a, w'⟩
  · exact ⟨.error e, rfl⟩
  · exact h a w'

/-- Parameters are read as they were written. -/
theorem decode_params {α : Type} {read : Tree → Option α} {bytes : List UInt8} {params : α}
    (h : Codes Decode.recursionLimit read bytes params) (hlen : bytes.length ≤ Cbor.u64Max) :
    Codec.decode (Decode.fromReader read) bytes = .ok params := by
  have hread := Decode.fromReader_of_codes h hlen []
  rw [List.append_nil] at hread
  unfold Codec.decode
  rw [hread]

/-- A handler that begins with reading its parameters. -/
theorem Faithful.params {α : Type} {read : Tree → Option α} {bytes : List UInt8} {params : α}
    {f : α → Handler σ (List UInt8)} {y : Handler σ MethodResult}
    (hcodes : Codes Decode.recursionLimit read bytes params) (hlen : bytes.length ≤ Cbor.u64Max)
    (h : Faithful call (f params) y) :
    Faithful call (liftM (Codec.decode (Decode.fromReader read) bytes) >>= f) y := by
  rw [decode_params hcodes hlen]
  exact h

/-- The answer is written. -/
theorem Faithful.encode {result : MethodResult} (h : call.Answers result) :
    Faithful (σ := σ) call (liftM (Codec.cbor.encode result)) (pure result) :=
  fun _ => ⟨.ok (MethodCall.readResult_of_answers 253 h), rfl⟩

/-- **Every handler does what its call asks.** -/
theorem serve_answer (r : Router) (hcall : ∀ params, call ≠ .sysRegister params) (id : UInt64)
    (hlen : call.params.length ≤ Cbor.u64Max) :
    Faithful call (r.serve services Codec.cbor ⟨id, call.method, call.params⟩)
      (r.answer services call) := by
  cases call with
  | sysInfo => exact .bind _ fun _ => .encode trivial
  | sysRegister params => exact absurd rfl (hcall params)
  | fsList params =>
      refine .params (Decode.codes_fsPathParams 255 params) hlen ?_
      exact .bind _ fun entries => .bind _ fun entries => .encode trivial
  | fsRead params =>
      refine .params (Decode.codes_fsPathParams 255 params) hlen ?_
      exact .bind _ fun content => .bind _ fun content => .encode trivial
  | ptySpawn params =>
      refine .bind _ fun _ => .params (Decode.codes_ptySpawnParams 255 params) hlen ?_
      exact .bind _ fun cwd => .bind _ fun shell => .bind _ fun id => .bind _ fun id =>
        .bind _ fun screen => .bind _ fun screen => .bind _ fun shellId => .encode trivial
  | ptyInput params =>
      refine .bind _ fun _ => .params (Decode.codes_ptyInputParams 255 params) hlen ?_
      exact .bind _ fun done => .bind _ fun _ => .encode trivial
  | ptyResize params =>
      refine .bind _ fun _ => .params (Decode.codes_ptyResizeParams 255 params) hlen ?_
      exact .bind _ fun done => .bind _ fun _ => .encode trivial
  | ptyScreen params =>
      refine .bind _ fun _ => .params (Decode.codes_ptyIdParams 255 params) hlen ?_
      exact .bind _ fun screen => .bind _ fun screen => .encode trivial
  | ptyKill params =>
      refine .bind _ fun _ => .params (Decode.codes_ptyIdParams 255 params) hlen ?_
      exact .bind _ fun done => .bind _ fun _ => .encode trivial
  | ptyList => exact .bind _ fun _ => .bind _ fun ids => .encode trivial

/-- The same answer with bytes and without, and the same for the connection loop to do. -/
inductive Performed (call : MethodCall) : Except ProtoError (List UInt8 × Effect) →
    Except ProtoError (MethodResult × Effect) → Prop
  | ok {bytes : List UInt8} {result : MethodResult} (effect : Effect)
      (codes : Codes Decode.recursionLimit call.readResult bytes result) :
      Performed call (.ok (bytes, effect)) (.ok (result, effect))
  | error (error : ProtoError) : Performed call (.error error) (.error error)

theorem method_mem (call : MethodCall) : call.method ∈ Method.all := by
  cases call <;> simp [MethodCall.method, Method.all]

theorem method_eq_sysRegister {call : MethodCall} :
    call.method = Method.sysRegister ↔ ∃ params, call = .sysRegister params := by
  cases call <;> simp [MethodCall.method] <;> decide

/-- The digits are compared as they were sent. -/
theorem sysRegister_params (r : Router) {expectedSas : String} (hstate : r.state = .pairing expectedSas)
    (params : SysRegisterParams) (id : UInt64)
    (hlen : (MethodCbor.registerParams params).length ≤ Cbor.u64Max) :
    r.sysRegister Codec.cbor ⟨id, Method.sysRegister, MethodCbor.registerParams params⟩ =
      if asciiDigits params.sas ≠ expectedSas then
        (.error (.badRequest "pairing code mismatch"), r)
      else
        (.ok (MethodCbor.registerResult ⟨(fromPublicKey r.peerKey).toHex, .defaultGrant⟩,
            .registered r.peerKey params.deviceName params.deviceModel),
          { r with grant := some (newlyPaired (fromPublicKey r.peerKey)), state := .established }) := by
  have hread : Codec.decode Codec.cbor.register (MethodCbor.registerParams params) = .ok params :=
    decode_params (Decode.codes_registerParams 255 params) hlen
  simp only [sysRegister, hread, hstate]
  rfl

/-- While it pairs, the router does nothing but register. -/
theorem dispatch_of_pairing {r : Router} {expectedSas : String} (hstate : r.state = .pairing expectedSas)
    {call : MethodCall} (hmethod : call.method ≠ Method.sysRegister) (id : UInt64) (w : World σ) :
    r.dispatch services Codec.cbor ⟨id, call.method, call.params⟩ w =
      (.error (.denied .fsRead), r, w) := by
  have hpairing : r.isPairing = true := by
    unfold isPairing
    rw [hstate]
  unfold dispatch
  rw [if_neg (not_not.mpr (method_mem call)), if_pos ⟨hpairing, hmethod⟩]

/-- Once it has paired, it does everything else. -/
theorem dispatch_of_established {r : Router} (hstate : r.state = .established) {call : MethodCall}
    (hmethod : call.method ≠ Method.sysRegister) (id : UInt64) (w : World σ) :
    r.dispatch services Codec.cbor ⟨id, call.method, call.params⟩ w =
      match r.serve services Codec.cbor ⟨id, call.method, call.params⟩ w with
      | (result, w') => (result.map fun bytes => (bytes, .none), r, w') := by
  have hpairing : ¬ r.isPairing = true := by
    unfold isPairing
    rw [hstate]
    decide
  unfold dispatch
  rw [if_neg (not_not.mpr (method_mem call)), if_neg fun h => hpairing h.1,
    if_neg fun h => hmethod h.2]
  exact if_neg hmethod

/-- **The router does what the call asks**, in every state. -/
theorem dispatch_perform (services : Services σ) (r : Router) (call : MethodCall) (id : UInt64)
    (hlen : call.params.length ≤ Cbor.u64Max) (w : World σ) :
    Performed call (r.dispatch services Codec.cbor ⟨id, call.method, call.params⟩ w).1
        (r.perform services call w).1 ∧
      (r.dispatch services Codec.cbor ⟨id, call.method, call.params⟩ w).2 =
        (r.perform services call w).2 := by
  by_cases hregister : ∃ params, call = .sysRegister params
  · obtain ⟨params, rfl⟩ := hregister
    unfold dispatch perform
    rw [if_neg (not_not.mpr (method_mem _))]
    cases hstate : r.state with
    | pairing expectedSas =>
        have hparams := sysRegister_params r hstate params id hlen
        simp only [isPairing, hstate, MethodCall.method, MethodCall.params, hparams]
        by_cases hdigits : asciiDigits params.sas = expectedSas
        · simp only [hdigits, ne_eq, not_true_eq_false, if_false, if_true]
          exact ⟨.ok _ (@MethodCall.readResult_of_answers 253 (.sysRegister params) (.sysRegister _)
            trivial), rfl⟩
        · simp only [hdigits, ne_eq, not_false_eq_true, if_true]
          exact ⟨.error _, rfl⟩
    | established =>
        simp only [isPairing, hstate, MethodCall.method]
        exact ⟨.error _, rfl⟩
  · have hmethod : call.method ≠ Method.sysRegister := fun h =>
      hregister (method_eq_sysRegister.mp h)
    have hcall : ∀ params, call ≠ .sysRegister params := fun params h => hregister ⟨params, h⟩
    cases hstate : r.state with
    | pairing expectedSas =>
        have hperform : r.perform services call w = (.error (.denied .fsRead), r, w) := by
          unfold perform
          cases call with
          | sysRegister params => exact absurd rfl (hcall params)
          | _ => simp only [hstate]
        rw [dispatch_of_pairing hstate hmethod, hperform]
        exact ⟨.error _, rfl⟩
    | established =>
        have hperform : r.perform services call w =
            match r.answer services call w with
            | (result, w') => (result.map fun result => (result, .none), r, w') := by
          unfold perform
          cases call with
          | sysRegister params => exact absurd rfl (hcall params)
          | _ => simp only [hstate]
        obtain ⟨hread, hworld⟩ := @serve_answer σ services call r hcall id hlen w
        rw [dispatch_of_established hstate hmethod, hperform]
        revert hread hworld
        rcases r.serve services Codec.cbor ⟨id, call.method, call.params⟩ w with ⟨x, w₁⟩
        rcases r.answer services call w with ⟨y, w₂⟩
        rintro hread hworld
        obtain rfl : w₁ = w₂ := hworld
        cases hread with
        | ok codes => exact ⟨.ok _ codes, rfl⟩
        | error error => exact ⟨.error _, rfl⟩

end Router

end Server
