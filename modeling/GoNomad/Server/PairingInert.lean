import GoNomad.Proto.MethodCbor
import GoNomad.Server.Router

/-!
# A pairing connection is inert

A router that is pairing refuses everything until the digits are confirmed, and
what it was created with does not change before.

* `dispatch_pairing`, `dispatch_established` — what one request does;
* `phase_of_run` — a router is inert, then registers once, then serves;
* `pairing_inert` — what that means for every sequence of requests.
-/

namespace Server

open Proto Policy Store Transition

namespace Router

variable {σ : Type} {services : Services σ} {codec : Codec} {daemon : Daemon} {peer : PublicKey}
  {sas : String}

/-- An answered request. -/
abbrev Exchange := Request × (Response × Effect)

/-- Requests are handled one after the other. -/
def step (services : Services σ) (codec : Codec) (s : Router × World σ) (request : Request) :
    Option ((Router × World σ) × (Response × Effect)) :=
  match s.1.handle services codec request s.2 with
  | (answer, next) => some (next, answer)

/-- The answer is an error, and there is nothing to do. -/
def Refused (entry : Exchange) : Prop :=
  (∃ error, entry.2.1.body = .error error) ∧ entry.2.2 = .none

/-- A registration with the digits that this side derived has gone through. -/
def Confirms (codec : Codec) (sas : String) (entry : Exchange) : Prop :=
  entry.1.method = Method.sysRegister ∧
    (∃ params, codec.register entry.1.params = some params ∧ asciiDigits params.sas = sas) ∧
    ∃ result, entry.2.1.body = .ok result

/-- The encoding of a registration's result does not fail. -/
def EncodesRegistration (codec : Codec) : Prop :=
  ∀ result, codec.result (.sysRegister result) ≠ none

/-- The router after the digits were confirmed. -/
def paired (daemon : Daemon) (peer : PublicKey) : Router :=
  ⟨daemon, peer, some (newlyPaired (fromPublicKey peer)), .established⟩

/-! ### One request -/

/-- Registration on a pairing connection: refused without a trace, or confirmed. -/
theorem sysRegister_pairing (hencode : EncodesRegistration codec) (request : Request) :
    (∃ error, (forPairing daemon peer sas).sysRegister codec request =
        (.error error, forPairing daemon peer sas)) ∨
      ∃ params result, codec.register request.params = some params ∧
        asciiDigits params.sas = sas ∧
        (forPairing daemon peer sas).sysRegister codec request =
          (.ok (result, .registered peer params.deviceName params.deviceModel),
            paired daemon peer) := by
  unfold sysRegister Codec.decode
  cases hparams : codec.register request.params with
  | none => exact .inl ⟨_, rfl⟩
  | some params =>
      dsimp only [forPairing]
      split_ifs with hdigits
      · exact .inl ⟨_, rfl⟩
      · refine .inr ?_
        obtain ⟨result, hresult⟩ := Option.ne_none_iff_exists'.mp
          (hencode ⟨(fromPublicKey peer).toHex, .defaultGrant⟩)
        refine ⟨params, result, rfl, not_not.mp hdigits, ?_⟩
        unfold Codec.encode
        rw [hresult]
        rfl

/-- **What a pairing router does with a request**: nothing but an error, or the
registration. -/
theorem dispatch_pairing (hencode : EncodesRegistration codec) (request : Request) (w : World σ) :
    (∃ error, (forPairing daemon peer sas).dispatch services codec request w =
        (.error error, forPairing daemon peer sas, w)) ∨
      request.method = Method.sysRegister ∧
        ∃ params result, codec.register request.params = some params ∧
          asciiDigits params.sas = sas ∧
          (forPairing daemon peer sas).dispatch services codec request w =
            (.ok (result, .registered peer params.deviceName params.deviceModel),
              paired daemon peer, w) := by
  unfold dispatch
  split_ifs with hknown hother hestablished hregister
  · exact .inl ⟨_, rfl⟩
  · exact absurd rfl hestablished.1
  · rcases @sysRegister_pairing codec daemon peer sas hencode request with ⟨error, hrefused⟩ |
      ⟨params, result, hparams, hdigits, hdone⟩
    · rw [hrefused]
      exact .inl ⟨error, rfl⟩
    · rw [hdone]
      exact .inr ⟨hregister, params, result, hparams, hdigits, rfl⟩
  · exact absurd ⟨rfl, hregister⟩ hother
  · exact .inl ⟨_, rfl⟩

/-- **What an established router does**: it stays as it is, and registers nobody. -/
theorem dispatch_established {r : Router} (hstate : r.state = .established) (request : Request)
    (w : World σ) :
    ∃ result w', r.dispatch services codec request w = (result, r, w') ∧
      ∀ bytes effect, result = .ok (bytes, effect) → effect = .none := by
  have hnot : r.isPairing = false := by
    unfold isPairing
    rw [hstate]
  unfold dispatch
  split_ifs with hknown hother hestablished hregister
  · exact ⟨_, w, rfl, fun _ _ h => (nomatch h)⟩
  · exact ⟨_, w, rfl, fun _ _ h => (nomatch h)⟩
  · refine absurd ⟨?_, hregister⟩ hestablished
    rw [hnot]
    exact Bool.false_ne_true
  · rcases r.serve services codec request w with ⟨result, w'⟩
    refine ⟨_, w', rfl, fun bytes effect h => ?_⟩
    cases result with
    | error error => cases h
    | ok answer =>
        cases h
        rfl
  · exact ⟨_, w, rfl, fun _ _ h => (nomatch h)⟩

/-- An answer carries the correlation id of its request. -/
theorem correlationId_of_handle (r : Router) (request : Request) (w : World σ) :
    (r.handle services codec request w).1.1.correlationId = request.correlationId := by
  unfold handle
  split <;> rfl

/-! ### Sequences of requests -/

/-- How far the registration has come. -/
inductive Phase (codec : Codec) (daemon : Daemon) (peer : PublicKey) (sas : String) (w₀ : World σ) :
    List Exchange → Router × World σ → Prop
  | inert {trace : List Exchange} (hrefused : ∀ entry ∈ trace, Refused entry) :
      Phase codec daemon peer sas w₀ trace (forPairing daemon peer sas, w₀)
  | serving {before after : List Exchange} {entry : Exchange} {w : World σ}
      (hrefused : ∀ entry ∈ before, Refused entry) (hconfirms : Confirms codec sas entry)
      (heffect : ∃ name model, entry.2.2 = .registered peer name model)
      (hafter : ∀ entry ∈ after, entry.2.2 = .none) :
      Phase codec daemon peer sas w₀ (before ++ entry :: after) (paired daemon peer, w)

theorem forall_mem_snoc {α : Type} {P : α → Prop} {xs : List α} {x : α} (h : ∀ y ∈ xs, P y)
    (hx : P x) : ∀ y ∈ xs ++ [x], P y := by
  intro y hy
  rcases List.mem_append.mp hy with hy | hy
  · exact h y hy
  · rw [List.mem_singleton.mp hy]
    exact hx

/-- An established router answers a request without anything to do. -/
theorem effect_of_established {r : Router} (hstate : r.state = .established) {w : World σ}
    {request : Request} {s' : Router × World σ} {answer : Response × Effect}
    (hstep : step services codec (r, w) request = some (s', answer)) :
    s'.1 = r ∧ answer.2 = .none := by
  obtain ⟨result, w', hdispatch, heffect⟩ :=
    @dispatch_established σ services codec r hstate request w
  dsimp only [step] at hstep
  unfold handle at hstep
  rw [hdispatch] at hstep
  cases result with
  | error error =>
      cases hstep
      exact ⟨rfl, rfl⟩
  | ok pair =>
      obtain ⟨bytes, effect⟩ := pair
      cases hstep
      exact ⟨rfl, heffect bytes effect rfl⟩

theorem Phase.step (hencode : EncodesRegistration codec) {w₀ : World σ} {trace : List Exchange}
    {s s' : Router × World σ} {request : Request} {answer : Response × Effect}
    (h : Phase codec daemon peer sas w₀ trace s)
    (hstep : Router.step services codec s request = some (s', answer)) :
    Phase codec daemon peer sas w₀ (trace ++ [(request, answer)]) s' := by
  cases h with
  | inert hrefused =>
      dsimp only [Router.step] at hstep
      unfold handle at hstep
      rcases @dispatch_pairing σ services codec daemon peer sas hencode request w₀ with
        ⟨error, herror⟩ | ⟨hmethod, params, result, hparams, hdigits, hdone⟩
      · rw [herror] at hstep
        cases hstep
        exact .inert (forall_mem_snoc hrefused ⟨⟨error, rfl⟩, rfl⟩)
      · rw [hdone] at hstep
        cases hstep
        exact .serving hrefused ⟨hmethod, ⟨params, hparams, hdigits⟩, result, rfl⟩
          ⟨_, _, rfl⟩ fun _ h => nomatch h
  | serving hrefused hconfirms heffect hafter =>
      obtain ⟨hrouter, hnone⟩ := effect_of_established rfl hstep
      obtain ⟨r', w'⟩ := s'
      obtain rfl : r' = paired daemon peer := hrouter
      rw [List.append_assoc, List.cons_append]
      exact .serving hrefused hconfirms heffect (forall_mem_snoc hafter hnone)

/-- **A router is inert, then registers once, then serves.** -/
theorem phase_of_run (hencode : EncodesRegistration codec) {w₀ : World σ} {trace : List Exchange}
    {s : Router × World σ}
    (hrun : Run (step services codec) unguarded (forPairing daemon peer sas, w₀) trace s) :
    Phase codec daemon peer sas w₀ trace s :=
  hrun.invariant (Phase codec daemon peer sas w₀) (.inert fun _ h => nomatch h)
    fun _ _ _ _ _ h _ hstep => h.step hencode hstep

/-- Whether an answer registers a device. -/
def registers (entry : Exchange) : Bool :=
  match entry.2.2 with
  | .registered _ _ _ => true
  | .none => false

theorem registers_of_none {entry : Exchange} (h : entry.2.2 = .none) : registers entry = false := by
  unfold registers
  rw [h]

/-- Requests to one router, from any router on. -/
theorem correlationId_of_run {s₀ s : Router × World σ} {trace : List Exchange}
    (hrun : Run (step services codec) unguarded s₀ trace s) :
    ∀ entry ∈ trace, entry.2.1.correlationId = entry.1.correlationId := by
  refine hrun.invariant (fun trace _ =>
    ∀ entry ∈ trace, entry.2.1.correlationId = entry.1.correlationId) (fun _ h => nomatch h) ?_
  intro trace s request s' answer h _ hstep
  refine forall_mem_snoc h ?_
  have hsame := @correlationId_of_handle σ services codec s.1 request s.2
  dsimp only [step] at hstep
  obtain ⟨-, rfl⟩ := Prod.mk.inj (Option.some.inj hstep)
  exact hsame

/-- **A pairing connection is inert until the digits are confirmed.**  Until then
every request is refused, no service is called and nothing is granted; a device
is registered at most once, by the confirmation, with the key of the handshake;
a router of a known device registers nobody; and every answer carries the
correlation id of its request. -/
theorem pairing_inert (hencode : EncodesRegistration codec) (services : Services σ)
    (daemon : Daemon) (peer : PublicKey) (sas : String) (w₀ : World σ) :
    (∀ trace s, Run (step services codec) unguarded (forPairing daemon peer sas, w₀) trace s →
      ((∀ entry ∈ trace, ¬ Confirms codec sas entry) →
        (∀ entry ∈ trace, Refused entry) ∧ s.2 = w₀ ∧ s.1.capabilities = .empty) ∧
      trace.countP registers ≤ 1 ∧
      ∀ entry ∈ trace, registers entry = true →
        Confirms codec sas entry ∧ ∃ name model, entry.2.2 = .registered peer name model) ∧
    (∀ grant trace s, Run (step services codec) unguarded (forDevice daemon peer grant, w₀) trace s →
      ∀ entry ∈ trace, registers entry = false) ∧
    ∀ r trace s, Run (step services codec) unguarded (r, w₀) trace s →
      ∀ entry ∈ trace, entry.2.1.correlationId = entry.1.correlationId := by
  refine ⟨fun trace s hrun => ?_, fun grant trace s hrun => ?_, fun r trace s hrun =>
    correlationId_of_run hrun⟩
  · have hnone : ∀ {entries : List Exchange}, (∀ entry ∈ entries, entry.2.2 = .none) →
        entries.countP registers = 0 := by
      intro entries h
      refine List.countP_eq_zero.mpr fun entry hentry => ?_
      rw [registers_of_none (h entry hentry)]
      exact Bool.false_ne_true
    cases phase_of_run hencode hrun with
    | inert hrefused =>
        have heffect : ∀ entry ∈ trace, entry.2.2 = .none := fun entry h => (hrefused entry h).2
        refine ⟨fun _ => ⟨hrefused, rfl, rfl⟩, ?_, fun entry hentry hregisters => ?_⟩
        · rw [hnone heffect]
          exact Nat.zero_le 1
        · rw [registers_of_none (heffect entry hentry)] at hregisters
          cases hregisters
    | @serving before after entry w hrefused hconfirms heffect hafter =>
        have hbefore : ∀ entry ∈ before, entry.2.2 = .none := fun entry h => (hrefused entry h).2
        refine ⟨fun h => absurd hconfirms (h entry (by simp)), ?_, fun other hother hregisters => ?_⟩
        · rw [List.countP_append, List.countP_cons, hnone hbefore, hnone hafter]
          split_ifs <;> omega
        · rcases List.mem_append.mp hother with hother | hother
          · rw [registers_of_none (hbefore other hother)] at hregisters
            cases hregisters
          · rcases List.mem_cons.mp hother with rfl | hother
            · exact ⟨hconfirms, heffect⟩
            · rw [registers_of_none (hafter other hother)] at hregisters
              cases hregisters
  · have hestablished : s.1.state = .established ∧ ∀ entry ∈ trace, entry.2.2 = .none := by
      refine hrun.invariant (fun trace s => s.1.state = .established ∧
        ∀ entry ∈ trace, entry.2.2 = .none) ⟨rfl, fun _ h => nomatch h⟩ ?_
      intro trace s request s' answer ⟨hstate, h⟩ _ hstep
      obtain ⟨hrouter, hnone⟩ := effect_of_established hstate hstep
      rw [hrouter]
      exact ⟨hstate, forall_mem_snoc h hnone⟩
    exact fun entry hentry => registers_of_none (hestablished.2 entry hentry)

/-! ### A wrong code and then the right one -/

/-- A phone that shows these digits. -/
def sampleParams (sas : String) : SysRegisterParams := ⟨"phone", none, sas⟩

/-- The encoding, on registrations of the phone. -/
def sampleCodec : Codec where
  register bytes :=
    [sampleParams "123 456", sampleParams "654 321"].find? fun params =>
      MethodCbor.registerParams params = bytes
  fsPath _ := none
  ptySpawn _ := none
  ptyInput _ := none
  ptyResize _ := none
  ptyId _ := none
  result
    | .sysRegister result => some (MethodCbor.registerResult result)
    | _ => some (MethodCbor.struct [])

/-- A machine without files, terminals or shells. -/
def bareServices : Services Unit where
  list _ _ _ := .error .notFound
  read _ _ _ := .error .notFound
  authorizeDir _ _ _ := .error .notFound
  detect _ := []
  byId _ _ := none
  spawn _ _ _ _ _ := (.error .noShell, ())
  screen _ _ := .error .notFound
  shellOf _ _ := none
  write _ _ _ := (.error .notFound, ())
  resize _ _ _ _ := (.error .notFound, ())
  kill _ _ := (.error .notFound, ())
  ptys _ := []

def sampleDaemon : Daemon := ⟨["/w"], "host", "0.1.0", "linux"⟩

/-- Reads too early, guesses wrong, confirms, and confirms again. -/
def sampleRequests : List Request :=
  [⟨1, Method.fsRead, []⟩,
   ⟨2, Method.sysRegister, MethodCbor.registerParams (sampleParams "654 321")⟩,
   ⟨3, Method.sysRegister, MethodCbor.registerParams (sampleParams "123 456")⟩,
   ⟨4, Method.sysRegister, MethodCbor.registerParams (sampleParams "123 456")⟩]

theorem pairing_inert_sample :
    ∃ trace s, Run (step bareServices sampleCodec) unguarded
        (forPairing sampleDaemon (.replicate 1) "123456", ⟨(), []⟩) trace s ∧
      trace.map registers = [false, false, true, false] ∧
      ∀ entry ∈ trace, registers entry = true →
        Confirms sampleCodec "123456" entry ∧
          ∃ name model, entry.2.2 = .registered (.replicate 1) name model := by
  have hexec : ((exec (step bareServices sampleCodec) unguarded sampleRequests []
      (forPairing sampleDaemon (.replicate 1) "123456", ⟨(), []⟩)).map
        fun r => r.1.map registers) = some [false, false, true, false] := by
    decide +kernel
  obtain ⟨⟨trace, s⟩, hrun, hregisters⟩ := Option.map_eq_some_iff.mp hexec
  have hencode : EncodesRegistration sampleCodec := fun result => Option.some_ne_none _
  exact ⟨trace, s, run_of_exec _ hrun, hregisters,
    ((pairing_inert hencode bareServices sampleDaemon (.replicate 1) "123456" ⟨(), []⟩).1 trace s
      (run_of_exec _ hrun)).2.2⟩

end Router

end Server
