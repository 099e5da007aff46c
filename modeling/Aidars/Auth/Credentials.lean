import Aidars.Foundations.Run
import Aidars.Store.Workers
import Mathlib.Logic.Function.Basic

/-!
# Worker credentials

The coordinator issues a token to a worker when it registers and keeps the hash of the token under
the identifier in the worker's record. Neither the endpoint that unregisters a worker nor the
eviction loop touches the credentials.

`credentials_current_iff` says when only current tokens are accepted, that is, tokens that were
issued last to a worker that is registered: as long as no worker leaves the registry, and no
worker registers again under another spelling of its identifier.
-/

namespace Aidars

/-- Hashing and the source of tokens: `tokenUrlsafe n` is the `n`-th token that is drawn. -/
structure Secrets where
  hashToken : String → String
  tokenUrlsafe : ℕ → String

/-- What is relied on: hashes and tokens do not collide, and no token is empty. -/
structure Secrets.Sound (sec : Secrets) : Prop where
  hash : Function.Injective sec.hashToken
  fresh : Function.Injective sec.tokenUrlsafe
  nonempty : ∀ n, sec.tokenUrlsafe n ≠ ""

/-- The credentials of the workers, as hashes. -/
structure CredentialStore where
  workerCredentialHashes : Dict String String := ∅

namespace CredentialStore

variable (sec : Secrets)

/-- The token is the credential of the worker. -/
def verifyWorkerCredential (store : CredentialStore) (workerId : String) (token : Option String) :
    Bool :=
  match token with
  | none => false
  | some token =>
    token ≠ "" && (store.workerCredentialHashes.get? workerId).any (sec.hashToken token = ·)

/-- The token is the credential of some worker. -/
def verifyAnyWorkerCredential (store : CredentialStore) (token : Option String) : Bool :=
  match token with
  | none => false
  | some token => token ≠ "" && store.workerCredentialHashes.values.any (sec.hashToken token = ·)

/-- Store a new token for a worker. -/
def issueWorkerCredential (store : CredentialStore) (workerId token : String) : CredentialStore :=
  { workerCredentialHashes := store.workerCredentialHashes.set workerId (sec.hashToken token) }

end CredentialStore

/-- What a worker sends to register. -/
structure WorkerRegistrationPayload where
  workerId : String
  endpointUrl : String
  ipAddress : String
  port : ℕ
  hostname : Option String := none
  capacityBytes : ℕ := 0
  usedBytes : ℕ := 0
  resourceProfile : Option WorkerResourceProfile := none
  capabilities : List String := []
  inventoryHashes : PySet String := ∅
  tags : Dict String String := ∅
  canExecuteWorkloads : Bool := true

/-- The answer to a registration. -/
structure WorkerRegistrationResponse where
  workerId : String
  registeredAtUtc : ℚ
  acknowledgedInventoryCount : ℕ
  workerCredential : Option String
  deriving DecidableEq

/-- The record of a worker that registers. -/
def WorkerRegistrationPayload.workerInfo (payload : WorkerRegistrationPayload) (receivedAt : ℚ) :
    WorkerInfo :=
  let profile := (payload.resourceProfile.filter (·.timestampUtc.isSome)).map fun p =>
    { p with
      workerId := payload.workerId
      endpointUrl := payload.endpointUrl
      ipAddress := payload.ipAddress
      status := .active
      localCachedHashes := payload.inventoryHashes
      timestampUtc := some receivedAt
      canExecuteWorkloads := payload.canExecuteWorkloads }
  { workerId := payload.workerId
    endpointUrl := payload.endpointUrl
    ipAddress := payload.ipAddress
    port := payload.port
    hostname := payload.hostname
    status := .active
    capacityBytes := payload.capacityBytes
    usedBytes := payload.usedBytes
    capabilities := payload.capabilities
    inventoryHashes := payload.inventoryHashes
    lastHeartbeatUtc := receivedAt
    registeredAtUtc := receivedAt
    tags := payload.tags
    resourceProfile := profile
    canExecuteWorkloads := payload.canExecuteWorkloads }

namespace Auth

/-- The registry and the credentials, and how many tokens were drawn. -/
structure Coordinator where
  registry : WorkerRegistry := {}
  credentials : CredentialStore := {}
  drawn : ℕ := 0

variable (sec : Secrets) (cfg : RegistryConfig)

/-- Register a worker and issue it a token. -/
def registerWorkerSync (c : Coordinator) (payload : WorkerRegistrationPayload) (receivedAt : ℚ) :
    Except ValueError (Coordinator × WorkerRegistrationResponse) :=
  match c.registry.registerWorker (payload.workerInfo receivedAt) receivedAt with
  | .error e => .error e
  | .ok (registry, registered) =>
    let token := sec.tokenUrlsafe c.drawn
    .ok ({ registry
           credentials := c.credentials.issueWorkerCredential sec registered.workerId token
           drawn := c.drawn + 1 },
      { workerId := registered.workerId
        registeredAtUtc := registered.registeredAtUtc
        acknowledgedInventoryCount := registered.inventoryHashes.toList.length
        workerCredential := some token })

/-- What happens to workers, with clock readings. -/
inductive Action
  | registerWorkerSync (payload : WorkerRegistrationPayload) (now : ℚ)
  | recordHeartbeat (workerId : String) (payload : Option HeartbeatPayload) (now : ℚ)
  | unregisterWorker (workerId : String)
  | evictExpiredWorkers (timeoutSeconds : Option ℚ) (now : ℚ)

/-- A coordinator with the token that was issued last to each worker, by its registered identifier.
The coordinator does not see it. -/
structure Session where
  coordinator : Coordinator := {}
  latest : Dict String String := ∅

/-- The effect of an action; a registration that raises changes nothing. -/
def effect (s : Session) : Action → Session
  | .registerWorkerSync payload now =>
    match registerWorkerSync sec s.coordinator payload now, validateWorkerId payload.workerId with
    | .ok (c, _), .ok wid =>
      { coordinator := c, latest := s.latest.set wid (sec.tokenUrlsafe s.coordinator.drawn) }
    | _, _ => s
  | .recordHeartbeat wid payload now =>
    let registry := (s.coordinator.registry.recordHeartbeat wid payload now).1
    { s with coordinator := { s.coordinator with registry } }
  | .unregisterWorker wid =>
    let registry := (s.coordinator.registry.unregisterWorker wid).1
    { s with coordinator := { s.coordinator with registry } }
  | .evictExpiredWorkers timeoutSeconds now =>
    let registry :=
      (WorkerRegistry.evictExpiredWorkers cfg s.coordinator.registry timeoutSeconds now).1
    { s with coordinator := { s.coordinator with registry } }

/-- Every action can be taken. -/
def step (s : Session) (a : Action) : Option Session := some (effect sec cfg s a)

/-! ## Current tokens -/

/-- The token was issued last to a worker that is registered. -/
def Current (s : Session) (token : String) : Prop :=
  ∃ wid, (s.coordinator.registry.workers.get? wid).isSome = true ∧ s.latest.get? wid = some token

/-- Only current tokens are accepted. -/
def AcceptsCurrent (s : Session) : Prop :=
  ∀ workerId token, s.coordinator.credentials.verifyWorkerCredential sec workerId (some token) ∨
    s.coordinator.credentials.verifyAnyWorkerCredential sec (some token) → Current s token

/-- Only current tokens are accepted after each action. -/
def AcceptsThroughout (as : List Action) : Prop :=
  Along (step sec cfg) (fun s a => AcceptsCurrent sec (effect sec cfg s a)) {} as

/-- No worker leaves the registry, and a worker that is registered registers again under the
identifier that it registered with. -/
def Stays (s : Session) : Action → Prop
  | .registerWorkerSync payload _ => ∀ wid info, validateWorkerId payload.workerId = .ok wid →
    s.coordinator.registry.workers.get? wid = some info → info.workerId = payload.workerId
  | .recordHeartbeat .. => True
  | .unregisterWorker wid => s.coordinator.registry.workers.get? wid = none
  | .evictExpiredWorkers timeoutSeconds now => WorkerRegistry.expiredIds s.coordinator.registry
    (now - timeoutSeconds.getD cfg.heartbeatTimeout) = []

variable {sec cfg} {s : Session} {a : Action} {wid : String} {now : ℚ}
  {payload : WorkerRegistrationPayload}

/-- A stored hash is that of the latest token of the registered worker under whose identifier it is
stored, and tokens of different workers differ. -/
structure CredentialInv (sec : Secrets) (s : Session) : Prop where
  stored : ∀ raw h, s.coordinator.credentials.workerCredentialHashes.get? raw = some h →
    ∃ wid info token, validateWorkerId raw = .ok wid ∧
      s.coordinator.registry.workers.get? wid = some info ∧ info.workerId = raw ∧
      s.latest.get? wid = some token ∧ h = sec.hashToken token
  issued : ∀ wid info, s.coordinator.registry.workers.get? wid = some info →
    validateWorkerId info.workerId = .ok wid ∧
      (s.coordinator.credentials.workerCredentialHashes.get? info.workerId).isSome = true
  drawn : ∀ wid token, s.latest.get? wid = some token →
    ∃ n < s.coordinator.drawn, token = sec.tokenUrlsafe n
  distinct : ∀ v w token, s.latest.get? v = some token → s.latest.get? w = some token → v = w

theorem CredentialInv.init : CredentialInv sec {} where
  stored _ _ h := nomatch h
  issued _ _ h := nomatch h
  drawn _ _ h := nomatch h
  distinct _ _ _ h := nomatch h

/-- A token is accepted for some worker exactly when its hash is stored. -/
theorem accepted_iff (sec : Secrets) (store : CredentialStore) (token : String) :
    (∃ raw, store.verifyWorkerCredential sec raw (some token) ∨
      store.verifyAnyWorkerCredential sec (some token)) ↔
    token ≠ "" ∧ ∃ raw, store.workerCredentialHashes.get? raw = some (sec.hashToken token) := by
  unfold CredentialStore.verifyWorkerCredential CredentialStore.verifyAnyWorkerCredential
  simp only [Bool.and_eq_true, decide_eq_true_eq, Option.any_eq_true, List.any_eq_true,
    Dict.mem_values]
  constructor
  · rintro ⟨raw, ⟨hne, h, hraw, rfl⟩ | ⟨hne, h, ⟨raw', hraw⟩, rfl⟩⟩
    · exact ⟨hne, raw, hraw⟩
    · exact ⟨hne, raw', hraw⟩
  · rintro ⟨hne, raw, hraw⟩
    exact ⟨raw, .inl ⟨hne, _, hraw, rfl⟩⟩

theorem CredentialInv.acceptsCurrent (hsec : sec.Sound) (hs : CredentialInv sec s) :
    AcceptsCurrent sec s := by
  intro raw token haccepted
  obtain ⟨-, raw', hraw⟩ := (accepted_iff sec s.coordinator.credentials token).1 ⟨raw, haccepted⟩
  obtain ⟨wid, info, token', -, hworker, -, hlatest, hhash⟩ := hs.stored raw' _ hraw
  obtain rfl := hsec.hash hhash
  exact ⟨wid, by rw [hworker]; rfl, hlatest⟩

theorem CredentialInv.accepted (hs : CredentialInv sec s) (hsec : sec.Sound) {info : WorkerInfo}
    (h : s.coordinator.registry.workers.get? wid = some info) : ∃ token,
      s.latest.get? wid = some token ∧ token ≠ "" ∧
      s.coordinator.credentials.workerCredentialHashes.get? info.workerId =
        some (sec.hashToken token) := by
  obtain ⟨hid, hissued⟩ := hs.issued wid info h
  obtain ⟨hash, hstored⟩ := Option.isSome_iff_exists.1 hissued
  obtain ⟨wid', -, token, hid', -, -, hlatest, rfl⟩ := hs.stored _ hash hstored
  obtain rfl := Except.ok.inj (hid.symm.trans hid')
  obtain ⟨n, -, rfl⟩ := hs.drawn wid token hlatest
  exact ⟨_, hlatest, hsec.nonempty n, hstored⟩

/-! ### Registrations -/

theorem effect_registerWorkerSync (sec : Secrets) (cfg : RegistryConfig) (s : Session)
    (payload : WorkerRegistrationPayload) (now : ℚ) :
    (effect sec cfg s (.registerWorkerSync payload now) = s ∧
      ∀ wid, validateWorkerId payload.workerId ≠ .ok wid) ∨
    ∃ wid copy registry, validateWorkerId payload.workerId = .ok wid ∧
      copy.workerId = payload.workerId ∧
      registry.workers = s.coordinator.registry.workers.set wid copy ∧
      effect sec cfg s (.registerWorkerSync payload now) =
        { coordinator :=
            { registry
              credentials := s.coordinator.credentials.issueWorkerCredential sec payload.workerId
                (sec.tokenUrlsafe s.coordinator.drawn)
              drawn := s.coordinator.drawn + 1 }
          latest := s.latest.set wid (sec.tokenUrlsafe s.coordinator.drawn) } := by
  cases hreg : s.coordinator.registry.registerWorker (payload.workerInfo now) now with
  | error e =>
    have hsync : registerWorkerSync sec s.coordinator payload now = .error e := by
      rw [registerWorkerSync, hreg]
    refine .inl ⟨?_, fun wid hwid => ?_⟩
    · dsimp only [effect]
      rw [hsync]
    · have hwid : validateWorkerId (payload.workerInfo now).workerId = .ok wid := hwid
      rw [WorkerRegistry.registerWorker, hwid] at hreg
      cases hreg
  | ok out =>
    obtain ⟨wid, hwid, hcopy, -, hworkers, -⟩ := WorkerRegistry.workers_registerWorker hreg
    have hwid : validateWorkerId payload.workerId = .ok wid := hwid
    refine .inr ⟨wid, out.2, out.1, hwid, hcopy, hworkers, ?_⟩
    dsimp only [effect]
    rw [registerWorkerSync, hreg, hwid]
    dsimp only
    rw [hcopy]
    rfl

theorem CredentialInv.register (hs : CredentialInv sec s) (hsec : sec.Sound) {copy : WorkerInfo}
    {registry : WorkerRegistry} (hwid : validateWorkerId payload.workerId = .ok wid)
    (hcopy : copy.workerId = payload.workerId)
    (hworkers : registry.workers = s.coordinator.registry.workers.set wid copy)
    (hstay : ∀ info, s.coordinator.registry.workers.get? wid = some info →
      info.workerId = payload.workerId) :
    CredentialInv sec
      { coordinator :=
          { registry
            credentials := s.coordinator.credentials.issueWorkerCredential sec payload.workerId
              (sec.tokenUrlsafe s.coordinator.drawn)
            drawn := s.coordinator.drawn + 1 }
        latest := s.latest.set wid (sec.tokenUrlsafe s.coordinator.drawn) } := by
  -- The new token is later than the ones that the workers have.
  have hnew : ∀ v, s.latest.get? v ≠ some (sec.tokenUrlsafe s.coordinator.drawn) := by
    intro v hv
    obtain ⟨n, hn, htoken⟩ := hs.drawn v _ hv
    have := hsec.fresh htoken
    omega
  refine ⟨fun raw h hraw => ?_, fun v info hv => ?_, fun v token hv => ?_,
    fun v w token hv hw => ?_⟩
  · dsimp only [CredentialStore.issueWorkerCredential] at hraw ⊢
    rw [Dict.get?_set] at hraw
    split_ifs at hraw with hk
    · obtain rfl := Option.some.inj hraw
      exact ⟨wid, copy, _, hk ▸ hwid, by rw [hworkers, Dict.get?_set, if_pos rfl],
        hcopy.trans hk.symm, by rw [Dict.get?_set, if_pos rfl], rfl⟩
    · obtain ⟨v, info, token, hv, hinfo, hid, hlatest, hhash⟩ := hs.stored raw h hraw
      have hne : v ≠ wid := by
        rintro rfl
        exact hk (hid.symm.trans (hstay info hinfo))
      exact ⟨v, info, token, hv, by rw [hworkers, Dict.get?_set, if_neg hne, hinfo], hid,
        by rw [Dict.get?_set, if_neg hne, hlatest], hhash⟩
  · dsimp only [CredentialStore.issueWorkerCredential] at hv ⊢
    rw [hworkers, Dict.get?_set] at hv
    rw [Dict.get?_set]
    split_ifs at hv with hk
    · obtain rfl := Option.some.inj hv
      rw [hk, hcopy, if_pos rfl]
      exact ⟨hwid, rfl⟩
    · obtain ⟨hid, hissued⟩ := hs.issued v info hv
      refine ⟨hid, ?_⟩
      split_ifs
      · rfl
      · exact hissued
  · dsimp only at hv ⊢
    rw [Dict.get?_set] at hv
    split_ifs at hv with hk
    · exact ⟨_, Nat.lt_succ_self _, (Option.some.inj hv).symm⟩
    · obtain ⟨n, hn, htoken⟩ := hs.drawn v token hv
      exact ⟨n, Nat.lt_succ_of_lt hn, htoken⟩
  · dsimp only at hv hw
    rw [Dict.get?_set] at hv hw
    split_ifs at hv hw with hvk hwk hwk
    · exact hvk.trans hwk.symm
    · exact absurd (hw.trans hv.symm) (hnew w)
    · exact absurd (hv.trans hw.symm) (hnew v)
    · exact hs.distinct v w token hv hw

/-- A worker that registers under another spelling leaves its old token behind. -/
theorem CredentialInv.not_acceptsCurrent_register (hs : CredentialInv sec s) (hsec : sec.Sound)
    {info : WorkerInfo} {registry : WorkerRegistry}
    (hinfo : s.coordinator.registry.workers.get? wid = some info)
    (hne : info.workerId ≠ payload.workerId) :
    ¬ AcceptsCurrent sec
      { coordinator :=
          { registry
            credentials := s.coordinator.credentials.issueWorkerCredential sec payload.workerId
              (sec.tokenUrlsafe s.coordinator.drawn)
            drawn := s.coordinator.drawn + 1 }
        latest := s.latest.set wid (sec.tokenUrlsafe s.coordinator.drawn) } := by
  intro haccepts
  obtain ⟨token, hlatest, hnonempty, hstored⟩ := hs.accepted hsec hinfo
  obtain ⟨raw, haccepted⟩ := (accepted_iff sec (s.coordinator.credentials.issueWorkerCredential sec
    payload.workerId (sec.tokenUrlsafe s.coordinator.drawn)) token).2
      ⟨hnonempty, info.workerId, (Dict.get?_set ..).trans ((if_neg hne).trans hstored)⟩
  obtain ⟨v, -, hv⟩ := haccepts raw token haccepted
  dsimp only at hv
  rw [Dict.get?_set] at hv
  split_ifs at hv with hk
  · obtain ⟨n, hn, htoken⟩ := hs.drawn wid token hlatest
    have := hsec.fresh ((Option.some.inj hv).trans htoken)
    omega
  · exact hk (hs.distinct v wid token hv hlatest)

/-! ### Other actions -/

/-- The invariant holds as long as the same workers are registered, under the same identifiers. -/
theorem CredentialInv.of_workers (hs : CredentialInv sec s) {registry : WorkerRegistry}
    (h : ∀ k, (registry.workers.get? k).map (·.workerId) =
      (s.coordinator.registry.workers.get? k).map (·.workerId)) :
    CredentialInv sec { s with coordinator := { s.coordinator with registry } } where
  stored raw hash hraw := by
    obtain ⟨v, info, token, hv, hinfo, hid, hlatest, hhash⟩ := hs.stored raw hash hraw
    have hsame := h v
    rw [hinfo] at hsame
    obtain ⟨info', hinfo', hid'⟩ := Option.map_eq_some_iff.1 hsame
    exact ⟨v, info', token, hv, hinfo', hid'.trans hid, hlatest, hhash⟩
  issued v info hv := by
    have hsame := h v
    rw [hv] at hsame
    obtain ⟨info', hinfo', hid'⟩ := Option.map_eq_some_iff.1 hsame.symm
    have hissued := hs.issued v info' hinfo'
    rw [hid'] at hissued
    exact hissued
  drawn := hs.drawn
  distinct := hs.distinct

theorem CredentialInv.not_acceptsCurrent_gone (hs : CredentialInv sec s) (hsec : sec.Sound)
    {registry : WorkerRegistry} {info : WorkerInfo}
    (hinfo : s.coordinator.registry.workers.get? wid = some info)
    (hgone : registry.workers.get? wid = none) :
    ¬ AcceptsCurrent sec { s with coordinator := { s.coordinator with registry } } := by
  intro haccepts
  obtain ⟨token, hlatest, hnonempty, hstored⟩ := hs.accepted hsec hinfo
  obtain ⟨raw, haccepted⟩ := (accepted_iff sec s.coordinator.credentials token).2
    ⟨hnonempty, info.workerId, hstored⟩
  obtain ⟨v, hregistered, hv⟩ := haccepts raw token haccepted
  obtain rfl := hs.distinct v wid token hv hlatest
  dsimp only at hregistered
  rw [hgone] at hregistered
  cases hregistered

/-! ## Runs -/

/-- **A step in which every worker stays keeps the invariant.** -/
theorem CredentialInv.effect (hs : CredentialInv sec s) (hsec : sec.Sound) (h : Stays cfg s a) :
    CredentialInv sec (effect sec cfg s a) := by
  cases a with
  | registerWorkerSync payload now =>
    obtain ⟨heffect, -⟩ | ⟨wid, copy, registry, hwid, hcopy, hworkers, heffect⟩ :=
      effect_registerWorkerSync sec cfg s payload now
    · rw [heffect]
      exact hs
    · rw [heffect]
      exact hs.register hsec hwid hcopy hworkers fun info => h wid info hwid
  | recordHeartbeat wid payload now =>
    obtain ⟨f, hf, hworkers⟩ :=
      WorkerRegistry.rewrites_recordHeartbeat s.coordinator.registry wid payload now
    refine hs.of_workers fun k => ?_
    rw [hworkers]
    split_ifs with hk
    · rw [hk, Option.map_map]
      exact Option.map_congr fun info _ => hf info
    · rfl
  | unregisterWorker wid =>
    refine hs.of_workers fun k => ?_
    rw [WorkerRegistry.workers_unregisterWorker]
    split_ifs with hk
    · rw [hk, show s.coordinator.registry.workers.get? wid = none from h]
    · rfl
  | evictExpiredWorkers timeoutSeconds now =>
    refine hs.of_workers fun k => ?_
    have h : WorkerRegistry.expiredIds _ _ = [] := h
    rw [WorkerRegistry.evictExpiredWorkers, h]
    rfl

/-- **After a step in which a worker does not stay its token is still accepted.** -/
theorem CredentialInv.stays (hs : CredentialInv sec s) (hsec : sec.Sound)
    (h : AcceptsCurrent sec (Auth.effect sec cfg s a)) : Stays cfg s a := by
  cases a with
  | registerWorkerSync payload now =>
    intro wid info hwid hinfo
    by_contra hne
    obtain ⟨-, hnone⟩ | ⟨wid', copy, registry, hwid', -, -, heffect⟩ :=
      effect_registerWorkerSync sec cfg s payload now
    · exact hnone wid hwid
    · obtain rfl := Except.ok.inj (hwid.symm.trans hwid')
      rw [heffect] at h
      exact hs.not_acceptsCurrent_register hsec hinfo hne h
  | recordHeartbeat wid payload now => trivial
  | unregisterWorker wid =>
    cases hinfo : s.coordinator.registry.workers.get? wid with
    | none => exact hinfo
    | some info =>
      refine absurd h (hs.not_acceptsCurrent_gone hsec hinfo ?_)
      rw [WorkerRegistry.workers_unregisterWorker, if_pos rfl]
  | evictExpiredWorkers timeoutSeconds now =>
    refine List.eq_nil_iff_forall_not_mem.2 fun wid hexpired => ?_
    obtain ⟨⟨k, info⟩, hmem, rfl⟩ := List.mem_map.1 hexpired
    have hinfo := Dict.mem_entries.1 (List.mem_of_mem_filter hmem)
    refine hs.not_acceptsCurrent_gone hsec hinfo ?_ h
    exact (WorkerRegistry.foldl_evictOne _ (s.coordinator.registry, []) k).1.trans (if_pos hexpired)

/-- **Only current tokens are accepted exactly along the runs in which every worker stays.** -/
theorem credentials_current_iff (hsec : sec.Sound) (as : List Action) :
    AcceptsThroughout sec cfg as ↔ Along (step sec cfg) (Stays cfg) {} as := by
  refine along_iff (fun s a s' hs _ => ⟨hs.stays hsec, fun h => ?_⟩) (fun s a s' hs h hstep => ?_)
    CredentialInv.init
  · exact (hs.effect hsec h).acceptsCurrent hsec
  · exact Option.some.inj hstep ▸ hs.effect hsec h

/-- Hashes that are the tokens themselves, and tokens of different lengths. -/
def plainSecrets : Secrets where
  hashToken := id
  tokenUrlsafe n := String.ofList (List.replicate (n + 1) 't')

theorem plainSecrets_sound : plainSecrets.Sound where
  hash := Function.injective_id
  fresh m n h := by
    have hlen := congrArg List.length (String.ofList_inj.1 h)
    rw [List.length_replicate, List.length_replicate] at hlen
    exact Nat.succ_injective hlen
  nonempty n h := by
    have hlist := congrArg String.toList h
    rw [plainSecrets, String.toList_ofList, List.replicate_succ] at hlist
    cases hlist

/-- The registration of a worker. -/
def sampleRegistration : WorkerRegistrationPayload where
  workerId := "w1"
  endpointUrl := "http://w1:8000"
  ipAddress := "10.0.0.1"
  port := 8000

/-- Parameters without decay. -/
def steadyConfig : RegistryConfig where
  decayFactor _ := 1
  round4 := id

/-- The coordinator after a worker registered. -/
def registeredSession : Session :=
  effect plainSecrets steadyConfig {} (.registerWorkerSync sampleRegistration 1)

/-- A worker that registers again under the same identifier has only its new token. -/
theorem credentials_current_registered_again : AcceptsThroughout plainSecrets steadyConfig
    [.registerWorkerSync sampleRegistration 1, .registerWorkerSync sampleRegistration 2] := by
  refine (credentials_current_iff plainSecrets_sound _).2
    ⟨fun wid info _ hinfo => ?_, _, rfl, fun wid info hwid hinfo => ?_, _, rfl, trivial⟩
  · cases hinfo
  have hid : validateWorkerId sampleRegistration.workerId = .ok "w1" := by decide +kernel
  obtain rfl := Except.ok.inj (hid.symm.trans hwid)
  have hregistered : (registeredSession.coordinator.registry.workers.get? "w1").map (·.workerId) =
      some sampleRegistration.workerId := by
    decide +kernel
  rw [show registeredSession.coordinator.registry.workers.get? "w1" = some info from hinfo]
    at hregistered
  exact Option.some.inj hregistered

/-- The token of a worker that was unregistered is still accepted. -/
theorem departed_token_accepted : ¬ ∀ (sec : Secrets) (cfg : RegistryConfig) (as : List Action),
    sec.Sound → AcceptsThroughout sec cfg as := by
  intro hclaim
  obtain ⟨-, s, h, hlast, -⟩ := hclaim plainSecrets steadyConfig
    [.registerWorkerSync sampleRegistration 1, .unregisterWorker "w1"] plainSecrets_sound
  obtain rfl := Option.some.inj h
  have haccepted : CredentialStore.verifyAnyWorkerCredential plainSecrets
      (effect plainSecrets steadyConfig registeredSession
        (.unregisterWorker "w1")).coordinator.credentials (some "t") := by
    decide +kernel
  have hempty : (effect plainSecrets steadyConfig registeredSession
      (.unregisterWorker "w1")).coordinator.registry.workers = (∅ : Dict String WorkerInfo) := by
    decide +kernel
  obtain ⟨wid, hregistered, -⟩ := hlast "w1" "t" (.inr haccepted)
  change (Dict.get? (effect plainSecrets steadyConfig registeredSession
    (.unregisterWorker "w1")).coordinator.registry.workers wid).isSome = true at hregistered
  rw [hempty] at hregistered
  cases hregistered

end Auth

end Aidars
