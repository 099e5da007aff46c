import Aidars.Worker.Ledger

/-!
# Attempts of one workload on a worker

The ledger is kept by attempt, but the table of the runtimes and the sandbox directories are named
by the workload. An attempt that is started while an older one is alive asks the older one to
checkpoint, waits briefly, and then takes over the name, whether the older one has ended or not: its
sandbox is cleared, its entry is replaced, and when it ends it removes what by then belongs to the
new one. A cancellation of an attempt goes to the runtime of the workload, whose attempt it may not
be.

`KeepsApart` names the two occasions. Along all runs without them each attempt leaves the others
alone (`attempt_isolation`): the runtime of an attempt is the registered one as long as it is
running, and its sandbox is there as long as it is used (`Apart`).
-/

namespace Aidars.Worker

/-- The runtime of the attempt is running, and is to be found in the table. -/
def Pc.registered : Pc → Bool
  | .executing _ | .timingOut | .cancelling => true
  | _ => false

/-- The attempt uses its sandbox. -/
def Pc.inSandbox : Pc → Bool
  | .executing _ | .timingOut | .cancelling | .ingesting _ _ => true
  | _ => false

theorem Pc.inSandbox_of_registered {pc : Pc} (h : pc.registered = true) : pc.inSandbox = true := by
  cases pc <;> simp_all [Pc.registered, Pc.inSandbox]

/-! ## Table entries -/

/-- The entry of a workload in the table of the runtimes, after an effect of attempt `a`. -/
def entryAfter (a : String) (entry : Option String) : Effect → Option String
  | .register => some a
  | .pop => none
  | _ => entry

/-- The sandbox of a workload, after an effect of attempt `a`. -/
def sandboxAfter (a : String) (sandbox : Option String) : Effect → Option String
  | .makeSandbox => some a
  | .removeSandbox => none
  | _ => sandbox

variable {cfg : Config} {existing : Option String} {s s' : State} {a b w w' : String}
  {r r' : Record}
  {effects : List Effect} {p : Record × List Effect} {event : Event} {entry : Entry} {exit : Exit}
  {act : Action} {as : List Action} {isolates : Prop}

theorem get?_activeRuntimes_foldl (effects : List Effect) (s : State) (a w w' : String) :
    (effects.foldl (State.applyEffect a w) s).activeRuntimes.get? w' =
      if w' = w then effects.foldl (entryAfter a) (s.activeRuntimes.get? w)
      else s.activeRuntimes.get? w' := by
  induction effects generalizing s with
  | nil => split_ifs with h <;> simp [h]
  | cons e effects ih =>
    rw [List.foldl_cons, ih, List.foldl_cons]
    cases e <;> split_ifs with h <;>
      simp [h, State.applyEffect, State.modifyRuntime, entryAfter]

theorem get?_sandboxes_foldl (effects : List Effect) (s : State) (a w w' : String) :
    (effects.foldl (State.applyEffect a w) s).sandboxes.get? w' =
      if w' = w then effects.foldl (sandboxAfter a) (s.sandboxes.get? w)
      else s.sandboxes.get? w' := by
  induction effects generalizing s with
  | nil => split_ifs with h <;> simp [h]
  | cons e effects ih =>
    rw [List.foldl_cons, ih, List.foldl_cons]
    cases e <;> split_ifs with h <;>
      simp [h, State.applyEffect, State.modifyRuntime, sandboxAfter]

/-! ## Segments -/

/-- The task passes the abort of an older execution, of which there is none or which raises. -/
def PassesAbort (existing : Option String) (r : Record) (entry : Entry) : Prop :=
  isSafeWorkloadId r.spec.workloadId = true ∧ (existing = none ∨ entry.abortRaises = true)

/-- The task comes to the isolation of its workspace. -/
def ReachesIsolation (existing : Option String) (r : Record) : Event → Prop
  | .start _ entry =>
    r.cancelRequested = false ∧ r.spec.inputAssetHashes = ∅ ∧ PassesAbort existing r entry
  | .synced _ entry => r.spec.inputAssetHashes = ∅ ∧ PassesAbort existing r entry
  | .sharedSynced (.results l) entry =>
    (∀ t ∈ l, t.success = true) ∧ PassesAbort existing r entry
  | .aborted _ => True
  | _ => False

instance (existing : Option String) (r : Record) (entry : Entry) :
    Decidable (PassesAbort existing r entry) :=
  inferInstanceAs (Decidable (_ ∧ _))

instance (existing : Option String) (r : Record) (event : Event) :
    Decidable (ReachesIsolation existing r event) := by
  unfold ReachesIsolation
  split <;> infer_instance

/-- What a segment does with the names of its workload: it changes them only if they are its own or
if it isolates its workspace, and it holds what it uses afterwards. -/
structure Owns (a : String) (isolates : Prop) (r : Record) (p : Record × List Effect) : Prop where
  spec : p.1.spec = r.spec
  entry : r.pc.registered = false → ¬ isolates → ∀ x, p.2.foldl (entryAfter a) x = x
  sandbox : r.pc.inSandbox = false → ¬ isolates → ∀ x, p.2.foldl (sandboxAfter a) x = x
  registered : p.1.pc.registered = true → ∀ x, (r.pc.registered = true → x = some a) →
    p.2.foldl (entryAfter a) x = some a
  inSandbox : p.1.pc.inSandbox = true → ∀ x, (r.pc.inSandbox = true → x = some a) →
    p.2.foldl (sandboxAfter a) x = some a

namespace Owns

/-- The task is outside of its sandbox, and touches neither table. -/
theorem idle (hspec : r'.spec = r.spec) (hpc : r'.pc.inSandbox = false)
    (heffects : effects = [] ∨ ∃ b, effects = [.checkpoint b]) :
    Owns a isolates r (r', effects) := by
  have hentry : ∀ x, effects.foldl (entryAfter a) x = x := by
    rcases heffects with rfl | ⟨b, rfl⟩ <;> exact fun _ => rfl
  have hsandbox : ∀ x, effects.foldl (sandboxAfter a) x = x := by
    rcases heffects with rfl | ⟨b, rfl⟩ <;> exact fun _ => rfl
  refine ⟨hspec, fun _ _ => hentry, fun _ _ => hsandbox, fun h => ?_, fun h => ?_⟩
  · rw [Pc.inSandbox_of_registered h] at hpc
    cases hpc
  · rw [hpc] at h
    cases h

/-- The task has ended, after the effects `effects` on names that were its own. -/
theorem ended (hspec : r'.spec = r.spec) (hpc : r'.pc = .ended)
    (hentry : r.pc.registered = false → ∀ x, effects.foldl (entryAfter a) x = x)
    (hsandbox : r.pc.inSandbox = false → ∀ x, effects.foldl (sandboxAfter a) x = x) :
    Owns a isolates r (r', effects) := by
  refine ⟨hspec, fun h _ => hentry h, fun h _ => hsandbox h, fun h => ?_, fun h => ?_⟩
  · rw [show (r', effects).1.pc = .ended from hpc] at h
    cases h
  · rw [show (r', effects).1.pc = .ended from hpc] at h
    cases h

theorem isolate (h : isolates) : Owns a isolates r (r.isolate cfg entry) := by
  unfold Record.isolate
  dsimp only
  split
  · exact ⟨rfl, fun _ hn => absurd h hn, fun _ hn => absurd h hn, nofun, nofun⟩
  · exact ⟨rfl, fun _ hn => absurd h hn, fun _ hn => absurd h hn, nofun, nofun⟩
  · exact ⟨rfl, fun _ hn => absurd h hn, fun _ hn => absurd h hn, nofun, nofun⟩
  · exact ⟨rfl, fun _ hn => absurd h hn, fun _ hn => absurd h hn, nofun, nofun⟩
  · exact ⟨rfl, fun _ hn => absurd h hn, fun _ hn => absurd h hn, fun _ _ _ => rfl,
      fun _ _ _ => rfl⟩

/-- An older execution is asked to checkpoint before. -/
theorem checkpoint (h : Owns a isolates r p) (b : String) :
    Owns a isolates r (p.1, .checkpoint b :: p.2) :=
  ⟨h.spec, h.entry, h.sandbox, h.registered, h.inSandbox⟩

theorem enterManager (h : PassesAbort existing r entry → isolates) :
    Owns a isolates r (r.enterManager cfg existing entry) := by
  unfold Record.enterManager
  cases existing with
  | none =>
    dsimp only
    split_ifs with hsafe
    · exact isolate (h ⟨hsafe, .inl rfl⟩)
    · exact idle rfl rfl (.inl rfl)
  | some b =>
    dsimp only
    split_ifs with hsafe habort
    · exact (isolate (h ⟨hsafe, .inr habort⟩)).checkpoint b
    · exact idle rfl rfl (.inr ⟨b, rfl⟩)
    · exact idle rfl rfl (.inl rfl)

theorem enterExecute
    (h : r.spec.inputAssetHashes = ∅ → PassesAbort existing r entry → isolates) :
    Owns a isolates r (r.enterExecute cfg existing entry) := by
  unfold Record.enterExecute
  split_ifs with hinputs
  · exact enterManager (h hinputs)
  · exact idle rfl rfl (.inl rfl)

theorem start (missing : Except String (List String))
    (h : r.cancelRequested = false → r.spec.inputAssetHashes = ∅ →
      PassesAbort existing r entry → isolates) :
    Owns a isolates r (r.start cfg existing missing entry) := by
  have hexecute : r.cancelRequested = false → Owns a isolates r
      (Record.enterExecute cfg existing { r with state := .running } entry) := by
    intro hc
    have howns := @enterExecute cfg existing a { r with state := .running } entry isolates (h hc)
    exact ⟨howns.spec, howns.entry, howns.sandbox, howns.registered, howns.inSandbox⟩
  unfold Record.start
  dsimp only
  split_ifs with hc hinputs
  · exact idle rfl rfl (.inl rfl)
  · exact hexecute (by simpa using hc)
  · split
    · exact idle rfl rfl (.inl rfl)
    · exact hexecute (by simpa using hc)
    · exact idle rfl rfl (.inl rfl)

theorem synced (missing : List String) (reply : SyncReply)
    (h : r.spec.inputAssetHashes = ∅ → PassesAbort existing r entry → isolates) :
    Owns a isolates r (r.synced cfg existing missing entry reply) := by
  cases reply with
  | results l =>
    unfold Record.synced
    dsimp only
    split_ifs
    · exact enterExecute h
    · exact idle rfl rfl (.inl rfl)
  | raised message => exact idle rfl rfl (.inl rfl)
  | cancelledError => exact idle rfl rfl (.inl rfl)

theorem sharedSynced (reply : SyncReply)
    (h : ∀ l, reply = .results l → (∀ t ∈ l, t.success = true) → PassesAbort existing r entry →
      isolates) : Owns a isolates r (r.sharedSynced cfg existing entry reply) := by
  cases reply with
  | results l =>
    unfold Record.sharedSynced
    dsimp only
    split
    · exact idle rfl rfl (.inl rfl)
    · rename_i hnone
      exact enterManager (h l rfl (by simpa using hnone))
  | raised message => exact idle rfl rfl (.inl rfl)
  | cancelledError => exact idle rfl rfl (.inl rfl)

theorem finishExecution {rt : Runtime} {o : Outcome} {ing : Ingestion} {times : Durations}
    (hpc : r.pc.inSandbox = true) :
    Owns a isolates r (r.finishExecution cfg rt o ing times) := by
  have hnot : ¬ r.pc.inSandbox = false := by simp [hpc]
  unfold Record.finishExecution
  split
  · exact ended rfl rfl (fun _ _ => rfl) fun h => absurd h hnot
  · exact ended rfl rfl (fun _ _ => rfl) fun _ _ => rfl

theorem leaveRuntime {o : Outcome} (hpc : r.pc.registered = true) :
    Owns a isolates r (r.leaveRuntime cfg o exit) := by
  have hnot : ¬ r.pc.registered = false := by simp [hpc]
  have hsandbox := Pc.inSandbox_of_registered hpc
  unfold Record.leaveRuntime
  split_ifs
  · exact ⟨rfl, fun h => absurd h hnot, fun _ _ _ => rfl, nofun, fun _ x hx => hx hsandbox⟩
  · have howns : Owns a isolates r (r.finishExecution cfg r.runtime o {} exit.times) :=
      finishExecution hsandbox
    have hended : (r.finishExecution cfg r.runtime o {} exit.times).1.pc = .ended := by
      unfold Record.finishExecution
      split <;> rfl
    exact ended howns.spec hended (fun h => absurd h hnot) fun h => by
      rw [hsandbox] at h
      cases h

theorem cancelReturned {o : Outcome} {raised : Option String} (hpc : r.pc.registered = true) :
    Owns a isolates r (r.cancelReturned cfg o raised exit) := by
  have hnot : ¬ r.pc.registered = false := by simp [hpc]
  unfold Record.cancelReturned
  split
  · exact leaveRuntime hpc
  · exact ended rfl rfl (fun h => absurd h hnot) fun _ _ => rfl

/-- The task goes on at its runtime. -/
theorem running (hspec : r'.spec = r.spec) (hpc : r.pc.registered = true) :
    Owns a isolates r (r', []) :=
  ⟨hspec, fun _ _ _ => rfl, fun _ _ _ => rfl, fun _ _ hx => hx hpc,
    fun _ _ hx => hx (Pc.inSandbox_of_registered hpc)⟩

theorem throwCancelled (h : r.throwCancelled cfg exit = some p) : Owns a isolates r p := by
  unfold Record.throwCancelled at h
  split at h
  case h_1 hpc =>
    obtain rfl := Option.some.inj h
    exact idle rfl rfl (.inl rfl)
  case h_2 hpc =>
    obtain rfl := Option.some.inj h
    exact running rfl (by rw [hpc]; rfl)
  case h_3 o hpc =>
    obtain rfl := Option.some.inj h
    have howns : Owns a isolates { r with mustCancel := false }
        (Record.leaveRuntime cfg { r with mustCancel := false } o exit) :=
      leaveRuntime (by dsimp only; rw [hpc]; rfl)
    exact ⟨howns.spec, howns.entry, howns.sandbox, howns.registered, howns.inSandbox⟩
  case h_10 => cases h
  all_goals
    rename_i hpc
    obtain rfl := Option.some.inj h
    refine ended rfl rfl (fun hn => ?_) fun _ _ => rfl
    first
    | exact fun _ => rfl
    | (rw [hpc] at hn; cases hn)

/-- **What a segment of a task does with the names of its workload.** -/
theorem taskStep (h : Worker.taskStep cfg existing r event = some p) :
    Owns a (ReachesIsolation existing r event) r p := by
  unfold Worker.taskStep at h
  split at h
  · split_ifs at h
    exact throwCancelled h
  · split_ifs at h with hpc
    obtain rfl := Option.some.inj h
    exact running rfl (by rw [hpc]; rfl)
  · split_ifs at h
    generalize hpc : r.pc = pc at h
    unfold Record.resumeAt at h
    split at h
    · obtain rfl := Option.some.inj h
      exact start _ fun hc hinputs hpass => ⟨hc, hinputs, hpass⟩
    · obtain rfl := Option.some.inj h
      exact synced _ _ fun hinputs hpass => ⟨hinputs, hpass⟩
    · obtain rfl := Option.some.inj h
      refine sharedSynced _ fun l hl hsuccess hpass => ?_
      subst hl
      exact ⟨hsuccess, hpass⟩
    · obtain rfl := Option.some.inj h
      exact isolate trivial
    · obtain rfl := Option.some.inj h
      exact leaveRuntime (by rw [hpc]; rfl)
    · obtain rfl := Option.some.inj h
      exact leaveRuntime (by rw [hpc]; rfl)
    · split_ifs at h
      obtain rfl := Option.some.inj h
      exact running rfl (by rw [hpc]; rfl)
    · obtain rfl := Option.some.inj h
      exact cancelReturned (by rw [hpc]; rfl)
    · obtain rfl := Option.some.inj h
      exact cancelReturned (by rw [hpc]; rfl)
    · obtain rfl := Option.some.inj h
      exact finishExecution (by rw [hpc]; rfl)
    · cases h

end Owns

/-! ## Runs -/

/-- The attempt that takes the step: its task is resumed, or it is cancelled. -/
def Action.attempt : Action → Option String
  | .resume a _ | .cancelExecution a => some a
  | _ => none

/-- A step of one attempt leaves every other one alone: it does not cancel its runtime, which stays
the registered one while it runs, and its sandbox stays while it is used. -/
def LeavesOthers (s : State) (act : Action) (s' : State) : Prop :=
  ∀ a ∈ act.attempt, ∀ b r, b ≠ a → s.executions.get? b = some r →
    (∃ r', s'.executions.get? b = some r' ∧
      r'.runtime.cancelRequested = r.runtime.cancelRequested) ∧
    (r.pc.registered = true → s'.activeRuntimes.get? r.spec.workloadId = some b) ∧
    (r.pc.inSandbox = true → s'.sandboxes.get? r.spec.workloadId = some b)

/-- An attempt comes to the isolation of its workspace only when no other one of its workload uses
the sandbox, and an attempt is cancelled only when the registered runtime of its workload is its own
or there is none. -/
def KeepsApart (s : State) : Action → Prop
  | .resume a event => ∀ r ∈ s.executions.get? a,
    ReachesIsolation (s.activeRuntimes.get? r.spec.workloadId) r event →
      ∀ p ∈ s.executions.entries, p.1 ≠ a → p.2.spec.workloadId = r.spec.workloadId →
        p.2.pc.inSandbox = false
  | .cancelExecution a => ∀ r ∈ s.executions.get? a, r.state.isTerminal = false →
    ∀ b ∈ s.activeRuntimes.get? r.spec.workloadId, b = a
  | _ => True

instance (s : State) (act : Action) : Decidable (KeepsApart s act) := by
  apply act.casesOn (motive := fun act => Decidable (KeepsApart s act)) <;> intros <;>
    unfold KeepsApart <;> infer_instance

/-- Every attempt that is running is the registered one of its workload, and the sandbox that it
uses is its own. -/
def Apart (s : State) : Prop :=
  ∀ b r, s.executions.get? b = some r →
    (r.pc.registered = true → s.activeRuntimes.get? r.spec.workloadId = some b) ∧
    (r.pc.inSandbox = true → s.sandboxes.get? r.spec.workloadId = some b)

theorem cancelWorkload_tables (s : State) (w : String) :
    (s.cancelWorkload w).1.activeRuntimes = s.activeRuntimes ∧
      (s.cancelWorkload w).1.sandboxes = s.sandboxes := by
  unfold State.cancelWorkload
  split <;> exact ⟨rfl, rfl⟩

theorem checkpointWorkload_tables (s : State) (w : String) :
    (s.checkpointWorkload w).1.activeRuntimes = s.activeRuntimes ∧
      (s.checkpointWorkload w).1.sandboxes = s.sandboxes := by
  unfold State.checkpointWorkload
  split <;> exact ⟨rfl, rfl⟩

theorem cancelExecution_tables (s : State) (a : String) :
    (s.cancelExecution a).1.activeRuntimes = s.activeRuntimes ∧
      (s.cancelExecution a).1.sandboxes = s.sandboxes := by
  unfold State.cancelExecution
  split
  · exact ⟨rfl, rfl⟩
  · split_ifs
    · exact ⟨rfl, rfl⟩
    · dsimp only
      split_ifs
      · exact cancelWorkload_tables { s with executions := s.executions.set a _ } _
      · exact cancelWorkload_tables { s with executions := s.executions.set a _ } _

/-- A cancellation changes the record of its attempt, which stays where it is, and no other. -/
theorem cancelExecution_records (hguard : KeepsApart s (.cancelExecution a)) :
    (∀ c, c ≠ a → (s.cancelExecution a).1.executions.get? c = s.executions.get? c) ∧
      ∀ r', (s.cancelExecution a).1.executions.get? a = some r' →
        ∃ r, s.executions.get? a = some r ∧ r'.spec = r.spec ∧ r'.pc = r.pc := by
  rcases cancelExecution_cases s a with h | ⟨r, hr, hlive, ⟨b, hb, h⟩ | ⟨hb, h⟩⟩
  · rw [h]
    exact ⟨fun _ _ => rfl, fun r' hr' => ⟨r', hr', rfl, rfl⟩⟩
  · obtain rfl : b = a := hguard r hr hlive b hb
    rw [h]
    constructor
    · intro c hc
      simp [State.modifyRuntime, hc]
    · intro r' hr'
      simp only [State.modifyRuntime, Dict.get?_modify, Dict.get?_set, if_true] at hr'
      obtain rfl := Option.some.inj hr'
      exact ⟨r, hr, rfl, rfl⟩
  · rw [h]
    constructor
    · intro c hc
      simp [hc]
    · intro r' hr'
      rw [Dict.get?_set, if_pos rfl] at hr'
      obtain rfl := Option.some.inj hr'
      exact ⟨r, hr, rfl, rfl⟩

namespace Apart

/-- The records of the later state stand where they stood, and the tables are the same. -/
theorem of_records (hs : Apart s) (ha : s'.activeRuntimes = s.activeRuntimes)
    (hd : s'.sandboxes = s.sandboxes)
    (h : ∀ b r', s'.executions.get? b = some r' → r'.pc.inSandbox = true →
      ∃ r, s.executions.get? b = some r ∧ r'.spec = r.spec ∧ r'.pc = r.pc) : Apart s' := by
  have hplace : ∀ b r', s'.executions.get? b = some r' → r'.pc.inSandbox = true →
      (r'.pc.registered = true → s'.activeRuntimes.get? r'.spec.workloadId = some b) ∧
      s'.sandboxes.get? r'.spec.workloadId = some b := by
    intro b r' hb huse
    obtain ⟨r, hr, hspec, hpc⟩ := h b r' hb huse
    rw [ha, hd, hspec, hpc]
    exact ⟨(hs b r hr).1, (hs b r hr).2 (hpc ▸ huse)⟩
  intro b r' hb
  exact ⟨fun hreg => (hplace b r' hb (Pc.inSandbox_of_registered hreg)).1 hreg,
    fun huse => (hplace b r' hb huse).2⟩

theorem of_requests {C : Set String} (hs : Apart s) (ha : s'.activeRuntimes = s.activeRuntimes)
    (hd : s'.sandboxes = s.sandboxes) (h : Requests C s s') : Apart s' := by
  refine hs.of_records ha hd fun b r' hb _ => ?_
  rcases h b with ⟨-, hb'⟩ | ⟨r, rt, hr, hr', -⟩
  · rw [hb] at hb'
    cases hb'
  · obtain rfl := Option.some.inj (hb.symm.trans hr')
    exact ⟨r, hr, rfl, rfl⟩

/-- A segment of attempt `a` leaves what another attempt uses. -/
theorem foldl_other (hs : Apart s) (hr : s.executions.get? a = some r)
    (howns : Owns a isolates r p)
    (hguard : isolates → ∀ b r', s.executions.get? b = some r' → b ≠ a →
      r'.spec.workloadId = r.spec.workloadId → r'.pc.inSandbox = false)
    (hne : b ≠ a) (hb : s.executions.get? b = some r')
    (hs' : s' = p.2.foldl (State.applyEffect a r.spec.workloadId)
      { s with executions := s.executions.set a p.1 }) :
    (r'.pc.registered = true → s'.activeRuntimes.get? r'.spec.workloadId = some b) ∧
    (r'.pc.inSandbox = true → s'.sandboxes.get? r'.spec.workloadId = some b) := by
  subst hs'
  constructor
  · intro hreg
    have hmine := (hs b r' hb).1 hreg
    rw [get?_activeRuntimes_foldl]
    split_ifs with hw
    · rw [hw] at hmine
      rw [howns.entry, hmine]
      · -- the name of a workload is held by one attempt
        refine Bool.eq_false_iff.2 fun h => hne ?_
        exact Option.some.inj (hmine.symm.trans ((hs a r hr).1 h))
      · intro hiso
        have := hguard hiso b r' hb hne hw
        rw [Pc.inSandbox_of_registered hreg] at this
        cases this
    · exact hmine
  · intro huse
    have hmine := (hs b r' hb).2 huse
    rw [get?_sandboxes_foldl]
    split_ifs with hw
    · rw [hw] at hmine
      rw [howns.sandbox, hmine]
      · refine Bool.eq_false_iff.2 fun h => hne ?_
        exact Option.some.inj (hmine.symm.trans ((hs a r hr).2 h))
      · intro hiso
        rw [hguard hiso b r' hb hne hw] at huse
        cases huse
    · exact hmine

/-- A segment of attempt `a` leaves it with what it uses. -/
theorem foldl_self (hs : Apart s) (hr : s.executions.get? a = some r) (howns : Owns a isolates r p)
    (hs' : s' = p.2.foldl (State.applyEffect a r.spec.workloadId)
      { s with executions := s.executions.set a p.1 }) :
    (p.1.pc.registered = true → s'.activeRuntimes.get? p.1.spec.workloadId = some a) ∧
    (p.1.pc.inSandbox = true → s'.sandboxes.get? p.1.spec.workloadId = some a) := by
  subst hs'
  rw [howns.spec, get?_activeRuntimes_foldl, get?_sandboxes_foldl, if_pos rfl, if_pos rfl]
  exact ⟨fun h => howns.registered h _ (hs a r hr).1, fun h => howns.inSandbox h _ (hs a r hr).2⟩

theorem resume (hs : Apart s) (hguard : KeepsApart s (.resume a event))
    (h : s.resume cfg a event = some s') :
    Apart s' ∧ LeavesOthers s (.resume a event) s' := by
  unfold State.resume at h
  obtain ⟨r, hr, h⟩ := Option.bind_eq_some_iff.1 h
  obtain ⟨p, hp, hs'⟩ := Option.map_eq_some_iff.1 h
  replace hs' := hs'.symm
  have howns := Owns.taskStep (a := a) hp
  have hother : ∀ b r', b ≠ a → s.executions.get? b = some r' → _ := fun b r' hne hb =>
    hs.foldl_other hr howns (fun hiso c r₁ hc hne hw =>
      hguard r hr hiso (c, r₁) (Dict.mem_entries.2 hc) hne hw) hne hb hs'
  have hrequests : Requests ∅ { s with executions := s.executions.set a p.1 } s' :=
    hs' ▸ Requests.foldl p.2 _ a r.spec.workloadId
  constructor
  · intro b r' hb
    rcases hrequests b with ⟨-, hb'⟩ | ⟨r₁, rt, hr₁, hr', -⟩
    · rw [hb] at hb'
      cases hb'
    · obtain rfl := Option.some.inj (hb.symm.trans hr')
      rw [Dict.get?_set] at hr₁
      split_ifs at hr₁ with hab
      · obtain rfl := Option.some.inj hr₁
        exact hab ▸ hs.foldl_self hr howns hs'
      · exact hother b r₁ hab hr₁
  · intro c hc b r' hne hb
    obtain rfl : a = c := Option.some.inj hc
    refine ⟨?_, hother b r' hne hb⟩
    rcases hrequests b with ⟨hnone, -⟩ | ⟨r₁, rt, hr₁, hr', -, -, hkeep⟩
    · rw [Dict.get?_set, if_neg hne, hb] at hnone
      cases hnone
    · rw [Dict.get?_set, if_neg hne, hb] at hr₁
      obtain rfl := Option.some.inj hr₁
      exact ⟨_, hr', hkeep (Set.notMem_empty b)⟩

theorem cancelExecution (hs : Apart s) (hguard : KeepsApart s (.cancelExecution a)) :
    Apart (s.cancelExecution a).1 ∧
      LeavesOthers s (.cancelExecution a) (s.cancelExecution a).1 := by
  obtain ⟨hactive, hsandboxes⟩ := cancelExecution_tables s a
  obtain ⟨hother, hself⟩ := cancelExecution_records hguard
  constructor
  · refine hs.of_records hactive hsandboxes fun b r' hb _ => ?_
    by_cases hab : b = a
    · exact hab ▸ hself r' (hab ▸ hb)
    · exact ⟨r', hother b hab ▸ hb, rfl, rfl⟩
  · intro c hc b r hne hb
    obtain rfl : a = c := Option.some.inj hc
    refine ⟨⟨r, (hother b hne).trans hb, rfl⟩, ?_⟩
    rw [hactive, hsandboxes]
    exact hs b r hb

theorem submitExecution (hs : Apart s) (spec : WorkloadSpec) (contextual : Bool)
    (expired : List String) : Apart (s.submitExecution a spec contextual expired).1 := by
  have hpruned : ∀ b r', (s.pruneStaleExecutions expired).executions.get? b = some r' →
      s.executions.get? b = some r' := by
    intro b r' hb
    rcases get?_pruneStaleExecutions s expired b with h | h
    · exact h ▸ hb
    · rw [h] at hb
      cases hb
  unfold State.submitExecution
  dsimp only
  split
  · exact hs.of_records rfl rfl fun b r' hb _ => ⟨r', hpruned b r' hb, rfl, rfl⟩
  · refine hs.of_records rfl rfl fun b r' hb huse => ?_
    simp only [Dict.get?_set] at hb
    split_ifs at hb
    · obtain rfl := Option.some.inj hb
      cases huse
    · exact ⟨r', hpruned b r' hb, rfl, rfl⟩

theorem ackExecution (hs : Apart s) (a : String) :
    Apart ((s.ackExecution a).toOption.elim s Prod.fst) := by
  unfold State.ackExecution
  split
  · exact hs
  · split_ifs
    · refine hs.of_records rfl rfl fun b r' hb _ => ?_
      have hb : (s.executions.erase a).get? b = some r' := hb
      rw [Dict.get?_erase] at hb
      split_ifs at hb
      exact ⟨r', hb, rfl, rfl⟩
    · exact hs

/-- **A step that keeps the attempts apart leaves them apart, and leaves the others alone.** -/
theorem step (hs : Apart s) (hguard : KeepsApart s act) (h : Worker.step cfg s act = some s') :
    Apart s' ∧ LeavesOthers s act s' := by
  cases act with
  | resume a event => exact hs.resume hguard h
  | cancelExecution a => exact Option.some.inj h ▸ hs.cancelExecution hguard
  | submitExecution a spec contextual expired =>
    exact ⟨Option.some.inj h ▸ hs.submitExecution spec contextual expired, nofun⟩
  | getExecution a => exact ⟨Option.some.inj h ▸ hs, nofun⟩
  | ackExecution a => exact ⟨Option.some.inj h ▸ hs.ackExecution a, nofun⟩
  | cancelWorkload w =>
    obtain ⟨hactive, hsandboxes⟩ := cancelWorkload_tables s w
    obtain rfl := Option.some.inj h
    exact ⟨hs.of_requests hactive hsandboxes (.cancelWorkload s w), nofun⟩
  | checkpointWorkload w =>
    obtain ⟨hactive, hsandboxes⟩ := checkpointWorkload_tables s w
    obtain rfl := Option.some.inj h
    exact ⟨hs.of_requests (C := ∅) hactive hsandboxes (.checkpointWorkload s w), nofun⟩

end Apart

/-- **Attempts of a workload are isolated** along every run in which they are kept apart: each step
of an attempt leaves the runtime, the entry and the sandbox of every other one alone. -/
theorem attempt_isolation (h : Along (step cfg) KeepsApart {} as) :
    Along (step cfg) (fun s act => ∀ s', step cfg s act = some s' → LeavesOthers s act s')
      {} as := by
  have hinit : Apart {} := by
    intro b r hb
    rw [Dict.get?_empty] at hb
    cases hb
  refine h.imp (fun s act s' hs hguard hstep => (hs.step hguard hstep).1) ?_ hinit
  exact fun s act s' hs hguard _ s₁ h₁ => (hs.step hguard h₁).2

/-- Attempt `b` is started while attempt `a` of the same workload is running, which it asks to
checkpoint. -/
def retrySample : List Action :=
  [sampleExecution "a", .resume "a" (.start (.ok []) {}), sampleExecution "b",
    .resume "b" (.start (.ok []) {})]

/-- Attempt `a` ends in time, and attempt `b` is cancelled when it runs. -/
def retryInTime : List Action :=
  retrySample ++ [.resume "a" (.processEnd (.exited 0 "" "") false {}), .resume "b" (.aborted {}),
    .cancelExecution "b"]

theorem attempt_isolation_retry : Along (step sampleWorkerConfig) KeepsApart {} retryInTime ∧
    Along (step sampleWorkerConfig) (fun s act => ∀ s',
      step sampleWorkerConfig s act = some s' → LeavesOthers s act s') {} retryInTime := by
  have h : Along (step sampleWorkerConfig) KeepsApart {} retryInTime := by
    decide +kernel
  exact ⟨h, attempt_isolation h⟩

/-- Attempt `b` does not wait for attempt `a` to end, and takes its entry and its sandbox away. -/
theorem sandbox_taken_over :
    ¬ ∀ as : List Action, Along (step sampleWorkerConfig) (fun _ _ => True) {} as →
      Along (step sampleWorkerConfig)
        (fun s act => ∀ s', step sampleWorkerConfig s act = some s' → LeavesOthers s act s')
          {} as := by
  intro hclaim
  have hrun : (runFrom (step sampleWorkerConfig) {} retrySample).bind (fun s =>
      (step sampleWorkerConfig s (.resume "b" (.aborted {}))).bind fun s' =>
        (s.executions.get? "a").map fun r => (r.spec.workloadId, r.pc, s'.sandboxes.get? "w")) =
      some ("w", .executing none, some "b") := by
    decide +kernel
  obtain ⟨s, hs, h⟩ := Option.bind_eq_some_iff.1 hrun
  obtain ⟨s', hs', h⟩ := Option.bind_eq_some_iff.1 h
  obtain ⟨r, hr, hv⟩ := Option.map_eq_some_iff.1 h
  obtain ⟨hw, hpc, hsandbox⟩ : r.spec.workloadId = "w" ∧ r.pc = .executing none ∧
      s'.sandboxes.get? "w" = some "b" := by simpa using hv
  have hall : runFrom (step sampleWorkerConfig) {}
      (retrySample ++ [.resume "b" (.aborted {})]) = some s' :=
    runFrom_append.2 ⟨s, hs, runFrom_cons.2 ⟨s', hs', rfl⟩⟩
  have hleaves := (hclaim _ (along_of_run hall)).at_step hs s' hs'
  have hkept := (hleaves "b" rfl "a" r (by decide) hr).2.2 (by rw [hpc]; rfl)
  rw [hw, hsandbox] at hkept
  exact absurd (Option.some.inj hkept) (by decide)

end Aidars.Worker
