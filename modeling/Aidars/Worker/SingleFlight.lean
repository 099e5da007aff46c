import Aidars.Foundations.Collections
import Aidars.Foundations.Run

/-!
# Single flight

Concurrent calls of `run_shared` with one key share an execution: the first one leads and awaits the
operation in its own task, the others await its future through a shield. The lock is never held
across an `await`, so what a call does up to its operation or its future is one step, and so is all
that it does after the operation has ended. A future is named by the call that created it.

`isolation` says what the callers can rely on in all interleavings of calls, cancellations and ends
of operations. The leader passes its own cancellation on to the future, so a follower that nobody
cancelled gets a `CancelledError` (`follower_cancelled`); this is excluded along the runs in which
no cancelled leader has such a follower (`KeepsFollowers`).
-/

namespace Aidars.SingleFlight

variable {K C V E : Type*}

/-- How an operation or a call ends: it returns a value, or raises an exception or a
`CancelledError`. -/
inductive Outcome (V E : Type*)
  | value (v : V)
  | exception (e : E)
  | cancelledError
  deriving DecidableEq

/-- Where a call is: before its first step, awaiting its operation, awaiting the future of another
call; or it has ended, with an outcome of its own or a shared one. -/
inductive Phase (K C V E : Type*)
  | created (key : K)
  | executing (key : K)
  | awaiting (owner : C)
  | ended (outcome : Outcome V E) (isShared : Bool)
  deriving DecidableEq

/-- A call of `run_shared`, and whether its task was cancelled during it. -/
structure Call (K C V E : Type*) where
  phase : Phase K C V E
  cancelRequested : Bool := false
  deriving DecidableEq

/-- The flights by key, the futures, of which the pending ones have no outcome, and the calls. -/
structure State (K C V E : Type*) [DecidableEq K] [DecidableEq C] where
  flights : Dict K C := ∅
  futures : Dict C (Option (Outcome V E)) := ∅
  calls : Dict C (Call K C V E) := ∅

section Steps

variable [DecidableEq K] [DecidableEq C]

namespace State

/-- The future is done. -/
def futureDone (s : State K C V E) (owner : C) : Bool := ((s.futures.get? owner).getD none).isSome

/-- A new call. -/
def call (s : State K C V E) (c : C) (key : K) : Option (State K C V E) :=
  match s.calls.get? c with
  | none => some { s with calls := s.calls.set c { phase := .created key } }
  | some _ => none

/-- Become the owner of a new flight, and start its operation. -/
def lead (s : State K C V E) (c : C) (key : K) : State K C V E where
  flights := s.flights.set key c
  futures := s.futures.set c none
  calls := s.calls.set c { phase := .executing key }

/-- The first step of a call: join the flight of its key unless its future is done, or lead. -/
def start (s : State K C V E) (c : C) : Option (State K C V E) :=
  match s.calls.get? c with
  | some ⟨.created key, false⟩ =>
    match s.flights.get? key with
    | some owner =>
      if s.futureDone owner then some (s.lead c key)
      else some { s with calls := s.calls.set c { phase := .awaiting owner } }
    | none => some (s.lead c key)
  | _ => none

/-- Cancel the task of a call that has not ended. -/
def cancel (s : State K C V E) (c : C) : Option (State K C V E) :=
  match s.calls.get? c with
  | some ⟨.ended _ _, _⟩ | none => none
  | some call => some { s with calls := s.calls.set c { call with cancelRequested := true } }

/-- The operation of a leader ends. Its future gets the outcome, its flight is removed, and the
leader returns the result or raises the exception. -/
def endOperation (s : State K C V E) (c : C) (o : Outcome V E) : Option (State K C V E) :=
  match s.calls.get? c with
  | some ⟨.executing key, cancelRequested⟩ => some
    { flights := if s.flights.get? key = some c then s.flights.erase key else s.flights
      futures := if s.futureDone c then s.futures else s.futures.set c (some o)
      calls := s.calls.set c ⟨.ended o false, cancelRequested⟩ }
  | _ => none

/-- A follower resumes when its future is done. -/
def wake (s : State K C V E) (c : C) : Option (State K C V E) :=
  match s.calls.get? c with
  | some ⟨.awaiting owner, false⟩ =>
    match s.futures.get? owner with
    | some (some o) => some { s with calls := s.calls.set c ⟨.ended o true, false⟩ }
    | _ => none
  | _ => none

/-- A call that was cancelled before its first step or while it awaits a future raises. The shield
keeps the cancellation from the future. -/
def raiseCancelled (s : State K C V E) (c : C) : Option (State K C V E) :=
  match s.calls.get? c with
  | some ⟨.created _, true⟩ =>
    some { s with calls := s.calls.set c ⟨.ended .cancelledError false, true⟩ }
  | some ⟨.awaiting _, true⟩ =>
    some { s with calls := s.calls.set c ⟨.ended .cancelledError true, true⟩ }
  | _ => none

end State

/-- The steps of the callers, and the ends of their operations. -/
inductive Action (K C V E : Type*)
  | call (c : C) (key : K)
  | start (c : C)
  | cancel (c : C)
  | endOperation (c : C) (o : Outcome V E)
  | wake (c : C)
  | raiseCancelled (c : C)

/-- One step. -/
def step (s : State K C V E) : Action K C V E → Option (State K C V E)
  | .call c key => s.call c key
  | .start c => s.start c
  | .cancel c => s.cancel c
  | .endOperation c o => s.endOperation c o
  | .wake c => s.wake c
  | .raiseCancelled c => s.raiseCancelled c

variable {s s' : State K C V E} {a : Action K C V E} {as : List (Action K C V E)} {c c' : C}
  {key : K}

/-! ## What a step can do -/

/-- The operation of a call is running. -/
def Executing (s : State K C V E) (c : C) (key : K) : Prop :=
  ∃ b, s.calls.get? c = some ⟨.executing key, b⟩

/-- One step of a call: what it writes to the flights, the futures and its own record. -/
inductive Moves (s : State K C V E) : Action K C V E → State K C V E → Prop
  | called (c : C) (key : K) (hnew : s.calls.get? c = none) :
    Moves s (.call c key) { s with calls := s.calls.set c { phase := .created key } }
  | led (c : C) (key : K) (hc : s.calls.get? c = some ⟨.created key, false⟩)
      (hfree : ∀ owner, s.flights.get? key = some owner → s.futureDone owner = true) :
    Moves s (.start c) (s.lead c key)
  | joined (c owner : C) (key : K) (hc : s.calls.get? c = some ⟨.created key, false⟩)
      (hflight : s.flights.get? key = some owner) (hpending : s.futureDone owner = false) :
    Moves s (.start c) { s with calls := s.calls.set c { phase := .awaiting owner } }
  | cancelled (c : C) (p : Phase K C V E) (b : Bool) (hc : s.calls.get? c = some ⟨p, b⟩)
      (hlive : ∀ o shared, p ≠ .ended o shared) :
    Moves s (.cancel c) { s with calls := s.calls.set c ⟨p, true⟩ }
  | operated (c : C) (key : K) (b : Bool) (o : Outcome V E)
      (hc : s.calls.get? c = some ⟨.executing key, b⟩) :
    Moves s (.endOperation c o)
      { flights := if s.flights.get? key = some c then s.flights.erase key else s.flights
        futures := if s.futureDone c then s.futures else s.futures.set c (some o)
        calls := s.calls.set c ⟨.ended o false, b⟩ }
  | woken (c owner : C) (o : Outcome V E) (hc : s.calls.get? c = some ⟨.awaiting owner, false⟩)
      (hdone : s.futures.get? owner = some (some o)) :
    Moves s (.wake c) { s with calls := s.calls.set c ⟨.ended o true, false⟩ }
  | raised (c : C) (p : Phase K C V E) (shared : Bool) (hc : s.calls.get? c = some ⟨p, true⟩)
      (hp : (∃ key, p = .created key) ∨ ∃ owner, p = .awaiting owner) :
    Moves s (.raiseCancelled c)
      { s with calls := s.calls.set c ⟨.ended .cancelledError shared, true⟩ }

/-- **What a step can do.** -/
theorem step_moves (h : step s a = some s') : Moves s a s' := by
  cases a with
  | call c key =>
    simp only [step, State.call] at h
    split at h
    · rename_i hnew
      obtain rfl := Option.some.inj h
      exact .called c key hnew
    · cases h
  | start c =>
    simp only [step, State.start] at h
    split at h
    · rename_i key hc
      split at h
      · rename_i owner hflight
        split_ifs at h with hdone
        · obtain rfl := Option.some.inj h
          refine .led c key hc fun owner' hflight' => ?_
          rwa [← Option.some.inj (hflight.symm.trans hflight')]
        · obtain rfl := Option.some.inj h
          exact .joined c owner key hc hflight (by simpa using hdone)
      · rename_i hnone
        obtain rfl := Option.some.inj h
        exact .led c key hc fun owner hflight => absurd hflight (by simp [hnone])
    · cases h
  | cancel c =>
    simp only [step, State.cancel] at h
    split at h
    · cases h
    · cases h
    · rename_i call hlive hcall
      obtain rfl := Option.some.inj h
      exact .cancelled c call.phase call.cancelRequested hcall fun o shared hp =>
        hlive o shared call.cancelRequested (by rw [← hp])
  | endOperation c o =>
    simp only [step, State.endOperation] at h
    split at h
    · rename_i key b hc
      obtain rfl := Option.some.inj h
      exact .operated c key b o hc
    · cases h
  | wake c =>
    simp only [step, State.wake] at h
    split at h
    · rename_i owner hc
      split at h
      · rename_i o hdone
        obtain rfl := Option.some.inj h
        exact .woken c owner o hc hdone
      · cases h
    · cases h
  | raiseCancelled c =>
    simp only [step, State.raiseCancelled] at h
    split at h
    · rename_i hc
      obtain rfl := Option.some.inj h
      exact .raised c _ false hc (.inl ⟨_, rfl⟩)
    · rename_i hc
      obtain rfl := Option.some.inj h
      exact .raised c _ true hc (.inr ⟨_, rfl⟩)
    · cases h

/-! ## Flights and futures -/

/-- Flights, futures and calls agree: the flights are those of the running operations, whose futures
are pending; a future that is done has the outcome of its leader; and the future of a follower is
pending while the operation runs, then done. -/
structure Inv (s : State K C V E) : Prop where
  flight : ∀ key c, s.flights.get? key = some c → Executing s c key
  leader : ∀ c key, Executing s c key → s.flights.get? key = some c ∧ s.futures.get? c = some none
  future : ∀ c o, s.futures.get? c = some (some o) → ∃ b, s.calls.get? c = some ⟨.ended o false, b⟩
  follower : ∀ c owner b, s.calls.get? c = some ⟨.awaiting owner, b⟩ →
    (∃ key, Executing s owner key) ∨ ∃ o, s.futures.get? owner = some (some o)

theorem inv_init : Inv ({} : State K C V E) := by
  refine ⟨fun key c h => ?_, fun c key h => ?_, fun c o h => ?_, fun c owner b h => ?_⟩
  · simp at h
  · simp [Executing] at h
  · simp at h
  · simp at h

theorem Inv.not_futureDone (hs : Inv s) (h : Executing s c key) : s.futureDone c = false := by
  simp [State.futureDone, (hs.leader c key h).2]

/-- A flight is never stale. -/
theorem Inv.free (hs : Inv s)
    (hfree : ∀ owner, s.flights.get? key = some owner → s.futureDone owner = true) :
    s.flights.get? key = none := by
  cases hf : s.flights.get? key with
  | none => rfl
  | some owner =>
    have hdone := hfree owner hf
    rw [hs.not_futureDone (hs.flight key owner hf)] at hdone
    cases hdone

/-- A step of a call that neither starts nor ends an operation. -/
theorem Inv.set_call (hs : Inv s) {call : Call K C V E}
    (hold : ∀ key, Executing s c key → ∃ b, call = ⟨.executing key, b⟩)
    (hnew : ∀ key, call.phase = .executing key → Executing s c key)
    (hended : ∀ o b, s.calls.get? c ≠ some ⟨.ended o false, b⟩)
    (hawait : ∀ owner, call.phase = .awaiting owner →
      (∃ key, Executing s owner key) ∨ ∃ o, s.futures.get? owner = some (some o)) :
    Inv { s with calls := s.calls.set c call } := by
  have hexec : ∀ c' key, Executing { s with calls := s.calls.set c call } c' key ↔
      Executing s c' key := by
    intro c' key
    simp only [Executing, Dict.get?_set]
    split_ifs with hc
    · rw [hc]
      constructor
      · rintro ⟨b, hb⟩
        exact hnew key (by rw [Option.some.inj hb])
      · intro h
        obtain ⟨b, hb⟩ := hold key h
        exact ⟨b, by rw [hb]⟩
    · rfl
  refine ⟨fun key c' h => ?_, fun c' key h => ?_, fun c' o h => ?_, fun c' owner b h => ?_⟩
  · exact (hexec c' key).2 (hs.flight key c' h)
  · exact hs.leader c' key ((hexec c' key).1 h)
  · obtain ⟨b, hb⟩ := hs.future c' o h
    refine ⟨b, ?_⟩
    rw [Dict.get?_set, if_neg]
    · exact hb
    · rintro rfl
      exact hended o b hb
  · have hfollow : (∃ key, Executing s owner key) ∨
        ∃ o, s.futures.get? owner = some (some o) := by
      rw [Dict.get?_set] at h
      split_ifs at h with hc
      · exact hawait owner (by rw [Option.some.inj h])
      · exact hs.follower c' owner b h
    rcases hfollow with ⟨key, hkey⟩ | hdone
    · exact .inl ⟨key, (hexec owner key).2 hkey⟩
    · exact .inr hdone

/-- A step of a call that has no operation, before or after it. -/
theorem Inv.set_idle (hs : Inv s) {call : Call K C V E}
    (hold : ∀ key b, s.calls.get? c ≠ some ⟨.executing key, b⟩)
    (hended : ∀ o b, s.calls.get? c ≠ some ⟨.ended o false, b⟩)
    (hnew : ∀ key, call.phase ≠ .executing key)
    (hawait : ∀ owner, call.phase = .awaiting owner →
      (∃ key, Executing s owner key) ∨ ∃ o, s.futures.get? owner = some (some o)) :
    Inv { s with calls := s.calls.set c call } := by
  refine hs.set_call ?_ (fun key h => absurd h (hnew key)) hended hawait
  rintro key ⟨b, hb⟩
  exact absurd hb (hold key b)

theorem Inv.lead (hs : Inv s) (hc : s.calls.get? c = some ⟨.created key, false⟩)
    (hnone : s.flights.get? key = none) : Inv (s.lead c key) := by
  have hexec : ∀ c' key', Executing (s.lead c key) c' key' ↔
      (c' = c ∧ key' = key) ∨ (c' ≠ c ∧ Executing s c' key') := by
    intro c' key'
    simp only [Executing, State.lead, Dict.get?_set]
    split_ifs with h
    · simp [h, eq_comm]
    · simp [h]
  refine ⟨fun key' c' h => ?_, fun c' key' h => ?_, fun c' o h => ?_, fun c' owner b h => ?_⟩
  · rw [hexec]
    simp only [State.lead, Dict.get?_set] at h
    split_ifs at h with hk
    · exact .inl ⟨(Option.some.inj h).symm, hk⟩
    · refine .inr ⟨?_, hs.flight key' c' h⟩
      rintro rfl
      obtain ⟨b, hb⟩ := hs.flight key' c' h
      rw [hc] at hb
      cases hb
  · simp only [State.lead, Dict.get?_set]
    rcases (hexec c' key').1 h with ⟨rfl, rfl⟩ | ⟨hne, h⟩
    · simp
    · obtain ⟨hflight, hfuture⟩ := hs.leader c' key' h
      rw [if_neg hne, if_neg]
      · exact ⟨hflight, hfuture⟩
      · rintro rfl
        rw [hnone] at hflight
        cases hflight
  · simp only [State.lead, Dict.get?_set] at h ⊢
    split_ifs at h ⊢ with hne
    · cases h
    · exact hs.future c' o h
  · simp only [State.lead, Dict.get?_set] at h
    split_ifs at h with hne
    · cases h
    · rcases hs.follower c' owner b h with ⟨k, hk⟩ | ⟨o, ho⟩
      · by_cases howner : owner = c
        · exact .inl ⟨key, (hexec owner key).2 (.inl ⟨howner, rfl⟩)⟩
        · exact .inl ⟨k, (hexec owner k).2 (.inr ⟨howner, hk⟩)⟩
      · refine .inr ⟨o, ?_⟩
        simp only [State.lead, Dict.get?_set]
        rw [if_neg]
        · exact ho
        · rintro rfl
          obtain ⟨b', hb'⟩ := hs.future owner o ho
          rw [hc] at hb'
          cases hb'

theorem Inv.operated (hs : Inv s) {b : Bool} (hc : s.calls.get? c = some ⟨.executing key, b⟩)
    (o : Outcome V E) : Inv
      { flights := if s.flights.get? key = some c then s.flights.erase key else s.flights
        futures := if s.futureDone c then s.futures else s.futures.set c (some o)
        calls := s.calls.set c ⟨.ended o false, b⟩ } := by
  obtain ⟨hflight, hfuture⟩ := hs.leader c key ⟨b, hc⟩
  rw [if_pos hflight, hs.not_futureDone ⟨b, hc⟩, if_neg Bool.false_ne_true]
  have hexec : ∀ c' key', (∃ b', (s.calls.set c ⟨.ended o false, b⟩).get? c' =
      some ⟨.executing key', b'⟩) ↔ c' ≠ c ∧ Executing s c' key' := by
    intro c' key'
    simp only [Executing, Dict.get?_set]
    split_ifs with h
    · simp [h]
    · simp [h]
  refine ⟨fun key' c' h => ?_, fun c' key' h => ?_, fun c' o' h => ?_, fun c' owner b' h => ?_⟩
  · refine (hexec c' key').2 ?_
    rw [Dict.get?_erase] at h
    split_ifs at h with hk
    refine ⟨?_, hs.flight key' c' h⟩
    rintro rfl
    obtain ⟨b', hb'⟩ := hs.flight key' c' h
    rw [hc] at hb'
    cases hb'
    exact hk rfl
  · obtain ⟨hne, h⟩ := (hexec c' key').1 h
    obtain ⟨hflight', hfuture'⟩ := hs.leader c' key' h
    refine ⟨?_, ?_⟩
    · rw [Dict.get?_erase, if_neg]
      · exact hflight'
      · rintro rfl
        exact hne (Option.some.inj (hflight'.symm.trans hflight))
    · rw [Dict.get?_set, if_neg hne]
      exact hfuture'
  · rw [Dict.get?_set] at h ⊢
    split_ifs at h ⊢ with hc'
    · obtain rfl := Option.some.inj (Option.some.inj h)
      exact ⟨b, rfl⟩
    · exact hs.future c' o' h
  · rw [Dict.get?_set] at h
    split_ifs at h with hc'
    · cases h
    · by_cases howner : owner = c
      · exact .inr ⟨o, by rw [Dict.get?_set, if_pos howner]⟩
      · rcases hs.follower c' owner b' h with ⟨k, hk⟩ | ⟨o', ho'⟩
        · exact .inl ⟨k, (hexec owner k).2 ⟨howner, hk⟩⟩
        · exact .inr ⟨o', by rw [Dict.get?_set, if_neg howner, ho']⟩

/-- **Every step keeps flights, futures and calls in agreement.** -/
theorem inv_step (hs : Inv s) (h : step s a = some s') : Inv s' := by
  cases step_moves h with
  | called c key hnew =>
    exact hs.set_idle (by simp [hnew]) (by simp [hnew]) (by simp) (by simp)
  | led c key hc hfree => exact hs.lead hc (hs.free hfree)
  | joined c owner key hc hflight hpending =>
    refine hs.set_idle (by simp [hc]) (by simp [hc]) (by simp) fun owner' ho => ?_
    obtain rfl : owner = owner' := by simpa using ho
    exact .inl ⟨key, hs.flight key owner hflight⟩
  | cancelled c p b hc hlive =>
    refine hs.set_call ?_ ?_ ?_ ?_
    · rintro k ⟨b', hb'⟩
      rw [hc] at hb'
      cases hb'
      exact ⟨true, rfl⟩
    · rintro k rfl
      exact ⟨b, hc⟩
    · intro o b' hb'
      rw [hc] at hb'
      cases hb'
      exact hlive o false rfl
    · rintro owner rfl
      exact hs.follower c owner b hc
  | operated c key b o hc => exact hs.operated hc o
  | woken c owner o hc hdone =>
    exact hs.set_idle (by simp [hc]) (by simp [hc]) (by simp) (by simp)
  | raised c p shared hc hp =>
    rcases hp with ⟨key, rfl⟩ | ⟨owner, rfl⟩
    · exact hs.set_idle (by simp [hc]) (by simp [hc]) (by simp) (by simp)
    · exact hs.set_idle (by simp [hc]) (by simp [hc]) (by simp) (by simp)

/-! ## What the callers get -/

/-- The call is that of the leader, or awaits its future, while the operation runs. -/
def Shares (s : State K C V E) (c owner : C) : Prop :=
  (c = owner ∨ ∃ b, s.calls.get? c = some ⟨.awaiting owner, b⟩) ∧ ∃ key, Executing s owner key

/-- At some time in the run, the operation of the owner ran during the call. -/
def RanDuring (as : List (Action K C V E)) (c owner : C) : Prop :=
  ∃ as₁ as₂ s₁, as = as₁ ++ as₂ ∧ runFrom step {} as₁ = some s₁ ∧ Shares s₁ c owner

theorem RanDuring.append (h : RanDuring as c c') (a : Action K C V E) :
    RanDuring (as ++ [a]) c c' := by
  obtain ⟨as₁, as₂, s₁, rfl, hrun, hs₁⟩ := h
  exact ⟨as₁, as₂ ++ [a], s₁, List.append_assoc .., hrun, hs₁⟩

theorem RanDuring.of_shares (hrun : runFrom step {} as = some s) (h : Shares s c c') :
    RanDuring as c c' :=
  ⟨as, [], s, (List.append_nil as).symm, hrun, h⟩

/-- A leader that was cancelled and whose operation ends with the cancellation has no follower,
unless that is cancelled too. -/
def KeepsFollowers (s : State K C V E) : Action K C V E → Prop
  | .endOperation c .cancelledError => (∃ call ∈ s.calls.get? c, call.cancelRequested = true) →
      ∀ call ∈ s.calls.values, call.phase = .awaiting c → call.cancelRequested = true
  | _ => True

instance [DecidableEq V] [DecidableEq E] (s : State K C V E) (a : Action K C V E) :
    Decidable (KeepsFollowers s a) := by
  cases a with
  | endOperation c o => cases o <;> unfold KeepsFollowers <;> infer_instance
  | _ => exact .isTrue trivial

/-- What is known of the calls after the steps of `as`. -/
structure Served (as : List (Action K C V E)) (s : State K C V E) : Prop where
  inv : Inv s
  awaiting : ∀ c owner b, s.calls.get? c = some ⟨.awaiting owner, b⟩ → RanDuring as c owner
  kept : ∀ c owner, s.calls.get? c = some ⟨.awaiting owner, false⟩ →
    s.calls.get? owner ≠ some ⟨.ended .cancelledError false, true⟩
  ended : ∀ c o shared, s.calls.get? c = some ⟨.ended o shared, false⟩ → ∃ owner b,
    RanDuring as c owner ∧ s.calls.get? owner = some ⟨.ended o false, b⟩ ∧
      (o = .cancelledError → b = false)

theorem served_init : Served [] ({} : State K C V E) := by
  refine ⟨inv_init, fun c owner b h => ?_, fun c owner h => ?_, fun c o shared h => ?_⟩
  · simp at h
  · simp at h
  · simp at h

/-- A step of a call that does not end one. -/
theorem Served.set_call (hs : Served as s) (hinv : Inv s') {call : Call K C V E}
    (hcalls : s'.calls = s.calls.set c call)
    (hlive : ∀ o shared b, s.calls.get? c ≠ some ⟨.ended o shared, b⟩)
    (hnew : ∀ o shared b, call ≠ ⟨.ended o shared, b⟩)
    (hawait : ∀ owner b, call = ⟨.awaiting owner, b⟩ → RanDuring (as ++ [a]) c owner)
    (hkept : ∀ owner, call = ⟨.awaiting owner, false⟩ →
      s.calls.get? owner ≠ some ⟨.ended .cancelledError false, true⟩) : Served (as ++ [a]) s' := by
  have hended : ∀ c' o shared b, s'.calls.get? c' = some ⟨.ended o shared, b⟩ ↔
      s.calls.get? c' = some ⟨.ended o shared, b⟩ := by
    intro c' o shared b
    rw [hcalls, Dict.get?_set]
    split_ifs with h
    · rw [h, Option.some.injEq]
      exact iff_of_false (hnew o shared b) (hlive o shared b)
    · rfl
  refine ⟨hinv, fun c' owner b h => ?_, fun c' owner h => ?_, fun c' o shared h => ?_⟩
  · rw [hcalls, Dict.get?_set] at h
    split_ifs at h with hc
    · rw [hc]
      exact hawait owner b (Option.some.inj h)
    · exact (hs.awaiting c' owner b h).append a
  · rw [ne_eq, hended]
    rw [hcalls, Dict.get?_set] at h
    split_ifs at h with hc
    · exact hkept owner (Option.some.inj h)
    · exact hs.kept c' owner h
  · obtain ⟨owner, b, hran, howner, ho⟩ := hs.ended c' o shared ((hended c' o shared false).1 h)
    exact ⟨owner, b, hran.append a, (hended owner o false b).2 howner, ho⟩

theorem Served.end_call (hs : Served as s) (hinv : Inv s') {o : Outcome V E} {shared b : Bool}
    (hcalls : s'.calls = s.calls.set c ⟨.ended o shared, b⟩)
    (hlive : ∀ o shared b, s.calls.get? c ≠ some ⟨.ended o shared, b⟩)
    (hkept : (⟨.ended o shared, b⟩ : Call K C V E) = ⟨.ended .cancelledError false, true⟩ →
      ∀ c', s.calls.get? c' ≠ some ⟨.awaiting c, false⟩)
    (hdone : b = false → ∃ owner b', RanDuring (as ++ [a]) c owner ∧
      s'.calls.get? owner = some ⟨.ended o false, b'⟩ ∧ (o = .cancelledError → b' = false)) :
    Served (as ++ [a]) s' := by
  have hold : ∀ c' call, s.calls.get? c' = some call → (∀ o shared b, call ≠ ⟨.ended o shared, b⟩) ∨
      s'.calls.get? c' = some call := by
    intro c' call h
    by_cases hc : c' = c
    · refine .inl fun o shared b he => hlive o shared b ?_
      rw [← hc, h, he]
    · exact .inr (by rw [hcalls, Dict.get?_set, if_neg hc, h])
  refine ⟨hinv, fun c' owner b' h => ?_, fun c' owner h hcancelled => ?_, fun c' o' shared' h => ?_⟩
  · rw [hcalls, Dict.get?_set] at h
    split_ifs at h with hc
    · cases h
    · exact (hs.awaiting c' owner b' h).append a
  · rw [hcalls, Dict.get?_set] at h hcancelled
    split_ifs at h with hc
    · cases h
    · split_ifs at hcancelled with howner
      · exact hkept (Option.some.inj hcancelled) c' (howner ▸ h)
      · exact hs.kept c' owner h hcancelled
  · rw [hcalls, Dict.get?_set] at h
    split_ifs at h with hc
    · cases h
      rw [hc]
      exact hdone rfl
    · obtain ⟨owner, b', hran, howner, ho⟩ := hs.ended c' o' shared' h
      rcases hold owner _ howner with hne | howner
      · exact absurd rfl (hne o' false b')
      · exact ⟨owner, b', hran.append a, howner, ho⟩

/-- **Every step that keeps the followers serves the callers.** -/
theorem served_step (hrun : runFrom step {} as = some s) (hs : Served as s)
    (hg : KeepsFollowers s a) (h : step s a = some s') : Served (as ++ [a]) s' := by
  have hinv := inv_step hs.inv h
  have hrun' : runFrom step {} (as ++ [a]) = some s' :=
    runFrom_append.2 ⟨s, hrun, runFrom_cons.2 ⟨s', h, rfl⟩⟩
  cases step_moves h with
  | called c key hnew =>
    exact hs.set_call hinv rfl (by simp [hnew]) (by simp) (by simp) (by simp)
  | led c key hc hfree => exact hs.set_call hinv rfl (by simp [hc]) (by simp) (by simp) (by simp)
  | joined c owner key hc hflight hpending =>
    obtain ⟨b, hb⟩ := hs.inv.flight key owner hflight
    have hne : owner ≠ c := by
      rintro rfl
      rw [hc] at hb
      cases hb
    refine hs.set_call hinv rfl (by simp [hc]) (by simp)
      (fun owner' b' he => ?_) fun owner' he => ?_
    · obtain ⟨rfl, -⟩ : owner = owner' ∧ false = b' := by simpa using he
      refine .of_shares hrun' ⟨.inr ⟨false, ?_⟩, key, b, ?_⟩
      · simp
      · simp [hne, hb]
    · obtain rfl : owner = owner' := by simpa using he
      rw [hb]
      simp
  | cancelled c p b hc hlive =>
    refine hs.set_call hinv rfl (fun o shared b' he => ?_) (fun o shared b' he => ?_)
      (fun owner b' he => ?_) (by simp)
    · rw [hc] at he
      cases he
      exact hlive o shared rfl
    · cases he
      exact hlive o shared rfl
    · cases he
      exact (hs.awaiting c owner b hc).append _
  | operated c key b o hc =>
    refine hs.end_call hinv rfl (by simp [hc]) (fun he c' hc' => ?_) fun hb => ?_
    · cases he
      have hall := hg ⟨_, hc, rfl⟩ _ (Dict.mem_values.2 ⟨c', hc'⟩) rfl
      cases hall
    · refine ⟨c, b, ?_, by simp, fun _ => hb⟩
      exact RanDuring.append (.of_shares hrun ⟨.inl rfl, key, b, hc⟩) _
  | woken c owner o hc hdone =>
    refine hs.end_call hinv rfl (by simp [hc]) (by simp) fun _ => ?_
    obtain ⟨b, hb⟩ := hs.inv.future owner o hdone
    have hne : owner ≠ c := by
      rintro rfl
      rw [hc] at hb
      cases hb
    refine ⟨owner, b, (hs.awaiting c owner false hc).append _, by simp [hne, hb], fun ho => ?_⟩
    cases b with
    | false => rfl
    | true => exact absurd (ho ▸ hb) (hs.kept c owner hc)
  | raised c p shared hc hp =>
    have hidle : (∀ key b, s.calls.get? c ≠ some ⟨.executing key, b⟩) ∧
        ∀ o shared b, s.calls.get? c ≠ some ⟨.ended o shared, b⟩ := by
      rcases hp with ⟨key, rfl⟩ | ⟨owner, rfl⟩ <;> simp [hc]
    refine hs.end_call hinv rfl hidle.2 (fun _ c' hc' => ?_) (by simp)
    -- nobody awaits a call that does not lead
    rcases hs.inv.follower c' c false hc' with ⟨key, b, hb⟩ | ⟨o, ho⟩
    · exact hidle.1 key b hb
    · obtain ⟨b, hb⟩ := hs.inv.future c o ho
      exact hidle.2 o false b hb

/-- What the callers can rely on after the steps of `as`. At most one operation runs for a key. A
call that ends without having been cancelled ends with the outcome of an operation that ran during
it, and with a `CancelledError` only if the leader of that operation was not cancelled either. A
follower whose operation has ended can resume. And a call that starts when no operation runs for its
key starts one. -/
structure Isolated (as : List (Action K C V E)) (s : State K C V E) : Prop where
  exclusive : ∀ key c₁ c₂, Executing s c₁ key → Executing s c₂ key → c₁ = c₂
  outcome : ∀ c o shared, s.calls.get? c = some ⟨.ended o shared, false⟩ → ∃ owner b,
    RanDuring as c owner ∧ s.calls.get? owner = some ⟨.ended o false, b⟩ ∧
      (o = .cancelledError → b = false)
  resumes : ∀ c owner, s.calls.get? c = some ⟨.awaiting owner, false⟩ →
    (∀ key, ¬ Executing s owner key) → ∃ s', step s (.wake c) = some s'
  fresh : ∀ c key, s.calls.get? c = some ⟨.created key, false⟩ → (∀ c', ¬ Executing s c' key) →
    ∃ s', step s (.start c) = some s' ∧ Executing s' c key

/-- **Single flight** isolates the callers along every run in which no leader passes its
cancellation on to a follower that is not cancelled. -/
theorem isolation (hg : Along step KeepsFollowers {} as) (hrun : runFrom step {} as = some s) :
    Isolated as s := by
  have hs : Served as s :=
    hg.history (fun _ _ _ _ hr hserved hp hstep => served_step hr hserved hp hstep) served_init hrun
  refine ⟨fun key c₁ c₂ h₁ h₂ => ?_, hs.ended, fun c owner hc hend => ?_, fun c key hc hfree => ?_⟩
  · exact Option.some.inj ((hs.inv.leader c₁ key h₁).1.symm.trans (hs.inv.leader c₂ key h₂).1)
  · rcases hs.inv.follower c owner false hc with ⟨key, hkey⟩ | ⟨o, ho⟩
    · exact absurd hkey (hend key)
    · refine ⟨{ s with calls := s.calls.set c ⟨.ended o true, false⟩ }, ?_⟩
      simp only [step, State.wake, hc, ho]
  · have hnone : s.flights.get? key = none := by
      cases hf : s.flights.get? key with
      | none => rfl
      | some owner => exact absurd (hs.inv.flight key owner hf) (hfree owner)
    refine ⟨s.lead c key, ?_, false, ?_⟩
    · simp only [step, State.start, hc, hnone]
    · simp [State.lead]

end Steps

/-! ## Sample runs -/

/-- Two calls for one key, the second of which follows the first. -/
def sampleFlight : List (Action String ℕ String String) :=
  [.call 1 "asset", .call 2 "asset", .start 1, .start 2]

/-- A follower that is cancelled leaves the flight alone. -/
theorem isolation_follower :
    ∃ s : State String ℕ String String, runFrom step {}
        (sampleFlight ++ [.cancel 2, .raiseCancelled 2, .endOperation 1 (.value "bytes")]) =
          some s ∧
      s.calls.get? 1 = some ⟨.ended (.value "bytes") false, false⟩ ∧
      ∃ owner, RanDuring
        (sampleFlight ++
          [.cancel 2, .raiseCancelled 2, .endOperation 1 (.value "bytes")]) 1 owner := by
  have hguard : Along step KeepsFollowers ({} : State String ℕ String String)
      (sampleFlight ++ [.cancel 2, .raiseCancelled 2, .endOperation 1 (.value "bytes")]) := by
    decide +kernel
  have hsample : (runFrom step ({} : State String ℕ String String)
      (sampleFlight ++ [.cancel 2, .raiseCancelled 2, .endOperation 1 (.value "bytes")])).bind
        (fun s => s.calls.get? 1) = some ⟨.ended (.value "bytes") false, false⟩ := by decide +kernel
  obtain ⟨s, hs, hc⟩ := Option.bind_eq_some_iff.1 hsample
  obtain ⟨owner, b, hran, -⟩ := (isolation hguard hs).outcome 1 _ _ hc
  exact ⟨s, hs, hc, owner, hran⟩

/-- A follower that nobody has cancelled raises the `CancelledError` of a cancelled leader. -/
theorem follower_cancelled :
    ¬ ∀ (as : List (Action String ℕ String String)) (s : State String ℕ String String),
      runFrom step {} as = some s → Isolated as s := by
  intro hclaim
  have hrun : (runFrom step ({} : State String ℕ String String)
      (sampleFlight ++ [.cancel 1, .endOperation 1 .cancelledError, .wake 2])).map (fun s =>
        (s.calls.get? 2, s.calls.entries)) = some (some ⟨.ended .cancelledError true, false⟩,
          [(1, ⟨.ended .cancelledError false, true⟩),
            (2, ⟨.ended .cancelledError true, false⟩)]) := by
    decide +kernel
  obtain ⟨s, hs, hv⟩ := Option.map_eq_some_iff.1 hrun
  obtain ⟨hc, hentries⟩ := Prod.mk.inj hv
  obtain ⟨owner, b, -, howner, hb⟩ := (hclaim _ s hs).outcome 2 _ _ hc
  rw [← Dict.mem_entries, hentries] at howner
  obtain rfl := hb rfl
  simp at howner

end Aidars.SingleFlight
