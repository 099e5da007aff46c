import Aidars.Cache.Eviction
import Aidars.Cache.Reconciliation

/-!
# Verification and reconciliation from any disk

What a verification of a row, a pass over all rows and a reconciliation come to, whatever the states
of the rows and whatever the files hold. Each ends in an update of a state that the table of
transitions may refuse, or in the deletion of a file that may be locked: `maintenance_settles_iff`
says when they settle every row they examine.
-/

namespace Aidars.Cache

open Prog

variable {cfg : CacheConfig} {locked : String → Bool} {d d' : CacheDisk} {h : String}
  {entry : CacheEntry} {data : Bytes} {deepCheck autoEvict : Bool}

/-! ## The row and the file of a hash -/

/-- The row and the file of a hash. -/
def itemAt (d : CacheDisk) (h : String) : Option CacheEntry × Option Bytes :=
  (d.entries.get? h, d.objects.get? h)

@[simp] theorem itemAt_setState (d : CacheDisk) (h k : String) (status : CacheState) :
    itemAt (setState d h status) k =
      if k = h then ((d.entries.get? h).map ({ · with state := status }), d.objects.get? h)
      else itemAt d k := by
  simp only [itemAt, get?_setState, objects_setState]
  split
  case isTrue heq => rw [heq]
  case isFalse => rfl

@[simp] theorem itemAt_dropRow (d : CacheDisk) (h k : String) :
    itemAt (dropRow d h) k = if k = h then (none, d.objects.get? h) else itemAt d k := by
  simp only [itemAt, dropRow, Dict.get?_erase]
  split
  case isTrue heq => rw [heq]
  case isFalse => rfl

@[simp] theorem itemAt_dropObject (d : CacheDisk) (h k : String) :
    itemAt (dropObject d h) k = if k = h then (d.entries.get? h, none) else itemAt d k := by
  simp only [itemAt, dropObject, Dict.get?_erase]
  split
  case isTrue heq => rw [heq]
  case isFalse => rfl

/-- A file is what a row says. Only a deep check looks at its hash. -/
def IsRight (cfg : CacheConfig) (deepCheck : Bool) (h : String) (entry : CacheEntry)
    (file : Option Bytes) : Prop :=
  ∃ data, file = some data ∧ data.length = entry.sizeBytes ∧
    (deepCheck = true → cfg.sha256 data = h)

theorem not_isRight_none : ¬IsRight cfg deepCheck h entry none := by
  simp [IsRight]

/-- What the checks of a file ask. -/
theorem isRight_some : IsRight cfg deepCheck h entry (some data) ↔
    ¬(data.length ≠ entry.sizeBytes ∨ (deepCheck = true ∧ cfg.sha256 data ≠ h)) := by
  simp [IsRight]

/-- A row is in the state `valid` exactly if the file is what the row said. -/
def Verified (cfg : CacheConfig) (deepCheck : Bool) (h : String) (entry : CacheEntry)
    (item : Option CacheEntry × Option Bytes) : Prop :=
  (∃ entry', item.1 = some entry' ∧ entry'.state = .valid) ↔
    IsRight cfg deepCheck h entry item.2

/-- A row that is gone is verified if the file is not what it said. -/
theorem verified_none {file : Option Bytes} (hwrong : ¬IsRight cfg deepCheck h entry file) :
    Verified cfg deepCheck h entry (none, file) := by
  simp [Verified, hwrong]

theorem verified_setState {status : CacheState} (hentry : d.entries.get? h = some entry)
    (hstatus : status = .valid ↔ IsRight cfg deepCheck h entry (d.objects.get? h)) :
    Verified cfg deepCheck h entry (itemAt (setState d h status) h) := by
  simpa [Verified, hentry] using hstatus

/-! ## Verification of one row -/

/-- The last of two changes of a state counts. -/
theorem setState_setState_of (d : CacheDisk) (h : String) (status status' : CacheState) :
    setState (setState d h status) h status' = setState d h status' := by
  simp only [setState, Dict.modify_modify]
  rfl

/-- A row that is not being evicted can be marked as being verified. -/
theorem run_updateStatus_verifying (hv : validateHash h = .ok h)
    (hentry : d.entries.get? h = some entry) (hstate : entry.state ≠ .evicting) :
    (updateStatus h .verifying).run d = (.ok true, setState d h .verifying) := by
  apply run_updateStatus (lowerText_of_valid hv) hentry
  revert hstate
  cases entry.state <;> decide

/-- From there any outcome of the checks can be noted. -/
theorem run_updateStatus_verified {status : CacheState} (hv : validateHash h = .ok h)
    (hentry : d.entries.get? h = some entry)
    (hstatus : status ∈ validTransitions .verifying) :
    (updateStatus h status).run (setState d h .verifying) = (.ok true, setState d h status) := by
  have hmarked : (setState d h .verifying).entries.get? h =
      some { entry with state := .verifying } := by
    simp [hentry]
  rw [run_updateStatus (lowerText_of_valid hv) hmarked (.inl hstatus), setState_setState_of]

/-- **A row that is not being evicted is settled by its verification**, and nothing else changes. -/
theorem run_verifyEntryLocked_settles (cfg : CacheConfig) (locked : String → Bool)
    (deepCheck : Bool) (hv : validateHash h = .ok h)
    (hentry : d.entries.get? h = some entry) (hstate : entry.state ≠ .evicting) :
    ∃ isValid status, (verifyEntryLocked cfg locked h deepCheck false).run d =
        (.ok isValid, setState d h status) ∧
      (isValid = true ↔ IsRight cfg deepCheck h entry (d.objects.get? h)) ∧
      (status = .valid ↔ IsRight cfg deepCheck h entry (d.objects.get? h)) := by
  rw [verifyEntryLocked, lowerText_of_valid hv, run_read_bind, getEntry_of_valid hv, hentry]
  dsimp only
  rw [run_bind_ok (run_updateStatus_verifying hv hentry hstate), run_read_bind,
    objectExists_of_valid hv, objects_setState]
  cases hdata : d.objects.get? h with
  | none =>
    refine ⟨false, .absent, ?_, by simp [not_isRight_none], by simp [not_isRight_none]⟩
    rw [if_neg (by simp)]
    dsimp only
    rw [if_neg Bool.false_ne_true,
      run_bind_ok (run_updateStatus_verified hv hentry (by decide)), run_pure]
  | some data =>
    rw [if_pos (Option.isSome_some), isRight_some]
    dsimp only
    by_cases hwrong : data.length ≠ entry.sizeBytes ∨ (deepCheck = true ∧ cfg.sha256 data ≠ h)
    · refine ⟨false, .corrupted, ?_, by simp [hwrong], by simp [hwrong]⟩
      rw [if_pos hwrong, if_neg Bool.false_ne_true,
        run_bind_ok (run_updateStatus_verified hv hentry (by decide)), run_pure]
    · refine ⟨true, .valid, ?_, by simp [hwrong], by simp [hwrong]⟩
      rw [if_neg hwrong, run_bind_ok (run_updateStatus_verified hv hentry (by decide)), run_pure]

/-- A row that is being evicted cannot be marked as being verified. -/
theorem run_verifyEntryLocked_refused (cfg : CacheConfig) (locked : String → Bool)
    (deepCheck autoEvict : Bool) (hv : validateHash h = .ok h)
    (hentry : d.entries.get? h = some entry) (hstate : entry.state = .evicting) :
    ∃ e, (verifyEntryLocked cfg locked h deepCheck autoEvict).run d = (.error e, d) := by
  have hno : CacheState.verifying ∉ validTransitions entry.state ∧ entry.state ≠ .verifying := by
    rw [hstate]
    decide
  refine ⟨.invalidTransition entry.state .verifying, ?_⟩
  rw [verifyEntryLocked, lowerText_of_valid hv, run_read_bind, getEntry_of_valid hv, hentry]
  dsimp only
  rw [run_bind_error (run_updateStatus_error (lowerText_of_valid hv) hentry hno)]

/-! ## A pass over all rows -/

theorem mayBecome_valid {state : CacheState} :
    (.valid ∈ validTransitions state ∨ state = .valid) ↔
      state ∈ [CacheState.verifying, .valid, .evicting] := by
  cases state <;> decide

theorem mayBecome_corrupted {state : CacheState} :
    (.corrupted ∈ validTransitions state ∨ state = .corrupted) ↔
      state ∈ [CacheState.verifying, .valid, .corrupted] := by
  cases state <;> decide

/-- What a pass finds can be noted in a row. -/
def CanNote (cfg : CacheConfig) (autoEvict : Bool) (row : String × CacheEntry)
    (file : Option Bytes) : Prop :=
  (IsRight cfg true row.1 row.2 file →
    row.2.state ∈ [CacheState.verifying, .valid, .evicting]) ∧
  (autoEvict = false → file ≠ none → ¬IsRight cfg true row.1 row.2 file →
    row.2.state ∈ [CacheState.verifying, .valid, .corrupted])

/-- An update of a state that is not refused. -/
theorem run_updateStatus_bind {status : CacheState} {α : Type} (hv : validateHash h = .ok h)
    (hentry : d.entries.get? h = some entry)
    (hok : status ∈ validTransitions entry.state ∨ entry.state = status)
    (k : Bool → CacheProg α) :
    (updateStatus h status >>= k).run d = (k true).run (setState d h status) :=
  run_bind_ok (run_updateStatus (lowerText_of_valid hv) hentry hok) k

theorem run_updateStatus_bind_error {status : CacheState} {α : Type} (hv : validateHash h = .ok h)
    (hentry : d.entries.get? h = some entry)
    (hno : ¬(status ∈ validTransitions entry.state ∨ entry.state = status))
    (k : Bool → CacheProg α) :
    (updateStatus h status >>= k).run d = (.error (.invalidTransition entry.state status), d) :=
  run_bind_error (run_updateStatus_error (lowerText_of_valid hv) hentry (not_or.mp hno)) k

theorem run_attempt_deleteObject (locked : String → Bool) (d : CacheDisk) (h : String) :
    ∃ r d', (attempt (deleteObject locked h)).run d = (.ok r, d') ∧
      (d' = d ∨ d' = dropObject d h) := by
  cases hdel : deletable locked d h with
  | true =>
    obtain ⟨deleted, hrun⟩ := run_deleteObject_of_deletable hdel
    exact ⟨_, _, run_attempt hrun, .inr rfl⟩
  | false =>
    obtain ⟨e, hrun⟩ := run_deleteObject_of_not_deletable hdel
    exact ⟨_, _, run_attempt hrun, .inl rfl⟩

/-- A run returns, does this to the row and the file of a hash, and leaves all others. -/
def Does {α : Type} (run : Except CacheError α × CacheDisk) (d : CacheDisk) (h : String)
    (post : Option CacheEntry × Option Bytes → Prop) : Prop :=
  ∃ a d', run = (.ok a, d') ∧ post (itemAt d' h) ∧ ∀ k, k ≠ h → itemAt d' k = itemAt d k

theorem does_setState {α : Type} {run : Except CacheError α × CacheDisk} {a : α}
    {status : CacheState} (hrun : run = (.ok a, setState d h status))
    (hentry : d.entries.get? h = some entry)
    (hstatus : status = .valid ↔ IsRight cfg deepCheck h entry (d.objects.get? h)) :
    Does run d h (Verified cfg deepCheck h entry) :=
  ⟨a, _, hrun, verified_setState hentry hstatus, fun k hk => by rw [itemAt_setState, if_neg hk]⟩

/-- A row is dropped. Its file may be dropped too. -/
theorem does_dropRow {α : Type} {run : Except CacheError α × CacheDisk} {a : α}
    (hrun : run = (.ok a, dropRow d' h)) (hfile : d' = d ∨ d' = dropObject d h)
    (hwrong : ¬IsRight cfg deepCheck h entry (d.objects.get? h)) :
    Does run d h (Verified cfg deepCheck h entry) := by
  refine ⟨a, _, hrun, ?_, fun k hk => ?_⟩
  · rw [itemAt_dropRow, if_pos rfl]
    apply verified_none
    rcases hfile with rfl | rfl
    · exact hwrong
    · rw [dropObject, Dict.get?_erase, if_pos rfl]
      exact not_isRight_none
  · rw [itemAt_dropRow, if_neg hk]
    rcases hfile with rfl | rfl
    · rfl
    · rw [itemAt_dropObject, if_neg hk]

theorem file_of_valid (hv : validateHash h = .ok h) :
    (if objectExists d h = true then d.objects.get? h else none) = d.objects.get? h := by
  rw [objectExists_of_valid hv]
  cases d.objects.get? h <;> rfl

theorem scrubEntry_does (report : VerificationReport) {row : String × CacheEntry}
    (hv : validateHash row.1 = .ok row.1) (hentry : d.entries.get? row.1 = some row.2)
    (hnote : CanNote cfg autoEvict row (d.objects.get? row.1)) :
    Does ((scrubEntry cfg locked true autoEvict report row).run d) d row.1
      (Verified cfg true row.1 row.2) := by
  obtain ⟨hright, hcorrupted⟩ := hnote
  have hlow := lowerText_of_valid hv
  rw [scrubEntry, run_read_bind, file_of_valid hv]
  cases hdata : d.objects.get? row.1 with
  | none =>
    dsimp only
    have hwrong : ¬IsRight cfg true row.1 row.2 (d.objects.get? row.1) := by
      rw [hdata]
      exact not_isRight_none
    cases autoEvict with
    | true =>
      apply does_dropRow (run_bind_ok (run_removeEntry hlow) _) (.inl rfl) hwrong
    | false =>
      have hok : .absent ∈ validTransitions row.2.state ∨ row.2.state = .absent := by
        cases row.2.state <;> decide
      exact does_setState (run_updateStatus_bind hv hentry hok _) hentry (by simp [hwrong])
  | some data =>
    dsimp only
    by_cases hwrong : data.length ≠ row.2.sizeBytes ∨ (true = true ∧ cfg.sha256 data ≠ row.1)
    · have hnot : ¬IsRight cfg true row.1 row.2 (d.objects.get? row.1) := by
        rw [hdata, isRight_some, not_not]
        exact hwrong
      rw [if_pos hwrong]
      cases autoEvict with
      | true =>
        obtain ⟨r, d', hdel, hd'⟩ := run_attempt_deleteObject locked d row.1
        rw [if_pos rfl, run_bind_ok hdel]
        exact does_dropRow (run_bind_ok (run_removeEntry hlow) _) hd' hnot
      | false =>
        have hok := mayBecome_corrupted.mpr (hcorrupted rfl (by simp [hdata]) hnot)
        exact does_setState (run_updateStatus_bind hv hentry hok _) hentry (by simp [hnot])
    · have hyes : IsRight cfg true row.1 row.2 (d.objects.get? row.1) := by
        rw [hdata, isRight_some]
        exact hwrong
      have hok := mayBecome_valid.mpr (hright hyes)
      rw [if_neg hwrong]
      exact does_setState (run_updateStatus_bind hv hentry hok _) hentry (by simp [hyes])

theorem scrubEntry_raises (report : VerificationReport) {row : String × CacheEntry}
    (hv : validateHash row.1 = .ok row.1) (hentry : d.entries.get? row.1 = some row.2)
    (hnote : ¬CanNote cfg autoEvict row (d.objects.get? row.1)) :
    ∃ e d', (scrubEntry cfg locked true autoEvict report row).run d = (.error e, d') := by
  rw [scrubEntry, run_read_bind, file_of_valid hv]
  cases hdata : d.objects.get? row.1 with
  | none => exact absurd ⟨fun hyes => absurd hyes not_isRight_none, by simp⟩ (hdata ▸ hnote)
  | some data =>
    dsimp only
    rw [hdata, CanNote, isRight_some, ← mayBecome_valid, ← mayBecome_corrupted] at hnote
    by_cases hwrong : data.length ≠ row.2.sizeBytes ∨ (true = true ∧ cfg.sha256 data ≠ row.1)
    · rw [if_pos hwrong]
      cases autoEvict with
      | true => exact absurd ⟨fun hyes => absurd hwrong hyes, by simp⟩ hnote
      | false =>
        have hno : ¬(.corrupted ∈ validTransitions row.2.state ∨ row.2.state = .corrupted) :=
          fun hok => hnote ⟨fun hyes => absurd hwrong hyes, fun _ _ _ => hok⟩
        exact ⟨_, _, run_updateStatus_bind_error hv hentry hno _⟩
    · have hno : ¬(.valid ∈ validTransitions row.2.state ∨ row.2.state = .valid) :=
        fun hok => hnote ⟨fun _ => hok, fun _ _ hyes => absurd hwrong hyes⟩
      rw [if_neg hwrong]
      exact ⟨_, _, run_updateStatus_bind_error hv hentry hno _⟩

/-- The rows of a disk have hashes for names. -/
def Keyed (d : CacheDisk) : Prop :=
  ∀ h entry, d.entries.get? h = some entry → validateHash h = .ok h

/-- A pass over all rows raises if it cannot note what it finds of one. Otherwise it settles each.
-/
theorem verifyAll_outcome (cfg : CacheConfig) (locked : String → Bool) (autoEvict : Bool)
    (hkeyed : Keyed d) :
    ((∃ row ∈ getAllEntries d, ¬CanNote cfg autoEvict row (d.objects.get? row.1)) →
      ∃ e d', (verifyAll cfg locked autoEvict).run d = (.error e, d')) ∧
    ((∀ row ∈ getAllEntries d, CanNote cfg autoEvict row (d.objects.get? row.1)) →
      ∃ report d', (verifyAll cfg locked autoEvict).run d = (.ok report, d') ∧
        ∀ row ∈ getAllEntries d, Verified cfg true row.1 row.2 (itemAt d' row.1)) := by
  have hrows : ∀ row ∈ getAllEntries d, validateHash row.1 = .ok row.1 ∧
      (itemAt d row.1).1 = some row.2 := by
    intro row hrow
    have hentry := mem_getAllEntries.mp hrow
    exact ⟨hkeyed _ _ hentry, hentry⟩
  obtain ⟨hbad, hgood⟩ := run_foldlM_apart Prod.fst itemAt
    (fun row item => validateHash row.1 = .ok row.1 ∧ item.1 = some row.2)
    (fun row item => ¬CanNote cfg autoEvict row item.2)
    (fun row _ item => Verified cfg true row.1 row.2 item)
    (fun report row _ hrow hnote => scrubEntry_raises report hrow.1 hrow.2 hnote)
    (fun report row _ hrow hnote => scrubEntry_does report hrow.1 hrow.2 (not_not.mp hnote))
    (nodup_getAllEntries d) ({} : VerificationReport) d hrows
  rw [verifyAll, run_read_bind]
  constructor
  · intro hsome
    obtain ⟨e, d', hrun⟩ := hbad hsome
    exact ⟨e, d', run_bind_error hrun _⟩
  · intro hall
    obtain ⟨report, d', hrun, hsettled, -⟩ := hgood fun row hrow => not_not.mpr (hall row hrow)
    exact ⟨_, d', run_bind_ok hrun _, hsettled⟩

/-! ## A reconciliation -/

/-- A row that a reconciliation keeps. -/
def IsKept (cfg : CacheConfig) (row : String × CacheEntry) (file : Option Bytes) : Prop :=
  row.2.state ≠ .evicting ∧ IsRight cfg true row.1 row.2 file

/-- A row and its file are dropped. -/
theorem does_drop {α : Type} {run : Except CacheError α × CacheDisk} {a : α}
    (hrun : run = (.ok a, dropObject (dropRow d' h) h))
    (hothers : ∀ k, k ≠ h → itemAt d' k = itemAt d k) :
    Does run d h (Verified cfg deepCheck h entry) := by
  refine ⟨a, _, hrun, ?_, fun k hk => ?_⟩
  · simp only [itemAt_dropObject, if_true, dropRow, Dict.get?_erase]
    exact verified_none not_isRight_none
  · rw [itemAt_dropObject, if_neg hk, itemAt_dropRow, if_neg hk, hothers k hk]

theorem reconcileEntry_does {dangling : List String} (report : ReconcileReport)
    {row : String × CacheEntry} (hv : validateHash row.1 = .ok row.1) (hdangling : row.1 ∉ dangling)
    (hentry : d.entries.get? row.1 = some row.2) (hfile : d.objects.get? row.1 ≠ none)
    (hkept : IsKept cfg row (d.objects.get? row.1) ∨ locked row.1 = false) :
    Does ((reconcileEntry cfg locked dangling report row).run d) d row.1
      (Verified cfg true row.1 row.2) := by
  obtain ⟨data, hdata⟩ := Option.ne_none_iff_exists'.mp hfile
  rw [reconcileEntry, if_neg hdangling, run_read_bind, getSize_of_valid hv hdata, lift_ok_bind]
  by_cases hsize : data.length = row.2.sizeBytes
  · rw [if_neg (not_not.mpr hsize)]
    by_cases hstate : row.2.state = .evicting
    · have hfree := hkept.resolve_left fun hkept => hkept.1 hstate
      obtain ⟨e, hrun⟩ := run_verifyEntryLocked_refused cfg locked true false hv hentry hstate
      rw [run_bind_ok (run_attempt (run_bind_error hrun _))]
      exact does_drop (run_dropCorrupted hv hdata hfree) fun _ _ => rfl
    · obtain ⟨isValid, status, hrun, hvalid, hstatus⟩ :=
        run_verifyEntryLocked_settles cfg locked true hv hentry hstate
      cases isValid with
      | true =>
        rw [run_bind_ok (run_attempt (run_bind_ok hrun _))]
        exact does_setState rfl hentry hstatus
      | false =>
        have hfree := hkept.resolve_left fun hkept => Bool.false_ne_true (hvalid.mpr hkept.2)
        have hdrop : (dropCorrupted locked report row.1).run (setState d row.1 status) = _ :=
          run_dropCorrupted hv hdata hfree
        rw [run_bind_ok (run_attempt ((run_bind_ok hrun _).trans hdrop))]
        exact does_drop rfl fun k hk => by rw [itemAt_setState, if_neg hk]
  · rw [if_pos hsize]
    have hfree := hkept.resolve_left fun hkept => by
      obtain ⟨_, data', hdata', hsize', _⟩ := hkept
      obtain rfl := Option.some.inj (hdata.symm.trans hdata')
      exact hsize hsize'
    exact does_drop (run_dropCorrupted hv hdata hfree) fun _ _ => rfl

theorem reconcileEntry_raises {dangling : List String} (report : ReconcileReport)
    {row : String × CacheEntry} (hv : validateHash row.1 = .ok row.1) (hdangling : row.1 ∉ dangling)
    (hentry : d.entries.get? row.1 = some row.2) (hfile : d.objects.get? row.1 ≠ none)
    (hkept : ¬(IsKept cfg row (d.objects.get? row.1) ∨ locked row.1 = false)) :
    ∃ e d', (reconcileEntry cfg locked dangling report row).run d = (.error e, d') := by
  obtain ⟨hnot, hfree⟩ := not_or.mp hkept
  have hlocked : locked row.1 = true := by simpa using hfree
  obtain ⟨data, hdata⟩ := Option.ne_none_iff_exists'.mp hfile
  have hdrop (d₁ : CacheDisk) (hd₁ : d₁.objects = d.objects) :
      (dropCorrupted locked report row.1).run d₁ = (.error (.locked row.1), dropRow d₁ row.1) :=
    run_dropCorrupted_locked hv (hd₁ ▸ hdata) hlocked
  rw [reconcileEntry, if_neg hdangling, run_read_bind, getSize_of_valid hv hdata, lift_ok_bind]
  by_cases hsize : data.length = row.2.sizeBytes
  · rw [if_neg (not_not.mpr hsize)]
    by_cases hstate : row.2.state = .evicting
    · obtain ⟨e, hrun⟩ := run_verifyEntryLocked_refused cfg locked true false hv hentry hstate
      rw [run_bind_ok (run_attempt (run_bind_error hrun _))]
      exact ⟨_, _, hdrop d rfl⟩
    · obtain ⟨isValid, status, hrun, hvalid, -⟩ :=
        run_verifyEntryLocked_settles cfg locked true hv hentry hstate
      obtain rfl : isValid = false := by
        rw [← Bool.not_eq_true, hvalid]
        exact fun hright => hnot ⟨hstate, hright⟩
      -- the second attempt to drop it fails like the first
      rw [run_bind_ok (run_attempt ((run_bind_ok hrun _).trans (hdrop (setState d _ _) rfl)))]
      exact ⟨_, _, hdrop _ rfl⟩
  · rw [if_pos hsize]
    exact ⟨_, _, hdrop d rfl⟩

/-- Rows of hashes are deleted. -/
theorem run_removeDangling {l : List String} (hlow : ∀ h ∈ l, lowerText h = h) (hnodup : l.Nodup)
    (report : ReconcileReport) (d : CacheDisk) :
    ∃ report' d', Prog.run (l.foldlM (fun (report : ReconcileReport) h => do
        let _ ← removeEntry h
        return { report with danglingRemoved := report.danglingRemoved + 1 }) report) d =
        (.ok report', d') ∧
      (∀ h ∈ l, itemAt d' h = (none, (itemAt d h).2)) ∧ ∀ k ∉ l, itemAt d' k = itemAt d k := by
  have hstep : ∀ (report : ReconcileReport) (h : String) (d : CacheDisk), lowerText h = h →
      ¬False → Does (Prog.run (do
        let _ ← removeEntry h
        return { report with danglingRemoved := report.danglingRemoved + 1 }) d) d h
        fun item => item = (none, (itemAt d h).2) := by
    intro report h d hh _
    refine ⟨_, dropRow d h, run_bind_ok (run_removeEntry hh) _, ?_, fun k hk => ?_⟩
    · rw [itemAt_dropRow, if_pos rfl, itemAt]
    · rw [itemAt_dropRow, if_neg hk]
  obtain ⟨-, hgood⟩ := run_foldlM_apart id itemAt (fun h _ => lowerText h = h) (fun _ _ => False)
    (fun _ item item' => item' = (none, item.2)) (fun _ _ _ _ hno => hno.elim) hstep
    (by simpa using hnodup) report d hlow
  simpa using hgood fun _ _ => not_false

/-- A file that can be deleted. -/
def Removable (locked : String → Bool) (h : String) : Prop :=
  validateHash h = .ok h ∧ locked h = false

theorem run_deleteObject_of_removable (hfile : d.objects.get? h ≠ none) (hh : Removable locked h) :
    (deleteObject locked h).run d = (.ok true, dropObject d h) := by
  obtain ⟨data, hdata⟩ := Option.ne_none_iff_exists'.mp hfile
  exact run_deleteObject hh.1 hdata hh.2

theorem run_deleteObject_of_not_removable (hfile : d.objects.get? h ≠ none)
    (hh : ¬Removable locked h) : ∃ e, (deleteObject locked h).run d = (.error e, d) := by
  apply run_deleteObject_of_not_deletable
  unfold deletable
  cases hv : validateHash h with
  | error e => rfl
  | ok n =>
    obtain rfl := eq_of_valid hv
    have hlocked : locked n = true := by
      by_contra hfree
      exact hh ⟨hv, by simpa using hfree⟩
    simpa [hlocked, Option.isSome_iff_ne_none] using hfile

/-- Files are deleted, unless one cannot be. -/
theorem run_removeOrphans (locked : String → Bool) {l : List String} (hnodup : l.Nodup)
    (report : ReconcileReport) (d : CacheDisk) (hfiles : ∀ h ∈ l, d.objects.get? h ≠ none) :
    ((∃ h ∈ l, ¬Removable locked h) →
      ∃ e d', Prog.run (l.foldlM (fun (report : ReconcileReport) h => do
        let _ ← deleteObject locked h
        return { report with orphansRemoved := report.orphansRemoved + 1 }) report) d =
        (.error e, d')) ∧
    ((∀ h ∈ l, Removable locked h) →
      ∃ report' d', Prog.run (l.foldlM (fun (report : ReconcileReport) h => do
        let _ ← deleteObject locked h
        return { report with orphansRemoved := report.orphansRemoved + 1 }) report) d =
        (.ok report', d') ∧
      (∀ h ∈ l, itemAt d' h = ((itemAt d h).1, none)) ∧ ∀ k ∉ l, itemAt d' k = itemAt d k) := by
  have hstep : ∀ (report : ReconcileReport) (h : String) (d : CacheDisk), (itemAt d h).2 ≠ none →
      ¬¬Removable locked h → Does (Prog.run (do
        let _ ← deleteObject locked h
        return { report with orphansRemoved := report.orphansRemoved + 1 }) d) d h
        fun item => item = ((itemAt d h).1, none) := by
    intro report h d hfile hh
    have hrun := run_deleteObject_of_removable hfile (not_not.mp hh)
    refine ⟨_, dropObject d h, run_bind_ok hrun _, ?_, fun k hk => ?_⟩
    · rw [itemAt_dropObject, if_pos rfl, itemAt]
    · rw [itemAt_dropObject, if_neg hk]
  have hraises : ∀ (report : ReconcileReport) (h : String) (d : CacheDisk),
      (itemAt d h).2 ≠ none → ¬Removable locked h → ∃ e d', Prog.run (do
        let _ ← deleteObject locked h
        return { report with orphansRemoved := report.orphansRemoved + 1 }) d =
        (.error e, d') := by
    intro report h d hfile hh
    obtain ⟨e, hrun⟩ := run_deleteObject_of_not_removable hfile hh
    exact ⟨e, d, run_bind_error hrun _⟩
  have hfold := run_foldlM_apart id itemAt (fun _ item => item.2 ≠ none)
    (fun h _ => ¬Removable locked h) (fun _ item item' => item' = (item.1, none)) hraises hstep
    (by simpa using hnodup) report d hfiles
  simpa using hfold

/-- What lets a reconciliation end: files without a row can be deleted, and if the rows are verified
then also the file of each row that is not kept. -/
def CanReconcile (cfg : CacheConfig) (locked : String → Bool) (verifyHashes : Bool)
    (d : CacheDisk) : Prop :=
  (∀ h, d.objects.get? h ≠ none → d.entries.get? h = none → Removable locked h) ∧
  (verifyHashes = true → ∀ h entry, d.entries.get? h = some entry → d.objects.get? h ≠ none →
    IsKept cfg (h, entry) (d.objects.get? h) ∨ locked h = false)

/-- The rows of a disk, once the rows without a file and the files without a row are gone. -/
structure Tidied (d d' : CacheDisk) (dangling : List String) : Prop where
  mem : ∀ h, h ∈ dangling ↔ d.entries.get? h ≠ none ∧ d.objects.get? h = none
  gone : ∀ h ∈ dangling, itemAt d' h = (none, none)
  same : ∀ row ∈ getAllEntries d, row.1 ∉ dangling →
    itemAt d' row.1 = itemAt d row.1 ∧ d.objects.get? row.1 ≠ none

/-- The verification of the rows that have a file. -/
theorem run_reconcileEntries (cfg : CacheConfig) (locked : String → Bool) {dangling : List String}
    (hkeyed : Keyed d) (htidied : Tidied d d' dangling) (report : ReconcileReport) :
    ((∃ row ∈ getAllEntries d, d.objects.get? row.1 ≠ none ∧
        ¬(IsKept cfg row (d.objects.get? row.1) ∨ locked row.1 = false)) →
      ∃ e d'', ((getAllEntries d).foldlM (reconcileEntry cfg locked dangling) report).run d' =
        (.error e, d'')) ∧
    ((∀ row ∈ getAllEntries d, d.objects.get? row.1 ≠ none →
        IsKept cfg row (d.objects.get? row.1) ∨ locked row.1 = false) →
      ∃ report' d'', ((getAllEntries d).foldlM (reconcileEntry cfg locked dangling) report).run d' =
          (.ok report', d'') ∧
        ∀ row ∈ getAllEntries d, Verified cfg true row.1 row.2 (itemAt d'' row.1)) := by
  have hrows : ∀ row ∈ getAllEntries d, validateHash row.1 = .ok row.1 ∧
      (row.1 ∈ dangling ∧ itemAt d' row.1 = (none, none) ∨ row.1 ∉ dangling ∧
        (itemAt d' row.1).1 = some row.2 ∧ (itemAt d' row.1).2 ≠ none) := by
    intro row hrow
    have hentry := mem_getAllEntries.mp hrow
    refine ⟨hkeyed _ _ hentry, ?_⟩
    by_cases hdangling : row.1 ∈ dangling
    · exact .inl ⟨hdangling, htidied.gone _ hdangling⟩
    · obtain ⟨hsame, hfile⟩ := htidied.same row hrow hdangling
      rw [hsame]
      exact .inr ⟨hdangling, hentry, hfile⟩
  have hfold := run_foldlM_apart Prod.fst itemAt
    (fun row item => validateHash row.1 = .ok row.1 ∧ (row.1 ∈ dangling ∧ item = (none, none) ∨
      row.1 ∉ dangling ∧ item.1 = some row.2 ∧ item.2 ≠ none))
    (fun row item => row.1 ∉ dangling ∧ ¬(IsKept cfg row item.2 ∨ locked row.1 = false))
    (fun row _ item => Verified cfg true row.1 row.2 item)
    (f := reconcileEntry cfg locked dangling)
    (fun report row _ ⟨hv, hrow⟩ ⟨hdangling, hkept⟩ => by
      obtain ⟨-, hentry, hfile⟩ := hrow.resolve_left fun hrow => hdangling hrow.1
      exact reconcileEntry_raises report hv hdangling hentry hfile hkept)
    (fun report row s ⟨hv, hrow⟩ hkept => by
      rcases hrow with ⟨hdangling, hnone⟩ | ⟨hdangling, hentry, hfile⟩
      · refine ⟨report, s, ?_, ?_, fun _ _ => rfl⟩
        · rw [reconcileEntry, if_pos hdangling, run_pure]
        · rw [hnone]
          exact verified_none not_isRight_none
      · exact reconcileEntry_does report hv hdangling hentry hfile
          (not_not.mp fun hno => hkept ⟨hdangling, hno⟩))
    (nodup_getAllEntries d) report d' hrows
  have hbad : ∀ row ∈ getAllEntries d,
      (row.1 ∉ dangling ∧ ¬(IsKept cfg row (itemAt d' row.1).2 ∨ locked row.1 = false) ↔
        d.objects.get? row.1 ≠ none ∧
          ¬(IsKept cfg row (d.objects.get? row.1) ∨ locked row.1 = false)) := by
    intro row hrow
    have hentry := mem_getAllEntries.mp hrow
    by_cases hdangling : row.1 ∈ dangling
    · have hnone := ((htidied.mem _).mp hdangling).2
      simp [hdangling, hnone]
    · obtain ⟨hsame, hfile⟩ := htidied.same row hrow hdangling
      rw [hsame]
      simp [hdangling, hfile, itemAt]
  constructor
  · rintro ⟨row, hrow, hno⟩
    exact hfold.1 ⟨row, hrow, (hbad row hrow).mpr hno⟩
  · intro hall
    obtain ⟨report', d'', hrun, hverified, -⟩ := hfold.2 fun row hrow hno => by
      obtain ⟨hfile, hkept⟩ := (hbad row hrow).mp hno
      exact hkept (hall row hrow hfile)
    exact ⟨report', d'', hrun, hverified⟩

/-- The rows without a file. -/
def danglingRows (d : CacheDisk) : List String :=
  ((getAllEntries d).map (·.1)).filter (· ∉ d.objects.keys)

/-- The files without a row. -/
def orphanFiles (d : CacheDisk) : List String :=
  d.objects.keys.filter (· ∉ (getAllEntries d).map (·.1))

theorem mem_danglingRows :
    h ∈ danglingRows d ↔ d.entries.get? h ≠ none ∧ d.objects.get? h = none := by
  rw [danglingRows, List.mem_filter, mem_map_fst_getAllEntries, decide_eq_true_iff,
    Dict.not_mem_keys]

theorem mem_orphanFiles :
    h ∈ orphanFiles d ↔ d.objects.get? h ≠ none ∧ d.entries.get? h = none := by
  rw [orphanFiles, List.mem_filter, decide_eq_true_iff, mem_map_fst_getAllEntries, not_not,
    Dict.mem_keys, ← Option.ne_none_iff_exists']

/-- What the two deletions leave. -/
theorem tidied_of_items {d₁ d₂ : CacheDisk}
    (hown₁ : ∀ h ∈ danglingRows d, itemAt d₁ h = (none, (itemAt d h).2))
    (hothers₁ : ∀ h ∉ danglingRows d, itemAt d₁ h = itemAt d h)
    (hothers₂ : ∀ h ∉ orphanFiles d, itemAt d₂ h = itemAt d₁ h) :
    Tidied d d₂ (danglingRows d) where
  mem _ := mem_danglingRows
  gone h hh := by
    obtain ⟨hrow, hnone⟩ := mem_danglingRows.mp hh
    rw [hothers₂ h fun horphan => (mem_orphanFiles.mp horphan).1 hnone, hown₁ h hh, itemAt, hnone]
  same row hrow hdangling := by
    have hentry := mem_getAllEntries.mp hrow
    have hsome : d.entries.get? row.1 ≠ none := by simp [hentry]
    refine ⟨?_, fun hnone => hdangling (mem_danglingRows.mpr ⟨hsome, hnone⟩)⟩
    rw [hothers₂ _ fun horphan => hsome (mem_orphanFiles.mp horphan).2, hothers₁ _ hdangling]

/-- **A reconciliation settles the rows it examines**, or raises: it examines rows without a file,
and if it verifies hashes all rows. -/
theorem reconcile_outcome (cfg : CacheConfig) (locked : String → Bool) (verifyHashes : Bool)
    (hkeyed : Keyed d) :
    (¬CanReconcile cfg locked verifyHashes d →
      ∃ e d', (reconcile cfg locked verifyHashes).run d = (.error e, d')) ∧
    (CanReconcile cfg locked verifyHashes d →
      ∃ report d', (reconcile cfg locked verifyHashes).run d = (.ok report, d') ∧
        ∀ row ∈ getAllEntries d, verifyHashes = true ∨ d.objects.get? row.1 = none →
          Verified cfg true row.1 row.2 (itemAt d' row.1)) := by
  have hlow : ∀ h ∈ cfg.setOrder (danglingRows d), lowerText h = h := by
    intro h hh
    obtain ⟨hrow, -⟩ := mem_danglingRows.mp ((cfg.setOrder_perm _).mem_iff.mp hh)
    obtain ⟨entry, hentry⟩ := Option.ne_none_iff_exists'.mp hrow
    exact lowerText_of_valid (hkeyed h entry hentry)
  obtain ⟨report₁, d₁, hrun₁, hown₁, hothers₁⟩ := run_removeDangling hlow
    ((cfg.setOrder_perm _).nodup_iff.mpr ((nodup_getAllEntries d).filter _)) {} d
  have horphans : ∀ h, h ∈ cfg.setOrder (orphanFiles d) ↔ h ∈ orphanFiles d :=
    fun h => (cfg.setOrder_perm _).mem_iff
  simp only [(cfg.setOrder_perm _).mem_iff] at hown₁ hothers₁
  have hfiles : ∀ h ∈ cfg.setOrder (orphanFiles d), d₁.objects.get? h ≠ none := by
    intro h hh
    obtain ⟨hfile, -⟩ := mem_orphanFiles.mp ((horphans h).mp hh)
    have hitem : itemAt d₁ h = itemAt d h :=
      hothers₁ h fun hdangling => hfile (mem_danglingRows.mp hdangling).2
    have hsame : d₁.objects.get? h = d.objects.get? h := congrArg Prod.snd hitem
    rwa [hsame]
  obtain ⟨hraises, hends⟩ := run_removeOrphans (l := cfg.setOrder (orphanFiles d)) locked
    ((cfg.setOrder_perm _).nodup_iff.mpr (d.objects.nodup.filter _)) report₁ d₁ hfiles
  simp only [horphans] at hraises hends
  rw [reconcile, run_read_bind, run_read_bind]
  dsimp only
  rw [← danglingRows, ← orphanFiles, run_bind_ok hrun₁]
  by_cases hremovable : ∀ h ∈ orphanFiles d, Removable locked h
  · obtain ⟨report₂, d₂, hrun₂, -, hothers₂⟩ := hends hremovable
    have htidied := tidied_of_items hown₁ hothers₁ hothers₂
    rw [run_bind_ok hrun₂]
    cases verifyHashes with
    | false =>
      rw [if_neg Bool.false_ne_true]
      constructor
      · intro hcannot
        refine absurd ⟨fun h hfile hnone => ?_, by simp⟩ hcannot
        exact hremovable h (mem_orphanFiles.mpr ⟨hfile, hnone⟩)
      · intro hcan
        refine ⟨report₂, d₂, rfl, fun row hrow hexamined => ?_⟩
        have hnone := hexamined.resolve_left Bool.false_ne_true
        have hsome : d.entries.get? row.1 ≠ none := by simp [mem_getAllEntries.mp hrow]
        rw [htidied.gone _ (mem_danglingRows.mpr ⟨hsome, hnone⟩)]
        exact verified_none not_isRight_none
    | true =>
      rw [if_pos rfl]
      obtain ⟨hbad, hgood⟩ := run_reconcileEntries cfg locked hkeyed htidied report₂
      constructor
      · intro hcannot
        apply hbad
        by_contra hnone
        push Not at hnone
        refine hcannot ⟨fun h hfile hrow => hremovable h (mem_orphanFiles.mpr ⟨hfile, hrow⟩),
          fun _ h entry hentry hfile => ?_⟩
        exact hnone (h, entry) (mem_getAllEntries.mpr hentry) hfile
      · intro hcan
        obtain ⟨report₃, d₃, hrun₃, hverified⟩ := hgood fun row hrow hfile =>
          hcan.2 rfl row.1 row.2 (mem_getAllEntries.mp hrow) hfile
        exact ⟨report₃, d₃, hrun₃, fun row hrow _ => hverified row hrow⟩
  · push Not at hremovable
    obtain ⟨h, hh, hno⟩ := hremovable
    obtain ⟨e, d', hrun⟩ := hraises ⟨h, hh, hno⟩
    rw [run_bind_error hrun]
    refine ⟨fun _ => ⟨e, d', rfl⟩, fun hcan => ?_⟩
    exact absurd (hcan.1 h (mem_orphanFiles.mp hh).1 (mem_orphanFiles.mp hh).2) hno

/-! ## The operations -/

/-- A call that verifies rows. -/
inductive Maintenance
  | verify (sha256 : String) (deepCheck : Bool)
  | verifyAll (autoEvict : Bool)
  | reconcile (verifyHashes : Bool)

/-- The program of a call. -/
def Maintenance.prog (cfg : CacheConfig) (locked : String → Bool) : Maintenance → CacheProg Unit
  | .verify sha256 deepCheck => do let _ ← Cache.verify cfg locked sha256 deepCheck
  | .verifyAll autoEvict => do let _ ← Cache.verifyAll cfg locked autoEvict
  | .reconcile verifyHashes => do let _ ← Cache.reconcile cfg locked verifyHashes

/-- A call looks at the hashes of files. -/
def Maintenance.isDeep : Maintenance → Bool
  | .verify _ deepCheck => deepCheck
  | .verifyAll _ => true
  | .reconcile _ => true

/-- A call examines a row. A reconciliation that verifies no hashes only looks for its file. -/
def Maintenance.Examines (d : CacheDisk) (h : String) : Maintenance → Prop
  | .verify sha256 _ => h = lowerText sha256
  | .verifyAll _ => True
  | .reconcile verifyHashes => verifyHashes = true ∨ d.objects.get? h = none

/-- A call returns, and then each row that it examined is valid exactly if its file is what the row
said. -/
def SettlesEntries (cfg : CacheConfig) (locked : String → Bool) (call : Maintenance)
    (d : CacheDisk) : Prop :=
  ∃ d', (call.prog cfg locked).run d = (.ok (), d') ∧
    ∀ h entry, d.entries.get? h = some entry → call.Examines d h →
      Verified cfg call.isDeep h entry (itemAt d' h)

/-- What a call asks of the disk. -/
def Maintenance.Allowed (cfg : CacheConfig) (locked : String → Bool) (d : CacheDisk) :
    Maintenance → Prop
  | .verify sha256 _ => ∀ entry, d.entries.get? (lowerText sha256) = some entry →
      entry.state ≠ .evicting
  | .verifyAll autoEvict => ∀ h entry, d.entries.get? h = some entry →
      CanNote cfg autoEvict (h, entry) (d.objects.get? h)
  | .reconcile verifyHashes => CanReconcile cfg locked verifyHashes d

theorem not_settlesEntries (call : Maintenance) {e : CacheError}
    (hrun : (call.prog cfg locked).run d = (.error e, d')) : ¬SettlesEntries cfg locked call d := by
  rintro ⟨d'', hok, -⟩
  rw [hrun] at hok
  cases hok

theorem verify_settles_iff (hkeyed : Keyed d) (sha256 : String) :
    SettlesEntries cfg locked (.verify sha256 deepCheck) d ↔
      Maintenance.Allowed cfg locked d (.verify sha256 deepCheck) := by
  have hsame : Cache.verify cfg locked sha256 deepCheck =
      verifyEntryLocked cfg locked (lowerText sha256) deepCheck false := by
    rw [verify, verifyEntryLocked, verifyEntryLocked, lowerText_lowerText]
  cases hentry : d.entries.get? (lowerText sha256) with
  | none =>
    have hrun : (Cache.verify cfg locked sha256 deepCheck).run d = (.ok false, d) := by
      rw [hsame, verifyEntryLocked, run_read_bind, lowerText_lowerText,
        getEntry_of_lower (lowerText_lowerText _), hentry, run_pure]
    constructor
    · intro _ entry hentry'
      rw [hentry] at hentry'
      cases hentry'
    · intro _
      refine ⟨d, run_discard hrun, fun h entry hentry' hh => ?_⟩
      obtain rfl : h = lowerText sha256 := hh
      rw [hentry] at hentry'
      cases hentry'
  | some entry =>
    have hv := hkeyed _ _ hentry
    constructor
    · intro hsettles entry' hentry' hstate
      obtain ⟨e, hrun⟩ := run_verifyEntryLocked_refused cfg locked deepCheck false hv hentry' hstate
      rw [← hsame] at hrun
      exact not_settlesEntries (.verify sha256 deepCheck) (run_discard hrun) hsettles
    · intro hstate
      obtain ⟨isValid, status, hrun, -, hstatus⟩ :=
        run_verifyEntryLocked_settles cfg locked deepCheck hv hentry (hstate entry hentry)
      rw [← hsame] at hrun
      refine ⟨_, run_discard hrun, fun h entry' hentry' hh => ?_⟩
      obtain rfl : h = lowerText sha256 := hh
      obtain rfl := Option.some.inj (hentry.symm.trans hentry')
      exact verified_setState hentry hstatus

theorem verifyAll_settles_iff (hkeyed : Keyed d) :
    SettlesEntries cfg locked (.verifyAll autoEvict) d ↔
      Maintenance.Allowed cfg locked d (.verifyAll autoEvict) := by
  obtain ⟨hraises, hsettles⟩ := verifyAll_outcome cfg locked autoEvict hkeyed
  constructor
  · intro hall h entry hentry
    by_contra hno
    obtain ⟨e, d', hrun⟩ := hraises ⟨(h, entry), mem_getAllEntries.mpr hentry, hno⟩
    exact not_settlesEntries (.verifyAll autoEvict) (run_discard hrun) hall
  · intro hall
    obtain ⟨report, d', hrun, hverified⟩ := hsettles fun row hrow =>
      hall row.1 row.2 (mem_getAllEntries.mp hrow)
    exact ⟨d', run_discard hrun, fun h entry hentry _ =>
      hverified (h, entry) (mem_getAllEntries.mpr hentry)⟩

theorem reconcile_settles_iff (hkeyed : Keyed d) {verifyHashes : Bool} :
    SettlesEntries cfg locked (.reconcile verifyHashes) d ↔
      Maintenance.Allowed cfg locked d (.reconcile verifyHashes) := by
  obtain ⟨hraises, hsettles⟩ := reconcile_outcome cfg locked verifyHashes hkeyed
  constructor
  · intro hall
    by_contra hno
    obtain ⟨e, d', hrun⟩ := hraises hno
    exact not_settlesEntries (.reconcile verifyHashes) (run_discard hrun) hall
  · intro hcan
    obtain ⟨report, d', hrun, hverified⟩ := hsettles hcan
    exact ⟨d', run_discard hrun, fun h entry hentry hexamines =>
      hverified (h, entry) (mem_getAllEntries.mpr hentry) hexamines⟩

/-- **When maintenance settles what it examines.** A verification of one row does unless the row is
being evicted. A pass over all rows does if each row whose file is what it says is in a state that
may become `valid`, and, unless it drops such rows, each row with another file is in a state that
may become `corrupted`. A reconciliation does if each file that it deletes can be deleted. -/
theorem maintenance_settles_iff (cfg : CacheConfig) (locked : String → Bool) (call : Maintenance)
    (d : CacheDisk)
    (hkeyed : ∀ h entry, d.entries.get? h = some entry → validateHash h = .ok h) :
    SettlesEntries cfg locked call d ↔ call.Allowed cfg locked d := by
  cases call with
  | verify sha256 deepCheck => exact verify_settles_iff hkeyed sha256
  | verifyAll autoEvict => exact verifyAll_settles_iff hkeyed
  | reconcile verifyHashes => exact reconcile_settles_iff hkeyed

/-- A row that an earlier verification found corrupted. -/
def corruptedEntry : CacheEntry :=
  { sizeBytes := 1, state := .corrupted, createdAt := 0, lastAccessedAt := 0 }

/-- The disk after its file was restored. -/
def restoredDisk : CacheDisk where
  objects := orphanDisk.objects
  entries := ⟨[(zeroHash, corruptedEntry)], by decide⟩

/-- A reconciliation settles it. -/
theorem maintenance_settles_iff_restored :
    SettlesEntries sampleConfig (fun _ => false) (.reconcile true) restoredDisk := by
  have hkeyed : ∀ h entry, restoredDisk.entries.get? h = some entry → validateHash h = .ok h := by
    intro h entry hentry
    have hmem : (h, entry) ∈ [(zeroHash, corruptedEntry)] := Dict.mem_entries.mpr hentry
    obtain rfl : h = zeroHash := congrArg Prod.fst (List.mem_singleton.mp hmem)
    decide +kernel
  refine (maintenance_settles_iff sampleConfig (fun _ => false) (.reconcile true) restoredDisk
    hkeyed).mpr ⟨fun h hfile hrow => ?_, fun _ _ _ _ _ => .inr rfl⟩
  obtain ⟨data, hdata⟩ := Option.ne_none_iff_exists'.mp hfile
  have hmem : (h, data) ∈ [(zeroHash, [1])] := Dict.mem_entries.mpr hdata
  obtain rfl : h = zeroHash := congrArg Prod.fst (List.mem_singleton.mp hmem)
  exact absurd hrow (by decide)

/-- A pass over all rows raises: a corrupted row may not become valid. -/
theorem restoredDisk_not_settled :
    ¬SettlesEntries sampleConfig (fun _ => false) (.verifyAll true) restoredDisk := by
  have hraises : ((Maintenance.verifyAll true).prog sampleConfig (fun _ => false)).run
      restoredDisk = (.error (.invalidTransition .corrupted .valid), restoredDisk) := by
    decide +kernel
  exact not_settlesEntries _ hraises

end Aidars.Cache
