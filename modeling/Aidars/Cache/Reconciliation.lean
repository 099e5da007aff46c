import Aidars.Cache.Runs

/-!
# Reconciliation of the disk cache

A reconciliation removes the rows and files without a counterpart, and then settles each row with a
file: it drops both, or marks the row valid (`reconcileEntry_settles`). `crash_safe` says what it
makes of whatever crashes leave.
-/

namespace Aidars.Cache

open Prog

variable {cfg : CacheConfig} {locked : String → Bool} {d : CacheDisk} {h : String}

variable {entry : CacheEntry} {data : Bytes} {report : ReconcileReport}

/-! ## Runs of the parts of a reconciliation -/

/-- A row whose file is what it says is marked valid, unless it is being evicted. -/
theorem run_verifyEntryLocked (hv : validateHash h = .ok h)
    (hentry : d.entries.get? h = some entry) (hstate : entry.state ≠ .evicting)
    (hdata : d.objects.get? h = some data) (hsize : data.length = entry.sizeBytes)
    (hhash : cfg.sha256 data = h) :
    (verifyEntryLocked cfg locked h true false).run d =
      (.ok true, setState (setState d h .verifying) h .valid) := by
  have hmark : CacheState.verifying ∈ validTransitions entry.state ∨ entry.state = .verifying := by
    revert hstate
    cases entry.state <;> decide
  have hmarked : (setState d h .verifying).entries.get? h =
      some { entry with state := .verifying } := by
    rw [get?_setState, if_pos rfl, hentry]
    rfl
  have hexists : objectExists (setState d h .verifying) h = true := by
    rw [objectExists_of_valid hv, objects_setState, hdata]
    rfl
  rw [verifyEntryLocked, lowerText_of_valid hv, run_read_bind, getEntry_of_valid hv, hentry]
  dsimp only
  rw [run_bind_ok (run_updateStatus (lowerText_of_valid hv) hentry hmark), run_read_bind, hexists,
    if_pos rfl, objects_setState, hdata]
  dsimp only
  rw [if_neg (by simp [hsize, hhash]),
    run_bind_ok (run_updateStatus (lowerText_of_valid hv) hmarked
      (.inl (by simp [validTransitions]))), run_pure]

theorem run_verifyEntryLocked_evicting (hv : validateHash h = .ok h)
    (hentry : d.entries.get? h = some entry) (hstate : entry.state = .evicting) :
    (verifyEntryLocked cfg locked h true false).run d =
      (.error (.invalidTransition .evicting .verifying), d) := by
  rw [verifyEntryLocked, lowerText_of_valid hv, run_read_bind, getEntry_of_valid hv, hentry]
  dsimp only
  have hno : CacheState.verifying ∉ validTransitions entry.state ∧ entry.state ≠ .verifying := by
    rw [hstate]
    decide
  rw [run_bind_error (run_updateStatus_error (lowerText_of_valid hv) hentry hno), hstate]

/-- Dropping a row and its file. -/
theorem run_dropCorrupted (hv : validateHash h = .ok h) (hdata : d.objects.get? h = some data)
    (hfree : locked h = false) :
    (dropCorrupted locked report h).run d =
      (.ok { report with corruptedRemoved := report.corruptedRemoved + 1 },
        dropObject (dropRow d h) h) := by
  rw [dropCorrupted, run_bind_ok (run_removeEntry (lowerText_of_valid hv)),
    run_bind_ok (run_deleteObject (d := dropRow d h) hv hdata hfree), run_pure]

theorem run_dropCorrupted_locked (hv : validateHash h = .ok h)
    (hdata : d.objects.get? h = some data) (hlocked : locked h = true) :
    (dropCorrupted locked report h).run d = (.error (.locked h), dropRow d h) := by
  rw [dropCorrupted, run_bind_ok (run_removeEntry (lowerText_of_valid hv)),
    run_bind_error (run_deleteObject_locked (d := dropRow d h) hv hdata hlocked)]

/-! ## What a reconciliation makes of each hash -/

/-- Two disks have the same row and the same object file for a hash. -/
def SameAt (d d' : CacheDisk) (h : String) : Prop :=
  d'.entries.get? h = d.entries.get? h ∧ d'.objects.get? h = d.objects.get? h

theorem SameAt.refl (d : CacheDisk) (h : String) : SameAt d d h := ⟨rfl, rfl⟩

theorem SameAt.trans {d d' d'' : CacheDisk} (h₁ : SameAt d d' h) (h₂ : SameAt d' d'' h) :
    SameAt d d'' h :=
  ⟨h₂.1.trans h₁.1, h₂.2.trans h₁.2⟩

/-- Validity depends on the row and the file of the hash alone. -/
theorem SameAt.isCacheValid {d d' : CacheDisk} (hs : SameAt d d' h) :
    isCacheValid d' h = isCacheValid d h := by
  cases hv : validateHash h with
  | error e => simp only [Cache.isCacheValid, hv]
  | ok n =>
    obtain rfl := eq_of_valid hv
    simp only [Cache.isCacheValid, hv, getEntry_of_valid hv, objectExists, getSize, hs.1, hs.2]

/-- A hash has neither a row nor a file, or is valid. -/
def Settled (d : CacheDisk) (h : String) : Prop :=
  (d.entries.get? h = none ∧ d.objects.get? h = none) ∨ isCacheValid d h = .ok true

/-- What the verification of a row leads to: the hash is settled and stays valid, and nothing else
changes. -/
structure Settles (d d' : CacheDisk) (h : String) : Prop where
  settled : Settled d' h
  valid : isCacheValid d h = .ok true → isCacheValid d' h = .ok true
  others : ∀ h', h' ≠ h → SameAt d d' h'

theorem settles_drop (hno : isCacheValid d h ≠ .ok true) :
    Settles d (dropObject (dropRow d h) h) h where
  settled := .inl ⟨by simp [dropObject, dropRow], by simp [dropObject, dropRow]⟩
  valid hyes := absurd hyes hno
  others h' hne := ⟨by simp [dropObject, dropRow, hne], by simp [dropObject, dropRow, hne]⟩

theorem settles_valid (hv : validateHash h = .ok h) (hentry : d.entries.get? h = some entry)
    (hdata : d.objects.get? h = some data) (hsize : data.length = entry.sizeBytes) :
    Settles d (setState (setState d h .verifying) h .valid) h := by
  have hvalid : isCacheValid (setState (setState d h .verifying) h .valid) h = .ok true := by
    rw [isCacheValid_of_valid hv]
    exact ⟨{ entry with state := .valid }, data, by simp [hentry], rfl, hdata, hsize⟩
  exact ⟨.inr hvalid, fun _ => hvalid, fun h' hne => ⟨by simp [hne], rfl⟩⟩

/-- **A row with a file is settled**, unless the file is to be removed and is locked. -/
theorem reconcileEntry_settles {dangling : List String} (hv : validateHash h = .ok h)
    (hdangling : h ∉ dangling) (hentry : d.entries.get? h = some entry)
    (hdata : d.objects.get? h = some data) (hhash : cfg.sha256 data = h) :
    Ending (fun _ d' => Settles d d' h) (fun _ _ => ∃ h, locked h = true)
      ((reconcileEntry cfg locked dangling report (h, entry)).run d).1
      ((reconcileEntry cfg locked dangling report (h, entry)).run d).2 := by
  have hdrop (hno : isCacheValid d h ≠ .ok true) :
      Ending (fun _ d' => Settles d d' h) (fun _ _ => ∃ h, locked h = true)
        ((dropCorrupted locked report h).run d).1 ((dropCorrupted locked report h).run d).2 := by
    cases hlocked : locked h with
    | false =>
      rw [run_dropCorrupted hv hdata hlocked]
      exact settles_drop hno
    | true =>
      rw [run_dropCorrupted_locked hv hdata hlocked]
      exact ⟨h, hlocked⟩
  rw [reconcileEntry, if_neg hdangling, run_read_bind, getSize_of_valid hv hdata, lift_ok_bind]
  by_cases hsize : data.length = entry.sizeBytes
  · rw [if_neg (not_not.mpr hsize)]
    by_cases hstate : entry.state = .evicting
    · have hfail : (verifyEntryLocked cfg locked h true false).run d = _ :=
        run_verifyEntryLocked_evicting hv hentry hstate
      rw [run_bind_ok (run_attempt (run_bind_error hfail _))]
      refine hdrop fun hyes => ?_
      obtain ⟨entry', -, hentry', hstate', -⟩ := (isCacheValid_of_valid hv).mp hyes
      obtain rfl := Option.some.inj (hentry.symm.trans hentry')
      rw [hstate] at hstate'
      cases hstate'
    · have hverified : (verifyEntryLocked cfg locked h true false).run d = _ :=
        run_verifyEntryLocked hv hentry hstate hdata hsize hhash
      rw [run_bind_ok (run_attempt ((run_bind_ok hverified _).trans (by rw [if_neg (by decide),
        run_pure])))]
      exact settles_valid hv hentry hdata hsize
  · rw [if_pos hsize]
    refine hdrop fun hyes => ?_
    obtain ⟨entry', data', hentry', -, hdata', hsize'⟩ := (isCacheValid_of_valid hv).mp hyes
    obtain rfl := Option.some.inj (hentry.symm.trans hentry')
    obtain rfl := Option.some.inj (hdata.symm.trans hdata')
    exact hsize hsize'

/-! ## Reconciliation -/

theorem mem_getAllEntries {x : String × CacheEntry} :
    x ∈ getAllEntries d ↔ d.entries.get? x.1 = some x.2 := by
  rw [getAllEntries, List.mem_insertionSort]
  exact Dict.mem_entries

theorem nodup_getAllEntries (d : CacheDisk) : ((getAllEntries d).map Prod.fst).Nodup :=
  ((List.perm_insertionSort _ _).map Prod.fst).nodup_iff.mpr d.entries.nodup

theorem mem_map_fst_getAllEntries :
    h ∈ (getAllEntries d).map Prod.fst ↔ d.entries.get? h ≠ none := by
  rw [List.mem_map, Option.ne_none_iff_exists']
  constructor
  · rintro ⟨x, hx, rfl⟩
    exact ⟨x.2, mem_getAllEntries.mp hx⟩
  · rintro ⟨entry, hentry⟩
    exact ⟨(h, entry), mem_getAllEntries.mpr hentry, rfl⟩

/-- Where each turn removes its hash and leaves the others alone, those of the list are gone. -/
theorem triple_foldlM_gone {β γ δ : Type} {f : β → String → CacheProg β} (rest : CacheDisk → δ)
    (at' : CacheDisk → String → Option γ) {E : CacheError → CacheDisk → Prop} (d : CacheDisk)
    {l : List String} (hf : ∀ b, ∀ h ∈ l, ∀ d', Triple (· = d') (f b h) (fun _ d'' =>
      rest d'' = rest d' ∧ ∀ h', at' d'' h' = if h' = h then none else at' d' h') E fun _ => True)
    (b : β) : Triple (· = d) (l.foldlM f b) (fun _ d' => rest d' = rest d ∧
      ∀ h, at' d' h = if h ∈ l then none else at' d h) E (fun _ => True) := by
  let J (xs : List String) (_ : β) (d' : CacheDisk) : Prop :=
    (∀ h ∈ xs, h ∈ l) ∧ rest d' = rest d ∧ (∀ h ∉ l, at' d' h = at' d h) ∧
      ∀ h ∈ l, h ∉ xs → at' d' h = none
  refine (triple_foldlM J (fun b h xs d' hd' => ?_) l b).consequence
    ?_ ?_ (fun _ _ he => he) fun _ hs => hs
  · obtain ⟨hsub, hrest, hsame, hgone⟩ := hd'
    refine (hf b h (hsub h List.mem_cons_self) d').consequence (fun _ hs => hs) ?_
      (fun _ _ he => he) (fun _ hs => hs) d' rfl
    rintro - d'' ⟨hrest', hat⟩
    refine ⟨fun h' hh' => hsub h' (List.mem_cons_of_mem _ hh'), hrest'.trans hrest,
      fun h' hh' => ?_, fun h' hh' hxs => ?_⟩
    · have hne : h' ≠ h := fun heq => hh' (heq ▸ hsub h List.mem_cons_self)
      rw [hat, if_neg hne, hsame h' hh']
    · rw [hat]
      split
      case isTrue => rfl
      case isFalse hne => exact hgone h' hh' (by simp [hne, hxs])
  · rintro _ rfl
    exact ⟨fun _ hh => hh, rfl, fun _ _ => rfl, fun h hh hno => absurd hh hno⟩
  · rintro _ d' ⟨-, hrest, hsame, hgone⟩
    refine ⟨hrest, fun h => ?_⟩
    split
    case isTrue hh => exact hgone h hh List.not_mem_nil
    case isFalse hh => exact hsame h hh

/-- Rows of hashes are deleted. -/
theorem triple_removeDangling (d : CacheDisk) {l : List String}
    (hl : ∀ h ∈ l, validateHash h = .ok h) (report : ReconcileReport)
    {E : CacheError → CacheDisk → Prop} :
    Triple (· = d)
      (l.foldlM (fun (report : ReconcileReport) h => do
        let _ ← removeEntry h
        return { report with danglingRemoved := report.danglingRemoved + 1 }) report)
      (fun _ d' => d'.objects = d.objects ∧
        ∀ h, d'.entries.get? h = if h ∈ l then none else d.entries.get? h) E (fun _ => True) := by
  refine triple_foldlM_gone (·.objects) (·.entries.get? ·) d
    (fun report h hh d' => triple_of_run ?_) report
  rintro _ rfl
  rw [run_bind_ok (run_removeEntry (lowerText_of_valid (hl h hh))), run_pure]
  exact ⟨rfl, fun h' => Dict.get?_erase ..⟩

theorem triple_removeOrphans (d : CacheDisk) {l : List String}
    (hl : ∀ h ∈ l, validateHash h = .ok h) (report : ReconcileReport) :
    Triple (· = d)
      (l.foldlM (fun (report : ReconcileReport) h => do
        let _ ← deleteObject locked h
        return { report with orphansRemoved := report.orphansRemoved + 1 }) report)
      (fun _ d' => d'.entries = d.entries ∧
        ∀ h, d'.objects.get? h = if h ∈ l then none else d.objects.get? h)
      (fun _ _ => ∃ h, locked h = true) (fun _ => True) := by
  refine triple_foldlM_gone (·.entries) (·.objects.get? ·) d
    (fun report h hh d' => triple_of_run ?_) report
  rintro d' rfl
  have hv := hl h hh
  cases hdata : d'.objects.get? h with
  | none =>
    rw [run_bind_ok (run_deleteObject_none hv hdata), run_pure]
    refine ⟨rfl, fun h' => ?_⟩
    split
    case isTrue heq => rw [heq, hdata]
    case isFalse => rfl
  | some data =>
    cases hlocked : locked h with
    | true =>
      rw [run_bind_error (run_deleteObject_locked hv hdata hlocked)]
      exact ⟨h, hlocked⟩
    | false =>
      rw [run_bind_ok (run_deleteObject hv hdata hlocked), run_pure]
      exact ⟨rfl, fun h' => Dict.get?_erase ..⟩

theorem Settled.congr {d' : CacheDisk} (hs : SameAt d d' h) (hd : Settled d h) : Settled d' h := by
  rcases hd with ⟨hentry, hdata⟩ | hvalid
  · exact .inl ⟨hs.1.trans hentry, hs.2.trans hdata⟩
  · exact .inr (hs.isCacheValid.trans hvalid)

theorem ne_none_of_isCacheValid (hvalid : isCacheValid d h = .ok true) :
    d.entries.get? h ≠ none ∧ d.objects.get? h ≠ none := by
  cases hv : validateHash h with
  | error e => simp [isCacheValid, hv] at hvalid
  | ok n =>
    obtain rfl := eq_of_valid hv
    obtain ⟨entry, data, hentry, -, hdata, -⟩ := (isCacheValid_of_valid hv).mp hvalid
    exact ⟨by simp [hentry], by simp [hdata]⟩

/-- The rows without a file and the files without a row are gone. -/
structure Pruned (d d' : CacheDisk) : Prop where
  gone : ∀ h, d.entries.get? h = none ∨ d.objects.get? h = none →
    d'.entries.get? h = none ∧ d'.objects.get? h = none
  same : ∀ h, d.entries.get? h ≠ none → d.objects.get? h ≠ none → SameAt d d' h

/-- Every hash is settled, and what was valid is valid. -/
def Reconciled (d d' : CacheDisk) : Prop :=
  ∀ h, Settled d' h ∧ (isCacheValid d h = .ok true → isCacheValid d' h = .ok true)

/-- The rows still to be verified are as they were, and the others settled. -/
structure Verifying (d d₁ : CacheDisk) (rows : List (String × CacheEntry)) (d' : CacheDisk) :
    Prop where
  mem : ∀ x ∈ rows, x ∈ getAllEntries d
  nodup : (rows.map Prod.fst).Nodup
  todo : ∀ h ∈ rows.map Prod.fst, SameAt d₁ d' h
  done : ∀ h ∉ rows.map Prod.fst,
    Settled d' h ∧ (isCacheValid d h = .ok true → isCacheValid d' h = .ok true)

theorem Verifying.next {d₁ d' d'' : CacheDisk} {x : String × CacheEntry}
    {rows : List (String × CacheEntry)} (hd' : Verifying d d₁ (x :: rows) d')
    (hx : Settled d'' x.1 ∧ (isCacheValid d x.1 = .ok true → isCacheValid d'' x.1 = .ok true))
    (hothers : ∀ h, h ≠ x.1 → SameAt d' d'' h) : Verifying d d₁ rows d'' := by
  have hnodup := List.nodup_cons.mp hd'.nodup
  refine ⟨fun y hy => hd'.mem y (List.mem_cons_of_mem _ hy), hnodup.2, fun h hh => ?_,
    fun h hh => ?_⟩
  · have hne : h ≠ x.1 := fun heq => hnodup.1 (heq ▸ hh)
    exact (hd'.todo h (List.mem_cons_of_mem _ hh)).trans (hothers h hne)
  · rcases eq_or_ne h x.1 with rfl | hne
    · exact hx
    · obtain ⟨hsettled, hvalid⟩ := hd'.done h (by simp only [List.map_cons, List.mem_cons]; tauto)
      have hsame := hothers h hne
      exact ⟨hsettled.congr hsame, fun hyes => hsame.isCacheValid.trans (hvalid hyes)⟩

/-- Verification of all rows settles every hash, unless a file is locked. -/
theorem triple_verifyEntries (hd : Sound cfg d) {d₁ : CacheDisk} (hpruned : Pruned d d₁)
    {dangling : List String}
    (hdangling : ∀ h, h ∈ dangling ↔ d.entries.get? h ≠ none ∧ d.objects.get? h = none)
    (report : ReconcileReport) :
    Triple (· = d₁) ((getAllEntries d).foldlM (reconcileEntry cfg locked dangling) report)
      (fun _ => Reconciled d) (fun _ _ => ∃ h, locked h = true) (fun _ => True) := by
  refine (triple_foldlM (fun rows _ => Verifying d d₁ rows) (fun report x rows =>
    triple_of_run fun d' hd' => ?_) _ report).consequence ?_ ?_ (fun _ _ he => he) fun _ hs => hs
  · obtain ⟨h, entry⟩ := x
    have hentry : d.entries.get? h = some entry :=
      mem_getAllEntries.mp (hd'.mem _ List.mem_cons_self)
    have hsame : SameAt d₁ d' h := hd'.todo h List.mem_cons_self
    by_cases hdang : h ∈ dangling
    · rw [reconcileEntry, if_pos hdang, run_pure]
      have hnone := ((hdangling h).mp hdang).2
      have hgone := hpruned.gone h (.inr hnone)
      refine hd'.next ⟨.inl ⟨hsame.1.trans hgone.1, hsame.2.trans hgone.2⟩, fun hyes => ?_⟩
        fun h' _ => .refl _ _
      exact absurd hnone (ne_none_of_isCacheValid hyes).2
    · have hfile : d.objects.get? h ≠ none := fun hnone =>
        hdang ((hdangling h).mpr ⟨by simp [hentry], hnone⟩)
      obtain ⟨data, hdata⟩ := Option.ne_none_iff_exists'.mp hfile
      have hsame' : SameAt d d' h := (hpruned.same h (by simp [hentry]) hfile).trans hsame
      obtain ⟨hv, hhash⟩ := hd.hashed h data hdata
      have hstep : Ending _ _ ((reconcileEntry cfg locked dangling report (h, entry)).run d').1
          ((reconcileEntry cfg locked dangling report (h, entry)).run d').2 :=
        reconcileEntry_settles hv hdang (hsame'.1.trans hentry) (hsame'.2.trans hdata) hhash
      cases hr : ((reconcileEntry cfg locked dangling report (h, entry)).run d').1 with
      | error e =>
        rw [hr] at hstep
        exact hstep
      | ok report' =>
        rw [hr] at hstep
        exact hd'.next ⟨hstep.settled, fun hyes => hstep.valid (hsame'.isCacheValid.trans hyes)⟩
          hstep.others
  · rintro _ rfl
    refine ⟨fun _ hx => hx, nodup_getAllEntries d, fun h _ => .refl _ _, fun h hh => ?_⟩
    have hnone : d.entries.get? h = none := not_not.mp (mt mem_map_fst_getAllEntries.mpr hh)
    exact ⟨.inl (hpruned.gone h (.inl hnone)),
      fun hyes => absurd hnone (ne_none_of_isCacheValid hyes).1⟩
  · exact fun _ d' hd' h => hd'.done h List.not_mem_nil

/-- **A reconciliation that ends settles every hash**; it ends unless a file is locked. -/
theorem triple_reconcile (hd : Sound cfg d) :
    Triple (· = d) (reconcile cfg locked true) (fun _ => Reconciled d)
      (fun _ _ => ∃ h, locked h = true) (fun _ => True) := by
  unfold reconcile
  refine triple_read_bind fun s hs => triple_read_bind fun s' hs' => ?_
  obtain rfl : d = s := hs.symm
  obtain rfl : d = s' := hs'.symm
  dsimp only
  have hdangling : ∀ h, h ∈ ((getAllEntries d).map (·.1)).filter (· ∉ d.objects.keys) ↔
      d.entries.get? h ≠ none ∧ d.objects.get? h = none := by
    intro h
    rw [List.mem_filter, mem_map_fst_getAllEntries, decide_eq_true_iff, Dict.not_mem_keys]
  have horphans : ∀ h, h ∈ d.objects.keys.filter (· ∉ (getAllEntries d).map (·.1)) ↔
      d.objects.get? h ≠ none ∧ d.entries.get? h = none := by
    intro h
    rw [List.mem_filter, decide_eq_true_iff, mem_map_fst_getAllEntries, not_not, Dict.mem_keys,
      ← Option.ne_none_iff_exists']
  have hrows : ∀ h, d.entries.get? h ≠ none → validateHash h = .ok h := by
    intro h hh
    obtain ⟨entry, hentry⟩ := Option.ne_none_iff_exists'.mp hh
    exact hd.keyed h entry hentry
  have hfiles : ∀ h, d.objects.get? h ≠ none → validateHash h = .ok h := by
    intro h hh
    obtain ⟨data, hdata⟩ := Option.ne_none_iff_exists'.mp hh
    exact (hd.hashed h data hdata).1
  refine (triple_removeDangling d (fun h hh => ?_) _).bind fun report =>
    triple_of_forall fun d₁ ⟨hobjects, hentries⟩ => ?_
  · exact hrows h ((hdangling h).mp ((cfg.setOrder_perm _).mem_iff.mp hh)).1
  refine (triple_removeOrphans d₁ (fun h hh => ?_) _).bind fun report =>
    triple_of_forall fun d₂ ⟨hentries', hobjects'⟩ => ?_
  · exact hfiles h ((horphans h).mp ((cfg.setOrder_perm _).mem_iff.mp hh)).1
  rw [if_pos rfl]
  refine triple_verifyEntries hd ⟨fun h hh => ?_, fun h hentry hdata => ?_⟩ hdangling report
  · simp only [hentries', hentries, hobjects', hobjects, (cfg.setOrder_perm _).mem_iff, hdangling,
      horphans]
    constructor <;> split <;> tauto
  · simp only [SameAt, hentries', hentries, hobjects', hobjects, (cfg.setOrder_perm _).mem_iff,
      hdangling, horphans]
    exact ⟨if_neg (by tauto), if_neg (by tauto)⟩

/-- **A reconciliation of a settled disk ends and changes nothing.** -/
theorem triple_reconcile_settled (hd : Sound cfg d) (hsettled : ∀ h, Settled d h) :
    Triple (· = d) (reconcile cfg locked true) (fun _ d' => d' = d) (fun _ _ => False)
      (fun _ => True) := by
  have hvalid : ∀ h, d.entries.get? h ≠ none ∨ d.objects.get? h ≠ none →
      isCacheValid d h = .ok true := fun h hh =>
    (hsettled h).resolve_left fun hnone => hh.elim (· hnone.1) (· hnone.2)
  unfold reconcile
  refine triple_read_bind fun s hs => triple_read_bind fun s' hs' => ?_
  obtain rfl : d = s := hs.symm
  obtain rfl : d = s' := hs'.symm
  dsimp only
  have hdangling : ((getAllEntries d).map (·.1)).filter (· ∉ d.objects.keys) = [] := by
    refine List.filter_eq_nil_iff.mpr fun h hh => ?_
    have hfile := (ne_none_of_isCacheValid (hvalid h (.inl (mem_map_fst_getAllEntries.mp hh)))).2
    rwa [decide_eq_true_iff, Dict.not_mem_keys]
  have horphans : d.objects.keys.filter (· ∉ (getAllEntries d).map (·.1)) = [] := by
    refine List.filter_eq_nil_iff.mpr fun h hh => ?_
    rw [Dict.mem_keys, ← Option.ne_none_iff_exists'] at hh
    have hrow := (ne_none_of_isCacheValid (hvalid h (.inr hh))).1
    rw [decide_eq_true_iff, not_not]
    exact mem_map_fst_getAllEntries.mpr hrow
  have hnil : cfg.setOrder [] = [] := (cfg.setOrder_perm []).eq_nil
  rw [hdangling, horphans, hnil]
  refine Triple.bind (Q := fun _ d' => d' = d) (triple_ret fun _ hs => hs) fun report => ?_
  refine Triple.bind (Q := fun _ d' => d' = d) (triple_ret fun _ hs => hs) fun report => ?_
  rw [if_pos rfl]
  refine (triple_foldlM (fun rows _ d' => d' = d ∧ ∀ x ∈ rows, x ∈ getAllEntries d)
    (fun report x rows => triple_of_run ?_) _ report).consequence ?_ ?_ (fun _ _ he => he)
      fun _ hs => hs
  · rintro d' ⟨hd', hrows⟩
    obtain rfl := hd'
    obtain ⟨h, entry⟩ := x
    have hentry : d'.entries.get? h = some entry :=
      mem_getAllEntries.mp (hrows _ List.mem_cons_self)
    have hyes := hvalid h (.inl (by simp [hentry]))
    have hv := hd.keyed h entry hentry
    obtain ⟨entry', data, hentry', hstate, hdata, hsize⟩ := (isCacheValid_of_valid hv).mp hyes
    obtain rfl := Option.some.inj (hentry.symm.trans hentry')
    have hverified : (verifyEntryLocked cfg locked h true false).run d' = _ :=
      run_verifyEntryLocked hv hentry (by simp [hstate]) hdata hsize (hd.hashed h data hdata).2
    rw [← hstate, setState_setState hentry] at hverified
    rw [reconcileEntry, if_neg List.not_mem_nil, run_read_bind, getSize_of_valid hv hdata,
      lift_ok_bind, if_neg (not_not.mpr hsize), run_bind_ok (run_attempt
        ((run_bind_ok hverified _).trans (by rw [if_neg (by decide), run_pure])))]
    exact ⟨rfl, fun y hy => hrows y (List.mem_cons_of_mem _ hy)⟩
  · rintro _ rfl
    exact ⟨rfl, fun _ hx => hx⟩
  · exact fun _ _ hd' => hd'.1

/-- **The disk cache survives crashes.** Whatever operations crashes stop, and wherever: a valid
object exists and holds what its name says; a reconciliation that ends (and it ends unless a file is
locked) leaves a valid row for each object file and no other row, keeps what was valid, and leaves
nothing for a second one to change. -/
theorem crash_safe (cfg : CacheConfig) (d : CacheDisk) (hd : Reachable cfg d) :
    (∀ h, isCacheValid d h = .ok true →
      ∃ data, d.objects.get? h = some data ∧ cfg.sha256 data = h) ∧
    ∀ locked : String → Bool,
      ((∀ h, locked h = false) → ∃ report d', (reconcile cfg locked true).run d =
        (.ok report, d')) ∧
      ∀ report d', (reconcile cfg locked true).run d = (.ok report, d') →
        (∀ h, h ∈ d'.entries.keys ↔ h ∈ d'.objects.keys) ∧
        (∀ h ∈ d'.entries.keys, isCacheValid d' h = .ok true) ∧
        (∀ h, isCacheValid d h = .ok true → h ∈ d'.entries.keys) ∧
        ∀ locked' : String → Bool, ∃ report',
          (reconcile cfg locked' true).run d' = (.ok report', d') := by
  have hsound := hd.sound
  refine ⟨exists_data_of_isCacheValid hsound, fun locked => ?_⟩
  have hrun : Ending _ _ (reconcile cfg locked true d).result (reconcile cfg locked true d).last :=
    (triple_reconcile hsound d rfl).2
  constructor
  · intro hfree
    cases hr : (reconcile cfg locked true d).result with
    | ok report => exact ⟨report, _, Prod.ext hr rfl⟩
    | error e =>
      rw [hr] at hrun
      obtain ⟨h, hlocked⟩ := hrun
      rw [hfree h] at hlocked
      cases hlocked
  · intro report d' hend
    obtain ⟨hr, hlast⟩ := Prod.mk.inj hend
    rw [hr, hlast] at hrun
    have hsound' : Sound cfg d' := by
      have hkeeps : Keeps (Sound cfg) (reconcile cfg locked true) :=
        stable_sound.keeps_reconcile true
      exact hkeeps.leaves hsound (.inr (.inr hlast.symm))
    have hrows : ∀ h ∈ d'.entries.keys, isCacheValid d' h = .ok true := by
      intro h hh
      obtain ⟨entry, hentry⟩ := Dict.mem_keys.mp hh
      exact (hrun h).1.resolve_left fun hnone => by simp [hentry] at hnone
    refine ⟨fun h => ⟨fun hh => ?_, fun hh => ?_⟩, hrows, fun h hh => ?_, fun locked' => ?_⟩
    · have hfile := (ne_none_of_isCacheValid (hrows h hh)).2
      rwa [ne_eq, ← Dict.not_mem_keys, not_not] at hfile
    · obtain ⟨data, hdata⟩ := Dict.mem_keys.mp hh
      have hvalid := (hrun h).1.resolve_left fun hnone => by simp [hdata] at hnone
      have hrow := (ne_none_of_isCacheValid hvalid).1
      rwa [ne_eq, ← Dict.not_mem_keys, not_not] at hrow
    · have hrow := (ne_none_of_isCacheValid ((hrun h).2 hh)).1
      rwa [ne_eq, ← Dict.not_mem_keys, not_not] at hrow
    · have hagain : Ending _ _ (reconcile cfg locked' true d').result
          (reconcile cfg locked' true d').last :=
        (triple_reconcile_settled hsound' (fun h => (hrun h).1) d' rfl).2
      cases hr' : (reconcile cfg locked' true d').result with
      | error e =>
        rw [hr'] at hagain
        exact hagain.elim
      | ok report' =>
        rw [hr'] at hagain
        exact ⟨report', Prod.ext hr' hagain⟩

/-! ### A crash between the rename and the row -/

/-- Everything hashes to zeros. -/
def zeroHash : String := "0000000000000000000000000000000000000000000000000000000000000000"

/-- A cache without a quota. -/
def sampleConfig : CacheConfig where
  sha256 _ := zeroHash
  clock n := n
  maxCacheSizeBytes := none
  setOrder l := l
  setOrder_perm _ := .refl _

/-- The disk after a crash between the rename of an object and the insertion of its row. -/
def orphanDisk : CacheDisk where
  objects := ⟨[(zeroHash, [1])], by decide⟩

theorem orphanDisk_reachable : Reachable sampleConfig orphanDisk :=
  .call (fun _ => false) (fun _ => false) (.putBytes "a.tmp" [1] none) .empty
    (.inr (.inl (by decide +kernel)))

/-- A reconciliation repairs it. -/
theorem crash_safe_orphanDisk :
    isCacheValid orphanDisk zeroHash = .ok false ∧ ∃ report d',
      (reconcile sampleConfig (fun _ => false) true).run orphanDisk = (.ok report, d') :=
  ⟨by decide +kernel,
    ((crash_safe sampleConfig orphanDisk orphanDisk_reachable).2 fun _ => false).1 fun _ => rfl⟩

end Aidars.Cache
