import Aidars.Registry.Filing
import Aidars.Registry.Index
import Aidars.Registry.Prioritizer

/-!
# Location of assets in batches

`locateAssetsSync` answers a request for many hashes: it scores each eligible worker once, and then
sorts the scored holders of each hash. The ranking of the holders of one hash scores them itself.

A worker is filed under its stripped identifier and keeps its own one in its record. The batch
excludes the requester by the former and the ranking by the latter, and a source carries the latter.
So the two agree, and name registered workers, exactly when the eligible holders are filed under
their own identifiers and each source the batch builds passes its validators (`locateAssets_iff`).
-/

namespace Aidars

/-- The order in which sets are iterated. -/
structure SetOrder where
  order : PySet String → List String
  perm : ∀ s, (order s).Perm s.toList

namespace WorkerRegistry

/-- A copy of the worker map. -/
def getWorkersMap (r : WorkerRegistry) : Dict String WorkerInfo := r.workers

/-- The records of the holders of a hash. -/
def getCandidatesForHash (ord : SetOrder) (r : WorkerRegistry) (sha256Hex : String) :
    List WorkerInfo :=
  match validateSha256Hex sha256Hex with
  | .error _ => []
  | .ok normH =>
    match r.hashIndex.get? normH with
    | none => []
    | some workerIds => (ord.order workerIds).filterMap r.workers.get?

/-- One turn of the loop that looks hashes up: an invalid one or one without holders is skipped. -/
def addHolders (r : WorkerRegistry) (result : Dict String (PySet String)) (rawH : String) :
    Dict String (PySet String) :=
  match validateSha256Hex rawH with
  | .error _ => result
  | .ok normH =>
    match r.hashIndex.get? normH with
    | none => result
    | some workerIds => result.set normH workerIds

/-- The holders of the indexed ones among some hashes. -/
def locateHashes (r : WorkerRegistry) (sha256Hashes : List String) : Dict String (PySet String) :=
  sha256Hashes.foldl (addHolders r) ∅

/-! ## Holders -/

section Holders

variable {ord ord' : SetOrder} {r : WorkerRegistry} {rawH normH k : String}

/-- The identifiers under which the holders of a hash are filed. -/
def holders (ord : SetOrder) (r : WorkerRegistry) (normH : String) : List String :=
  ((r.hashIndex.get? normH).map ord.order).getD []

theorem getCandidatesForHash_eq (hnorm : validateSha256Hex rawH = .ok normH) :
    r.getCandidatesForHash ord rawH = (r.holders ord normH).filterMap r.workers.get? := by
  unfold getCandidatesForHash holders
  rw [hnorm]
  cases hidx : r.hashIndex.get? normH with
  | none => simp [hidx]
  | some ids => simp [hidx]

theorem holders_perm : (r.holders ord normH).Perm (r.holders ord' normH) := by
  unfold holders
  cases r.hashIndex.get? normH with
  | none => exact .nil
  | some ids => exact (ord.perm ids).trans (ord'.perm ids).symm

/-- The holders are the registered workers with the hash in their inventories. -/
theorem mem_holders (hr : IndexInv r) : k ∈ r.holders ord normH ↔
    ∃ worker, r.workers.get? k = some worker ∧ normH ∈ worker.inventoryHashes := by
  have hindex : k ∈ r.holders ord normH ↔ normH ∈ r.hashesOf k := by
    rw [← hr.indexes.mem_holders]
    unfold holders InvertedIndex.holders
    cases r.hashIndex.get? normH with
    | none => simp
    | some ids => exact (ord.perm ids).mem_iff
  rw [hindex]
  constructor
  · intro hmem
    have hsome : (r.workers.get? k).isSome = true := by
      rw [hr.keys]
      unfold hashesOf at hmem
      cases hheld : r.workerHashes.get? k with
      | none => simp [hheld] at hmem
      | some held => rfl
    obtain ⟨worker, hworker⟩ := Option.isSome_iff_exists.1 hsome
    exact ⟨worker, hworker, (hr.inventory k worker hworker).symm ▸ hmem⟩
  · rintro ⟨worker, hworker, hmem⟩
    exact hr.inventory k worker hworker ▸ hmem

/-- Workers are filed under their stripped identifiers after every sequence of calls. -/
theorem keyed_run (registry : RegistryConfig) (ops : List Op) : Keyed (run registry ops) := by
  suffices h : ∀ r, Keyed r → Keyed (ops.foldl (apply registry) r) from h {} keyed_empty
  induction ops with
  | nil => exact fun _ h => h
  | cons op ops ih => exact fun r h => ih _ (h.apply op)

end Holders

end WorkerRegistry

/-- A request to locate missing assets. -/
structure LocateAssetsRequest where
  requesterWorkerId : String
  missingHashes : List String
  requesterIp : Option String := none
  maxCandidatesPerAsset : ℤ := 5
  includeDegraded : Bool := true

namespace CandidatePrioritizer

/-- The sources for each hash, and the hashes without one. -/
structure LocateAssetsResponse where
  locations : Dict String (List CandidateSource) := ∅
  unresolvedHashes : List String := []

variable (cfg : PrioritizerConfig) (p : CandidatePrioritizer) (ord : SetOrder)

/-- The address of the requester: the one it gives, that of its record, or that of its client. -/
def requesterAddress (r : WorkerRegistry) (req : LocateAssetsRequest) (clientHost : Option String) :
    String :=
  match req.requesterIp.filter (· ≠ ""), r.workers.get? req.requesterWorkerId with
  | some ip, _ => ip
  | none, some worker => worker.ipAddress
  | none, none => (clientHost.filter (· ≠ "")).getD "127.0.0.1"

/-- The scored sources of the eligible workers. -/
def evaluatedCandidates (workerMap : Dict String WorkerInfo) (req : LocateAssetsRequest)
    (requesterIp : String) : Except SourceError (Dict String (ℚ × CandidateSource)) :=
  ((workerMap.entries.filter fun e =>
    !skips (some req.requesterWorkerId) req.includeDegraded e.1 e.2.status).mapM fun e =>
      (evaluateCandidate cfg p requesterIp e.2).map (e.1, ·)).map Dict.ofList

/-- The sources for a hash, or the name under which it is unresolved. -/
def assemble (locatedMap : Dict String (PySet String))
    (evaluated : Dict String (ℚ × CandidateSource)) (maxCands : ℤ) (rawH : String) :
    List CandidateSource × Option String :=
  match validateSha256Hex rawH with
  | .error _ => ([], some rawH)
  | .ok normH =>
    match locatedMap.get? normH with
    | none => ([], some normH)
    | some workerIds =>
      let candidates := (ord.order workerIds).filterMap evaluated.get?
      if candidates = [] then ([], some normH)
      else ((limited (some maxCands) (descending candidates)).map Prod.snd, none)

/-- One turn of the loop over the hashes. -/
def locateHash (locatedMap : Dict String (PySet String))
    (evaluated : Dict String (ℚ × CandidateSource)) (maxCands : ℤ) (acc : LocateAssetsResponse)
    (rawH : String) : LocateAssetsResponse :=
  let (sources, unresolved) := assemble ord locatedMap evaluated maxCands rawH
  { locations := acc.locations.set rawH sources
    unresolvedHashes := acc.unresolvedHashes ++ unresolved.toList }

/-- Locate sources for the hashes of a request. -/
def locateAssetsSync (r : WorkerRegistry) (req : LocateAssetsRequest)
    (clientHost : Option String) : Except SourceError LocateAssetsResponse :=
  let requesterIp := requesterAddress r req clientHost
  let workerMap := r.getWorkersMap
  let locatedMap := r.locateHashes req.missingHashes
  (evaluatedCandidates cfg p workerMap req requesterIp).map fun evaluated =>
    req.missingHashes.foldl (locateHash ord locatedMap evaluated req.maxCandidatesPerAsset) {}

/-! ## The loops -/

section Loops

variable {cfg p ord} {r : WorkerRegistry} {req : LocateAssetsRequest} {clientHost : Option String}
  {requesterIp rawH normH k : String} {hashes : List String}
  {locatedMap : Dict String (PySet String)} {evaluated : Dict String (ℚ × CandidateSource)}
  {maxCands : ℤ} {acc : LocateAssetsResponse}

theorem get?_addHolders (result : Dict String (PySet String)) (h : String) :
    (r.addHolders result h).get? normH =
      if validateSha256Hex h = .ok normH then (r.hashIndex.get? normH).or (result.get? normH)
      else result.get? normH := by
  unfold WorkerRegistry.addHolders
  cases hv : validateSha256Hex h with
  | error e => rw [if_neg (by simp)]
  | ok n =>
    by_cases hn : n = normH
    · subst hn
      rw [if_pos rfl]
      cases hidx : r.hashIndex.get? n with
      | none => simp [hidx]
      | some ids => simp [hidx]
    · rw [if_neg (by simpa using hn)]
      cases hidx : r.hashIndex.get? n with
      | none => simp [hidx]
      | some ids => simp [hidx, Ne.symm hn]

/-- The located holders of a requested hash are those in the index. -/
theorem get?_locateHashes (hraw : rawH ∈ hashes) (hnorm : validateSha256Hex rawH = .ok normH) :
    (r.locateHashes hashes).get? normH = r.hashIndex.get? normH := by
  suffices hfold : ∀ (result : Dict String (PySet String)),
      (result.get? normH = r.hashIndex.get? normH ∨ result.get? normH = none ∧ rawH ∈ hashes) →
      (hashes.foldl r.addHolders result).get? normH = r.hashIndex.get? normH from
    hfold ∅ (.inr ⟨rfl, hraw⟩)
  clear hraw
  induction hashes with
  | nil =>
    rintro result (h | ⟨-, h⟩)
    · exact h
    · cases h
  | cons h hashes ih =>
    intro result hresult
    refine ih _ ?_
    rw [get?_addHolders]
    split_ifs with hv
    · rcases hresult with hresult | ⟨hnone, -⟩
      · rw [hresult, Option.or_self]
        exact .inl rfl
      · rw [hnone, Option.or_none]
        exact .inl rfl
    · refine hresult.imp_right fun ⟨hnone, hmem⟩ => ⟨hnone, ?_⟩
      exact (List.mem_cons.1 hmem).resolve_left fun he => hv (he ▸ hnorm)

/-- The loop over the hashes answers each of them, and collects the unresolved ones. -/
theorem foldl_locateHash (hashes : List String) (acc : LocateAssetsResponse) :
    (∀ rawH, (hashes.foldl (locateHash ord locatedMap evaluated maxCands) acc).locations.get? rawH =
      if rawH ∈ hashes then some (assemble ord locatedMap evaluated maxCands rawH).1
      else acc.locations.get? rawH) ∧
    (hashes.foldl (locateHash ord locatedMap evaluated maxCands) acc).unresolvedHashes =
      acc.unresolvedHashes ++
        hashes.filterMap fun rawH => (assemble ord locatedMap evaluated maxCands rawH).2 := by
  induction hashes generalizing acc with
  | nil => simp
  | cons h hashes ih =>
    obtain ⟨hlocations, hunresolved⟩ := ih (locateHash ord locatedMap evaluated maxCands acc h)
    refine ⟨fun rawH => ?_, ?_⟩
    · rw [List.foldl_cons, hlocations]
      by_cases hmem : rawH ∈ hashes
      · rw [if_pos hmem, if_pos (List.mem_cons_of_mem h hmem)]
      · by_cases he : rawH = h
        · subst he
          simp [hmem, locateHash]
        · simp [hmem, he, locateHash]
    · have hturn : (locateHash ord locatedMap evaluated maxCands acc h).unresolvedHashes =
          acc.unresolvedHashes ++ (assemble ord locatedMap evaluated maxCands h).2.toList := rfl
      rw [List.foldl_cons, hunresolved, hturn, List.append_assoc, List.filterMap_cons]
      cases (assemble ord locatedMap evaluated maxCands h).2 <;> rfl

/-- The scored source of a worker, unless the worker is left out. -/
def source (cfg : PrioritizerConfig) (p : CandidatePrioritizer) (requesterIp : String)
    (req : LocateAssetsRequest) (name : String) (worker : WorkerInfo) :
    Option (ℚ × CandidateSource) :=
  if skips (some req.requesterWorkerId) req.includeDegraded name worker.status then none
  else (evaluateCandidate cfg p requesterIp worker).toOption

/-- Every eligible worker is scored. -/
theorem evaluated_of_ok
    (h : evaluatedCandidates cfg p r.workers req requesterIp = .ok evaluated) {worker : WorkerInfo}
    (hworker : r.workers.get? k = some worker)
    (hskips : skips (some req.requesterWorkerId) req.includeDegraded k worker.status = false) :
    ∃ t, evaluateCandidate cfg p requesterIp worker = .ok t := by
  unfold evaluatedCandidates at h
  cases hm : (r.workers.entries.filter fun e =>
    !skips (some req.requesterWorkerId) req.includeDegraded e.1 e.2.status).mapM fun e =>
      (evaluateCandidate cfg p requesterIp e.2).map (e.1, ·) with
  | error rejected =>
    rw [hm] at h
    cases h
  | ok entries =>
    obtain ⟨e, he⟩ := exists_of_mapM hm
      (List.mem_filter.2 ⟨Dict.mem_entries.2 hworker, by rw [hskips]; rfl⟩)
    cases ht : evaluateCandidate cfg p requesterIp worker with
    | error rejected =>
      rw [ht] at he
      cases he
    | ok t => exact ⟨t, rfl⟩

/-- **The batch scores the workers that are not left out**, if it can score them all. -/
theorem evaluatedCandidates_spec
    (h : ∀ k worker, r.workers.get? k = some worker →
      skips (some req.requesterWorkerId) req.includeDegraded k worker.status = false →
      ∃ t, evaluateCandidate cfg p requesterIp worker = .ok t) :
    ∃ evaluated, evaluatedCandidates cfg p r.workers req requesterIp = .ok evaluated ∧
      ∀ k, evaluated.get? k = (r.workers.get? k).bind (source cfg p requesterIp req k) := by
  have hall : ∀ e ∈ r.workers.entries.filter fun e =>
      !skips (some req.requesterWorkerId) req.includeDegraded e.1 e.2.status,
      ∃ t, (evaluateCandidate cfg p requesterIp e.2).map (e.1, ·) = .ok t := by
    rintro ⟨k, worker⟩ he
    obtain ⟨he, hskips⟩ := List.mem_filter.1 he
    obtain ⟨t, ht⟩ := h k worker (Dict.mem_entries.1 he) (by simpa using hskips)
    exact ⟨(k, t), by rw [ht]; rfl⟩
  have hscored : ((r.workers.entries.filter fun e =>
      !skips (some req.requesterWorkerId) req.includeDegraded e.1 e.2.status).filterMap fun e =>
        ((evaluateCandidate cfg p requesterIp e.2).map (e.1, ·)).toOption) =
      r.workers.entries.filterMap fun e =>
        (source cfg p requesterIp req e.1 e.2).map (e.1, ·) := by
    rw [List.filterMap_filter]
    refine List.filterMap_congr fun e _ => ?_
    unfold source
    cases skips (some req.requesterWorkerId) req.includeDegraded e.1 e.2.status with
    | true => rfl
    | false => cases evaluateCandidate cfg p requesterIp e.2 <;> rfl
  refine ⟨_, by rw [evaluatedCandidates, mapM_of_forall hall, hscored]; rfl, fun k => ?_⟩
  have hnodup : ((r.workers.entries.filterMap fun e =>
      (source cfg p requesterIp req e.1 e.2).map (e.1, ·)).map Prod.fst).Nodup := by
    refine Dict.nodup_map_filterMap_entries fun k worker a _ ha => ?_
    obtain ⟨t, -, rfl⟩ := Option.map_eq_some_iff.1 ha
    rfl
  ext t
  rw [← Dict.mem_entries, Dict.entries_ofList hnodup, List.mem_filterMap, Option.bind_eq_some_iff]
  constructor
  · rintro ⟨⟨k', worker⟩, hentry, hsource⟩
    obtain ⟨t', hscore, he⟩ := Option.map_eq_some_iff.1 hsource
    obtain ⟨rfl, rfl⟩ := Prod.mk.inj he
    exact ⟨worker, Dict.mem_entries.1 hentry, hscore⟩
  · rintro ⟨worker, hworker, hsource⟩
    exact ⟨(k, worker), Dict.mem_entries.2 hworker, by rw [hsource]; rfl⟩

/-- The scored holders of a hash, in the batch. -/
def heldSources (ord : SetOrder) (locatedMap : Dict String (PySet String))
    (evaluated : Dict String (ℚ × CandidateSource)) (normH : String) :
    List (ℚ × CandidateSource) :=
  ((locatedMap.get? normH).map fun ids => (ord.order ids).filterMap evaluated.get?).getD []

theorem assemble_of_ok (hnorm : validateSha256Hex rawH = .ok normH) :
    assemble ord locatedMap evaluated maxCands rawH =
      ((limited (some maxCands) (descending (heldSources ord locatedMap evaluated normH))).map
        Prod.snd,
        if heldSources ord locatedMap evaluated normH = [] then some normH else none) := by
  have hnil : (limited (some maxCands) (descending [])).map Prod.snd = [] := by
    rw [List.map_eq_nil_iff, limited_eq_nil]
    rfl
  unfold assemble heldSources
  rw [hnorm]
  cases hids : locatedMap.get? normH with
  | none => simp [hids, hnil]
  | some ids =>
    dsimp only [Option.map_some, Option.getD_some]
    rw [hids]
    dsimp only
    split_ifs with hheld
    · rw [hheld, hnil]
    · rfl

theorem assemble_of_error {e : ValueError} (herror : validateSha256Hex rawH = .error e) :
    assemble ord locatedMap evaluated maxCands rawH = ([], some rawH) := by
  unfold assemble
  rw [herror]

/-- A hash is unresolved if no scored source holds it. -/
theorem mem_unresolved_iff (hraw : rawH ∈ hashes) (hnorm : validateSha256Hex rawH = .ok normH) :
    (normH ∈ hashes.filterMap fun rawH => (assemble ord locatedMap evaluated maxCands rawH).2) ↔
      heldSources ord locatedMap evaluated normH = [] := by
  rw [List.mem_filterMap]
  constructor
  · rintro ⟨other, -, hother⟩
    cases hv : validateSha256Hex other with
    | error e =>
      rw [assemble_of_error hv] at hother
      obtain rfl := Option.some.inj hother
      rw [validateSha256Hex_idem hnorm] at hv
      cases hv
    | ok n =>
      rw [assemble_of_ok hv] at hother
      dsimp only at hother
      split_ifs at hother with hheld
      obtain rfl := Option.some.inj hother
      exact hheld
  · intro hheld
    exact ⟨rawH, hraw, by rw [assemble_of_ok hnorm, hheld]; rfl⟩

end Loops

/-! ## The response to a request -/

/-- A response agrees with the ranking of the holders of each hash: the scores are the same at each
place, a source is a registered worker that holds the hash, is not the requester and is not offline,
and the hash is unresolved iff its list is empty. -/
structure Agrees (r : WorkerRegistry) (req : LocateAssetsRequest) (clientHost : Option String)
    (resp : LocateAssetsResponse) (rawH normH : String) (sources : List CandidateSource) :
    Prop where
  located : resp.locations.get? rawH = some sources
  scores : ∃ ranked, rankCandidates cfg p (requesterAddress r req clientHost)
      (r.getCandidatesForHash ord rawH) (some req.requesterWorkerId) req.includeDegraded
      (some req.maxCandidatesPerAsset) = .ok ranked ∧
    sources.map CandidateSource.priorityScore = ranked.map CandidateSource.priorityScore
  listed : ∀ c ∈ sources, c.workerId ≠ req.requesterWorkerId ∧
    ∃ worker, r.workers.get? c.workerId = some worker ∧ normH ∈ worker.inventoryHashes ∧
      worker.status ≠ .offline
  unresolved : normH ∈ resp.unresolvedHashes ↔ sources = []

/-- A request is answered as the ranking answers each of its hashes; `ord` and `ord'` are the
orders of the sets for the batch and for the ranking. -/
def Locates (ord' : SetOrder) (r : WorkerRegistry) (req : LocateAssetsRequest)
    (clientHost : Option String) : Prop :=
  ∃ resp, locateAssetsSync cfg p ord r req clientHost = .ok resp ∧
    (∀ rawH ∈ req.missingHashes, ∀ normH, validateSha256Hex rawH = .ok normH →
      ∃ sources, Agrees cfg p ord' r req clientHost resp rawH normH sources) ∧
    ∀ rawH ∈ req.missingHashes, ∀ e, validateSha256Hex rawH = .error e →
      resp.locations.get? rawH = some [] ∧ rawH ∈ resp.unresolvedHashes

/-- The records of the workers that the batch scores pass the checks of a source, and the eligible
holders of the hashes are filed under the identifiers in their records. -/
structure Locatable (r : WorkerRegistry) (req : LocateAssetsRequest) : Prop where
  acceptable : ∀ k worker, r.workers.get? k = some worker →
    skips (some req.requesterWorkerId) req.includeDegraded k worker.status = false →
    Acceptable cfg p worker
  filed : ∀ rawH ∈ req.missingHashes, ∀ normH, validateSha256Hex rawH = .ok normH →
    ∀ k worker, r.workers.get? k = some worker → normH ∈ worker.inventoryHashes →
    skips none req.includeDegraded k worker.status = false → worker.workerId = k

section

variable {cfg p ord} {ord' : SetOrder} {r : WorkerRegistry} {req : LocateAssetsRequest}
  {clientHost excluded : Option String} {requesterIp name rawH normH k : String} {degraded : Bool}
  {status : WorkerStatus} {ids : List String}

theorem skips_none_of_skips (h : skips excluded degraded name status = false) :
    skips none degraded k status = false := by
  unfold skips at h ⊢
  rw [Bool.or_eq_false_iff, Bool.or_eq_false_iff] at h
  simp [h.1.2, h.2]

theorem status_ne_of_skips (h : skips excluded degraded name status = false) :
    status ≠ .offline := by
  unfold skips at h
  rw [Bool.or_eq_false_iff, Bool.or_eq_false_iff] at h
  exact of_decide_eq_false h.1.2

theorem skips_congr (h : skips none degraded k status = false → name = k) :
    skips excluded degraded name status = skips excluded degraded k status := by
  cases hnone : skips none degraded k status with
  | false => rw [h hnone]
  | true =>
    unfold skips at hnone ⊢
    rw [Option.any_none, Bool.false_or] at hnone
    rw [Bool.or_assoc, hnone, Bool.or_true, Bool.or_assoc, hnone, Bool.or_true]

/-- A worker that is not left out for its status is left out as the requester only. -/
theorem eq_of_skips (hnone : skips none degraded k status = false)
    (h : skips (some name) degraded k status = true) : k = name ∧ name ≠ "" := by
  unfold skips at h hnone
  rw [Option.any_none, Bool.false_or] at hnone
  rw [Bool.or_assoc, hnone, Bool.or_false, Option.any_some] at h
  simp only [Bool.and_eq_true, decide_eq_true_eq] at h
  exact ⟨h.2, h.1⟩

theorem skips_of_ne (hnone : skips none degraded k status = false) (hne : k ≠ name) :
    skips (some name) degraded k status = false :=
  Bool.eq_false_iff.2 fun h => hne (eq_of_skips hnone h).1

/-- The requester is left out. -/
theorem ne_of_skips (h : skips (some name) degraded k status = false) (hname : name ≠ "") :
    k ≠ name := by
  rintro rfl
  unfold skips at h
  simp [hname] at h

/-- **The ranking of workers that are filed under their own identifiers** scores those that the
batch scores. -/
theorem rankCandidates_filterMap (maxCands : Option ℤ)
    (hacceptable : ∀ k worker, r.workers.get? k = some worker →
      skips (some req.requesterWorkerId) req.includeDegraded k worker.status = false →
      Acceptable cfg p worker)
    (hfiled : ∀ k ∈ ids, ∀ worker, r.workers.get? k = some worker →
      skips none req.includeDegraded k worker.status = false → worker.workerId = k) :
    rankCandidates cfg p requesterIp (ids.filterMap r.workers.get?) (some req.requesterWorkerId)
      req.includeDegraded maxCands = .ok (limited maxCands ((descending (ids.filterMap fun k =>
        (r.workers.get? k).bind (source cfg p requesterIp req k))).map Prod.snd)) := by
  have hall : ∀ worker ∈ (ids.filterMap r.workers.get?).filter fun worker =>
      !skips (some req.requesterWorkerId) req.includeDegraded worker.workerId worker.status,
      ∃ t, evaluateCandidate cfg p requesterIp worker = .ok t := by
    intro worker hworker
    obtain ⟨hworker, hskips⟩ := List.mem_filter.1 hworker
    obtain ⟨k, hk, hget⟩ := List.mem_filterMap.1 hworker
    rw [skips_congr (hfiled k hk worker hget)] at hskips
    exact exists_evaluateCandidate_iff.2 (hacceptable k worker hget (by simpa using hskips))
  have hsame : (((ids.filterMap r.workers.get?).filter fun worker =>
      !skips (some req.requesterWorkerId) req.includeDegraded worker.workerId
        worker.status).filterMap fun worker =>
          (evaluateCandidate cfg p requesterIp worker).toOption) =
      ids.filterMap fun k => (r.workers.get? k).bind (source cfg p requesterIp req k) := by
    rw [List.filterMap_filter, List.filterMap_filterMap]
    refine List.filterMap_congr fun k hk => ?_
    cases hget : r.workers.get? k with
    | none => rfl
    | some worker =>
      rw [Option.bind_some, Option.bind_some, skips_congr (hfiled k hk worker hget)]
      unfold source
      cases skips (some req.requesterWorkerId) req.includeDegraded k worker.status <;> rfl
  rw [rankCandidates, mapM_of_forall hall, hsame]
  rfl

/-! ## The batch and the ranking -/

theorem heldSources_eq {evaluated : Dict String (ℚ × CandidateSource)}
    (hraw : rawH ∈ req.missingHashes) (hnorm : validateSha256Hex rawH = .ok normH)
    (hget : ∀ k, evaluated.get? k = (r.workers.get? k).bind (source cfg p requesterIp req k)) :
    heldSources ord (r.locateHashes req.missingHashes) evaluated normH =
      (r.holders ord normH).filterMap fun k =>
        (r.workers.get? k).bind (source cfg p requesterIp req k) := by
  unfold heldSources WorkerRegistry.holders
  rw [get?_locateHashes hraw hnorm]
  cases r.hashIndex.get? normH with
  | none => rfl
  | some ids => exact List.filterMap_congr fun k _ => hget k

theorem evaluateCandidate_of_source {worker : WorkerInfo} {t : ℚ × CandidateSource}
    (h : source cfg p requesterIp req k worker = some t) :
    evaluateCandidate cfg p requesterIp worker = .ok t := by
  unfold source at h
  split_ifs at h
  cases ht : evaluateCandidate cfg p requesterIp worker with
  | error rejected =>
    rw [ht] at h
    cases h
  | ok t' =>
    rw [ht] at h
    exact congrArg Except.ok (Option.some.inj h)

theorem source_eq_some {worker : WorkerInfo} {t : ℚ × CandidateSource}
    (h : source cfg p requesterIp req k worker = some t) :
    skips (some req.requesterWorkerId) req.includeDegraded k worker.status = false ∧
      t.2.workerId = worker.workerId ∧ t.2.priorityScore = cfg.round3 t.1 := by
  have ht := evaluateCandidate_of_source h
  unfold source at h
  split_ifs at h with hskips
  exact ⟨Bool.eq_false_iff.2 hskips, evaluateCandidate_ok ht⟩

/-- An eligible worker whose record passes the checks is scored. -/
theorem exists_source (address : String) {worker : WorkerInfo}
    (hskips : skips (some req.requesterWorkerId) req.includeDegraded k worker.status = false)
    (h : Acceptable cfg p worker) : ∃ t, source cfg p address req k worker = some t := by
  obtain ⟨t, ht⟩ := exists_evaluateCandidate_iff.2 h
  exact ⟨t, by rw [source, hskips, ht]; rfl⟩

open WorkerRegistry (IndexInv Keyed)

theorem agrees_of_locatable (hr : IndexInv r) (hkeyed : Keyed r) (h : Locatable cfg p r req)
    {resp : LocateAssetsResponse} {evaluated : Dict String (ℚ × CandidateSource)}
    (hget : ∀ k, evaluated.get? k =
      (r.workers.get? k).bind (source cfg p (requesterAddress r req clientHost) req k))
    (hresp : req.missingHashes.foldl (locateHash ord (r.locateHashes req.missingHashes) evaluated
      req.maxCandidatesPerAsset) {} = resp)
    (hraw : rawH ∈ req.missingHashes) (hnorm : validateSha256Hex rawH = .ok normH) :
    ∃ sources, Agrees cfg p ord' r req clientHost resp rawH normH sources := by
  obtain ⟨hlocations, hunresolved⟩ := @foldl_locateHash ord (r.locateHashes req.missingHashes)
    evaluated req.maxCandidatesPerAsset req.missingHashes {}
  rw [hresp] at hlocations hunresolved
  have hheld : heldSources ord (r.locateHashes req.missingHashes) evaluated normH = _ :=
    heldSources_eq hraw hnorm hget
  have hsource : ∀ t ∈ heldSources ord (r.locateHashes req.missingHashes) evaluated normH,
      ∃ k worker, r.workers.get? k = some worker ∧ normH ∈ worker.inventoryHashes ∧
        source cfg p (requesterAddress r req clientHost) req k worker = some t := by
    intro t ht
    rw [hheld] at ht
    obtain ⟨k, hk, hbind⟩ := List.mem_filterMap.1 ht
    obtain ⟨worker, hworker, hmem⟩ := (WorkerRegistry.mem_holders hr).1 hk
    rw [hworker] at hbind
    exact ⟨k, worker, hworker, hmem, hbind⟩
  refine ⟨(limited (some req.maxCandidatesPerAsset) (descending
    (heldSources ord (r.locateHashes req.missingHashes) evaluated normH))).map Prod.snd,
    ?_, ?_, fun c hc => ?_, ?_⟩
  · rw [hlocations, if_pos hraw, assemble_of_ok hnorm]
  · have hfiled : ∀ k ∈ r.holders ord' normH, ∀ worker, r.workers.get? k = some worker →
        skips none req.includeDegraded k worker.status = false → worker.workerId = k := by
      intro k hk worker hworker hskips
      obtain ⟨worker', hworker', hmem⟩ := (WorkerRegistry.mem_holders hr).1 hk
      obtain rfl := Option.some.inj (hworker.symm.trans hworker')
      exact h.filed rawH hraw normH hnorm k worker hworker hmem hskips
    rw [WorkerRegistry.getCandidatesForHash_eq hnorm]
    refine ⟨_, rankCandidates_filterMap _ h.acceptable hfiled, ?_⟩
    rw [map_limited, hheld]
    have hround : ∀ t ∈ (r.holders ord' normH).filterMap fun k =>
        (r.workers.get? k).bind (source cfg p (requesterAddress r req clientHost) req k),
        t.2.priorityScore = cfg.round3 t.1 := by
      intro t ht
      obtain ⟨k, -, hbind⟩ := List.mem_filterMap.1 ht
      obtain ⟨worker, -, hscored⟩ := Option.bind_eq_some_iff.1 hbind
      exact (source_eq_some hscored).2.2
    exact map_priorityScore_of_perm (WorkerRegistry.holders_perm.filterMap _) hround _
  · obtain ⟨t, ht, rfl⟩ := List.mem_map.1 hc
    obtain ⟨k, worker, hworker, hmem, hscored⟩ :=
      hsource t (mem_descending.1 (mem_of_mem_limited ht))
    obtain ⟨hskips, hid, -⟩ := source_eq_some hscored
    have hk : worker.workerId = k :=
      h.filed rawH hraw normH hnorm k worker hworker hmem (skips_none_of_skips hskips)
    rw [hid, hk]
    refine ⟨?_, worker, hworker, hmem, status_ne_of_skips hskips⟩
    by_cases hq : req.requesterWorkerId = ""
    · have hkey := validateWorkerId_idem (hkeyed k worker hworker)
      rintro rfl
      rw [hq] at hkey
      revert hkey
      decide
    · exact ne_of_skips hskips hq
  · rw [hunresolved, List.nil_append, mem_unresolved_iff hraw hnorm, List.map_eq_nil_iff,
      limited_eq_nil, descending_eq_nil]

theorem locateAssetsSync_eq : locateAssetsSync cfg p ord r req clientHost =
    (evaluatedCandidates cfg p r.workers req (requesterAddress r req clientHost)).map
      fun evaluated => req.missingHashes.foldl (locateHash ord (r.locateHashes req.missingHashes)
        evaluated req.maxCandidatesPerAsset) {} := rfl

theorem locates_of_locatable (hr : IndexInv r) (hkeyed : Keyed r) (h : Locatable cfg p r req) :
    Locates cfg p ord ord' r req clientHost := by
  obtain ⟨evaluated, hok, hget⟩ := evaluatedCandidates_spec fun k worker hworker hskips =>
    exists_evaluateCandidate_iff.2 (h.acceptable k worker hworker hskips)
  refine ⟨_, by rw [locateAssetsSync_eq, hok]; rfl,
    fun rawH hraw normH hnorm => agrees_of_locatable hr hkeyed h hget rfl hraw hnorm,
    fun rawH hraw e herror => ?_⟩
  obtain ⟨hlocations, hunresolved⟩ := @foldl_locateHash ord (r.locateHashes req.missingHashes)
    evaluated req.maxCandidatesPerAsset req.missingHashes {}
  refine ⟨?_, ?_⟩
  · rw [hlocations, if_pos hraw, assemble_of_error herror]
  · rw [hunresolved, List.nil_append, List.mem_filterMap]
    exact ⟨rawH, hraw, by rw [assemble_of_error herror]⟩

/-- A list has a bound in multiples of a positive weight. -/
theorem exists_multiple {α : Type} {weight : ℚ} (hweight : 0 < weight) (f : α → ℚ) (l : List α) :
    ∃ n : ℕ, ∀ a ∈ l, f a ≤ n * weight := by
  induction l with
  | nil => exact ⟨0, nofun⟩
  | cons a l ih =>
    obtain ⟨n, hn⟩ := ih
    let m := ⌈f a / weight⌉₊
    have hle : ∀ {i : ℕ}, i ≤ max m n → i * weight ≤ (max m n : ℕ) * weight := fun h =>
      mul_le_mul_of_nonneg_right (Nat.cast_le.2 h) hweight.le
    refine ⟨max m n, fun b hb => ?_⟩
    rcases List.mem_cons.1 hb with rfl | hb
    · exact ((div_le_iff₀ hweight).1 (Nat.le_ceil _)).trans (hle (le_max_left m n))
    · exact (hn b hb).trans (hle (le_max_right m n))

/-- **Errors of the others put a worker first**, by as much as one likes. -/
theorem exists_errorCounts (hweight : 0 < p.weightError) (address : String)
    (workers : List WorkerInfo) (worker : WorkerInfo) : ∃ errorCounts, ∀ t,
      evaluateCandidate cfg { p with errorCounts } address worker = .ok t →
      ∀ other ∈ workers, other.workerId ≠ worker.workerId → ∀ u,
        evaluateCandidate cfg { p with errorCounts } address other = .ok u → u.1 + 3 ≤ t.1 := by
  choose base hbase using exists_score_without_errors cfg p address
  obtain ⟨n, hn⟩ := exists_multiple hweight (fun other => base other - base worker + 3) workers
  let ids := (workers.map WorkerInfo.workerId).dedup
  let errors : String → ℕ := fun k => if k = worker.workerId then 0 else n
  refine ⟨Dict.ofList (ids.map fun k => (k, errors k)), fun t ht other hother hne u hu => ?_⟩
  have hnodup : ((ids.map fun k => (k, errors k)).map Prod.fst).Nodup := by
    rw [List.map_map, show (Prod.fst ∘ fun k => (k, errors k)) = id from rfl, List.map_id]
    exact List.nodup_dedup _
  have hcount : (Dict.ofList (ids.map fun k => (k, errors k))).get? other.workerId = some n := by
    refine Dict.get?_ofList hnodup (List.mem_map.2 ⟨other.workerId, ?_, ?_⟩)
    · exact List.mem_dedup.2 (List.mem_map_of_mem hother)
    · rw [show errors other.workerId = n from if_neg hne]
  have hnone :
      ((Dict.ofList (ids.map fun k => (k, errors k))).get? worker.workerId).getD 0 = 0 := by
    cases hget : (Dict.ofList (ids.map fun k => (k, errors k))).get? worker.workerId with
    | none => rfl
    | some m =>
      rw [← Dict.mem_entries, Dict.entries_ofList hnodup] at hget
      obtain ⟨k, -, hk⟩ := List.mem_map.1 hget
      obtain ⟨rfl, rfl⟩ := Prod.mk.inj hk
      exact if_pos rfl
  have hbound := hn other hother
  have hscore := hbase worker _ t ht
  have hother' := hbase other _ u hu
  rw [hnone, Nat.cast_zero, zero_mul, sub_zero] at hscore
  rw [hcount, Option.getD_some] at hother'
  linarith

/-- What a ranking returns, and what it scores. -/
theorem eq_of_rankCandidates {candidates : List WorkerInfo} {maxCands : Option ℤ}
    {ranked : List CandidateSource}
    (h : rankCandidates cfg p requesterIp candidates excluded degraded maxCands = .ok ranked) :
    ∃ scored, ranked = limited maxCands ((descending scored).map Prod.snd) ∧
      (∀ u ∈ scored, ∃ worker ∈ candidates,
        evaluateCandidate cfg p requesterIp worker = .ok u) ∧
      ∀ worker ∈ candidates, skips excluded degraded worker.workerId worker.status = false →
        ∃ t ∈ scored, evaluateCandidate cfg p requesterIp worker = .ok t := by
  unfold rankCandidates at h
  cases hm : (candidates.filter fun worker =>
      !skips excluded degraded worker.workerId worker.status).mapM
        (evaluateCandidate cfg p requesterIp) with
  | error e =>
    rw [hm] at h
    cases h
  | ok scored =>
    rw [hm] at h
    obtain rfl := Except.ok.inj h
    have hscored := mapM_of_forall fun worker => exists_of_mapM hm
    obtain rfl := Except.ok.inj (hm.symm.trans hscored)
    refine ⟨_, rfl, fun u hu => ?_, fun worker hworker hskips => ?_⟩
    · obtain ⟨worker, hworker, hu⟩ := List.mem_filterMap.1 hu
      obtain ⟨t, ht⟩ := exists_of_mapM hm hworker
      rw [ht] at hu
      obtain rfl := Option.some.inj hu
      exact ⟨worker, (List.mem_filter.1 hworker).1, ht⟩
    · have hmem : worker ∈ candidates.filter fun worker =>
          !skips excluded degraded worker.workerId worker.status :=
        List.mem_filter.2 ⟨hworker, by rw [hskips]; rfl⟩
      obtain ⟨t, ht⟩ := exists_of_mapM hm hmem
      exact ⟨t, List.mem_filterMap.2 ⟨worker, hmem, by rw [ht]; rfl⟩, ht⟩

/-- With one candidate for each hash, a holder that comes first is filed under its name. -/
theorem filed_of_agrees (hround : ∀ q, |cfg.round3 q - q| ≤ 1) (hr : IndexInv r)
    (hkeyed : Keyed r) {worker : WorkerInfo} (hworker : r.workers.get? k = some worker)
    (hmem : normH ∈ worker.inventoryHashes)
    (hskips : skips none req.includeDegraded k worker.status = false)
    (hacceptable : skips (some req.requesterWorkerId) req.includeDegraded k worker.status = false →
      Acceptable cfg p worker)
    (hfirst : ∀ t, evaluateCandidate cfg p (requesterAddress r req clientHost) worker = .ok t →
      ∀ k' other, r.workers.get? k' = some other → other.workerId ≠ worker.workerId → ∀ u,
        evaluateCandidate cfg p (requesterAddress r req clientHost) other = .ok u → u.1 + 3 ≤ t.1)
    (hone : req.maxCandidatesPerAsset = 1) (hnorm : validateSha256Hex rawH = .ok normH)
    {resp : LocateAssetsResponse} {sources : List CandidateSource}
    (hagrees : Agrees cfg p ord' r req clientHost resp rawH normH sources)
    (hsources : sources = (limited (some 1) (descending ((r.holders ord normH).filterMap fun k =>
      (r.workers.get? k).bind
        (source cfg p (requesterAddress r req clientHost) req k)))).map Prod.snd) :
    worker.workerId = k := by
  -- another worker has another name
  have hother : ∀ {k' other}, r.workers.get? k' = some other → k' ≠ k →
      other.workerId ≠ worker.workerId := by
    intro k' other hget hne he
    have hname := hkeyed k' other hget
    rw [he] at hname
    exact hne (Except.ok.inj (hname.symm.trans (hkeyed k worker hworker)))
  -- and a lower score
  have hlower : ∀ {t}, evaluateCandidate cfg p (requesterAddress r req clientHost) worker = .ok t →
      ∀ {k' other u}, r.workers.get? k' = some other →
        evaluateCandidate cfg p (requesterAddress r req clientHost) other = .ok u →
        u = t ∨ u.1 + 3 ≤ t.1 := by
    intro t ht k' other u hget hu
    by_cases hk : k' = k
    · subst hk
      obtain rfl := Option.some.inj (hget.symm.trans hworker)
      exact .inl (Except.ok.inj (hu.symm.trans ht))
    · exact .inr (hfirst t ht k' other hget (hother hget hk) u hu)
  have hbatch : ∀ u ∈ (r.holders ord normH).filterMap fun k => (r.workers.get? k).bind
      (source cfg p (requesterAddress r req clientHost) req k), ∃ k' other,
        r.workers.get? k' = some other ∧
        source cfg p (requesterAddress r req clientHost) req k' other = some u := by
    intro u hu
    obtain ⟨k', -, hbind⟩ := List.mem_filterMap.1 hu
    obtain ⟨other, hget, hu⟩ := Option.bind_eq_some_iff.1 hbind
    exact ⟨k', other, hget, hu⟩
  rw [map_limited, limited_one, List.head?_map] at hsources
  cases hreq : skips (some req.requesterWorkerId) req.includeDegraded k worker.status with
  | false =>
    obtain ⟨t, ht⟩ := exists_source (requesterAddress r req clientHost) hreq (hacceptable hreq)
    have hheld := (@WorkerRegistry.mem_holders ord _ _ _ hr).2 ⟨worker, hworker, hmem⟩
    have hhead : (descending ((r.holders ord normH).filterMap fun k => (r.workers.get? k).bind
        (source cfg p (requesterAddress r req clientHost) req k))).head? = some t := by
      refine head?_descending (List.mem_filterMap.2 ⟨k, hheld, by rw [hworker]; exact ht⟩)
        fun u hu => ?_
      obtain ⟨k', other, hget, hu⟩ := hbatch u hu
      refine (hlower (evaluateCandidate_of_source ht) hget
        (evaluateCandidate_of_source hu)).imp_right
        fun hlow => ?_
      linarith
    obtain rfl : sources = [t.2] := by rw [hsources, hhead]; rfl
    obtain ⟨-, registered, hget, -⟩ := hagrees.listed t.2 (.head _)
    rw [(source_eq_some ht).2.1] at hget
    have hstripped := validateWorkerId_idem (hkeyed _ registered hget)
    exact Except.ok.inj (hstripped.symm.trans (hkeyed k worker hworker))
  | true =>
    obtain ⟨hk, -⟩ := eq_of_skips hskips hreq
    by_contra hne
    -- the ranking does not leave the requester out, and ranks it first
    obtain ⟨ranked, hranked, hscores⟩ := hagrees.scores
    rw [WorkerRegistry.getCandidatesForHash_eq hnorm, hone] at hranked
    obtain ⟨scored, rfl, hscored, hevaluated⟩ := eq_of_rankCandidates hranked
    have hheld := (@WorkerRegistry.mem_holders ord' _ _ _ hr).2 ⟨worker, hworker, hmem⟩
    obtain ⟨t, hmem, ht⟩ := hevaluated worker (List.mem_filterMap.2 ⟨k, hheld, hworker⟩)
      (skips_of_ne (skips_none_of_skips hskips) (hk ▸ hne))
    have hhead : (descending scored).head? = some t := by
      refine head?_descending hmem fun u hu => ?_
      obtain ⟨other, hother, hu⟩ := hscored u hu
      obtain ⟨k', -, hget⟩ := List.mem_filterMap.1 hother
      refine (hlower ht hget hu).imp_right fun hlow => ?_
      linarith
    rw [map_limited, limited_one, List.head?_map, List.head?_map, hhead, hsources] at hscores
    cases hfirst : (descending ((r.holders ord normH).filterMap fun k => (r.workers.get? k).bind
        (source cfg p (requesterAddress r req clientHost) req k))).head? with
    | none =>
      rw [hfirst] at hscores
      cases hscores
    | some u =>
      rw [hfirst] at hscores
      have hsame : u.2.priorityScore = t.2.priorityScore := (List.cons.inj hscores).1
      obtain ⟨k', other, hget, hu⟩ := hbatch u (mem_descending.1 (List.mem_of_mem_head? hfirst))
      rw [(source_eq_some hu).2.2, (evaluateCandidate_ok ht).2] at hsame
      have hnear := abs_le.1 (hround u.1)
      have hnear' := abs_le.1 (hround t.1)
      rw [hsame] at hnear
      rcases hlower ht hget (evaluateCandidate_of_source hu) with rfl | hlow
      · -- the requester is not in the batch
        by_cases hk' : k' = k
        · subst hk'
          obtain rfl := Option.some.inj (hget.symm.trans hworker)
          rw [(source_eq_some hu).1] at hreq
          cases hreq
        · refine hother hget hk' ?_
          rw [← (source_eq_some hu).2.1, (evaluateCandidate_ok ht).1]
      · linarith [hnear.2, hnear'.1]

theorem acceptable_of_locates {worker : WorkerInfo} (h : Locates cfg p ord ord' r req clientHost)
    (hworker : r.workers.get? k = some worker)
    (hskips : skips (some req.requesterWorkerId) req.includeDegraded k worker.status = false) :
    Acceptable cfg p worker := by
  obtain ⟨resp, hresp, -⟩ := h
  rw [locateAssetsSync_eq] at hresp
  cases hok : evaluatedCandidates cfg p r.workers req (requesterAddress r req clientHost) with
  | error rejected =>
    rw [hok] at hresp
    cases hresp
  | ok evaluated => exact exists_evaluateCandidate_iff.1 (evaluated_of_ok hok hworker hskips)

theorem locatable_of_locates (hround : ∀ q, |cfg.round3 q - q| ≤ 1) (hweight : 0 < p.weightError)
    (hr : IndexInv r) (hkeyed : Keyed r)
    (h : ∀ errorCounts, Locates cfg { p with errorCounts } ord ord' r
      { req with maxCandidatesPerAsset := 1 } clientHost) : Locatable cfg p r req := by
  have hacceptable : ∀ k worker, r.workers.get? k = some worker →
      skips (some req.requesterWorkerId) req.includeDegraded k worker.status = false →
      Acceptable cfg p worker := fun k worker hworker hskips =>
    acceptable_of_locates (h p.errorCounts) hworker hskips
  refine ⟨hacceptable, fun rawH hraw normH hnorm k worker hworker hmem hskips => ?_⟩
  obtain ⟨errorCounts, herrors⟩ := @exists_errorCounts cfg _ hweight
    (requesterAddress r req clientHost) (r.workers.entries.map Prod.snd) worker
  obtain ⟨resp, hresp, hagrees, -⟩ := h errorCounts
  obtain ⟨evaluated, hok, hget⟩ := @evaluatedCandidates_spec cfg { p with errorCounts } _ _
    (requesterAddress r req clientHost) fun k worker hworker hskips =>
      exists_evaluateCandidate_iff.2
      (Acceptable.of_errorCounts errorCounts (hacceptable k worker hworker hskips))
  rw [locateAssetsSync_eq] at hresp
  obtain rfl := Except.ok.inj ((congrArg (Except.map _) hok).symm.trans hresp)
  obtain ⟨sources, hsources⟩ := hagrees rawH hraw normH hnorm
  have hlocated := hsources.located
  rw [(foldl_locateHash _ _).1, if_pos hraw, assemble_of_ok hnorm,
    heldSources_eq hraw hnorm hget] at hlocated
  refine @filed_of_agrees _ _ _ _ _ { req with maxCandidatesPerAsset := 1 } _ _ _ _ hround hr hkeyed
    _ hworker hmem hskips
      (fun hreq => (hacceptable k worker hworker hreq).of_errorCounts errorCounts)
    (fun t ht k' other hother => herrors t ht other ?_) rfl hnorm _ _ hsources
    (Option.some.inj hlocated).symm
  exact List.mem_map.2 ⟨(k', other), Dict.mem_entries.2 hother, rfl⟩

/-- **Batches agree with the ranking.** In every reachable registry, each request is answered as the
ranking answers it, for every limit of candidates, all numbers of errors and all orders of the sets,
iff the workers that the batch scores pass the checks of a source and the eligible holders of the
requested hashes are filed under the identifiers in their records. -/
theorem locateAssets_iff (hround : ∀ q, |cfg.round3 q - q| ≤ 1) (hweight : 0 < p.weightError)
    (registry : RegistryConfig) (ops : List WorkerRegistry.Op) (req : LocateAssetsRequest)
    (clientHost : Option String) :
    (∀ maxCands : ℤ, 1 ≤ maxCands → maxCands ≤ 20 → ∀ errorCounts, ∀ ord ord' : SetOrder,
      Locates cfg { p with errorCounts } ord ord' (WorkerRegistry.run registry ops)
        { req with maxCandidatesPerAsset := maxCands } clientHost) ↔
      Locatable cfg p (WorkerRegistry.run registry ops) req := by
  have hr := WorkerRegistry.indexInv_run registry ops
  have hkeyed := WorkerRegistry.keyed_run registry ops
  constructor
  · intro h
    exact locatable_of_locates hround hweight hr hkeyed fun errorCounts =>
      h 1 le_rfl (by norm_num) errorCounts ⟨PySet.toList, fun _ => .rfl⟩
        ⟨PySet.toList, fun _ => .rfl⟩
  · rintro ⟨hacceptable, hfiled⟩ maxCands - - errorCounts ord ord'
    refine locates_of_locatable hr hkeyed ⟨fun k worker hworker hskips => ?_, hfiled⟩
    exact (hacceptable k worker hworker hskips).of_errorCounts errorCounts

end

/-! ## A worker that is filed under another name -/

/-- A network of one host. -/
def oneHost : PrioritizerConfig where
  ipAddress ip := if ip = "10.0.0.1" then some (.v4 0x0a000001) else none
  ipText _ := "10.0.0.1"
  isLoopback _ := false
  isPrivate _ := true
  urlparse url := if url = "http://10.0.0.1:8000" then some ("http", "10.0.0.1:8000") else none
  round3 q := ((q * 1000 + 1 / 2).floor : ℚ) / 1000
  advertised _ := {}

/-- The digest of the asset that the host holds. -/
def heldDigest : String := String.ofList (List.replicate 64 'a')

/-- The host registers under a name. -/
def hostOps (name : String) : List WorkerRegistry.Op :=
  [.registerWorker
    { workerId := name, endpointUrl := "http://10.0.0.1:8000", ipAddress := "10.0.0.1",
      port := 8000, inventoryHashes := PySet.ofList [heldDigest], lastHeartbeatUtc := 1 } 1]

/-- The registry of the host. -/
def hostRegistry : RegistryConfig where
  decayFactor _ := 1
  round4 := id

/-- The host is filed under its name. -/
theorem locateAssets_oneHost : Locates oneHost {} ⟨PySet.toList, fun _ => .rfl⟩
    ⟨PySet.toList, fun _ => .rfl⟩ (WorkerRegistry.run hostRegistry (hostOps "w1"))
    { requesterWorkerId := "w2", missingHashes := [heldDigest], maxCandidatesPerAsset := 20 }
    none := by
  have hround : ∀ q, |oneHost.round3 q - q| ≤ 1 := by
    intro q
    have hlow := Int.sub_one_lt_floor (q * 1000 + 1 / 2)
    have hhigh := Int.floor_le (q * 1000 + 1 / 2)
    show |(⌊q * 1000 + 1 / 2⌋ : ℚ) / 1000 - q| ≤ 1
    rw [abs_le]
    constructor <;> linarith
  have hentries : (WorkerRegistry.run hostRegistry (hostOps "w1")).workers.entries.all fun e =>
      (evaluateCandidate oneHost {} "10.0.0.1" e.2).toBool && e.2.workerId = e.1 := by
    decide +kernel
  refine (locateAssets_iff hround (p := {}) (by norm_num) hostRegistry (hostOps "w1")
    { requesterWorkerId := "w2", missingHashes := [heldDigest] } none).2 ⟨?_, ?_⟩ 20 (by norm_num)
    le_rfl {} ⟨PySet.toList, fun _ => .rfl⟩ ⟨PySet.toList, fun _ => .rfl⟩
  · rintro k worker hworker -
    have hk := List.all_eq_true.1 hentries _ (Dict.mem_entries.2 hworker)
    rw [Bool.and_eq_true] at hk
    refine (@exists_evaluateCandidate_iff _ _ "10.0.0.1" _).1 ?_
    cases ht : evaluateCandidate oneHost {} "10.0.0.1" worker with
    | error e =>
      rw [ht] at hk
      cases hk.1
    | ok t => exact ⟨t, rfl⟩
  · rintro rawH - normH - k worker hworker - -
    have hk := List.all_eq_true.1 hentries _ (Dict.mem_entries.2 hworker)
    exact of_decide_eq_true (Bool.and_eq_true _ _ ▸ hk).2

/-- The host registers with a blank before its identifier. -/
def blankRegistry : WorkerRegistry := WorkerRegistry.run hostRegistry (hostOps " w1")

/-- The host is offered as a source of its own asset, which the ranking does not do. -/
theorem requester_listed : ¬ Locates oneHost {} ⟨PySet.toList, fun _ => .rfl⟩
    ⟨PySet.toList, fun _ => .rfl⟩ blankRegistry
    { requesterWorkerId := " w1", missingHashes := [heldDigest] } none := by
  rintro ⟨resp, hresp, hagrees, -⟩
  obtain ⟨sources, hsources⟩ :=
    hagrees heldDigest List.mem_cons_self heldDigest (by decide +kernel)
  obtain ⟨ranked, hranked, hscores⟩ := hsources.scores
  have hbatch : ((locateAssetsSync oneHost {} ⟨PySet.toList, fun _ => .rfl⟩ blankRegistry
      { requesterWorkerId := " w1", missingHashes := [heldDigest] } none).toOption.bind
        (·.locations.get? heldDigest)).map List.length = some 1 := by
    decide +kernel
  have hranking : ((rankCandidates oneHost {} "127.0.0.1"
      (blankRegistry.getCandidatesForHash ⟨PySet.toList, fun _ => .rfl⟩ heldDigest) (some " w1")
      true (some 5)).toOption.map List.length) = some 0 := by
    decide +kernel
  have haddress : requesterAddress blankRegistry
      { requesterWorkerId := " w1", missingHashes := [heldDigest] } none = "127.0.0.1" := by
    decide +kernel
  rw [hresp] at hbatch
  rw [haddress] at hranked
  rw [hranked] at hranking
  have hlength := congrArg List.length hscores
  rw [List.length_map, List.length_map, Option.some.inj hranking] at hlength
  have hone : (resp.locations.get? heldDigest).map List.length = some 1 := hbatch
  rw [hsources.located, Option.map_some, hlength] at hone
  cases hone

end CandidatePrioritizer

end Aidars
