import Aidars.Foundations.Binary64
import Aidars.Foundations.Ranking
import Aidars.Registry.Basic
import Mathlib.Data.List.DropRight

/-!
# Ranking of the peers that hold an asset

`CandidatePrioritizer.evaluateCandidate` scores a worker as a source of an asset for a requester, by
the network locality of the two, the latency, the load, the errors and the penalty of the worker;
`rankCandidates` sorts candidates by their scores and keeps the first ones. A source is validated
when it is built, with the validators of a worker's record. A load that is too large for a float
raises.

The order of the candidates decides between sources with the same score only: the scores of the
sources kept are the same for each order (`map_priorityScore_of_perm`).
-/

namespace Aidars

/-- Network proximity between requester and candidate. -/
inductive LocalityTier
  | loopback
  | subnet
  | lan
  | wan
  deriving DecidableEq, Repr

/-! ## Addresses -/

/-- An IP address. -/
inductive IpAddress
  | v4 (value : ℕ)
  | v6 (value : ℕ) (scopeId : Option String)
  deriving DecidableEq

namespace IpAddress

/-- The version of the protocol. -/
def version : IpAddress → ℕ
  | v4 _ => 4
  | v6 _ _ => 6

/-- The address of the network that contains an address, for prefixes of 24 and 64 bits; the scope
stays if the address is that of the network. -/
def network : IpAddress → IpAddress
  | v4 n => v4 (n - n % 2 ^ 8)
  | v6 n scopeId => if n % 2 ^ 64 = 0 then v6 n scopeId else v6 (n - n % 2 ^ 64) none

/-- A unique local address, in `fc00::/7`, or a link-local one, in `fe80::/10`. -/
def isLan : IpAddress → Bool
  | v4 _ => false
  | v6 n _ => n / 2 ^ 121 = 0x7e || n / 2 ^ 118 = 0x3fa

end IpAddress

/-- What a worker's record says beside `WorkerInfo`, for the prioritizer alone. -/
structure AdvertisedLimits where
  canServeCas : Bool := true
  maxConcurrentStreams : ℕ := 16
  estimatedRttMs : ℚ := 0

/-- The parameters of the prioritizer: the parsers and tables of addresses and URLs (a scheme and a
network location), the rounding to three decimals, and the limits that workers advertise. -/
structure PrioritizerConfig where
  ipAddress : String → Option IpAddress
  ipText : IpAddress → String
  isLoopback : IpAddress → Bool
  isPrivate : IpAddress → Bool
  urlparse : String → Option (String × String)
  round3 : ℚ → ℚ
  advertised : String → AdvertisedLimits

variable (cfg : PrioritizerConfig)

/-- The addresses that have names of their own. -/
def loopbackAlias (cleaned : List Char) : Option String :=
  let name := String.ofList cleaned
  if name = "localhost" ∨ name = "127.0.0.1" then some "127.0.0.1"
  else if name = "ip6-localhost" ∨ name = "ip6-loopback" ∨ name = "::1" then some "::1"
  else none

/-- A text without the brackets around it. -/
def unbracket (l : List Char) : List Char :=
  if l.head? = some '[' ∧ l.getLast? = some ']' then l.tail.dropLast else l

/-- Normalise the text of an address: aliases, brackets and whitespace. -/
def normalizeIp (ipOrHost : String) : String :=
  if ipOrHost = "" then "127.0.0.1"
  else
    let cleaned := lower (strip ipOrHost.toList)
    (loopbackAlias cleaned).getD (String.ofList (unbracket cleaned))

/-- Validate an address and normalise its text. -/
def validateIpAddress (val : String) : Option String :=
  let cleaned := strip val.toList
  match loopbackAlias (lower cleaned) with
  | some ip => some ip
  | none => (cfg.ipAddress (String.ofList (unbracket cleaned))).map cfg.ipText

/-- Validate the URL of an endpoint, stripped of whitespace first and of slashes at its end then. -/
def validateEndpointUrl (val : String) : Option String :=
  let cleaned := String.ofList ((strip val.toList).rdropWhile (· = '/'))
  match cfg.urlparse cleaned with
  | some (scheme, netloc) =>
    if (scheme = "http" ∨ scheme = "https") ∧ netloc ≠ "" then some cleaned else none
  | none => none

/-- Classify the locality of a candidate for a requester. -/
def classifyLocality (requesterIp candidateIp : String) : LocalityTier :=
  match cfg.ipAddress (normalizeIp requesterIp), cfg.ipAddress (normalizeIp candidateIp) with
  | some req, some cand =>
    if req.version ≠ cand.version then .wan
    else if req = cand then .loopback
    else if cfg.isLoopback req ∧ cfg.isLoopback cand then .loopback
    else if req.network = cand.network then .subnet
    else if req.version = 4 ∧ cfg.isPrivate req ∧ cfg.isPrivate cand then .lan
    else if req.version = 6 ∧ req.isLan ∧ cand.isLan then .lan
    else .wan
  | _, _ => .wan

/-! ## Sources -/

/-- Smoothed round-trip times of workers. -/
structure LatencyTracker where
  rttMap : Dict String ℚ := ∅

/-- The time of a worker. -/
def LatencyTracker.getRtt (t : LatencyTracker) (workerId : String) (default : ℚ) : ℚ :=
  (t.rttMap.get? workerId).getD default

/-- The prioritizer: its latencies, weights and error counts. -/
structure CandidatePrioritizer where
  latencyTracker : LatencyTracker := {}
  weightRtt : ℚ := 1
  weightLoad : ℚ := 500
  weightError : ℚ := 1000
  errorCounts : Dict String ℕ := ∅

namespace CandidatePrioritizer

/-- A peer from which an asset can be streamed. -/
structure CandidateSource where
  workerId : String
  endpointUrl : String
  ipAddress : String
  port : ℕ
  localityTier : LocalityTier
  estimatedRttMs : ℚ
  loadFactor : ℚ
  penaltyScore : ℚ
  priorityScore : ℚ
  canServe : Bool
  deriving DecidableEq

/-- Why a worker is not scored: its load does not fit in a float, or fields of the source do not
pass their checks. -/
inductive SourceError
  | overflow
  | rejected (fields : List String)
  deriving DecidableEq

/-- Build a source, or name the fields that do not pass their checks. -/
def CandidateSource.validate (c : CandidateSource) : Except SourceError CandidateSource :=
  let endpointUrl := validateEndpointUrl cfg c.endpointUrl
  let ipAddress := validateIpAddress cfg c.ipAddress
  let checks := [("endpoint_url", endpointUrl.isSome), ("ip_address", ipAddress.isSome),
    ("port", 1 ≤ c.port && c.port ≤ 65535), ("estimated_rtt_ms", 0 ≤ c.estimatedRttMs),
    ("load_factor", 0 ≤ c.loadFactor), ("penalty_score", 0 ≤ c.penaltyScore)]
  match endpointUrl, ipAddress, (checks.filter (!·.2)).map Prod.fst with
  | some endpointUrl, some ipAddress, [] => .ok { c with endpointUrl, ipAddress }
  | _, _, fields => .error (.rejected fields)

variable (p : CandidatePrioritizer)

/-- The base score of a tier. -/
def tierBaseScore : LocalityTier → ℚ
  | .loopback => 10000
  | .subnet => 5000
  | .lan => 2000
  | .wan => 500

/-- The latency of a worker: the measured one, or else the one it advertises. -/
def rttMs (worker : WorkerInfo) : ℚ :=
  let advertised := (cfg.advertised worker.workerId).estimatedRttMs
  p.latencyTracker.getRtt worker.workerId (if 0 < advertised then advertised else 5)

/-- The load of a worker in relation to the streams it supports, if the quotient fits in a float. -/
def loadFactor (worker : WorkerInfo) : Option ℚ :=
  let maxStreams := max (cfg.advertised worker.workerId).maxConcurrentStreams 1
  match binary64 ((worker.activeTransfers : ℚ) / (maxStreams : ℚ)) with
  | .finite load => some (cfg.round3 load)
  | _ => none

/-- Score a worker as a source for a requester. -/
def evaluateCandidate (requesterIp : String) (worker : WorkerInfo) :
    Except SourceError (ℚ × CandidateSource) :=
  let tier := classifyLocality cfg requesterIp worker.ipAddress
  let rtt := rttMs cfg p worker
  match loadFactor cfg worker with
  | none => .error .overflow
  | some load =>
    let errors := (p.errorCounts.get? worker.workerId).getD 0
    let penalty := worker.penaltyScore
    let score := tierBaseScore tier - rtt * p.weightRtt - load * p.weightLoad -
      errors * p.weightError - penalty * 100
    let source : CandidateSource := {
      workerId := worker.workerId
      endpointUrl := worker.endpointUrl
      ipAddress := worker.ipAddress
      port := worker.port
      localityTier := tier
      estimatedRttMs := rtt
      loadFactor := load
      penaltyScore := penalty
      priorityScore := cfg.round3 score
      canServe := (cfg.advertised worker.workerId).canServeCas }
    (source.validate cfg).map (score, ·)

/-- A worker is left out: the excluded one, an offline one, and a degraded or unhealthy one unless
such are wanted. An empty identifier excludes no worker. -/
def skips (excludeWorkerId : Option String) (includeDegraded : Bool) (workerId : String)
    (status : WorkerStatus) : Bool :=
  (excludeWorkerId.any fun x => x ≠ "" && workerId = x) || status = .offline ||
    (!includeDegraded && (status = .degraded || status = .unhealthy))

/-- Scored sources in descending order of their scores. -/
def descending (scored : List (ℚ × CandidateSource)) : List (ℚ × CandidateSource) :=
  sortOn (fun c => -c.1) scored

/-- The first ones of a list, if there is a positive limit. -/
def limited {α : Type} (maxCandidates : Option ℤ) (l : List α) : List α :=
  match maxCandidates with
  | some n => if 0 < n then l.take n.toNat else l
  | none => l

/-- Rank candidates for a requester. -/
def rankCandidates (requesterIp : String) (candidates : List WorkerInfo)
    (excludeWorkerId : Option String) (includeDegraded : Bool) (maxCandidates : Option ℤ) :
    Except SourceError (List CandidateSource) :=
  ((candidates.filter fun worker =>
    !skips excludeWorkerId includeDegraded worker.workerId worker.status).mapM
      (evaluateCandidate cfg p requesterIp)).map fun ranked =>
    limited maxCandidates ((descending ranked).map Prod.snd)

/-! ## Scores -/

variable {cfg p} {requesterIp : String} {worker : WorkerInfo} {score : ℚ} {c c' : CandidateSource}
  {scored scored' : List (ℚ × CandidateSource)}

theorem map_limited {α β : Type} (f : α → β) (maxCandidates : Option ℤ) (l : List α) :
    (limited maxCandidates l).map f = limited maxCandidates (l.map f) := by
  unfold limited
  split
  · split_ifs
    · rw [List.map_take]
    · rfl
  · rfl

theorem mem_of_mem_limited {α : Type} {a : α} {maxCandidates : Option ℤ} {l : List α}
    (h : a ∈ limited maxCandidates l) : a ∈ l := by
  unfold limited at h
  split at h
  · split_ifs at h
    · exact List.mem_of_mem_take h
    · exact h
  · exact h

/-- A limit keeps the first source. -/
theorem limited_eq_nil {α : Type} {maxCandidates : Option ℤ} {l : List α} :
    limited maxCandidates l = [] ↔ l = [] := by
  cases maxCandidates with
  | none => rfl
  | some n =>
    unfold limited
    dsimp only
    split_ifs with hn
    · have hpos : n.toNat ≠ 0 := by omega
      rw [List.take_eq_nil_iff]
      exact or_iff_right hpos
    · rfl

theorem mem_descending {t : ℚ × CandidateSource} : t ∈ descending scored ↔ t ∈ scored := mem_sortOn

theorem length_descending (scored : List (ℚ × CandidateSource)) :
    (descending scored).length = scored.length := (perm_sortOn _ scored).length_eq

theorem descending_eq_nil : descending scored = [] ↔ scored = [] := by
  rw [← List.length_eq_zero_iff, length_descending, List.length_eq_zero_iff]

theorem validate_ok (h : c.validate cfg = .ok c') :
    c'.workerId = c.workerId ∧ c'.priorityScore = c.priorityScore := by
  unfold CandidateSource.validate at h
  dsimp only at h
  split at h
  · obtain rfl := Except.ok.inj h
    exact ⟨rfl, rfl⟩
  · cases h

/-- The record of a worker passes the checks of a source. -/
structure Acceptable (cfg : PrioritizerConfig) (p : CandidatePrioritizer) (worker : WorkerInfo) :
    Prop where
  endpointUrl : (validateEndpointUrl cfg worker.endpointUrl).isSome = true
  ipAddress : (validateIpAddress cfg worker.ipAddress).isSome = true
  port : 1 ≤ worker.port ∧ worker.port ≤ 65535
  estimatedRttMs : 0 ≤ rttMs cfg p worker
  loadFactor : ∃ load, CandidatePrioritizer.loadFactor cfg worker = some load ∧ 0 ≤ load
  penaltyScore : 0 ≤ worker.penaltyScore

theorem Acceptable.of_errorCounts (errorCounts : Dict String ℕ) (h : Acceptable cfg p worker) :
    Acceptable cfg { p with errorCounts } worker :=
  ⟨h.endpointUrl, h.ipAddress, h.port, h.estimatedRttMs, h.loadFactor, h.penaltyScore⟩

/-- A worker is scored iff its record passes the checks. -/
theorem exists_evaluateCandidate_iff :
    (∃ t, evaluateCandidate cfg p requesterIp worker = .ok t) ↔ Acceptable cfg p worker := by
  unfold evaluateCandidate CandidateSource.validate
  dsimp only
  constructor
  · rintro ⟨t, ht⟩
    split at ht
    · cases ht
    rename_i load hload
    split at ht
    · rename_i hurl hip hchecks
      rw [List.map_eq_nil_iff, List.filter_eq_nil_iff] at hchecks
      simp only [List.mem_cons, List.not_mem_nil, or_false, forall_eq_or_imp, forall_eq,
        Bool.not_eq_true', Bool.not_eq_false, Bool.and_eq_true, decide_eq_true_eq] at hchecks
      obtain ⟨h₁, h₂, h₃, h₄, h₅, h₆⟩ := hchecks
      exact ⟨h₁, h₂, h₃, h₄, ⟨load, hload, h₅⟩, h₆⟩
    · cases ht
  · rintro ⟨h₁, h₂, h₃, h₄, ⟨load, hload, h₅⟩, h₆⟩
    obtain ⟨url, hurl⟩ := Option.isSome_iff_exists.1 h₁
    obtain ⟨ip, hip⟩ := Option.isSome_iff_exists.1 h₂
    simp only [hload, hurl, hip, h₃, h₄, h₅, h₆]
    exact ⟨_, rfl⟩

theorem evaluateCandidate_ok
    (h : evaluateCandidate cfg p requesterIp worker = .ok (score, c)) :
    c.workerId = worker.workerId ∧ c.priorityScore = cfg.round3 score := by
  unfold evaluateCandidate at h
  dsimp only at h
  split at h
  · cases h
  cases hc : CandidateSource.validate cfg _ with
  | error rejected =>
    rw [hc] at h
    cases h
  | ok source =>
    rw [hc] at h
    obtain ⟨hid, hpriority⟩ := validate_ok hc
    obtain ⟨rfl, rfl⟩ := Prod.mk.inj (Except.ok.inj h)
    exact ⟨hid, hpriority⟩

/-- Errors lower the score of a worker, each by the weight of errors. -/
theorem exists_score_without_errors (cfg : PrioritizerConfig) (p : CandidatePrioritizer)
    (requesterIp : String) (worker : WorkerInfo) : ∃ base : ℚ, ∀ errorCounts t,
      evaluateCandidate cfg { p with errorCounts } requesterIp worker = .ok t →
        t.1 = base - (errorCounts.get? worker.workerId).getD 0 * p.weightError := by
  refine ⟨tierBaseScore (classifyLocality cfg requesterIp worker.ipAddress) -
    rttMs cfg p worker * p.weightRtt - ((loadFactor cfg worker).getD 0) * p.weightLoad -
    worker.penaltyScore * 100, fun errorCounts t h => ?_⟩
  unfold evaluateCandidate at h
  dsimp only at h
  split at h
  · cases h
  rename_i load hload
  cases hc : CandidateSource.validate cfg _ with
  | error rejected =>
    rw [hc] at h
    cases h
  | ok source =>
    rw [hc] at h
    obtain rfl := Except.ok.inj h
    rw [hload, Option.getD_some]
    show tierBaseScore _ - rttMs cfg { p with errorCounts } worker * p.weightRtt - _ - _ - _ = _
    rw [show rttMs cfg { p with errorCounts } worker = rttMs cfg p worker from rfl]
    ring

/-- **A score that beats all the others** comes first. -/
theorem head?_descending {t : ℚ × CandidateSource} (ht : t ∈ scored)
    (h : ∀ u ∈ scored, u = t ∨ u.1 < t.1) : (descending scored).head? = some t := by
  have hsorted : (descending scored).Pairwise fun a b => -a.1 ≤ -b.1 :=
    pairwise_sortOn (fun c => -c.1) scored
  have hmem : t ∈ descending scored := mem_descending.2 ht
  cases hlist : descending scored with
  | nil =>
    rw [hlist] at hmem
    cases hmem
  | cons u rest =>
    rw [hlist] at hmem hsorted
    have hu : u ∈ scored := mem_descending.1 (hlist ▸ List.mem_cons_self)
    rw [List.head?_cons, Option.some_inj]
    rcases h u hu with rfl | hlt
    · rfl
    rcases List.mem_cons.1 hmem with rfl | hrest
    · rfl
    · have hle := (List.pairwise_cons.1 hsorted).1 t hrest
      exact absurd hlt (not_lt.2 (neg_le_neg_iff.1 hle))

theorem limited_one {α : Type} (l : List α) : limited (some 1) l = l.head?.toList := by
  cases l <;> rfl

/-- **The scores of the sources that are kept do not depend on the order of the candidates.** -/
theorem map_priorityScore_of_perm (hp : scored'.Perm scored)
    (hround : ∀ t ∈ scored, t.2.priorityScore = cfg.round3 t.1) (maxCandidates : Option ℤ) :
    (limited maxCandidates ((descending scored').map Prod.snd)).map CandidateSource.priorityScore =
      (limited maxCandidates ((descending scored).map Prod.snd)).map
        CandidateSource.priorityScore := by
  have hmap (l : List (ℚ × CandidateSource)) (hl : ∀ t ∈ l, t.2.priorityScore = cfg.round3 t.1) :
      ((descending l).map Prod.snd).map CandidateSource.priorityScore =
        ((descending l).map fun t => -t.1).map fun x => cfg.round3 (-x) := by
    rw [List.map_map, List.map_map]
    refine List.map_congr_left fun t ht => ?_
    rw [Function.comp_apply, Function.comp_apply, neg_neg]
    exact hl t (mem_descending.1 ht)
  rw [map_limited, map_limited, hmap scored hround,
    hmap scored' fun t ht => hround t (hp.mem_iff.1 ht)]
  exact congrArg (fun l => limited maxCandidates (l.map fun x => cfg.round3 (-x)))
    (map_key_sortOn_of_perm hp)

end CandidatePrioritizer

end Aidars
