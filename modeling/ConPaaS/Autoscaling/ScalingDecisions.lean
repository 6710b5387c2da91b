import ConPaaS.Autoscaling.Forecasts
import Mathlib.Data.List.Infix

namespace ConPaaS

open Effect ProvisioningManager

def MAX_CPU_USAGE : Rat := 75
def MIN_CPU_USAGE : Rat := 25
def UPPER_THRS_SLO : Rat := 3 / 4
def LOWER_THRS_SLO : Rat := 7 / 20
def UPPER_THRS_PREDICTION : Rat := 3 / 5
def LOWER_THRS_PREDICTION : Rat := 2 / 5
def MIN_NUM_BACKENDS : Nat := 1
def MIN_NUM_WEBS : Nat := 1
def RELEASE_BEFORE_MIN : Nat := 5
def RELEASE_BEFORE_MAX : Nat := 20

inductive SloFulfillmentDegree
  | low
  | mediumDown
  | medium
  | mediumUp
  | high
  deriving DecidableEq

/-- What the scaler is set up with: the objective, the types of machines, the
answers of the prediction models, of the profiler and of the search for a
strategy, and the order in which a dictionary gives its keys. -/
structure Provisioning where
  slo : Rat
  timeBetweenChanges : Rat
  timeBetweenScalingPredictions : Rat
  sloFulfillmentDegree : SloFulfillmentDegree
  vmInstTypes : List String
  computeUnits : String → Option Rat
  prices : PriceList
  predict : ForecastModel → List Rat → Option (List Rat)
  storeInstanceWorkload : List ServiceNodePerf → BackendMonitoring → CostController → MaxThroughput → Option MaxThroughput
  calculateStrategy : Rat → List ServiceNodePerf → Rat → ProvisioningManager → Option (List Scaling)
  keys : List String → List String
  keys_perm : ∀ ips, (keys ips).Perm ips.dedup

inductive BackendInstance
  | type (name : String)
  | strategy (scalings : List Scaling)

/-- The dictionary of decisions. -/
structure ProvisioningDecisions where
  addWebNodes : Nat
  removeWebNodes : Nat
  addBackendNodes : Nat
  removeBackendNodes : Nat
  vmBackendInstance : BackendInstance
  vmWebInstance : String
  nodeIpRemove : String

/-- `inst_type_1 in inst_type_2` and `node_aux.ip in node.ip`. -/
def isIn (part text : String) : Prop := part.toList <:+: text.toList

instance (part text : String) : Decidable (isIn part text) := inferInstanceAs (Decidable (_ <:+: _))

/-- `cost_shutdown_constraint`, where the date can be computed. -/
def CostController.costShutdownConstraint (now : Rat) (c : CostController) (ip : String) : Option Bool :=
  match c.vmesUsage.get? ip with
  | none => some false
  | some usage =>
    (dateAfter (now - usage.boottime)).map fun d => 60 - d.minute ≥ RELEASE_BEFORE_MIN && 60 - d.minute < RELEASE_BEFORE_MAX

/-- What is measured at a proxy, with the response time that is predicted then. -/
structure ProxyReading where
  avgWebRespTimeLb : Rat
  avgWebReqRateLb : Rat
  avgBackendReqRateLb : Rat
  avgBackendRespTimeLb : Rat
  forecastRespPredicted : Rat

def ProxyReading.none : ProxyReading := ⟨0, 0, 0, 0, 0⟩

/-- The sums and lists over the backend nodes. -/
structure BackendLoad where
  avgCpuUserBackend : Rat
  sumPhpReqRateBackends : Rat
  cpuBackendsList : List Rat
  reqRateBackendsList : List Rat

/-- What is measured before the decision. -/
structure Measurements where
  proxies : List ProxyReading
  avgCpuWeb : Rat
  backends : BackendLoad

/-- The readings of the last proxy. -/
def Measurements.last (m : Measurements) : ProxyReading := m.proxies.getLastD .none

def izipLongest (f : Rat → Rat → Rat) : List Rat → List Rat → List Rat
  | [], ys => ys.map (f 0)
  | x :: xs, [] => (x :: xs).map (f · 0)
  | x :: xs, y :: ys => f x y :: izipLongest f xs ys

/-- The lists of the nodes before, combined with the one of a node. -/
def combined (f : Rat → Rat → Rat) (before list : List Rat) : List Rat :=
  if before.length = 0 then list else izipLongest f before list

/-- `Queue.push` of a queue of five. -/
def pushed (q : List (List Rat)) (seq : List Rat) : List (List Rat) := if q.length ≤ 5 then q ++ [seq] else q.tail ++ [seq]

/-- The flags of the decision. -/
structure Flags where
  nWebToAdd : Nat
  nWebToRemove : Nat
  nBackendToAdd : Nat
  nBackendToRemove : Nat

namespace Flags

def none : Flags := ⟨0, 0, 0, 0⟩

variable (slo : Rat) (f : Flags)

/-- What a round of the loop over the proxies does to the flags. -/
def raise (r : ProxyReading) : Flags where
  nWebToAdd := if r.avgWebRespTimeLb > UPPER_THRS_SLO * slo then 1 else f.nWebToAdd
  nWebToRemove := if r.avgWebRespTimeLb < LOWER_THRS_SLO * slo then 1 else f.nWebToRemove
  nBackendToAdd :=
    if r.avgBackendRespTimeLb > UPPER_THRS_SLO * slo ∧
        obtainPredicitonDecision r.forecastRespPredicted true (UPPER_THRS_SLO * slo) = true then 1
    else f.nBackendToAdd
  nBackendToRemove :=
    if r.avgBackendRespTimeLb < 10 ∨ (r.avgBackendRespTimeLb < LOWER_THRS_SLO * slo ∧
        obtainPredicitonDecision r.forecastRespPredicted false (LOWER_THRS_SLO * slo) = true) then 1
    else f.nBackendToRemove

/-- The test of the CPU usage of the backend nodes. -/
def checkBackends (backends : Nat) (avgCpuUserBackend : Rat) : Flags :=
  if avgCpuUserBackend > MAX_CPU_USAGE then { f with nBackendToAdd := 1, nBackendToRemove := 0 }
  else if backends > 1 ∧ avgCpuUserBackend < 35 ∧ f.nBackendToAdd = 0 then { f with nBackendToRemove := 1, nBackendToAdd := 0 }
  else f

/-- The test of the CPU usage of the web nodes. A low one sets the flags of the
backend nodes. -/
def checkWebs (webs : Nat) (avgCpuWeb : Rat) : Flags :=
  if avgCpuWeb > MAX_CPU_USAGE ∧ webs < MIN_NUM_BACKENDS + 1 then { f with nWebToAdd := 1, nWebToRemove := 0 }
  else if webs > 1 ∧ avgCpuWeb < MIN_CPU_USAGE ∧ f.nWebToAdd = 0 then { f with nBackendToRemove := 1, nBackendToAdd := 0 }
  else f

/-- The flags after both tests. -/
def measured (webs backends : Nat) (m : Measurements) : Flags :=
  ((m.proxies.foldl (raise slo) none).checkBackends backends m.backends.avgCpuUserBackend).checkWebs webs m.avgCpuWeb

/-- The conditions that abort the removal of a backend node. -/
def abortBackendRemoval (backends : Nat) (m : Measurements) (consolidateVm : String) (forecastRespPredicted : Rat) : Prop :=
  let avgCpuAfterRemoval :=
    if backends > MIN_NUM_BACKENDS ∧ f.nBackendToRemove > 0 then
      m.backends.avgCpuUserBackend / (backends - 1 : Nat) + m.backends.avgCpuUserBackend
    else 0
  (avgCpuAfterRemoval > MAX_CPU_USAGE ∧ consolidateVm = "") ∨
    (m.backends.avgCpuUserBackend > 40 ∧ obtainPredicitonDecision forecastRespPredicted true (1 / 2 * slo) = true) ∨
    (m.last.avgBackendReqRateLb / backends > 13 / 10 ∧ m.last.avgBackendRespTimeLb > 1 / 2 * slo)

/-- The conditions that abort the removal of a web node. -/
def abortWebRemoval (m : Measurements) : Prop :=
  (m.last.avgWebReqRateLb ≥ 4 ∧ m.avgCpuWeb > 40) ∨ (m.last.avgWebReqRateLb ≥ 4 ∧ m.last.avgWebRespTimeLb > 1 / 2 * slo)

instance (backends : Nat) (m : Measurements) (consolidateVm : String) (forecastRespPredicted : Rat) :
    Decidable (f.abortBackendRemoval slo backends m consolidateVm forecastRespPredicted) :=
  inferInstanceAs (Decidable (_ ∨ _ ∨ _))

instance (m : Measurements) : Decidable (abortWebRemoval slo m) := inferInstanceAs (Decidable (_ ∨ _))

/-- The flags with the removals that are left. -/
def cleared (webs backends : Nat) (m : Measurements) (consolidateVm : String) (forecastRespPredicted : Rat) : Flags :=
  { f with
    nBackendToRemove :=
      if backends = MIN_NUM_BACKENDS ∨ f.nBackendToAdd ≠ 0 ∨ f.abortBackendRemoval slo backends m consolidateVm forecastRespPredicted
      then 0 else f.nBackendToRemove
    nWebToRemove := if webs = MIN_NUM_WEBS ∨ f.nWebToAdd ≠ 0 ∨ abortWebRemoval slo m then 0 else f.nWebToRemove }

end Flags

namespace ProvisioningManager

variable (p : Provisioning) (now : Rat)

/-- The measurements at a proxy. -/
def readProxy (node : ServiceNodePerf) : ScalerM ProxyReading := do
  if (← get).triggerPrediction then
    calculateErrorPrediction p.slo node.ip
    modify fun s => { s with triggerPrediction := false }
  let avgWebRespTimeLb ← averageProxy (computeWeightAverageResponse p.slo WEIGHT_SLO_VIOLATION) .webResponseTimeLb node.ip
  let avgWebReqRateLb ← averageProxy computeWeightAverage .webRequestRateLb node.ip
  let avgBackendReqRateLb ← averageProxy computeWeightAverage .phpRequestRateLb node.ip
  let avgBackendRespTimeLb ← averageProxy (computeWeightAverageResponse p.slo WEIGHT_SLO_VIOLATION) .phpResponseTimeLb node.ip
  let evaluate : ScalerM Unit := do
    modify fun s => { s with triggerPrediction := true }
    let s ← get
    match s.proxyMonitoringData node.ip with
    | none => throw ()
    | some data => predictionEvaluationProxy p.predict node.ip (data .phpResponseTimeLb)
  if avgBackendRespTimeLb > UPPER_THRS_PREDICTION * p.slo then evaluate
  if avgBackendRespTimeLb < LOWER_THRS_PREDICTION * p.slo then evaluate
  return ⟨avgWebRespTimeLb, avgWebReqRateLb, avgBackendReqRateLb, avgBackendRespTimeLb, (← get).forecastRespPredicted⟩

/-- The measurements at a backend node, added to those before. -/
def readBackend (load : BackendLoad) (node : ServiceNodePerf) : ScalerM BackendLoad := do
  let (avgCpuUserNode, cpuBackends) ← averageFiltered .cpuUser node.ip
  let (phpReqRateNode, reqRateBackends) ← averageFiltered .phpRequestRate node.ip
  if avgCpuUserNode > MAX_CPU_USAGE then modify fun s => { s with triggerWeightBalancing := true }
  return {
    avgCpuUserBackend := load.avgCpuUserBackend + avgCpuUserNode
    sumPhpReqRateBackends := load.sumPhpReqRateBackends + phpReqRateNode
    cpuBackendsList := combined (fun a b => (a + b) / 2) load.cpuBackendsList cpuBackends
    reqRateBackendsList := combined (· + ·) load.reqRateBackendsList reqRateBackends }

/-- All measurements. The averages of no nodes cannot be computed. -/
def measure (perfInfo : ServicePerformance) : ScalerM Measurements := do
  let proxies ← perfInfo.getProxyServiceNodes.mapM (readProxy p)
  let webNodes := perfInfo.getWebServiceNodes
  let avgCpuWebs ← webNodes.mapM fun node => averageWeb node.ip
  if webNodes.length = 0 then throw ()
  let backendNodes := perfInfo.getBackendServiceNodes
  let load ← backendNodes.foldlM readBackend ⟨0, 0, [], []⟩
  if backendNodes.length = 0 then throw ()
  return ⟨proxies, avgCpuWebs.sum / webNodes.length, { load with avgCpuUserBackend := load.avgCpuUserBackend / backendNodes.length }⟩

/-- `store_predictorScaler_workload`, and the end of a comparison with the last
scaling action. -/
def storeWorkload (load : BackendLoad) : ScalerM Unit := modify fun s =>
  let usable := (load.cpuBackendsList.zip load.reqRateBackendsList).filter fun item => item.1 > 10 && item.2 > 0
  let due := now - s.lastScalingOperation ≥ p.timeBetweenScalingPredictions && s.calculateScalingError
  { s with
    predictorScalerCpuUsage1h := pushed s.predictorScalerCpuUsage1h (usable.map Prod.fst)
    predictorScalerReqRate1h := pushed s.predictorScalerReqRate1h (usable.map Prod.snd)
    calculateScalingError := if due then false else s.calculateScalingError }

/-- A comparison of the compute units of two types of machines. -/
def isStronger (instTypeCheck : String) (computeUnits : Rat) : ScalerM Bool :=
  match p.computeUnits instTypeCheck with
  | none => throw ()
  | some checked => pure (checked > computeUnits)

/-- Whether a node can take over the requests of another one. -/
def canSupport (reqRate computeUnits : Rat) (nodeAux : ServiceNodePerf) : ScalerM Bool := do
  let s ← get
  let instTypeCheck := s.costController.getTypeInstance nodeAux.ip
  tryCatch (do
    match s.vmTypeMaxThroughput instTypeCheck with
    | none => throw ()
    | some (_, reqRateInst) =>
      if reqRateInst > 0 then
        let (reqRateCheck, _) ← averageFiltered .phpRequestRate nodeAux.ip
        return reqRateInst - reqRateCheck ≥ reqRate
      else isStronger p instTypeCheck computeUnits) fun _ => isStronger p instTypeCheck computeUnits

/-- The loop over the other nodes. -/
def isSupported (ip : String) (reqRate computeUnits : Rat) : List ServiceNodePerf → ScalerM Bool
  | [] => pure false
  | nodeAux :: rest => do
    if isIn nodeAux.ip ip then isSupported ip reqRate computeUnits rest
    else if ← canSupport p reqRate computeUnits nodeAux then return true
    else isSupported ip reqRate computeUnits rest

/-- Whether a node can be released. What fails is logged. -/
def canRelease (nodes : List ServiceNodePerf) (ip : String) (reqRate : Rat) : ScalerM Bool := do
  let s ← get
  tryCatch (do
    match p.computeUnits (s.costController.getTypeInstance ip), s.costController.costShutdownConstraint now ip with
    | none, _ | _, none => throw ()
    | some _, some false => return false
    | some computeUnits, some true => isSupported p ip reqRate computeUnits nodes) fun _ => pure false

/-- The loop of `consolidate_vmes`. -/
def consolidateFrom (nodes : List ServiceNodePerf) : List ServiceNodePerf → ScalerM String
  | [] => pure ""
  | node :: rest => do
    let (reqRate, _) ← averageFiltered .phpRequestRate node.ip
    if ← canRelease p now nodes node.ip reqRate then return node.ip
    else consolidateFrom nodes rest

def consolidateVmes (nodes : List ServiceNodePerf) : ScalerM String := consolidateFrom p now nodes nodes

/-- `consolidate_vm`. -/
def consolidateVm (backendNodes : List ServiceNodePerf) (f : Flags) (m : Measurements) : ScalerM String := do
  if backendNodes.length > MIN_NUM_BACKENDS ∧ f.nBackendToRemove > 0 ∧ m.backends.avgCpuUserBackend > 35 then
    let c := (← get).costController
    match backendNodes with
    | [first, second] =>
      if isIn (c.getTypeInstance first.ip) (c.getTypeInstance second.ip) then return ""
      else consolidateVmes p now backendNodes
    | _ => consolidateVmes p now backendNodes
  else return ""

/-- `vmes_perf`, as far as some nodes go, with the maximum of the indices. -/
structure VmesPerf where
  ips : List String
  perf : String → Rat × Rat
  maxPerformanceIndex : Rat

/-- The performance of a node. -/
def readPerformance (v : VmesPerf) (node : ServiceNodePerf) : ScalerM VmesPerf := do
  let s ← get
  match s.backendMonitoringData node.ip with
  | none => throw ()
  | some data =>
    set { s with backendMonitoringData := fun other => if other = node.ip then some data.filled else s.backendMonitoringData other }
    let performanceIndex := (computeWeightAverage data.cpuUser).1 * 30 + (computeWeightAverage data.phpResponseTime).1 * (2 / 5) +
      (computeWeightAverage data.phpRequestRate).1 * 120
    match p.computeUnits (s.costController.getTypeInstance node.ip) with
    | none => throw ()
    | some units =>
      return {
        ips := v.ips ++ [node.ip]
        perf := fun other => if other = node.ip then (performanceIndex, units) else v.perf other
        maxPerformanceIndex := if performanceIndex > v.maxPerformanceIndex then performanceIndex else v.maxPerformanceIndex }

/-- The tests of a candidate, but for its time to the next full hour. -/
def VmesPerf.suits (v : VmesPerf) (ip : String) : Prop :=
  (v.perf ip).1 < v.maxPerformanceIndex ∧ (p.sloFulfillmentDegree ≠ .low → (v.perf ip).2 < 100)

instance (v : VmesPerf) (ip : String) : Decidable (v.suits p ip) := inferInstanceAs (Decidable (_ ∧ _))

/-- The loop over `vmes_perf`. A failure leaves the candidate found before it. -/
def pickCandidate (c : CostController) (v : VmesPerf) : List String → String → Except String String
  | [], vmCandidate => .ok vmCandidate
  | ip :: rest, vmCandidate =>
    match c.costShutdownConstraint now ip with
    | none => .error vmCandidate
    | some closes => pickCandidate c v rest (if closes = true ∧ v.suits p ip then ip else vmCandidate)

/-- `remove_backend_vm_candidate`. What fails is logged. -/
def removeBackendVmCandidate (backendNodes : List ServiceNodePerf) : ScalerM String :=
  tryCatch (do
    let v ← backendNodes.foldlM (readPerformance p) ⟨[], fun _ => (0, 0), 0⟩
    match pickCandidate p now (← get).costController v (p.keys v.ips) "" with
    | .error vmCandidate => return vmCandidate
    | .ok vmCandidate =>
      if vmCandidate.length > 0 then
        modify fun s => { s with costController := s.costController.removeVmUsage p.prices now vmCandidate }
      return vmCandidate) fun _ => pure ""

/-- `vm_web_instance`. -/
def webInstance (f : Flags) : ScalerM String :=
  if f.nWebToAdd > 0 then
    match p.vmInstTypes with
    | [] => throw ()
    | first :: _ => pure first
  else pure "small"

/-- The web node that is to be removed. -/
def webToRemove (webNodes : List ServiceNodePerf) (f : Flags) : ScalerM String :=
  if f.nWebToRemove > 0 then
    match webNodes with
    | [] => throw ()
    | first :: _ => pure first.ip
  else pure ""

/-- The backend node that is to be removed. -/
def releasedBackend (backendNodes : List ServiceNodePerf) (consolidateVm : String) : ScalerM String := do
  modify fun s => { s with triggerPrediction := false }
  if consolidateVm.length = 0 then removeBackendVmCandidate p now backendNodes else pure consolidateVm

/-- The address after the one of a web node, which that of a backend node replaces. -/
def backendToRemove (backendNodes : List ServiceNodePerf) (consolidateVm : String) (f : Flags) (nodeIpRemove : String) :
    ScalerM String :=
  if f.nBackendToRemove > 0 then releasedBackend p now backendNodes consolidateVm else pure nodeIpRemove

/-- `vm_backend_instance`. -/
def backendInstance (backendNodes : List ServiceNodePerf) (load : BackendLoad) (f : Flags) : ScalerM BackendInstance :=
  if f.nBackendToAdd > 0 then do
    modify fun s => { s with triggerPrediction := false }
    match p.calculateStrategy load.avgCpuUserBackend backendNodes load.sumPhpReqRateBackends (← get) with
    | none => throw ()
    | some strategy =>
      modify fun s => { s with calculateScalingError := true, lastScalingOperation := now }
      return .strategy strategy
  else pure (.type "small")

/-- `print_vm_cost`. -/
def printCost : ScalerM Unit := do
  match (← get).costController.printVmCost p.prices now with
  | none => throw ()
  | some _ => pure ()

/-- The decisions by the flags. -/
def provision (webNodes backendNodes : List ServiceNodePerf) (m : Measurements) (consolidateVm : String) (f : Flags) :
    ScalerM ProvisioningDecisions := do
  let vmWebInstance ← webInstance p f
  let nodeIpRemove ← webToRemove webNodes f
  let nodeIpRemove ← backendToRemove p now backendNodes consolidateVm f nodeIpRemove
  let vmBackendInstance ← backendInstance p now backendNodes m.backends f
  printCost p now
  return ⟨f.nWebToAdd, f.nWebToRemove, f.nBackendToAdd, f.nBackendToRemove, vmBackendInstance, vmWebInstance, nodeIpRemove⟩

/-- The decision after the time between changes. -/
def decideAfterMeasuring (perfInfo : ServicePerformance) : ScalerM ProvisioningDecisions := do
  let webNodes := perfInfo.getWebServiceNodes
  let backendNodes := perfInfo.getBackendServiceNodes
  let m ← measure p perfInfo
  let f := Flags.measured p.slo webNodes.length backendNodes.length m
  storeWorkload p now m.backends
  let vm ← consolidateVm p now backendNodes f m
  let f := f.cleared p.slo webNodes.length backendNodes.length m vm (← get).forecastRespPredicted
  provision p now webNodes backendNodes m vm f

/-- `profiler.store_instance_workload`. -/
def storeProfile (perfInfo : ServicePerformance) : ScalerM Unit := do
  let s ← get
  match p.storeInstanceWorkload perfInfo.getBackendServiceNodes s.backendMonitoringData s.costController s.vmTypeMaxThroughput with
  | none => throw ()
  | some vmTypeMaxThroughput => set { s with vmTypeMaxThroughput := vmTypeMaxThroughput }

/-- `decide_actions`. -/
def decideActions (perfInfo : ServicePerformance) : ScalerM ProvisioningDecisions := do
  storeProfile p perfInfo
  if now - (← get).lastChangeTime < p.timeBetweenChanges then
    modify fun s => { s with triggerWeightBalancing := true }
    return ⟨0, 0, 0, 0, .type "small", "small", ""⟩
  else decideAfterMeasuring p now perfInfo

end ProvisioningManager

end ConPaaS
