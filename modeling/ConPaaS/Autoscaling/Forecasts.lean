import ConPaaS.Autoscaling.ScalingActions
import ConPaaS.Lib.Effect

namespace ConPaaS

/-- A node of the service with its roles. -/
structure ServiceNodePerf where
  ip : String
  isRunningProxy : Bool
  isRunningWeb : Bool
  isRunningBackend : Bool

/-- `service_nodes`, in the order of the dictionary. -/
structure ServicePerformance where
  serviceNodes : List ServiceNodePerf

namespace ServicePerformance

variable (perfInfo : ServicePerformance)

def getProxyServiceNodes : List ServiceNodePerf := perfInfo.serviceNodes.filter ServiceNodePerf.isRunningProxy

def getWebServiceNodes : List ServiceNodePerf := perfInfo.serviceNodes.filter ServiceNodePerf.isRunningWeb

def getBackendServiceNodes : List ServiceNodePerf := perfInfo.serviceNodes.filter ServiceNodePerf.isRunningBackend

end ServicePerformance

/-- The metrics of a proxy. -/
inductive ProxyMetric
  | webRequestRateLb
  | webResponseTimeLb
  | phpRequestRateLb
  | phpResponseTimeLb
  deriving DecidableEq

/-- The metrics of a backend node that go through `filter_cpu_data`. -/
inductive FilteredMetric
  | cpuUser
  | phpRequestRate

def FilteredMetric.of (data : NodeMetrics) : FilteredMetric → List Rat
  | .cpuUser => data.cpuUser
  | .phpRequestRate => data.phpRequestRate

def FilteredMetric.store (data : NodeMetrics) (list : List Rat) : FilteredMetric → NodeMetrics
  | .cpuUser => { data with cpuUser := list }
  | .phpRequestRate => { data with phpRequestRate := list }

/-- The models of `forecast_list`: autoregression, linear regression, exponential
smoothing and vector autoregression. -/
abbrev ForecastModel := Fin 4

/-- The highest throughput of each type of machine, as CPU usage and request
rate, where the profiler knows it. -/
abbrev MaxThroughput := String → Option (Rat × Rat)

/-- What the scaler keeps between its decisions. -/
structure ProvisioningManager where
  webMonitoringData : CpuData
  backendMonitoringData : BackendMonitoring
  proxyMonitoringData : String → Option (ProxyMetric → List Rat)
  lastChangeTime : Rat
  lastScalingOperation : Rat
  calculateScalingError : Bool
  triggerPrediction : Bool
  predictorScalerCpuUsage1h : List (List Rat)
  predictorScalerReqRate1h : List (List Rat)
  forecastModelSelected : ForecastModel
  forecastRespPredicted : Rat
  forecastList : String → Option (ForecastModel → List Rat)
  triggerWeightBalancing : Bool
  costController : CostController
  oldMonitoringDataCpu : List Rat
  vmTypeMaxThroughput : MaxThroughput

abbrev ScalerM := EStateM Unit ProvisioningManager

def WEIGHT_SLO_VIOLATION : Rat := 2

def MIN_ERROR_PREDICTION : Rat := 1000000

namespace ProvisioningManager

/-- The average of a metric of a proxy, and what it leaves of the list. -/
def averageProxy (compute : List Rat → Rat × List Rat) (metric : ProxyMetric) (ip : String) : ScalerM Rat := do
  let s ← get
  match s.proxyMonitoringData ip with
  | none => throw ()
  | some data =>
    let result := compute (data metric)
    let data := fun other => if other = metric then result.2 else data other
    set { s with proxyMonitoringData := fun other => if other = ip then some data else s.proxyMonitoringData other }
    return result.1

/-- The average of the CPU usage of a web node. -/
def averageWeb (ip : String) : ScalerM Rat := do
  let s ← get
  match s.webMonitoringData ip with
  | none => throw ()
  | some list =>
    let result := computeWeightAverage list
    set { s with webMonitoringData := fun other => if other = ip then some result.2 else s.webMonitoringData other }
    return result.1

/-- `filter_cpu_data` and the average of the list that it returns. This list is
kept as the old data. A short one is the list of the metric itself, as long as
there are no old data. -/
def averageFiltered (metric : FilteredMetric) (ip : String) : ScalerM (Rat × List Rat) := do
  let s ← get
  match s.backendMonitoringData ip with
  | none => throw ()
  | some data =>
    let newMonitoringData := metric.of data
    if newMonitoringData.length ≤ 1 ∧ s.oldMonitoringDataCpu.length = 0 then
      let result := computeWeightAverage newMonitoringData
      let data := metric.store data result.2
      set { s with
        oldMonitoringDataCpu := result.2
        backendMonitoringData := fun other => if other = ip then some data else s.backendMonitoringData other }
      return result
    else
      let result := computeWeightAverage (newMonitoringData.filter fun value => value ∉ s.oldMonitoringDataCpu)
      set { s with oldMonitoringDataCpu := result.2 }
      return result

/-- The forecasts of the models by the response times, where all of them succeed. -/
def predictionEvaluationProxy (predict : ForecastModel → List Rat → Option (List Rat)) (proxyIp : String) (phpRespData : List Rat) :
    ScalerM Unit :=
  let phpRespFiltered := phpRespData.filter (0 < ·)
  if ∀ model, (predict model phpRespFiltered).isSome then
    modify fun s =>
      let forecasts := fun model => (predict model phpRespFiltered).getD []
      let weightAvgPredictions := computeWeightAverage (forecasts s.forecastModelSelected)
      let forecasts := fun model => if model = s.forecastModelSelected then weightAvgPredictions.2 else forecasts model
      { s with
        forecastRespPredicted := if weightAvgPredictions.1 > 0 then weightAvgPredictions.1 else s.forecastRespPredicted
        forecastList := fun ip => if ip = proxyIp then some forecasts else s.forecastList ip }
  else pure ()

/-- The first of the models with the least error that is not zero. -/
def selectModel (weightAvgCurrent : Rat) (forecasts : ForecastModel → List Rat) : ForecastModel :=
  ((List.finRange 4).foldl (fun best model =>
    let predictionError := |weightAvgCurrent - (computeWeightAverage (forecasts model)).1|
    if best.2 > predictionError ∧ predictionError > 0 then (model, predictionError) else best) (0, MIN_ERROR_PREDICTION)).1

/-- The model of the constructor. -/
def firstModel : ForecastModel := 0

/-- `calculate_error_prediction`, with the lookup of the response times. Without
forecasts for the proxy an error is logged. -/
def calculateErrorPrediction (slo : Rat) (ip : String) : ScalerM Unit := do
  let s ← get
  match s.proxyMonitoringData ip, s.forecastList ip with
  | none, _ => throw ()
  | some _, none => pure ()
  | some _, some forecasts =>
    let weightAvgCurrent ← averageProxy (computeWeightAverageResponse slo WEIGHT_SLO_VIOLATION) .phpResponseTimeLb ip
    modify fun s => { s with
      forecastModelSelected := selectModel weightAvgCurrent forecasts
      forecastList := fun other => if other = ip then some fun model => filled (forecasts model) else s.forecastList other }

/-- `obtain_prediciton_decision` by the predicted response time. Where none was
predicted it agrees to everything. -/
def obtainPredicitonDecision (forecastRespPredicted : Rat) (greater : Bool) (slo : Rat) : Bool :=
  if forecastRespPredicted = 0 then true
  else if greater && forecastRespPredicted > slo then true
  else if !greater && forecastRespPredicted < slo then true
  else false

end ProvisioningManager

end ConPaaS
