import ConPaaS.Autoscaling.ScalingDecisions
import Mathlib.Data.List.Dedup

namespace ConPaaS

open Effect ProvisioningManager

namespace ProvisioningManager

variable {p : Provisioning} {now : Rat} {perfInfo : ServicePerformance} {s t : ProvisioningManager}

/-- An address that is missing or the one of a node. -/
def Addresses (nodes : List ServiceNodePerf) (ip : String) : Prop := ip = "" ∨ ∃ node ∈ nodes, node.ip = ip

theorem Addresses.mono {nodes more : List ServiceNodePerf} {ip : String} (addresses : Addresses nodes ip) (subset : nodes ⊆ more) :
    Addresses more ip :=
  addresses.imp_right fun ⟨node, member, same⟩ => ⟨node, subset member, same⟩

theorem consolidateFrom_ok {nodes rest : List ServiceNodePerf} {ip : String} (run : consolidateFrom p now nodes rest s = .ok ip t) :
    Addresses rest ip := by
  induction rest generalizing s with
  | nil => exact .inl (pure_ok.mp run).1.symm
  | cons node rest ih =>
    rw [consolidateFrom, bind_ok] at run
    obtain ⟨average, u, -, run⟩ := run
    obtain ⟨released, v, -, run⟩ := bind_ok.mp run
    cases released with
    | true => exact .inr ⟨node, List.mem_cons_self, (pure_ok.mp run).1⟩
    | false => exact (ih run).mono (List.subset_cons_self node rest)

theorem consolidateVm_ok {backendNodes : List ServiceNodePerf} {f : Flags} {m : Measurements} {vm : String}
    (run : consolidateVm p now backendNodes f m s = .ok vm t) : Addresses backendNodes vm := by
  unfold consolidateVm at run
  split at run
  · obtain ⟨c, u, -, run⟩ := bind_ok.mp run
    split at run
    · split at run
      · exact .inl (pure_ok.mp run).1.symm
      · exact consolidateFrom_ok run
    · exact consolidateFrom_ok run
  · exact .inl (pure_ok.mp run).1.symm

theorem readPerformance_ok {v w : VmesPerf} {node : ServiceNodePerf} (run : readPerformance p v node s = .ok w t) :
    w.ips = v.ips ++ [node.ip] := by
  unfold readPerformance at run
  obtain ⟨u, s', -, run⟩ := bind_ok.mp run
  cases found : u.backendMonitoringData node.ip with
  | none =>
    simp only [found] at run
    cases run
  | some data =>
    simp only [found] at run
    obtain ⟨_, s'', -, run⟩ := bind_ok.mp run
    cases units : p.computeUnits (u.costController.getTypeInstance node.ip) with
    | none =>
      simp only [units] at run
      cases run
    | some units =>
      simp only [units] at run
      rw [← (pure_ok.mp run).1]

theorem foldlM_readPerformance_ok {nodes : List ServiceNodePerf} {v w : VmesPerf}
    (run : nodes.foldlM (readPerformance p) v s = .ok w t) : w.ips = v.ips ++ nodes.map ServiceNodePerf.ip := by
  induction nodes generalizing v s with
  | nil => rw [List.map_nil, List.append_nil, (pure_ok.mp run).1]
  | cons node nodes ih =>
    rw [List.foldlM_cons] at run
    obtain ⟨next, u, first, run⟩ := bind_ok.mp run
    rw [ih run, readPerformance_ok first, List.map_cons, List.append_assoc, List.singleton_append]

/-- The candidate of a loop, however it ends. -/
def candidate : Except String String → String
  | .ok ip | .error ip => ip

theorem candidate_pick {c : CostController} {v : VmesPerf} {ips : List String} {before : String} :
    candidate (pickCandidate p now c v ips before) = before ∨ candidate (pickCandidate p now c v ips before) ∈ ips := by
  induction ips generalizing before with
  | nil => exact .inl rfl
  | cons ip rest ih =>
    unfold pickCandidate
    split
    · exact .inl rfl
    · rename_i closes _
      rcases @ih (if closes = true ∧ v.suits p ip then ip else before) with same | later
      · rw [same]
        split
        · exact .inr List.mem_cons_self
        · exact .inl rfl
      · exact .inr (List.mem_cons_of_mem ip later)

theorem removeBackendVmCandidate_ok {backendNodes : List ServiceNodePerf} {ip : String}
    (run : removeBackendVmCandidate p now backendNodes s = .ok ip t) : Addresses backendNodes ip := by
  rcases tryCatch_ok.mp run with ran | ⟨_, -, same⟩
  swap
  · exact .inl same.symm
  obtain ⟨v, u, measured, ran⟩ := bind_ok.mp ran
  obtain ⟨c, u', -, ran⟩ := bind_ok.mp ran
  have ips := foldlM_readPerformance_ok measured
  rw [List.nil_append] at ips
  have picked : candidate (pickCandidate p now c.costController v (p.keys v.ips) "") = "" ∨
      candidate (pickCandidate p now c.costController v (p.keys v.ips) "") ∈ p.keys v.ips := candidate_pick
  have same : candidate (pickCandidate p now c.costController v (p.keys v.ips) "") = ip := by
    cases pick : pickCandidate p now c.costController v (p.keys v.ips) "" with
    | error ip' =>
      simp only [pick] at ran
      exact (pure_ok.mp ran).1
    | ok ip' =>
      simp only [pick] at ran
      split at ran
      · obtain ⟨_, _, -, ran⟩ := bind_ok.mp ran
        exact (pure_ok.mp ran).1
      · exact (pure_ok.mp ran).1
  rw [same] at picked
  refine picked.imp_right fun member => ?_
  rw [(p.keys_perm v.ips).mem_iff, List.mem_dedup, ips] at member
  exact List.mem_map.mp member

variable {webNodes backendNodes : List ServiceNodePerf} {m : Measurements} {vm : String} {f : Flags} {d : ProvisioningDecisions}

theorem webToRemove_ok {ip : String} (run : webToRemove webNodes f s = .ok ip t) (removes : f.nWebToRemove > 0) :
    ∃ node ∈ webNodes, node.ip = ip := by
  unfold webToRemove at run
  rw [if_pos removes] at run
  cases webNodes with
  | nil => cases run
  | cons first rest => exact ⟨first, List.mem_cons_self, (pure_ok.mp run).1⟩

theorem releasedBackend_ok {ip : String} (known : Addresses backendNodes vm)
    (run : releasedBackend p now backendNodes vm s = .ok ip t) : Addresses backendNodes ip := by
  obtain ⟨_, u, -, run⟩ := bind_ok.mp run
  split at run
  · exact removeBackendVmCandidate_ok run
  · exact (pure_ok.mp run).1 ▸ known

theorem provision_ok (run : provision p now webNodes backendNodes m vm f s = .ok d t) :
    ∃ first s₁ s₂ s₃ vmBackend vmWeb, webToRemove webNodes f s₁ = .ok first s₂ ∧
      backendToRemove p now backendNodes vm f first s₂ = .ok d.nodeIpRemove s₃ ∧
      d = ⟨f.nWebToAdd, f.nWebToRemove, f.nBackendToAdd, f.nBackendToRemove, vmBackend, vmWeb, d.nodeIpRemove⟩ := by
  unfold provision at run
  obtain ⟨vmWeb, s₁, -, run⟩ := bind_ok.mp run
  obtain ⟨first, s₂, web, run⟩ := bind_ok.mp run
  obtain ⟨ip, s₃, backend, run⟩ := bind_ok.mp run
  obtain ⟨vmBackend, s₄, -, run⟩ := bind_ok.mp run
  obtain ⟨_, s₅, -, run⟩ := bind_ok.mp run
  obtain ⟨rfl, rfl⟩ := pure_ok.mp run
  exact ⟨first, s₁, s₂, s₃, vmBackend, vmWeb, web, backend, rfl⟩

theorem printCost_ok : printCost p now s = .ok () t ↔ (s.costController.printVmCost p.prices now).isSome ∧ s = t := by
  unfold printCost
  rw [bind_of_ok (x := get) rfl]
  cases cost : s.costController.printVmCost p.prices now with
  | none => simp [throw_run]
  | some cost => simp [pure_ok]

/-- The removal of a node of each tier. -/
def bothRemoved : Flags := ⟨0, 1, 0, 1⟩

theorem provision_both : provision p now webNodes backendNodes m vm bothRemoved s = .ok d t ↔ ∃ first rest, webNodes = first :: rest ∧
    releasedBackend p now backendNodes vm s = .ok d.nodeIpRemove t ∧
    (t.costController.printVmCost p.prices now).isSome ∧ d = ⟨0, 1, 0, 1, .type "small", "small", d.nodeIpRemove⟩ := by
  have small : webInstance p bothRemoved = pure "small" := if_neg (by decide)
  have none : backendInstance p now backendNodes m.backends bothRemoved = pure (.type "small") := if_neg (by decide)
  unfold provision
  rw [small, none, pure_bind]
  cases webNodes with
  | nil =>
    refine iff_of_false (fun run => ?_) (by simp)
    obtain ⟨_, _, web, -⟩ := bind_ok.mp run
    cases web
  | cons first rest =>
    have web : webToRemove (first :: rest) bothRemoved = pure first.ip := if_pos (by decide)
    have backend : backendToRemove p now backendNodes vm bothRemoved first.ip = releasedBackend p now backendNodes vm := if_pos (by decide)
    rw [web, pure_bind, backend, bind_ok]
    constructor
    · rintro ⟨ip, u, ran, run⟩
      rw [pure_bind, bind_ok] at run
      obtain ⟨_, v, printed, run⟩ := run
      obtain ⟨some, rfl⟩ := printCost_ok.mp printed
      obtain ⟨rfl, rfl⟩ := pure_ok.mp run
      exact ⟨first, rest, rfl, ran, some, rfl⟩
    · rintro ⟨_, _, same, ran, some, decisions⟩
      cases same
      refine ⟨d.nodeIpRemove, t, ran, ?_⟩
      rw [pure_bind, bind_ok]
      exact ⟨(), t, printCost_ok.mpr ⟨some, rfl⟩, pure_ok.mpr ⟨decisions.symm, rfl⟩⟩

end ProvisioningManager

namespace Flags

variable {slo : Rat} {f : Flags} {webs backends : Nat} {m : Measurements} {vm : String} {forecast : Rat}

/-- No flag is above one. -/
structure AtMostOne (f : Flags) : Prop where
  webToAdd : f.nWebToAdd ≤ 1
  webToRemove : f.nWebToRemove ≤ 1
  backendToAdd : f.nBackendToAdd ≤ 1
  backendToRemove : f.nBackendToRemove ≤ 1

theorem AtMostOne.raise (small : f.AtMostOne) (r : ProxyReading) : (f.raise slo r).AtMostOne := by
  obtain ⟨webToAdd, webToRemove, backendToAdd, backendToRemove⟩ := small
  constructor <;> unfold Flags.raise <;> dsimp only <;> split <;> first | exact le_rfl | assumption

theorem atMostOne_foldl (small : f.AtMostOne) (rs : List ProxyReading) : (rs.foldl (Flags.raise slo) f).AtMostOne := by
  induction rs generalizing f with
  | nil => exact small
  | cons r rs ih => exact ih (small.raise r)

theorem AtMostOne.checkBackends (small : f.AtMostOne) (avg : Rat) : (f.checkBackends backends avg).AtMostOne := by
  obtain ⟨webToAdd, webToRemove, backendToAdd, backendToRemove⟩ := small
  unfold Flags.checkBackends
  split
  · exact ⟨webToAdd, webToRemove, le_rfl, Nat.zero_le 1⟩
  · split
    · exact ⟨webToAdd, webToRemove, Nat.zero_le 1, le_rfl⟩
    · exact ⟨webToAdd, webToRemove, backendToAdd, backendToRemove⟩

theorem AtMostOne.checkWebs (small : f.AtMostOne) (avg : Rat) : (f.checkWebs webs avg).AtMostOne := by
  obtain ⟨webToAdd, webToRemove, backendToAdd, backendToRemove⟩ := small
  unfold Flags.checkWebs
  split
  · exact ⟨le_rfl, Nat.zero_le 1, backendToAdd, backendToRemove⟩
  · split
    · exact ⟨webToAdd, webToRemove, Nat.zero_le 1, le_rfl⟩
    · exact ⟨webToAdd, webToRemove, backendToAdd, backendToRemove⟩

theorem atMostOne_measured : (measured slo webs backends m).AtMostOne :=
  ((atMostOne_foldl ⟨Nat.zero_le 1, Nat.zero_le 1, Nat.zero_le 1, Nat.zero_le 1⟩ m.proxies).checkBackends _).checkWebs _

/-- A flag that each round may set. -/
theorem foldl_raise (field : Flags → Nat) (sets : ProxyReading → Prop) [DecidablePred sets]
    (step : ∀ f r, field (f.raise slo r) = if sets r then 1 else field f) (rs : List ProxyReading) :
    field (rs.foldl (raise slo) f) = if ∃ r ∈ rs, sets r then 1 else field f := by
  induction rs generalizing f with
  | nil => simp
  | cons r rs ih =>
    rw [List.foldl_cons, ih, step]
    by_cases later : ∃ r ∈ rs, sets r
    · rw [if_pos later, if_pos (later.imp fun _ both => ⟨List.mem_cons_of_mem r both.1, both.2⟩)]
    · rw [if_neg later]
      refine if_congr ⟨fun here => ⟨r, List.mem_cons_self, here⟩, ?_⟩ rfl rfl
      rintro ⟨other, member, set⟩
      rcases List.mem_cons.mp member with rfl | inside
      · exact set
      · exact absurd ⟨other, inside, set⟩ later

end Flags

variable {slo : Rat} {webs backends : Nat} {m : Measurements} {vm : String} {forecast : Rat}

namespace ProxyReading

/-- Slow enough for another backend node, now and by the forecast. -/
def WantsBackend (slo : Rat) (r : ProxyReading) : Prop :=
  r.avgBackendRespTimeLb > UPPER_THRS_SLO * slo ∧ obtainPredicitonDecision r.forecastRespPredicted true (UPPER_THRS_SLO * slo) = true

/-- Fast enough for one backend node less. -/
def SparesBackend (slo : Rat) (r : ProxyReading) : Prop :=
  r.avgBackendRespTimeLb < 10 ∨ (r.avgBackendRespTimeLb < LOWER_THRS_SLO * slo ∧
    obtainPredicitonDecision r.forecastRespPredicted false (LOWER_THRS_SLO * slo) = true)

instance (r : ProxyReading) : Decidable (r.WantsBackend slo) := inferInstanceAs (Decidable (_ ∧ _))

instance (r : ProxyReading) : Decidable (r.SparesBackend slo) := inferInstanceAs (Decidable (_ ∨ _))

end ProxyReading

/-- Measurements by which a web node is removed. -/
structure ShedsWeb (slo : Rat) (webs : Nat) (m : Measurements) : Prop where
  more : 1 < webs
  fast : ∃ r ∈ m.proxies, r.avgWebRespTimeLb < LOWER_THRS_SLO * slo
  notSlow : ∀ r ∈ m.proxies, r.avgWebRespTimeLb ≤ UPPER_THRS_SLO * slo
  calm : m.last.avgWebReqRateLb < 4 ∨ m.avgCpuWeb ≤ 40 ∧ m.last.avgWebRespTimeLb ≤ 1 / 2 * slo

/-- Measurements by which a backend node is removed along with a web node. -/
structure ShedsBackend (slo : Rat) (backends : Nat) (m : Measurements) : Prop where
  more : 1 < backends
  idle : m.avgCpuWeb < MIN_CPU_USAGE ∨ m.backends.avgCpuUserBackend ≤ MAX_CPU_USAGE ∧ (∀ r ∈ m.proxies, ¬ r.WantsBackend slo) ∧
    (m.backends.avgCpuUserBackend < 35 ∨ ∃ r ∈ m.proxies, r.SparesBackend slo)
  calm : m.last.avgBackendReqRateLb / backends ≤ 13 / 10 ∨ m.last.avgBackendRespTimeLb ≤ 1 / 2 * slo

/-- What is left to abort the removal of a backend node, by the machine that
can be consolidated and the forecast. -/
structure Unhindered (slo : Rat) (backends : Nat) (m : Measurements) (vm : String) (forecast : Rat) : Prop where
  fits : m.backends.avgCpuUserBackend / (backends - 1 : Nat) + m.backends.avgCpuUserBackend ≤ MAX_CPU_USAGE ∨ vm ≠ ""
  foreseen : m.backends.avgCpuUserBackend ≤ 40 ∨ obtainPredicitonDecision forecast true (1 / 2 * slo) = false

namespace Flags

variable {f : Flags} {avg : Rat}

theorem flag_set {sets : Prop} [Decidable sets] : (if sets then 1 else 0) = 1 ↔ sets := by
  split
  · exact iff_of_true rfl ‹_›
  · exact iff_of_false nofun ‹_›

theorem flag_unset {sets : Prop} [Decidable sets] : (if sets then 1 else 0) = 0 ↔ ¬ sets := by
  split
  · exact iff_of_false nofun (not_not.mpr ‹_›)
  · exact iff_of_true rfl ‹_›

theorem checkBackends_webs (f : Flags) (backends : Nat) (avg : Rat) :
    (f.checkBackends backends avg).nWebToAdd = f.nWebToAdd ∧ (f.checkBackends backends avg).nWebToRemove = f.nWebToRemove := by
  unfold checkBackends
  split
  · exact ⟨rfl, rfl⟩
  · split <;> exact ⟨rfl, rfl⟩

theorem checkBackends_removes (many : 1 < backends) :
    (f.checkBackends backends avg).nBackendToAdd = 0 ∧ (f.checkBackends backends avg).nBackendToRemove = 1 ↔
      avg ≤ MAX_CPU_USAGE ∧ f.nBackendToAdd = 0 ∧ (avg < 35 ∨ f.nBackendToRemove = 1) := by
  unfold checkBackends
  split
  · rename_i busy
    exact iff_of_false (fun both => absurd both.1 Nat.one_ne_zero) fun low => absurd busy (not_lt.mpr low.1)
  · rename_i low
    rw [and_iff_right (not_lt.mp low)]
    split
    · rename_i idle
      exact iff_of_true ⟨rfl, rfl⟩ ⟨idle.2.2, .inl idle.2.1⟩
    · rename_i loaded
      refine and_congr_right fun keeps => (or_iff_right fun idle => ?_).symm
      exact loaded ⟨many, idle, keeps⟩

theorem checkWebs_eq_both (many : 1 < webs) : f.checkWebs webs avg = bothRemoved ↔
    f.nWebToAdd = 0 ∧ f.nWebToRemove = 1 ∧ (avg < MIN_CPU_USAGE ∨ f.nBackendToAdd = 0 ∧ f.nBackendToRemove = 1) := by
  have enough : ¬ (avg > MAX_CPU_USAGE ∧ webs < MIN_NUM_BACKENDS + 1) := fun both => absurd both.2 (not_lt.mpr many)
  obtain ⟨webToAdd, webToRemove, backendToAdd, backendToRemove⟩ := f
  rw [checkWebs, if_neg enough]
  split
  · rename_i idle
    simp [bothRemoved, idle.2.1]
  · rename_i loaded
    rw [bothRemoved, Flags.mk.injEq]
    refine and_congr_right fun keeps => and_congr_right fun removes => (or_iff_right fun idle => ?_).symm
    exact loaded ⟨many, idle, keeps⟩

theorem measured_eq_both (manyWebs : 1 < webs) (manyBackends : 1 < backends) : measured slo webs backends m = bothRemoved ↔
    (∃ r ∈ m.proxies, r.avgWebRespTimeLb < LOWER_THRS_SLO * slo) ∧ (∀ r ∈ m.proxies, r.avgWebRespTimeLb ≤ UPPER_THRS_SLO * slo) ∧
      (m.avgCpuWeb < MIN_CPU_USAGE ∨ m.backends.avgCpuUserBackend ≤ MAX_CPU_USAGE ∧ (∀ r ∈ m.proxies, ¬ r.WantsBackend slo) ∧
        (m.backends.avgCpuUserBackend < 35 ∨ ∃ r ∈ m.proxies, r.SparesBackend slo)) := by
  have webToAdd : (m.proxies.foldl (raise slo) none).nWebToAdd =
      if ∃ r ∈ m.proxies, r.avgWebRespTimeLb > UPPER_THRS_SLO * slo then 1 else 0 :=
    foldl_raise nWebToAdd _ (fun _ _ => rfl) m.proxies
  have webToRemove : (m.proxies.foldl (raise slo) none).nWebToRemove =
      if ∃ r ∈ m.proxies, r.avgWebRespTimeLb < LOWER_THRS_SLO * slo then 1 else 0 :=
    foldl_raise nWebToRemove _ (fun _ _ => rfl) m.proxies
  have backendToAdd : (m.proxies.foldl (raise slo) none).nBackendToAdd =
      if ∃ r ∈ m.proxies, r.WantsBackend slo then 1 else 0 :=
    foldl_raise nBackendToAdd (ProxyReading.WantsBackend slo) (fun _ _ => rfl) m.proxies
  have backendToRemove : (m.proxies.foldl (raise slo) none).nBackendToRemove =
      if ∃ r ∈ m.proxies, r.SparesBackend slo then 1 else 0 :=
    foldl_raise nBackendToRemove (ProxyReading.SparesBackend slo) (fun _ _ => rfl) m.proxies
  obtain ⟨keepsAdd, keepsRemove⟩ := checkBackends_webs (m.proxies.foldl (raise slo) none) backends m.backends.avgCpuUserBackend
  rw [measured, checkWebs_eq_both manyWebs, checkBackends_removes manyBackends, keepsAdd, keepsRemove, webToAdd, webToRemove, backendToAdd,
    backendToRemove, flag_unset, flag_set, flag_unset, flag_set, and_left_comm]
  simp only [not_exists, not_and, gt_iff_lt, not_lt]

/-- Both removals are left exactly if they are all that the flags say, and
nothing stands against either. -/
theorem cleared_both (small : f.AtMostOne) :
    0 < (f.cleared slo webs backends m vm forecast).nWebToRemove ∧ 0 < (f.cleared slo webs backends m vm forecast).nBackendToRemove ↔
      f = bothRemoved ∧ webs ≠ MIN_NUM_WEBS ∧ backends ≠ MIN_NUM_BACKENDS ∧
        ¬ bothRemoved.abortBackendRemoval slo backends m vm forecast ∧ ¬ abortWebRemoval slo m := by
  obtain ⟨webToAdd, webToRemove, backendToAdd, backendToRemove⟩ := f
  obtain ⟨-, oneWeb, -, oneBackend⟩ := small
  have left {stops : Prop} [Decidable stops] (n : Nat) (one : n ≤ 1) : 0 < (if stops then 0 else n) ↔ n = 1 ∧ ¬ stops := by
    split
    · exact iff_of_false (lt_irrefl 0) fun both => both.2 ‹_›
    · rw [and_iff_left ‹_›]
      omega
  unfold cleared
  dsimp only at oneWeb oneBackend ⊢
  rw [left webToRemove oneWeb, left backendToRemove oneBackend]
  constructor
  · rintro ⟨⟨rfl, web⟩, rfl, backend⟩
    obtain ⟨manyWebs, webToAdd, calmWeb⟩ := not_or.mp web |>.imp_right not_or.mp
    obtain ⟨manyBackends, backendToAdd, calmBackend⟩ := not_or.mp backend |>.imp_right not_or.mp
    obtain rfl := not_not.mp webToAdd
    obtain rfl := not_not.mp backendToAdd
    exact ⟨rfl, manyWebs, manyBackends, calmBackend, calmWeb⟩
  · rintro ⟨same, manyWebs, manyBackends, calmBackend, calmWeb⟩
    cases same
    exact ⟨⟨rfl, by simpa using ⟨manyWebs, calmWeb⟩⟩, rfl, by simpa using ⟨manyBackends, calmBackend⟩⟩

theorem not_abortBackendRemoval (many : 1 < backends) : ¬ bothRemoved.abortBackendRemoval slo backends m vm forecast ↔
    (m.last.avgBackendReqRateLb / backends ≤ 13 / 10 ∨ m.last.avgBackendRespTimeLb ≤ 1 / 2 * slo) ∧
      Unhindered slo backends m vm forecast := by
  have removes : backends > MIN_NUM_BACKENDS ∧ bothRemoved.nBackendToRemove > 0 := ⟨many, Nat.one_pos⟩
  rw [abortBackendRemoval, if_pos removes, not_or, not_or, not_and_or, not_and_or, not_and_or, not_lt, not_lt, not_lt, not_lt,
    Bool.not_eq_true]
  constructor
  · rintro ⟨fits, foreseen, calm⟩
    exact ⟨calm, fits, foreseen⟩
  · rintro ⟨calm, fits, foreseen⟩
    exact ⟨fits, foreseen, calm⟩

theorem not_abortWebRemoval : ¬ abortWebRemoval slo m ↔
    m.last.avgWebReqRateLb < 4 ∨ m.avgCpuWeb ≤ 40 ∧ m.last.avgWebRespTimeLb ≤ 1 / 2 * slo := by
  rw [abortWebRemoval, ← and_or_left, not_and_or, not_or, not_le, not_lt, not_lt]

/-- The measurements by which a node of each tier is removed. -/
theorem removesBoth_iff (someWeb : webs ≠ 0) (someBackend : backends ≠ 0) :
    0 < ((measured slo webs backends m).cleared slo webs backends m vm forecast).nWebToRemove ∧
        0 < ((measured slo webs backends m).cleared slo webs backends m vm forecast).nBackendToRemove ↔
      ShedsWeb slo webs m ∧ ShedsBackend slo backends m ∧ Unhindered slo backends m vm forecast := by
  rw [cleared_both atMostOne_measured, not_abortWebRemoval]
  unfold MIN_NUM_WEBS MIN_NUM_BACKENDS
  constructor
  · rintro ⟨flags, oneWeb, oneBackend, calmBackend, calmWeb⟩
    have manyWebs : 1 < webs := by omega
    have manyBackends : 1 < backends := by omega
    obtain ⟨fast, notSlow, idle⟩ := (measured_eq_both manyWebs manyBackends).mp flags
    obtain ⟨calm, unhindered⟩ := (not_abortBackendRemoval manyBackends).mp calmBackend
    exact ⟨⟨manyWebs, fast, notSlow, calmWeb⟩, ⟨manyBackends, idle, calm⟩, unhindered⟩
  · rintro ⟨⟨manyWebs, fast, notSlow, calmWeb⟩, ⟨manyBackends, idle, calm⟩, unhindered⟩
    refine ⟨(measured_eq_both manyWebs manyBackends).mpr ⟨fast, notSlow, idle⟩, by omega, by omega, ?_, calmWeb⟩
    exact (not_abortBackendRemoval manyBackends).mpr ⟨calm, unhindered⟩

/-- Flags by which no tier both grows and shrinks, or shrinks at its minimum size. -/
structure Settled (webs backends : Nat) (f : Flags) : Prop where
  webTier : f.nWebToAdd = 0 ∨ f.nWebToRemove = 0
  backendTier : f.nBackendToAdd = 0 ∨ f.nBackendToRemove = 0
  oneWeb : f.nWebToRemove ≤ 1
  oneBackend : f.nBackendToRemove ≤ 1
  leastWebs : webs = MIN_NUM_WEBS → f.nWebToRemove = 0
  leastBackends : backends = MIN_NUM_BACKENDS → f.nBackendToRemove = 0

theorem AtMostOne.cleared (small : f.AtMostOne) : (f.cleared slo webs backends m vm forecast).Settled webs backends where
  webTier := or_iff_not_imp_left.mpr fun adds => if_pos (.inr (.inl adds))
  backendTier := or_iff_not_imp_left.mpr fun adds => if_pos (.inr (.inl adds))
  oneWeb := by
    unfold Flags.cleared
    dsimp only
    split
    · exact Nat.zero_le 1
    · exact small.webToRemove
  oneBackend := by
    unfold Flags.cleared
    dsimp only
    split
    · exact Nat.zero_le 1
    · exact small.backendToRemove
  leastWebs least := if_pos (.inl least)
  leastBackends least := if_pos (.inl least)

/-- The removals that are left when both are. -/
theorem cleared_eq_both (webs_left : 0 < (f.cleared slo webs backends m vm forecast).nWebToRemove)
    (backends_left : 0 < (f.cleared slo webs backends m vm forecast).nBackendToRemove) (small : f.AtMostOne) :
    f.cleared slo webs backends m vm forecast = bothRemoved := by
  obtain ⟨rfl, oneWeb, oneBackend, calmBackend, calmWeb⟩ := (cleared_both small).mp ⟨webs_left, backends_left⟩
  have web : ¬ (webs = MIN_NUM_WEBS ∨ bothRemoved.nWebToAdd ≠ 0 ∨ abortWebRemoval slo m) := by simpa [bothRemoved] using ⟨oneWeb, calmWeb⟩
  have backend : ¬ (backends = MIN_NUM_BACKENDS ∨ bothRemoved.nBackendToAdd ≠ 0 ∨
      bothRemoved.abortBackendRemoval slo backends m vm forecast) := by simpa [bothRemoved] using ⟨oneBackend, calmBackend⟩
  rw [cleared, if_neg web, if_neg backend]

end Flags

/-- What the decisions are to be: no tier both grows and shrinks, a tier loses
one node at most, and none at its minimum size, and an address is one of a node
of each tier that loses one. -/
structure ProvisioningDecisions.Consistent (perfInfo : ServicePerformance) (d : ProvisioningDecisions) : Prop where
  webTier : d.addWebNodes = 0 ∨ d.removeWebNodes = 0
  backendTier : d.addBackendNodes = 0 ∨ d.removeBackendNodes = 0
  oneWeb : d.removeWebNodes ≤ 1
  oneBackend : d.removeBackendNodes ≤ 1
  leastWebs : perfInfo.getWebServiceNodes.length ≤ MIN_NUM_WEBS → d.removeWebNodes = 0
  leastBackends : perfInfo.getBackendServiceNodes.length ≤ MIN_NUM_BACKENDS → d.removeBackendNodes = 0
  webAddress : 0 < d.removeWebNodes → Addresses perfInfo.getWebServiceNodes d.nodeIpRemove
  backendAddress : 0 < d.removeBackendNodes → Addresses perfInfo.getBackendServiceNodes d.nodeIpRemove

namespace ProvisioningManager

variable (p : Provisioning) (now : Rat) (perfInfo : ServicePerformance) (s : ProvisioningManager)

/-- The decisions from a state are as they are to be, where they are made. -/
def DecidesConsistently : Prop := ∀ d t, decideActions p now perfInfo s = .ok d t → d.Consistent perfInfo

/-- The measurements of the profiler and of the scaler. -/
def profileAndMeasure : ScalerM Measurements := do
  storeProfile p perfInfo
  measure p perfInfo

/-- Where the last change is long ago, the measurements are such that both tiers
shed a node and nothing stands against it, the backend node that is released is
not a web node, and the costs can be printed. -/
def ShedsOfOther : Prop :=
  p.timeBetweenChanges ≤ now - s.lastChangeTime ∧
    ∃ m t vm u ip v, profileAndMeasure p perfInfo s = .ok m t ∧
      ShedsWeb p.slo perfInfo.getWebServiceNodes.length m ∧ ShedsBackend p.slo perfInfo.getBackendServiceNodes.length m ∧
      (do storeWorkload p now m.backends; consolidateVm p now perfInfo.getBackendServiceNodes bothRemoved m) t = .ok vm u ∧
      Unhindered p.slo perfInfo.getBackendServiceNodes.length m vm u.forecastRespPredicted ∧
      releasedBackend p now perfInfo.getBackendServiceNodes vm u = .ok ip v ∧
      ¬ Addresses perfInfo.getWebServiceNodes ip ∧ (v.costController.printVmCost p.prices now).isSome

variable {p now perfInfo s} {t : ProvisioningManager} {m : Measurements} {d : ProvisioningDecisions}

theorem measure_ok (run : measure p perfInfo s = .ok m t) :
    perfInfo.getWebServiceNodes.length ≠ 0 ∧ perfInfo.getBackendServiceNodes.length ≠ 0 := by
  unfold measure at run
  obtain ⟨_, _, -, run⟩ := bind_ok.mp run
  obtain ⟨_, _, -, run⟩ := bind_ok.mp run
  split at run
  · cases run
  · rename_i webs
    obtain ⟨_, _, -, run⟩ := bind_ok.mp run
    split at run
    · cases run
    · exact ⟨webs, ‹_›⟩

theorem decideAfterMeasuring_ok : decideAfterMeasuring p now perfInfo s = .ok d t ↔ ∃ m u vm v, measure p perfInfo s = .ok m u ∧
    (do storeWorkload p now m.backends
        consolidateVm p now perfInfo.getBackendServiceNodes
          (Flags.measured p.slo perfInfo.getWebServiceNodes.length perfInfo.getBackendServiceNodes.length m) m) u = .ok vm v ∧
    provision p now perfInfo.getWebServiceNodes perfInfo.getBackendServiceNodes m vm
      ((Flags.measured p.slo perfInfo.getWebServiceNodes.length perfInfo.getBackendServiceNodes.length m).cleared p.slo
        perfInfo.getWebServiceNodes.length perfInfo.getBackendServiceNodes.length m vm v.forecastRespPredicted) v = .ok d t := by
  unfold decideAfterMeasuring
  constructor
  · intro run
    obtain ⟨m, u, measured, run⟩ := bind_ok.mp run
    obtain ⟨_, u', stored, run⟩ := bind_ok.mp run
    obtain ⟨vm, v, consolidated, run⟩ := bind_ok.mp run
    rw [bind_of_ok (x := get) rfl] at run
    exact ⟨m, u, vm, v, measured, bind_ok.mpr ⟨_, u', stored, consolidated⟩, run⟩
  · rintro ⟨m, u, vm, v, measured, run, provided⟩
    obtain ⟨_, u', stored, consolidated⟩ := bind_ok.mp run
    rw [bind_of_ok measured, bind_of_ok stored, bind_of_ok consolidated, bind_of_ok (x := get) rfl]
    exact provided

theorem storeProfile_ok (run : storeProfile p perfInfo s = .ok () t) : t.lastChangeTime = s.lastChangeTime := by
  unfold storeProfile at run
  rw [bind_of_ok (x := get) rfl] at run
  cases profile : p.storeInstanceWorkload perfInfo.getBackendServiceNodes s.backendMonitoringData s.costController s.vmTypeMaxThroughput with
  | none =>
    rw [profile] at run
    cases run
  | some throughput =>
    rw [profile] at run
    cases run
    rfl

theorem decideActions_ok : decideActions p now perfInfo s = .ok d t ↔ ∃ u, storeProfile p perfInfo s = .ok () u ∧
    if now - s.lastChangeTime < p.timeBetweenChanges then
      d = ⟨0, 0, 0, 0, .type "small", "small", ""⟩ ∧ t = { u with triggerWeightBalancing := true }
    else decideAfterMeasuring p now perfInfo u = .ok d t := by
  unfold decideActions
  rw [bind_ok]
  constructor
  · rintro ⟨_, u, stored, run⟩
    rw [bind_of_ok (x := get) rfl, storeProfile_ok stored] at run
    refine ⟨u, stored, ?_⟩
    split at run
    · rename_i recent
      obtain ⟨_, v, marked, run⟩ := bind_ok.mp run
      obtain ⟨rfl, rfl⟩ := pure_ok.mp run
      cases marked
      rw [if_pos recent]
      exact ⟨rfl, rfl⟩
    · rename_i due
      rwa [if_neg due]
  · rintro ⟨u, stored, run⟩
    refine ⟨(), u, stored, ?_⟩
    rw [bind_of_ok (x := get) rfl, storeProfile_ok stored]
    split at run
    · rename_i recent
      obtain ⟨rfl, rfl⟩ := run
      rw [if_pos recent]
      rfl
    · rename_i due
      rwa [if_neg due]

/-- The decisions by flags, but for the address of a web node where a node of
each tier is removed. -/
theorem consistent_of_provision {vm : String} {f : Flags}
    (settled : f.Settled perfInfo.getWebServiceNodes.length perfInfo.getBackendServiceNodes.length)
    (someWeb : perfInfo.getWebServiceNodes.length ≠ 0) (someBackend : perfInfo.getBackendServiceNodes.length ≠ 0)
    (known : Addresses perfInfo.getBackendServiceNodes vm)
    (run : provision p now perfInfo.getWebServiceNodes perfInfo.getBackendServiceNodes m vm f s = .ok d t)
    (single : 0 < f.nWebToRemove → 0 < f.nBackendToRemove → Addresses perfInfo.getWebServiceNodes d.nodeIpRemove) :
    d.Consistent perfInfo := by
  obtain ⟨first, s₁, s₂, s₃, vmBackend, vmWeb, web, backend, same⟩ := provision_ok run
  generalize d.nodeIpRemove = ip at *
  subst same
  refine ⟨settled.webTier, settled.backendTier, settled.oneWeb, settled.oneBackend, fun few => settled.leastWebs ?_,
    fun few => settled.leastBackends ?_, fun removesWeb => ?_, fun removesBackend => ?_⟩
  · exact le_antisymm few (Nat.pos_of_ne_zero someWeb)
  · exact le_antisymm few (Nat.pos_of_ne_zero someBackend)
  · by_cases removesBackend : 0 < f.nBackendToRemove
    · exact single removesWeb removesBackend
    · rw [backendToRemove, if_neg removesBackend] at backend
      obtain ⟨rfl, -⟩ := pure_ok.mp backend
      exact .inr (webToRemove_ok web removesWeb)
  · rw [backendToRemove, if_pos removesBackend] at backend
    exact releasedBackend_ok known backend

end ProvisioningManager

/-- A setup for small machines, whose prediction models foresee nothing. -/
def smallMachines : Provisioning where
  slo := 700
  timeBetweenChanges := 600
  timeBetweenScalingPredictions := 1800
  sloFulfillmentDegree := .low
  vmInstTypes := ["small"]
  computeUnits _ := some 1
  prices := fiveCents
  predict _ _ := some []
  storeInstanceWorkload _ _ _ throughput := some throughput
  calculateStrategy _ _ _ _ := some []
  keys := List.dedup
  keys_perm _ := .refl _

/-- A proxy, two web nodes and two backend nodes. -/
def fiveNodes : ServicePerformance where
  serviceNodes := [⟨"10.0.0.2", true, false, false⟩, ⟨"10.0.0.3", false, true, false⟩, ⟨"10.0.0.4", false, true, false⟩,
    ⟨"10.0.0.5", false, false, true⟩, ⟨"10.0.0.6", false, false, true⟩]

/-- Forty-five minutes after the start only the second backend node has been used. -/
def idleService : ProvisioningManager where
  webMonitoringData _ := some []
  backendMonitoringData ip := some ⟨if ip = "10.0.0.6" then [20, 20] else [], [], []⟩
  proxyMonitoringData _ := some fun _ => []
  lastChangeTime := 0
  lastScalingOperation := 0
  calculateScalingError := false
  triggerPrediction := false
  predictorScalerCpuUsage1h := []
  predictorScalerReqRate1h := []
  forecastModelSelected := firstModel
  forecastRespPredicted := 0
  forecastList _ := none
  triggerWeightBalancing := false
  costController := busyFirst.costController
  oldMonitoringDataCpu := []
  vmTypeMaxThroughput _ := none

end ConPaaS
