import ConPaaS.Webservers.Fleet

namespace ConPaaS

open Keyed Parties Effect Deployment Agents

namespace WebServersAgent

/-- The file of the processes that run a backend. -/
def backendFile (kind : WebKind) (agent : WebServersAgent) : Option Unit :=
  match kind with
  | .php => agent.phpFile
  | .java => agent.tomcatFile

variable (agent : WebServersAgent) (kind : WebKind)

def withBackend (file : Option Unit) : WebServersAgent :=
  match kind with
  | .php => { agent with phpFile := file }
  | .java => { agent with tomcatFile := file }

def withWeb (file : Option (List String)) : WebServersAgent := { agent with webserverFile := file }

def withProxy (file : Option HttpProxy) : WebServersAgent := { agent with httpproxyFile := file }

def withScalaris (file : Option (Bool × String)) : WebServersAgent := { agent with scalarisFile := file }

def withCode (www webapps : List String) : WebServersAgent := { agent with www, webapps }

section Slots

variable (backend : Option Unit) (web : Option (List String)) (proxy : Option HttpProxy) (scalaris : Option (Bool × String))
  (www webapps : List String)

@[simp] theorem withBackend_backendFile : (agent.withBackend kind backend).backendFile kind = backend := by cases kind <;> rfl
@[simp] theorem withBackend_webserverFile : (agent.withBackend kind backend).webserverFile = agent.webserverFile := by cases kind <;> rfl
@[simp] theorem withBackend_httpproxyFile : (agent.withBackend kind backend).httpproxyFile = agent.httpproxyFile := by cases kind <;> rfl
@[simp] theorem withBackend_www : (agent.withBackend kind backend).www = agent.www := by cases kind <;> rfl
@[simp] theorem withBackend_webapps : (agent.withBackend kind backend).webapps = agent.webapps := by cases kind <;> rfl
@[simp] theorem withWeb_backendFile : (agent.withWeb web).backendFile kind = agent.backendFile kind := by cases kind <;> rfl
@[simp] theorem withWeb_webserverFile : (agent.withWeb web).webserverFile = web := rfl
@[simp] theorem withWeb_httpproxyFile : (agent.withWeb web).httpproxyFile = agent.httpproxyFile := rfl
@[simp] theorem withWeb_www : (agent.withWeb web).www = agent.www := rfl
@[simp] theorem withWeb_webapps : (agent.withWeb web).webapps = agent.webapps := rfl
@[simp] theorem withProxy_backendFile : (agent.withProxy proxy).backendFile kind = agent.backendFile kind := by cases kind <;> rfl
@[simp] theorem withProxy_webserverFile : (agent.withProxy proxy).webserverFile = agent.webserverFile := rfl
@[simp] theorem withProxy_httpproxyFile : (agent.withProxy proxy).httpproxyFile = proxy := rfl
@[simp] theorem withProxy_www : (agent.withProxy proxy).www = agent.www := rfl
@[simp] theorem withProxy_webapps : (agent.withProxy proxy).webapps = agent.webapps := rfl
@[simp] theorem withScalaris_backendFile : (agent.withScalaris scalaris).backendFile kind = agent.backendFile kind := by cases kind <;> rfl
@[simp] theorem withScalaris_webserverFile : (agent.withScalaris scalaris).webserverFile = agent.webserverFile := rfl
@[simp] theorem withScalaris_httpproxyFile : (agent.withScalaris scalaris).httpproxyFile = agent.httpproxyFile := rfl
@[simp] theorem withScalaris_www : (agent.withScalaris scalaris).www = agent.www := rfl
@[simp] theorem withScalaris_webapps : (agent.withScalaris scalaris).webapps = agent.webapps := rfl
@[simp] theorem withCode_backendFile : (agent.withCode www webapps).backendFile kind = agent.backendFile kind := by cases kind <;> rfl
@[simp] theorem withCode_webserverFile : (agent.withCode www webapps).webserverFile = agent.webserverFile := rfl
@[simp] theorem withCode_httpproxyFile : (agent.withCode www webapps).httpproxyFile = agent.httpproxyFile := rfl
@[simp] theorem withCode_www : (agent.withCode www webapps).www = www := rfl
@[simp] theorem withCode_webapps : (agent.withCode www webapps).webapps = webapps := rfl

theorem withBackend_self : agent.withBackend kind (agent.backendFile kind) = agent := by cases kind <;> rfl

end Slots

/-- A type of archive that agents take, with a revision where it is one of git. -/
def Deployable (version : CodeVersion) : Prop :=
  version.type ∈ validFiletypes ∧ (version.type = "git" → version.filename ≠ "")

instance (version : CodeVersion) : Decidable (Deployable version) := inferInstanceAs (Decidable (_ ∧ _))

section Orders

variable {agent kind} {node : ServiceNode} {urls : String → List String} {config : CodeConfiguration} {wanted : Bool}

/-- Orders to one agent, one after the other. -/
abbrev obeyAll (calls : List AgentCall) (agent : WebServersAgent) : Option WebServersAgent := serve (fun call agent => agent.obey call) calls agent

theorem obeyAll_append {first second : List AgentCall} {middle : WebServersAgent} (served : agent.obeyAll first = some middle) :
    agent.obeyAll (first ++ second) = middle.obeyAll second := by
  have all : agent.obeyAll (first ++ second) = (agent.obeyAll first).bind (obeyAll second) := serve_append first second agent
  rw [all, served, Option.bind_some]

theorem obeyAll_single (call : AgentCall) : agent.obeyAll [call] = agent.obey call := Option.bind_fun_some _

theorem obeyAll_startBackend (free : wanted = true → agent.backendFile kind = none) :
    agent.obeyAll (if wanted then [node.call (createBackend kind)] else []) =
      some (agent.withBackend kind (if wanted then some () else agent.backendFile kind)) := by
  cases wanted with
  | false => exact congrArg some (withBackend_self agent kind).symm
  | true =>
    rw [if_pos rfl, obeyAll_single]
    cases kind with
    | php =>
      have none : agent.phpFile = none := free rfl
      simp [obey, answer, ServiceNode.call, createBackend, none, changed, create, withBackend]
    | java =>
      have none : agent.tomcatFile = none := free rfl
      simp [obey, answer, ServiceNode.call, createBackend, none, changed, create, withBackend]

theorem obeyAll_stopBackend (held : wanted = true → agent.backendFile kind = some ()) :
    agent.obeyAll (if wanted then [node.call (stopBackendOp kind)] else []) =
      some (agent.withBackend kind (if wanted then none else agent.backendFile kind)) := by
  cases wanted with
  | false => exact congrArg some (withBackend_self agent kind).symm
  | true =>
    rw [if_pos rfl, obeyAll_single]
    cases kind with
    | php =>
      have some : agent.phpFile = some () := held rfl
      simp [obey, answer, ServiceNode.call, stopBackendOp, some, changed, stop, withBackend]
    | java =>
      have some : agent.tomcatFile = some () := held rfl
      simp [obey, answer, ServiceNode.call, stopBackendOp, some, changed, stop, withBackend]

theorem obeyAll_updatePHP (held : wanted = true → agent.phpFile = some ()) :
    agent.obeyAll (if wanted then [node.call .updatePHP] else []) = some agent := by
  cases wanted with
  | false => rfl
  | true =>
    have same : ({ agent with phpFile := some () } : WebServersAgent) = agent := by rw [← held rfl]
    rw [if_pos rfl, obeyAll_single]
    simp [obey, answer, ServiceNode.call, held rfl, changed, update, same]

theorem obeyAll_startWeb (versions : List String) (free : wanted = true → agent.webserverFile = none) :
    agent.obeyAll (if wanted then [node.call (.createWebServer versions)] else []) =
      some (agent.withWeb (if wanted then some versions else agent.webserverFile)) := by
  cases wanted with
  | false => rfl
  | true =>
    rw [if_pos rfl, obeyAll_single]
    simp [obey, answer, ServiceNode.call, free rfl, changed, create, withWeb]

theorem obeyAll_updateWeb (versions : List String) (held : wanted = true → agent.webserverFile.isSome = true) :
    agent.obeyAll (if wanted then [node.call (.updateWebServer versions)] else []) =
      some (agent.withWeb (if wanted then some versions else agent.webserverFile)) := by
  cases wanted with
  | false => rfl
  | true =>
    obtain ⟨old, some⟩ := Option.isSome_iff_exists.mp (held rfl)
    rw [if_pos rfl, obeyAll_single]
    simp [obey, answer, ServiceNode.call, some, changed, update, withWeb]

theorem obeyAll_stopWeb (held : wanted = true → agent.webserverFile.isSome = true) :
    agent.obeyAll (if wanted then [node.call .stopWebServer] else []) =
      some (agent.withWeb (if wanted then none else agent.webserverFile)) := by
  cases wanted with
  | false => rfl
  | true =>
    obtain ⟨old, some⟩ := Option.isSome_iff_exists.mp (held rfl)
    rw [if_pos rfl, obeyAll_single]
    simp [obey, answer, ServiceNode.call, some, changed, stop, withWeb]

/-- The settings of the proxies of a service. -/
def proxySettings (urls : String → List String) (kind : WebKind) (config : CodeConfiguration) : HttpProxy :=
  ⟨config.currentCodeVersion, config.getWebTuples, config.getBackendTuples, (obliging urls).servlets kind config⟩

theorem obeyAll_startProxy (webs : config.getWebTuples ≠ []) (free : wanted = true → agent.httpproxyFile = none) :
    agent.obeyAll (if wanted then [node.call ((obliging urls).createProxyOp kind config)] else []) =
      some (agent.withProxy (if wanted then some (proxySettings urls kind config) else agent.httpproxyFile)) := by
  cases wanted with
  | false => rfl
  | true =>
    rw [if_pos rfl, obeyAll_single]
    simp [obey, answer, ServiceNode.call, createProxyOp, webs, free rfl, changed, create, withProxy, proxySettings]

theorem obeyAll_updateProxy (webs : config.getWebTuples ≠ []) (held : wanted = true → agent.httpproxyFile.isSome = true) :
    agent.obeyAll (if wanted then [node.call ((obliging urls).updateProxyOp kind config)] else []) =
      some (agent.withProxy (if wanted then some (proxySettings urls kind config) else agent.httpproxyFile)) := by
  cases wanted with
  | false => rfl
  | true =>
    obtain ⟨old, some⟩ := Option.isSome_iff_exists.mp (held rfl)
    rw [if_pos rfl, obeyAll_single]
    simp [obey, answer, ServiceNode.call, updateProxyOp, webs, some, changed, update, withProxy, proxySettings]

theorem obeyAll_stopProxy (held : wanted = true → agent.httpproxyFile.isSome = true) :
    agent.obeyAll (if wanted then [node.call .stopHttpProxy] else []) =
      some (agent.withProxy (if wanted then none else agent.httpproxyFile)) := by
  cases wanted with
  | false => rfl
  | true =>
    obtain ⟨old, some⟩ := Option.isSome_iff_exists.mp (held rfl)
    rw [if_pos rfl, obeyAll_single]
    simp [obey, answer, ServiceNode.call, some, changed, stop, withProxy]

/-- Code that can be deployed is taken, and is there afterwards. -/
theorem obeyAll_push (agent : WebServersAgent) (kind : WebKind) {version : CodeVersion} (known : config.codeVersions.get? config.currentCodeVersion = some version)
    (deployable : Deployable version) (node : WebServiceNode) :
    ∃ www webapps, agent.obeyAll (pushCalls kind config node) = some (agent.withCode www webapps) ∧
      (kind = .php ∨ node.isRunningProxy = true ∨ node.isRunningWeb = true → config.currentCodeVersion ∈ www) ∧
      (kind = .java → node.isRunningBackend = true → config.currentCodeVersion ∈ webapps) ∧ agent.www ⊆ www ∧ agent.webapps ⊆ webapps := by
  obtain ⟨valid, revision⟩ := deployable
  have given : ¬ (version.type = "git" ∧ config.codeFile version = "") := by
    rintro ⟨git, empty⟩
    rw [CodeConfiguration.codeFile, if_pos git] at empty
    exact revision git empty
  have taken (directories : List String) : updateCode .done config.currentCodeVersion version.type (config.codeFile version) directories =
      (.ok (), directories.insert config.currentCodeVersion) := by
    rw [updateCode, if_neg (not_not_intro valid), if_neg given]
  have php (agent : WebServersAgent) :
      agent.obey (node.call (.updatePHPCode config.currentCodeVersion version.type (config.codeFile version))) =
        some (agent.withCode (agent.www.insert config.currentCodeVersion) agent.webapps) := by
    simp [obey, answer, ServiceNode.call, taken, withCode]
  have tomcat (agent : WebServersAgent) :
      agent.obey (node.call (.updateTomcatCode config.currentCodeVersion version.type (config.codeFile version))) =
        some (agent.withCode agent.www (agent.webapps.insert config.currentCodeVersion)) := by
    simp [obey, answer, ServiceNode.call, taken, withCode]
  have inside (directories : List String) : config.currentCodeVersion ∈ directories.insert config.currentCodeVersion :=
    List.mem_insert_self
  have more (directories : List String) : directories ⊆ directories.insert config.currentCodeVersion :=
    fun _ member => List.mem_insert_of_mem member
  rw [pushCalls, known]
  cases kind with
  | php =>
    exact ⟨_, _, (obeyAll_single _).trans (php agent), fun _ => inside _, by simp, more _, List.Subset.refl _⟩
  | java =>
    cases backend : node.isRunningBackend <;> cases other : (node.isRunningProxy || node.isRunningWeb)
    · refine ⟨agent.www, agent.webapps, ?_, ?_, by simp, List.Subset.refl _, List.Subset.refl _⟩
      · simp only [codeOps, backend, other]
        rfl
      · simp_all
    · refine ⟨_, _, ?_, fun _ => inside _, by simp, more _, List.Subset.refl _⟩
      simp only [codeOps, backend, other]
      exact (obeyAll_single _).trans (php agent)
    · refine ⟨_, _, ?_, ?_, fun _ _ => inside _, List.Subset.refl _, more _⟩
      · simp only [codeOps, backend, other]
        exact (obeyAll_single _).trans (tomcat agent)
      · simp_all
    · refine ⟨_, _, ?_, fun _ => inside _, fun _ _ => inside _, more _, more _⟩
      simp only [codeOps, backend, other]
      exact (obeyAll_append ((obeyAll_single _).trans (tomcat agent))).trans ((obeyAll_single _).trans (php _))

end Orders

end WebServersAgent

end ConPaaS
