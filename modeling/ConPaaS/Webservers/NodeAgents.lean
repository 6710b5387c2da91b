import ConPaaS.Lib.Parties
import ConPaaS.Webservers.Removal

namespace ConPaaS

open Keyed Parties

/-- What an agent answers instead of a result: the codes of its own exceptions,
and the parameter that `check_arguments` does not let pass. -/
inductive AgentError
  | configNotExist
  | configExists
  | argsInvalid
  | unknown
  | arguments (parameter : String)
  deriving DecidableEq, Repr

/-- How an order goes on that is not refused for its parameters or the files of
the agent: the addresses in it have to be found, and its processes have to run.
`cleared` says whether the old directory of the code had been removed by then. -/
inductive Ending
  | done
  | failed (error : AgentError) (cleared : Bool)
  deriving DecidableEq, Repr

/-- The settings of a proxy. -/
structure HttpProxy where
  codeVersion : String
  webList : List Endpoint
  backendList : List Endpoint
  servlets : List String
  deriving DecidableEq, Repr

/-- The agent of a node: the files in which it keeps the processes it has
started, and the directories of the code it has been sent. -/
structure WebServersAgent where
  scalarisFile : Option (Bool × String)
  httpproxyFile : Option HttpProxy
  webserverFile : Option (List String)
  phpFile : Option Unit
  tomcatFile : Option Unit
  www : List String
  webapps : List String
  deriving DecidableEq

namespace WebServersAgent

/-- The agent of a node that has just been created. -/
def fresh : WebServersAgent := ⟨none, none, none, none, none, [], []⟩

section

variable {α : Type} (ending : Ending) (settings : α)

/-- `_create`. -/
def create : Option α → Except AgentError (Option α)
  | some _ => .error .configExists
  | none =>
    match ending with
    | .done => .ok (some settings)
    | .failed error _ => .error error

/-- `_update`. A file that is not there cannot be opened. -/
def update : Option α → Except AgentError (Option α)
  | none => .error .unknown
  | some _ =>
    match ending with
    | .done => .ok (some settings)
    | .failed error _ => .error error

/-- `_stop`. -/
def stop : Option α → Except AgentError (Option α)
  | none => .error .configNotExist
  | some _ =>
    match ending with
    | .done => .ok none
    | .failed error _ => .error error

end

def validFiletypes : List String := ["zip", "tar", "git"]

/-- What `updatePHPCode` and `updateTomcatCode` do to their directories. -/
def updateCode (ending : Ending) (codeVersionId filetype file : String) (directories : List String) :
    Except AgentError Unit × List String :=
  if filetype ∉ validFiletypes then (.error (.arguments "filetype"), directories)
  else if filetype = "git" ∧ file = "" then (.error (.arguments "revision"), directories)
  else
    match ending with
    | .done => (.ok (), directories.insert codeVersionId)
    | .failed error cleared => (.error error, if cleared then directories.filter fun other => other ≠ codeVersionId else directories)

variable (agent : WebServersAgent)

/-- The change of a file, where there was no error. -/
def changed {α : Type} (result : Except AgentError α) (change : α → WebServersAgent) : Except AgentError Unit × WebServersAgent :=
  match result with
  | .ok a => (.ok (), change a)
  | .error error => (.error error, agent)

/-- The answer to an order, and what it leaves of the agent. An empty list of
web servers is not sent, and a proxy is not started without one. -/
def answer (ending : Ending) : AgentOp → Except AgentError Unit × WebServersAgent
  | .createScalaris firstNode knownHosts =>
    agent.changed (create ending (firstNode, knownHosts) agent.scalarisFile) fun file => { agent with scalarisFile := file }
  | .createHttpProxy codeVersion webList backendList servlets =>
    if webList = [] then (.error (.arguments "web_list"), agent)
    else agent.changed (create ending ⟨codeVersion, webList, backendList, servlets⟩ agent.httpproxyFile)
      fun file => { agent with httpproxyFile := file }
  | .updateHttpProxy codeVersion webList backendList servlets =>
    if webList = [] then (.error (.arguments "web_list"), agent)
    else agent.changed (update ending ⟨codeVersion, webList, backendList, servlets⟩ agent.httpproxyFile)
      fun file => { agent with httpproxyFile := file }
  | .stopHttpProxy => agent.changed (stop ending agent.httpproxyFile) fun file => { agent with httpproxyFile := file }
  | .createWebServer codeVersions =>
    agent.changed (create ending codeVersions agent.webserverFile) fun file => { agent with webserverFile := file }
  | .updateWebServer codeVersions =>
    agent.changed (update ending codeVersions agent.webserverFile) fun file => { agent with webserverFile := file }
  | .stopWebServer => agent.changed (stop ending agent.webserverFile) fun file => { agent with webserverFile := file }
  | .createPHP => agent.changed (create ending () agent.phpFile) fun file => { agent with phpFile := file }
  | .updatePHP => agent.changed (update ending () agent.phpFile) fun file => { agent with phpFile := file }
  | .stopPHP => agent.changed (stop ending agent.phpFile) fun file => { agent with phpFile := file }
  | .createTomcat => agent.changed (create ending () agent.tomcatFile) fun file => { agent with tomcatFile := file }
  | .stopTomcat => agent.changed (stop ending agent.tomcatFile) fun file => { agent with tomcatFile := file }
  | .updatePHPCode codeVersionId filetype file =>
    let (result, www) := updateCode ending codeVersionId filetype file agent.www
    (result, { agent with www })
  | .updateTomcatCode codeVersionId filetype file =>
    let (result, webapps) := updateCode ending codeVersionId filetype file agent.webapps
    (result, { agent with webapps })

/-- What is left of an agent that carries out a call, if it does. -/
def obey (call : AgentCall) : Option WebServersAgent :=
  match agent.answer .done call.op with
  | (.ok _, after) => some after
  | (.error _, _) => none

end WebServersAgent

end ConPaaS
