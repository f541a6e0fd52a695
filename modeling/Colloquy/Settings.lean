import Colloquy.Environment

/-!
# Colloquy — settings

Addresses, keys, models and the places of saved chats are settings. A setting is
looked up under a list of scopes, then without a scope, then in environment variables
and last in a default. Settings that belong to a server can be given under a scope
that is refined by a part of the server's name.

* `Settings.get` — look up a setting.
* `serverTokens` — the parts of a server's name that refine a scope.
* `Settings.getForUrl` — look up a setting for a server.
-/

namespace Colloquy

structure Settings where
  /-- Values by scope and key, the latest first. -/
  byScope : List ((String × String) × String) := []
  /-- Values by key for every scope, the latest first. -/
  everywhere : List (String × String) := []
  chatsRoot? : Option String := none
  /-- Further directories in which references are searched, in order. -/
  extraRoots : List String := []
  /-- Chat files by name, the latest first. -/
  namedChats : List (String × String) := []
  readsEnvironment : Bool := false
  deriving Repr, Inhabited

/-! ## Servers -/

/-- What stands for a server without a name. -/
def noServer : String := "NOSERVER"

/-- The name of the server in an address, without scheme, port and path. -/
def serverName (url : String) : String :=
  let rest :=
    match dropStart? url "https://" with
    | some rest => rest
    | none => (dropStart? url "http://").getD url
  let name := String.ofList (rest.toList.takeWhile fun c => c != '/' && c != ':')
  if name.isEmpty then noServer else name

/-- The labels of a server's name, without a last one of at most three bytes beside others. -/
def serverLabels (server : String) : List String :=
  let labels := splitAll server '.'
  if 1 < labels.length && labels.getLast?.any fun last => last.utf8ByteSize ≤ 3 then
    labels.dropLast
  else labels

/-- The runs of `len` neighbouring labels, from left to right, each joined by dots. -/
def labelRuns (labels : List String) (len : Nat) : List String :=
  (List.range (labels.length + 1 - len)).map fun i => joinWith "." ((labels.drop i).take len)

/-- Add an element at the end unless it is there already. -/
def addNew (tokens : List String) (token : String) : List String :=
  if tokens.contains token then tokens else tokens ++ [token]

/-- The parts of the name of an address's server, each once: shorter runs of labels first, and the
whole name last. -/
def serverTokens (url : String) : List String :=
  let server := serverName url
  let labels := serverLabels server
  let runs := (List.range labels.length).flatMap fun k => labelRuns labels (k + 1)
  (labels ++ runs ++ [server]).foldl addNew []

namespace Settings

/-! ## Setting -/

/-- Set a key within a scope. -/
def set (s : Settings) (key scope value : String) : Settings :=
  { s with byScope := ((scope, key), value) :: s.byScope }

/-- Set a key for every scope. -/
def setDefault (s : Settings) (key value : String) : Settings :=
  { s with everywhere := (key, value) :: s.everywhere }

def setChatsRoot (s : Settings) (root : String) : Settings :=
  { s with chatsRoot? := some root }

def addSearchRoot (s : Settings) (root : String) : Settings :=
  { s with extraRoots := s.extraRoots ++ [root] }

def registerChat (s : Settings) (name path : String) : Settings :=
  { s with namedChats := (name, path) :: s.namedChats }

/-! ## Looking up -/

/-- The value of the first scope that has one. -/
def inScopes? (s : Settings) (key : String) : List String → Option String
  | [] => none
  | scope :: rest =>
    match List.lookup (scope, key) s.byScope with
    | some value => some value
    | none => inScopes? s key rest

/-- The value of the first variable that has one and is not empty; a name may hold several, set off by
commas. -/
def inVariables? (env : Environment) (names : List String) : Option String :=
  (names.flatMap fun list => splitAll list ',').findSome? fun name =>
    match env.get? (trimBlank name) with
    | some value => if value.isEmpty then none else some value
    | none => none

/-- Look up a key: in the scopes, without a scope, in environment variables, then the default. -/
def get (s : Settings) (env : Environment) (key : String) (scopes envNames : List String)
    (default? : Option String) : Option String :=
  match s.inScopes? key scopes with
  | some value => some value
  | none =>
    match List.lookup key s.everywhere with
    | some value => some value
    | none =>
      match if s.readsEnvironment then inVariables? env envNames else none with
      | some value => some value
      | none => default?

/-- Each scope refined by each token of the server, then the scopes themselves. -/
def serverScopes (url : String) (scopes : List String) : List String :=
  (scopes.flatMap fun scope => (serverTokens url).map fun token => scope ++ "." ++ token) ++ scopes

/-- Look up a key for the server of an address. -/
def getForUrl (s : Settings) (env : Environment) (key : String) (url? : Option String)
    (scopes envNames : List String) (default? : Option String) : Option String :=
  match url? with
  | some url => s.get env key (serverScopes url scopes) envNames default?
  | none => s.get env key scopes envNames default?

/-! ## Places -/

/-- The directory of the user's data. -/
def dataHome (env : Environment) : String :=
  match env.get? "XDG_DATA_HOME" with
  | some dir => if Path.isAbsolute dir then dir else fallback
  | none => fallback
where
  fallback : String :=
    Path.join
      (match env.get? "HOME" with
      | some home => if home.isEmpty then "/root" else home
      | none => "/root")
      ".local/share"

/-- The directory of saved chats. -/
def chatsRoot (s : Settings) (env : Environment) : String :=
  match s.chatsRoot? with
  | some root => root
  | none => Path.join (Path.join (dataHome env) "palaver") "chats"

/-- The directories in which references are searched, in order. -/
def searchRoots (s : Settings) (env : Environment) : List String :=
  s.extraRoots ++ [s.chatsRoot env]

def namedChat? (s : Settings) (name : String) : Option String :=
  List.lookup name s.namedChats

/-- Settings that read environment variables, among them those of a file of assignments. -/
def ofEnvironment (files : FileTree) (env : Environment) :
    Except Failure (Settings × Environment) := do
  let env ← EnvFile.load files env
  let s : Settings := { readsEnvironment := true }
  match env.get? "PALAVER_CHATS" with
  | some root => return (s.setChatsRoot root, env)
  | none => return (s, env)

end Settings

end Colloquy
