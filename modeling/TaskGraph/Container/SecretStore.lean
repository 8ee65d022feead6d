import TaskGraph.Container.Environment
import TaskGraph.Error
import TaskGraph.Files.Tree
import TaskGraph.Text.Upper

namespace TaskGraph

/-- The text in front of the variables that hold secrets, and the directory of those in files. -/
structure SecretStore where
  envPrefix : String
  dir : String
  deriving DecidableEq

namespace SecretStore

/-- The store that the orchestrator describes in the environment; what it does not say is empty. -/
def ofEnvironment (env : Environment) : SecretStore where
  envPrefix := (env.get? "FLYTE_SECRETS_ENV_PREFIX").getD ""
  dir := (env.get? "FLYTE_SECRETS_DEFAULT_DIR").getD ""

/-- The variable that holds a secret: group and key in upper case, after the store's own text. -/
def variableFor (store : SecretStore) (secret : Secret) : String :=
  let name := match secret.key with
    | some key => secret.group ++ "_" ++ key
    | none => secret.group
  store.envPrefix ++ Text.upper name

/-- The path of the file that holds a secret. -/
def fileFor (store : SecretStore) (secret : Secret) : String :=
  let group := Path.join store.dir secret.group
  match secret.key with
  | some key => Path.join group key
  | none => group

/-- The value of a secret. A variable is tried before a file, each only if the mount kind allows
    it. A file that is not there is no error of its own. -/
def get (store : SecretStore) (env : Environment) (tree : FileTree) (secret : Secret) :
    Except Error String :=
  let mount := secret.mount.getD .any
  let fromEnv := if mount = .file then none else env.get? (store.variableFor secret)
  match fromEnv with
  | some value => .ok value
  | none =>
    if mount = .envVar then
      .error (.secretNotFound secret)
    else
      match tree.readText (store.fileFor secret) with
      | .ok value => .ok value
      | .error .notFound => .error (.secretNotFound secret)
      | .error fault => .error (.io fault)

end SecretStore

end TaskGraph
