import TaskGraph.Error
import TaskGraph.Declaration.Identifier
import TaskGraph.Text.Blank

namespace TaskGraph

/-- How the containers of tasks are started. -/
structure Container where
  image : String := ""
  /-- The program inside the container and its leading arguments. -/
  command : List String := []
  inputDir : String := "/var/inputs"
  outputDir : String := "/var/outputs"
  taskType : String := "rust-task"
  deriving DecidableEq

/-- The arguments with which the container of a task is started. -/
def Container.arguments (c : Container) (task : String) : List String :=
  c.command ++ ["--task", task, "--inputdir", c.inputDir, "--outputdir", c.outputDir]

/-- The server, the scope and the container of one registration. -/
structure Settings where
  endpoint : String
  scope : Scope
  container : Container
  deriving DecidableEq

namespace Settings

/-- The settings that must not be blank, with their names. -/
def required (s : Settings) : List (String × String) :=
  [("endpoint", s.endpoint), ("project", s.scope.project), ("domain", s.scope.domain),
    ("version", s.scope.version), ("image", s.container.image)]

/-- The names of the required settings that are blank. -/
def missing (s : Settings) : List String :=
  (s.required.filter fun field => Text.isBlank field.2).map (·.1)

/-- Succeeds when nothing required is blank. -/
def validate (s : Settings) : Except Error Unit :=
  if s.missing.isEmpty then .ok () else .error (.config s.missing)

end Settings

/-- The address of a server from what was configured: blanks around it and slashes at its end are
    dropped, and one without a scheme gets `http://`. -/
def baseUrl (endpoint : String) : String :=
  let address := String.ofList
    (Text.dropEndWhile (· == '/') (Text.trimChars endpoint.toList))
  if "http://".toList.isPrefixOf address.toList || "https://".toList.isPrefixOf address.toList then
    address
  else
    "http://" ++ address

end TaskGraph
