import OrdersDemo.CheckServices
import OrdersDemo.Library.Fields

namespace OrdersDemo

/-- What `docker inspect` answers about a container. The numbers are as `tostring` prints them. -/
structure InspectedContainer where
  id : String
  serviceLabel : Option String
  status : String
  exitCode : String
  healthStatus : Option String
  restartCount : String
  created : String
  configImage : String
  image : String
  path : String
  args : Option (List String)

structure Row where
  id : String
  service : String
  state : String
  exitCode : String
  health : String
  restarts : String
  created : String
  image : String
  imageId : String
  command : String
  deriving DecidableEq

def Row.fields (row : Row) : List String :=
  [row.id, row.service, row.state, row.exitCode, row.health, row.restarts, row.created, row.image,
    row.imageId, row.command]

/-- The class `\s` of `jq`. -/
def isSpace (c : Char) : Bool :=
  ('\t' ≤ c && c ≤ '\r') || ('\u2000' ≤ c && c ≤ '\u200a') ||
    c ∈ [' ', '\u0085', '\u00a0', '\u1680', '\u2028', '\u2029', '\u202f', '\u205f', '\u3000']

/-- `gsub("\\s+"; " ")`, where `run` tells whether the last character was white space. -/
def collapse (run : Bool) : List Char → List Char
  | [] => []
  | c :: cs =>
    if isSpace c then (if run then collapse true cs else ' ' :: collapse true cs)
    else c :: collapse false cs

def commandText (words : List String) : String :=
  String.ofList (collapse false (" ".intercalate words).toList)

namespace InspectedContainer

variable (c : InspectedContainer)

def words : List String :=
  [c.path] ++ c.args.getD []

def row : Row where
  id := c.id
  service := c.serviceLabel.getD ""
  state := c.status
  exitCode := c.exitCode
  health := c.healthStatus.getD "none"
  restarts := c.restartCount
  created := c.created
  image := c.configImage
  imageId := c.image
  command := commandText c.words

end InspectedContainer

def tsvEscape (c : Char) : List Char :=
  if c = '\t' then ['\\', 't']
  else if c = '\n' then ['\\', 'n']
  else if c = '\r' then ['\\', 'r']
  else if c = '\\' then ['\\', '\\']
  else [c]

def tsv (fields : List String) : List Char :=
  ['\t'].intercalate (fields.map fun field => field.toList.flatMap tsvEscape)

/-- `jq -r` ends each result with a newline. -/
def jqLines (results : List (List Char)) : List Char :=
  results.flatMap (· ++ ['\n'])

/-- `$(…)` cuts the newlines at the end, and no variable of the shell holds a NUL. -/
def substitute (output : List Char) : List Char :=
  (output.filter (· ≠ '\x00')).rdropWhile (· = '\n')

def inspectedText (rows : List Row) : List Char :=
  substitute (jqLines (rows.map fun row => tsv row.fields))

/-- The `read` of the container loop, which splits a line at tabs into ten variables. -/
def readRow (line : List Char) : Row :=
  let word k := String.ofList ((Fields.readWords (· = '\t') 10 line).getD k [])
  { id := word 0, service := word 1, state := word 2, exitCode := word 3, health := word 4,
    restarts := word 5, created := word 6, image := word 7, imageId := word 8, command := word 9 }

/-- The turns of the container loop that get past `[ -n "$id" ] || continue`. -/
def judgedRows (rows : List Row) : List Row :=
  (((inspectedText rows).splitOn '\n').map readRow).filter fun row => row.id ≠ ""

/-- The command of the branch for a service that has no container. -/
def missingCommand (entrypoint command : Option (List String)) : String :=
  let words := entrypoint.getD [] ++ command.getD []
  String.ofList (substitute (jqLines [(commandText words).toList]))

def Container.row (c : Container) : Row where
  id := c.id
  service := c.service.val
  state := c.state
  exitCode := toString c.exitCode
  health := c.health
  restarts := toString c.restarts
  created := c.created
  image := c.image
  imageId := c.imageId
  command := c.command

end OrdersDemo
