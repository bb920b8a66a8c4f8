import OtelFleet.Pipelines.Render
import OtelFleet.Store.Tables

open Catalog (Kind)
open Store (TargetClass)

namespace Pipelines

structure Issue where
  path : Option String
  message : String

def issueAt (path message : String) : Issue :=
  { path := some path, message := message }

def indexed (field : String) (i : Nat) : String :=
  field ++ "[" ++ Strconv.itoa i ++ "]"

section Schema

mutual

-- Flattens a tree of violations into issues. A missing property is reported at the property itself.
def schemaIssues (base : String) : ValidationError → List Issue
  | { instanceLocation, missing, message, causes } =>
    match causes with
    | [] =>
      let path := instanceLocation.foldl (fun path seg => path ++ "." ++ seg) base
      if missing = [] then [issueAt path message]
      else missing.map fun name => issueAt (path ++ "." ++ name) "required property is missing"
    | cause :: causes => schemaIssues base cause ++ schemaIssuesOf base causes

def schemaIssuesOf (base : String) : List ValidationError → List Issue
  | [] => []
  | cause :: causes => schemaIssues base cause ++ schemaIssuesOf base causes

end

end Schema

variable [Runtime]

def quoted (s : String) : String :=
  Strconv.quote Runtime.isPrint s

def signalIssues : Nat → List String → List String → List Issue
  | _, _, [] => []
  | i, seen, sig :: sigs =>
    (if !validSignal sig then
      [issueAt (indexed "signals" i)
        ("unknown signal " ++ quoted sig ++ " (want logs, traces or metrics)")]
    else if sig ∈ seen then
      [issueAt (indexed "signals" i) ("duplicate signal " ++ quoted sig)]
    else []) ++ signalIssues (i + 1) (sig :: seen) sigs

def configIssues (base : String) (c : Catalog.Component) (n : Node) : List Issue :=
  match Runtime.validateSchema c.schema n.value with
  | .valid => []
  | .invalid e => schemaIssues (base ++ ".config") e
  | .failed message => [issueAt (base ++ ".config") message]

def nameIssues (base : String) (n : Node) : List Issue :=
  match n.name with
  | some name =>
    if name ≠ "" ∧ !validNodeName name then
      [issueAt (base ++ ".name") "node name must match ^[a-z0-9][a-z0-9-]\x7b0,63\x7d$"]
    else []
  | none => []

-- Checks the nodes from index `i` on, where `seen` holds the component IDs met so far, each with the
-- index at which it was met last.
def validateNodesFrom (field : String) (kind : Kind) :
    Nat → List (String × Nat) → List Node → List Issue
  | _, _, [] => []
  | i, seen, n :: ns =>
    let base := indexed field i
    nameIssues base n ++
      match Catalog.lookup kind n.type with
      | none =>
        issueAt (base ++ ".type") ("unknown " ++ kind.name ++ " type " ++ quoted n.type) ::
          validateNodesFrom field kind (i + 1) seen ns
      | some comp =>
        let id := componentID n i "c" "p"
        (match seen.lookup id with
          | some prev =>
            [issueAt base ("duplicate " ++ kind.name ++ " instance (same type and name as " ++
              indexed field prev ++ "); set a distinct name")]
          | none => []) ++
        configIssues base comp n ++ validateNodesFrom field kind (i + 1) ((id, i) :: seen) ns

def validateNodes (field : String) (kind : Kind) (nodes : List Node) : List Issue :=
  validateNodesFrom field kind 0 [] nodes

-- Checks the graph against the catalog: known components, schema-valid configs, sane signals, at
-- least one exporter, usable node names and no duplicate component IDs.
def validateStructural (g : Graph) : List Issue :=
  (if g.signals = [] then [issueAt "signals" "at least one signal is required"] else []) ++
  signalIssues 0 [] g.signals ++
  (if g.exporters = [] then [issueAt "exporters" "at least one exporter is required"] else []) ++
  validateNodes "processors" .processor g.processors ++
  validateNodes "exporters" .exporter g.exporters

structure Result where
  valid : Bool
  issues : List Issue
  renderedYAML : Option String

def renderFragmentOf : TargetClass → RenderPipeline → String
  | .forwarding => renderFragment
  | .edge => renderEdgeFragment

def renderFull : TargetClass → List RenderPipeline → Except String String
  | .forwarding => renderForwardingConfig
  | .edge => renderEdgeConfig

-- Runs both stages for a candidate: the structural checks, then `otelcol validate` on the full
-- config of its target class. Without the collector binary, the second stage is a mere warning.
def validate (binPath : String) (targetClass : TargetClass) (candidate : RenderPipeline)
    (activeOthers : List RenderPipeline) : Result :=
  let issues := validateStructural candidate.graph
  if issues ≠ [] then { valid := false, issues := issues, renderedYAML := none }
  else
    let fragment := renderFragmentOf targetClass candidate
    match renderFull targetClass (activeOthers ++ [candidate]) with
    | .error e =>
      { valid := false
        issues := [{ path := none, message := "render " ++ targetClass.name ++ " config: " ++ e }]
        renderedYAML := some fragment }
    | .ok full =>
      match Runtime.otelcolValidate with
      | none =>
        { valid := true
          issues := [{ path := none, message :=
            "warning: otelcol validate skipped: collector binary unavailable at " ++ binPath }]
          renderedYAML := some fragment }
      | some run =>
        match run full with
        | some out =>
          { valid := false
            issues := [{ path := none, message := "otelcol validate failed: " ++ out }]
            renderedYAML := some fragment }
        | none => { valid := true, issues := [], renderedYAML := some fragment }

end Pipelines
