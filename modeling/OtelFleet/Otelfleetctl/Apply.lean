import OtelFleet.Otelfleetctl.Server

open Store (UUID)
open Sorting (sortBy)
open Json (Numeral)
open Pipelines (Node)

-- Customers and pipelines as a declarative spec.
namespace Otelfleetctl

structure PipelineSpec where
  name : String
  targetClass : String := ""
  graph : Except String PipelineGraph

structure CustomerSpec where
  name : String
  slug : String := ""
  rateLimitItemsPerSec : Option Int := none
  retentionDays : Option Int := none
  pipelines : List PipelineSpec := []

structure Spec where
  customers : List CustomerSpec

def currentVersion (p : Api.Pipeline) : Option Nat :=
  p.activeVersion.or p.latestVersion

section Export

variable [Runtime]

def exportPipeline (c : Client) (s : Server) (p : Api.Pipeline) : Except CallError (Option PipelineSpec) :=
  match currentVersion p with
  | none => .ok none
  | some version =>
    match s.getPipelineVersion c p.id version with
    | .error e => .error e
    | .ok g => .ok (some { name := p.name, targetClass := p.targetClass.name, graph := .ok g })

def exportCustomer (c : Client) (s : Server) (cust : Customer) : Except CallError CustomerSpec := do
  let pipes ← s.listPipelines cust.id
  let specs ← pipes.mapM (exportPipeline c s)
  return {
    name := cust.name
    slug := cust.slug
    rateLimitItemsPerSec := cust.rateLimitItemsPerSec
    retentionDays := cust.retentionDays
    pipelines := specs.reduceOption }

def exportSpec (c : Client) (s : Server) : Except CallError Spec := do
  let customers := (sortBy (·.slug) s.listCustomers).filter (·.status ≠ .deleted)
  return { customers := ← customers.mapM (exportCustomer c s) }

end Export

-- What is read from the file that has been written. Lists and maps that are nil are written as empty ones, and a
-- number comes back as what the decoder makes of its text.
section File

variable (reread : Numeral → Numeral)

def nodeFromFile (n : Node) : Node :=
  { n with config := some ((mapNumbers reread n).config.getD []) }

def PipelineGraph.fromFile (g : PipelineGraph) : PipelineGraph where
  signals := some (g.signals.getD [])
  processors := some ((g.processors.getD []).map (nodeFromFile reread))
  exporters := some ((g.exporters.getD []).map (nodeFromFile reread))

def CustomerSpec.fromFile (cs : CustomerSpec) : CustomerSpec :=
  { cs with pipelines := cs.pipelines.map fun ps => { ps with graph := ps.graph.map (·.fromFile reread) } }

def Spec.fromFile (spec : Spec) : Spec where
  customers := spec.customers.map (·.fromFile reread)

end File

section Plan

inductive Change where
  | createCustomer (name : String)
  | updateCustomer (slug : String) (keys : List String)
  | wouldCreatePipeline (name targetClass customer : String)
  | createPipeline (name slug : String)
  | newVersion (slug name : String)
deriving DecidableEq

structure Run where
  server : Server
  calls : Nat := 0
  changes : List Change := []
  skipped : List (String × String) := []

inductive Error where
  | createCustomer (name : String) (e : CallError)
  | updateCustomer (slug : String) (e : CallError)
  | createPipeline (name : String) (e : CallError)
  | newVersion (name : String) (e : CallError)
  | activate (name : String) (version : Nat) (e : CallError)
  | call (e : CallError)

abbrev Step (α : Type) :=
  Except (Error × Run) α

namespace Run

def add (r : Run) (change : Change) : Run :=
  { r with changes := r.changes ++ [change] }

def skip (r : Run) (slug name : String) : Run :=
  { r with skipped := r.skipped ++ [(slug, name)] }

def call {α : Type} (r : Run) (result : Except CallError α × Server) (wrap : CallError → Error) : Step (α × Run) :=
  let r := { r with server := result.2, calls := r.calls + 1 }
  match result.1 with
  | .error e => .error (wrap e, r)
  | .ok x => .ok (x, r)

end Run

end Plan

section Apply

variable [Runtime] (c : Client) (dryRun : Bool)

def defaultClass (targetClass : String) : String :=
  if targetClass = "" then "forwarding" else targetClass

def findCustomer (existing : List Customer) (cs : CustomerSpec) : Option Customer :=
  (existing.reverse.find? (·.slug = cs.slug)).or
    (if cs.slug = "" then existing.find? (·.name = cs.name) else none)

def updates (cust : Customer) (cs : CustomerSpec) : Update where
  name := if cust.name = cs.name then none else some cs.name
  rateLimitItemsPerSec :=
    if cust.rateLimitItemsPerSec = cs.rateLimitItemsPerSec then none else some cs.rateLimitItemsPerSec
  retentionDays := if cust.retentionDays = cs.retentionDays then none else some cs.retentionDays

def Update.keys (upd : Update) : List String :=
  (upd.name.map fun _ => "name").toList ++
    (upd.rateLimitItemsPerSec.map fun _ => "rateLimitItemsPerSec").toList ++
    (upd.retentionDays.map fun _ => "retentionDays").toList

def ensureCustomer (existing : List Customer) (r : Run) (cs : CustomerSpec) : Step (Option Customer × Run) :=
  match findCustomer existing cs with
  | some cust => .ok (some cust, r)
  | none =>
    let r := r.add (.createCustomer cs.name)
    if dryRun then .ok (none, r)
    else do
      let (cust, r) ← r.call (r.server.createCustomer (c.draws r.calls) cs.name cs.slug) (.createCustomer cs.name)
      return (some cust, r)

def reconcile (cust : Customer) (r : Run) (cs : CustomerSpec) : Step Run :=
  let upd := updates cust cs
  if upd.keys = [] then .ok r
  else
    let r := r.add (.updateCustomer cs.slug upd.keys)
    if dryRun then .ok r
    else do
      let (_, r) ← r.call (r.server.updateCustomer cust.id upd) (.updateCustomer cs.slug)
      return r

def addPipeline (cust : Customer) (r : Run) (ps : PipelineSpec) : Step Run :=
  let r := r.add (.createPipeline ps.name cust.slug)
  if dryRun then .ok r
  else do
    let (p, r) ← r.call
      (r.server.createPipeline c (c.draws r.calls) cust.id ps.name (defaultClass ps.targetClass) ps.graph)
      (.createPipeline ps.name)
    let (_, r) ← r.call (r.server.activateVersion c (c.draws r.calls) p.id 1) (.activate ps.name 1)
    return r

def addVersion (cust : Customer) (p : Api.Pipeline) (r : Run) (ps : PipelineSpec) : Step Run :=
  let r := r.add (.newVersion cust.slug ps.name)
  if dryRun then .ok r
  else do
    let (version, r) ← r.call (r.server.createPipelineVersion c (c.draws r.calls) p.id ps.graph) (.newVersion ps.name)
    let (_, r) ← r.call (r.server.activateVersion c (c.draws r.calls) p.id version) (.activate ps.name version)
    return r

def unchanged (s : Server) (p : Api.Pipeline) (ps : PipelineSpec) : Except CallError Bool :=
  match currentVersion p with
  | none => .ok false
  | some version =>
    match s.getPipelineVersion c p.id version with
    | .error e => .error e
    | .ok g => .ok (graphEqual g ps.graph)

def applyPipeline (cust : Customer) (existing : List Api.Pipeline) (r : Run) (ps : PipelineSpec) : Step Run :=
  match existing.reverse.find? (·.name = ps.name) with
  | none => addPipeline c dryRun cust r ps
  | some p =>
    match unchanged c r.server p ps with
    | .error e => .error (.call e, r)
    | .ok true => .ok (r.skip cust.slug ps.name)
    | .ok false => addVersion c dryRun cust p r ps

def applyPipelines (cust : Customer) (r : Run) (specs : List PipelineSpec) : Step Run :=
  match r.server.listPipelines cust.id with
  | .error e => .error (.call e, r)
  | .ok existing => specs.foldlM (applyPipeline c dryRun cust existing) r

def applyTo (cs : CustomerSpec) : Option Customer × Run → Step Run
  | (none, r) =>
    return cs.pipelines.foldl (fun r ps => r.add (.wouldCreatePipeline ps.name ps.targetClass cs.name)) r
  | (some cust, r) => do
    let r ← reconcile dryRun cust r cs
    applyPipelines c dryRun cust r cs.pipelines

def applyCustomer (existing : List Customer) (r : Run) (cs : CustomerSpec) : Step Run := do
  applyTo c dryRun cs (← ensureCustomer c dryRun existing r cs)

def apply (spec : Spec) (s : Server) : Step Run :=
  spec.customers.foldlM (applyCustomer c dryRun s.listCustomers) { server := s }

end Apply

end Otelfleetctl
