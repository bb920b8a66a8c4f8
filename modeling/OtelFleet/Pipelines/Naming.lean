import OtelFleet.Pipelines.Graph
import OtelFleet.Tenants.Slug
import OtelFleet.Lib.Strconv
import OtelFleet.Lib.Regex

-- Naming conventions of the rendered config:
--
--   collector pipeline: <signal>/<customerSlug>__<pipelineSlug>
--   exporter/processor: <type>/<customerSlug>__<pipelineSlug>__<nodeName-or-index>
namespace Pipelines

def pipelineSlug (name : String) : String :=
  Tenants.deriveSlug name

def pipelineKey (customerSlug pipelineSlug : String) : String :=
  customerSlug ++ "__" ++ pipelineSlug

def collectorPipelineID (signal customerSlug pipelineSlug : String) : String :=
  signal ++ "/" ++ pipelineKey customerSlug pipelineSlug

def nodeSuffix (n : Node) (idx : Nat) : String :=
  match n.name with
  | some name => if name ≠ "" then name else Strconv.itoa idx
  | none => Strconv.itoa idx

def componentID (n : Node) (idx : Nat) (customerSlug pipelineSlug : String) : String :=
  n.type ++ "/" ++ pipelineKey customerSlug pipelineSlug ++ "__" ++ nodeSuffix n idx

def exporterLabelRegex (customerSlug pipelineSlug : String) : String :=
  "^[^/]+/" ++ Regex.quoteMeta (pipelineKey customerSlug pipelineSlug) ++ "__.*"

def componentType (id : String) : String :=
  String.ofList (id.toList.takeWhile (· ≠ '/'))

-- The pattern ^[a-z0-9][a-z0-9-]{0,63}$.
def validNodeName (name : String) : Bool :=
  match name.toList with
  | [] => false
  | c :: cs => Tenants.isAlnum c && cs.length ≤ 63 && cs.all Tenants.isSlugChar

end Pipelines
