import OtelFleet.Lib.MergePatch
import OtelFleet.Pipelines.Render

open Json (Value Fields)

-- How a rendered config gets to the forwarding collectors.
namespace Pipelines

def StateApplied : String := "applied"

structure Rollout where
  state : String
  detail : String

structure Object where
  fields : Fields
  wf : (Value.obj fields).WF

-- What the distributor relies on: yaml.Unmarshal into a map, which stays nil for an empty document,
-- and whether json.Marshal accepts a value.
structure Codec where
  unmarshalYAML : String → Except String (Option Object)
  marshalJSON : Value → Except String Unit

structure K8sDistributor where
  name : String
  nameSpace : String

def specConfig (cfg : Option Object) : Value :=
  .obj [("spec", .obj [("config", cfg.elim .null fun o => .obj o.fields)])]

-- The resource after the call, next to its outcome. The API server applies the body as a merge
-- patch, unless it refuses the request.
def K8sDistributor.distribute (d : K8sDistributor) (codec : Codec) (refusal : Option String)
    (cr : Value) (renderedFullConfig : String) : Except String Rollout × Value :=
  match codec.unmarshalYAML renderedFullConfig with
  | .error e => (.error ("k8s distributor: decode rendered config: " ++ e), cr)
  | .ok cfg =>
    match codec.marshalJSON (specConfig cfg) with
    | .error e => (.error ("k8s distributor: marshal patch: " ++ e), cr)
    | .ok _ =>
      match refusal with
      | some e =>
        (.error ("k8s distributor: patch " ++ d.nameSpace ++ "/" ++ d.name ++ ": " ++ e), cr)
      | none =>
        (.ok {
            state := StateApplied
            detail := "patched OpenTelemetryCollector " ++ d.nameSpace ++ "/" ++ d.name },
          cr.mergePatch (specConfig cfg))

def K8sDistributor.distributeAll (d : K8sDistributor) (codec : Codec) (cr : Value)
    (calls : List (String × Option String)) : Value :=
  calls.foldl (fun cr call => (d.distribute codec call.2 cr call.1).2) cr

theorem K8sDistributor.distributeAll_concat (d : K8sDistributor) (codec : Codec) (cr : Value)
    (calls : List (String × Option String)) (text : String) (refusal : Option String) :
    d.distributeAll codec cr (calls ++ [(text, refusal)]) =
      (d.distribute codec refusal (d.distributeAll codec cr calls) text).2 := by
  simp [distributeAll]

def configOf (cr : Value) : Option Value :=
  cr.at? ["spec", "config"]

end Pipelines
