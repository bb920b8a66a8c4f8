import OtelFleet.Crypto
import OtelFleet.Lib.Walk
import OtelFleet.Pipelines.Validate

open Json (Value Fields)
open Crypto (Cipher Nonce)

namespace Pipelines

-- What the fields marked as passwords look like whenever a graph leaves the backend.
def RedactedSentinel : String :=
  "__otelfleet_redacted__"

def encKey : String :=
  "$enc"

def encValue : Value → Option Base64.Bytes
  | .obj [(k, .str s)] => if k = encKey then Base64.decodeString s else none
  | _ => none

def newEncValue (ciphertext : Base64.Bytes) : Value :=
  .obj [(encKey, .str (Base64.encodeToString ciphertext))]

@[simp]
theorem encValue_newEncValue (ct : Base64.Bytes) : encValue (newEncValue ct) = some ct := by
  simp [encValue, newEncValue]

-- Leads a walk along a schema, which marks the fields of the format `password`. Below a value
-- without a schema there is nothing to find.
def secretGuide : Walk.Guide (Option Catalog.Schema) where
  marked schema := schema.any (·.format == some "password")
  field schema key := schema.bind fun s => (s.properties.lookup key).or s.additionalProperties
  item schema := schema.bind (·.items)

section Transform

variable {ω : Type} (fn : String → Value → Except String (Value × List ω))

def transformSecrets (schema : Option Catalog.Schema) (path : String) (v : Value) : Except String (Value × List ω) :=
  secretGuide.walk fn schema path v

def asMap : Value → Option Fields
  | .obj fields => some fields
  | _ => none

def configPath (field : String) (i : Nat) : String :=
  indexed field i ++ ".config"

def transformNode (kind : Catalog.Kind) (base : String) (n : Node) : Except String (Node × List ω) :=
  match Catalog.lookup kind n.type, n.config with
  | some comp, some fields =>
    match transformSecrets fn (some comp.schema) base (.obj fields) with
    | .error e => .error e
    | .ok (cfg, notes) => .ok ({ n with config := asMap cfg }, notes)
  | _, _ => .ok (n, [])

def transformNodes (field : String) (kind : Catalog.Kind) (nodes : List Node) : Except String (List Node × List ω) :=
  Walk.traverse (fun e => transformNode fn kind (configPath field e.2) e.1) nodes.zipIdx

-- Applies the function to every password field of every known node. Unknown component types are
-- skipped.
def transformGraphSecrets (g : Graph) : Except String (Graph × List ω) :=
  match transformNodes fn "processors" .processor g.processors with
  | .error e => .error e
  | .ok (processors, notes) =>
    match transformNodes fn "exporters" .exporter g.exporters with
    | .error e => .error e
    | .ok (exporters, rest) =>
      .ok ({ g with processors := processors, exporters := exporters }, notes ++ rest)

end Transform

structure Entropy where
  nonce : String → Except String Nonce
  exampleKey : String → String

-- The secret fields of the previous version by path, where a later entry comes first.
def prevSecrets : Option Graph → Except String (List (String × Value))
  | none => .ok []
  | some prev =>
    match transformGraphSecrets (fun path v => .ok (v, [(path, v)])) prev with
    | .error e => .error e
    | .ok (_, entries) => .ok entries.reverse

-- Encrypts one plaintext. Without a master key the field keeps its value and gets an issue.
def encryptSecret (cipher : Cipher) (rnd : Entropy) (path : String) (v : Value) (plaintext : String) :
    Except String (Value × List Issue) :=
  match Crypto.encrypt cipher (rnd.nonce path) plaintext with
  | .ok ct => .ok (newEncValue ct, [])
  | .error e =>
    if cipher.isSome then .error ("encrypt secret at " ++ path ++ ": " ++ e)
    else .ok (v, [issueAt path (Crypto.ErrNotConfigured ++
      "; secret fields cannot be stored without it (example key: " ++ rnd.exampleKey path ++ ")")])

def encryptField (cipher : Cipher) (rnd : Entropy) (prev : List (String × Value)) (path : String)
    (v : Value) : Except String (Value × List Issue) :=
  if (encValue v).isSome then .ok (v, [])
  else
    match v with
    | .str s =>
      if s = RedactedSentinel then
        match prev.lookup path with
        | none =>
          .ok (v, [issueAt path
            "value is redacted but no stored secret exists at this path; provide the actual value"])
        | some prevVal =>
          if (encValue prevVal).isSome then .ok (prevVal, [])
          else
            -- Plaintext from before the encryption of secrets.
            encryptSecret cipher rnd path v (match prevVal with | .str s => s | _ => "")
      else encryptSecret cipher rnd path v s
    | _ => .ok (v, [])

inductive SecretError where
  | failed (message : String)
  | issues (issues : List Issue)

-- Prepares a graph for storage: plaintexts are encrypted, and sentinels are replaced by what the
-- previous version holds at the same path.
def encryptGraphSecrets (g : Graph) (cipher : Cipher) (rnd : Entropy) (prev : Option Graph) :
    Except SecretError Graph :=
  match prevSecrets prev with
  | .error e => .error (.failed e)
  | .ok prev =>
    match transformGraphSecrets (encryptField cipher rnd prev) g with
    | .error e => .error (.failed e)
    | .ok (out, issues) => if issues ≠ [] then .error (.issues issues) else .ok out

def redactField (_path : String) : Value → Except String (Value × List Empty)
  | .null => .ok (.null, [])
  | _ => .ok (.str RedactedSentinel, [])

def redactGraphSecrets (g : Graph) : Graph :=
  match transformGraphSecrets redactField g with
  | .ok (out, _) => out
  | .error _ => { signals := [], processors := [], exporters := [] }

def decryptField (cipher : Cipher) (path : String) (v : Value) : Except String (Value × List Empty) :=
  match encValue v with
  | none => .ok (v, [])
  | some ct =>
    match Crypto.decrypt cipher ct with
    | .ok plaintext => .ok (.str plaintext, [])
    | .error e => .error ("decrypt secret at " ++ path ++ ": " ++ e)

def decryptGraphSecrets (g : Graph) (cipher : Cipher) : Except String Graph :=
  match transformGraphSecrets (decryptField cipher) g with
  | .ok (out, _) => .ok out
  | .error e => .error e

end Pipelines
